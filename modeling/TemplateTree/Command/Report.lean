import TemplateTree.Error
import TemplateTree.Text.Split

/-
  Reports of errors for people.

  Key definitions include:
    * `CommandError.report`

  A report has the code of an error, its message, the
  messages of the errors behind it, and advice if there is
  some.  A message of several lines is kept together by the
  margin at its left.
-/

------------------------------------------------------------
-- Reports
------------------------------------------------------------

namespace TemplateTree

namespace CommandError

/-
  The lines of a text, the first after one margin and the
  others after another.  Spaces at the end of a line are left
  out, and those of the margin stay.
-/
def marginLines
    (first : String)
    (others : String)
    (text : String) : List String :=
  let lines :=
    (Text.split '\n' text.toList).map fun line =>
      String.ofList (Text.dropTrailing ' ' line) ++ "\n"
  match lines with
  | [] => []
  | line :: rest => (first ++ line) :: rest.map (others ++ ·)

/- The lines of the errors behind an error. -/
def causeLines : List String → List String
| [] => []
| [last] => marginLines "  ╰─▶ " "      " last
| cause :: rest => marginLines "  ├─▶ " "  │   " cause ++ causeLines rest

/- The line of the advice that goes with an error. -/
def helpLines (error : CommandError) : List String :=
  match error.help? with
  | some text => ["  help: " ++ text ++ "\n"]
  | none => []

/- The report of an error. -/
def report (error : CommandError) : String :=
  error.code ++ "\n\n"
    ++ String.join
      (marginLines "  × " "  │ " error.message
        ++ causeLines error.causes ++ helpLines error)

end CommandError

end TemplateTree
