import TemplateTree.Expression
import TemplateTree.Render

/-
  Bindings as they are given to a command.

  Key definitions include:
    * `Binding.parse`
    * `Binding.parseAll`

  A binding is a name, an equality sign and a value.  A value
  that is no literal stands for itself as text.
-/

------------------------------------------------------------
-- Bindings
------------------------------------------------------------

namespace TemplateTree

namespace Binding

/- Why a text is no binding. -/
inductive Fault where
| noSign (raw : String)
| badName (name : String)
deriving DecidableEq, Repr

/- The wording of a fault. -/
def Fault.message : Fault → String
| .noSign raw => "binding " ++ ticked raw ++ " is not NAME=VALUE"
| .badName name => ticked name ++ " is not a valid binding name"

/- What stands before and after the first equality sign. -/
def split? : List Char → Option (List Char × List Char)
| [] => none
| c :: rest =>
    if c = '=' then some ([], rest)
    else (split? rest).map fun (name, value) => (c :: name, value)

/- The value of a binding. -/
def value (text : String) : Literal :=
  (Expression.literal? text).getD (.text text)

/- The name and the value that a text binds. -/
def parse (raw : String) : Except Fault (String × Literal) :=
  match split? raw.toList with
  | none => .error (.noSign raw)
  | some (name, text) =>
      let name := Text.trim (String.ofList name)
      if Expression.isIdentifier name then
        .ok (name, value (String.ofList text))
      else .error (.badName name)

/- The bindings of some texts, in order. -/
def parseAll : List String → Except Fault (List (String × Literal))
| [] => .ok []
| raw :: rest =>
    (parse raw).bind fun binding => (parseAll rest).map (binding :: ·)

end Binding

end TemplateTree
