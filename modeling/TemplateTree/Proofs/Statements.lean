import Mathlib.Data.List.Basic
import TemplateTree.Proofs.EmittedPieces
import TemplateTree.Render
import TemplateTree.Text.Split

/-
  The statements of a program, one on each line.

  Main declarations:
    * `Text.lines`
    * `Layout.trimmed_lines_emit`
    * `Frame.content?`
    * `Statement.ofLine?`
    * `Program.evaluate?`
    * `Statement.ofLine?_valueFrame`
    * `Statement.ofLine?_textFrame`

  A program without fragments of code is read line by line.
  A statement is told by the texts around its content, and it
  is told right whatever the content is.
-/

------------------------------------------------------------
-- Lines
------------------------------------------------------------

namespace TemplateTree

namespace Text

/- A line without a carriage return at its end. -/
def dropReturn (line : List Char) : List Char :=
  if line.getLast? = some '\r' then line.dropLast else line

/-
  The lines of a text.  A newline ends a line, and what follows
  the last newline is a line of its own unless it is empty.
-/
def lines (cs : List Char) : List (List Char) :=
  let parts := split '\n' cs
  parts.dropLast.map dropReturn ++
    (parts.getLast?.toList.filter fun part => part ≠ [])

/- A line that a newline ends stands before the other lines. -/
theorem lines_append_newline
    {line : List Char}
    (hLine : '\n' ∉ line)
    (rest : List Char) :
    lines (line ++ '\n' :: rest) =
      dropReturn line :: lines rest := by
  have hParts := split_ne_nil '\n' rest
  unfold lines
  rw [split_append_separator hLine]
  simp only [List.dropLast_cons_of_ne_nil hParts,
    List.getLast?_cons_of_ne_nil hParts, List.map_cons,
    List.cons_append]

/- A text on one line, without white space around it. -/
structure IsTrimmedLine (line : List Char) : Prop where
  single : '\n' ∉ line
  head : line.head?.map isBlank = some false
  last : line.getLast?.map isBlank = some false

/- A trimmed line is left as it is. -/
theorem IsTrimmedLine.trimChars_eq
    {line : List Char}
    (h : IsTrimmedLine line) :
    trimChars line = line := by
  rcases Option.map_eq_some_iff.mp h.head with ⟨c, hHead, hc⟩
  rcases Option.map_eq_some_iff.mp h.last with ⟨d, hLast, hd⟩
  rcases List.head?_eq_some_iff.mp hHead with ⟨cs, hcs⟩
  rcases List.getLast?_eq_some_iff.mp hLast with ⟨ds, hds⟩
  have hDrop : line.dropWhile isBlank = line := by
    rw [hcs, List.dropWhile_cons, hc]
    rfl
  rw [trimChars, hDrop, hds]
  exact trimEnd_append_singleton hd ds

/- Reading a trimmed line and trimming it changes nothing. -/
theorem IsTrimmedLine.trimChars_dropReturn
    {line : List Char}
    (h : IsTrimmedLine line) :
    trimChars (dropReturn line) = line := by
  have hReturn : line.getLast? ≠ some '\r' := by
    intro hLast
    have hBlank := h.last
    rw [hLast] at hBlank
    revert hBlank
    decide
  rw [dropReturn, if_neg hReturn]
  exact h.trimChars_eq

end Text

namespace Layout

/- Lines that are printed as they stand keep their level. -/
theorem place_lines
    (level : Nat)
    (texts : List String) :
    place level (texts.map Entry.line) =
      texts.map fun text => (level, text) := by
  induction texts with
  | nil => rfl
  | cons text texts ih =>
      rw [List.map_cons, place, ih, List.map_cons]

/- Without fragments of code, nothing is indented. -/
theorem toList_emit_lines
    (texts : List String) :
    (emit (texts.map Entry.line)).toList =
      texts.flatMap fun text => text.toList ++ ['\n'] := by
  unfold emit
  rw [place_lines, List.map_map, String.toList_join,
    List.flatMap_map]
  apply List.flatMap_congr
  intro text hText
  simp [printLine]

/- The lines of a printed list are the members of the list. -/
theorem trimmed_lines_emit
    {texts : List String}
    (hTexts :
      ∀ text ∈ texts, Text.IsTrimmedLine text.toList) :
    (Text.lines (emit (texts.map Entry.line)).toList).map
        Text.trimChars =
      texts.map String.toList := by
  rw [toList_emit_lines]
  induction texts with
  | nil => rfl
  | cons text texts ih =>
      rw [List.forall_mem_cons] at hTexts
      rw [List.flatMap_cons, List.append_assoc,
        List.singleton_append,
        Text.lines_append_newline hTexts.1.single,
        List.map_cons, hTexts.1.trimChars_dropReturn,
        ih hTexts.2, List.map_cons]

end Layout

------------------------------------------------------------
-- Statements
------------------------------------------------------------

/- The texts around the content of a statement. -/
structure Frame where
  before : String
  after : String
deriving DecidableEq, Repr

namespace Frame

/- A content between the texts around it. -/
def around
    (frame : Frame)
    (content : List Char) : List Char :=
  frame.before.toList ++ (content ++ frame.after.toList)

/- The content of a line, if the line has the frame. -/
def content?
    (frame : Frame)
    (line : List Char) : Option (List Char) :=
  (frame.before.toList.isPrefixOf? line).bind fun rest =>
    frame.after.toList.isSuffixOf? rest

theorem content?_around
    (frame : Frame)
    (content : List Char) :
    frame.content? (frame.around content) = some content := by
  unfold content? around
  rw [Option.bind_eq_some_iff]
  refine ⟨content ++ frame.after.toList, ?_, ?_⟩
  · exact List.isPrefixOf?_eq_some_iff_append_eq.mpr rfl
  · exact List.isSuffixOf?_eq_some_iff_append_eq.mpr rfl

/- A frame of a statement, which is on one line. -/
structure IsPlain (frame : Frame) : Prop where
  before : '\n' ∉ frame.before.toList
  after : '\n' ∉ frame.after.toList
  head : frame.before.toList.head?.map Text.isBlank = some false
  last : frame.after.toList.getLast?.map Text.isBlank = some false

/- A statement is on one line if its content is. -/
theorem IsPlain.isTrimmedLine_around
    {frame : Frame}
    (h : frame.IsPlain)
    {content : List Char}
    (hContent : '\n' ∉ content) :
    Text.IsTrimmedLine (frame.around content) := by
  rcases Option.map_eq_some_iff.mp h.head with ⟨c, hHead, hc⟩
  rcases Option.map_eq_some_iff.mp h.last with ⟨d, hLast, hd⟩
  constructor
  · simp [around, h.before, h.after, hContent]
  · simp [around, hHead, hc]
  · simp [around, hLast, hd]

end Frame

/- A line of a program, by what it adds to the output. -/
inductive Statement where
| value (expression : List Char)
| text (body : List Char)
| outline
deriving DecidableEq, Repr

namespace Statement

/- The frame of a statement that adds a value. -/
def valueFrame : GeneratorStyle → Frame
| .buffer => ⟨"_buf.push_str(&(", ").to_string());"⟩
| .array => ⟨"_buf.push((", ").to_string());"⟩

/- The frame of a statement that adds a text. -/
def textFrame : GeneratorStyle → Frame
| .buffer => ⟨"_buf.push_str(\"", "\");"⟩
| .array => ⟨"_buf.push(String::from(\"", "\"));"⟩

/- The content of a line in the frame of either style. -/
def content?
    (frame : GeneratorStyle → Frame)
    (line : List Char) : Option (List Char) :=
  ((frame .buffer).content? line).or
    ((frame .array).content? line)

/- Whether a line starts or ends a program. -/
def isOutline (line : List Char) : Bool :=
  "let mut _buf".toList.isPrefixOf line
    || line == "_buf".toList
    || line == "_buf.concat()".toList

/-
  The statement on a line.  The style of a program is not
  known, and a line that is none of these has no statement.
-/
def ofLine? (line : List Char) : Option Statement :=
  match content? valueFrame line with
  | some expression => some (.value expression)
  | none =>
      match content? textFrame line with
      | some body => some (.text body)
      | none => if isOutline line then some .outline else none

/- What a statement adds to the output. -/
def output?
    (bindings : Bindings) :
    Statement → Option String
| .value expression =>
    (Render.render bindings
      (Node.dynamic (String.ofList expression))).toOption
| .text body => (Text.unescape body).map String.ofList
| .outline => some ""

end Statement

namespace Program

/- The output of lines that follow each other. -/
def outputOf?
    (bindings : Bindings) :
    List (List Char) → Option String
| [] => some ""
| line :: rest =>
    ((Statement.ofLine? line).bind
      (Statement.output? bindings)).bind fun first =>
        (outputOf? bindings rest).map (first ++ ·)

/- The output of a program, read line by line. -/
def evaluate?
    (bindings : Bindings)
    (program : String) : Option String :=
  outputOf? bindings
    ((Text.lines program.toList).map Text.trimChars)

end Program

------------------------------------------------------------
-- Telling Statements Apart
------------------------------------------------------------

namespace Statement

theorem isPlain_valueFrame
    (style : GeneratorStyle) :
    (valueFrame style).IsPlain := by
  cases style <;> constructor <;> decide

theorem isPlain_textFrame
    (style : GeneratorStyle) :
    (textFrame style).IsPlain := by
  cases style <;> constructor <;> decide

/-
  The content of a line is found in whichever style it was
  written, if the two frames differ before the content starts.
-/
theorem content?_around
    {frame : GeneratorStyle → Frame}
    (hApart :
      ∀ content,
        (frame .buffer).content? ((frame .array).around content) =
          none)
    (style : GeneratorStyle)
    (content : List Char) :
    content? frame ((frame style).around content) =
      some content := by
  unfold content?
  cases style with
  | buffer =>
      rw [Frame.content?_around, Option.some_or]
  | array =>
      rw [hApart, Frame.content?_around, Option.none_or]

/- No line with a text has a value as well. -/
theorem content?_valueFrame_textFrame
    (style : GeneratorStyle)
    (body : List Char) :
    content? valueFrame ((textFrame style).around body) =
      none := by
  cases style <;> rfl

theorem ofLine?_valueFrame
    (style : GeneratorStyle)
    (expression : List Char) :
    ofLine? ((valueFrame style).around expression) =
      some (.value expression) := by
  unfold ofLine?
  rw [content?_around (fun _ => rfl)]

theorem ofLine?_textFrame
    (style : GeneratorStyle)
    (body : List Char) :
    ofLine? ((textFrame style).around body) =
      some (.text body) := by
  unfold ofLine?
  rw [content?_valueFrame_textFrame,
    content?_around (fun _ => rfl)]

end Statement

end TemplateTree
