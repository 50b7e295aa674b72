import TemplateTree.Error

/-
  Template trees as JSON texts.

  Key definitions include:
    * `Json.floatLayout`
    * `Json.quotedChars`
    * `Json.writeArg`
    * `Json.compact`
    * `Json.pretty`

  A node is an array that starts with its tag.  Texts,
  numbers and truth values are literals.  The two forms of a
  document differ only in the white space around elements.
-/

------------------------------------------------------------
-- Scalars
------------------------------------------------------------

namespace TemplateTree

namespace Json

/-
  Floats always keep a point or an exponent, so that they
  read back as floats.
-/
def floatLayout : FloatLayout where
  inPlace := fun e => decide (-5 ≤ e ∧ e ≤ 15)
  fraction := true
  plus := true
  tie := .even

/- One character of a JSON string. -/
def quotedChar (c : Char) : List Char :=
  if c = '"' then ['\\', '"']
  else if c = '\\' then ['\\', '\\']
  else if c = '\x08' then ['\\', 'b']
  else if c = '\x0c' then ['\\', 'f']
  else if c = '\n' then ['\\', 'n']
  else if c = '\r' then ['\\', 'r']
  else if c = '\t' then ['\\', 't']
  else if c.toNat < 0x20 then
    ['\\', 'u', '0', '0', Nat.digitChar (c.toNat / 16),
      Nat.digitChar (c.toNat % 16)]
  else [c]

/- A JSON string. -/
def quotedChars (s : String) : List Char :=
  '"' :: s.toList.flatMap quotedChar ++ ['"']

/- A literal as a JSON value. -/
def literalChars : Literal → List Char
| .text s => quotedChars s
| .int n => (Literal.intText n.toInt).toList
| .float x => (floatLayout.write x).toList
| .bool b => (Literal.boolText b).toList

------------------------------------------------------------
-- Trees
------------------------------------------------------------

mutual

/-
  An argument as a JSON value.  The gap of a level is the
  white space before what stands on that level of nesting.
-/
def writeArg
    (gap : Nat → List Char)
    (level : Nat) :
    Arg → List Char
| .literal value => literalChars value
| .node tag args =>
    '[' :: gap (level + 1) ++ quotedChars tag
      ++ writeArgs gap (level + 1) args ++ gap level ++ [']']

/- Arguments, each after a comma. -/
def writeArgs
    (gap : Nat → List Char)
    (level : Nat) :
    List Arg → List Char
| [] => []
| arg :: args =>
    ',' :: gap level ++ writeArg gap level arg
      ++ writeArgs gap level args

end

/- No white space at all. -/
def noGap (_ : Nat) : List Char :=
  []

/- A new line for each element, indented by two spaces a level. -/
def lineGap (level : Nat) : List Char :=
  '\n' :: List.replicate (2 * level) ' '

/-
  Refuse a tree that JSON cannot hold: one that nests too
  deep, or one with a float that is not finite.
-/
def ensureWritable (node : Node) : Except CompileError Unit :=
  if node.deeperThan Node.maxDepth then
    .error (.encode ("nesting deeper than " ++ toString Node.maxDepth))
  else
    match node.findNonFinite? with
    | some x =>
        .error (.encode ("JSON cannot represent the float "
          ++ FloatLayout.plain.write x))
    | none => .ok ()

/- A tree as a JSON text with given gaps. -/
def write
    (gap : Nat → List Char)
    (node : Node) : Except CompileError String :=
  (ensureWritable node).map fun _ =>
    String.ofList (writeArg gap 0 node.toArg)

/- A tree as a JSON text on one line. -/
def compact (node : Node) : Except CompileError String :=
  write noGap node

/- A tree as a JSON text with one element on each line. -/
def pretty (node : Node) : Except CompileError String :=
  write lineGap node

end Json

end TemplateTree
