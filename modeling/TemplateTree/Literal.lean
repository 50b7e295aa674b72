import TemplateTree.Number.Layout

/-
  Literals: the leaf values of a template tree.

  Key definitions include:
    * `Literal`
    * `Literal.kind`
    * `Literal.rendered`

  Integers have 64 bits.  Floats are bit patterns, so equal
  literals are equal bit for bit.
-/

------------------------------------------------------------
-- Literals
------------------------------------------------------------

namespace TemplateTree

/- A leaf value carried by an argument of a node. -/
inductive Literal where
| text (value : String)
| int (value : Int64)
| float (value : Double)
| bool (value : Bool)
deriving DecidableEq, Repr

namespace Literal

/- The name of a literal's kind. -/
def kind : Literal → String
| .text _ => "text"
| .int _ => "int"
| .float _ => "float"
| .bool _ => "bool"

/- The text of a text literal. -/
def asText? : Literal → Option String
| .text value => some value
| _ => none

/- A truth value in words. -/
def boolText (value : Bool) : String :=
  if value then "true" else "false"

/- A whole number in decimal digits. -/
def intText (value : Int) : String :=
  let digits := Nat.toDigits 10 value.natAbs
  String.ofList (if value < 0 then '-' :: digits else digits)

/-
  The text that an evaluated literal contributes to rendered
  output.
-/
def rendered : Literal → String
| .text value => value
| .int value => intText value.toInt
| .float value => FloatLayout.plain.write value
| .bool value => boolText value

end Literal

end TemplateTree
