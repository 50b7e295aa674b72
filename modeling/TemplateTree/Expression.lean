import TemplateTree.Literal
import TemplateTree.Text.Blank

/-
  What can be told about an expression without running it.

  Key definitions include:
    * `Expression.readText`
    * `Expression.readNumber`
    * `Expression.literal?`
    * `Expression.isIdentifier`
    * `Expression.source`

  Expressions are source text of the generated program.  A
  literal has a known value, and a dotted identifier can be
  looked up among bindings.  `source` writes a literal as an
  expression that reads back as it.
-/

------------------------------------------------------------
-- Text Literals
------------------------------------------------------------

namespace TemplateTree

namespace Expression

/- The character that a letter after a backslash stands for. -/
def escape? (c : Char) : Option Char :=
  if c = 'n' then some '\n'
  else if c = 't' then some '\t'
  else if c = 'r' then some '\r'
  else if c = '0' then some '\x00'
  else if c = '\\' then some '\\'
  else if c = '"' then some '"'
  else none

/-
  Read the rest of a text literal after its opening quote.
  The closing quote has to be the last character.
-/
def readText : List Char → Option (List Char)
| [] => none
| '\\' :: rest =>
    match rest with
    | [] => none
    | c :: rest' =>
        (escape? c).bind fun d => (readText rest').map (d :: ·)
| c :: rest =>
    if c = '"' then (if rest.isEmpty then some [] else none)
    else (readText rest).map (c :: ·)

/- One character of a text literal. -/
def escapedChar (c : Char) : List Char :=
  if c = '"' then ['\\', '"']
  else if c = '\\' then ['\\', '\\']
  else if c = '\n' then ['\\', 'n']
  else if c = '\t' then ['\\', 't']
  else if c = '\r' then ['\\', 'r']
  else if c = '\x00' then ['\\', '0']
  else [c]

------------------------------------------------------------
-- Numbers
------------------------------------------------------------

/- The least integer of 64 bits. -/
def minInt : Int :=
  -(Nat.pow 2 63 : Nat)

/- The greatest integer of 64 bits. -/
def maxInt : Int :=
  ((Nat.pow 2 63 : Nat) : Int) - 1

/- An integer literal, if 64 bits can hold the value. -/
def intLiteral? (value : Int) : Option Literal :=
  if minInt ≤ value ∧ value ≤ maxInt then
    some (.int (Int64.ofInt value))
  else none

/- A whole number with the sign of its literal. -/
def signed
    (negative : Bool)
    (n : Nat) : Int :=
  if negative then -(n : Int) else n

/-
  Read the exponent of a float, which is the rest of the
  literal: nothing, or a letter, a sign and digits.
-/
def readExponent : List Char → Option Int
| [] => some 0
| e :: rest =>
    if e = 'e' ∨ e = 'E' then
      let negative := rest.head? == some '-'
      let digits :=
        if rest.head? == some '-' || rest.head? == some '+' then
          rest.tail
        else rest
      if digits.isEmpty then none
      else if digits.all Char.isDigit then
        some (signed negative (Nat.ofDigitChars 10 digits 0))
      else none
    else none

/-
  Read an unsigned decimal number: digits, then a point with
  more digits or none, then an exponent.
-/
def readDecimal (cs : List Char) : Option Decimal :=
  let whole := cs.takeWhile Char.isDigit
  let rest := cs.dropWhile Char.isDigit
  let pointed := rest.head? == some '.'
  let fraction := if pointed then rest.tail.takeWhile Char.isDigit else []
  let tail := if pointed then rest.tail.dropWhile Char.isDigit else rest
  (readExponent tail).map fun exponent =>
    ⟨Nat.ofDigitChars 10 (whole ++ fraction) 0,
      exponent - fraction.length⟩

/-
  Read a number: an optional minus and digits make an
  integer, and with a point or an exponent a float.  A number
  that its kind cannot hold is no literal.
-/
def readNumber (cs : List Char) : Option Literal :=
  let negative := cs.head? == some '-'
  let digits := if negative then cs.tail else cs
  match digits with
  | [] => none
  | c :: _ =>
      if !c.isDigit then none
      else if digits.all Char.isDigit then
        intLiteral? (signed negative (Nat.ofDigitChars 10 digits 0))
      else
        (readDecimal digits).bind fun d =>
          let x := d.toDouble negative
          if x.isFinite then some (.float x) else none

------------------------------------------------------------
-- Literals And Identifiers
------------------------------------------------------------

/- The value of an expression that is a literal. -/
def literal? (src : String) : Option Literal :=
  let cs := Text.trimChars src.toList
  if cs = "true".toList then some (.bool true)
  else if cs = "false".toList then some (.bool false)
  else
    match cs with
    | '"' :: body => (readText body).map fun t => .text (String.ofList t)
    | _ => readNumber cs

/- A letter or an underscore. -/
def isWordStart (c : Char) : Bool :=
  c.isAlpha || c == '_'

/- A letter, a digit or an underscore. -/
def isWordChar (c : Char) : Bool :=
  c.isAlphanum || c == '_'

/-
  Words joined by dots.  The flag tells whether the next
  character has to start a word.
-/
def isPath : (start : Bool) → List Char → Bool
| start, [] => !start
| true, c :: cs => isWordStart c && isPath false cs
| false, c :: cs =>
    if c = '.' then isPath true cs
    else isWordChar c && isPath false cs

/- Whether an expression is an identifier such as `user.name`. -/
def isIdentifier (src : String) : Bool :=
  let cs := Text.trimChars src.toList
  cs != "true".toList && cs != "false".toList && isPath true cs

/- A literal as an expression that reads back as it. -/
def source : Literal → String
| .text value =>
    String.ofList ('"' :: value.toList.flatMap escapedChar ++ ['"'])
| .float value => FloatLayout.source.write value
| .int value => Literal.intText value.toInt
| .bool value => Literal.boolText value

end Expression

end TemplateTree
