import TemplateTree.Text.Quoted

/-
  String literals of generated programs.

  Key definitions include:
    * `Text.escapedChar`
    * `Text.escaped`
    * `Text.unescape`
    * `Text.stringLiteral`

  A static text reaches a generated program as a string
  literal of visible ASCII characters only, so it stays on
  one line and cannot end early.  `unescape` reads the body
  of such a literal back.
-/

------------------------------------------------------------
-- Writing
------------------------------------------------------------

namespace TemplateTree

namespace Text

/- One character in the body of a string literal. -/
def escapedChar (c : Char) : List Char :=
  if c = '\t' then ['\\', 't']
  else if c = '\r' then ['\\', 'r']
  else if c = '\n' then ['\\', 'n']
  else if c = '\'' then ['\\', '\'']
  else if c = '"' then ['\\', '"']
  else if c = '\\' then ['\\', '\\']
  else if 0x20 ≤ c.toNat ∧ c.toNat ≤ 0x7e then [c]
  else braced c

/- The body of a string literal. -/
def escaped (cs : List Char) : List Char :=
  cs.flatMap escapedChar

/- A text as a string literal of a generated program. -/
def stringLiteral (s : String) : String :=
  String.ofList ('"' :: escaped s.toList ++ ['"'])

------------------------------------------------------------
-- Reading
------------------------------------------------------------

/- The value of a hexadecimal digit. -/
def hexValue? (c : Char) : Option Nat :=
  if '0' ≤ c ∧ c ≤ '9' then some (c.toNat - 48)
  else if 'a' ≤ c ∧ c ≤ 'f' then some (c.toNat - 87)
  else if 'A' ≤ c ∧ c ≤ 'F' then some (c.toNat - 55)
  else none

/- The number written by hexadecimal digits. -/
def hexNumber? : List Char → Nat → Option Nat
| [], n => some n
| c :: cs, n => (hexValue? c).bind fun d => hexNumber? cs (16 * n + d)

/-
  Read the body of a string literal.  The state says what an
  earlier backslash still waits for: nothing, the letter of
  its escape, the opening brace of a number, or the rest of
  a number whose digits are given in reverse.
-/
inductive EscapeState where
| plain
| letter
| brace
| number (digits : List Char)
deriving DecidableEq, Repr

/- The character a short escape stands for. -/
def shortEscape? (c : Char) : Option Char :=
  if c = 't' then some '\t'
  else if c = 'r' then some '\r'
  else if c = 'n' then some '\n'
  else if c = '\'' then some '\''
  else if c = '"' then some '"'
  else if c = '\\' then some '\\'
  else none

/- The character with a given number, if there is one. -/
def charOfNumber? (n : Nat) : Option Char :=
  if h : n.isValidChar then some (Char.ofNatAux n h) else none

/- Read the body of a string literal from a given state. -/
def unescapeFrom : EscapeState → List Char → Option (List Char)
| .plain, [] => some []
| _, [] => none
| .plain, c :: cs =>
    if c = '\\' then unescapeFrom .letter cs
    else if c = '"' then none
    else (unescapeFrom .plain cs).map (c :: ·)
| .letter, c :: cs =>
    if c = 'u' then unescapeFrom .brace cs
    else
      (shortEscape? c).bind fun d =>
        (unescapeFrom .plain cs).map (d :: ·)
| .brace, c :: cs =>
    if c = '\x7b' then unescapeFrom (.number []) cs else none
| .number digits, c :: cs =>
    if c = '\x7d' then
      ((hexNumber? digits.reverse 0).bind charOfNumber?).bind fun d =>
        (unescapeFrom .plain cs).map (d :: ·)
    else unescapeFrom (.number (c :: digits)) cs

/- Read the body of a string literal. -/
def unescape (cs : List Char) : Option (List Char) :=
  unescapeFrom .plain cs

end Text

end TemplateTree
