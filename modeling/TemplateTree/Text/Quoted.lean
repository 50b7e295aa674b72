import TemplateTree.Text.Unprintable

/-
  Texts in double quotes, as messages and displayed trees
  show them.

  Key definitions include:
    * `Text.braced`
    * `Text.quotedChar`
    * `Text.quoted`

  A quoted text is one line of visible characters: quotes,
  backslashes and the usual control characters have short
  escapes, and any other unprintable character is spelled
  by its number.
-/

------------------------------------------------------------
-- Quoted Texts
------------------------------------------------------------

namespace TemplateTree

namespace Text

/- A character spelled by its number in lower-case hexadecimal. -/
def braced (c : Char) : List Char :=
  ['\\', 'u', '\x7b'] ++ Nat.toDigits 16 c.toNat ++ ['\x7d']

/- One character of a quoted text. -/
def quotedChar (c : Char) : List Char :=
  if c = '\x00' then ['\\', '0']
  else if c = '\t' then ['\\', 't']
  else if c = '\r' then ['\\', 'r']
  else if c = '\n' then ['\\', 'n']
  else if c = '"' then ['\\', '"']
  else if c = '\\' then ['\\', '\\']
  else if isUnprintable c then braced c
  else [c]

/- A text in double quotes with its escapes. -/
def quoted (s : String) : String :=
  String.ofList ('"' :: s.toList.flatMap quotedChar ++ ['"'])

end Text

end TemplateTree
