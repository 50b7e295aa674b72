import TemplateTree.Toml.Strings
import TemplateTree.Toml.Value

/-
  Writing TOML documents.

  Key definitions include:
    * `Toml.StringForm`
    * `Toml.writeString`
    * `Toml.writeKey`
    * `Toml.writeValue`
    * `Toml.write`

  A string takes the plainest form that can hold it.  The
  entries of a table come first, and then its tables, each
  under a header with its whole path.
-/

------------------------------------------------------------
-- Strings
------------------------------------------------------------

namespace TemplateTree

namespace Toml

/- The forms of a string. -/
inductive StringForm where
| basic
| literal
| longBasic
| longLiteral
deriving DecidableEq, Repr

/- A control character other than a tab. -/
def isControl (c : Char) : Bool :=
  !isPlain c

/- A control character other than a tab and a newline. -/
def isHidden (c : Char) : Bool :=
  isControl c && c != '\n'

/- Whether a quote stands three times in a row. -/
def hasTriple (quote : Char) : List Char → Bool
| [] => false
| c :: rest =>
    (c :: rest).take 3 == [quote, quote, quote] || hasTriple quote rest

/-
  The form of a string, which is the first that holds it as
  it is, and otherwise one with escapes.
-/
def stringForm (cs : List Char) : StringForm :=
  let hidden := cs.any isHidden
  let newline := cs.contains '\n'
  let backslash := cs.contains '\\'
  if !hidden && !backslash && !cs.contains '"' && !newline then .basic
  else if !hidden && !cs.contains '\'' && !newline then .literal
  else if !hidden && !backslash && !hasTriple '"' cs then .longBasic
  else if !hidden && !hasTriple '\'' cs then .longLiteral
  else if newline then .longBasic
  else .basic

/- A hexadecimal digit in upper case. -/
def hexDigit (n : Nat) : Char :=
  if n < 10 then Char.ofNat (48 + n) else Char.ofNat (55 + n)

/- A character of a string with escapes that is no quote. -/
def escapedChar
    (long : Bool)
    (c : Char) : List Char :=
  if c = '\x08' then ['\\', 'b']
  else if c = '\t' then ['\\', 't']
  else if c = '\n' then (if long then ['\n'] else ['\\', 'n'])
  else if c = '\x0c' then ['\\', 'f']
  else if c = '\r' then ['\\', 'r']
  else if c = '\\' then ['\\', '\\']
  else if isControl c then
    ['\\', 'u', '0', '0', hexDigit (c.toNat / 16), hexDigit (c.toNat % 16)]
  else [c]

/-
  The body of a string with escapes.  A long one may hold two
  quotes in a row as they are; `run` counts those just written.
-/
def escapedFrom
    (long : Bool) :
    (run : Nat) → List Char → List Char
| _, [] => []
| run, c :: rest =>
    if c = '"' then
      if long ∧ run < 2 then '"' :: escapedFrom long (run + 1) rest
      else '\\' :: '"' :: escapedFrom long 0 rest
    else escapedChar long c ++ escapedFrom long 0 rest

/- The quotes of a long string. -/
def tripled (quote : Char) : List Char :=
  [quote, quote, quote]

/- What opens a long string, with a newline if it has one. -/
def opening
    (quote : Char)
    (cs : List Char) : List Char :=
  tripled quote ++ (if cs.contains '\n' then ['\n'] else [])

/- A string in a given form. -/
def writeAs
    (form : StringForm)
    (cs : List Char) : List Char :=
  match form with
  | .basic => '"' :: escapedFrom false 0 cs ++ ['"']
  | .literal => '\'' :: cs ++ ['\'']
  | .longBasic => opening '"' cs ++ escapedFrom true 0 cs ++ tripled '"'
  | .longLiteral => opening '\'' cs ++ cs ++ tripled '\''

/- A string in the form that suits it. -/
def writeString (cs : List Char) : List Char :=
  writeAs (stringForm cs) cs

/- A key: bare if it can be, and otherwise with quotes. -/
def writeKey (name : String) : List Char :=
  let cs := name.toList
  if !cs.isEmpty && cs.all isBare then cs
  else if !cs.any isControl && !cs.contains '"' && !cs.contains '\\' then
    writeAs .basic cs
  else if !cs.any isControl && !cs.contains '\'' then writeAs .literal cs
  else writeAs .basic cs

------------------------------------------------------------
-- Values
------------------------------------------------------------

/- Floats are written in place and keep a fraction. -/
def floatLayout : FloatLayout where
  inPlace := fun _ => true
  fraction := true
  plus := false
  tie := .up

/- A float; all that are no number look alike. -/
def writeFloat (x : Double) : List Char :=
  if x.isNaN then ['n', 'a', 'n'] else (floatLayout.write x).toList

/- Texts with something between each two of them. -/
def joined
    (separator : List Char)
    (parts : List (List Char)) : List Char :=
  separator.intercalate parts

mutual

/-
  A value after its key.  An array of two items or more has
  one of them on each line.
-/
def writeValue : Value → List Char
| .string value => writeString value.toList
| .integer value => (Literal.intText value.toInt).toList
| .float value => writeFloat value
| .boolean value => (Literal.boolText value).toList
| .moment value => value.text.toList
| .array [] => ['[', ']']
| .array [item] => '[' :: writeValue item ++ [']']
| .array items => '[' :: writeItems items ++ ['\n', ']']
| .table [] => ['\x7b', '\x7d']
| .table entries =>
    ['\x7b', ' '] ++ joined [',', ' '] (writeFields entries)
      ++ [' ', '\x7d']

/- Items of an array, each on a line of its own. -/
def writeItems : List Value → List Char
| [] => []
| item :: rest =>
    "\n    ".toList ++ writeValue item ++ ',' :: writeItems rest

/- The entries of a table that is written as a value. -/
def writeFields : List (String × Value) → List (List Char)
| [] => []
| (name, value) :: rest =>
    (writeKey name ++ " = ".toList ++ writeValue value)
      :: writeFields rest

end

------------------------------------------------------------
-- Tables
------------------------------------------------------------

/- Whether a value is a table. -/
def Value.isTable : Value → Bool
| .table _ => true
| _ => false

/- Whether a value stands under a header: tables only do. -/
def Value.isSection : Value → Bool
| .table _ => true
| .array items => !items.isEmpty && items.all Value.isTable
| _ => false

/- The line of an entry. -/
def writeEntry (entry : String × Value) : List Char :=
  writeKey entry.1 ++ " = ".toList ++ writeValue entry.2 ++ ['\n']

/- The lines of the entries of a table that have no header. -/
def writeEntries (table : Table) : List Char :=
  (table.filter fun entry => !entry.2.isSection).flatMap writeEntry

/- Some names joined by dots. -/
def writePath (path : List String) : List Char :=
  joined ['.'] (path.map writeKey)

/- The header of a table, after an empty line. -/
def tableHeader (path : List String) : List Char :=
  "\n[".toList ++ writePath path ++ "]\n".toList

/- The header of an element of an array of tables. -/
def elementHeader (path : List String) : List Char :=
  "\n[[".toList ++ writePath path ++ "]]\n".toList

mutual

/- The sections of a value that some names lead to. -/
def writeSection (path : List String) : Value → List Char
| .table entries =>
    tableHeader path ++ writeEntries entries
      ++ writeSections path entries
| .array items =>
    if !items.isEmpty && items.all Value.isTable then
      writeElements path items
    else []
| _ => []

/- The sections of the tables of a table. -/
def writeSections (path : List String) :
    List (String × Value) → List Char
| [] => []
| (name, value) :: rest =>
    writeSection (path ++ [name]) value ++ writeSections path rest

/- The sections of the elements of an array of tables. -/
def writeElements (path : List String) : List Value → List Char
| [] => []
| .table entries :: rest =>
    elementHeader path ++ writeEntries entries
      ++ writeSections path entries ++ writeElements path rest
| _ :: rest => writeElements path rest

end

/- The text of a document. -/
def write (table : Table) : String :=
  String.ofList (writeEntries table ++ writeSections [] table)

end Toml

end TemplateTree
