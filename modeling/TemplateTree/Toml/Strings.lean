import TemplateTree.Text.Escaped

/-
  Strings and keys in the text of a TOML document.

  Key definitions include:
    * `Toml.readBasic`
    * `Toml.readLiteral`
    * `Toml.readLongBasic`
    * `Toml.readLongLiteral`
    * `Toml.readString`
    * `Toml.readKey`

  Each reader takes the characters that are left and returns
  what it read with the characters after it.  Line ends are
  single newlines here, and a carriage return fits nowhere.
-/

------------------------------------------------------------
-- Characters
------------------------------------------------------------

namespace TemplateTree

namespace Toml

/- What was read, and the characters after it. -/
abbrev Step (α : Type) := Option (α × List Char)

/- A space or a tab. -/
def isBlank (c : Char) : Bool :=
  c == ' ' || c == '\t'

/- Skip blanks on a line. -/
def skipBlank (cs : List Char) : List Char :=
  cs.dropWhile isBlank

/- A character that may stand on a line: no control but a tab. -/
def isPlain (c : Char) : Bool :=
  c == '\t' || (decide (0x20 ≤ c.toNat) && c != '\x7f')

/- A character of a key without quotes. -/
def isBare (c : Char) : Bool :=
  c.isAlphanum || c == '-' || c == '_'

------------------------------------------------------------
-- Escapes
------------------------------------------------------------

/- The character that a letter after a backslash stands for. -/
def escape? (c : Char) : Option Char :=
  if c = 'b' then some '\x08'
  else if c = 't' then some '\t'
  else if c = 'n' then some '\n'
  else if c = 'f' then some '\x0c'
  else if c = 'r' then some '\r'
  else if c = '"' then some '"'
  else if c = '\\' then some '\\'
  else none

/-
  How a reader goes on: with a character of the string, with
  the letter after a backslash, with the hexadecimal digits of
  a character of which some are still to come, or, after a
  backslash at the end of a line, with blanks on that line or
  with white space on the lines that follow.
-/
inductive Reading where
| plain
| escape
| number (left : Nat) (value : Nat)
| sameLine
| nextLine
deriving DecidableEq, Repr

/- What a string gains, and how its reader goes on. -/
abbrev Gain := Option (List Char × Reading)

/- Read the letter of an escape. -/
def readEscape (c : Char) : Gain :=
  if c = 'u' then some ([], .number 3 0)
  else if c = 'U' then some ([], .number 7 0)
  else (escape? c).map fun x => ([x], .plain)

/- Read a digit of an escape by number. -/
def readDigit
    (left value : Nat)
    (c : Char) : Gain :=
  (Text.hexValue? c).bind fun d =>
    match left with
    | 0 => (Text.charOfNumber? (16 * value + d)).map fun x => ([x], .plain)
    | left + 1 => some ([], .number left (16 * value + d))

/- Put characters in front of what the rest of a string holds. -/
def prepend
    (gained : List Char)
    (rest : Step (List Char)) : Step (List Char) :=
  rest.map fun (xs, after) => (gained ++ xs, after)

------------------------------------------------------------
-- Strings On One Line
------------------------------------------------------------

/- Read a character of a string with escapes. -/
def basicStep
    (reading : Reading)
    (c : Char) : Gain :=
  match reading with
  | .escape => readEscape c
  | .number left value => readDigit left value c
  | _ =>
      if c = '\\' then some ([], .escape)
      else if isPlain c then some ([c], .plain)
      else none

/- Read a string with escapes after its opening quote. -/
def readBasic : Reading → List Char → Step (List Char)
| _, [] => none
| reading, c :: rest =>
    if reading = .plain ∧ c = '"' then some ([], rest)
    else
      match basicStep reading c with
      | some (gained, reading') =>
          prepend gained (readBasic reading' rest)
      | none => none

/- Read a string without escapes after its opening quote. -/
def readLiteral : List Char → Step (List Char)
| [] => none
| c :: rest =>
    if c = '\'' then some ([], rest)
    else if isPlain c then prepend [c] (readLiteral rest)
    else none

------------------------------------------------------------
-- Strings On Many Lines
------------------------------------------------------------

/-
  The end of a long string: three quotes, after one or two
  more of them that belong to the string.
-/
def closing?
    (quote : Char)
    (cs : List Char) : Step (List Char) :=
  let extra := (cs.takeWhile (· == quote)).length - 3
  if cs.take 3 = [quote, quote, quote] then
    some (List.replicate (min extra 2) quote, cs.drop (3 + min extra 2))
  else none

/- Read a character of a long string with escapes. -/
def longStep
    (reading : Reading)
    (c : Char) : Gain :=
  match reading with
  | .escape =>
      if isBlank c then some ([], .sameLine)
      else if c = '\n' then some ([], .nextLine)
      else readEscape c
  | .number left value => readDigit left value c
  | .sameLine =>
      if isBlank c then some ([], .sameLine)
      else if c = '\n' then some ([], .nextLine)
      else none
  | _ =>
      if reading = .nextLine ∧ (isBlank c ∨ c = '\n') then
        some ([], .nextLine)
      else if c = '\\' then some ([], .escape)
      else if isPlain c ∨ c = '\n' then some ([c], .plain)
      else none

/- Read a long string with escapes after its opening quotes. -/
def readLongBasic : Reading → List Char → Step (List Char)
| _, [] => none
| reading, c :: rest =>
    match closing? '"' (c :: rest),
        decide (reading = .plain ∨ reading = .nextLine) with
    | some ending, true => some ending
    | _, _ =>
        match longStep reading c with
        | some (gained, reading') =>
            prepend gained (readLongBasic reading' rest)
        | none => none

/- Read a long string without escapes after its opening quotes. -/
def readLongLiteral : List Char → Step (List Char)
| [] => none
| c :: rest =>
    match closing? '\'' (c :: rest) with
    | some ending => some ending
    | none =>
        if isPlain c ∨ c = '\n' then prepend [c] (readLongLiteral rest)
        else none

/- A newline right after the opening quotes does not count. -/
def dropNewline : List Char → List Char
| '\n' :: rest => rest
| cs => cs

/- Read a string of any form from its first quote on. -/
def readString : List Char → Step (List Char)
| '"' :: '"' :: '"' :: rest => readLongBasic .plain (dropNewline rest)
| '"' :: rest => readBasic .plain rest
| '\'' :: '\'' :: '\'' :: rest => readLongLiteral (dropNewline rest)
| '\'' :: rest => readLiteral rest
| _ => none

------------------------------------------------------------
-- Keys
------------------------------------------------------------

/- The names that lead to an entry: its tables, then its own. -/
structure KeyPath where
  parents : List String
  name : String
deriving DecidableEq, Repr

/- Put one more name in front of a path. -/
def KeyPath.within
    (parent : String)
    (path : KeyPath) : KeyPath :=
  ⟨parent :: path.parents, path.name⟩

/- Read one name of a key: bare, or a string on one line. -/
def readName : List Char → Step String
| '"' :: rest =>
    (readBasic .plain rest).map fun (xs, after) => (String.ofList xs, after)
| '\'' :: rest =>
    (readLiteral rest).map fun (xs, after) => (String.ofList xs, after)
| cs =>
    let name := cs.takeWhile isBare
    if name.isEmpty then none
    else some (String.ofList name, cs.dropWhile isBare)

/- Tables and arrays nest less deep than this, and so do keys. -/
def nestingLimit : Nat :=
  80

/-
  Read a key, which is names joined by dots with blanks
  around them.  The count bounds the number of names.
-/
def readNames : (room : Nat) → List Char → Step KeyPath
| 0, _ => none
| room + 1, cs =>
    (readName (skipBlank cs)).bind fun (name, rest) =>
      match skipBlank rest with
      | '.' :: rest =>
          (readNames room rest).map fun (path, after) =>
            (path.within name, after)
      | rest => some (⟨[], name⟩, rest)

/- Read a key. -/
def readKey (cs : List Char) : Step KeyPath :=
  readNames (nestingLimit - 1) cs

end Toml

end TemplateTree
