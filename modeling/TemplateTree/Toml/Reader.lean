import TemplateTree.Toml.Document
import TemplateTree.Toml.Scalars

/-
  Reading TOML documents.

  Key definitions include:
    * `Toml.readValue`
    * `Toml.readStatements`
    * `Toml.read`

  A document is a list of statements, one on a line, where
  arrays and long strings may go over many lines.
-/

------------------------------------------------------------
-- Space Between Values
------------------------------------------------------------

namespace TemplateTree

namespace Toml

/- Skip a comment, if there is one, up to the end of its line. -/
def skipComment : List Char → List Char
| '#' :: rest => rest.dropWhile isPlain
| cs => cs

/-
  Skip blanks, newlines and comments inside an array.  The
  flag tells whether a comment is open.
-/
def skipSpace : (comment : Bool) → List Char → Option (List Char)
| comment, [] => if comment then none else some []
| comment, c :: rest =>
    if c = '\n' then skipSpace false rest
    else if comment then
      if isPlain c then skipSpace true rest else none
    else if isBlank c then skipSpace false rest
    else if c = '#' then skipSpace true rest
    else some (c :: rest)

/- The end of a statement: blanks, a comment and a newline. -/
def endLine (cs : List Char) : Option (List Char) :=
  match skipComment (skipBlank cs) with
  | [] => some []
  | '\n' :: rest => some rest
  | _ => none

------------------------------------------------------------
-- Values
------------------------------------------------------------

/- Read the items of an array after its opening bracket. -/
def readItems
    (item : List Char → Step Value) :
    (fuel : Nat) → List Char → Step (List Value)
| 0, _ => none
| fuel + 1, cs =>
    match skipSpace false cs with
    | none => none
    | some (']' :: rest) => some ([], rest)
    | some cs =>
        (item cs).bind fun (value, rest) =>
          match skipSpace false rest with
          | some (',' :: rest) =>
              (readItems item fuel rest).map fun (values, after) =>
                (value :: values, after)
          | some (']' :: rest) => some ([value], rest)
          | _ => none

/- Read a key, the sign after it and its value. -/
def readField?
    (item : List Char → Step Value)
    (cs : List Char) : Step (KeyPath × Value) :=
  (readKey cs).bind fun (path, rest) =>
    match rest with
    | '=' :: rest =>
        (item (skipBlank rest)).map fun (value, after) =>
          ((path, value), after)
    | _ => none

/- Read the fields of a table that is written as a value. -/
def readFields
    (item : List Char → Step Value) :
    (fuel : Nat) → List Char → Step (List (KeyPath × Value))
| 0, _ => none
| fuel + 1, cs =>
    (readField? item cs).bind fun (field, rest) =>
      match skipBlank rest with
      | ',' :: rest =>
          (readFields item fuel rest).map fun (fields, after) =>
            (field :: fields, after)
      | '\x7d' :: rest => some ([field], rest)
      | _ => none

/- Read a table that is written as a value, after its brace. -/
def readInlineTable
    (item : List Char → Step Value)
    (cs : List Char) : Step Value :=
  match skipBlank cs with
  | '\x7d' :: rest => some (.table [], rest)
  | cs =>
      (readFields item cs.length cs).bind fun (fields, rest) =>
        (inlineTable fields).map fun table => (.table table, rest)

/- Read a value in which arrays and tables may nest so deep. -/
def readValue : (room : Nat) → List Char → Step Value
| 0, '[' :: _ => none
| 0, '\x7b' :: _ => none
| room + 1, '[' :: rest =>
    (readItems (readValue room) rest.length rest).map
      fun (items, after) => (.array items, after)
| room + 1, '\x7b' :: rest => readInlineTable (readValue room) rest
| _, cs => readScalar cs

------------------------------------------------------------
-- Documents
------------------------------------------------------------

/- Read a header after its first bracket. -/
def readHeader : List Char → Step Statement
| '[' :: rest =>
    (readKey rest).bind fun (path, rest) =>
      match rest with
      | ']' :: ']' :: rest => some (.element path, rest)
      | _ => none
| cs =>
    (readKey cs).bind fun (path, rest) =>
      match rest with
      | ']' :: rest => some (.table path, rest)
      | _ => none

/- Read the statement of a line that has one. -/
def readStatement : List Char → Step Statement
| '[' :: rest => readHeader rest
| cs =>
    (readField? (readValue (nestingLimit - 1)) cs).map
      fun ((path, value), rest) => (.assign path value, rest)

/- Read all statements of a document. -/
def readStatements : (fuel : Nat) → List Char → Option (List Statement)
| 0, _ => none
| fuel + 1, cs =>
    match skipBlank cs with
    | [] => some []
    | c :: rest =>
        if c = '\n' ∨ c = '#' then
          (endLine (c :: rest)).bind (readStatements fuel)
        else
          (readStatement (c :: rest)).bind fun (statement, rest) =>
            ((endLine rest).bind (readStatements fuel)).map
              (statement :: ·)

/- Write every line end as a single newline. -/
def unifyLineEnds : List Char → List Char
| [] => []
| c :: rest =>
    if c = '\r' ∧ rest.head? = some '\n' then unifyLineEnds rest
    else c :: unifyLineEnds rest

/- A mark of the byte order before the text does not count. -/
def dropByteOrderMark : List Char → List Char
| '\ufeff' :: rest => rest
| cs => cs

/- The table that a document holds, if the text is one. -/
def read (text : String) : Option Table :=
  let cs := unifyLineEnds (dropByteOrderMark text.toList)
  (readStatements (cs.length + 1) cs).bind build

end Toml

end TemplateTree
