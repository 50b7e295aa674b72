import TemplateTree.Json.Writer

/-
  Why a JSON text is not a template tree.

  Key definitions include:
    * `Json.Found`
    * `Json.Expected`
    * `Json.Mismatch`
    * `Json.Malformed`
    * `Json.Failure`
    * `Json.Failure.message`

  A text is malformed when it is not JSON, and a value is
  mismatched when it is JSON of the wrong shape.  Both are
  reported with a line and a column, counted in bytes.
-/

------------------------------------------------------------
-- Mismatched Values
------------------------------------------------------------

namespace TemplateTree

namespace Json

/- A value that stands where another was expected. -/
inductive Found where
| null
| bool (value : Bool)
| integer (value : Int)
| float (value : Double)
| string (value : String)
| sequence
| map
deriving DecidableEq, Repr

/- How a found value is described: as JSON, or as a bare value. -/
inductive Wording where
| json
| bare
deriving DecidableEq, Repr

/- A bare float, with `.0` where it would look like an integer. -/
def bareFloat (x : Double) : String :=
  let text := FloatLayout.plain.write x
  if x.isFinite && !text.toList.contains '.' then text ++ ".0"
  else text

/- A found value in words. -/
def Found.describe
    (wording : Wording) :
    Found → String
| .null =>
    match wording with
    | .json => "null"
    | .bare => "unit value"
| .bool value => "boolean " ++ ticked (Literal.boolText value)
| .integer value => "integer " ++ ticked (Literal.intText value)
| .float value =>
    match wording with
    | .json => "floating point " ++ ticked (floatLayout.write value)
    | .bare => "floating point " ++ ticked (bareFloat value)
| .string value => "string " ++ Text.quoted value
| .sequence => "sequence"
| .map => "map"

/- What was expected. -/
inductive Expected where
| node
| tag
| argument
| finite
deriving DecidableEq, Repr

/- An expectation in words. -/
def Expected.describe : Expected → String
| .node => "an array starting with a tag name"
| .tag => "a string"
| .argument => "a string, number, boolean or nested node"
| .finite => "a finite number"

/- Why a JSON value is not the part of a tree it stands for. -/
inductive Mismatch where
| invalidType (found : Found) (expected : Expected)
| invalidValue (found : Found) (expected : Expected)
| missingTag
| tooDeep
| notLiteral (tag : Tag)
deriving DecidableEq, Repr

/- The wording of a mismatch. -/
def Mismatch.message
    (wording : Wording) :
    Mismatch → String
| .invalidType found expected =>
    "invalid type: " ++ found.describe wording ++ ", expected "
      ++ expected.describe
| .invalidValue found expected =>
    "invalid value: " ++ found.describe wording ++ ", expected "
      ++ expected.describe
| .missingTag =>
    "invalid length 0, expected " ++ Expected.node.describe
| .tooDeep => "nesting deeper than " ++ toString Node.maxDepth
| .notLiteral tag => "expected a literal, found node " ++ ticked tag

------------------------------------------------------------
-- Malformed Texts
------------------------------------------------------------

/- Why a text is not JSON. -/
inductive Malformed where
| endOfValue
| endOfList
| endOfString
| expectedWord
| expectedValue
| expectedSeparator
| trailingComma
| trailingCharacters
| invalidNumber
| numberOutOfRange
| controlCharacter
| invalidEscape
| loneSurrogate
| endOfHexEscape
| invalidCodePoint
deriving DecidableEq, Repr

/- The wording for a malformed text. -/
def Malformed.message : Malformed → String
| .endOfValue => "EOF while parsing a value"
| .endOfList => "EOF while parsing a list"
| .endOfString => "EOF while parsing a string"
| .expectedWord => "expected ident"
| .expectedValue => "expected value"
| .expectedSeparator => "expected `,` or `]`"
| .trailingComma => "trailing comma"
| .trailingCharacters => "trailing characters"
| .invalidNumber => "invalid number"
| .numberOutOfRange => "number out of range"
| .controlCharacter =>
    "control character (\\u0000-\\u001F) found while parsing a string"
| .invalidEscape => "invalid escape"
| .loneSurrogate => "lone leading surrogate in hex escape"
| .endOfHexEscape => "unexpected end of hex escape"
| .invalidCodePoint => "invalid unicode code point"

------------------------------------------------------------
-- Positions
------------------------------------------------------------

/- What is wrong with a text. -/
inductive Cause where
| malformed (kind : Malformed)
| mismatch (kind : Mismatch)
deriving DecidableEq, Repr

/- The wording of a cause. -/
def Cause.message : Cause → String
| .malformed kind => kind.message
| .mismatch kind => kind.message .json

/-
  A cause and its place: the number of bytes that follow it,
  and how far to the left of it the column points.
-/
structure Failure where
  cause : Cause
  left : Nat
  back : Nat
deriving DecidableEq, Repr

/- A position in a text. -/
structure Position where
  line : Nat
  column : Nat
deriving DecidableEq, Repr

/- The position after some bytes, which follow a given one. -/
def Position.advance
    (start : Position)
    (bytes : List UInt8) : Position :=
  bytes.foldl
    (fun p b =>
      if b = 0x0a then ⟨p.line + 1, 0⟩
      else ⟨p.line, p.column + 1⟩)
    start

namespace Failure

/- The position that a failure in a text points at. -/
def position
    (input : List UInt8)
    (failure : Failure) : Position :=
  let consumed := input.take (input.length - failure.left)
  let p := Position.advance ⟨1, 0⟩ consumed
  ⟨p.line, p.column - failure.back⟩

/- The wording of a failure in a text. -/
def message
    (input : List UInt8)
    (failure : Failure) : String :=
  let p := failure.position input
  failure.cause.message ++ " at line " ++ toString p.line
    ++ " column " ++ toString p.column

/- A malformed text, noticed after all that was read. -/
def here
    (kind : Malformed)
    (rest : List UInt8) : Failure :=
  ⟨.malformed kind, rest.length, 0⟩

/- A malformed text, noticed by the byte that comes next. -/
def next
    (kind : Malformed)
    (rest : List UInt8) : Failure :=
  ⟨.malformed kind, rest.length - 1, 0⟩

/- A mismatched value, noticed after all that was read. -/
def mismatched
    (kind : Mismatch)
    (rest : List UInt8) : Failure :=
  ⟨.mismatch kind, rest.length, 0⟩

end Failure

end Json

end TemplateTree
