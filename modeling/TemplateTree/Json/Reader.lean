import TemplateTree.Json.Scan

/-
  Template trees from JSON texts.

  Key definitions include:
    * `Json.readScalar`
    * `Json.readArg`
    * `Json.readRoot`
    * `Json.load`
    * `Json.loadArg`
    * `Json.loadLiteral`

  The text is read once from left to right, and the first
  thing wrong with it is reported where reading stopped.
-/

------------------------------------------------------------
-- Scalars
------------------------------------------------------------

namespace TemplateTree

namespace Json

/- A value that is no array and no object. -/
inductive Scalar where
| null
| bool (value : Bool)
| number (value : Number)
| string (value : String)
deriving DecidableEq, Repr

/- A scalar that stands where another value was expected. -/
def Scalar.found : Scalar → Found
| .null => .null
| .bool value => .bool value
| .number (.integer n) => .integer n
| .number (.float x) => .float x
| .string value => .string value

/-
  A scalar in argument position.  Null is no literal, and an
  integer has to fit a signed integer of 64 bits.
-/
def Scalar.toLiteral : Scalar → Except Mismatch Literal
| .null => .error (.invalidType .null .argument)
| .bool value => .ok (.bool value)
| .number (.integer n) =>
    if n < Nat.pow 2 63 then .ok (.int (Int64.ofInt n))
    else .error (.invalidValue (.integer n) .argument)
| .number (.float x) =>
    if x.isFinite then .ok (.float x)
    else .error (.invalidValue (.float x) .finite)
| .string value => .ok (.text value)

/- Read a scalar that starts with a given byte. -/
def readScalar
    (first : UInt8)
    (rest : List UInt8) : Step Scalar :=
  if first = byte 'n' then
    (readWord nullTail rest).map fun (_, rest) => (.null, rest)
  else if first = byte 't' then
    (readWord trueTail rest).map fun (_, rest) => (.bool true, rest)
  else if first = byte 'f' then
    (readWord falseTail rest).map fun (_, rest) => (.bool false, rest)
  else if first = byte '-' then
    (readNumber true rest).map fun (n, rest) => (.number n, rest)
  else if isDigit first then
    (readNumber false (first :: rest)).map fun (n, rest) =>
      (.number n, rest)
  else if first = byte '"' then
    (readString rest).map fun (s, rest) => (.string s, rest)
  else .error (.next .expectedValue (first :: rest))

------------------------------------------------------------
-- Nodes
------------------------------------------------------------

/-
  The bytes after a list that is given up before its first
  element was read.
-/
def leaveList (bytes : List UInt8) : List UInt8 :=
  match skipBlank bytes with
  | [] => []
  | b :: rest =>
      if b = byte ']' then rest
      else if b = byte ',' then skipBlank rest
      else b :: rest

/- The bytes after an object that is given up at its start. -/
def leaveMap (bytes : List UInt8) : List UInt8 :=
  match skipBlank bytes with
  | [] => []
  | b :: rest => if b = byte '\x7d' then rest else b :: rest

/- Refuse the value that comes next, where another is expected. -/
def refuse
    {α : Type}
    (expected : Expected)
    (first : UInt8)
    (rest : List UInt8) : Step α :=
  if first = byte '[' then
    .error (.mismatched (.invalidType .sequence expected) (first :: rest))
  else if first = byte '\x7b' then
    .error (.mismatched (.invalidType .map expected) (first :: rest))
  else
    (readScalar first rest).bind fun (scalar, rest) =>
      .error (.mismatched (.invalidType scalar.found expected) rest)

/- Read the tag of a node. -/
def readTag
    (first : UInt8)
    (rest : List UInt8) : Step Tag :=
  if first = byte '"' then readString rest
  else refuse .tag first rest

/- Read the arguments of a node, up to its closing bracket. -/
def readArgs
    (read : List UInt8 → Step Arg) :
    (fuel : Nat) → List UInt8 → Step (List Arg)
| 0, _ => .error (.next .endOfList [])
| fuel + 1, bytes =>
    match skipBlank bytes with
    | [] => .error (.next .endOfList [])
    | b :: rest =>
        if b = byte ']' then .ok ([], rest)
        else if b = byte ',' then
          match skipBlank rest with
          | [] => .error (.next .endOfValue [])
          | c :: rest =>
              if c = byte ']' then
                .error (.next .trailingComma (c :: rest))
              else
                (read (c :: rest)).bind fun (arg, rest) =>
                  (readArgs read fuel rest).map fun (args, rest) =>
                    (arg :: args, rest)
        else .error (.next .expectedSeparator (b :: rest))

/-
  Read a node after its opening bracket.  Each argument takes
  at least its comma, so the bytes bound their number.
-/
def readNode
    (read : List UInt8 → Step Arg)
    (bytes : List UInt8) : Step Node :=
  match skipBlank bytes with
  | [] => .error (.next .endOfList [])
  | b :: rest =>
      if b = byte ']' then
        .error (.mismatched .missingTag (leaveList (b :: rest)))
      else
        (readTag b rest).bind fun (tag, rest) =>
          (readArgs read (rest.length + 1) rest).map
            fun (args, rest) => (⟨tag, args⟩, rest)

/- Read an argument that may nest `room` nodes deep. -/
def readArg : (room : Nat) → List UInt8 → Step Arg
| room, bytes =>
    match skipBlank bytes with
    | [] => .error (.next .endOfValue [])
    | b :: rest =>
        if b = byte '[' then
          match room with
          | 0 => .error (.mismatched .tooDeep (leaveList rest))
          | room + 1 =>
              (readNode (readArg room) rest).map fun (node, rest) =>
                (node.toArg, rest)
        else if b = byte '\x7b' then
          .error (.mismatched (.invalidType .map .argument)
            (leaveMap rest))
        else
          (readScalar b rest).bind fun (scalar, rest) =>
            match scalar.toLiteral with
            | .ok value => .ok (.literal value, rest)
            | .error kind => .error (.mismatched kind rest)

/- Read the root, which has to be a node. -/
def readRoot (bytes : List UInt8) : Step Node :=
  match skipBlank bytes with
  | [] => .error (.next .endOfValue [])
  | b :: rest =>
      if b = byte '[' then
        readNode (readArg (Node.maxDepth - 1)) rest
      else refuse .node b rest

------------------------------------------------------------
-- Documents
------------------------------------------------------------

/- Nothing but white space may follow a document. -/
def finish
    {α : Type}
    (step : Step α) : Except Failure α :=
  step.bind fun (value, rest) =>
    match skipBlank rest with
    | [] => .ok value
    | b :: rest => .error (.next .trailingCharacters (b :: rest))

/- The tree that a document holds. -/
def loadNode (bytes : List UInt8) : Except String Node :=
  (finish (readRoot bytes)).mapError fun failure =>
    failure.message bytes

/- The argument that a document holds. -/
def loadArg (bytes : List UInt8) : Except String Arg :=
  (finish (readArg Node.maxDepth bytes)).mapError fun failure =>
    failure.message bytes

/-
  The literal that a document holds.  A node in its place is
  refused as soon as it is read, and without a position.
-/
def loadLiteral (bytes : List UInt8) : Except String Literal :=
  match readArg Node.maxDepth bytes with
  | .error failure => .error (failure.message bytes)
  | .ok (.node tag _, _) =>
      .error ((Mismatch.notLiteral tag).message .json)
  | .ok (.literal value, rest) =>
      (finish (.ok (value, rest))).mapError fun failure =>
        failure.message bytes

/- The tree that a document holds. -/
def load (bytes : List UInt8) : Except CompileError Node :=
  (loadNode bytes).mapError .decode

end Json

end TemplateTree
