import TemplateTree.Json.Reader

/-
  Template trees from values that are already read.

  Key definitions include:
    * `Json.Value`
    * `Json.Value.read`
    * `Json.Value.toArg`
    * `Json.Value.toNode`
    * `Json.Value.toLiteral`
    * `Json.Scalar.toNode`

  A value holds any JSON document.  Turning one into a tree
  asks the same as reading the tree from its text, but there
  are no positions left to report.
-/

------------------------------------------------------------
-- Values
------------------------------------------------------------

namespace TemplateTree

namespace Json

/- Any JSON value; objects keep their members in order. -/
inductive Value where
| scalar (value : Scalar)
| array (items : List Value)
| object (members : List (String × Value))
deriving Repr

namespace Value

/- A value that stands where another was expected. -/
def found : Value → Found
| .scalar value => value.found
| .array _ => .sequence
| .object _ => .map

------------------------------------------------------------
-- Reading
------------------------------------------------------------

/-
  Read items up to a closing byte, with a comma between them.
  The first one is read without a comma.
-/
def readItems
    {α : Type}
    (close : UInt8)
    (read : List UInt8 → Step α) :
    (fuel : Nat) → (first : Bool) → List UInt8 → Step (List α)
| 0, _, _ => .error (.next .endOfList [])
| fuel + 1, first, bytes =>
    match skipBlank bytes with
    | [] => .error (.next .endOfList [])
    | b :: rest =>
        if b = close then .ok ([], rest)
        else
          let start? :=
            if first then some (b :: rest)
            else if b = byte ',' then some rest
            else none
          match start? with
          | none => .error (.next .expectedSeparator (b :: rest))
          | some start =>
              (read start).bind fun (item, rest) =>
                (readItems close read fuel false rest).map
                  fun (items, rest) => (item :: items, rest)

/- Read a member of an object: a name, a colon and a value. -/
def readMember
    (read : List UInt8 → Step Value)
    (bytes : List UInt8) : Step (String × Value) :=
  match skipBlank bytes with
  | [] => .error (.next .endOfValue [])
  | b :: rest =>
      (readTag b rest).bind fun (name, rest) =>
        match skipBlank rest with
        | [] => .error (.next .endOfValue [])
        | c :: rest =>
            if c = byte ':' then
              (read rest).map fun (value, rest) =>
                ((name, value), rest)
            else .error (.next .expectedSeparator (c :: rest))

/- Read a value that may nest `room` levels deep. -/
def readValue : (room : Nat) → List UInt8 → Step Value
| 0, bytes => .error (.mismatched .tooDeep bytes)
| room + 1, bytes =>
    match skipBlank bytes with
    | [] => .error (.next .endOfValue [])
    | b :: rest =>
        if b = byte '[' then
          (readItems (byte ']') (readValue room) (rest.length + 1)
            true rest).map fun (items, rest) => (.array items, rest)
        else if b = byte '\x7b' then
          (readItems (byte '\x7d') (readMember (readValue room))
            (rest.length + 1) true rest).map
              fun (members, rest) => (.object members, rest)
        else
          (readScalar b rest).map fun (value, rest) =>
            (.scalar value, rest)

/- The value that a document holds. -/
def read (bytes : List UInt8) : Except String Value :=
  (finish (readValue (bytes.length + 1) bytes)).mapError
    fun failure => failure.message bytes

------------------------------------------------------------
-- Trees
------------------------------------------------------------

/- A value in the place of a tag. -/
def toTag : Value → Except Mismatch Tag
| .scalar (.string name) => .ok name
| value => .error (.invalidType value.found .tag)

mutual

/- A value in argument position that may nest `room` nodes deep. -/
def toArg : (room : Nat) → Value → Except Mismatch Arg
| _, .scalar value => value.toLiteral.map .literal
| _, .object _ => .error (.invalidType .map .argument)
| room, .array items =>
    match room with
    | 0 => .error .tooDeep
    | room + 1 =>
        match items with
        | [] => .error .missingTag
        | first :: rest =>
            (toTag first).bind fun tag =>
              (toArgs room rest).map fun args => .node tag args

/- Values in argument position. -/
def toArgs : (room : Nat) → List Value → Except Mismatch (List Arg)
| _, [] => .ok []
| room, item :: items =>
    (toArg room item).bind fun arg =>
      (toArgs room items).map fun args => arg :: args

end

/- A value as a tree. -/
def toNode (value : Value) : Except Mismatch Node :=
  match value with
  | .array _ =>
      (toArg Node.maxDepth value).bind fun arg =>
        match arg with
        | .node tag args => .ok ⟨tag, args⟩
        | .literal _ => .error (.invalidType value.found .node)
  | _ => .error (.invalidType value.found .node)

/- A value as a literal. -/
def toLiteral (value : Value) : Except Mismatch Literal :=
  (toArg Node.maxDepth value).bind fun arg =>
    match arg with
    | .literal literal => .ok literal
    | .node tag _ => .error (.notLiteral tag)

end Value

/- A scalar is never a tree. -/
def Scalar.toNode (scalar : Scalar) : Except Mismatch Node :=
  .error (.invalidType scalar.found .node)

end Json

end TemplateTree
