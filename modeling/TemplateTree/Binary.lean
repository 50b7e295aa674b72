import TemplateTree.Error
import TemplateTree.Text.Utf8

/-
  The binary form of a template tree.

  Key definitions include:
    * `Binary.bigEndian`
    * `Binary.encodeArg`
    * `Binary.encode`
    * `Binary.Fault`
    * `Binary.readArg`
    * `Binary.decode`

  A file is a header and one node.  Each value starts with a
  marker byte: `N` for a node (tag, argument count and
  arguments), `S` for a text, `I` for an integer, `F` for a
  float and `B` for a truth value.  Numbers are big-endian,
  lengths and counts have 32 bits, and floats keep their bit
  pattern.  Trees that nest too deep are refused both ways.
-/

------------------------------------------------------------
-- Layout
------------------------------------------------------------

namespace TemplateTree

namespace Binary

/- The bytes that every file starts with. -/
def magic : List UInt8 :=
  [0x57, 0x46, 0x49, 0x52]

/- The version of the format. -/
def version : UInt8 :=
  1

/- The marker of a node. -/
def nodeMarker : UInt8 :=
  0x4e

/- The marker of a text. -/
def textMarker : UInt8 :=
  0x53

/- The marker of an integer. -/
def intMarker : UInt8 :=
  0x49

/- The marker of a float. -/
def floatMarker : UInt8 :=
  0x46

/- The marker of a truth value. -/
def boolMarker : UInt8 :=
  0x42

/- The lowest bytes of a number, highest of them first. -/
def bigEndian : (width n : Nat) → List UInt8
| 0, _ => []
| width + 1, n => (n / Nat.pow 256 width).toUInt8 :: bigEndian width n

/- The number that bytes spell, highest first. -/
def ofBigEndian (bytes : List UInt8) : Nat :=
  bytes.foldl (fun n b => 256 * n + b.toNat) 0

------------------------------------------------------------
-- Encoding
------------------------------------------------------------

/- A length or a count, of which 32 bits are written. -/
def encodeCount (n : Nat) : List UInt8 :=
  bigEndian 4 n

/- A text with its length in bytes. -/
def encodeText (s : String) : List UInt8 :=
  let bytes := Utf8.encode s
  encodeCount bytes.length ++ bytes

/- A literal with its marker. -/
def encodeLiteral : Literal → List UInt8
| .text s => textMarker :: encodeText s
| .int n => intMarker :: bigEndian 8 n.toUInt64.toNat
| .float x => floatMarker :: bigEndian 8 x.bits.toNat
| .bool b => [boolMarker, if b then 1 else 0]

mutual

/- An argument with its marker. -/
def encodeArg : Arg → List UInt8
| .literal value => encodeLiteral value
| .node tag args =>
    nodeMarker :: (encodeText tag ++ encodeCount args.length
      ++ encodeArgs args)

/- Arguments one after another. -/
def encodeArgs : List Arg → List UInt8
| [] => []
| arg :: args => encodeArg arg ++ encodeArgs args

end

/- The wording for a tree that nests too deep. -/
def tooDeepMessage : String :=
  "nesting deeper than " ++ toString Node.maxDepth

/- The bytes of a file that holds a tree. -/
def encode (node : Node) : Except CompileError (List UInt8) :=
  if node.deeperThan Node.maxDepth then
    .error (.encode tooDeepMessage)
  else
    .ok (magic ++ [version] ++ encodeArg node.toArg)

------------------------------------------------------------
-- Faults
------------------------------------------------------------

/- Why bytes are not a file that holds a tree. -/
inductive Fault where
| missingHeader
| unsupportedVersion (found : UInt8)
| literalRoot (kind : String)
| trailing (count : Nat)
| truncated
| tooDeep
| invalidBool (byte : UInt8)
| unknownMarker (byte : UInt8)
| invalidText (cause : Utf8.Fault)
deriving DecidableEq, Repr

/- Two lower-case hexadecimal digits. -/
def hexByte (b : UInt8) : String :=
  String.ofList
    [Nat.digitChar (b.toNat / 16), Nat.digitChar (b.toNat % 16)]

/- The wording of a fault. -/
def Fault.message : Fault → String
| .missingHeader => "missing WFIR header"
| .unsupportedVersion found =>
    "unsupported version " ++ toString found.toNat ++ ", expected "
      ++ toString version.toNat
| .literalRoot kind =>
    "root must be a node, found a " ++ kind ++ " literal"
| .trailing count =>
    toString count ++ " trailing bytes after the root node"
| .truncated => "unexpected end of input"
| .tooDeep => tooDeepMessage
| .invalidBool byte => "invalid boolean byte " ++ toString byte.toNat
| .unknownMarker byte => "unknown value marker 0x" ++ hexByte byte
| .invalidText cause => "invalid UTF-8: " ++ cause.message

------------------------------------------------------------
-- Decoding
------------------------------------------------------------

/- What was read, and the bytes after it. -/
abbrev Step (α : Type) := Except Fault (α × List UInt8)

/- Whether fewer than `n` bytes are left. -/
def lacks
    (n : Nat)
    (bytes : List UInt8) : Bool :=
  (bytes.take n).length < n

/- Split off the first `n` bytes. -/
def readBytes
    (n : Nat)
    (bytes : List UInt8) : Step (List UInt8) :=
  if lacks n bytes then .error .truncated
  else .ok (bytes.take n, bytes.drop n)

/- Read a number of `width` bytes. -/
def readNumber
    (width : Nat)
    (bytes : List UInt8) : Step Nat :=
  (readBytes width bytes).map fun (word, rest) =>
    (ofBigEndian word, rest)

/- Read a text with its length. -/
def readText (bytes : List UInt8) : Step String :=
  (readNumber 4 bytes).bind fun (length, rest) =>
    (readBytes length rest).bind fun (body, rest) =>
      match Utf8.decode body with
      | .ok text => .ok (text, rest)
      | .error cause => .error (.invalidText cause)

/- Read a truth value, which is one byte. -/
def readBool : List UInt8 → Step Bool
| [] => .error .truncated
| byte :: rest =>
    if byte = 0 then .ok (false, rest)
    else if byte = 1 then .ok (true, rest)
    else .error (.invalidBool byte)

/- Read a literal after its marker. -/
def readLiteral
    (marker : UInt8)
    (bytes : List UInt8) : Step Literal :=
  if marker = textMarker then
    (readText bytes).map fun (s, rest) => (.text s, rest)
  else if marker = intMarker then
    (readNumber 8 bytes).map fun (n, rest) =>
      (.int n.toUInt64.toInt64, rest)
  else if marker = floatMarker then
    (readNumber 8 bytes).map fun (n, rest) =>
      (.float ⟨n.toUInt64⟩, rest)
  else if marker = boolMarker then
    (readBool bytes).map fun (b, rest) => (.bool b, rest)
  else .error (.unknownMarker marker)

/- Read a given number of arguments. -/
def readMany
    (read : List UInt8 → Step Arg) :
    (count : Nat) → List UInt8 → Step (List Arg)
| 0, bytes => .ok ([], bytes)
| count + 1, bytes =>
    (read bytes).bind fun (arg, rest) =>
      (readMany read count rest).map fun (args, rest) =>
        (arg :: args, rest)

/-
  Read a node after its marker.  Each argument takes at least
  one byte, so a count past the bytes left is refused before
  any argument is read.
-/
def readNode
    (read : List UInt8 → Step Arg)
    (bytes : List UInt8) : Step Arg :=
  (readText bytes).bind fun (tag, rest) =>
    (readNumber 4 rest).bind fun (count, rest) =>
      if lacks count rest then .error .truncated
      else
        (readMany read count rest).map fun (args, rest) =>
          (.node tag args, rest)

/- Read an argument that may nest `room` nodes deep. -/
def readArg : (room : Nat) → List UInt8 → Step Arg
| _, [] => .error .truncated
| room, marker :: rest =>
    if marker = nodeMarker then
      match room with
      | 0 => .error .tooDeep
      | room + 1 => readNode (readArg room) rest
    else
      (readLiteral marker rest).map fun (value, rest) =>
        (.literal value, rest)

/- Read a file: the header, the root, and nothing after it. -/
def readFile (bytes : List UInt8) : Except Fault Node :=
  match bytes.take 4, bytes.drop 4 with
  | start, found :: body =>
      if start ≠ magic then .error .missingHeader
      else if found ≠ version then .error (.unsupportedVersion found)
      else
        match readArg Node.maxDepth body with
        | .error fault => .error fault
        | .ok (.literal value, _) => .error (.literalRoot value.kind)
        | .ok (.node tag args, []) => .ok ⟨tag, args⟩
        | .ok (.node _ _, rest) => .error (.trailing rest.length)
  | _, [] => .error .missingHeader

/- The tree in a file. -/
def decode (bytes : List UInt8) : Except CompileError Node :=
  (readFile bytes).mapError fun fault => .decode fault.message

end Binary

end TemplateTree
