/-
  Texts as UTF-8 bytes.

  Key definitions include:
    * `Utf8.encodeChar`
    * `Utf8.encode`
    * `Utf8.Fault`
    * `Utf8.decode`

  Decoding stops at the first byte that begins no character
  and says how many of the bytes there belong together, or
  that the input ends inside a character.
-/

------------------------------------------------------------
-- Encoding
------------------------------------------------------------

namespace TemplateTree

namespace Utf8

/- The bytes of one character. -/
def encodeChar (c : Char) : List UInt8 :=
  let n := c.toNat
  if n < 0x80 then
    [n.toUInt8]
  else if n < 0x800 then
    [(0xc0 + n / 64).toUInt8, (0x80 + n % 64).toUInt8]
  else if n < 0x10000 then
    [(0xe0 + n / 4096).toUInt8,
      (0x80 + n / 64 % 64).toUInt8,
      (0x80 + n % 64).toUInt8]
  else
    [(0xf0 + n / 262144).toUInt8,
      (0x80 + n / 4096 % 64).toUInt8,
      (0x80 + n / 64 % 64).toUInt8,
      (0x80 + n % 64).toUInt8]

/- The bytes of a list of characters. -/
def encodeChars (cs : List Char) : List UInt8 :=
  cs.flatMap encodeChar

/- The bytes of a text. -/
def encode (s : String) : List UInt8 :=
  encodeChars s.toList

------------------------------------------------------------
-- Decoding
------------------------------------------------------------

/- Why bytes are not a text, and from which index on. -/
inductive Fault where
| invalid (length index : Nat)
| incomplete (index : Nat)
deriving DecidableEq, Repr

namespace Fault

/- The number of bytes before the fault, all of them valid. -/
def index : Fault → Nat
| .invalid _ index => index
| .incomplete index => index

/- The wording of a fault. -/
def message : Fault → String
| .invalid length index =>
    "invalid utf-8 sequence of " ++ toString length
      ++ " bytes from index " ++ toString index
| .incomplete index =>
    "incomplete utf-8 byte sequence from index " ++ toString index

end Fault

/- A byte that continues a character. -/
def isTail (b : Nat) : Bool :=
  0x80 ≤ b && b ≤ 0xbf

/-
  A second byte that a first byte allows: the narrower ranges
  leave out overlong forms, surrogates and numbers past the
  last code point.
-/
def allowsSecond (lead b : Nat) : Bool :=
  if lead = 0xe0 then 0xa0 ≤ b && b ≤ 0xbf
  else if lead = 0xed then 0x80 ≤ b && b ≤ 0x9f
  else if lead = 0xf0 then 0x90 ≤ b && b ≤ 0xbf
  else if lead = 0xf4 then 0x80 ≤ b && b ≤ 0x8f
  else isTail b

/- Decode the bytes that stand at a given index. -/
def decodeFrom
    (index : Nat) :
    List UInt8 → Except Fault (List Char)
| [] => .ok []
| b0 :: rest0 =>
    let n0 := b0.toNat
    if n0 < 0x80 then
      (decodeFrom (index + 1) rest0).map (Char.ofNat n0 :: ·)
    else if n0 < 0xc2 || 0xf4 < n0 then
      .error (.invalid 1 index)
    else
      match rest0 with
      | [] => .error (.incomplete index)
      | b1 :: rest1 =>
          let n1 := b1.toNat
          if !allowsSecond n0 n1 then
            .error (.invalid 1 index)
          else if n0 < 0xe0 then
            (decodeFrom (index + 2) rest1).map
              (Char.ofNat ((n0 - 0xc0) * 64 + (n1 - 0x80)) :: ·)
          else
            match rest1 with
            | [] => .error (.incomplete index)
            | b2 :: rest2 =>
                let n2 := b2.toNat
                if !isTail n2 then
                  .error (.invalid 2 index)
                else if n0 < 0xf0 then
                  (decodeFrom (index + 3) rest2).map
                    (Char.ofNat
                      ((n0 - 0xe0) * 4096 + (n1 - 0x80) * 64
                        + (n2 - 0x80)) :: ·)
                else
                  match rest2 with
                  | [] => .error (.incomplete index)
                  | b3 :: rest3 =>
                      let n3 := b3.toNat
                      if !isTail n3 then
                        .error (.invalid 3 index)
                      else
                        (decodeFrom (index + 4) rest3).map
                          (Char.ofNat
                            ((n0 - 0xf0) * 262144
                              + (n1 - 0x80) * 4096
                              + (n2 - 0x80) * 64
                              + (n3 - 0x80)) :: ·)

/- The text that bytes spell. -/
def decode (bytes : List UInt8) : Except Fault String :=
  (decodeFrom 0 bytes).map String.ofList

end Utf8

end TemplateTree
