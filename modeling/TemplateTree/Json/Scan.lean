import TemplateTree.Json.Fault
import TemplateTree.Text.Utf8

/-
  Scalars and white space in the bytes of a JSON text.

  Key definitions include:
    * `Json.skipBlank`
    * `Json.readWord`
    * `Json.readString`
    * `Json.Number`
    * `Json.readNumber`

  Each reader takes the bytes that are left and returns what
  it read with the bytes after it.
-/

------------------------------------------------------------
-- Bytes
------------------------------------------------------------

namespace TemplateTree

namespace Json

/- What was read, and the bytes after it. -/
abbrev Step (α : Type) := Except Failure (α × List UInt8)

/- The byte of an ASCII character. -/
def byte (c : Char) : UInt8 :=
  c.toNat.toUInt8

/- Space, newline, tab or carriage return. -/
def isBlank (b : UInt8) : Bool :=
  b == 0x20 || b == 0x0a || b == 0x09 || b == 0x0d

/- Skip white space. -/
def skipBlank (bytes : List UInt8) : List UInt8 :=
  bytes.dropWhile isBlank

/- A decimal digit. -/
def isDigit (b : UInt8) : Bool :=
  0x30 ≤ b && b ≤ 0x39

/- The number that decimal digits spell. -/
def digitsValue (digits : List UInt8) : Nat :=
  digits.foldl (fun n b => 10 * n + (b.toNat - 48)) 0

/- Read the rest of a word, byte by byte. -/
def readWord : (word : List UInt8) → List UInt8 → Step Unit
| [], bytes => .ok ((), bytes)
| _ :: _, [] => .error (.here .endOfValue [])
| w :: word, b :: bytes =>
    if b = w then readWord word bytes
    else .error (.here .expectedWord bytes)

/- The rest of `null` after its first letter. -/
def nullTail : List UInt8 :=
  [byte 'u', byte 'l', byte 'l']

/- The rest of `true` after its first letter. -/
def trueTail : List UInt8 :=
  [byte 'r', byte 'u', byte 'e']

/- The rest of `false` after its first letter. -/
def falseTail : List UInt8 :=
  [byte 'a', byte 'l', byte 's', byte 'e']

------------------------------------------------------------
-- Strings
------------------------------------------------------------

/- The byte that a letter after a backslash stands for. -/
def escape? (b : UInt8) : Option UInt8 :=
  if b = byte '"' then some 0x22
  else if b = byte '\\' then some 0x5c
  else if b = byte '/' then some 0x2f
  else if b = byte 'b' then some 0x08
  else if b = byte 'f' then some 0x0c
  else if b = byte 'n' then some 0x0a
  else if b = byte 'r' then some 0x0d
  else if b = byte 't' then some 0x09
  else none

/- The value of a hexadecimal digit. -/
def hexValue? (b : UInt8) : Option Nat :=
  let n := b.toNat
  if 48 ≤ n ∧ n ≤ 57 then some (n - 48)
  else if 97 ≤ n ∧ n ≤ 102 then some (n - 87)
  else if 65 ≤ n ∧ n ≤ 70 then some (n - 55)
  else none

/- The number that four hexadecimal digits spell. -/
def hexNumber? (a b c d : UInt8) : Option Nat :=
  match hexValue? a, hexValue? b, hexValue? c, hexValue? d with
  | some x, some y, some z, some w =>
      some (((x * 16 + y) * 16 + z) * 16 + w)
  | _, _, _, _ => none

/- The first half of a pair of escapes. -/
def isLeading (n : Nat) : Bool :=
  0xd800 ≤ n && n ≤ 0xdbff

/- The second half of a pair of escapes. -/
def isTrailing (n : Nat) : Bool :=
  0xdc00 ≤ n && n ≤ 0xdfff

/- The character that a pair of escapes stands for. -/
def pairChar (high low : Nat) : Char :=
  Char.ofNat (0x10000 + (high - 0xd800) * 0x400 + (low - 0xdc00))

/-
  Read the bytes of a string after its opening quote, with
  the escapes replaced by what they stand for.
-/
def readStringBytes : List UInt8 → Step (List UInt8)
| [] => .error (.here .endOfString [])
| b :: rest =>
    if b = byte '"' then .ok ([], rest)
    else if b = byte '\\' then
      match rest with
      | [] => .error (.here .endOfString [])
      | e :: rest =>
          if e = byte 'u' then
            match rest with
            | a :: b :: c :: d :: rest =>
                match hexNumber? a b c d with
                | none => .error (.here .invalidEscape rest)
                | some high =>
                    if isTrailing high then
                      .error (.here .loneSurrogate rest)
                    else if isLeading high then
                      match rest with
                      | [] => .error (.here .endOfString [])
                      | s :: rest =>
                          if s ≠ byte '\\' then
                            .error (.here .endOfHexEscape rest)
                          else
                            match rest with
                            | [] => .error (.here .endOfString [])
                            | u :: rest =>
                                if u ≠ byte 'u' then
                                  .error (.here .endOfHexEscape rest)
                                else
                                  match rest with
                                  | a :: b :: c :: d :: rest =>
                                      match hexNumber? a b c d with
                                      | none =>
                                          .error
                                            (.here .invalidEscape rest)
                                      | some low =>
                                          if isTrailing low then
                                            (readStringBytes rest).map
                                              fun (bs, rest) =>
                                                (Utf8.encodeChar
                                                  (pairChar high low)
                                                  ++ bs, rest)
                                          else
                                            .error
                                              (.here .loneSurrogate rest)
                                  | _ => .error (.here .endOfString [])
                    else
                      (readStringBytes rest).map fun (bs, rest) =>
                        (Utf8.encodeChar (Char.ofNat high) ++ bs, rest)
            | _ => .error (.here .endOfString [])
          else
            match escape? e with
            | some x =>
                (readStringBytes rest).map fun (bs, rest) =>
                  (x :: bs, rest)
            | none => .error (.here .invalidEscape rest)
    else if b < 0x20 then .error (.here .controlCharacter rest)
    else
      (readStringBytes rest).map fun (bs, rest) => (b :: bs, rest)

/-
  Read a string after its opening quote.  Bytes that spell no
  text are noticed at the closing quote, and the column
  points back to the first of them.
-/
def readString (bytes : List UInt8) : Step String :=
  (readStringBytes bytes).bind fun (decoded, rest) =>
    match Utf8.decode decoded with
    | .ok text => .ok (text, rest)
    | .error fault =>
        .error
          ⟨.malformed .invalidCodePoint, rest.length,
            decoded.length - fault.index⟩

------------------------------------------------------------
-- Numbers
------------------------------------------------------------

/-
  A number of a JSON text.  Whole numbers that 64 bits can
  hold, with a sign or without, are integers.
-/
inductive Number where
| integer (value : Int)
| float (value : Double)
deriving DecidableEq, Repr

/- The greatest integer of 64 bits without a sign. -/
def maxUnsigned : Nat :=
  Nat.pow 2 64 - 1

/- The greatest exponent that is computed with. -/
def maxExponent : Nat :=
  2147483647

/- A float, which has to be finite. -/
def finishFloat
    (negative : Bool)
    (d : Decimal)
    (rest : List UInt8) : Step Number :=
  let x := d.toDouble negative
  if x.isFinite then .ok (.float x, rest)
  else .error (.here .numberOutOfRange rest)

/-
  A number without fraction and exponent.  Minus zero and
  numbers too large for 64 bits are floats.
-/
def finishInteger
    (negative : Bool)
    (digits rest : List UInt8) : Step Number :=
  let n := digitsValue digits
  if negative then
    if 0 < n ∧ n ≤ Nat.pow 2 63 then
      .ok (.integer (-(n : Int)), rest)
    else finishFloat true ⟨n, 0⟩ rest
  else if n ≤ maxUnsigned then .ok (.integer n, rest)
  else finishFloat false ⟨n, 0⟩ rest

/- The bytes after the digit that makes an exponent too large. -/
def exponentOverflow? : (value : Nat) → List UInt8 → Option (List UInt8)
| _, [] => none
| value, b :: rest =>
    if isDigit b then
      let value := 10 * value + (b.toNat - 48)
      if maxExponent < value then some rest
      else exponentOverflow? value rest
    else none

/-
  Read the digits of an exponent.  An exponent past the limit
  makes a number infinite or zero.
-/
def readExponent
    (negative : Bool)
    (digits : Nat)
    (scale : Nat)
    (minus : Bool)
    (bytes : List UInt8) : Step Number :=
  match bytes with
  | [] => .error (.here .endOfValue [])
  | d :: after =>
      if !isDigit d then .error (.here .invalidNumber after)
      else
        let rest := bytes.dropWhile isDigit
        match exponentOverflow? 0 bytes with
        | some stop =>
            if digits ≠ 0 ∧ !minus then
              .error (.here .numberOutOfRange stop)
            else finishFloat negative ⟨0, 0⟩ rest
        | none =>
            let n := digitsValue (bytes.takeWhile isDigit)
            let exponent : Int := if minus then -(n : Int) else n
            finishFloat negative ⟨digits, exponent - scale⟩ rest

/- Read what follows the digits of a float. -/
def readScale
    (negative : Bool)
    (digits : Nat)
    (scale : Nat)
    (bytes : List UInt8) : Step Number :=
  match bytes with
  | [] => finishFloat negative ⟨digits, -(scale : Int)⟩ bytes
  | e :: rest =>
      if e = byte 'e' ∨ e = byte 'E' then
        match rest with
        | [] => readExponent negative digits scale false rest
        | s :: rest' =>
            if s = byte '-' then
              readExponent negative digits scale true rest'
            else if s = byte '+' then
              readExponent negative digits scale false rest'
            else readExponent negative digits scale false rest
      else finishFloat negative ⟨digits, -(scale : Int)⟩ bytes

/- Read what follows the digits of a whole number. -/
def readFraction
    (negative : Bool)
    (whole : List UInt8)
    (bytes : List UInt8) : Step Number :=
  match bytes with
  | [] => finishInteger negative whole bytes
  | b :: rest =>
      if b = byte '.' then
        let fraction := rest.takeWhile isDigit
        let after := rest.dropWhile isDigit
        if fraction.isEmpty then
          match after with
          | [] => .error (.next .endOfValue [])
          | _ => .error (.next .invalidNumber after)
        else
          readScale negative (digitsValue (whole ++ fraction))
            fraction.length after
      else if b = byte 'e' ∨ b = byte 'E' then
        readScale negative (digitsValue whole) 0 bytes
      else finishInteger negative whole bytes

/- Read a number after its sign. -/
def readNumber
    (negative : Bool)
    (bytes : List UInt8) : Step Number :=
  match bytes with
  | [] => .error (.here .endOfValue [])
  | b :: rest =>
      if b = byte '0' then
        match rest with
        | [] => readFraction negative [b] rest
        | d :: _ =>
            if isDigit d then .error (.next .invalidNumber rest)
            else readFraction negative [b] rest
      else if isDigit b then
        readFraction negative (b :: rest.takeWhile isDigit)
          (rest.dropWhile isDigit)
      else .error (.here .invalidNumber rest)

end Json

end TemplateTree
