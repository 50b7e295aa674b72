import TemplateTree.Expression
import TemplateTree.Toml.Strings
import TemplateTree.Toml.Value

/-
  Numbers, dates and truth values in the text of a TOML
  document.

  Key definitions include:
    * `Toml.readInteger`
    * `Toml.readFloat`
    * `Toml.readMoment`
    * `Toml.readScalar`

  A reader stops at the first character that cannot belong to
  its value.  What may follow a value is checked where the
  value stands.
-/

------------------------------------------------------------
-- Digits
------------------------------------------------------------

namespace TemplateTree

namespace Toml

/-
  The digits that go on a number.  Single underscores between
  digits do not count.
-/
def readMoreDigits (isDigit : Char → Bool) :
    List Char → List Char × List Char
| [] => ([], [])
| c :: rest =>
    if isDigit c then
      let (digits, after) := readMoreDigits isDigit rest
      (c :: digits, after)
    else if c = '_' ∧ rest.head?.any isDigit then
      readMoreDigits isDigit rest
    else ([], c :: rest)

/- The digits at the start of a text. -/
def readDigits
    (isDigit : Char → Bool)
    (cs : List Char) : List Char × List Char :=
  if cs.head?.any isDigit then readMoreDigits isDigit cs else ([], cs)

/- A digit of base two. -/
def isBinaryDigit (c : Char) : Bool :=
  c == '0' || c == '1'

/- A digit of base eight. -/
def isOctalDigit (c : Char) : Bool :=
  decide ('0' ≤ c ∧ c ≤ '7')

/- A digit of base sixteen. -/
def isHexDigit (c : Char) : Bool :=
  (Text.hexValue? c).isSome

/- The number that digits of a base spell. -/
def digitsValue
    (base : Nat)
    (digits : List Char) : Nat :=
  digits.foldl (fun n c => base * n + (Text.hexValue? c).getD 0) 0

/- A sign, if there is one. -/
def readSign : List Char → Bool × List Char
| '-' :: rest => (true, rest)
| '+' :: rest => (false, rest)
| cs => (false, cs)

/-
  The digits of a whole decimal number.  Zero stands alone
  and no other number starts with it.
-/
def readWhole (cs : List Char) : Step (List Char) :=
  match cs with
  | [] => none
  | c :: rest =>
      if c = '0' then some ([c], rest)
      else
        let (digits, after) := readDigits Char.isDigit cs
        if digits.isEmpty then none else some (digits, after)

------------------------------------------------------------
-- Integers
------------------------------------------------------------

/- An integer value, if 64 bits can hold it. -/
def integer?
    (value : Int)
    (rest : List Char) : Step Value :=
  if Expression.minInt ≤ value ∧ value ≤ Expression.maxInt then
    some (.integer (Int64.ofInt value), rest)
  else none

/- The digits after a mark for their base. -/
def readBased
    (base : Nat)
    (isDigit : Char → Bool)
    (cs : List Char) : Step Value :=
  let (digits, rest) := readDigits isDigit cs
  if digits.isEmpty then none
  else integer? (digitsValue base digits) rest

/- Read an integer in decimal, or in another base by its mark. -/
def readInteger (cs : List Char) : Step Value :=
  match cs with
  | '0' :: 'x' :: rest => readBased 16 isHexDigit rest
  | '0' :: 'o' :: rest => readBased 8 isOctalDigit rest
  | '0' :: 'b' :: rest => readBased 2 isBinaryDigit rest
  | _ =>
      let (negative, rest) := readSign cs
      (readWhole rest).bind fun (digits, after) =>
        integer? (Expression.signed negative (digitsValue 10 digits)) after

------------------------------------------------------------
-- Floats
------------------------------------------------------------

/-
  A float by its digits.  No number is positive infinity
  unless it is called so.
-/
def float?
    (negative : Bool)
    (d : Decimal)
    (rest : List Char) : Step Value :=
  let x := d.toDouble negative
  if x.isFinite ∨ negative then some (.float x, rest) else none

/- Read the exponent of a float, if there is one. -/
def readExponent : List Char → Step Int
| [] => none
| e :: rest =>
    if e = 'e' ∨ e = 'E' then
      let (negative, rest) := readSign rest
      let (digits, after) := readDigits Char.isDigit rest
      if digits.isEmpty then none
      else some (Expression.signed negative (digitsValue 10 digits), after)
    else none

/- Read the fraction of a float, if there is one. -/
def readFraction : List Char → Step (List Char)
| '.' :: rest =>
    let (digits, after) := readDigits Char.isDigit rest
    if digits.isEmpty then none else some (digits, after)
| _ => none

/- The bits of a number that is none. -/
def nanBits : Nat :=
  0x7ff8000000000000

/- Read the name of infinity or of a number that is none. -/
def readNamedFloat
    (negative : Bool) :
    List Char → Step Value
| 'i' :: 'n' :: 'f' :: rest =>
    some (.float (Double.ofMagnitude negative Double.infinityBits), rest)
| 'n' :: 'a' :: 'n' :: rest =>
    some (.float (Double.ofMagnitude negative nanBits), rest)
| _ => none

/- Read a number with a fraction, an exponent or both. -/
def readFloat (cs : List Char) : Step Value :=
  let (negative, unsigned) := readSign cs
  match readWhole unsigned with
  | none => readNamedFloat negative unsigned
  | some (whole, rest) =>
      match readFraction rest with
      | some (fraction, rest) =>
          let (exponent, after) := (readExponent rest).getD (0, rest)
          float? negative
            ⟨digitsValue 10 (whole ++ fraction),
              exponent - fraction.length⟩
            after
      | none =>
          (readExponent rest).bind fun (exponent, after) =>
            float? negative ⟨digitsValue 10 whole, exponent⟩ after

------------------------------------------------------------
-- Dates And Times
------------------------------------------------------------

/- Read a number of exactly so many digits, within bounds. -/
def readField
    (width low high : Nat)
    (cs : List Char) : Step Nat :=
  let digits := cs.take width
  let n := digitsValue 10 digits
  if digits.length = width ∧ digits.all Char.isDigit ∧ low ≤ n
      ∧ n ≤ high then
    some (n, cs.drop width)
  else none

/- Read one given character. -/
def readMark
    (mark : Char) :
    List Char → Step Unit
| [] => none
| c :: rest => if c = mark then some ((), rest) else none

/- A year with a day more. -/
def isLeapYear (year : Nat) : Bool :=
  year % 4 == 0 && (year % 100 != 0 || year % 400 == 0)

/- The number of days of a month. -/
def daysOfMonth (year month : Nat) : Nat :=
  if month = 2 then (if isLeapYear year then 29 else 28)
  else if month = 4 ∨ month = 6 ∨ month = 9 ∨ month = 11 then 30
  else 31

/- Read a day of the calendar. -/
def readDate (cs : List Char) : Step Date :=
  (readField 4 0 9999 cs).bind fun (year, cs) =>
  (readMark '-' cs).bind fun (_, cs) =>
  (readField 2 1 12 cs).bind fun (month, cs) =>
  (readMark '-' cs).bind fun (_, cs) =>
  (readField 2 1 (daysOfMonth year month) cs).map fun (day, cs) =>
    (⟨year, month, day⟩, cs)

/- The fraction of a second in units of its ninth place. -/
def nanoseconds (digits : List Char) : Nat :=
  let kept := digits.take 9
  digitsValue 10 kept * Nat.pow 10 (9 - kept.length)

/- Read a time of day; a minute may have a leap second. -/
def readTime (cs : List Char) : Step Time :=
  (readField 2 0 23 cs).bind fun (hour, cs) =>
  (readMark ':' cs).bind fun (_, cs) =>
  (readField 2 0 59 cs).bind fun (minute, cs) =>
  (readMark ':' cs).bind fun (_, cs) =>
  (readField 2 0 60 cs).map fun (second, cs) =>
    match cs with
    | '.' :: rest =>
        let digits := rest.takeWhile Char.isDigit
        if digits.isEmpty then (⟨hour, minute, second, 0⟩, cs)
        else
          (⟨hour, minute, second, nanoseconds digits⟩,
            rest.dropWhile Char.isDigit)
    | _ => (⟨hour, minute, second, 0⟩, cs)

/- Read an offset from universal time. -/
def readOffset : List Char → Step Offset
| [] => none
| c :: rest =>
    if c = 'Z' ∨ c = 'z' then some (.utc, rest)
    else if c = '+' ∨ c = '-' then
      (readField 2 0 23 rest).bind fun (hour, rest) =>
      (readMark ':' rest).bind fun (_, rest) =>
      (readField 2 0 59 rest).map fun (minute, rest) =>
        (.minutes (Expression.signed (c = '-') (60 * hour + minute)), rest)
    else none

/- Read the time of a day after what divides it from the date. -/
def readTimeOfDate : List Char → Step Time
| [] => none
| c :: rest =>
    if c = 'T' ∨ c = 't' ∨ c = ' ' then readTime rest else none

/- Read a date, a time, or a date with a time. -/
def readMoment (cs : List Char) : Step Value :=
  match readDate cs with
  | none =>
      (readTime cs).map fun (time, rest) =>
        (.moment ⟨none, some time, none⟩, rest)
  | some (date, rest) =>
      match readTimeOfDate rest with
      | none => some (.moment ⟨some date, none, none⟩, rest)
      | some (time, rest) =>
          match readOffset rest with
          | none => some (.moment ⟨some date, some time, none⟩, rest)
          | some (offset, rest) =>
              some (.moment ⟨some date, some time, some offset⟩, rest)

------------------------------------------------------------
-- Scalars
------------------------------------------------------------

/- Read a truth value. -/
def readBoolean : List Char → Step Value
| 't' :: 'r' :: 'u' :: 'e' :: rest => some (.boolean true, rest)
| 'f' :: 'a' :: 'l' :: 's' :: 'e' :: rest =>
    some (.boolean false, rest)
| _ => none

/-
  Read a value without parts.  Of the readings of a number
  the longest counts: dates and times go first, integers
  last.
-/
def readScalar (cs : List Char) : Step Value :=
  match cs with
  | [] => none
  | c :: _ =>
      if c = '"' ∨ c = '\'' then
        (readString cs).map fun (xs, rest) =>
          (.string (String.ofList xs), rest)
      else if c = 't' ∨ c = 'f' then readBoolean cs
      else
        (readMoment cs).or ((readFloat cs).or (readInteger cs))

end Toml

end TemplateTree
