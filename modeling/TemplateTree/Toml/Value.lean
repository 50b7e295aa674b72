import TemplateTree.Literal

/-
  The values of a TOML document.

  Key definitions include:
    * `Toml.Moment`
    * `Toml.Moment.text`
    * `Toml.Value`
    * `Toml.Table`

  Entries of a table keep the order in which the document
  introduces them.
-/

------------------------------------------------------------
-- Dates And Times
------------------------------------------------------------

namespace TemplateTree

namespace Toml

/- A day of the calendar. -/
structure Date where
  year : Nat
  month : Nat
  day : Nat
deriving DecidableEq, Repr

/- A time of day. -/
structure Time where
  hour : Nat
  minute : Nat
  second : Nat
  nanosecond : Nat
deriving DecidableEq, Repr

/- The distance of a local time from universal time. -/
inductive Offset where
| utc
| minutes (value : Int)
deriving DecidableEq, Repr

/- A day, a time of day, or both, with an offset or without. -/
structure Moment where
  date? : Option Date
  time? : Option Time
  offset? : Option Offset
deriving DecidableEq, Repr

/- A number with zeros in front of it, up to a width. -/
def padded
    (width n : Nat) : List Char :=
  let digits := Nat.toDigits 10 n
  List.replicate (width - digits.length) '0' ++ digits

/- A day as year, month and day. -/
def Date.chars (date : Date) : List Char :=
  padded 4 date.year ++ '-' :: padded 2 date.month
    ++ '-' :: padded 2 date.day

/- A time of day, with as much of a second as needed. -/
def Time.chars (time : Time) : List Char :=
  let fraction :=
    if time.nanosecond = 0 then []
    else
      '.' :: ((padded 9 time.nanosecond).reverse.dropWhile
        (· == '0')).reverse
  padded 2 time.hour ++ ':' :: padded 2 time.minute
    ++ ':' :: padded 2 time.second ++ fraction

/- An offset in hours and minutes. -/
def Offset.chars : Offset → List Char
| .utc => ['Z']
| .minutes value =>
    (if value < 0 then '-' else '+')
      :: padded 2 (value.natAbs / 60)
      ++ ':' :: padded 2 (value.natAbs % 60)

/- A moment in its normal form. -/
def Moment.text (moment : Moment) : String :=
  let date := (moment.date?.map Date.chars).getD []
  let time := (moment.time?.map Time.chars).getD []
  let offset := (moment.offset?.map Offset.chars).getD []
  let between :=
    if moment.date?.isSome && moment.time?.isSome then ['T'] else []
  String.ofList (date ++ between ++ time ++ offset)

------------------------------------------------------------
-- Values
------------------------------------------------------------

/- A value of a TOML document. -/
inductive Value where
| string (value : String)
| integer (value : Int64)
| float (value : Double)
| boolean (value : Bool)
| moment (value : Moment)
| array (items : List Value)
| table (entries : List (String × Value))
deriving Repr

/- The entries of a table, in order. -/
abbrev Table := List (String × Value)

end Toml

end TemplateTree
