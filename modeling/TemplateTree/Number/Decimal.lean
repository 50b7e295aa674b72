import TemplateTree.Number.Double

/-
  Decimal fractions and the doubles they stand for.

  Key definitions include:
    * `Decimal`
    * `Decimal.toDouble`
    * `Decimal.shortest`

  A decimal is a whole number times a power of ten.  Reading
  one gives the nearest double.  Writing a double takes the
  decimal with the fewest digits that reads back as it.
-/

------------------------------------------------------------
-- Reading
------------------------------------------------------------

namespace TemplateTree

/- The number `digits` times ten to the power `exponent`. -/
structure Decimal where
  digits : Nat
  exponent : Int
deriving DecidableEq, Repr

namespace Decimal

/- The number of decimal digits of a number. -/
def digitCount (n : Nat) : Nat :=
  (Nat.toDigits 10 n).length

/-
  The bits of the double nearest to a decimal.  A decimal of
  10 ^ 309 or more is infinite and one below 10 ^ -324 is
  zero, so only powers of ten between are ever computed.
-/
def magnitude (d : Decimal) : Nat :=
  let point := d.exponent + digitCount d.digits
  if d.digits = 0 then 0
  else if 310 ≤ point then Double.infinityBits
  else if point ≤ -324 then 0
  else if 0 ≤ d.exponent then
    Double.nearestMagnitude (d.digits * Nat.pow 10 d.exponent.toNat) 1
  else
    Double.nearestMagnitude d.digits (Nat.pow 10 (-d.exponent).toNat)

/- The double nearest to a decimal of a given sign. -/
def toDouble
    (negative : Bool)
    (d : Decimal) : Double :=
  Double.ofMagnitude negative d.magnitude

------------------------------------------------------------
-- Shortest Form
------------------------------------------------------------

/- Where to go from halfway between two decimals. -/
inductive Tie where
| up
| even
deriving DecidableEq, Repr

/-
  Among the two multiples of ten to the power `exponent`
  around the fraction `num / den`, the nearer of those that
  read back as the double with the bits `bits`.
-/
def onGrid
    (tie : Tie)
    (bits num den : Nat)
    (exponent : Int) : Option Decimal :=
  let a :=
    if 0 ≤ exponent then num
    else num * Nat.pow 10 (-exponent).toNat
  let b :=
    if 0 ≤ exponent then den * Nat.pow 10 exponent.toNat
    else den
  let below : Decimal := ⟨a / b, exponent⟩
  let above : Decimal := ⟨a / b + 1, exponent⟩
  let twice := 2 * (a % b)
  let takeAbove :=
    match tie with
    | .up => decide (b ≤ twice)
    | .even => decide (b < twice) || (twice == b && a / b % 2 == 1)
  match decide (below.magnitude = bits),
      decide (above.magnitude = bits) with
  | true, true => some (if takeAbove then above else below)
  | true, false => some below
  | false, true => some above
  | false, false => none

/- The power of ten just below a positive fraction. -/
def leadingExponent (num den : Nat) : Int :=
  if den ≤ num then (digitCount (num / den) : Int) - 1
  else -(digitCount (den / num) : Int)

/-
  The first grid that has a decimal for the double, from the
  one with `count` digits on.
-/
def firstOnGrid
    (tie : Tie)
    (bits num den : Nat)
    (lead : Int) :
    (remaining count : Nat) → Option Decimal
| 0, _ => none
| remaining + 1, count =>
    match onGrid tie bits num den (lead + 1 - count) with
    | some d => some d
    | none => firstOnGrid tie bits num den lead remaining (count + 1)

/- Move trailing zeros of the digits into the exponent. -/
def dropZeros : (fuel : Nat) → Decimal → Decimal
| 0, d => d
| fuel + 1, d =>
    if d.digits ≠ 0 ∧ d.digits % 10 = 0 then
      dropZeros fuel ⟨d.digits / 10, d.exponent + 1⟩
    else d

/-
  A decimal with the fewest digits that reads back as a
  finite double.  Seventeen digits are always enough; the
  exact value of the double stands behind them.
-/
def shortest
    (tie : Tie)
    (x : Double) : Decimal :=
  let num := x.units
  let den := Nat.pow 2 1074
  if num = 0 then ⟨0, 0⟩
  else
    let found :=
      (firstOnGrid tie x.magnitudeBits num den
        (leadingExponent num den) 17 1).getD
        ⟨num * Nat.pow 5 1074, -1074⟩
    dropZeros (digitCount found.digits) found

end Decimal

end TemplateTree
