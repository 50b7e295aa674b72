/-
  Binary floating-point numbers of 64 bits.

  Key definitions include:
    * `Double`
    * `Double.isFinite`
    * `Double.units`
    * `Double.nearest`

  A double is its bit pattern, so equality tells every two
  patterns apart: zeros by their sign, and not-a-numbers by
  their payload.  The magnitude of a finite double is a whole
  number of units of 2 ^ -1074, and rounding a fraction is
  done on that scale in exact arithmetic.
-/

------------------------------------------------------------
-- Bit Patterns
------------------------------------------------------------

namespace TemplateTree

/- A floating-point number, given by its 64 bits. -/
structure Double where
  bits : UInt64
deriving DecidableEq, Repr

namespace Double

/- The bits of the magnitude of an infinity. -/
def infinityBits : Nat :=
  2047 * Nat.pow 2 52

/- The bits without the sign. -/
def magnitudeBits (x : Double) : Nat :=
  x.bits.toNat % Nat.pow 2 63

/- Whether the sign bit is set. -/
def isNegative (x : Double) : Bool :=
  Nat.pow 2 63 ≤ x.bits.toNat

/- Neither an infinity nor a not-a-number. -/
def isFinite (x : Double) : Bool :=
  x.magnitudeBits < infinityBits

/- A not-a-number, whatever its payload. -/
def isNaN (x : Double) : Bool :=
  infinityBits < x.magnitudeBits

/- A zero of either sign. -/
def isZero (x : Double) : Bool :=
  x.magnitudeBits == 0

/- The double with a given sign and magnitude. -/
def ofMagnitude
    (negative : Bool)
    (magnitude : Nat) : Double where
  bits := (cond negative (Nat.pow 2 63) 0 + magnitude).toUInt64

/-
  The magnitude of a finite double, counted in units of
  2 ^ -1074.
-/
def units (x : Double) : Nat :=
  let field := x.magnitudeBits / Nat.pow 2 52
  let fraction := x.magnitudeBits % Nat.pow 2 52
  if field = 0 then fraction
  else (Nat.pow 2 52 + fraction) * Nat.pow 2 (field - 1)

/-
  Equality of the numbers: zeros are equal whatever their
  sign, and a not-a-number equals nothing.
-/
def sameNumber (x y : Double) : Bool :=
  !x.isNaN && !y.isNaN && (x == y || (x.isZero && y.isZero))

------------------------------------------------------------
-- Rounding
------------------------------------------------------------

/- A quotient rounded to the nearest, a half to the even one. -/
def roundHalfEven (num den : Nat) : Nat :=
  let quotient := num / den
  let twice := 2 * (num % den)
  if twice < den then quotient
  else if den < twice then quotient + 1
  else quotient + quotient % 2

/-
  The bits of the double nearest to a fraction.  In units of
  2 ^ -1074 a double has at most 53 significant bits; `drop`
  is the number of bits of the quotient below them.  A
  rounding that carries into the next power of two carries
  into the exponent field by itself.
-/
def nearestMagnitude (num den : Nat) : Nat :=
  let scaled := num * Nat.pow 2 1074
  let drop := (scaled / den).log2 - 52
  min infinityBits
    (drop * Nat.pow 2 52
      + roundHalfEven scaled (den * Nat.pow 2 drop))

/- The double nearest to a fraction of a given sign. -/
def nearest
    (negative : Bool)
    (num den : Nat) : Double :=
  ofMagnitude negative (nearestMagnitude num den)

end Double

end TemplateTree
