import TemplateTree.Number.Decimal

/-
  How floating-point numbers are written.

  Key definitions include:
    * `FloatLayout`
    * `FloatLayout.write`
    * `FloatLayout.plain`
    * `FloatLayout.source`

  All layouts write the shortest digits that read back.  They
  differ in where they turn to an exponent, in whether a
  whole number keeps a fraction, and in the sign of a
  positive exponent.
-/

------------------------------------------------------------
-- Digits In Place
------------------------------------------------------------

namespace TemplateTree

/-
  Digits with their decimal point after the first `point` of
  them, filled up with zeros where the point lies outside.
-/
def positional
    (digits : List Char)
    (point : Int)
    (fraction : Bool) : List Char :=
  let zero := '0'
  if point ≤ 0 then
    [zero, '.'] ++ List.replicate (-point).toNat zero ++ digits
  else if (digits.length : Int) ≤ point then
    digits ++ List.replicate (point.toNat - digits.length) zero
      ++ (if fraction then ['.', zero] else [])
  else
    digits.take point.toNat ++ ['.'] ++ digits.drop point.toNat

/- Digits with a point after the first and an exponent. -/
def scientific
    (digits : List Char)
    (exponent : Int)
    (plus : Bool) : List Char :=
  let mantissa :=
    match digits with
    | [] => []
    | [d] => [d]
    | d :: ds => d :: '.' :: ds
  let sign :=
    if exponent < 0 then ['-']
    else if plus then ['+']
    else []
  mantissa ++ ['e'] ++ sign ++ Nat.toDigits 10 exponent.natAbs

------------------------------------------------------------
-- Layouts
------------------------------------------------------------

/-
  The decisions of a layout: which exponents are written in
  place, whether a whole number keeps `.0`, whether a
  positive exponent has a sign, and which of two equally
  near decimals is taken.
-/
structure FloatLayout where
  inPlace : Int → Bool
  fraction : Bool
  plus : Bool
  tie : Decimal.Tie

namespace FloatLayout

/- A finite double without its sign. -/
def writeMagnitude
    (layout : FloatLayout)
    (x : Double) : List Char :=
  let d := Decimal.shortest layout.tie x
  let digits := Nat.toDigits 10 d.digits
  let exponent := d.exponent + digits.length - 1
  if d.digits = 0 || layout.inPlace exponent then
    positional digits (exponent + 1) layout.fraction
  else
    scientific digits exponent layout.plus

/- Any double; the special ones have names. -/
def write
    (layout : FloatLayout)
    (x : Double) : String :=
  if x.isNaN then "NaN"
  else
    let sign := if x.isNegative then ['-'] else []
    let body :=
      if x.isFinite then layout.writeMagnitude x
      else ['i', 'n', 'f']
    String.ofList (sign ++ body)

/- Numbers as rendered text: never an exponent, never `.0`. -/
def plain : FloatLayout where
  inPlace := fun _ => true
  fraction := false
  plus := false
  tie := .up

/-
  Numbers as source text: an exponent below 10 ^ -4 and from
  10 ^ 16 on, and otherwise always a fraction.
-/
def source : FloatLayout where
  inPlace := fun e => decide (-4 ≤ e ∧ e < 16)
  fraction := true
  plus := false
  tie := .up

end FloatLayout

end TemplateTree
