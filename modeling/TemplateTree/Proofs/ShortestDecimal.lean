import Mathlib.Tactic.Ring
import Mathlib.Tactic.Positivity
import TemplateTree.Number.Decimal

/-
  The shortest decimal of a double reads back as the double.

  Main declarations:
    * `Double.ofMagnitude_magnitudeBits`
    * `Double.nearestMagnitude_units`
    * `Decimal.magnitude_mul_pow`
    * `Decimal.magnitude_shortest`
    * `Decimal.point_shortest`

  A decimal found on a grid was tried before it was taken.
  The exact value stands behind the grids, and rounding the
  exact value of a double gives the double.  Moving zeros
  between digits and exponent changes nothing, since rounding
  depends on the value of a fraction alone.
-/

------------------------------------------------------------
-- Bit Patterns
------------------------------------------------------------

namespace TemplateTree

namespace Double

theorem pow_two_pos
    (n : Nat) :
    0 < Nat.pow 2 n :=
  Nat.two_pow_pos n

/- A double is its sign and its magnitude. -/
theorem ofMagnitude_magnitudeBits
    (x : Double) :
    ofMagnitude x.isNegative x.magnitudeBits = x := by
  have hSize := x.bits.toNat_lt
  have hSum :
      cond x.isNegative (Nat.pow 2 63) 0 + x.magnitudeBits =
        x.bits.toNat := by
    unfold isNegative magnitudeBits
    simp only [Nat.pow_eq]
    by_cases hSign : 2 ^ 63 ≤ x.bits.toNat
    · rw [decide_eq_true hSign]
      simp only [cond_true]
      omega
    · rw [decide_eq_false hSign]
      simp only [cond_false]
      omega
  unfold ofMagnitude
  rw [hSum, Nat.toUInt64_eq, UInt64.ofNat_toNat]

theorem magnitudeBits_lt
    {x : Double}
    (hFinite : x.isFinite = true) :
    x.magnitudeBits < 2047 * 2 ^ 52 :=
  of_decide_eq_true hFinite

/- The value of a finite double by its two fields. -/
theorem units_eq
    (x : Double) :
    x.units =
      if x.magnitudeBits / 2 ^ 52 = 0 then
        x.magnitudeBits % 2 ^ 52
      else
        (2 ^ 52 + x.magnitudeBits % 2 ^ 52)
          * 2 ^ (x.magnitudeBits / 2 ^ 52 - 1) := rfl

theorem units_lt
    {x : Double}
    {k : Nat}
    (hField : x.magnitudeBits / 2 ^ 52 ≤ k) :
    x.units < 2 ^ 53 * Nat.pow 2 k := by
  have hFraction :
      2 ^ 52 + x.magnitudeBits % 2 ^ 52 < 2 ^ 53 := by omega
  have hScale :
      2 ^ (x.magnitudeBits / 2 ^ 52 - 1) ≤ Nat.pow 2 k :=
    Nat.pow_le_pow_right (by decide) (by omega)
  have hOne : 0 < 2 ^ (x.magnitudeBits / 2 ^ 52 - 1) :=
    Nat.two_pow_pos _
  rw [units_eq]
  split
  next =>
    calc
      x.magnitudeBits % 2 ^ 52 < 2 ^ 53 := by omega
      _ ≤ 2 ^ 53 * Nat.pow 2 k :=
        Nat.le_mul_of_pos_right _ (pow_two_pos k)
  next =>
    calc
      (2 ^ 52 + x.magnitudeBits % 2 ^ 52)
          * 2 ^ (x.magnitudeBits / 2 ^ 52 - 1)
        < 2 ^ 53 * 2 ^ (x.magnitudeBits / 2 ^ 52 - 1) :=
          Nat.mul_lt_mul_of_pos_right hFraction hOne
      _ ≤ 2 ^ 53 * Nat.pow 2 k := Nat.mul_le_mul_left _ hScale

------------------------------------------------------------
-- Rounding
------------------------------------------------------------

/- Rounding depends on the value of a fraction alone. -/
theorem roundHalfEven_mul_left
    {k : Nat}
    (hk : 0 < k)
    (num den : Nat) :
    roundHalfEven (k * num) (k * den) =
      roundHalfEven num den := by
  have hQuotient : k * num / (k * den) = num / den :=
    Nat.mul_div_mul_left num den hk
  have hTwice :
      2 * (k * num % (k * den)) = k * (2 * (num % den)) := by
    rw [Nat.mul_mod_mul_left]
    ring
  unfold roundHalfEven
  simp only [hQuotient, hTwice, Nat.mul_lt_mul_left hk]

theorem roundHalfEven_mul_right
    {den : Nat}
    (hDen : 0 < den)
    (n : Nat) :
    roundHalfEven (n * den) den = n := by
  unfold roundHalfEven
  simp only [Nat.mul_div_cancel n hDen, Nat.mul_mod_left]
  rw [if_pos (by omega)]

/- So does the double nearest to a fraction. -/
theorem nearestMagnitude_mul_left
    {k : Nat}
    (hk : 0 < k)
    (num den : Nat) :
    nearestMagnitude (k * num) (k * den) =
      nearestMagnitude num den := by
  unfold nearestMagnitude
  simp only [Nat.mul_assoc, Nat.mul_div_mul_left _ _ hk,
    roundHalfEven_mul_left hk]

/- A whole number of units is rounded without its scale. -/
theorem nearestMagnitude_unscaled
    (n : Nat) :
    nearestMagnitude n (Nat.pow 2 1074) =
      min infinityBits
        ((n.log2 - 52) * 2 ^ 52
          + roundHalfEven n (2 ^ (n.log2 - 52))) := by
  have hScaled :
      ∀ scale, 0 < scale →
        min infinityBits
          (((n * scale / scale).log2 - 52) * 2 ^ 52
            + roundHalfEven (n * scale)
              (scale * 2 ^ ((n * scale / scale).log2 - 52))) =
        min infinityBits
          ((n.log2 - 52) * 2 ^ 52
            + roundHalfEven n (2 ^ (n.log2 - 52))) := by
    intro scale hScale
    rw [Nat.mul_div_cancel n hScale, Nat.mul_comm n scale,
      roundHalfEven_mul_left hScale]
  unfold nearestMagnitude
  apply hScaled
  exact Nat.two_pow_pos _

/-
  The bits of a magnitude of `field` and `fraction`, found by
  rounding its value in units.
-/
theorem nearestMagnitude_significand
    {field fraction : Nat}
    (hFraction : fraction < 2 ^ 52)
    (hField : field < 2046) :
    nearestMagnitude ((2 ^ 52 + fraction) * 2 ^ field)
        (Nat.pow 2 1074) =
      (field + 1) * 2 ^ 52 + fraction := by
  have hLog :
      ((2 ^ 52 + fraction) * 2 ^ field).log2 = 52 + field := by
    rw [Nat.log2_eq_iff (by positivity)]
    constructor
    · rw [Nat.pow_add]
      exact Nat.mul_le_mul_right _ (by omega)
    · rw [show 52 + field + 1 = 53 + field by omega,
        Nat.pow_add]
      exact Nat.mul_lt_mul_of_pos_right (by omega)
        (Nat.two_pow_pos field)
  have hInfinity : infinityBits = 2047 * 2 ^ 52 := rfl
  rw [nearestMagnitude_unscaled, hLog, hInfinity,
    Nat.add_sub_cancel_left,
    roundHalfEven_mul_right (Nat.two_pow_pos field)]
  omega

/- A magnitude below the normal ones is its own bits. -/
theorem nearestMagnitude_subnormal
    {fraction : Nat}
    (hFraction : fraction < 2 ^ 52) :
    nearestMagnitude fraction (Nat.pow 2 1074) = fraction := by
  have hLog : fraction.log2 - 52 = 0 := by
    by_cases hZero : fraction = 0
    · simp [hZero]
    · have := (Nat.log2_lt hZero).mpr hFraction
      omega
  have hInfinity : infinityBits = 2047 * 2 ^ 52 := rfl
  have hRound : roundHalfEven fraction 1 = fraction := by
    simpa using roundHalfEven_mul_right Nat.one_pos fraction
  rw [nearestMagnitude_unscaled, hLog, hInfinity,
    Nat.pow_zero, hRound]
  omega

/- Rounding the exact value of a double gives its bits. -/
theorem nearestMagnitude_units
    {x : Double}
    (hFinite : x.isFinite = true) :
    nearestMagnitude x.units (Nat.pow 2 1074) =
      x.magnitudeBits := by
  have hBound := magnitudeBits_lt hFinite
  have hFraction : x.magnitudeBits % 2 ^ 52 < 2 ^ 52 :=
    Nat.mod_lt _ (by decide)
  have hSplit := Nat.div_add_mod x.magnitudeBits (2 ^ 52)
  rw [units_eq]
  generalize x.magnitudeBits = bits at *
  by_cases hField : bits / 2 ^ 52 = 0
  · rw [if_pos hField,
      nearestMagnitude_subnormal hFraction]
    omega
  · rw [if_neg hField,
      nearestMagnitude_significand hFraction (by omega)]
    omega

end Double

------------------------------------------------------------
-- Decimals Of Equal Value
------------------------------------------------------------

namespace Decimal

theorem digitCount_mul_ten
    {m : Nat}
    (hm : 0 < m) :
    digitCount (m * 10) = digitCount m + 1 := by
  have hDigits :
      Nat.toDigits 10 m ++ Nat.toDigits 10 0 =
        Nat.toDigits 10 (10 * m + 0) :=
    Nat.toDigits_append_toDigits (by decide) hm (by decide)
  unfold digitCount
  rw [Nat.mul_comm, ← Nat.add_zero (10 * m), ← hDigits]
  simp

/- The bits of a decimal that is neither too large nor small. -/
theorem magnitude_eq_nearest
    {d : Decimal}
    (hDigits : d.digits ≠ 0)
    (hLow : -324 < d.exponent + digitCount d.digits)
    (hHigh : d.exponent + digitCount d.digits < 310) :
    d.magnitude =
      Double.nearestMagnitude
        (d.digits * 10 ^ d.exponent.toNat)
        (10 ^ (-d.exponent).toNat) := by
  unfold magnitude
  simp only [Nat.pow_eq]
  rw [if_neg hDigits, if_neg (by omega), if_neg (by omega)]
  split
  next hExponent =>
    have hZero : (-d.exponent).toNat = 0 := by omega
    rw [hZero, Nat.pow_zero]
  next hExponent =>
    have hZero : d.exponent.toNat = 0 := by omega
    rw [hZero, Nat.pow_zero, Nat.mul_one]

/- A zero may stand in the digits or in the exponent. -/
theorem magnitude_mul_ten
    (m : Nat)
    (e : Int) :
    magnitude ⟨m * 10, e - 1⟩ = magnitude ⟨m, e⟩ := by
  by_cases hm : m = 0
  · simp [magnitude, hm]
  have hCount := digitCount_mul_ten (Nat.pos_of_ne_zero hm)
  have hPoint :
      e - 1 + digitCount (m * 10) = e + digitCount m := by
    omega
  by_cases hRange :
      -324 < e + digitCount m ∧ e + digitCount m < 310
  · rw [magnitude_eq_nearest (d := ⟨m, e⟩) hm hRange.1 hRange.2,
      magnitude_eq_nearest (d := ⟨m * 10, e - 1⟩)
        (by simp [hm]) (hPoint ▸ hRange.1) (hPoint ▸ hRange.2)]
    dsimp only
    by_cases hPositive : 1 ≤ e
    · have hUp : e.toNat = (e - 1).toNat + 1 := by omega
      have hDown : (-(e - 1)).toNat = (-e).toNat := by omega
      rw [hUp, hDown, Nat.pow_succ]
      congr 1
      ring
    · have hUp : (e - 1).toNat = e.toNat := by omega
      have hDown : (-(e - 1)).toNat = (-e).toNat + 1 := by omega
      rw [hUp, hDown, Nat.pow_succ, Nat.mul_comm (10 ^ _) 10,
        show m * 10 * 10 ^ e.toNat = 10 * (m * 10 ^ e.toNat) by
          ring]
      exact Double.nearestMagnitude_mul_left (by decide) _ _
  · have hSides :
        310 ≤ e + digitCount m ∨ e + digitCount m ≤ -324 := by
      omega
    unfold magnitude
    simp only [hPoint, Nat.mul_eq_zero, hm]
    rcases hSides with hLarge | hSmall
    · simp [hLarge]
    · simp [hSmall, show ¬ 310 ≤ e + digitCount m by omega]

theorem magnitude_mul_pow
    (m j : Nat)
    (e : Int) :
    magnitude ⟨m * 10 ^ j, e - j⟩ = magnitude ⟨m, e⟩ := by
  induction j with
  | zero => simp
  | succ j ih =>
      have hNext := magnitude_mul_ten (m * 10 ^ j) (e - j)
      rw [← ih, ← hNext, Nat.pow_succ, Nat.mul_assoc]
      congr 2
      omega

theorem magnitude_dropZeros
    (fuel : Nat)
    (d : Decimal) :
    (dropZeros fuel d).magnitude = d.magnitude := by
  induction fuel generalizing d with
  | zero => rfl
  | succ fuel ih =>
      rw [dropZeros]
      split
      next hDigits =>
        have hMul : d.digits / 10 * 10 = d.digits := by omega
        have hTen :=
          magnitude_mul_ten (d.digits / 10) (d.exponent + 1)
        rw [hMul, Int.add_sub_cancel] at hTen
        rw [ih, ← hTen]
      next => rfl

------------------------------------------------------------
-- The Shortest Decimal
------------------------------------------------------------

theorem magnitude_onGrid
    {tie : Tie}
    {bits num den : Nat}
    {exponent : Int}
    {d : Decimal}
    (hFound : onGrid tie bits num den exponent = some d) :
    d.magnitude = bits := by
  unfold onGrid at hFound
  dsimp only at hFound
  split at hFound <;> grind

theorem magnitude_firstOnGrid
    {tie : Tie}
    {bits num den : Nat}
    {lead : Int}
    {remaining count : Nat}
    {d : Decimal}
    (hFound :
      firstOnGrid tie bits num den lead remaining count =
        some d) :
    d.magnitude = bits := by
  fun_induction firstOnGrid tie bits num den lead remaining
      count with
  | case1 => simp at hFound
  | case2 count remaining d' hGrid =>
      cases hFound
      exact magnitude_onGrid hGrid
  | case3 count remaining hGrid ih => exact ih hFound

/-
  A whole number of units of 2 ^ -k is a decimal with k places
  after the point.
-/
theorem magnitude_mul_five_pow
    {n k : Nat}
    {e : Int}
    (hExponent : e = -k)
    (hUnits : 324 < k)
    (hPos : 0 < n)
    (hLow : Nat.pow 10 (k - 324) ≤ n * Nat.pow 5 k)
    (hHigh : n * Nat.pow 5 k < Nat.pow 10 (k + 309)) :
    magnitude ⟨n * Nat.pow 5 k, e⟩ =
      Double.nearestMagnitude n (Nat.pow 2 k) := by
  have hMany : k - 324 < digitCount (n * Nat.pow 5 k) := by
    unfold digitCount
    rw [← Nat.not_le,
      Nat.length_toDigits_le_iff (by decide) (by omega)]
    exact Nat.not_lt.mpr hLow
  have hFew : digitCount (n * Nat.pow 5 k) ≤ k + 309 := by
    unfold digitCount
    rw [Nat.length_toDigits_le_iff (by decide) (by omega)]
    exact hHigh
  have hFive : 0 < Nat.pow 5 k := Nat.pow_pos (by decide)
  have hTen : 10 ^ k = Nat.pow 5 k * Nat.pow 2 k :=
    Nat.mul_pow 5 2 k
  have hUp : e.toNat = 0 := by omega
  have hDown : (-e).toNat = k := by omega
  rw [magnitude_eq_nearest (d := ⟨n * Nat.pow 5 k, e⟩)
    (Nat.ne_of_gt (Nat.mul_pos hPos hFive))
    (by dsimp only; omega) (by dsimp only; omega)]
  dsimp only
  rw [hUp, hDown, hTen, Nat.pow_zero, Nat.mul_one,
    Nat.mul_comm n, Double.nearestMagnitude_mul_left hFive]

/- The exact value of a double reads back as the double. -/
theorem magnitude_exact
    {x : Double}
    (hFinite : x.isFinite = true)
    (hUnits : x.units ≠ 0) :
    magnitude ⟨x.units * Nat.pow 5 1074, -1074⟩ =
      x.magnitudeBits := by
  have hBound := Double.magnitudeBits_lt hFinite
  have hPos : 0 < x.units := Nat.pos_of_ne_zero hUnits
  have hFive : Nat.pow 10 (1074 - 324) ≤ Nat.pow 5 1074 := by
    decide +kernel
  have hTen :
      2 ^ 53 * Nat.pow 2 2046 * Nat.pow 5 1074 <
        Nat.pow 10 (1074 + 309) := by
    decide +kernel
  have hLess : x.units < 2 ^ 53 * Nat.pow 2 2046 :=
    Double.units_lt (by omega)
  have hLow :=
    Nat.le_trans hFive (Nat.le_mul_of_pos_left _ hPos)
  have hHigh :=
    Nat.lt_of_le_of_lt
      (Nat.mul_le_mul_right (Nat.pow 5 1074) hLess.le) hTen
  rw [magnitude_mul_five_pow (by rfl) (by decide) hPos hLow hHigh]
  exact Double.nearestMagnitude_units hFinite

theorem magnitude_shortest
    (tie : Tie)
    {x : Double}
    (hFinite : x.isFinite = true) :
    (shortest tie x).magnitude = x.magnitudeBits := by
  unfold shortest
  dsimp only
  split
  next hUnits =>
    have hZero := Double.nearestMagnitude_units hFinite
    rw [hUnits, Double.nearestMagnitude_subnormal (by decide)]
      at hZero
    exact hZero
  next hUnits =>
    rw [magnitude_dropZeros]
    cases hGrid :
        firstOnGrid tie x.magnitudeBits x.units
          (Nat.pow 2 1074)
          (leadingExponent x.units (Nat.pow 2 1074)) 17 1 with
    | some d => exact magnitude_firstOnGrid hGrid
    | none => exact magnitude_exact hFinite hUnits

theorem shortest_zero
    (tie : Tie)
    {x : Double}
    (hBits : x.magnitudeBits = 0) :
    shortest tie x = ⟨0, 0⟩ := by
  have hUnits : x.units = 0 := by
    rw [Double.units_eq, hBits]
    rfl
  unfold shortest
  simp only [hUnits, ↓reduceIte]

theorem shortest_of_digits_eq_zero
    {tie : Tie}
    {x : Double}
    (hFinite : x.isFinite = true)
    (hDigits : (shortest tie x).digits = 0) :
    shortest tie x = ⟨0, 0⟩ := by
  apply shortest_zero
  rw [← magnitude_shortest tie hFinite]
  unfold magnitude
  simp only [hDigits, ↓reduceIte]

/- Where the digits of a double start, seen from the point. -/
theorem point_shortest
    {tie : Tie}
    {x : Double}
    (hFinite : x.isFinite = true)
    (hDigits : (shortest tie x).digits ≠ 0) :
    -324 < (shortest tie x).exponent
        + digitCount (shortest tie x).digits ∧
      (shortest tie x).exponent
        + digitCount (shortest tie x).digits < 310 := by
  have hMagnitude := magnitude_shortest tie hFinite
  have hZero : x.magnitudeBits ≠ 0 := by
    intro hBits
    exact hDigits (by rw [shortest_zero tie hBits])
  have hInfinity : x.magnitudeBits ≠ Double.infinityBits :=
    Nat.ne_of_lt (of_decide_eq_true hFinite)
  rw [← hMagnitude] at hZero hInfinity
  unfold magnitude at hZero hInfinity
  grind

end Decimal

end TemplateTree
