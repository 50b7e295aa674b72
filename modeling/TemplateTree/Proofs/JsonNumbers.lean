import TemplateTree.Json.Scan
import TemplateTree.Proofs.JsonStrings
import TemplateTree.Proofs.Numeral

/-
  Reading the numbers that a JSON document is written with.

  Main declarations:
    * `Json.EndsNumber`
    * `Json.readNumber_numeral`
    * `Json.readFraction_float`
    * `Json.readFraction_whole`

  The reader takes a numeral apart where its whole part, its
  fraction and its exponent end.  Bytes that could extend the
  numeral must not follow it.
-/

------------------------------------------------------------
-- Digits
------------------------------------------------------------

namespace TemplateTree

namespace Json

theorem toNat_of_isDigit
    {c : Char}
    (hc : c.isDigit = true) :
    48 ≤ c.toNat ∧ c.toNat ≤ 57 :=
  Char.isDigit_iff_toNat.mp hc

theorem isDigit_byte
    {c : Char}
    (hc : c.isDigit = true) :
    isDigit (byte c) = true := by
  rcases toNat_of_isDigit hc with ⟨hLow, hHigh⟩
  have hNumber : (byte c).toNat = c.toNat :=
    toNat_byte (by omega)
  simp [isDigit, UInt8.le_iff_toNat_le, hNumber, hLow, hHigh]

theorem encodeChars_digits
    {cs : List Char}
    (hcs : AllDigits cs) :
    Utf8.encodeChars cs = cs.map byte := by
  apply encodeChars_ascii
  intro c hc
  have hDigit := toNat_of_isDigit (hcs c hc)
  omega

theorem digitsValue_map_byte
    {cs : List Char}
    (hcs : AllDigits cs) :
    digitsValue (cs.map byte) = Nat.ofDigitChars 10 cs 0 := by
  unfold digitsValue
  rw [Nat.ofDigitChars_eq_foldl, List.foldl_map]
  apply List.foldl_ext
  intro n c hc
  have hDigit := toNat_of_isDigit (hcs c hc)
  rw [toNat_byte (by omega)]
  rfl

/- Bytes that do not go on with a digit. -/
def EndsDigits (rest : List UInt8) : Prop :=
  ∀ b ∈ rest.head?, isDigit b = false

/- Bytes that do not go on with a number. -/
def EndsNumber (rest : List UInt8) : Prop :=
  ∀ b ∈ rest.head?,
    isDigit b = false ∧ b ≠ byte '.' ∧
      b ≠ byte 'e' ∧ b ≠ byte 'E'

theorem EndsNumber.endsDigits
    {rest : List UInt8}
    (hEnd : EndsNumber rest) :
    EndsDigits rest :=
  fun b hb => (hEnd b hb).1

theorem takeWhile_digits
    {cs : List Char}
    {rest : List UInt8}
    (hcs : AllDigits cs)
    (hEnd : EndsDigits rest) :
    (cs.map byte ++ rest).takeWhile isDigit = cs.map byte := by
  refine takeWhile_append_of_head? ?_ hEnd
  intro b hb
  rcases List.mem_map.mp hb with ⟨c, hc, rfl⟩
  exact isDigit_byte (hcs c hc)

theorem dropWhile_digits
    {cs : List Char}
    {rest : List UInt8}
    (hcs : AllDigits cs)
    (hEnd : EndsDigits rest) :
    (cs.map byte ++ rest).dropWhile isDigit = rest := by
  refine dropWhile_append_of_head? ?_ hEnd
  intro b hb
  rcases List.mem_map.mp hb with ⟨c, hc, rfl⟩
  exact isDigit_byte (hcs c hc)

------------------------------------------------------------
-- Numbers
------------------------------------------------------------

/- More digits only make a number larger. -/
theorem le_foldl_digits
    (value : Nat)
    (bytes : List UInt8) :
    value ≤
      bytes.foldl (fun n b => 10 * n + (b.toNat - 48)) value := by
  induction bytes generalizing value with
  | nil => exact Nat.le_refl value
  | cons b bytes ih =>
      have hNext : value ≤ 10 * value + (b.toNat - 48) := by
        omega
      exact Nat.le_trans hNext (ih _)

/-
  An exponent is past the limit as soon as some of its digits
  are, and those that are still to come do not matter.
-/
theorem exponentOverflow?_from_eq_none_iff
    {value : Nat}
    (hValue : value ≤ maxExponent)
    (bytes : List UInt8) :
    exponentOverflow? value bytes = none ↔
      (bytes.takeWhile isDigit).foldl
          (fun n b => 10 * n + (b.toNat - 48)) value ≤
        maxExponent := by
  induction bytes generalizing value with
  | nil => exact iff_of_true rfl hValue
  | cons b bytes ih =>
      rw [exponentOverflow?]
      cases hb : isDigit b with
      | false =>
          rw [if_neg Bool.false_ne_true,
            List.takeWhile_cons_of_neg (by simp [hb])]
          exact iff_of_true rfl hValue
      | true =>
          rw [if_pos rfl, List.takeWhile_cons_of_pos hb,
            List.foldl_cons]
          dsimp only
          split
          · next hPast =>
              have hMore :=
                le_foldl_digits (10 * value + (b.toNat - 48))
                  (bytes.takeWhile isDigit)
              exact
                iff_of_false (by simp)
                  (Nat.not_le.mpr (Nat.lt_of_lt_of_le hPast hMore))
          · next hNext => exact ih (Nat.not_lt.mp hNext)

theorem exponentOverflow?_eq_none_iff
    (bytes : List UInt8) :
    exponentOverflow? 0 bytes = none ↔
      digitsValue (bytes.takeWhile isDigit) ≤ maxExponent :=
  exponentOverflow?_from_eq_none_iff (Nat.zero_le _) bytes

/- The exponent that a sign and a number spell. -/
theorem readExponent_digits
    (negative minus : Bool)
    (digits scale : Nat)
    {k : Nat}
    {rest : List UInt8}
    (hk : k ≤ maxExponent)
    (hEnd : EndsDigits rest) :
    readExponent negative digits scale minus
        ((Nat.toDigits 10 k).map byte ++ rest) =
      finishFloat negative
        ⟨digits, (if minus then -(k : Int) else k) - scale⟩
        rest := by
  have hDigits := allDigits_toDigits k
  have hTake := takeWhile_digits hDigits hEnd
  have hDrop := dropWhile_digits hDigits hEnd
  have hValue :
      digitsValue ((Nat.toDigits 10 k).map byte) = k := by
    rw [digitsValue_map_byte hDigits,
      Nat.ofDigitChars_ten_toDigits]
  have hOverflow :
      exponentOverflow? 0
        ((Nat.toDigits 10 k).map byte ++ rest) = none := by
    rw [exponentOverflow?_eq_none_iff, hTake, hValue]
    exact hk
  cases hShape : Nat.toDigits 10 k with
  | nil => exact absurd hShape Nat.toDigits_ne_nil
  | cons c cs =>
      have hc : isDigit (byte c) = true :=
        isDigit_byte (hDigits c (by simp [hShape]))
      rw [hShape] at hOverflow hTake hDrop hValue
      rw [List.map_cons, List.cons_append] at *
      simp only [readExponent, hc, hOverflow, hTake, hDrop,
        hValue, Bool.not_true, Bool.false_eq_true, ↓reduceIte]

/- What follows the digits of a float. -/
theorem readScale_exponentChars
    (negative : Bool)
    (digits scale : Nat)
    (n : Numeral)
    {rest : List UInt8}
    (hExponent : ∀ e ∈ n.exponent, e.natAbs ≤ maxExponent)
    (hEnd : EndsNumber rest) :
    readScale negative digits scale
        (Utf8.encodeChars (n.exponentChars true) ++ rest) =
      finishFloat negative
        ⟨digits, n.exponent.getD 0 - scale⟩ rest := by
  unfold Numeral.exponentChars
  split
  next hNone =>
    rw [hNone, Option.getD_none, Int.zero_sub,
      Utf8.encodeChars_nil, List.nil_append]
    cases rest with
    | nil => rfl
    | cons b rest =>
        rcases hEnd b rfl with ⟨_, _, hLower, hUpper⟩
        simp only [readScale, hLower, hUpper, or_self,
          ↓reduceIte]
  next e hSome =>
    have hDigits := allDigits_toDigits e.natAbs
    have hRead (minus : Bool) :=
      readExponent_digits negative minus digits scale
        (hExponent e hSome) hEnd.endsDigits
    rw [hSome, Option.getD_some, List.cons_append,
      Utf8.encodeChars_cons, Utf8.encodeChars_append,
      encodeChars_digits hDigits, Numeral.exponentSign]
    by_cases hSign : e < 0
    · have hMinus := hRead true
      have hValue : -(e.natAbs : Int) = e := by omega
      rw [if_pos rfl, hValue] at hMinus
      rw [if_pos hSign]
      exact hMinus
    · have hPlus := hRead false
      have hValue : (e.natAbs : Int) = e := by omega
      rw [if_neg Bool.false_ne_true, hValue] at hPlus
      rw [if_neg hSign]
      exact hPlus

theorem endsDigits_exponentChars
    (n : Numeral)
    {rest : List UInt8}
    (hEnd : EndsNumber rest) :
    EndsDigits
      (Utf8.encodeChars (n.exponentChars true) ++ rest) := by
  unfold Numeral.exponentChars
  split
  · exact hEnd.endsDigits
  · rintro b ⟨⟩
    decide

theorem endsDigits_fractionChars
    (n : Numeral)
    {rest : List UInt8}
    (hEnd : EndsDigits rest) :
    EndsDigits (Utf8.encodeChars n.fractionChars ++ rest) := by
  unfold Numeral.fractionChars
  split
  · exact hEnd
  · rintro b ⟨⟩
    decide

theorem readFraction_whole
    (negative : Bool)
    (whole : List UInt8)
    {rest : List UInt8}
    (hEnd : EndsNumber rest) :
    readFraction negative whole rest =
      finishInteger negative whole rest := by
  cases rest with
  | nil => rfl
  | cons b rest =>
      rcases hEnd b rfl with ⟨_, hPoint, hLower, hUpper⟩
      simp only [readFraction, hPoint, hLower, hUpper,
        or_self, ↓reduceIte]

theorem readFraction_float
    (negative : Bool)
    {n : Numeral}
    {rest : List UInt8}
    (hFloat : n.IsFloat)
    (hExponent : ∀ e ∈ n.exponent, e.natAbs ≤ maxExponent)
    (hEnd : EndsNumber rest) :
    readFraction negative (n.whole.map byte)
        (Utf8.encodeChars
          (n.fractionChars ++ n.exponentChars true) ++ rest) =
      finishFloat negative n.decimal rest := by
  have hScale (digits scale : Nat) :=
    readScale_exponentChars negative digits scale n
      hExponent hEnd
  have hDigits := n.whole_digits
  have hAfter := endsDigits_exponentChars n hEnd
  unfold Numeral.fractionChars Numeral.decimal
  split
  next hNone =>
    rcases hFloat with hFraction | hSome
    · exact absurd hNone hFraction
    · rw [hNone, List.append_nil,
        ← digitsValue_map_byte hDigits, List.nil_append,
        List.length_nil, ← hScale]
      rcases Option.ne_none_iff_exists'.mp hSome with ⟨e, he⟩
      simp only [Numeral.exponentChars, he]
      rfl
  next hSome =>
    have hFraction := n.fraction_digits
    have hValue :
        digitsValue (n.whole.map byte ++ n.fraction.map byte) =
          Nat.ofDigitChars 10 (n.whole ++ n.fraction) 0 := by
      rw [← List.map_append]
      exact digitsValue_map_byte (hDigits.append hFraction)
    have hTake := takeWhile_digits hFraction hAfter
    have hDrop := dropWhile_digits hFraction hAfter
    have hSome' : (n.fraction.map byte).isEmpty = false := by
      simpa using hSome
    rw [List.cons_append, Utf8.encodeChars_cons,
      encodeChar_ascii (by decide), Utf8.encodeChars_append,
      encodeChars_digits hFraction, List.append_assoc,
      List.append_assoc, List.singleton_append, readFraction]
    simp only [hTake, hDrop, hSome', hValue, hScale,
      List.length_map, Bool.false_eq_true, ↓reduceIte]

theorem readNumber_numeral
    (negative : Bool)
    (n : Numeral)
    {rest : List UInt8}
    (hEnd : EndsNumber rest) :
    readNumber negative
        (Utf8.encodeChars (n.chars true) ++ rest) =
      readFraction negative (n.whole.map byte)
        (Utf8.encodeChars
          (n.fractionChars ++ n.exponentChars true) ++ rest) := by
  have hDigits := n.whole_digits
  have hAfter :
      EndsDigits
        (Utf8.encodeChars
          (n.fractionChars ++ n.exponentChars true)
            ++ rest) := by
    rw [Utf8.encodeChars_append, List.append_assoc]
    apply endsDigits_fractionChars
    exact endsDigits_exponentChars n hEnd
  rw [Numeral.chars, Utf8.encodeChars_append,
    encodeChars_digits hDigits, List.append_assoc]
  generalize
    Utf8.encodeChars
      (n.fractionChars ++ n.exponentChars true) ++ rest = after
    at *
  rcases n.no_leading_zero with hZero | ⟨c, cs, hWhole, hc⟩
  · rw [hZero, List.map_singleton, List.singleton_append]
    cases after with
    | nil => rfl
    | cons b after => simp [readNumber, hAfter b rfl]
  · rw [hWhole] at hDigits
    rcases allDigits_cons_iff.mp hDigits with ⟨hFirst, hTail⟩
    have hRange := toNat_of_isDigit hFirst
    have hNotZero : byte c ≠ byte '0' := fun hByte =>
      hc (eq_of_byte_eq (by omega) (by decide) hByte)
    simp only [hWhole, List.map_cons, List.cons_append,
      readNumber, hNotZero, isDigit_byte hFirst,
      takeWhile_digits hTail hAfter,
      dropWhile_digits hTail hAfter, ↓reduceIte]

------------------------------------------------------------
-- Values
------------------------------------------------------------

theorem finishFloat_finite
    {x : Double}
    {d : Decimal}
    (hFinite : x.isFinite = true)
    (hMagnitude : d.magnitude = x.magnitudeBits)
    (rest : List UInt8) :
    finishFloat x.isNegative d rest = .ok (.float x, rest) := by
  have hDouble : d.toDouble x.isNegative = x := by
    rw [Decimal.toDouble, hMagnitude]
    exact Double.ofMagnitude_magnitudeBits x
  unfold finishFloat
  rw [hDouble, if_pos hFinite]

theorem finishInteger_signed
    {k : Int}
    (hLow : -9223372036854775808 ≤ k)
    (hHigh : k < 9223372036854775808)
    (rest : List UInt8) :
    finishInteger (decide (k < 0))
        ((Nat.toDigits 10 k.natAbs).map byte) rest =
      .ok (.integer k, rest) := by
  have hValue :
      digitsValue ((Nat.toDigits 10 k.natAbs).map byte) =
        k.natAbs := by
    rw [digitsValue_map_byte (allDigits_toDigits _),
      Nat.ofDigitChars_ten_toDigits]
  have hSigned : Nat.pow 2 63 = 9223372036854775808 := rfl
  have hUnsigned : maxUnsigned = 18446744073709551615 := rfl
  simp only [finishInteger, hValue, hSigned, hUnsigned]
  by_cases hSign : k < 0
  · have hNumber : -(k.natAbs : Int) = k := by omega
    rw [decide_eq_true hSign, if_pos rfl,
      if_pos ⟨by omega, by omega⟩, hNumber]
  · have hNumber : (k.natAbs : Int) = k := by omega
    rw [decide_eq_false hSign, if_neg Bool.false_ne_true,
      if_pos (by omega), hNumber]

end Json

end TemplateTree
