import TemplateTree.Number.Layout
import TemplateTree.Proofs.ShortestDecimal

/-
  Numbers as they are written.

  Main declarations:
    * `Numeral`
    * `Numeral.decimal`
    * `positional_numeral`
    * `scientific_numeral`
    * `FloatLayout.exists_numeral`

  Every layout writes a numeral whose decimal reads back as
  the double, so a reader of numerals has to be looked at
  once for all layouts.
-/

------------------------------------------------------------
-- Digits
------------------------------------------------------------

namespace TemplateTree

/- The digits of a positive number do not start with zero. -/
theorem toDigits_of_pos
    {n : Nat}
    (hn : 0 < n) :
    ∃ c rest, Nat.toDigits 10 n = c :: rest ∧ c ≠ '0' := by
  induction n using Nat.strongRecOn with
  | ind n ih =>
      rw [Nat.toDigits_eq_if (by decide)]
      split
      next hSmall =>
        refine ⟨_, _, rfl, ?_⟩
        simp only [ne_eq, Nat.digitChar_eq_zero]
        omega
      next hLarge =>
        rcases ih (n / 10) (by omega) (by omega)
          with ⟨c, rest, hDigits, hc⟩
        exact ⟨c, rest ++ [(n % 10).digitChar],
          by rw [hDigits, List.cons_append], hc⟩

/- The digits of a whole number, with no zero in front. -/
def NoLeadingZero (cs : List Char) : Prop :=
  cs = ['0'] ∨ ∃ c rest, cs = c :: rest ∧ c ≠ '0'

theorem noLeadingZero_toDigits
    (n : Nat) :
    NoLeadingZero (Nat.toDigits 10 n) := by
  by_cases hn : n = 0
  · exact Or.inl (by simp [hn])
  · exact Or.inr (toDigits_of_pos (Nat.pos_of_ne_zero hn))

/- Characters that are all decimal digits. -/
def AllDigits (cs : List Char) : Prop :=
  ∀ c ∈ cs, c.isDigit = true

theorem allDigits_toDigits
    (n : Nat) :
    AllDigits (Nat.toDigits 10 n) :=
  fun _ hc =>
    Nat.isDigit_of_mem_toDigits (by decide) (by decide) hc

theorem allDigits_zeros
    (k : Nat) :
    AllDigits (List.replicate k '0') := by
  intro c hc
  rw [List.eq_of_mem_replicate hc]
  decide

theorem allDigits_cons_iff
    {c : Char}
    {cs : List Char} :
    AllDigits (c :: cs) ↔ c.isDigit = true ∧ AllDigits cs :=
  List.forall_mem_cons

theorem AllDigits.append
    {cs ds : List Char}
    (hcs : AllDigits cs)
    (hds : AllDigits ds) :
    AllDigits (cs ++ ds) := by
  intro c hc
  rcases List.mem_append.mp hc with hc | hc
  · exact hcs c hc
  · exact hds c hc

theorem AllDigits.take
    {cs : List Char}
    (hcs : AllDigits cs)
    (k : Nat) :
    AllDigits (cs.take k) :=
  fun c hc => hcs c (List.mem_of_mem_take hc)

theorem AllDigits.drop
    {cs : List Char}
    (hcs : AllDigits cs)
    (k : Nat) :
    AllDigits (cs.drop k) :=
  fun c hc => hcs c (List.mem_of_mem_drop hc)

section Ends

variable {α : Type} {p : α → Bool} {xs rest : List α}

/- What is taken ends where something else follows. -/
theorem takeWhile_append_of_head?
    (hxs : ∀ x ∈ xs, p x = true)
    (hRest : ∀ x ∈ rest.head?, p x = false) :
    (xs ++ rest).takeWhile p = xs := by
  rw [List.takeWhile_append_of_pos hxs]
  cases rest with
  | nil => simp
  | cons x rest => simp [hRest x rfl]

theorem dropWhile_append_of_head?
    (hxs : ∀ x ∈ xs, p x = true)
    (hRest : ∀ x ∈ rest.head?, p x = false) :
    (xs ++ rest).dropWhile p = rest := by
  rw [List.dropWhile_append_of_pos hxs]
  cases rest with
  | nil => simp
  | cons x rest => simp [hRest x rfl]

end Ends

------------------------------------------------------------
-- Numerals
------------------------------------------------------------

/-
  A number as it is written: digits, perhaps a point with
  more digits, and perhaps an exponent.
-/
structure Numeral where
  whole : List Char
  fraction : List Char
  exponent : Option Int
  whole_digits : AllDigits whole
  fraction_digits : AllDigits fraction
  no_leading_zero : NoLeadingZero whole

namespace Numeral

/- The sign of an exponent. -/
def exponentSign
    (plus : Bool)
    (exponent : Int) : List Char :=
  if exponent < 0 then ['-']
  else if plus then ['+']
  else []

/- What stands after the digits of the whole part. -/
def fractionChars (n : Numeral) : List Char :=
  if n.fraction = [] then [] else '.' :: n.fraction

/- What stands after all digits. -/
def exponentChars
    (plus : Bool)
    (n : Numeral) : List Char :=
  match n.exponent with
  | none => []
  | some e =>
      'e' :: exponentSign plus e ++ Nat.toDigits 10 e.natAbs

/- The characters of a numeral. -/
def chars
    (plus : Bool)
    (n : Numeral) : List Char :=
  n.whole ++ (n.fractionChars ++ n.exponentChars plus)

/- The number that a numeral stands for. -/
def decimal (n : Numeral) : Decimal where
  digits := Nat.ofDigitChars 10 (n.whole ++ n.fraction) 0
  exponent := n.exponent.getD 0 - n.fraction.length

/- The numeral of a whole number. -/
def ofNat (n : Nat) : Numeral where
  whole := Nat.toDigits 10 n
  fraction := []
  exponent := none
  whole_digits := allDigits_toDigits n
  fraction_digits := allDigits_zeros 0
  no_leading_zero := noLeadingZero_toDigits n

theorem chars_ofNat
    (plus : Bool)
    (n : Nat) :
    (ofNat n).chars plus = Nat.toDigits 10 n := by
  simp [ofNat, chars, fractionChars, exponentChars]

theorem exists_cons
    (plus : Bool)
    (n : Numeral) :
    ∃ c cs, n.chars plus = c :: cs ∧ c.isDigit = true := by
  rcases n.no_leading_zero with hZero | ⟨c, cs, hWhole, _⟩
  · exact ⟨'0', _, by rw [chars, hZero]; rfl, rfl⟩
  · exact ⟨c, _, by rw [chars, hWhole]; rfl,
      n.whole_digits c (by simp [hWhole])⟩

/- A numeral that is more than a whole number. -/
def IsFloat (n : Numeral) : Prop :=
  n.fraction ≠ [] ∨ n.exponent ≠ none

end Numeral

------------------------------------------------------------
-- Layouts
------------------------------------------------------------

/- A point before the digits, with zeros between. -/
def Numeral.belowOne
    (m zeros : Nat) : Numeral where
  whole := ['0']
  fraction := List.replicate zeros '0' ++ Nat.toDigits 10 m
  exponent := none
  whole_digits := allDigits_zeros 1
  fraction_digits :=
    (allDigits_zeros zeros).append (allDigits_toDigits m)
  no_leading_zero := Or.inl rfl

/- A point after the digits, with zeros on both sides of it. -/
def Numeral.padded
    (m zeros places : Nat)
    (hZero : m = 0 → zeros = 0) : Numeral where
  whole := Nat.toDigits 10 m ++ List.replicate zeros '0'
  fraction := List.replicate places '0'
  exponent := none
  whole_digits :=
    (allDigits_toDigits m).append (allDigits_zeros zeros)
  fraction_digits := allDigits_zeros places
  no_leading_zero := by
    by_cases hm : m = 0
    · simp [hm, hZero hm, NoLeadingZero]
    · rcases toDigits_of_pos (Nat.pos_of_ne_zero hm)
        with ⟨c, rest, hDigits, hc⟩
      exact Or.inr
        ⟨c, rest ++ _, by rw [hDigits, List.cons_append], hc⟩

/- A point after the first `k + 1` digits. -/
def Numeral.split
    (m k : Nat)
    (exponent : Option Int)
    (hm : 0 < m) : Numeral where
  whole := (Nat.toDigits 10 m).take (k + 1)
  fraction := (Nat.toDigits 10 m).drop (k + 1)
  exponent := exponent
  whole_digits := (allDigits_toDigits m).take (k + 1)
  fraction_digits := (allDigits_toDigits m).drop (k + 1)
  no_leading_zero := by
    rcases toDigits_of_pos hm with ⟨c, rest, hDigits, hc⟩
    exact Or.inr
      ⟨c, rest.take k, by rw [hDigits, List.take_succ_cons], hc⟩

theorem Numeral.decimal_belowOne
    (m zeros : Nat) :
    (belowOne m zeros).decimal =
      ⟨m, -(zeros + (Nat.toDigits 10 m).length : Nat)⟩ := by
  have hDigits :
      Nat.ofDigitChars 10
          (List.replicate zeros '0' ++ Nat.toDigits 10 m) 0 =
        m := by
    rw [Nat.ofDigitChars_append,
      Nat.ofDigitChars_replicate_zero, Nat.mul_zero]
    exact Nat.ofDigitChars_ten_toDigits
  simp [decimal, belowOne, Nat.ofDigitChars_cons, hDigits]

theorem Numeral.decimal_padded
    (m zeros places : Nat)
    (hZero : m = 0 → zeros = 0) :
    (padded m zeros places hZero).decimal =
      ⟨m * 10 ^ (zeros + places), -(places : Int)⟩ := by
  simp [decimal, padded, Nat.ofDigitChars_append]
  ring

theorem Numeral.decimal_split
    {m k : Nat}
    (exponent : Option Int)
    (hm : 0 < m)
    (hk : k < (Nat.toDigits 10 m).length) :
    (split m k exponent hm).decimal =
      ⟨m, exponent.getD 0 + (k + 1)
        - (Nat.toDigits 10 m).length⟩ := by
  simp [decimal, split]
  omega

/- Digits in place that read back as a decimal. -/
structure Numeral.InPlace
    (n : Numeral)
    (d : Decimal)
    (fraction plus : Bool) : Prop where
  chars_eq :
    positional (Nat.toDigits 10 d.digits)
        (d.exponent + (Nat.toDigits 10 d.digits).length)
        fraction =
      n.chars plus
  magnitude_eq : n.decimal.magnitude = d.magnitude
  fraction_ne : fraction = true → n.fraction ≠ []
  exponent_eq : n.exponent = none

section Positional

variable {d : Decimal} (fraction plus : Bool)

theorem Numeral.belowOne_inPlace
    (hLow :
      d.exponent + (Nat.toDigits 10 d.digits).length ≤ 0) :
    (belowOne d.digits
      (-(d.exponent + (Nat.toDigits 10 d.digits).length)).toNat
      ).InPlace d fraction plus := by
  have hExponent (k : Nat) (hk : d.exponent + k ≤ 0) :
      -(((-(d.exponent + k)).toNat + k : Nat) : Int) =
        d.exponent := by
    omega
  refine ⟨?_, ?_, ?_, rfl⟩
  · rw [positional, if_pos hLow]
    simp [belowOne, chars, fractionChars, exponentChars]
  · rw [decimal_belowOne, hExponent _ hLow]
  · simp [belowOne]

theorem Numeral.padded_inPlace
    (hWhole : 0 ≤ d.exponent)
    (hZero : d.digits = 0 → d.exponent.toNat = 0) :
    (padded d.digits d.exponent.toNat (cond fraction 1 0)
      hZero).InPlace d fraction plus := by
  have hSome : 0 < (Nat.toDigits 10 d.digits).length :=
    Nat.length_toDigits_pos
  have hLength (k : Nat) :
      (d.exponent + k).toNat - k = d.exponent.toNat := by
    omega
  refine ⟨?_, ?_, ?_, rfl⟩
  · rw [positional, if_neg (by omega), if_pos (by omega),
      hLength]
    cases fraction <;>
      simp [padded, chars, fractionChars, exponentChars]
  · rw [decimal_padded,
      ← Decimal.magnitude_mul_pow d.digits
        (d.exponent.toNat + cond fraction 1 0) d.exponent]
    congr 2
    omega
  · rintro rfl
    simp [padded]

theorem Numeral.split_inPlace
    {k : Nat}
    (hDigits : 0 < d.digits)
    (hPoint :
      d.exponent + (Nat.toDigits 10 d.digits).length = k + 1)
    (hExponent : d.exponent < 0) :
    (split d.digits k none hDigits).InPlace d fraction plus := by
  have hRest : (split d.digits k none hDigits).fraction ≠ [] := by
    simp only [split, ne_eq, List.drop_eq_nil_iff]
    omega
  refine ⟨?_, ?_, fun _ => hRest, rfl⟩
  · rw [positional, if_neg (by omega), if_neg (by omega),
      chars, fractionChars, if_neg hRest, hPoint]
    simp [split, exponentChars]
  · have hValue :
        (none : Option Int).getD 0 + (k + 1)
          - (Nat.toDigits 10 d.digits).length = d.exponent := by
      simp only [Option.getD_none]
      omega
    rw [decimal_split none hDigits (by omega), hValue]

/- The digits start after, end before or lie around the point. -/
theorem positional_numeral
    (hZero : d.digits = 0 → d.exponent = 0) :
    ∃ n : Numeral, n.InPlace d fraction plus := by
  by_cases hLow :
      d.exponent + (Nat.toDigits 10 d.digits).length ≤ 0
  · exact ⟨_, Numeral.belowOne_inPlace fraction plus hLow⟩
  by_cases hWhole : 0 ≤ d.exponent
  · exact ⟨_, Numeral.padded_inPlace fraction plus hWhole
      (fun hDigits => by rw [hZero hDigits]; rfl)⟩
  · have hDigits : 0 < d.digits := by
      apply Nat.pos_of_ne_zero
      intro hNone
      exact hWhole (by rw [hZero hNone])
    rcases Int.eq_ofNat_of_zero_le
      (show 0 ≤ d.exponent
        + (Nat.toDigits 10 d.digits).length - 1 by omega)
      with ⟨k, hk⟩
    exact ⟨_, Numeral.split_inPlace fraction plus hDigits
      (show _ = (k : Int) + 1 by omega) (by omega)⟩

end Positional

theorem scientific_numeral
    {d : Decimal}
    (hDigits : 0 < d.digits)
    (plus : Bool) :
    ∃ n : Numeral,
      scientific (Nat.toDigits 10 d.digits)
          (d.exponent + (Nat.toDigits 10 d.digits).length - 1)
          plus =
        n.chars plus ∧
      n.decimal = d ∧
      n.exponent =
        some (d.exponent
          + (Nat.toDigits 10 d.digits).length - 1) := by
  refine ⟨Numeral.split d.digits 0 (some _) hDigits,
    ?_, ?_, rfl⟩
  · rcases toDigits_of_pos hDigits with ⟨c, rest, hChars, _⟩
    simp only [scientific, Numeral.chars,
      Numeral.fractionChars, Numeral.exponentChars,
      Numeral.exponentSign, Numeral.split, hChars]
    cases rest <;> simp
  · rw [Numeral.decimal_split _ hDigits
      Nat.length_toDigits_pos]
    congr 1
    simp only [Option.getD_some]
    omega

theorem FloatLayout.writeMagnitude_numeral
    (layout : FloatLayout)
    {x : Double}
    (hFinite : x.isFinite = true) :
    ∃ n : Numeral,
      layout.writeMagnitude x = n.chars layout.plus ∧
      n.decimal.magnitude = x.magnitudeBits ∧
      (layout.fraction = true → n.IsFloat) ∧
      ∀ e ∈ n.exponent, e.natAbs < 325 := by
  have hMagnitude :=
    Decimal.magnitude_shortest layout.tie hFinite
  have hZero :
      (Decimal.shortest layout.tie x).digits = 0 →
        (Decimal.shortest layout.tie x).exponent = 0 := by
    intro hDigits
    rw [Decimal.shortest_of_digits_eq_zero hFinite hDigits]
  have hPoint :
      (Decimal.shortest layout.tie x).digits ≠ 0 → _ :=
    Decimal.point_shortest hFinite
  unfold writeMagnitude
  dsimp only
  generalize Decimal.shortest layout.tie x = d at *
  split
  next hPlace =>
    rcases positional_numeral layout.fraction layout.plus hZero
      with ⟨n, hPlaced⟩
    refine ⟨n, ?_, hPlaced.magnitude_eq.trans hMagnitude,
      fun h => Or.inl (hPlaced.fraction_ne h),
      by simp [hPlaced.exponent_eq]⟩
    rw [← hPlaced.chars_eq, Int.sub_add_cancel]
  next hPlace =>
    have hDigits : d.digits ≠ 0 := by
      intro hDigits
      simp [hDigits] at hPlace
    rcases scientific_numeral (Nat.pos_of_ne_zero hDigits)
      layout.plus with ⟨n, hChars, hDecimal, hExponent⟩
    refine ⟨n, hChars, hDecimal ▸ hMagnitude,
      fun _ => Or.inr (by simp [hExponent]), ?_⟩
    rw [hExponent]
    rintro e ⟨⟩
    have hRange := hPoint hDigits
    unfold Decimal.digitCount at hRange
    omega

/- Every layout writes a numeral that reads back. -/
theorem FloatLayout.exists_numeral
    (layout : FloatLayout)
    {x : Double}
    (hFinite : x.isFinite = true) :
    ∃ n : Numeral,
      (layout.write x).toList =
        (if x.isNegative then ['-'] else [])
          ++ n.chars layout.plus ∧
      n.decimal.magnitude = x.magnitudeBits ∧
      (layout.fraction = true → n.IsFloat) ∧
      ∀ e ∈ n.exponent, e.natAbs < 325 := by
  rcases layout.writeMagnitude_numeral hFinite
    with ⟨n, hChars, hSpells⟩
  have hNaN : x.isNaN = false := by
    have hBound : x.magnitudeBits < Double.infinityBits :=
      of_decide_eq_true hFinite
    exact decide_eq_false (by omega)
  refine ⟨n, ?_, hSpells⟩
  unfold write
  rw [hNaN, hFinite, hChars]
  exact String.toList_ofList

end TemplateTree
