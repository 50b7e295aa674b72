import TemplateTree.Proofs.JsonNumbers
import TemplateTree.Proofs.NumberTokens

/-
  The values of the numbers that stand in a JSON text.

  Main declarations:
    * `Json.decimalOf`
    * `Json.IsFloat`
    * `Json.decimalOf_parts`
    * `Json.readsScale_of_readScale`
    * `Json.isRead_of_readFraction`
    * `Json.readNumber_cases`

  Where a number has its point and where its exponent starts
  can be told without reading it.  The reader takes a number
  apart at the same places, and takes no part of another word.
-/

------------------------------------------------------------
-- Values
------------------------------------------------------------

namespace TemplateTree

namespace Json

/- The letter that an exponent starts with. -/
def isLetter (b : UInt8) : Bool :=
  b == byte 'e' || b == byte 'E'

/- What a number has before its exponent. -/
def mantissa (used : List UInt8) : List UInt8 :=
  used.takeWhile fun b => !isLetter b

/- The exponent of a number with its letter, or nothing. -/
def scalePart (used : List UInt8) : List UInt8 :=
  used.dropWhile fun b => !isLetter b

/- The digits of a number after its point. -/
def fractionPart (used : List UInt8) : List UInt8 :=
  ((mantissa used).dropWhile isDigit).tail

/- The number that an exponent spells. -/
def scaleValue (part : List UInt8) : Int :=
  Expression.signed (isNegative part.tail)
    (digitsValue (part.filter isDigit))

/- The decimal that a number without its sign spells. -/
def decimalOf (used : List UInt8) : Decimal :=
  ⟨digitsValue ((mantissa used).filter isDigit),
    scaleValue (scalePart used) - (fractionPart used).length⟩

/-
  What a decimal with a given exponent is read as.  With an
  exponent below those that are computed with, it is zero.
-/
def IsFloat
    (negative : Bool)
    (d : Decimal)
    (exponent : Int)
    (n : Number) : Prop :=
  (-(maxExponent : Int) ≤ exponent ∧
      n = .float (d.toDouble negative)) ∨
    (exponent < -(maxExponent : Int) ∧
      n = .float (Double.ofMagnitude negative 0))

theorem foldl_digits_lt
    {bytes : List UInt8}
    (hBytes : ∀ b ∈ bytes, isDigit b = true)
    (value : Nat) :
    bytes.foldl (fun n b => 10 * n + (b.toNat - 48)) value <
      Nat.pow 10 bytes.length * (value + 1) := by
  induction bytes generalizing value with
  | nil => simp
  | cons b bytes ih =>
      rcases List.forall_mem_cons.mp hBytes with ⟨hb, hTail⟩
      have hDigit : b.toNat - 48 ≤ 9 := by
        simp only [isDigit, Bool.and_eq_true, decide_eq_true_eq,
          UInt8.le_iff_toNat_le] at hb
        have hHigh : b.toNat ≤ 57 := hb.2
        omega
      calc
        bytes.foldl (fun n b => 10 * n + (b.toNat - 48))
            (10 * value + (b.toNat - 48))
          < Nat.pow 10 bytes.length
              * (10 * value + (b.toNat - 48) + 1) := ih hTail _
        _ ≤ Nat.pow 10 bytes.length * (10 * (value + 1)) :=
            Nat.mul_le_mul_left _ (by omega)
        _ = Nat.pow 10 (b :: bytes).length * (value + 1) :=
            (Nat.mul_assoc _ _ _).symm

/- A number has no more digits than were written. -/
theorem digitCount_digitsValue_le
    {bytes : List UInt8}
    (hBytes : ∀ b ∈ bytes, isDigit b = true) :
    Decimal.digitCount (digitsValue bytes) ≤ bytes.length + 1 := by
  have hValue : digitsValue bytes < Nat.pow 10 bytes.length := by
    have hLess := foldl_digits_lt hBytes 0
    rwa [Nat.zero_add, Nat.mul_one] at hLess
  have hPow :
      Nat.pow 10 bytes.length ≤ Nat.pow 10 (bytes.length + 1) :=
    Nat.pow_le_pow_right (by decide) (Nat.le_succ _)
  unfold Decimal.digitCount
  rw [Nat.length_toDigits_le_iff (by decide) (Nat.succ_pos _)]
  exact Nat.lt_of_lt_of_le hValue hPow

/-
  A number with a very small exponent is zero, unless it is
  about as long as its exponent is small.
-/
theorem magnitude_decimalOf_eq_zero
    {used : List UInt8}
    (hExponent :
      scaleValue (scalePart used) + used.length < -324) :
    (decimalOf used).magnitude = 0 := by
  have hDigits :
      ∀ b ∈ (mantissa used).filter isDigit,
        isDigit b = true :=
    fun b hb => (List.mem_filter.mp hb).2
  have hCount := digitCount_digitsValue_le hDigits
  have hLength :
      ((mantissa used).filter isDigit).length ≤ used.length :=
    Nat.le_trans (List.length_filter_le _ _)
      (List.takeWhile_sublist _).length_le
  have hPoint :
      (decimalOf used).exponent
          + Decimal.digitCount (decimalOf used).digits ≤
        -324 := by
    simp only [decimalOf]
    omega
  have hLow :
      ¬ 310 ≤
        (decimalOf used).exponent
          + Decimal.digitCount (decimalOf used).digits := by
    omega
  simp only [Decimal.magnitude, if_neg hLow, if_pos hPoint,
    ite_self]

------------------------------------------------------------
-- Parts
------------------------------------------------------------

/- A run of digits. -/
def IsRun (bytes : List UInt8) : Prop :=
  ∀ b ∈ bytes, isDigit b = true

theorem IsRun.head?_any
    {run : List UInt8}
    (hRun : IsRun run)
    (hSome : run ≠ [])
    (rest : List UInt8) :
    (run ++ rest).head?.any isDigit = true := by
  cases run with
  | nil => exact absurd rfl hSome
  | cons b run => exact hRun b List.mem_cons_self

/- Nothing, or a point and digits. -/
inductive IsFraction : List UInt8 → Prop
| none : IsFraction []
| some
    {digits : List UInt8}
    (hDigits : IsRun digits) :
    IsFraction (byte '.' :: digits)

/- Nothing, or a letter, perhaps a sign, and digits. -/
inductive IsScale : List UInt8 → Prop
| none : IsScale []
| unsigned
    {e : UInt8}
    {digits : List UInt8}
    (hLetter : isLetter e = true)
    (hDigits : IsRun digits) :
    IsScale (e :: digits)
| signed
    {e s : UInt8}
    {digits : List UInt8}
    (hLetter : isLetter e = true)
    (hSign : s = byte '-' ∨ s = byte '+')
    (hDigits : IsRun digits) :
    IsScale (e :: s :: digits)

/- A byte of a number that is no letter. -/
def IsInner (b : UInt8) : Prop :=
  isPlain b = true ∧ isLetter b = false

theorem isInner_of_isDigit
    {b : UInt8}
    (hb : isDigit b = true) :
    IsInner b := by
  refine ⟨isPlain_of_isDigit hb, ?_⟩
  rw [← Bool.not_eq_true]
  intro hLetter
  simp only [isLetter, Bool.or_eq_true, beq_iff_eq] at hLetter
  rcases hLetter with rfl | rfl
  all_goals
    revert hb
    decide

theorem isPlain_of_isLetter
    {b : UInt8}
    (hb : isLetter b = true) :
    isPlain b = true ∧ isDigit b = false := by
  simp only [isLetter, Bool.or_eq_true, beq_iff_eq] at hb
  rcases hb with rfl | rfl <;> exact ⟨by decide, by decide⟩

theorem isPlain_of_isSign
    {b : UInt8}
    (hb : b = byte '-' ∨ b = byte '+') :
    isPlain b = true ∧ isDigit b = false := by
  rcases hb with rfl | rfl <;> exact ⟨by decide, by decide⟩

theorem IsFraction.isInner
    {part : List UInt8}
    (h : IsFraction part) :
    ∀ b ∈ part, IsInner b := by
  cases h with
  | none => simp
  | some hDigits =>
      refine
        List.forall_mem_cons.mpr ⟨⟨by decide, by decide⟩, ?_⟩
      exact fun b hb => isInner_of_isDigit (hDigits b hb)

theorem IsScale.isPlain
    {part : List UInt8}
    (h : IsScale part) :
    ∀ b ∈ part, isPlain b = true := by
  cases h with
  | none => simp
  | unsigned hLetter hDigits =>
      refine
        List.forall_mem_cons.mpr
          ⟨(isPlain_of_isLetter hLetter).1, ?_⟩
      exact fun b hb => isPlain_of_isDigit (hDigits b hb)
  | signed hLetter hSign hDigits =>
      refine
        List.forall_mem_cons.mpr
          ⟨(isPlain_of_isLetter hLetter).1,
            List.forall_mem_cons.mpr
              ⟨(isPlain_of_isSign hSign).1, ?_⟩⟩
      exact fun b hb => isPlain_of_isDigit (hDigits b hb)

theorem IsFraction.head?_not_isDigit
    {part : List UInt8}
    (h : IsFraction part) :
    ∀ b ∈ part.head?, isDigit b = false := by
  cases h with
  | none => simp
  | some _ =>
      intro b hb
      cases hb
      decide

theorem IsScale.head?_isLetter
    {part : List UInt8}
    (h : IsScale part) :
    ∀ b ∈ part.head?, isLetter b = true := by
  cases h with
  | none => simp
  | unsigned hLetter _ =>
      intro b hb
      cases hb
      exact hLetter
  | signed hLetter _ _ =>
      intro b hb
      cases hb
      exact hLetter

theorem scaleValue_unsigned
    {e : UInt8}
    {digits : List UInt8}
    (hLetter : isLetter e = true)
    (hDigits : IsRun digits) :
    scaleValue (e :: digits) = digitsValue digits := by
  have hSign : isNegative digits = false := by
    cases digits with
    | nil => rfl
    | cons b digits =>
        have hb := hDigits b List.mem_cons_self
        have hMinus : b ≠ byte '-' := by
          rintro rfl
          revert hb
          decide
        simp [isNegative, hMinus]
  have hFilter : (e :: digits).filter isDigit = digits := by
    rw [List.filter_cons_of_neg
      (by simp [(isPlain_of_isLetter hLetter).2])]
    exact List.filter_eq_self.mpr hDigits
  rw [scaleValue, hFilter, List.tail_cons, hSign]
  rfl

theorem scaleValue_signed
    {e s : UInt8}
    {digits : List UInt8}
    (hLetter : isLetter e = true)
    (hSign : s = byte '-' ∨ s = byte '+')
    (hDigits : IsRun digits) :
    scaleValue (e :: s :: digits) =
      Expression.signed (s == byte '-') (digitsValue digits) := by
  have hFilter : (e :: s :: digits).filter isDigit = digits := by
    rw [List.filter_cons_of_neg
        (by simp [(isPlain_of_isLetter hLetter).2]),
      List.filter_cons_of_neg
        (by simp [(isPlain_of_isSign hSign).2])]
    exact List.filter_eq_self.mpr hDigits
  rw [scaleValue, hFilter]
  rfl

/- A number is taken apart where its parts were joined. -/
theorem decimalOf_parts
    {whole fraction scale : List UInt8}
    (hWhole : IsRun whole)
    (hFraction : IsFraction fraction)
    (hScale : IsScale scale) :
    scalePart (whole ++ fraction ++ scale) = scale ∧
      decimalOf (whole ++ fraction ++ scale) =
        ⟨digitsValue ((whole ++ fraction).filter isDigit),
          scaleValue scale - fraction.tail.length⟩ := by
  have hInner :
      ∀ b ∈ whole ++ fraction, (!isLetter b) = true := by
    refine List.forall_mem_append.mpr ⟨?_, ?_⟩
    · intro b hb
      rw [(isInner_of_isDigit (hWhole b hb)).2]
      rfl
    · intro b hb
      rw [(hFraction.isInner b hb).2]
      rfl
  have hLetter : ∀ b ∈ scale.head?, (!isLetter b) = false := by
    intro b hb
    rw [hScale.head?_isLetter b hb]
    rfl
  have hScalePart :
      scalePart (whole ++ fraction ++ scale) = scale :=
    dropWhile_append_of_head? hInner hLetter
  have hMantissa :
      mantissa (whole ++ fraction ++ scale) =
        whole ++ fraction :=
    takeWhile_append_of_head? hInner hLetter
  have hTail :
      fractionPart (whole ++ fraction ++ scale) =
        fraction.tail := by
    rw [fractionPart, hMantissa,
      dropWhile_append_of_head? hWhole
        hFraction.head?_not_isDigit]
  refine ⟨hScalePart, ?_⟩
  rw [decimalOf, hScalePart, hMantissa, hTail]

example :
    decimalOf (Utf8.encode "12.50e-3") = ⟨1250, -5⟩ := by
  decide

/- A whole number is worth its digits. -/
theorem decimalOf_of_all
    {used : List UInt8}
    (hAll : used.all isDigit = true) :
    decimalOf used = ⟨digitsValue used, 0⟩ := by
  have hDigits : IsRun used := List.all_eq_true.mp hAll
  have hParts := (decimalOf_parts hDigits .none .none).2
  rw [List.append_nil, List.append_nil,
    List.filter_eq_self.mpr hDigits] at hParts
  exact hParts

------------------------------------------------------------
-- Reading
------------------------------------------------------------

/- A float that is read is finite, and nothing else is taken. -/
theorem finishFloat_eq_ok_iff
    {negative : Bool}
    {d : Decimal}
    {bytes rest : List UInt8}
    {n : Number} :
    finishFloat negative d bytes = .ok (n, rest) ↔
      (d.toDouble negative).isFinite = true ∧
        n = .float (d.toDouble negative) ∧ rest = bytes := by
  unfold finishFloat
  cases hFinite : (d.toDouble negative).isFinite with
  | true => simp [hFinite, eq_comm]
  | false => simp [hFinite]

/- Zero is zero, whatever its exponent. -/
theorem toDouble_zero
    (negative : Bool)
    (exponent : Int) :
    (⟨0, exponent⟩ : Decimal).toDouble negative =
      Double.ofMagnitude negative 0 := by
  rw [Decimal.toDouble, Decimal.magnitude, if_pos rfl]

theorem isRun_takeWhile
    (bytes : List UInt8) :
    IsRun (bytes.takeWhile isDigit) :=
  List.all_eq_true.mp List.all_takeWhile

/- An exponent is taken whole, and its number is a float. -/
theorem readExponent_cases
    {negative minus : Bool}
    {digits scale : Nat}
    {bytes rest : List UInt8}
    {n : Number}
    (h :
      readExponent negative digits scale minus bytes =
        .ok (n, rest)) :
    ∃ run exponent,
      bytes = run ++ rest ∧ IsRun run ∧
        Expression.signed minus (digitsValue run) = exponent ∧
          IsFloat negative ⟨digits, exponent - scale⟩ exponent
            n := by
  have hBytes := (List.takeWhile_append_dropWhile
    (p := isDigit) (l := bytes)).symm
  have hRun := isRun_takeWhile bytes
  have hLimit := exponentOverflow?_eq_none_iff bytes
  unfold readExponent at h
  split at h
  · cases h
  · split at h
    · cases h
    · split at h
      · next hOverflow =>
          rw [hOverflow] at hLimit
          have hPast := Nat.not_le.mp (mt hLimit.mpr (by simp))
          split at h
          · cases h
          · next hSmall =>
              rcases finishFloat_eq_ok_iff.mp h with
                ⟨-, rfl, rfl⟩
              refine ⟨_, _, hBytes, hRun, rfl, ?_⟩
              cases minus with
              | true =>
                  refine .inr ⟨?_, by rw [toDouble_zero]⟩
                  rw [Expression.signed, if_pos rfl]
                  omega
              | false =>
                  have hZero : digits = 0 := by
                    simpa using hSmall
                  subst hZero
                  refine
                    .inl ⟨?_, by rw [toDouble_zero, toDouble_zero]⟩
                  rw [Expression.signed,
                    if_neg Bool.false_ne_true]
                  omega
      · next hNone =>
          have hBelow := hLimit.mp hNone
          rcases finishFloat_eq_ok_iff.mp h with ⟨-, rfl, rfl⟩
          refine ⟨_, _, hBytes, hRun, rfl, .inl ⟨?_, rfl⟩⟩
          unfold Expression.signed
          split <;> omega

/- Bytes that start with an exponent, or with none. -/
def ReadsScale
    (negative : Bool)
    (digits scale : Nat)
    (bytes rest : List UInt8)
    (n : Number) : Prop :=
  ∃ part,
    bytes = part ++ rest ∧ IsScale part ∧
      (bytes.head?.any isLetter = true → part ≠ []) ∧
        IsFloat negative ⟨digits, scaleValue part - scale⟩
          (scaleValue part) n

section ReadsScale

variable {negative : Bool}
variable {digits scale : Nat}
variable {e s : UInt8}
variable {bytes rest : List UInt8}
variable {n : Number}

theorem readsScale_unsigned
    (hLetter : isLetter e = true)
    (h :
      readExponent negative digits scale false bytes =
        .ok (n, rest)) :
    ReadsScale negative digits scale (e :: bytes) rest n := by
  rcases readExponent_cases h with
    ⟨run, exponent, rfl, hRun, rfl, hFloat⟩
  refine
    ⟨e :: run, rfl, .unsigned hLetter hRun, by simp, ?_⟩
  rw [scaleValue_unsigned hLetter hRun]
  exact hFloat

theorem readsScale_signed
    (hLetter : isLetter e = true)
    (hSign : s = byte '-' ∨ s = byte '+')
    (h :
      readExponent negative digits scale (s == byte '-') bytes =
        .ok (n, rest)) :
    ReadsScale negative digits scale (e :: s :: bytes) rest n := by
  rcases readExponent_cases h with
    ⟨run, exponent, rfl, hRun, rfl, hFloat⟩
  refine
    ⟨e :: s :: run, rfl, .signed hLetter hSign hRun, by simp, ?_⟩
  rw [scaleValue_signed hLetter hSign hRun]
  exact hFloat

theorem readsScale_nothing
    (hHead : bytes.head?.any isLetter = false)
    (h :
      finishFloat negative ⟨digits, -(scale : Int)⟩ bytes =
        .ok (n, rest)) :
    ReadsScale negative digits scale bytes rest n := by
  rcases finishFloat_eq_ok_iff.mp h with ⟨-, rfl, rfl⟩
  have hNone : scaleValue [] = 0 := by decide
  refine ⟨[], rfl, .none, by simp [hHead], .inl ⟨by decide, ?_⟩⟩
  rw [hNone, Int.zero_sub]

theorem isLetter_iff :
    isLetter e = true ↔ e = byte 'e' ∨ e = byte 'E' := by
  rw [isLetter, Bool.or_eq_true, beq_iff_eq, beq_iff_eq]

theorem readsScale_of_readScale
    (h : readScale negative digits scale bytes = .ok (n, rest)) :
    ReadsScale negative digits scale bytes rest n := by
  cases bytes with
  | nil => exact readsScale_nothing rfl h
  | cons e bytes =>
      by_cases hLetter : e = byte 'e' ∨ e = byte 'E'
      · have hMark := isLetter_iff.mpr hLetter
        simp only [readScale, if_pos hLetter] at h
        split at h
        · exact readsScale_unsigned hMark h
        · split at h
          · next hMinus =>
              subst hMinus
              exact readsScale_signed hMark (.inl rfl) h
          · split at h
            · next hPlus =>
                subst hPlus
                exact readsScale_signed hMark (.inr rfl) h
            · exact readsScale_unsigned hMark h
      · have hMark := mt isLetter_iff.mp hLetter
        rw [Bool.not_eq_true] at hMark
        simp only [readScale, if_neg hLetter] at h
        exact readsScale_nothing hMark h

end ReadsScale

theorem finishInteger_rest
    {negative : Bool}
    {digits bytes rest : List UInt8}
    {n : Number}
    (h : finishInteger negative digits bytes = .ok (n, rest)) :
    rest = bytes := by
  unfold finishInteger at h
  dsimp only at h
  split at h
  · split at h
    · cases h
      rfl
    · exact (finishFloat_eq_ok_iff.mp h).2.2
  · split at h
    · cases h
      rfl
    · exact (finishFloat_eq_ok_iff.mp h).2.2

/- What a number is made of, and how it is read. -/
def IsRead
    (negative : Bool)
    (used rest : List UInt8)
    (n : Number) : Prop :=
  used.head?.any isDigit = true ∧
    (∀ b ∈ used, isPlain b = true) ∧
      (used.all isDigit = true ∧
          finishInteger negative used rest = .ok (n, rest) ∨
        used.all isDigit = false ∧
          IsFloat negative (decimalOf used)
            (scaleValue (scalePart used)) n)

section IsRead

variable {negative : Bool}
variable {whole fraction bytes rest : List UInt8}
variable {n : Number}
variable (hSome : whole ≠ []) (hWhole : IsRun whole)

include hSome hWhole

theorem isRead_of_finishInteger
    (h : finishInteger negative whole bytes = .ok (n, rest)) :
    ∃ used,
      whole ++ bytes = used ++ rest ∧
        IsRead negative used rest n := by
  have hRest := finishInteger_rest h
  subst hRest
  refine ⟨whole, rfl, ?_, ?_, .inl ⟨?_, h⟩⟩
  · rw [← List.append_nil whole]
    exact hWhole.head?_any hSome []
  · exact fun b hb => isPlain_of_isDigit (hWhole b hb)
  · exact List.all_eq_true.mpr hWhole

/- A number is worth what its parts are worth. -/
theorem isRead_of_readsScale
    (hFraction : IsFraction fraction)
    (h :
      ReadsScale negative
        (digitsValue ((whole ++ fraction).filter isDigit))
        fraction.tail.length bytes rest n)
    (hPart : fraction ≠ [] ∨ bytes.head?.any isLetter = true) :
    ∃ used,
      whole ++ fraction ++ bytes = used ++ rest ∧
        IsRead negative used rest n := by
  rcases h with ⟨scale, rfl, hScale, hTaken, hFloat⟩
  rcases decimalOf_parts hWhole hFraction hScale with
    ⟨hExponent, hDecimal⟩
  refine
    ⟨whole ++ fraction ++ scale, by simp, ?_, ?_, .inr ⟨?_, ?_⟩⟩
  · rw [List.append_assoc]
    exact hWhole.head?_any hSome _
  · refine List.forall_mem_append.mpr ⟨?_, hScale.isPlain⟩
    refine List.forall_mem_append.mpr ⟨?_, ?_⟩
    · exact fun b hb => isPlain_of_isDigit (hWhole b hb)
    · exact fun b hb => (hFraction.isInner b hb).1
  -- The point or the letter is no digit.
  · rw [← Bool.not_eq_true, List.all_eq_true]
    intro hAll
    rcases hPart with hPoint | hLetter
    · cases hFraction with
      | none => exact hPoint rfl
      | some _ =>
          have hPoint := hAll (byte '.') (by simp)
          revert hPoint
          decide
    · cases scale with
      | nil => exact hTaken hLetter rfl
      | cons e scale =>
          have hDigit := hAll e (by simp)
          have hMark := hScale.head?_isLetter e rfl
          rw [(isPlain_of_isLetter hMark).2] at hDigit
          cases hDigit
  · rw [hExponent, hDecimal]
    exact hFloat

theorem isRead_of_readFraction
    (h : readFraction negative whole bytes = .ok (n, rest)) :
    ∃ used,
      whole ++ bytes = used ++ rest ∧
        IsRead negative used rest n := by
  unfold readFraction at h
  split at h
  · exact isRead_of_finishInteger hSome hWhole h
  · next b after =>
      split at h
      · next hDot =>
          subst hDot
          dsimp only at h
          split at h
          · split at h <;> cases h
          · have hDigits := isRun_takeWhile after
            have hFilter :
                (whole ++ byte '.' ::
                    after.takeWhile isDigit).filter isDigit =
                  whole ++ after.takeWhile isDigit := by
              rw [List.filter_append,
                List.filter_cons_of_neg (by decide),
                List.filter_eq_self.mpr hWhole,
                List.filter_eq_self.mpr hDigits]
            have hScale := readsScale_of_readScale h
            rw [← hFilter] at hScale
            rcases isRead_of_readsScale hSome hWhole
                (.some hDigits) hScale (.inl (by simp)) with
              ⟨used, hUsed, hRead⟩
            rw [List.append_assoc, List.cons_append,
              List.takeWhile_append_dropWhile] at hUsed
            exact ⟨used, hUsed, hRead⟩
      · split at h
        · next hLetter =>
            have hFilter :
                (whole ++ []).filter isDigit = whole := by
              rw [List.append_nil]
              exact List.filter_eq_self.mpr hWhole
            have hScale := readsScale_of_readScale h
            rw [← hFilter] at hScale
            rcases isRead_of_readsScale hSome hWhole .none hScale
                (.inr (isLetter_iff.mpr hLetter)) with
              ⟨used, hUsed, hRead⟩
            rw [List.append_nil] at hUsed
            exact ⟨used, hUsed, hRead⟩
        · exact isRead_of_finishInteger hSome hWhole h

end IsRead

/- A number starts with a digit and ends with its word. -/
theorem readNumber_cases
    {negative : Bool}
    {bytes rest : List UInt8}
    {n : Number}
    (h : readNumber negative bytes = .ok (n, rest)) :
    ∃ used,
      bytes = used ++ rest ∧ IsRead negative used rest n := by
  unfold readNumber at h
  split at h
  · cases h
  · next b after =>
      split at h
      · next hZero =>
          have hRun : IsRun [b] := by
            subst hZero
            exact List.forall_mem_singleton.mpr (by decide)
          split at h
          · exact isRead_of_readFraction (by simp) hRun h
          · split at h
            · cases h
            · exact isRead_of_readFraction (by simp) hRun h
      · split at h
        · next hDigit =>
            have hRun : IsRun (b :: after.takeWhile isDigit) :=
              List.forall_mem_cons.mpr
                ⟨hDigit, isRun_takeWhile after⟩
            rcases isRead_of_readFraction (by simp) hRun h with
              ⟨used, hUsed, hRead⟩
            rw [List.cons_append,
              List.takeWhile_append_dropWhile] at hUsed
            exact ⟨used, hUsed, hRead⟩
        · cases h

end Json

end TemplateTree
