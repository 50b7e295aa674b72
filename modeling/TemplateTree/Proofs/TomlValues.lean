import TemplateTree.EngineFile
import TemplateTree.Proofs.LiteralSources
import TemplateTree.Proofs.TomlStrings

/-
  Reading the options that a TOML document is written with.

  Main declarations:
    * `Toml.readWhole_append`
    * `Toml.readFloat_numeral`
    * `Toml.readScalar_float`
    * `Toml.readScalar_integer`
    * `OptionValue.nesting`
    * `Toml.readsUpTo_of_hasNaN`

  A number is tried as a date, a float and an integer, in this
  order, so what is written for one kind must be no other.
  Lists are read as deep as there is room, and no deeper.
-/

------------------------------------------------------------
-- Digits
------------------------------------------------------------

namespace TemplateTree

namespace Toml

/- Text that does not go on with more digits. -/
def EndsDigits (rest : List Char) : Prop :=
  ∀ c ∈ rest.head?, c.isDigit = false ∧ c ≠ '_'

theorem readMoreDigits_append
    {digits rest : List Char}
    (hDigits : AllDigits digits)
    (hRest : EndsDigits rest) :
    readMoreDigits Char.isDigit (digits ++ rest) =
      (digits, rest) := by
  induction digits with
  | nil =>
      cases rest with
      | nil => rfl
      | cons c rest =>
          obtain ⟨hc, hUnderscore⟩ := hRest c rfl
          simp [readMoreDigits, hc, hUnderscore]
  | cons c digits ih =>
      obtain ⟨hc, hTail⟩ := allDigits_cons_iff.mp hDigits
      rw [List.cons_append, readMoreDigits, if_pos hc, ih hTail]

theorem readDigits_append
    {digits rest : List Char}
    (hSome : digits ≠ [])
    (hDigits : AllDigits digits)
    (hRest : EndsDigits rest) :
    readDigits Char.isDigit (digits ++ rest) =
      (digits, rest) := by
  have hHead :
      ((digits ++ rest).head?.any Char.isDigit) = true := by
    obtain ⟨c, digits, rfl⟩ := List.exists_cons_of_ne_nil hSome
    exact hDigits c List.mem_cons_self
  rw [readDigits, if_pos hHead, readMoreDigits_append hDigits hRest]

theorem hexValue?_of_isDigit
    {c : Char}
    (hc : c.isDigit = true) :
    Text.hexValue? c = some (c.toNat - 48) := by
  have hRange : '0' ≤ c ∧ c ≤ '9' := by
    simpa [Char.isDigit, Char.le_def] using hc
  rw [Text.hexValue?, if_pos hRange]

theorem digitsValue_eq_ofDigitChars
    {digits : List Char}
    (hDigits : AllDigits digits) :
    digitsValue 10 digits = Nat.ofDigitChars 10 digits 0 := by
  have hFold (n : Nat) :
      digits.foldl
          (fun n c => 10 * n + (Text.hexValue? c).getD 0) n =
        Nat.ofDigitChars 10 digits n := by
    induction digits generalizing n with
    | nil => rfl
    | cons c digits ih =>
        obtain ⟨hc, hTail⟩ := allDigits_cons_iff.mp hDigits
        rw [List.foldl_cons, hexValue?_of_isDigit hc, ih hTail,
          Nat.ofDigitChars_cons]
        rfl
  exact hFold 0

theorem readWhole_append
    {digits rest : List Char}
    (hDigits : AllDigits digits)
    (hZero : NoLeadingZero digits)
    (hRest : EndsDigits rest) :
    readWhole (digits ++ rest) = some (digits, rest) := by
  rcases hZero with rfl | ⟨c, tail, rfl, hc⟩
  · rfl
  · have hRead := readDigits_append (by simp) hDigits hRest
    rw [List.cons_append] at hRead ⊢
    rw [readWhole, if_neg hc, hRead]
    rfl

theorem readWhole_of_not_digit
    {c : Char}
    (hc : c.isDigit = false)
    (cs : List Char) :
    readWhole (c :: cs) = none := by
  have hZero : c ≠ '0' := by
    rintro rfl
    simp at hc
  rw [readWhole, if_neg hZero]
  simp [readDigits, hc]

------------------------------------------------------------
-- Numbers
------------------------------------------------------------

/- Text that does not start with a sign. -/
def NoSign (cs : List Char) : Prop :=
  ∀ c ∈ cs.head?, c ≠ '-' ∧ c ≠ '+'

theorem readSign_append
    (negative : Bool)
    {cs : List Char}
    (hSign : NoSign cs) :
    readSign (Expression.signChars negative ++ cs) =
      (negative, cs) := by
  cases negative with
  | true => rfl
  | false =>
      unfold Expression.signChars readSign
      split
      · simp_all [NoSign]
      · simp_all [NoSign]
      · simp

theorem noSign_of_digit
    {c : Char}
    (hc : c.isDigit = true)
    (cs : List Char) :
    NoSign (c :: cs) := by
  rintro x ⟨⟩
  constructor <;> (rintro rfl; simp at hc)

theorem noSign_numeral
    (n : Numeral)
    (rest : List Char) :
    NoSign (n.chars false ++ rest) := by
  obtain ⟨c, cs, hChars, hc⟩ := n.exists_cons false
  rw [hChars]
  exact noSign_of_digit hc _

/- Text that may follow a value. -/
def EndsValue (rest : List Char) : Prop :=
  ∀ c ∈ rest.head?, c = ',' ∨ c = ']' ∨ c = '\n'

theorem EndsValue.of_forall
    {rest : List Char}
    {p : Char → Prop}
    (hRest : EndsValue rest)
    (hComma : p ',')
    (hBracket : p ']')
    (hNewline : p '\n') :
    ∀ c ∈ rest.head?, p c := by
  intro c hc
  rcases hRest c hc with rfl | rfl | rfl <;> assumption

theorem EndsValue.endsDigits
    {rest : List Char}
    (hRest : EndsValue rest) :
    EndsDigits rest :=
  hRest.of_forall (by decide) (by decide) (by decide)

theorem EndsValue.noQuote
    {rest : List Char}
    (hRest : EndsValue rest) :
    NoQuote rest := by
  have hHead : ∀ c ∈ rest.head?, c ≠ '"' ∧ c ≠ '\'' :=
    hRest.of_forall (by decide) (by decide) (by decide)
  exact ⟨fun h => (hHead _ h).1 rfl, fun h => (hHead _ h).2 rfl⟩

theorem readFraction_eq_none
    {rest : List Char}
    (hRest : rest.head? ≠ some '.') :
    readFraction rest = none := by
  unfold readFraction
  split
  · simp at hRest
  · rfl

theorem readFraction_append
    {fraction rest : List Char}
    (hSome : fraction ≠ [])
    (hDigits : AllDigits fraction)
    (hRest : EndsDigits rest) :
    readFraction ('.' :: fraction ++ rest) =
      some (fraction, rest) := by
  rw [List.cons_append, readFraction,
    readDigits_append hSome hDigits hRest]
  simp [hSome]

theorem readExponent_eq_none
    {rest : List Char}
    (hRest : ∀ c ∈ rest.head?, c ≠ 'e' ∧ c ≠ 'E') :
    readExponent rest = none := by
  cases rest with
  | nil => rfl
  | cons c rest =>
      obtain ⟨hLower, hUpper⟩ := hRest c rfl
      simp [readExponent, hLower, hUpper]

theorem readExponent_append
    (e : Int)
    {rest : List Char}
    (hRest : EndsDigits rest) :
    readExponent
        ('e' :: Numeral.exponentSign false e
          ++ Nat.toDigits 10 e.natAbs ++ rest) =
      some (e, rest) := by
  have hSign :
      Numeral.exponentSign false e =
        Expression.signChars (decide (e < 0)) := by
    simp [Numeral.exponentSign, Expression.signChars]
  have hDigits := allDigits_toDigits e.natAbs
  have hNoSign : NoSign (Nat.toDigits 10 e.natAbs ++ rest) := by
    obtain ⟨c, digits, hShape⟩ :=
      List.exists_cons_of_ne_nil
        (Nat.toDigits_ne_nil (b := 10) (n := e.natAbs))
    rw [hShape] at hDigits ⊢
    exact noSign_of_digit (hDigits c List.mem_cons_self) _
  rw [hSign, List.cons_append, List.cons_append,
    List.append_assoc, readExponent, if_pos (.inl rfl),
    readSign_append _ hNoSign]
  dsimp only
  rw [readDigits_append Nat.toDigits_ne_nil hDigits hRest]
  dsimp only
  rw [if_neg (by simp), digitsValue_eq_ofDigitChars hDigits,
    Nat.ofDigitChars_ten_toDigits, Expression.signed_natAbs]

/- The exponent of a numeral, whether it has one or not. -/
theorem readExponent_exponentChars
    (n : Numeral)
    {rest : List Char}
    (hRest : EndsValue rest) :
    readExponent (n.exponentChars false ++ rest) =
      n.exponent.map fun e => (e, rest) := by
  unfold Numeral.exponentChars
  split
  · next hNone =>
      rw [hNone]
      exact readExponent_eq_none
        (hRest.of_forall (by decide) (by decide) (by decide))
  · next e hSome =>
      rw [hSome]
      exact readExponent_append e hRest.endsDigits

theorem forall_head?_exponentChars
    {p : Char → Prop}
    (n : Numeral)
    (hLetter : p 'e')
    {rest : List Char}
    (hRest : ∀ c ∈ rest.head?, p c) :
    ∀ c ∈ (n.exponentChars false ++ rest).head?, p c := by
  unfold Numeral.exponentChars
  split
  · exact hRest
  · rintro c ⟨⟩
    exact hLetter

theorem forall_head?_fractionChars
    {p : Char → Prop}
    (n : Numeral)
    (hPoint : p '.')
    {rest : List Char}
    (hRest : ∀ c ∈ rest.head?, p c) :
    ∀ c ∈ (n.fractionChars ++ rest).head?, p c := by
  unfold Numeral.fractionChars
  split
  · exact hRest
  · rintro c ⟨⟩
    exact hPoint

theorem endsDigits_exponentChars
    (n : Numeral)
    {rest : List Char}
    (hRest : EndsValue rest) :
    EndsDigits (n.exponentChars false ++ rest) :=
  forall_head?_exponentChars n (by decide) hRest.endsDigits

theorem endsDigits_fractionChars
    (n : Numeral)
    {rest : List Char}
    (hRest : EndsValue rest) :
    EndsDigits
      (n.fractionChars ++ (n.exponentChars false ++ rest)) :=
  forall_head?_fractionChars n (by decide)
    (endsDigits_exponentChars n hRest)

theorem readWhole_numeral
    (n : Numeral)
    {rest : List Char}
    (hRest : EndsValue rest) :
    readWhole (n.chars false ++ rest) =
      some (n.whole,
        n.fractionChars ++ (n.exponentChars false ++ rest)) := by
  rw [Numeral.chars, List.append_assoc, List.append_assoc]
  exact readWhole_append n.whole_digits n.no_leading_zero
    (endsDigits_fractionChars n hRest)

/- A numeral with a fraction or an exponent is a float. -/
theorem readFloat_numeral
    (negative : Bool)
    {n : Numeral}
    (hFloat : n.IsFloat)
    {rest : List Char}
    (hRest : EndsValue rest) :
    readFloat
        (Expression.signChars negative
          ++ (n.chars false ++ rest)) =
      float? negative n.decimal rest := by
  have hExponent := readExponent_exponentChars n hRest
  have hDigits := n.whole_digits.append n.fraction_digits
  rw [readFloat, readSign_append _ (noSign_numeral n rest)]
  dsimp only
  rw [readWhole_numeral n hRest]
  dsimp only
  rw [Numeral.decimal, ← digitsValue_eq_ofDigitChars hDigits]
  by_cases hFraction : n.fraction = []
  · obtain ⟨e, he⟩ :=
      Option.ne_none_iff_exists'.mp
        (hFloat.resolve_left fun h => h hFraction)
    have hNone :
        readFraction (n.exponentChars false ++ rest) = none := by
      apply readFraction_eq_none
      simp [Numeral.exponentChars, he]
    rw [Numeral.fractionChars, if_pos hFraction, List.nil_append,
      hNone]
    dsimp only
    rw [hExponent, he, hFraction]
    simp
  · rw [Numeral.fractionChars, if_neg hFraction,
      readFraction_append hFraction n.fraction_digits
        (endsDigits_exponentChars n hRest)]
    dsimp only
    rw [hExponent]
    cases hShape : n.exponent with
    | none =>
        rw [Numeral.exponentChars, hShape]
        rfl
    | some e => rfl

/- Digits alone are no float. -/
theorem readFloat_ofNat
    (negative : Bool)
    (n : Nat)
    {rest : List Char}
    (hRest : EndsValue rest) :
    readFloat
        (Expression.signChars negative
          ++ ((Numeral.ofNat n).chars false ++ rest)) =
      none := by
  have hFraction : readFraction rest = none := by
    apply readFraction_eq_none
    intro hPoint
    rcases hRest '.' hPoint with h | h | h <;> simp at h
  have hExponent : readExponent rest = none :=
    readExponent_eq_none
      (hRest.of_forall (by decide) (by decide) (by decide))
  rw [readFloat,
    readSign_append _ (noSign_numeral (Numeral.ofNat n) rest)]
  dsimp only
  rw [readWhole_numeral (Numeral.ofNat n) hRest]
  dsimp only
  rw [show (Numeral.ofNat n).fractionChars = [] from rfl,
    show (Numeral.ofNat n).exponentChars false = [] from rfl,
    List.nil_append, List.nil_append, hFraction]
  dsimp only
  rw [hExponent]
  rfl

/- The letters that mark another base stand nowhere. -/
theorem readInteger_decimal
    {cs : List Char}
    (hMark :
      ∀ c ∈ cs.tail.head?, c ≠ 'x' ∧ c ≠ 'o' ∧ c ≠ 'b') :
    readInteger cs =
      (readWhole (readSign cs).2).bind fun found =>
        integer?
          (Expression.signed (readSign cs).1
            (digitsValue 10 found.1))
          found.2 := by
  unfold readInteger
  split
  · simp at hMark
  · simp at hMark
  · simp at hMark
  · rfl

theorem readInteger_ofNat
    (negative : Bool)
    (n : Nat)
    {rest : List Char}
    (hRest : EndsValue rest) :
    readInteger
        (Expression.signChars negative
          ++ ((Numeral.ofNat n).chars false ++ rest)) =
      integer? (Expression.signed negative n) rest := by
  have hDigits := allDigits_toDigits n
  -- What follows the first character is a digit or the end.
  have hLetter (digits : List Char) (hAll : AllDigits digits) :
      ∀ c ∈ (digits ++ rest).head?,
        c ≠ 'x' ∧ c ≠ 'o' ∧ c ≠ 'b' := by
    cases digits with
    | nil => exact hRest.of_forall (by decide) (by decide) (by decide)
    | cons d digits =>
        rintro c ⟨⟩
        have hd := hAll d List.mem_cons_self
        refine ⟨?_, ?_, ?_⟩ <;> (rintro rfl; simp at hd)
  rw [readInteger_decimal,
    readSign_append _ (noSign_numeral (Numeral.ofNat n) rest),
    readWhole_numeral (Numeral.ofNat n) hRest]
  · rw [Option.bind_some]
    dsimp only
    rw [show (Numeral.ofNat n).whole = Nat.toDigits 10 n from rfl,
      digitsValue_eq_ofDigitChars hDigits,
      Nat.ofDigitChars_ten_toDigits]
    rfl
  · rw [Numeral.chars_ofNat]
    cases negative with
    | true => exact hLetter _ hDigits
    | false =>
        obtain ⟨d, digits, hShape⟩ :=
          List.exists_cons_of_ne_nil
            (Nat.toDigits_ne_nil (b := 10) (n := n))
        rw [hShape] at hDigits ⊢
        exact hLetter digits (allDigits_cons_iff.mp hDigits).2

------------------------------------------------------------
-- No Dates
------------------------------------------------------------

theorem readField_eq_none
    {c : Char}
    (hc : c.isDigit = false)
    (width low high : Nat)
    (cs : List Char) :
    readField (width + 1) low high (c :: cs) = none := by
  simp [readField, hc]

/- A date or a time starts with a digit. -/
theorem readMoment_of_not_digit
    {c : Char}
    (hc : c.isDigit = false)
    (cs : List Char) :
    readMoment (c :: cs) = none := by
  rw [readMoment, readDate, readTime, readField_eq_none hc,
    readField_eq_none hc]
  rfl

/-
  After a field there is a mark, and nothing but digits stands
  before it.
-/
theorem readMark_of_readField
    {width low high n : Nat}
    {cs rest : List Char}
    {mark : Char}
    (hField : readField width low high cs = some (n, rest))
    (hDigit : mark.isDigit = false)
    (hMark : (cs.dropWhile Char.isDigit).head? ≠ some mark) :
    readMark mark rest = none := by
  unfold readField at hField
  dsimp only at hField
  split at hField
  · next hHolds =>
      simp only [Option.some.injEq, Prod.mk.injEq] at hField
      have hSplit :
          cs.dropWhile Char.isDigit =
            rest.dropWhile Char.isDigit := by
        conv => lhs; rw [← List.take_append_drop width cs]
        rw [hField.2, List.dropWhile_append_of_pos]
        exact fun c hc => List.all_eq_true.mp hHolds.2.1 c hc
      cases rest with
      | nil => rfl
      | cons c rest =>
          rw [readMark, if_neg]
          rintro rfl
          rw [hSplit, List.dropWhile_cons_of_neg (by simp [hDigit])]
            at hMark
          exact hMark rfl
  · simp at hField

theorem readMoment_eq_none
    {cs : List Char}
    (hMinus : (cs.dropWhile Char.isDigit).head? ≠ some '-')
    (hColon : (cs.dropWhile Char.isDigit).head? ≠ some ':') :
    readMoment cs = none := by
  have hDate : readDate cs = none := by
    rw [readDate, Option.bind_eq_none_iff]
    rintro ⟨year, after⟩ hYear
    dsimp only
    rw [readMark_of_readField hYear (by decide) hMinus]
    rfl
  have hTime : readTime cs = none := by
    rw [readTime, Option.bind_eq_none_iff]
    rintro ⟨hour, after⟩ hHour
    dsimp only
    rw [readMark_of_readField hHour (by decide) hColon]
    rfl
  rw [readMoment, hDate, hTime]
  rfl

/- No number that is written can be taken for a date. -/
theorem readMoment_numeral
    (negative : Bool)
    (n : Numeral)
    {rest : List Char}
    (hRest : EndsValue rest) :
    readMoment
        (Expression.signChars negative
          ++ (n.chars false ++ rest)) =
      none := by
  cases negative with
  | true => exact readMoment_of_not_digit (by decide) _
  | false =>
      have hEnd := endsDigits_fractionChars n hRest
      have hDrop :
          (n.chars false ++ rest).dropWhile Char.isDigit =
            n.fractionChars ++ (n.exponentChars false ++ rest) := by
        rw [Numeral.chars, List.append_assoc, List.append_assoc]
        exact dropWhile_append_of_head? n.whole_digits
          fun c hc => (hEnd c hc).1
      have hHead :
          ∀ c ∈ (n.fractionChars
              ++ (n.exponentChars false ++ rest)).head?,
            c ≠ '-' ∧ c ≠ ':' :=
        forall_head?_fractionChars n (by decide)
          (forall_head?_exponentChars n (by decide)
            (hRest.of_forall (by decide) (by decide) (by decide)))
      apply readMoment_eq_none
      · intro hMinus
        exact (hHead _ (hDrop ▸ hMinus)).1 rfl
      · intro hColon
        exact (hHead _ (hDrop ▸ hColon)).2 rfl

------------------------------------------------------------
-- Scalars
------------------------------------------------------------

/- A number starts with a digit, a sign or a letter of its name. -/
theorem readScalar_number
    {c : Char}
    (hc : c.isDigit = true ∨ c = '-' ∨ c = 'i')
    (cs : List Char) :
    readScalar (c :: cs) =
      (readMoment (c :: cs)).or
        ((readFloat (c :: cs)).or (readInteger (c :: cs))) := by
  have hQuote : ¬ (c = '"' ∨ c = '\'') := by
    rintro (rfl | rfl) <;> simp at hc
  have hLetter : ¬ (c = 't' ∨ c = 'f') := by
    rintro (rfl | rfl) <;> simp at hc
  rw [readScalar, if_neg hQuote, if_neg hLetter]

/- The first character of a number that is written. -/
theorem signed_eq_cons
    (negative : Bool)
    (n : Numeral)
    (rest : List Char) :
    ∃ c cs,
      Expression.signChars negative ++ (n.chars false ++ rest) =
          c :: cs ∧
        (c.isDigit = true ∨ c = '-' ∨ c = 'i') := by
  cases negative with
  | true => exact ⟨'-', _, rfl, .inr (.inl rfl)⟩
  | false =>
      obtain ⟨c, cs, hChars, hc⟩ := n.exists_cons false
      exact ⟨c, cs ++ rest, by rw [hChars]; rfl, .inl hc⟩

theorem readScalar_float
    {negative : Bool}
    {n : Numeral}
    (hFloat : n.IsFloat)
    {x : Double}
    (hFinite : x.isFinite = true)
    (hValue : n.decimal.toDouble negative = x)
    {rest : List Char}
    (hRest : EndsValue rest) :
    readScalar
        (Expression.signChars negative
          ++ (n.chars false ++ rest)) =
      some (.float x, rest) := by
  have hMoment := readMoment_numeral negative n hRest
  have hRead := readFloat_numeral negative hFloat hRest
  obtain ⟨c, cs, hShape, hc⟩ := signed_eq_cons negative n rest
  -- The value is finite, so it is not taken for an overflow.
  rw [hShape] at hMoment hRead ⊢
  rw [readScalar_number hc, hMoment, hRead, float?, hValue,
    if_pos (.inl hFinite)]
  rfl

theorem readScalar_infinity
    (negative : Bool)
    (rest : List Char) :
    readScalar
        (Expression.signChars negative
          ++ ('i' :: 'n' :: 'f' :: rest)) =
      some
        (.float (Double.ofMagnitude negative Double.infinityBits),
          rest) := by
  have hSign : NoSign ('i' :: 'n' :: 'f' :: rest) := by
    rintro c ⟨⟩
    decide
  have hFloat :
      readFloat
          (Expression.signChars negative
            ++ ('i' :: 'n' :: 'f' :: rest)) =
        some
          (.float
            (Double.ofMagnitude negative Double.infinityBits),
            rest) := by
    rw [readFloat, readSign_append _ hSign]
    rfl
  obtain ⟨c, cs, hShape, hc⟩ :
      ∃ c cs,
        Expression.signChars negative
              ++ ('i' :: 'n' :: 'f' :: rest) =
            c :: cs ∧
          (c = '-' ∨ c = 'i') := by
    cases negative with
    | true => exact ⟨'-', _, rfl, .inl rfl⟩
    | false => exact ⟨'i', _, rfl, .inr rfl⟩
  have hDigit : c.isDigit = false := by
    rcases hc with rfl | rfl <;> decide
  rw [hShape] at hFloat ⊢
  rw [readScalar_number (.inr hc), readMoment_of_not_digit hDigit,
    hFloat]
  rfl

/- A double that is no number and no finite one is infinite. -/
theorem magnitudeBits_of_not_finite
    {x : Double}
    (hx : x.isNaN = false)
    (hFinite : ¬ x.isFinite = true) :
    x.magnitudeBits = Double.infinityBits := by
  simp only [Double.isNaN, Double.isFinite,
    decide_eq_false_iff_not, decide_eq_true_eq] at hx hFinite
  omega

/- A finite float is written as a numeral that reads back. -/
theorem writeFloat_finite
    {x : Double}
    (hx : x.isNaN = false)
    (hFinite : x.isFinite = true) :
    ∃ n : Numeral,
      writeFloat x =
          Expression.signChars x.isNegative ++ n.chars false ∧
        n.IsFloat ∧ n.decimal.toDouble x.isNegative = x := by
  obtain ⟨n, hChars, hMagnitude, hFloat, -⟩ :=
    floatLayout.exists_numeral hFinite
  refine ⟨n, ?_, hFloat rfl, ?_⟩
  · rw [writeFloat, if_neg (by simp [hx])]
    exact hChars
  · rw [Decimal.toDouble, hMagnitude]
    exact Double.ofMagnitude_magnitudeBits x

theorem writeFloat_infinite
    {x : Double}
    (hx : x.isNaN = false)
    (hFinite : ¬ x.isFinite = true) :
    writeFloat x =
      Expression.signChars x.isNegative ++ ['i', 'n', 'f'] := by
  have hNaN : ¬ x.isNaN = true := by simp [hx]
  rw [writeFloat, if_neg hNaN, FloatLayout.write, if_neg hNaN]
  dsimp only
  rw [if_neg hFinite]
  exact String.toList_ofList

theorem readScalar_writeFloat
    {x : Double}
    (hx : x.isNaN = false)
    {rest : List Char}
    (hRest : EndsValue rest) :
    readScalar (writeFloat x ++ rest) = some (.float x, rest) := by
  by_cases hFinite : x.isFinite = true
  · obtain ⟨n, hChars, hFloat, hValue⟩ :=
      writeFloat_finite hx hFinite
    rw [hChars, List.append_assoc]
    exact readScalar_float hFloat hFinite hValue hRest
  · rw [writeFloat_infinite hx hFinite, List.append_assoc,
      List.cons_append, List.cons_append, List.cons_append,
      List.nil_append, readScalar_infinity,
      ← magnitudeBits_of_not_finite hx hFinite,
      Double.ofMagnitude_magnitudeBits]

theorem intText_eq_signed
    (k : Int) :
    (Literal.intText k).toList =
      Expression.signChars (decide (k < 0))
        ++ (Numeral.ofNat k.natAbs).chars false := by
  rw [Numeral.chars_ofNat, Literal.intText, String.toList_ofList,
    Expression.signChars]
  by_cases hSign : k < 0 <;> simp [hSign]

theorem readScalar_integer
    (value : Int64)
    {rest : List Char}
    (hRest : EndsValue rest) :
    readScalar ((Literal.intText value.toInt).toList ++ rest) =
      some (.integer value, rest) := by
  have hRange :
      Expression.minInt ≤ value.toInt ∧
        value.toInt ≤ Expression.maxInt :=
    ⟨Int64.le_toInt value, Int64.toInt_le value⟩
  have hMoment :=
    readMoment_numeral (decide (value.toInt < 0))
      (Numeral.ofNat value.toInt.natAbs) hRest
  have hFloat :=
    readFloat_ofNat (decide (value.toInt < 0))
      value.toInt.natAbs hRest
  have hInteger :=
    readInteger_ofNat (decide (value.toInt < 0))
      value.toInt.natAbs hRest
  obtain ⟨c, cs, hShape, hc⟩ :=
    signed_eq_cons (decide (value.toInt < 0))
      (Numeral.ofNat value.toInt.natAbs) rest
  rw [intText_eq_signed, List.append_assoc]
  rw [hShape] at hMoment hFloat hInteger ⊢
  rw [readScalar_number hc, hMoment, hFloat, hInteger,
    Expression.signed_natAbs, integer?, if_pos hRange,
    Int64.ofInt_toInt]
  rfl

theorem readScalar_boolean
    (value : Bool)
    (rest : List Char) :
    readScalar ((Literal.boolText value).toList ++ rest) =
      some (.boolean value, rest) := by
  cases value <;> rfl

/- A string starts with a quote in every form. -/
theorem writeString_eq_cons
    (cs : List Char) :
    ∃ c tail,
      writeString cs = c :: tail ∧ (c = '"' ∨ c = '\'') := by
  unfold writeString writeAs
  split
  · exact ⟨_, _, rfl, .inl rfl⟩
  · exact ⟨_, _, rfl, .inr rfl⟩
  · exact ⟨_, _, rfl, .inl rfl⟩
  · exact ⟨_, _, rfl, .inr rfl⟩

theorem readScalar_string
    (value : String)
    {rest : List Char}
    (hRest : EndsValue rest) :
    readScalar (writeString value.toList ++ rest) =
      some (.string value, rest) := by
  have hRead :
      readString (writeString value.toList ++ rest) =
        some (value.toList, rest) :=
    readString_writeString hRest.noQuote
  obtain ⟨c, tail, hShape, hc⟩ := writeString_eq_cons value.toList
  rw [hShape, List.cons_append] at hRead ⊢
  rw [readScalar, if_pos hc, hRead]
  simp

------------------------------------------------------------
-- Limits
------------------------------------------------------------

/- Something of a depth, where that is within a limit. -/
def upTo
    {α : Type}
    (limit depth : Nat)
    (x : α) : Option α :=
  if depth ≤ limit then some x else none

section Limits

variable {α β : Type}

theorem upTo_map
    (limit depth : Nat)
    (x : α)
    (f : α → β) :
    (upTo limit depth x).map f = upTo limit depth (f x) := by
  unfold upTo
  split <;> rfl

/- Of two parts one after another, the deeper one counts. -/
theorem upTo_bind
    {limit depth depth' : Nat}
    {x : α}
    {y : β}
    {f : α → Option β}
    (hf : f x = upTo limit depth' y) :
    (upTo limit depth x).bind f =
      upTo limit (max depth depth') y := by
  unfold upTo at hf ⊢
  by_cases hDepth : depth ≤ limit
  · rw [if_pos hDepth, Option.bind_some, hf]
    simp [hDepth]
  · rw [if_neg hDepth, if_neg (by omega)]
    rfl

theorem upTo_succ
    (limit depth : Nat)
    (x : α) :
    upTo (limit + 1) (depth + 1) x = upTo limit depth x := by
  simp [upTo]

theorem upTo_zero
    (limit : Nat)
    (x : α) :
    upTo limit 0 x = some x :=
  if_pos (Nat.zero_le limit)

end Limits

------------------------------------------------------------
-- Lists
------------------------------------------------------------

theorem writeItems_cons
    (item : Value)
    (items : List Value) :
    writeItems (item :: items) =
      "\n    ".toList ++ writeValue item
        ++ ',' :: writeItems items :=
  rfl

theorem writeValue_singleton
    (item : Value) :
    writeValue (.array [item]) =
      '[' :: writeValue item ++ [']'] :=
  rfl

theorem writeValue_many
    (first second : Value)
    (items : List Value) :
    writeValue (.array (first :: second :: items)) =
      '[' :: writeItems (first :: second :: items)
        ++ ['\n', ']'] :=
  rfl

/- Text that a value may start: nothing in it is skipped. -/
def StartsItem (cs : List Char) : Prop :=
  ∃ c tail, cs = c :: tail ∧ c ≠ '\n' ∧ isBlank c = false ∧
    c ≠ '#' ∧ c ≠ ']'

theorem StartsItem.skipSpace_eq
    {cs : List Char}
    (h : StartsItem cs) :
    skipSpace false cs = some cs := by
  obtain ⟨c, tail, rfl, hNewline, hBlank, hComment, -⟩ := h
  simp [skipSpace, hNewline, hBlank, hComment]

section Items

variable {item : List Char → Step Value}
variable {fuel limit depth : Nat}
variable {cs text rest : List Char}
variable {value : Value}

theorem readItems_end
    (hText : skipSpace false text = some (']' :: rest)) :
    readItems item (fuel + 1) text = some ([], rest) := by
  rw [readItems, hText]
  rfl

/- The last item, which a bracket follows. -/
theorem readItems_last
    (hText : skipSpace false text = some cs)
    (hStart : StartsItem cs)
    (hItem : item cs = upTo limit depth (value, ']' :: rest)) :
    readItems item (fuel + 1) text =
      upTo limit depth ([value], rest) := by
  obtain ⟨c, tail, rfl, -, -, -, hBracket⟩ := hStart
  rw [readItems, hText]
  split
  · simp_all
  · simp_all
  · next hSome =>
      cases hSome
      rw [hItem]
      unfold upTo
      split
      · rfl
      · rfl

theorem readItems_more
    {depth' : Nat}
    {after : List Char}
    {values : List Value}
    (hText : skipSpace false text = some cs)
    (hStart : StartsItem cs)
    (hItem : item cs = upTo limit depth (value, ',' :: after))
    (hMore :
      readItems item fuel after =
        upTo limit depth' (values, rest)) :
    readItems item (fuel + 1) text =
      upTo limit (max depth depth') (value :: values, rest) := by
  obtain ⟨c, tail, rfl, -, -, -, hBracket⟩ := hStart
  rw [readItems, hText]
  split
  · simp_all
  · simp_all
  · next hSome =>
      cases hSome
      rw [hItem]
      refine upTo_bind ?_
      rw [← upTo_map limit depth' (values, rest)
        (fun found => (value :: found.1, found.2)), ← hMore]
      rfl

end Items

------------------------------------------------------------
-- Options
------------------------------------------------------------

end Toml

namespace OptionValue

mutual

/- How deep the lists of an option nest. -/
def nesting : OptionValue → Nat
| .list items => nestingOf items + 1
| _ => 0

/- How deep the lists among some options nest. -/
def nestingOf : List OptionValue → Nat
| [] => 0
| item :: rest => max item.nesting (nestingOf rest)

end

mutual

/- Whether an option is or has a float that is no number. -/
def hasNaN : OptionValue → Bool
| .float value => value.isNaN
| .list items => anyNaN items
| _ => false

/- Whether there is such a float among some options. -/
def anyNaN : List OptionValue → Bool
| [] => false
| item :: rest => item.hasNaN || anyNaN rest

end

theorem anyNaN_eq_false_iff
    {items : List OptionValue} :
    anyNaN items = false ↔
      ∀ item ∈ items, item.hasNaN = false := by
  induction items with
  | nil => simp [anyNaN]
  | cons item items ih => simp [anyNaN, ih]

/- Whether an option is no list. -/
def isScalar : OptionValue → Bool
| .list _ => false
| _ => true

theorem isScalar_or_list
    (value : OptionValue) :
    value.isScalar = true ∨ ∃ items, value = .list items := by
  cases value with
  | list items => exact .inr ⟨items, rfl⟩
  | _ => exact .inl rfl

theorem nesting_of_isScalar
    {value : OptionValue}
    (hScalar : value.isScalar = true) :
    value.nesting = 0 := by
  cases value with
  | list items => simp [isScalar] at hScalar
  | _ => simp [nesting]

end OptionValue

namespace Toml

theorem readNamedFloat_eq_none
    {c : Char}
    (hc : c ≠ 'i' ∧ c ≠ 'n')
    (negative : Bool)
    (cs : List Char) :
    readNamedFloat negative (c :: cs) = none := by
  unfold readNamedFloat
  split
  · simp_all
  · simp_all
  · rfl

/- What starts with neither a digit nor a sign is no number. -/
theorem readScalar_eq_none
    {c : Char}
    (hDigit : c.isDigit = false)
    (hc : c ∉ ['"', '\'', 't', 'f', '-', '+', 'i', 'n'])
    (cs : List Char) :
    readScalar (c :: cs) = none := by
  simp only [List.mem_cons, List.not_mem_nil, or_false, not_or]
    at hc
  obtain ⟨hDouble, hSingle, hTrue, hFalse, hMinus, hPlus, hName⟩ :=
    hc
  have hSign : readSign (c :: cs) = (false, c :: cs) := by
    refine readSign_append false ?_
    rintro x ⟨⟩
    exact ⟨hMinus, hPlus⟩
  have hWhole := readWhole_of_not_digit hDigit cs
  have hFloat : readFloat (c :: cs) = none := by
    rw [readFloat, hSign]
    dsimp only
    rw [hWhole]
    exact readNamedFloat_eq_none hName false cs
  have hInteger : readInteger (c :: cs) = none := by
    unfold readInteger
    split
    · simp_all
    · simp_all
    · simp_all
    · rw [hSign]
      dsimp only
      rw [hWhole]
      rfl
  rw [readScalar, if_neg (by simp [hDouble, hSingle]),
    if_neg (by simp [hTrue, hFalse]),
    readMoment_of_not_digit hDigit, hFloat, hInteger]
  rfl

/- The marks that no scalar starts with. -/
theorem readScalar_mark
    {c : Char}
    (hc : c ∈ ['[', '\x7b', ']', '#', '\n', ' ', '\t'])
    (cs : List Char) :
    readScalar (c :: cs) = none := by
  simp only [List.mem_cons, List.not_mem_nil, or_false] at hc
  apply readScalar_eq_none
  · rcases hc with rfl | rfl | rfl | rfl | rfl | rfl | rfl <;>
      decide
  · rcases hc with rfl | rfl | rfl | rfl | rfl | rfl | rfl <;>
      decide

theorem readValue_of_readScalar
    {cs : List Char}
    {found : Value × List Char}
    (hScalar : readScalar cs = some found)
    (room : Nat) :
    readValue room cs = some found := by
  rw [← hScalar]
  unfold readValue
  split
  · rw [readScalar_mark (by simp)] at hScalar
    simp at hScalar
  · rw [readScalar_mark (by simp)] at hScalar
    simp at hScalar
  · rw [readScalar_mark (by simp)] at hScalar
    simp at hScalar
  · rw [readScalar_mark (by simp)] at hScalar
    simp at hScalar
  · rfl

theorem startsItem_of_readScalar
    {cs : List Char}
    {found : Value × List Char}
    (hScalar : readScalar cs = some found) :
    StartsItem cs := by
  cases cs with
  | nil => simp [readScalar] at hScalar
  | cons c tail =>
      have hMark :
          c ∉ ['[', '\x7b', ']', '#', '\n', ' ', '\t'] := by
        intro hc
        rw [readScalar_mark hc] at hScalar
        simp at hScalar
      simp only [List.mem_cons, List.not_mem_nil, or_false,
        not_or] at hMark
      refine ⟨c, tail, rfl, hMark.2.2.2.2.1, ?_,
        hMark.2.2.2.1, hMark.2.2.1⟩
      simp [isBlank, hMark]

theorem readScalar_writeValue
    {value : OptionValue}
    (hScalar : value.isScalar = true)
    (hNumber : value.hasNaN = false)
    {rest : List Char}
    (hRest : EndsValue rest) :
    readScalar (writeValue value.toToml ++ rest) =
      some (value.toToml, rest) := by
  cases value with
  | bool value => exact readScalar_boolean value rest
  | int value => exact readScalar_integer value hRest
  | float value => exact readScalar_writeFloat hNumber hRest
  | text value => exact readScalar_string value hRest
  | list items => simp [OptionValue.isScalar] at hScalar

theorem startsItem_bracket
    (cs : List Char) :
    StartsItem ('[' :: cs) :=
  ⟨'[', cs, rfl, by decide, by decide, by decide, by decide⟩

theorem startsItem_writeValue
    {value : OptionValue}
    (hNumber : value.hasNaN = false)
    {rest : List Char}
    (hRest : EndsValue rest) :
    StartsItem (writeValue value.toToml ++ rest) := by
  rcases value.isScalar_or_list with hScalar | ⟨items, rfl⟩
  · exact startsItem_of_readScalar
      (readScalar_writeValue hScalar hNumber hRest)
  · rcases items with - | ⟨first, - | ⟨second, items⟩⟩
    · exact startsItem_bracket _
    · exact startsItem_bracket _
    · exact startsItem_bracket _

/- Options that are read back as deep as there is room. -/
def ReadsUpTo
    (room : Nat)
    (value : OptionValue) : Prop :=
  ∀ rest, EndsValue rest →
    readValue room (writeValue value.toToml ++ rest) =
      upTo room value.nesting (value.toToml, rest)

/- Each item has a line of its own. -/
theorem skipSpace_line
    {cs : List Char}
    (hStart : StartsItem cs) :
    skipSpace false ("\n    ".toList ++ cs) = some cs :=
  hStart.skipSpace_eq

theorem endsValue_cons
    {c : Char}
    (hc : c = ',' ∨ c = ']' ∨ c = '\n')
    (rest : List Char) :
    EndsValue (c :: rest) := by
  rintro x ⟨⟩
  exact hc

theorem readItems_writeItems
    {room fuel : Nat}
    {items : List OptionValue}
    (hNumbers : OptionValue.anyNaN items = false)
    (hItems : ∀ item ∈ items, ReadsUpTo room item)
    (hFuel : items.length < fuel)
    (rest : List Char) :
    readItems (readValue room) fuel
        (writeItems (OptionValue.listToToml items)
          ++ '\n' :: ']' :: rest) =
      upTo room (OptionValue.nestingOf items)
        (OptionValue.listToToml items, rest) := by
  induction items generalizing fuel with
  | nil =>
      obtain ⟨fuel, rfl⟩ :=
        Nat.exists_eq_add_one.mpr (Nat.zero_lt_of_lt hFuel)
      exact (readItems_end rfl).trans (upTo_zero room _).symm
  | cons item items ih =>
      obtain ⟨fuel, rfl⟩ :=
        Nat.exists_eq_add_one.mpr (Nat.zero_lt_of_lt hFuel)
      rw [OptionValue.anyNaN, Bool.or_eq_false_iff] at hNumbers
      have hMore := ih hNumbers.2
        (fun other hOther =>
          hItems other (List.mem_cons_of_mem _ hOther))
        (Nat.lt_of_succ_lt_succ hFuel)
      rw [OptionValue.listToToml, writeItems_cons, List.append_assoc,
        List.append_assoc, List.cons_append]
      have hComma :=
        endsValue_cons (.inl rfl)
          (writeItems (OptionValue.listToToml items)
            ++ '\n' :: ']' :: rest)
      have hStart := startsItem_writeValue hNumbers.1 hComma
      exact readItems_more (skipSpace_line hStart) hStart
        (hItems item List.mem_cons_self _ hComma) hMore

theorem length_le_writeItems
    (items : List OptionValue) :
    items.length ≤
      (writeItems (OptionValue.listToToml items)).length := by
  induction items with
  | nil => exact Nat.zero_le _
  | cons item items ih =>
      simp only [OptionValue.listToToml, writeItems_cons,
        List.length_append, List.length_cons]
      omega

/- An opening bracket, and the items of a list after it. -/
theorem writeValue_list
    {room : Nat}
    {items : List OptionValue}
    (hNumbers : OptionValue.anyNaN items = false)
    (hItems : ∀ item ∈ items, ReadsUpTo room item)
    (rest : List Char) :
    ∃ body,
      writeValue (OptionValue.list items).toToml ++ rest =
          '[' :: body ∧
        readItems (readValue room) body.length body =
          upTo room (OptionValue.nestingOf items)
            (OptionValue.listToToml items, rest) := by
  rcases items with - | ⟨first, - | ⟨second, items⟩⟩
  · exact ⟨']' :: rest, rfl,
      (readItems_end rfl).trans (upTo_zero room _).symm⟩
  · have hBracket := endsValue_cons (.inr (.inl rfl)) rest
    have hFirst : first.hasNaN = false := by
      simpa [OptionValue.anyNaN] using hNumbers
    have hStart := startsItem_writeValue hFirst hBracket
    refine ⟨writeValue first.toToml ++ ']' :: rest, ?_, ?_⟩
    · simp [OptionValue.toToml, OptionValue.listToToml,
        writeValue_singleton]
    · have hLength :
          (writeValue first.toToml ++ ']' :: rest).length =
            (writeValue first.toToml).length + rest.length + 1 := by
        simp [Nat.add_assoc]
      rw [hLength, OptionValue.nestingOf, OptionValue.nestingOf,
        Nat.max_zero]
      exact readItems_last hStart.skipSpace_eq hStart
        (hItems first List.mem_cons_self _ hBracket)
  · refine ⟨writeItems
      (OptionValue.listToToml (first :: second :: items))
        ++ '\n' :: ']' :: rest, ?_, ?_⟩
    · simp [OptionValue.toToml, OptionValue.listToToml,
        writeValue_many]
    · apply readItems_writeItems hNumbers hItems
      have hLength := length_le_writeItems (first :: second :: items)
      simp only [List.length_append, List.length_cons] at hLength ⊢
      omega

/- A list is read where there is room for one more level. -/
theorem readsUpTo_list
    {room : Nat}
    {items : List OptionValue}
    (hNumbers : OptionValue.anyNaN items = false)
    (hItems : ∀ item ∈ items, ReadsUpTo room item) :
    ReadsUpTo (room + 1) (.list items) := by
  intro rest hRest
  obtain ⟨body, hBody, hRead⟩ :=
    writeValue_list hNumbers hItems rest
  rw [hBody, readValue, hRead, upTo_map, OptionValue.nesting,
    upTo_succ]
  rfl

/- Without any room no list is read. -/
theorem readsUpTo_zero_list
    (items : List OptionValue) :
    ReadsUpTo 0 (.list items) := by
  intro rest hRest
  rcases items with - | ⟨first, - | ⟨second, items⟩⟩
  · rfl
  · rfl
  · rfl

theorem readsUpTo_scalar
    {value : OptionValue}
    (hScalar : value.isScalar = true)
    (hNumber : value.hasNaN = false)
    (room : Nat) :
    ReadsUpTo room value := by
  intro rest hRest
  have hRead := readScalar_writeValue hScalar hNumber hRest
  rw [readValue_of_readScalar hRead,
    OptionValue.nesting_of_isScalar hScalar, upTo_zero]

/- Every option is read back as deep as there is room. -/
theorem readsUpTo_of_hasNaN
    (room : Nat)
    {value : OptionValue}
    (hNumber : value.hasNaN = false) :
    ReadsUpTo room value := by
  induction room generalizing value with
  | zero =>
      rcases value.isScalar_or_list with hScalar | ⟨items, rfl⟩
      · exact readsUpTo_scalar hScalar hNumber 0
      · exact readsUpTo_zero_list items
  | succ room ih =>
      rcases value.isScalar_or_list with hScalar | ⟨items, rfl⟩
      · exact readsUpTo_scalar hScalar hNumber (room + 1)
      · have hItems := OptionValue.anyNaN_eq_false_iff.mp hNumber
        exact readsUpTo_list hNumber
          fun item hItem => ih (hItems item hItem)

------------------------------------------------------------
-- Line Ends
------------------------------------------------------------

theorem noReturn_digits
    {digits : List Char}
    (hDigits : AllDigits digits) :
    '\r' ∉ digits := by
  intro hReturn
  have hc := hDigits _ hReturn
  simp at hc

theorem noReturn_signChars
    (negative : Bool) :
    '\r' ∉ Expression.signChars negative := by
  cases negative <;> simp [Expression.signChars]

theorem noReturn_numeral
    (n : Numeral) :
    '\r' ∉ n.chars false := by
  have hWhole := noReturn_digits n.whole_digits
  have hFraction : '\r' ∉ n.fractionChars := by
    unfold Numeral.fractionChars
    split
    · simp
    · simp [noReturn_digits n.fraction_digits]
  have hExponent : '\r' ∉ n.exponentChars false := by
    unfold Numeral.exponentChars
    split
    · simp
    · next e _ =>
        have hDigits :=
          noReturn_digits (allDigits_toDigits e.natAbs)
        by_cases hSign : e < 0 <;>
          simp [Numeral.exponentSign, hSign, hDigits]
  simp [Numeral.chars, hWhole, hFraction, hExponent]

theorem noReturn_writeFloat
    (x : Double) :
    '\r' ∉ writeFloat x := by
  by_cases hx : x.isNaN = false
  · by_cases hFinite : x.isFinite = true
    · obtain ⟨n, hChars, -, -⟩ := writeFloat_finite hx hFinite
      simp [hChars, noReturn_signChars, noReturn_numeral]
    · simp [writeFloat_infinite hx hFinite, noReturn_signChars]
  · rw [writeFloat, if_pos (by simpa using hx)]
    simp

mutual

theorem noReturn_writeValue :
    (value : OptionValue) → '\r' ∉ writeValue value.toToml
| .bool true => by decide
| .bool false => by decide
| .int value => by
    have hText :
        '\r' ∉ (Literal.intText value.toInt).toList := by
      rw [intText_eq_signed]
      simp [noReturn_signChars, noReturn_numeral]
    exact hText
| .float value => noReturn_writeFloat value
| .text value => noReturn_writeString value.toList
| .list [] => by decide
| .list [item] => by
    have hItem := noReturn_writeValue item
    simp [OptionValue.toToml, OptionValue.listToToml,
      writeValue_singleton, hItem]
| .list (first :: second :: items) => by
    have hItems := noReturn_writeItems (first :: second :: items)
    simpa [OptionValue.toToml, OptionValue.listToToml,
      writeValue_many] using hItems

theorem noReturn_writeItems :
    (items : List OptionValue) →
      '\r' ∉ writeItems (OptionValue.listToToml items)
| [] => List.not_mem_nil
| item :: items => by
    have hItem := noReturn_writeValue item
    have hItems := noReturn_writeItems items
    simp [OptionValue.listToToml, writeItems_cons, hItem, hItems]

end

end Toml

end TemplateTree
