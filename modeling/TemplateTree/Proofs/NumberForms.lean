import TemplateTree.Expression
import TemplateTree.Proofs.Numeral

/-
  The numbers that are literals.

  Main declarations:
    * `Expression.ExponentForm`
    * `Expression.readExponent_eq_some_iff`
    * `Expression.readDecimal_eq_some_iff`
    * `Expression.WholeForm`
    * `Expression.FloatForm`
    * `Expression.readNumber_whole`
    * `Expression.readNumber_float`
    * `Expression.exists_form_of_readNumber`

  A form says which parts a number has and how they are
  written.  Each part is read in two steps: what is written
  is taken apart at the characters that end a part, and the
  reader is evaluated on the parts.
-/

------------------------------------------------------------
-- Parts Of Numbers
------------------------------------------------------------

namespace TemplateTree

namespace Expression

/- The sign of a number. -/
def signChars (negative : Bool) : List Char :=
  if negative then ['-'] else []

/- Digits, at least one of them. -/
structure SomeDigits (cs : List Char) : Prop where
  ne_nil : cs ≠ []
  all : AllDigits cs

theorem SomeDigits.exists_cons
    {digits : List Char}
    (hDigits : SomeDigits digits) :
    ∃ c cs, digits = c :: cs ∧ c.isDigit = true := by
  rcases List.exists_cons_of_ne_nil hDigits.ne_nil with
    ⟨c, cs, rfl⟩
  exact ⟨c, cs, rfl, hDigits.all c List.mem_cons_self⟩

/- Characters that do not go on with a digit. -/
def EndsDigits (rest : List Char) : Prop :=
  ∀ c ∈ rest.head?, c.isDigit = false

theorem EndsDigits.any_head?
    {rest : List Char}
    (hEnd : EndsDigits rest) :
    rest.head?.any Char.isDigit = false := by
  cases rest with
  | nil => rfl
  | cons c rest => exact hEnd c rfl

theorem EndsDigits.eq_nil
    {rest : List Char}
    (hEnd : EndsDigits rest)
    (hDigits : AllDigits rest) :
    rest = [] := by
  cases rest with
  | nil => rfl
  | cons c rest =>
      have hc := hDigits c List.mem_cons_self
      rw [hEnd c rfl] at hc
      cases hc

theorem allDigits_iff_all
    {cs : List Char} :
    AllDigits cs ↔ cs.all Char.isDigit = true :=
  List.all_eq_true.symm

/- The signs that an exponent can have. -/
inductive ExponentSign where
| absent
| plus
| minus
deriving DecidableEq

namespace ExponentSign

/- How a sign is written. -/
def chars : ExponentSign → List Char
| absent => []
| plus => ['+']
| minus => ['-']

/- Whether the exponent is negative. -/
def isMinus : ExponentSign → Bool
| minus => true
| _ => false

end ExponentSign

/- An exponent: a letter, perhaps a sign, and digits. -/
structure ExponentForm where
  letter : Char
  sign : ExponentSign
  digits : List Char
  letter_eq : letter = 'e' ∨ letter = 'E'
  some_digits : SomeDigits digits

namespace ExponentForm

/- How an exponent is written. -/
def chars (e : ExponentForm) : List Char :=
  e.letter :: (e.sign.chars ++ e.digits)

/- The number that an exponent stands for. -/
def value (e : ExponentForm) : Int :=
  signed e.sign.isMinus (Nat.ofDigitChars 10 e.digits 0)

end ExponentForm

/- What is written for an exponent that may be missing. -/
def exponentChars : Option ExponentForm → List Char
| none => []
| some e => e.chars

/- A missing exponent is zero. -/
def exponentValue : Option ExponentForm → Int
| none => 0
| some e => e.value

/- What is written for a fraction that may be missing. -/
def fractionChars : Option (List Char) → List Char
| none => []
| some digits => '.' :: digits

theorem endsDigits_exponentChars
    (exponent : Option ExponentForm) :
    EndsDigits (exponentChars exponent) := by
  cases exponent with
  | none => rintro c ⟨⟩
  | some e =>
      rintro c ⟨⟩
      rcases e.letter_eq with h | h <;> rw [h] <;> rfl

theorem head?_exponentChars_ne
    (exponent : Option ExponentForm) :
    (exponentChars exponent).head? ≠ some '.' := by
  cases exponent with
  | none => rintro ⟨⟩
  | some e =>
      rw [exponentChars, ExponentForm.chars, List.head?_cons]
      rcases e.letter_eq with h | h <;> rw [h] <;> decide

theorem endsDigits_fractionChars
    (fraction : Option (List Char))
    {rest : List Char}
    (hEnd : EndsDigits rest) :
    EndsDigits (fractionChars fraction ++ rest) := by
  cases fraction with
  | none => exact hEnd
  | some digits =>
      rintro c ⟨⟩
      rfl

------------------------------------------------------------
-- Reading The Parts
------------------------------------------------------------

/- No digit is a sign. -/
theorem SomeDigits.head?_ne
    {digits : List Char}
    (hDigits : SomeDigits digits)
    {c : Char}
    (hc : c.isDigit = false) :
    digits.head? ≠ some c := by
  intro hHead
  have hDigit := hDigits.all c (List.mem_of_mem_head? hHead)
  rw [hc] at hDigit
  cases hDigit

/- Characters that do not start with a sign. -/
structure IsUnsigned (cs : List Char) : Prop where
  no_plus : cs.head? ≠ some '+'
  no_minus : cs.head? ≠ some '-'

theorem SomeDigits.isUnsigned
    {digits : List Char}
    (hDigits : SomeDigits digits) :
    IsUnsigned digits :=
  ⟨hDigits.head?_ne (by decide), hDigits.head?_ne (by decide)⟩

/- An exponent is read after its letter and its sign. -/
theorem readExponent_letter
    {letter : Char}
    (hLetter : letter = 'e' ∨ letter = 'E')
    (sign : ExponentSign)
    {digits : List Char}
    (hSign : sign = .absent → IsUnsigned digits) :
    readExponent (letter :: (sign.chars ++ digits)) =
      if digits.isEmpty then none
      else if digits.all Char.isDigit then
        some (signed sign.isMinus (Nat.ofDigitChars 10 digits 0))
      else none := by
  rw [readExponent, if_pos hLetter]
  cases sign with
  | absent =>
      have hPlus := beq_eq_false_iff_ne.mpr (hSign rfl).no_plus
      have hMinus := beq_eq_false_iff_ne.mpr (hSign rfl).no_minus
      simp [ExponentSign.chars, ExponentSign.isMinus, hPlus,
        hMinus]
  | plus => simp [ExponentSign.chars, ExponentSign.isMinus]
  | minus => simp [ExponentSign.chars, ExponentSign.isMinus]

/- Characters are a sign and what is left, or have no sign. -/
theorem exists_sign
    (cs : List Char) :
    ∃ (sign : ExponentSign) (rest : List Char),
      cs = sign.chars ++ rest ∧
        (sign = .absent → IsUnsigned rest) := by
  by_cases hPlus : cs.head? = some '+'
  · rcases List.head?_eq_some_iff.mp hPlus with ⟨rest, rfl⟩
    exact ⟨.plus, rest, rfl, by simp⟩
  · by_cases hMinus : cs.head? = some '-'
    · rcases List.head?_eq_some_iff.mp hMinus with ⟨rest, rfl⟩
      exact ⟨.minus, rest, rfl, by simp⟩
    · exact ⟨.absent, cs, rfl, fun _ => ⟨hPlus, hMinus⟩⟩

/- An exponent is read exactly if it has its form. -/
theorem readExponent_eq_some_iff
    {cs : List Char}
    {k : Int} :
    readExponent cs = some k ↔
      ∃ exponent : Option ExponentForm,
        cs = exponentChars exponent ∧
          k = exponentValue exponent := by
  constructor
  · intro h
    cases cs with
    | nil =>
        cases h
        exact ⟨none, rfl, rfl⟩
    | cons letter cs =>
        by_cases hLetter : letter = 'e' ∨ letter = 'E'
        · rcases exists_sign cs with ⟨sign, digits, rfl, hSign⟩
          rw [readExponent_letter hLetter sign hSign] at h
          split at h
          · cases h
          next hSome =>
          split at h
          · next hAll =>
              cases h
              have hDigits : SomeDigits digits :=
                ⟨by simpa using hSome, allDigits_iff_all.mpr hAll⟩
              exact
                ⟨some ⟨letter, sign, digits, hLetter, hDigits⟩,
                  rfl, rfl⟩
          · cases h
        · rw [readExponent, if_neg hLetter] at h
          cases h
  · rintro ⟨exponent, rfl, rfl⟩
    cases exponent with
    | none => rfl
    | some e =>
        have hSome : ¬ e.digits.isEmpty = true := by
          simpa using e.some_digits.ne_nil
        rw [exponentChars, ExponentForm.chars,
          readExponent_letter e.letter_eq e.sign
            (fun _ => e.some_digits.isUnsigned),
          if_neg hSome,
          if_pos (allDigits_iff_all.mp e.some_digits.all)]
        rfl

/- The decimal of digits, a fraction and an exponent. -/
def decimalOf
    (whole : List Char)
    (fraction : Option (List Char))
    (exponent : Option ExponentForm) : Decimal where
  digits := Nat.ofDigitChars 10 (whole ++ fraction.getD []) 0
  exponent := exponentValue exponent - (fraction.getD []).length

/- Characters are digits and what is left. -/
theorem exists_digits
    (cs : List Char) :
    ∃ digits rest,
      cs = digits ++ rest ∧
        AllDigits digits ∧ EndsDigits rest := by
  refine
    ⟨cs.takeWhile Char.isDigit, cs.dropWhile Char.isDigit,
      List.takeWhile_append_dropWhile.symm,
      List.all_eq_true.mp List.all_takeWhile, ?_⟩
  intro c hc
  have hHead := List.head?_dropWhile_not Char.isDigit cs
  rw [hc] at hHead
  exact hHead

/- Characters are digits, perhaps a fraction, and what is left. -/
theorem exists_parts
    (cs : List Char) :
    ∃ whole fraction tail,
      cs = whole ++ (fractionChars fraction ++ tail) ∧
        AllDigits whole ∧
        (∀ digits ∈ fraction, AllDigits digits) ∧
        EndsDigits tail ∧
        (fraction = none → tail.head? ≠ some '.') := by
  rcases exists_digits cs with ⟨whole, rest, rfl, hWhole, hRest⟩
  by_cases hPoint : rest.head? = some '.'
  · rcases List.head?_eq_some_iff.mp hPoint with ⟨after, rfl⟩
    rcases exists_digits after with
      ⟨digits, tail, rfl, hDigits, hTail⟩
    refine
      ⟨whole, some digits, tail, rfl, hWhole, ?_, hTail,
        by simp⟩
    rintro _ ⟨⟩
    exact hDigits
  · exact
      ⟨whole, none, rest, rfl, hWhole, by simp, hRest,
        fun _ => hPoint⟩

/- A decimal is read part by part. -/
theorem readDecimal_parts
    {whole tail : List Char}
    {fraction : Option (List Char)}
    (hWhole : AllDigits whole)
    (hFraction : ∀ digits ∈ fraction, AllDigits digits)
    (hTail : EndsDigits tail)
    (hPoint : fraction = none → tail.head? ≠ some '.') :
    readDecimal (whole ++ (fractionChars fraction ++ tail)) =
      (readExponent tail).map fun k =>
        ⟨Nat.ofDigitChars 10 (whole ++ fraction.getD []) 0,
          k - (fraction.getD []).length⟩ := by
  have hAfter := endsDigits_fractionChars fraction hTail
  unfold readDecimal
  rw [takeWhile_append_of_head? hWhole hAfter,
    dropWhile_append_of_head? hWhole hAfter]
  cases fraction with
  | none =>
      have hNone := beq_eq_false_iff_ne.mpr (hPoint rfl)
      simp [fractionChars, hNone]
  | some digits =>
      have hDigits := hFraction digits rfl
      simp [fractionChars,
        takeWhile_append_of_head? hDigits hTail,
        dropWhile_append_of_head? hDigits hTail]

/- A decimal is read exactly if it is made of its parts. -/
theorem readDecimal_eq_some_iff
    {cs : List Char}
    {d : Decimal} :
    readDecimal cs = some d ↔
      ∃ whole fraction exponent,
        AllDigits whole ∧
          (∀ digits ∈ fraction, AllDigits digits) ∧
          cs =
            whole ++
              (fractionChars fraction ++ exponentChars exponent) ∧
          d = decimalOf whole fraction exponent := by
  constructor
  · intro h
    rcases exists_parts cs with
      ⟨whole, fraction, tail, rfl, hWhole, hFraction, hTail, hPoint⟩
    rw [readDecimal_parts hWhole hFraction hTail hPoint] at h
    rcases Option.map_eq_some_iff.mp h with ⟨k, hk, rfl⟩
    rcases readExponent_eq_some_iff.mp hk with
      ⟨exponent, rfl, rfl⟩
    exact
      ⟨whole, fraction, exponent, hWhole, hFraction, rfl, rfl⟩
  · rintro ⟨whole, fraction, exponent, hWhole, hFraction, rfl, rfl⟩
    have hExponent :=
      readExponent_eq_some_iff.mpr ⟨exponent, rfl, rfl⟩
    rw [readDecimal_parts hWhole hFraction
        (endsDigits_exponentChars exponent)
        (fun _ => head?_exponentChars_ne exponent),
      hExponent]
    rfl

------------------------------------------------------------
-- Numbers
------------------------------------------------------------

/- A whole number: perhaps a minus, and digits. -/
structure WholeForm where
  negative : Bool
  digits : List Char
  some_digits : SomeDigits digits

namespace WholeForm

/- How a whole number is written. -/
def chars (w : WholeForm) : List Char :=
  signChars w.negative ++ w.digits

/- The number that is meant. -/
def value (w : WholeForm) : Int :=
  signed w.negative (Nat.ofDigitChars 10 w.digits 0)

end WholeForm

/-
  A float: perhaps a minus, digits, and then a fraction, an
  exponent or both.  The fraction may have no digits.
-/
structure FloatForm where
  negative : Bool
  whole : List Char
  fraction : Option (List Char)
  exponent : Option ExponentForm
  whole_digits : SomeDigits whole
  fraction_digits : ∀ digits ∈ fraction, AllDigits digits
  not_whole : fraction ≠ none ∨ exponent ≠ none

namespace FloatForm

/- What stands after the sign. -/
def unsignedChars (f : FloatForm) : List Char :=
  f.whole ++ (fractionChars f.fraction ++ exponentChars f.exponent)

/- How a float is written. -/
def chars (f : FloatForm) : List Char :=
  signChars f.negative ++ f.unsignedChars

/- The double nearest to the number that is written. -/
def value (f : FloatForm) : Double :=
  (decimalOf f.whole f.fraction f.exponent).toDouble f.negative

theorem exists_cons
    (f : FloatForm) :
    ∃ c cs, f.unsignedChars = c :: cs ∧ c.isDigit = true := by
  rcases f.whole_digits.exists_cons with ⟨c, cs, hWhole, hc⟩
  exact ⟨c, _, by rw [unsignedChars, hWhole]; rfl, hc⟩

/- A float is more than digits. -/
theorem not_allDigits
    (f : FloatForm) :
    ¬ AllDigits f.unsignedChars := by
  intro hAll
  have hRest :
      AllDigits
        (fractionChars f.fraction ++ exponentChars f.exponent) :=
    fun c hc => hAll c (List.mem_append_right _ hc)
  have hEnd :=
    endsDigits_fractionChars f.fraction
      (endsDigits_exponentChars f.exponent)
  rcases List.append_eq_nil_iff.mp (hEnd.eq_nil hRest) with
    ⟨hFraction, hExponent⟩
  rcases f.not_whole with hSome | hSome
  · cases hf : f.fraction with
    | none => exact hSome hf
    | some digits => simp [hf, fractionChars] at hFraction
  · cases he : f.exponent with
    | none => exact hSome he
    | some e =>
        simp [he, exponentChars, ExponentForm.chars] at hExponent

end FloatForm

/- A number whose sign has been read. -/
def readMagnitude
    (negative : Bool)
    (digits : List Char) : Option Literal :=
  if digits.head?.any Char.isDigit then
    if digits.all Char.isDigit then
      intLiteral? (signed negative (Nat.ofDigitChars 10 digits 0))
    else
      (readDecimal digits).bind fun d =>
        if (d.toDouble negative).isFinite then
          some (.float (d.toDouble negative))
        else none
  else none

/- The sign of a number is read before its digits. -/
theorem readNumber_signChars
    (negative : Bool)
    {digits : List Char}
    (hSign : negative = false → digits.head? ≠ some '-') :
    readNumber (signChars negative ++ digits) =
      readMagnitude negative digits := by
  unfold readNumber readMagnitude
  cases negative with
  | true =>
      cases digits with
      | nil => rfl
      | cons c cs => cases hc : c.isDigit <;> simp [signChars, hc]
  | false =>
      have hNone := beq_eq_false_iff_ne.mpr (hSign rfl)
      cases digits with
      | nil => rfl
      | cons c cs =>
          rw [List.head?_cons] at hNone
          cases hc : c.isDigit <;> simp [signChars, hc, hNone]

/- Characters are a minus and what is left, or have no minus. -/
theorem exists_minus
    (cs : List Char) :
    ∃ negative digits,
      cs = signChars negative ++ digits ∧
        (negative = false → digits.head? ≠ some '-') := by
  by_cases hMinus : cs.head? = some '-'
  · rcases List.head?_eq_some_iff.mp hMinus with ⟨digits, rfl⟩
    exact ⟨true, digits, rfl, by simp⟩
  · exact ⟨false, cs, rfl, fun _ => hMinus⟩

/- Digits that nothing follows are a whole number. -/
theorem readNumber_whole
    (w : WholeForm) :
    readNumber w.chars = intLiteral? w.value := by
  have hFirst : w.digits.head?.any Char.isDigit = true := by
    rcases w.some_digits.exists_cons with ⟨c, cs, hDigits, hc⟩
    rw [hDigits]
    exact hc
  rw [WholeForm.chars,
    readNumber_signChars w.negative
      (fun _ => w.some_digits.isUnsigned.no_minus),
    readMagnitude, if_pos hFirst,
    if_pos (allDigits_iff_all.mp w.some_digits.all),
    WholeForm.value]

/- Digits with a fraction or an exponent are a float. -/
theorem readNumber_float
    (f : FloatForm) :
    readNumber f.chars =
      if f.value.isFinite then some (.float f.value) else none := by
  rcases f.exists_cons with ⟨c, cs, hChars, hc⟩
  have hFirst : f.unsignedChars.head?.any Char.isDigit = true := by
    rw [hChars]
    exact hc
  have hSign : f.unsignedChars.head? ≠ some '-' := by
    rw [hChars]
    rintro ⟨⟩
    cases hc
  have hDecimal :
      readDecimal f.unsignedChars =
        some (decimalOf f.whole f.fraction f.exponent) :=
    readDecimal_eq_some_iff.mpr
      ⟨f.whole, f.fraction, f.exponent, f.whole_digits.all,
        f.fraction_digits, rfl, rfl⟩
  have hAll : ¬ f.unsignedChars.all Char.isDigit = true :=
    fun h => f.not_allDigits (allDigits_iff_all.mpr h)
  rw [FloatForm.chars,
    readNumber_signChars f.negative (fun _ => hSign),
    readMagnitude, if_pos hFirst, if_neg hAll, hDecimal,
    Option.bind_some, FloatForm.value]

/- Whatever is read as a number has one of the two forms. -/
theorem exists_form_of_readNumber
    {cs : List Char}
    {value : Literal}
    (h : readNumber cs = some value) :
    (∃ w : WholeForm, cs = w.chars) ∨
      ∃ f : FloatForm, cs = f.chars := by
  rcases exists_minus cs with ⟨negative, digits, rfl, hSign⟩
  rw [readNumber_signChars negative hSign, readMagnitude] at h
  split at h
  · next hFirst =>
      split at h
      · next hAll =>
          have hSome : digits ≠ [] := by
            rintro rfl
            cases hFirst
          have hDigits : SomeDigits digits :=
            ⟨hSome, allDigits_iff_all.mpr hAll⟩
          exact Or.inl ⟨⟨negative, digits, hDigits⟩, rfl⟩
      · next hAll =>
          rcases Option.bind_eq_some_iff.mp h with ⟨d, hd, -⟩
          rcases readDecimal_eq_some_iff.mp hd with
            ⟨whole, fraction, exponent, hWhole, hFraction, rfl, -⟩
          -- The first digit belongs to the whole part, and
          -- something that is no digit comes after it.
          have hSome : whole ≠ [] := by
            rintro rfl
            have hEnd :=
              endsDigits_fractionChars fraction
                (endsDigits_exponentChars exponent)
            rw [List.nil_append, hEnd.any_head?] at hFirst
            cases hFirst
          have hMore : fraction ≠ none ∨ exponent ≠ none := by
            by_contra hNone
            rw [not_or, not_not, not_not] at hNone
            rcases hNone with ⟨rfl, rfl⟩
            apply hAll
            rw [fractionChars, exponentChars, List.append_nil,
              List.append_nil]
            exact allDigits_iff_all.mp hWhole
          exact Or.inr
            ⟨⟨negative, whole, fraction, exponent,
              ⟨hSome, hWhole⟩, hFraction, hMore⟩, rfl⟩
  · cases h

------------------------------------------------------------
-- Integers Of 64 Bits
------------------------------------------------------------

/- An integer literal holds its value in 64 bits. -/
theorem intLiteral?_eq_some_iff
    {value : Int}
    {literal : Literal} :
    intLiteral? value = some literal ↔
      ∃ n : Int64, literal = .int n ∧ n.toInt = value := by
  have hMin : minInt = -2 ^ 63 := rfl
  have hMax : maxInt = 2 ^ 63 - 1 := rfl
  unfold intLiteral?
  constructor
  · intro h
    split at h
    · next hRange =>
        cases h
        exact
          ⟨Int64.ofInt value, rfl,
            Int64.toInt_ofInt_of_le (by omega) (by omega)⟩
    · cases h
  · rintro ⟨n, rfl, rfl⟩
    have hLow := n.le_toInt
    have hHigh := n.toInt_lt
    rw [if_pos ⟨by omega, by omega⟩, Int64.ofInt_toInt]

/- A number that 64 bits cannot hold. -/
def IsOutside (value : Int) : Prop :=
  value < -2 ^ 63 ∨ 2 ^ 63 ≤ value

theorem intLiteral?_eq_none_iff
    {value : Int} :
    intLiteral? value = none ↔ IsOutside value := by
  have hMin : minInt = -2 ^ 63 := rfl
  have hMax : maxInt = 2 ^ 63 - 1 := rfl
  unfold intLiteral? IsOutside
  rw [ite_eq_right_iff]
  simp only [reduceCtorEq, imp_false]
  omega

end Expression

end TemplateTree
