import TemplateTree.Proofs.JsonDocuments
import TemplateTree.Proofs.Levels
import TemplateTree.Proofs.LiteralGrammar

/-
  Literals that are written as expressions.

  Main declarations:
    * `Expression.LiteralForm.trimChars_chars`
    * `Expression.literal?_chars`
    * `Expression.FloatForm.ofNumeral`
    * `Expression.exists_form_of_source`
    * `Expression.sources_read_back`

  What is written for a literal is one of the forms of the
  grammar and has no white space around it, so that it is
  read as the value of that form.
-/

------------------------------------------------------------
-- Forms Without White Space Around Them
------------------------------------------------------------

namespace TemplateTree

/- Nothing is trimmed where there is no white space. -/
theorem Text.trimChars_of_forall
    {cs : List Char}
    (hcs : ∀ c ∈ cs, Text.isBlank c = false) :
    Text.trimChars cs = cs := by
  have hDrop : cs.dropWhile Text.isBlank = cs := by
    cases cs with
    | nil => rfl
    | cons c cs =>
        have hc := hcs c List.mem_cons_self
        rw [List.dropWhile_cons_of_neg (by simp [hc])]
  rw [Text.trimChars, hDrop]
  rcases List.eq_nil_or_concat cs with rfl | ⟨ds, d, rfl⟩
  · rfl
  · rw [List.concat_eq_append] at hcs ⊢
    exact Text.trimEnd_append_singleton (hcs d (by simp)) ds

namespace Expression

theorem isBlank_of_isDigit
    {c : Char}
    (hc : c.isDigit = true) :
    Text.isBlank c = false := by
  have hRange : 48 ≤ c.toNat ∧ c.toNat ≤ 57 :=
    Char.isDigit_iff_toNat.mp hc
  rw [← Bool.not_eq_true]
  intro hBlank
  simp only [Text.isBlank, Bool.or_eq_true, Bool.and_eq_true,
    decide_eq_true_eq, beq_iff_eq] at hBlank
  omega

/- Characters none of which is white space. -/
def NoBlanks (cs : List Char) : Prop :=
  ∀ c ∈ cs, Text.isBlank c = false

theorem NoBlanks.append
    {cs ds : List Char}
    (hcs : NoBlanks cs)
    (hds : NoBlanks ds) :
    NoBlanks (cs ++ ds) := by
  intro c hc
  rcases List.mem_append.mp hc with hc | hc
  · exact hcs c hc
  · exact hds c hc

theorem noBlanks_cons_iff
    {c : Char}
    {cs : List Char} :
    NoBlanks (c :: cs) ↔
      Text.isBlank c = false ∧ NoBlanks cs :=
  List.forall_mem_cons

theorem noBlanks_digits
    {digits : List Char}
    (hDigits : AllDigits digits) :
    NoBlanks digits :=
  fun c hc => isBlank_of_isDigit (hDigits c hc)

theorem noBlanks_signChars
    (negative : Bool) :
    NoBlanks (signChars negative) := by
  cases negative <;> simp [signChars, NoBlanks]
  decide

theorem noBlanks_fractionChars
    {fraction : Option (List Char)}
    (hFraction : ∀ digits ∈ fraction, AllDigits digits) :
    NoBlanks (fractionChars fraction) := by
  cases fraction with
  | none => simp [fractionChars, NoBlanks]
  | some digits =>
      exact noBlanks_cons_iff.mpr
        ⟨by decide, noBlanks_digits (hFraction digits rfl)⟩

theorem noBlanks_exponentChars
    (exponent : Option ExponentForm) :
    NoBlanks (exponentChars exponent) := by
  cases exponent with
  | none => simp [exponentChars, NoBlanks]
  | some e =>
      have hLetter : Text.isBlank e.letter = false := by
        rcases e.letter_eq with h | h <;> rw [h] <;> decide
      have hSign : NoBlanks e.sign.chars := by
        cases e.sign <;> simp [ExponentSign.chars, NoBlanks] <;>
          decide
      exact noBlanks_cons_iff.mpr
        ⟨hLetter,
          hSign.append (noBlanks_digits e.some_digits.all)⟩

/- A form has no white space around it. -/
theorem LiteralForm.trimChars_chars
    (form : LiteralForm) :
    Text.trimChars form.chars = form.chars := by
  cases form with
  | bool b => cases b <;> rfl
  | text items =>
      exact Text.trimChars_eq_self (by decide) (by decide) _
  | whole w =>
      apply Text.trimChars_of_forall
      exact
        (noBlanks_signChars w.negative).append
          (noBlanks_digits w.some_digits.all)
  | float f =>
      apply Text.trimChars_of_forall
      exact
        (noBlanks_signChars f.negative).append
          ((noBlanks_digits f.whole_digits.all).append
            ((noBlanks_fractionChars f.fraction_digits).append
              (noBlanks_exponentChars f.exponent)))

/- What is written in a form is read as its value. -/
theorem literal?_chars
    {form : LiteralForm}
    {value : Literal}
    (hDenotes : form.Denotes value) :
    literal? (String.ofList form.chars) = some value := by
  apply literal?_eq_some_iff.mpr
  refine ⟨form, ?_, hDenotes⟩
  rw [String.toList_ofList, form.trimChars_chars]

------------------------------------------------------------
-- Texts
------------------------------------------------------------

/- Every character can be written in a text. -/
theorem exists_item
    (c : Char) :
    ∃ item : TextItem,
      item.chars = escapedChar c ∧ item.value = c := by
  unfold escapedChar
  split
  · next hc => exact ⟨.escaped .quote, rfl, hc.symm⟩
  next hQuote =>
  split
  · next hc => exact ⟨.escaped .backslash, rfl, hc.symm⟩
  next hBackslash =>
  split
  · next hc => exact ⟨.escaped .newline, rfl, hc.symm⟩
  split
  · next hc => exact ⟨.escaped .tab, rfl, hc.symm⟩
  split
  · next hc => exact ⟨.escaped .carriageReturn, rfl, hc.symm⟩
  split
  · next hc => exact ⟨.escaped .zero, rfl, hc.symm⟩
  · exact ⟨.plain c hQuote hBackslash, rfl, rfl⟩

theorem exists_items
    (cs : List Char) :
    ∃ items : List TextItem,
      items.flatMap TextItem.chars = cs.flatMap escapedChar ∧
        items.map TextItem.value = cs := by
  induction cs with
  | nil => exact ⟨[], rfl, rfl⟩
  | cons c cs ih =>
      rcases exists_item c with ⟨item, hChars, hValue⟩
      rcases ih with ⟨items, hAll, hValues⟩
      refine ⟨item :: items, ?_, ?_⟩
      · rw [List.flatMap_cons, List.flatMap_cons, hChars, hAll]
      · rw [List.map_cons, hValue, hValues]

------------------------------------------------------------
-- Numbers
------------------------------------------------------------

theorem someDigits_toDigits
    (n : Nat) :
    SomeDigits (Nat.toDigits 10 n) :=
  ⟨Nat.toDigits_ne_nil, allDigits_toDigits n⟩

/- The form in which an integer is written. -/
def WholeForm.ofInt (k : Int) : WholeForm where
  negative := decide (k < 0)
  digits := Nat.toDigits 10 k.natAbs
  some_digits := someDigits_toDigits k.natAbs

theorem WholeForm.chars_ofInt
    (k : Int) :
    String.ofList (ofInt k).chars = Literal.intText k := by
  unfold Literal.intText chars ofInt signChars
  by_cases hSign : k < 0 <;> simp [hSign]

/- The sign and the size of a number make the number. -/
theorem signed_natAbs
    (k : Int) :
    signed (decide (k < 0)) k.natAbs = k := by
  unfold signed
  by_cases hSign : k < 0
  · rw [decide_eq_true hSign, if_pos rfl]
    omega
  · rw [decide_eq_false hSign, if_neg Bool.false_ne_true]
    omega

theorem WholeForm.value_ofInt
    (k : Int) :
    (ofInt k).value = k := by
  unfold value ofInt
  rw [Nat.ofDigitChars_ten_toDigits, signed_natAbs]

/- The form in which an exponent is written. -/
def ExponentForm.ofInt (k : Int) : ExponentForm where
  letter := 'e'
  sign := if k < 0 then .minus else .absent
  digits := Nat.toDigits 10 k.natAbs
  letter_eq := Or.inl rfl
  some_digits := someDigits_toDigits k.natAbs

theorem ExponentForm.value_ofInt
    (k : Int) :
    (ofInt k).value = k := by
  have hMinus : (ofInt k).sign.isMinus = decide (k < 0) := by
    unfold ofInt
    by_cases hSign : k < 0 <;>
      simp [hSign, ExponentSign.isMinus]
  rw [value, hMinus, ofInt, Nat.ofDigitChars_ten_toDigits,
    signed_natAbs]

theorem ExponentForm.chars_ofInt
    (k : Int) :
    (ofInt k).chars =
      'e' :: (Numeral.exponentSign false k
        ++ Nat.toDigits 10 k.natAbs) := by
  unfold chars ofInt Numeral.exponentSign
  by_cases hSign : k < 0 <;> simp [hSign, ExponentSign.chars]

/- The fraction of a numeral, if it has digits. -/
def fractionOf (n : Numeral) : Option (List Char) :=
  if n.fraction = [] then none else some n.fraction

theorem fractionChars_fractionOf
    (n : Numeral) :
    fractionChars (fractionOf n) = n.fractionChars := by
  unfold fractionOf Numeral.fractionChars
  split <;> rfl

theorem getD_fractionOf
    (n : Numeral) :
    (fractionOf n).getD [] = n.fraction := by
  unfold fractionOf
  split
  · next hNone => exact hNone.symm
  · rfl

theorem exponentChars_map_ofInt
    (n : Numeral) :
    exponentChars (n.exponent.map ExponentForm.ofInt) =
      n.exponentChars false := by
  unfold Numeral.exponentChars
  cases n.exponent with
  | none => rfl
  | some k => exact ExponentForm.chars_ofInt k

theorem exponentValue_map_ofInt
    (exponent : Option Int) :
    exponentValue (exponent.map ExponentForm.ofInt) =
      exponent.getD 0 := by
  cases exponent with
  | none => rfl
  | some k => exact ExponentForm.value_ofInt k

/- A numeral with a fraction or an exponent is a float. -/
def FloatForm.ofNumeral
    (negative : Bool)
    (n : Numeral)
    (hFloat : n.IsFloat) : FloatForm where
  negative := negative
  whole := n.whole
  fraction := fractionOf n
  exponent := n.exponent.map ExponentForm.ofInt
  whole_digits :=
    ⟨by
      rcases n.no_leading_zero with h | ⟨c, cs, h, -⟩ <;>
        simp [h],
      n.whole_digits⟩
  fraction_digits := by
    intro digits hDigits
    unfold fractionOf at hDigits
    split at hDigits
    · cases hDigits
    · cases hDigits
      exact n.fraction_digits
  not_whole := by
    rcases hFloat with hFraction | hExponent
    · exact Or.inl (by simp [fractionOf, hFraction])
    · exact Or.inr (by simpa using hExponent)

section Numerals

variable
  (negative : Bool)
  {n : Numeral}
  (hFloat : n.IsFloat)

theorem FloatForm.chars_ofNumeral :
    (ofNumeral negative n hFloat).chars =
      signChars negative ++ n.chars false := by
  rw [chars, unsignedChars, Numeral.chars,
    ← fractionChars_fractionOf, ← exponentChars_map_ofInt]
  rfl

theorem FloatForm.value_ofNumeral :
    (ofNumeral negative n hFloat).value =
      n.decimal.toDouble negative := by
  rw [value, decimalOf, Numeral.decimal, ofNumeral,
    getD_fractionOf, exponentValue_map_ofInt]

end Numerals

/- A finite double is written as a float that has its bits. -/
theorem exists_float
    {x : Double}
    (hFinite : x.isFinite = true) :
    ∃ f : FloatForm,
      FloatLayout.source.write x = String.ofList f.chars ∧
        f.value = x := by
  rcases FloatLayout.source.exists_numeral hFinite with
    ⟨n, hChars, hMagnitude, hFloat, -⟩
  refine
    ⟨FloatForm.ofNumeral x.isNegative n (hFloat rfl), ?_, ?_⟩
  · rw [FloatForm.chars_ofNumeral, signChars]
    exact String.toList_inj.mp
      (hChars.trans String.toList_ofList.symm)
  · rw [FloatForm.value_ofNumeral, Decimal.toDouble, hMagnitude]
    exact Double.ofMagnitude_magnitudeBits x

------------------------------------------------------------
-- Sources
------------------------------------------------------------

/- A literal is written in a form that stands for it. -/
theorem exists_form_of_source
    {value : Literal}
    (hFinite : value.IsFinite) :
    ∃ form : LiteralForm,
      source value = String.ofList form.chars ∧
        form.Denotes value := by
  cases value with
  | text s =>
      rcases exists_items s.toList with ⟨items, hChars, hValues⟩
      have hText := LiteralForm.Denotes.text items
      rw [hValues, String.ofList_toList] at hText
      refine ⟨.text items, ?_, hText⟩
      rw [source, LiteralForm.chars, hChars, List.cons_append]
  | int n =>
      refine
        ⟨.whole (.ofInt n.toInt),
          (WholeForm.chars_ofInt n.toInt).symm, ?_⟩
      exact .whole _ n (WholeForm.value_ofInt n.toInt).symm
  | float x =>
      have hx := hFinite x rfl
      rcases exists_float hx with ⟨f, hChars, rfl⟩
      exact ⟨.float f, hChars, .float f hx⟩
  | bool b =>
      refine ⟨.bool b, ?_, .bool b⟩
      rw [source, LiteralForm.chars, String.ofList_toList]

/- A value that is read is finite. -/
theorem isFinite_of_literal?
    {src : String}
    {value : Literal}
    (h : literal? src = some value) :
    value.IsFinite := by
  rcases literal?_eq_some_iff.mp h with ⟨form, -, hDenotes⟩
  rintro x rfl
  cases hDenotes with
  | float f hFinite => exact hFinite

theorem literal?_source
    {value : Literal}
    (hFinite : value.IsFinite) :
    literal? (source value) = some value := by
  rcases exists_form_of_source hFinite with
    ⟨form, hSource, hDenotes⟩
  rw [hSource]
  exact literal?_chars hDenotes

/-
  A literal is read back from its source exactly if it is not
  a float without a finite value.  No other literal is ever
  read, so every literal that is read has a source.
-/
theorem sources_read_back
    (value : Literal) :
    (literal? (source value) = some value ↔ value.IsFinite) ∧
      ∀ src, literal? src = some value →
        literal? (source value) = some value := by
  refine ⟨⟨isFinite_of_literal?, literal?_source⟩, ?_⟩
  intro src hRead
  exact literal?_source (isFinite_of_literal? hRead)

end Expression

end TemplateTree
