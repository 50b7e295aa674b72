import TemplateTree.Proofs.NumberForms

/-
  The expressions that are literals.

  Main declarations:
    * `Expression.TextItem`
    * `Expression.readText_eq_some_iff`
    * `Expression.LiteralForm`
    * `Expression.LiteralForm.Denotes`
    * `Expression.literal?_eq_some_iff`
    * `Expression.literals_are_their_grammar`

  A form is the syntax of a literal: which parts it has and
  how they are written.  Each reader is compared with its
  form, in both directions.
-/

------------------------------------------------------------
-- Texts
------------------------------------------------------------

namespace TemplateTree

namespace Expression

/- The characters that are written with a backslash. -/
inductive Escape where
| newline
| tab
| carriageReturn
| zero
| backslash
| quote
deriving DecidableEq

namespace Escape

/- The letter after the backslash. -/
def letter : Escape → Char
| newline => 'n'
| tab => 't'
| carriageReturn => 'r'
| zero => '0'
| backslash => '\\'
| quote => '"'

/- The character that is meant. -/
def value : Escape → Char
| newline => '\n'
| tab => '\t'
| carriageReturn => '\r'
| zero => '\x00'
| backslash => '\\'
| quote => '"'

end Escape

theorem escape?_letter
    (e : Escape) :
    escape? e.letter = some e.value := by
  cases e <;> decide

theorem exists_escape
    {c d : Char}
    (h : escape? c = some d) :
    ∃ e : Escape, c = e.letter ∧ d = e.value := by
  unfold escape? at h
  split at h
  · next hc => cases h; exact ⟨.newline, hc, rfl⟩
  split at h
  · next hc => cases h; exact ⟨.tab, hc, rfl⟩
  split at h
  · next hc => cases h; exact ⟨.carriageReturn, hc, rfl⟩
  split at h
  · next hc => cases h; exact ⟨.zero, hc, rfl⟩
  split at h
  · next hc => cases h; exact ⟨.backslash, hc, rfl⟩
  split at h
  · next hc => cases h; exact ⟨.quote, hc, rfl⟩
  · cases h

/- One character of a text, as itself or with a backslash. -/
inductive TextItem where
| plain
    (c : Char)
    (not_quote : c ≠ '"')
    (not_backslash : c ≠ '\\')
| escaped (e : Escape)

namespace TextItem

/- How a character is written. -/
def chars : TextItem → List Char
| plain c _ _ => [c]
| escaped e => ['\\', e.letter]

/- The character that is meant. -/
def value : TextItem → Char
| plain c _ _ => c
| escaped e => e.value

end TextItem

/- A character of a text is read before those after it. -/
theorem readText_item
    (item : TextItem)
    (rest : List Char) :
    readText (item.chars ++ rest) =
      (readText rest).map (item.value :: ·) := by
  cases item with
  | plain c hQuote hBackslash =>
      rw [TextItem.chars, List.singleton_append, readText,
        if_neg hQuote, TextItem.value]
      exact hBackslash
  | escaped e =>
      rw [TextItem.chars, List.cons_append,
        List.singleton_append, readText, escape?_letter,
        Option.bind_some, TextItem.value]

theorem readText_items
    (items : List TextItem) :
    readText (items.flatMap TextItem.chars ++ ['"']) =
      some (items.map TextItem.value) := by
  induction items with
  | nil => rfl
  | cons item items ih =>
      rw [List.flatMap_cons, List.append_assoc, readText_item,
        ih, Option.map_some, List.map_cons]

/-
  A text is read exactly if it is a row of characters and a
  quote.  The induction follows the reader.
-/
theorem readText_eq_some_iff
    {cs text : List Char} :
    readText cs = some text ↔
      ∃ items : List TextItem,
        cs = items.flatMap TextItem.chars ++ ['"'] ∧
          text = items.map TextItem.value := by
  constructor
  · intro h
    fun_induction readText cs generalizing text with
    | case1 => cases h
    | case2 => cases h
    | case3 c rest ih =>
        rcases Option.bind_eq_some_iff.mp h with ⟨d, hd, hRest⟩
        rcases Option.map_eq_some_iff.mp hRest with
          ⟨others, hOthers, rfl⟩
        rcases exists_escape hd with ⟨e, rfl, rfl⟩
        rcases ih hOthers with ⟨items, rfl, rfl⟩
        exact ⟨.escaped e :: items, rfl, rfl⟩
    | case4 rest hEnd _ =>
        cases h
        exact ⟨[], by rw [List.isEmpty_iff.mp hEnd]; rfl, rfl⟩
    | case5 => cases h
    | case6 c rest hBackslash hQuote ih =>
        rcases Option.map_eq_some_iff.mp h with
          ⟨others, hOthers, rfl⟩
        rcases ih hOthers with ⟨items, rfl, rfl⟩
        exact ⟨.plain c hQuote hBackslash :: items, rfl, rfl⟩
  · rintro ⟨items, rfl, rfl⟩
    exact readText_items items

------------------------------------------------------------
-- Literals
------------------------------------------------------------

/- The forms that a literal can have. -/
inductive LiteralForm where
| bool (b : Bool)
| text (items : List TextItem)
| whole (w : WholeForm)
| float (f : FloatForm)

namespace LiteralForm

/- How a literal is written. -/
def chars : LiteralForm → List Char
| bool b => (Literal.boolText b).toList
| text items =>
    '"' :: (items.flatMap TextItem.chars ++ ['"'])
| whole w => w.chars
| float f => f.chars

/- The value of a literal, if its kind can hold it. -/
def value? : LiteralForm → Option Literal
| bool b => some (.bool b)
| text items =>
    some (.text (String.ofList (items.map TextItem.value)))
| whole w => intLiteral? w.value
| float f =>
    if f.value.isFinite then some (.float f.value) else none

/- The values that forms stand for, kind by kind. -/
inductive Denotes : LiteralForm → Literal → Prop
| bool (b : Bool) : Denotes (bool b) (.bool b)
| text (items : List TextItem) :
    Denotes (text items)
      (.text (String.ofList (items.map TextItem.value)))
| whole
    (w : WholeForm)
    (n : Int64)
    (hValue : n.toInt = w.value) :
    Denotes (whole w) (.int n)
| float
    (f : FloatForm)
    (hFinite : f.value.isFinite = true) :
    Denotes (float f) (.float f.value)

theorem value?_eq_some_iff
    {form : LiteralForm}
    {value : Literal} :
    form.value? = some value ↔ form.Denotes value := by
  constructor
  · intro h
    cases form with
    | bool b =>
        cases h
        exact .bool b
    | text items =>
        cases h
        exact .text items
    | whole w =>
        rcases intLiteral?_eq_some_iff.mp h with ⟨n, rfl, hn⟩
        exact .whole w n hn
    | float f =>
        rcases Option.ite_none_right_eq_some.mp h with
          ⟨hFinite, hValue⟩
        cases hValue
        exact .float f hFinite
  · intro h
    cases h with
    | bool b => rfl
    | text items => rfl
    | whole w n hn =>
        exact intLiteral?_eq_some_iff.mpr ⟨n, rfl, hn⟩
    | float f hFinite => exact if_pos hFinite

end LiteralForm

/- A text is read after its opening quote. -/
theorem literal?_of_quote
    {src : String}
    {body : List Char}
    (hTrim : Text.trimChars src.toList = '"' :: body) :
    literal? src =
      (readText body).map fun text =>
        .text (String.ofList text) := by
  unfold literal?
  rw [hTrim]
  rfl

/- Characters that start as a number does. -/
def StartsNumber (cs : List Char) : Prop :=
  ∃ c rest, cs = c :: rest ∧ (c = '-' ∨ c.isDigit = true)

theorem startsNumber_signChars
    (negative : Bool)
    {c : Char}
    (hc : c.isDigit = true)
    (cs : List Char) :
    StartsNumber (signChars negative ++ c :: cs) := by
  cases negative with
  | true => exact ⟨'-', c :: cs, rfl, Or.inl rfl⟩
  | false => exact ⟨c, cs, rfl, Or.inr hc⟩

/- What starts as a number is read as one. -/
theorem literal?_of_startsNumber
    {src : String}
    {cs : List Char}
    (hTrim : Text.trimChars src.toList = cs)
    (hStart : StartsNumber cs) :
    literal? src = readNumber cs := by
  rcases hStart with ⟨c, rest, rfl, hc⟩
  have hOther {d : Char} (hMinus : d ≠ '-')
      (hDigit : d.isDigit = false) : c ≠ d := by
    rintro rfl
    rcases hc with rfl | hc
    · exact hMinus rfl
    · rw [hDigit] at hc
      cases hc
  have hTrue : c :: rest ≠ "true".toList := by
    intro h
    exact hOther (by decide) (by decide) (List.cons.inj h).1
  have hFalse : c :: rest ≠ "false".toList := by
    intro h
    exact hOther (by decide) (by decide) (List.cons.inj h).1
  have hQuote : c ≠ '"' := hOther (by decide) (by decide)
  unfold literal?
  rw [hTrim]
  simp only [if_neg hTrue, if_neg hFalse]
  split
  · next body hBody =>
      exact absurd (List.cons.inj hBody).1 hQuote
  · rfl

/- A form is read as its value. -/
theorem literal?_of_form
    {src : String}
    {form : LiteralForm}
    (hTrim : Text.trimChars src.toList = form.chars) :
    literal? src = form.value? := by
  cases form with
  | bool b =>
      unfold literal?
      rw [hTrim]
      cases b <;> rfl
  | text items =>
      rw [literal?_of_quote hTrim, readText_items]
      rfl
  | whole w =>
      rcases w.some_digits.exists_cons with ⟨c, cs, hDigits, hc⟩
      have hStart : StartsNumber w.chars := by
        rw [WholeForm.chars, hDigits]
        exact startsNumber_signChars w.negative hc cs
      rw [literal?_of_startsNumber hTrim hStart]
      exact readNumber_whole w
  | float f =>
      rcases f.exists_cons with ⟨c, cs, hChars, hc⟩
      have hStart : StartsNumber f.chars := by
        rw [FloatForm.chars, hChars]
        exact startsNumber_signChars f.negative hc cs
      rw [literal?_of_startsNumber hTrim hStart]
      exact readNumber_float f

/- Whatever is read has a form. -/
theorem exists_form_of_literal?
    {src : String}
    {value : Literal}
    (h : literal? src = some value) :
    ∃ form : LiteralForm,
      Text.trimChars src.toList = form.chars := by
  unfold literal? at h
  simp only at h
  split at h
  · next hTrue => exact ⟨.bool true, hTrue⟩
  split at h
  · next hFalse => exact ⟨.bool false, hFalse⟩
  split at h
  · next body hBody =>
      rcases Option.map_eq_some_iff.mp h with ⟨text, hText, -⟩
      rcases readText_eq_some_iff.mp hText with ⟨items, rfl, -⟩
      exact ⟨.text items, hBody⟩
  · rcases exists_form_of_readNumber h with ⟨w, hw⟩ | ⟨f, hf⟩
    · exact ⟨.whole w, hw⟩
    · exact ⟨.float f, hf⟩

/- A literal is read exactly if a form of it is written. -/
theorem literal?_eq_some_iff
    {src : String}
    {value : Literal} :
    literal? src = some value ↔
      ∃ form : LiteralForm,
        Text.trimChars src.toList = form.chars ∧
          form.Denotes value := by
  constructor
  · intro h
    rcases exists_form_of_literal? h with ⟨form, hTrim⟩
    rw [literal?_of_form hTrim] at h
    exact ⟨form, hTrim, LiteralForm.value?_eq_some_iff.mp h⟩
  · rintro ⟨form, hTrim, hDenotes⟩
    rw [literal?_of_form hTrim]
    exact LiteralForm.value?_eq_some_iff.mpr hDenotes

theorem literal?_eq_none_iff
    {src : String} :
    literal? src = none ↔
      ∀ form : LiteralForm,
        Text.trimChars src.toList = form.chars →
          form.value? = none := by
  constructor
  · intro h form hTrim
    rw [← literal?_of_form hTrim, h]
  · intro h
    cases hSome : literal? src with
    | none => rfl
    | some value =>
        rcases exists_form_of_literal? hSome with ⟨form, hTrim⟩
        rw [literal?_of_form hTrim, h form hTrim] at hSome
        cases hSome

------------------------------------------------------------
-- The Grammar
------------------------------------------------------------

/-
  What the grammar of literals answers for an expression that
  has no white space around it.  An integer is never a float,
  and one that 64 bits cannot hold is no literal.
-/
structure ReadsGrammar
    (cs : List Char)
    (answer : Option Literal) : Prop where
  bool :
    ∀ b, answer = some (.bool b) ↔
      cs = (Literal.boolText b).toList
  text :
    ∀ x, answer = some (.text x) ↔
      ∃ items : List TextItem,
        cs = '"' :: (items.flatMap TextItem.chars ++ ['"']) ∧
          x = String.ofList (items.map TextItem.value)
  int :
    ∀ n, answer = some (.int n) ↔
      ∃ w : WholeForm, cs = w.chars ∧ n.toInt = w.value
  float :
    ∀ x, answer = some (.float x) ↔
      ∃ f : FloatForm,
        cs = f.chars ∧ x = f.value ∧ x.isFinite = true
  other :
    answer = none ↔
      (∀ b, cs ≠ (Literal.boolText b).toList) ∧
        (∀ items : List TextItem,
          cs ≠ '"' :: (items.flatMap TextItem.chars ++ ['"'])) ∧
        (∀ w : WholeForm, cs = w.chars → IsOutside w.value) ∧
        ∀ f : FloatForm, cs = f.chars → f.value.isFinite = false
  outside :
    ∀ w : WholeForm,
      cs = w.chars → IsOutside w.value → answer = none

section Kinds

variable {src : String}

theorem literal?_eq_bool_iff
    {b : Bool} :
    literal? src = some (.bool b) ↔
      Text.trimChars src.toList =
        (Literal.boolText b).toList := by
  rw [literal?_eq_some_iff]
  constructor
  · rintro ⟨form, hTrim, hDenotes⟩
    cases hDenotes
    exact hTrim
  · intro hTrim
    exact ⟨.bool b, hTrim, .bool b⟩

theorem literal?_eq_text_iff
    {x : String} :
    literal? src = some (.text x) ↔
      ∃ items : List TextItem,
        Text.trimChars src.toList =
            '"' :: (items.flatMap TextItem.chars ++ ['"']) ∧
          x = String.ofList (items.map TextItem.value) := by
  rw [literal?_eq_some_iff]
  constructor
  · rintro ⟨form, hTrim, hDenotes⟩
    cases hDenotes with
    | text items => exact ⟨items, hTrim, rfl⟩
  · rintro ⟨items, hTrim, rfl⟩
    exact ⟨.text items, hTrim, .text items⟩

theorem literal?_eq_int_iff
    {n : Int64} :
    literal? src = some (.int n) ↔
      ∃ w : WholeForm,
        Text.trimChars src.toList = w.chars ∧
          n.toInt = w.value := by
  rw [literal?_eq_some_iff]
  constructor
  · rintro ⟨form, hTrim, hDenotes⟩
    cases hDenotes with
    | whole w n hn => exact ⟨w, hTrim, hn⟩
  · rintro ⟨w, hTrim, hn⟩
    exact ⟨.whole w, hTrim, .whole w n hn⟩

theorem literal?_eq_float_iff
    {x : Double} :
    literal? src = some (.float x) ↔
      ∃ f : FloatForm,
        Text.trimChars src.toList = f.chars ∧
          x = f.value ∧ x.isFinite = true := by
  rw [literal?_eq_some_iff]
  constructor
  · rintro ⟨form, hTrim, hDenotes⟩
    cases hDenotes with
    | float f hFinite => exact ⟨f, hTrim, rfl, hFinite⟩
  · rintro ⟨f, hTrim, rfl, hFinite⟩
    exact ⟨.float f, hTrim, .float f hFinite⟩

/- No other form is a literal, and a number may be too large. -/
theorem literal?_eq_none_iff_forms :
    literal? src = none ↔
      (∀ b,
        Text.trimChars src.toList ≠
          (Literal.boolText b).toList) ∧
        (∀ items : List TextItem,
          Text.trimChars src.toList ≠
            '"' :: (items.flatMap TextItem.chars ++ ['"'])) ∧
        (∀ w : WholeForm,
          Text.trimChars src.toList = w.chars →
            IsOutside w.value) ∧
        ∀ f : FloatForm,
          Text.trimChars src.toList = f.chars →
            f.value.isFinite = false := by
  rw [literal?_eq_none_iff]
  constructor
  · intro h
    refine ⟨?_, ?_, ?_, ?_⟩
    · intro b hTrim
      cases h (.bool b) hTrim
    · intro items hTrim
      cases h (.text items) hTrim
    · intro w hTrim
      exact intLiteral?_eq_none_iff.mp (h (.whole w) hTrim)
    · intro f hTrim
      have hNone := h (.float f) hTrim
      simpa [LiteralForm.value?] using hNone
  · rintro ⟨hBool, hText, hWhole, hFloat⟩ form hTrim
    cases form with
    | bool b => exact absurd hTrim (hBool b)
    | text items => exact absurd hTrim (hText items)
    | whole w => exact intLiteral?_eq_none_iff.mpr (hWhole w hTrim)
    | float f => simp [LiteralForm.value?, hFloat f hTrim]

end Kinds

/- Literals are read by their grammar, and nothing else is. -/
theorem literals_are_their_grammar
    (src : String) :
    ReadsGrammar (Text.trimChars src.toList) (literal? src) where
  bool _ := literal?_eq_bool_iff
  text _ := literal?_eq_text_iff
  int _ := literal?_eq_int_iff
  float _ := literal?_eq_float_iff
  other := literal?_eq_none_iff_forms
  outside w hTrim hOutside := by
    have hWhole : literal? src = intLiteral? w.value :=
      literal?_of_form (show _ = (LiteralForm.whole w).chars from hTrim)
    rw [hWhole]
    exact intLiteral?_eq_none_iff.mpr hOutside

end Expression

end TemplateTree
