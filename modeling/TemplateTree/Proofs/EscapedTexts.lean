import TemplateTree.Text.Escaped

/-
  String literals and what they stand for.

  Main declarations:
    * `Text.Spells`
    * `Text.spells_escaped`
    * `Text.Spells.isVisible`
    * `Text.Spells.unescape_eq`
    * `Text.cutLiteral?`
    * `Text.Spells.cutLiteral?_append`

  The body of a string literal is a row of visible characters
  and escapes, so a line never ends inside a literal.  Whoever
  looks for the quote that ends a literal need not know what
  its escapes mean.
-/

------------------------------------------------------------
-- Hexadecimal Numbers
------------------------------------------------------------

namespace TemplateTree

namespace Text

theorem hexValue?_digitChar
    {d : Nat}
    (hd : d < 16) :
    hexValue? (Nat.digitChar d) = some d := by
  revert d
  decide

/- Digits are read on from the number of those before them. -/
theorem hexNumber?_append
    (cs ds : List Char)
    (n : Nat) :
    hexNumber? (cs ++ ds) n =
      (hexNumber? cs n).bind fun m => hexNumber? ds m := by
  induction cs generalizing n with
  | nil => rfl
  | cons c cs ih =>
      rw [List.cons_append, hexNumber?, hexNumber?]
      cases hexValue? c with
      | none => rfl
      | some d => exact ih _

/- The digits of a number are read as the number. -/
theorem hexNumber?_toDigits
    (n : Nat) :
    hexNumber? (Nat.toDigits 16 n) 0 = some n := by
  induction n using Nat.strongRecOn with
  | ind n ih =>
      rw [Nat.toDigits_eq_if (by decide)]
      split
      · next hSmall =>
          simp [hexNumber?, hexValue?_digitChar hSmall]
      · next hLarge =>
          have hDigit : n % 16 < 16 :=
            Nat.mod_lt n (by decide)
          rw [hexNumber?_append, ih (n / 16) (by omega)]
          simp [hexNumber?, hexValue?_digitChar hDigit]
          omega

/- A character that can be seen, or a space. -/
def IsVisible (c : Char) : Prop :=
  0x20 ≤ c.toNat ∧ c.toNat ≤ 0x7e

instance (c : Char) : Decidable (IsVisible c) :=
  inferInstanceAs (Decidable (_ ∧ _))

theorem isVisible_of_all
    {cs : List Char}
    (hAll : cs.all (fun c => decide (IsVisible c)) = true)
    {d : Char}
    (hd : d ∈ cs) :
    IsVisible d := by
  apply of_decide_eq_true
  exact List.all_eq_true.mp hAll d hd

theorem isVisible_of_hexValue?
    {c : Char}
    {d : Nat}
    (h : hexValue? c = some d) :
    IsVisible c ∧ c ≠ '"' ∧ c ≠ '\\' ∧ c ≠ '\x7d' := by
  refine ⟨?_, ?_, ?_, ?_⟩
  · unfold hexValue? at h
    split at h
    · next hRange =>
        have hLow : 48 ≤ c.toNat := hRange.1
        have hHigh : c.toNat ≤ 57 := hRange.2
        exact ⟨by omega, by omega⟩
    split at h
    · next hRange =>
        have hLow : 97 ≤ c.toNat := hRange.1
        have hHigh : c.toNat ≤ 102 := hRange.2
        exact ⟨by omega, by omega⟩
    split at h
    · next hRange =>
        have hLow : 65 ≤ c.toNat := hRange.1
        have hHigh : c.toNat ≤ 70 := hRange.2
        exact ⟨by omega, by omega⟩
    · cases h
  all_goals
    rintro rfl
    cases h

theorem exists_hexValue?_of_mem
    {digits : List Char}
    {m n : Nat}
    (hNumber : hexNumber? digits m = some n)
    {c : Char}
    (hc : c ∈ digits) :
    ∃ d, hexValue? c = some d := by
  induction digits generalizing m with
  | nil => cases hc
  | cons first digits ih =>
      rcases Option.bind_eq_some_iff.mp hNumber with
        ⟨d, hd, hRest⟩
      rcases List.mem_cons.mp hc with rfl | hTail
      · exact ⟨d, hd⟩
      · exact ih hRest hTail

------------------------------------------------------------
-- Bodies Of String Literals
------------------------------------------------------------

/- The letters of short escapes with what they stand for. -/
def shortEscapes : List (Char × Char) :=
  [('n', '\n'), ('r', '\r'), ('t', '\t'), ('\'', '\''),
    ('"', '"'), ('\\', '\\')]

/- Up to six hexadecimal digits of a number. -/
structure IsHexadecimal
    (digits : List Char)
    (n : Nat) : Prop where
  some_digits : digits ≠ []
  few_digits : digits.length ≤ 6
  value : hexNumber? digits 0 = some n

/- The body of a string literal, and the text it stands for. -/
inductive Spells : List Char → List Char → Prop
| nil : Spells [] []
| plain
    {c : Char}
    (hVisible : IsVisible c)
    (hQuote : c ≠ '"')
    (hBackslash : c ≠ '\\')
    {body text : List Char}
    (hRest : Spells body text) :
    Spells (c :: body) (c :: text)
| short
    {letter c : Char}
    (hEscape : (letter, c) ∈ shortEscapes)
    {body text : List Char}
    (hRest : Spells body text) :
    Spells ('\\' :: letter :: body) (c :: text)
| number
    {digits : List Char}
    {c : Char}
    (hDigits : IsHexadecimal digits c.toNat)
    {body text : List Char}
    (hRest : Spells body text) :
    Spells
      ('\\' :: 'u' :: '\x7b' :: (digits ++ '\x7d' :: body))
      (c :: text)

/- A short escape is visible and read as its character. -/
theorem shortEscape?_of_mem
    {letter c : Char}
    (hEscape : (letter, c) ∈ shortEscapes) :
    IsVisible letter ∧ letter ≠ 'u' ∧
      shortEscape? letter = some c := by
  have hAll :
      shortEscapes.all (fun escape =>
        decide
          (IsVisible escape.1 ∧ escape.1 ≠ 'u' ∧
            shortEscape? escape.1 = some escape.2)) = true := by
    decide
  exact of_decide_eq_true (List.all_eq_true.mp hAll _ hEscape)

/- All of a body is visible. -/
theorem Spells.isVisible
    {body text : List Char}
    (h : Spells body text) :
    ∀ c ∈ body, IsVisible c := by
  induction h with
  | nil => simp
  | plain hVisible hQuote hBackslash hRest ih =>
      exact List.forall_mem_cons.mpr ⟨hVisible, ih⟩
  | short hEscape hRest ih =>
      have hLetter := (shortEscape?_of_mem hEscape).1
      simp only [List.forall_mem_cons]
      exact ⟨by decide, hLetter, ih⟩
  | @number digits c hDigits body text hRest ih =>
      simp only [List.forall_mem_cons, List.forall_mem_append]
      refine ⟨by decide, by decide, by decide, ?_, by decide, ih⟩
      intro d hd
      rcases exists_hexValue?_of_mem hDigits.value hd with
        ⟨v, hv⟩
      exact (isVisible_of_hexValue? hv).1

------------------------------------------------------------
-- Writing
------------------------------------------------------------

/- Six digits are enough for every character. -/
theorem isHexadecimal_toDigits
    (c : Char) :
    IsHexadecimal (Nat.toDigits 16 c.toNat) c.toNat where
  some_digits := Nat.toDigits_ne_nil
  few_digits := by
    have hValid :
        c.toNat < 0xd800 ∨
          (0xdfff < c.toNat ∧ c.toNat < 0x110000) :=
      c.valid
    apply (Nat.length_toDigits_le_iff (by decide) (by decide)).mpr
    omega
  value := hexNumber?_toDigits c.toNat

/- What is written for a character stands for it. -/
theorem Spells.escapedChar_append
    (c : Char)
    {body text : List Char}
    (hRest : Spells body text) :
    Spells (escapedChar c ++ body) (c :: text) := by
  unfold escapedChar
  iterate 6
    split
    · next hc =>
        rw [hc]
        exact .short (by decide) hRest
  split
  · next hQuote hBackslash hVisible =>
      exact .plain hVisible hQuote hBackslash hRest
  · have hNumber := Spells.number (isHexadecimal_toDigits c) hRest
    simpa [braced] using hNumber

/- What is written for a text stands for the text. -/
theorem spells_escaped
    (cs : List Char) :
    Spells (escaped cs) cs := by
  induction cs with
  | nil => exact .nil
  | cons c cs ih => exact ih.escapedChar_append c

/- The body of a string literal is made of visible characters. -/
theorem isVisible_of_mem_escaped
    {cs : List Char}
    {d : Char}
    (hd : d ∈ escaped cs) :
    IsVisible d :=
  (spells_escaped cs).isVisible d hd

------------------------------------------------------------
-- Reading
------------------------------------------------------------

/- A character has the number that is written for it. -/
theorem charOfNumber?_toNat
    (c : Char) :
    charOfNumber? c.toNat = some c := by
  have hValid : c.toNat.isValidChar := c.valid
  unfold charOfNumber?
  rw [dif_pos hValid]
  rfl

/- The digits up to a closing brace are those of a number. -/
theorem unescapeFrom_number
    {digits : List Char}
    (hDigits : ∀ c ∈ digits, c ≠ '\x7d')
    (before rest : List Char) :
    unescapeFrom (.number before)
        (digits ++ '\x7d' :: rest) =
      ((hexNumber? (before.reverse ++ digits) 0).bind
        charOfNumber?).bind fun d =>
          (unescapeFrom .plain rest).map (d :: ·) := by
  induction digits generalizing before with
  | nil =>
      rw [List.nil_append, unescapeFrom, if_pos rfl,
        List.append_nil]
  | cons c digits ih =>
      rw [List.forall_mem_cons] at hDigits
      rw [List.cons_append, unescapeFrom,
        if_neg hDigits.1, ih hDigits.2]
      simp

/- What a body stands for is what it is read as. -/
theorem Spells.unescape_eq
    {body text : List Char}
    (h : Spells body text) :
    unescape body = some text := by
  unfold unescape
  induction h with
  | nil => rfl
  | plain hVisible hQuote hBackslash hRest ih =>
      rw [unescapeFrom, if_neg hBackslash, if_neg hQuote, ih,
        Option.map_some]
  | short hEscape hRest ih =>
      rcases shortEscape?_of_mem hEscape with
        ⟨-, hLetter, hChar⟩
      rw [unescapeFrom, if_pos rfl, unescapeFrom,
        if_neg hLetter, hChar, Option.bind_some, ih,
        Option.map_some]
  | @number digits c hDigits body text hRest ih =>
      have hBrace : ∀ d ∈ digits, d ≠ '\x7d' := by
        intro d hd
        rcases exists_hexValue?_of_mem hDigits.value hd with
          ⟨v, hv⟩
        exact (isVisible_of_hexValue? hv).2.2.2
      have hNumber := unescapeFrom_number hBrace [] body
      rw [List.reverse_nil, List.nil_append, hDigits.value,
        Option.bind_some, charOfNumber?_toNat,
        Option.bind_some, ih, Option.map_some] at hNumber
      simpa [unescapeFrom] using hNumber

/- What is written for a text reads back as the text. -/
theorem unescape_escaped
    (cs : List Char) :
    unescape (escaped cs) = some cs :=
  (spells_escaped cs).unescape_eq

------------------------------------------------------------
-- Ends Of String Literals
------------------------------------------------------------

/-
  The body of a string literal and what follows the literal,
  after the opening quote.  A backslash takes the character
  after it along, whatever it is.
-/
def cutLiteral? : List Char → Option (List Char × List Char)
| [] => none
| '\\' :: rest =>
    match rest with
    | [] => none
    | c :: rest' =>
        (cutLiteral? rest').map fun cut =>
          ('\\' :: c :: cut.1, cut.2)
| c :: rest =>
    if c = '"' then some ([], rest)
    else (cutLiteral? rest).map fun cut => (c :: cut.1, cut.2)

/- Characters that end nothing are all taken. -/
theorem cutLiteral?_append
    {cs : List Char}
    (hcs : ∀ c ∈ cs, c ≠ '"' ∧ c ≠ '\\')
    (rest : List Char) :
    cutLiteral? (cs ++ rest) =
      (cutLiteral? rest).map fun cut => (cs ++ cut.1, cut.2) := by
  induction cs with
  | nil => simp
  | cons c cs ih =>
      rw [List.forall_mem_cons] at hcs
      rw [List.cons_append, cutLiteral?, if_neg hcs.1.1, ih hcs.2]
      · simp [Function.comp_def]
      · exact hcs.1.2

/- A literal ends where its body does, whatever follows. -/
theorem Spells.cutLiteral?_append
    {body text : List Char}
    (h : Spells body text)
    (rest : List Char) :
    cutLiteral? (body ++ '"' :: rest) = some (body, rest) := by
  induction h with
  | nil => rfl
  | plain hVisible hQuote hBackslash hRest ih =>
      rw [List.cons_append, cutLiteral?, if_neg hQuote, ih,
        Option.map_some]
      exact hBackslash
  | short hEscape hRest ih =>
      rw [List.cons_append, List.cons_append, cutLiteral?, ih,
        Option.map_some]
  | @number digits c hDigits body text hRest ih =>
      have hPlain :
          ∀ d ∈ '\x7b' :: (digits ++ ['\x7d']),
            d ≠ '"' ∧ d ≠ '\\' := by
        intro d hd
        rw [List.mem_cons, List.mem_append,
          List.mem_singleton] at hd
        rcases hd with rfl | hd | rfl
        · decide
        · rcases exists_hexValue?_of_mem hDigits.value hd with
            ⟨v, hv⟩
          have hHex := isVisible_of_hexValue? hv
          exact ⟨hHex.2.1, hHex.2.2.1⟩
        · decide
      have hCut := Text.cutLiteral?_append hPlain (body ++ '"' :: rest)
      rw [ih] at hCut
      simpa [cutLiteral?] using hCut

end Text

end TemplateTree
