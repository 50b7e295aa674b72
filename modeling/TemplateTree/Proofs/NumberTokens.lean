import TemplateTree.Expression
import TemplateTree.Proofs.JsonReading

/-
  The numbers that stand in a JSON text.

  Main declarations:
    * `Json.words`
    * `Json.words_append`
    * `Json.wordsFrom_string`
    * `Json.isWhole`
    * `Json.wholeValue`

  The words of a text are found without reading it: they are
  the longest runs of bytes between white space, punctuation
  and strings.  A reader that takes a string takes no part of
  a word.
-/

------------------------------------------------------------
-- Words
------------------------------------------------------------

namespace TemplateTree

namespace Json

/- White space and punctuation. -/
def isMark (b : UInt8) : Bool :=
  isBlank b || b == byte '[' || b == byte ']' || b == byte ','
    || b == byte '\x7b' || b == byte '\x7d' || b == byte ':'

/- A byte that can be part of a word. -/
def isPlain (b : UInt8) : Bool :=
  !isMark b && b != byte '"'

/-
  What is open between two bytes of a text: nothing, a word
  whose bytes are given in reverse, a string, or a string just
  after a backslash.
-/
inductive Opened where
| nothing
| word (before : List UInt8)
| string
| escape
deriving DecidableEq, Repr

/- The words of a text that goes on with something open. -/
def wordsFrom : Opened → List UInt8 → List (List UInt8)
| .word before, [] => [before.reverse]
| _, [] => []
| .nothing, b :: rest =>
    if b = byte '"' then wordsFrom .string rest
    else if isMark b then wordsFrom .nothing rest
    else wordsFrom (.word [b]) rest
| .word before, b :: rest =>
    if b = byte '"' then before.reverse :: wordsFrom .string rest
    else if isMark b then
      before.reverse :: wordsFrom .nothing rest
    else wordsFrom (.word (b :: before)) rest
| .string, b :: rest =>
    if b = byte '"' then wordsFrom .nothing rest
    else if b = byte '\\' then wordsFrom .escape rest
    else wordsFrom .string rest
| .escape, _ :: rest => wordsFrom .string rest

/- The words of a text, outside of its strings. -/
def words (bytes : List UInt8) : List (List UInt8) :=
  wordsFrom .nothing bytes

/- Bytes that do not go on with a word. -/
def EndsWord (rest : List UInt8) : Prop :=
  ∀ b ∈ rest.head?, isPlain b = false

theorem isPlain_iff
    {b : UInt8} :
    isPlain b = true ↔ isMark b = false ∧ b ≠ byte '"' := by
  simp [isPlain]

theorem words_mark
    {b : UInt8}
    (hb : isMark b = true)
    (rest : List UInt8) :
    words (b :: rest) = words rest := by
  have hQuote : b ≠ byte '"' := by
    rintro rfl
    revert hb
    decide
  rw [words, wordsFrom, if_neg hQuote, if_pos hb, words]

theorem words_quote
    (rest : List UInt8) :
    words (byte '"' :: rest) = wordsFrom .string rest := by
  rw [words, wordsFrom, if_pos rfl]

/- White space is not part of any word. -/
theorem words_skipBlank
    (bytes : List UInt8) :
    words (skipBlank bytes) = words bytes := by
  induction bytes with
  | nil => rfl
  | cons b rest ih =>
      by_cases hb : isBlank b = true
      · have hMark : isMark b = true := by simp [isMark, hb]
        rw [skipBlank, List.dropWhile_cons_of_pos hb,
          words_mark hMark]
        exact ih
      · rw [skipBlank, List.dropWhile_cons_of_neg hb]

/- A word that is open goes on to where its bytes end. -/
theorem wordsFrom_word_append
    {cs : List UInt8}
    (hcs : ∀ b ∈ cs, isPlain b = true)
    {rest : List UInt8}
    (hEnd : EndsWord rest)
    (before : List UInt8) :
    wordsFrom (.word before) (cs ++ rest) =
      (before.reverse ++ cs) :: words rest := by
  induction cs generalizing before with
  | nil =>
      rw [List.nil_append, List.append_nil]
      cases rest with
      | nil => rfl
      | cons b rest =>
          rw [words, wordsFrom, wordsFrom]
          by_cases hQuote : b = byte '"'
          · rw [if_pos hQuote, if_pos hQuote]
          · have hMark : isMark b = true := by
              have hNot := hEnd b rfl
              simpa [isPlain, hQuote] using hNot
            rw [if_neg hQuote, if_neg hQuote, if_pos hMark,
              if_pos hMark]
  | cons b cs ih =>
      rw [List.forall_mem_cons] at hcs
      rcases isPlain_iff.mp hcs.1 with ⟨hMark, hQuote⟩
      rw [List.cons_append, wordsFrom, if_neg hQuote, hMark,
        if_neg Bool.false_ne_true, ih hcs.2]
      simp

/- Bytes of a word, with its end after them, are a word. -/
theorem words_append
    {cs : List UInt8}
    (hSome : cs ≠ [])
    (hcs : ∀ b ∈ cs, isPlain b = true)
    {rest : List UInt8}
    (hEnd : EndsWord rest) :
    words (cs ++ rest) = cs :: words rest := by
  cases cs with
  | nil => exact absurd rfl hSome
  | cons b cs =>
      rw [List.forall_mem_cons] at hcs
      rcases isPlain_iff.mp hcs.1 with ⟨hMark, hQuote⟩
      rw [List.cons_append, words, wordsFrom, if_neg hQuote,
        hMark, if_neg Bool.false_ne_true,
        wordsFrom_word_append hcs.2 hEnd]
      rfl

------------------------------------------------------------
-- Strings
------------------------------------------------------------

theorem wordsFrom_hex
    {b : UInt8}
    {n : Nat}
    (hHex : hexValue? b = some n)
    (rest : List UInt8) :
    wordsFrom .string (b :: rest) = wordsFrom .string rest := by
  have hQuote : b ≠ byte '"' := by
    rintro rfl
    cases hHex
  have hBackslash : b ≠ byte '\\' := by
    rintro rfl
    cases hHex
  rw [wordsFrom, if_neg hQuote, if_neg hBackslash]

theorem wordsFrom_hexNumber
    {a b c d : UInt8}
    {n : Nat}
    (hHex : hexNumber? a b c d = some n)
    (rest : List UInt8) :
    wordsFrom .string (a :: b :: c :: d :: rest) =
      wordsFrom .string rest := by
  unfold hexNumber? at hHex
  split at hHex
  · next x y z w ha hb hc hd =>
      rw [wordsFrom_hex ha, wordsFrom_hex hb, wordsFrom_hex hc,
        wordsFrom_hex hd]
  · cases hHex

theorem wordsFrom_backslash
    (e : UInt8)
    (rest : List UInt8) :
    wordsFrom .string (byte '\\' :: e :: rest) =
      wordsFrom .string rest := by
  have hQuote : byte '\\' ≠ byte '"' := by decide
  rw [wordsFrom, if_neg hQuote, if_pos rfl, wordsFrom]

/- A string ends for its reader where no word has begun. -/
theorem wordsFrom_stringBytes
    {bytes decoded rest : List UInt8}
    (h : readStringBytes bytes = .ok (decoded, rest)) :
    wordsFrom .string bytes = words rest := by
  -- Of the cases of the reader, five take bytes and go on.
  fun_induction readStringBytes bytes generalizing decoded rest
  all_goals try cases h
  case case2 rest =>
    rw [wordsFrom, if_pos rfl, words]
  -- Two numbers, which stand for one character.
  case case11 a b c d high hHigh _ _ s hSlash u _ a' b' c' d'
      rest' low hLow _ _ ih =>
    rcases Except.map_eq_ok_iff.mp h with
      ⟨⟨others, after⟩, hRest, hEq⟩
    have hAfter : after = rest := congrArg Prod.snd hEq
    rw [Decidable.not_not.mp hSlash, wordsFrom_backslash,
      wordsFrom_hexNumber hHigh, wordsFrom_backslash,
      wordsFrom_hexNumber hLow, ih hRest, hAfter]
  -- One number.
  case case14 a b c d rest' n hNumber _ _ _ ih =>
    rcases Except.map_eq_ok_iff.mp h with
      ⟨⟨others, after⟩, hRest, hEq⟩
    have hAfter : after = rest := congrArg Prod.snd hEq
    rw [wordsFrom_backslash, wordsFrom_hexNumber hNumber,
      ih hRest, hAfter]
  -- One letter.
  case case16 e rest' _ x _ _ ih =>
    rcases Except.map_eq_ok_iff.mp h with
      ⟨⟨others, after⟩, hRest, hEq⟩
    have hAfter : after = rest := congrArg Prod.snd hEq
    rw [wordsFrom_backslash, ih hRest, hAfter]
  -- A byte that stands for itself.
  case case19 b rest' hQuote hBackslash _ ih =>
    rcases Except.map_eq_ok_iff.mp h with
      ⟨⟨others, after⟩, hRest, hEq⟩
    have hAfter : after = rest := congrArg Prod.snd hEq
    rw [wordsFrom, if_neg hQuote, if_neg hBackslash, ih hRest, hAfter]

theorem wordsFrom_string
    {bytes rest : List UInt8}
    {text : String}
    (h : readString bytes = .ok (text, rest)) :
    wordsFrom .string bytes = words rest := by
  rcases Except.bind_eq_ok_iff.mp h with
    ⟨⟨decoded, after⟩, hBytes, hText⟩
  rw [wordsFrom_stringBytes hBytes]
  cases hDecode : Utf8.decode decoded with
  | error fault => simp [hDecode] at hText
  | ok found =>
      simp only [hDecode, Except.ok.injEq, Prod.mk.injEq] at hText
      rw [hText.2]

------------------------------------------------------------
-- Tokens
------------------------------------------------------------

/- Whether a token starts with a minus. -/
def isNegative (token : List UInt8) : Bool :=
  token.head? == some (byte '-')

/- A token without its minus. -/
def unsigned (token : List UInt8) : List UInt8 :=
  if isNegative token then token.tail else token

/- Whether a word is a number. -/
def isNumber (word : List UInt8) : Bool :=
  (unsigned word).head?.any isDigit

/- Whether a number has neither a fraction nor an exponent. -/
def isWhole (token : List UInt8) : Bool :=
  (unsigned token).all isDigit

/- The value that a number without these stands for. -/
def wholeValue (token : List UInt8) : Int :=
  Expression.signed (isNegative token)
    (digitsValue (unsigned token))

/- The numbers that stand in a text, outside of its strings. -/
def numberTokens (bytes : List UInt8) : List (List UInt8) :=
  (words bytes).filter isNumber

section Signed

variable
  (negative : Bool)
  {used : List UInt8}
  (hDigit : used.head?.any isDigit = true)

include hDigit

theorem isNegative_signBytes :
    isNegative (signBytes negative ++ used) = negative := by
  cases negative with
  | true => rfl
  | false =>
      cases used with
      | nil => rfl
      | cons b used =>
          have hMinus : b ≠ byte '-' := by
            rintro rfl
            exact absurd hDigit Bool.false_ne_true
          simp [isNegative, signBytes, hMinus]

theorem unsigned_signBytes :
    unsigned (signBytes negative ++ used) = used := by
  rw [unsigned, isNegative_signBytes negative hDigit]
  cases negative <;> rfl

end Signed

theorem isPlain_of_isDigit
    {b : UInt8}
    (hb : isDigit b = true) :
    isPlain b = true := by
  rw [isPlain_iff, ← Bool.not_eq_true]
  constructor
  · intro hMark
    simp only [isMark, isBlank, Bool.or_eq_true, beq_iff_eq]
      at hMark
    rcases hMark with
      (((((((((rfl | rfl) | rfl) | rfl) | rfl) | rfl) | rfl) | rfl)
        | rfl) | rfl)
    all_goals
      revert hb
      decide
  · rintro rfl
    revert hb
    decide

end Json

end TemplateTree
