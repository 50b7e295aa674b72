import Mathlib.Data.List.Forall2
import TemplateTree.Proofs.JsonDocuments
import TemplateTree.Proofs.TokenValues

/-
  What the numbers of a JSON text are read as.

  Main declarations:
    * `Json.ReadAs`
    * `Json.ReadAs.eq_nearest`
    * `Json.Covers`
    * `Json.covers_readScalar`
    * `Json.readsNumbers_readArg`
    * `Json.readAs_of_load`
    * `Json.whole_numbers_are_read_by_size`

  The numbers that stand in an accepted text are the numbers
  of its tree, one by one and in order.  A number without
  fraction and exponent is an integer only if it is not minus
  zero and 64 bits with a sign can hold it.
-/

------------------------------------------------------------
-- Numbers And Literals
------------------------------------------------------------

namespace TemplateTree

/- Whether a literal is an integer or a float. -/
def Literal.isNumber : Literal → Bool
| .int _ => true
| .float _ => true
| _ => false

/- The numbers of a tree, from left to right. -/
def Node.numbers (tree : Node) : List Literal :=
  tree.toArg.literals.filter Literal.isNumber

namespace Json

/- Zero with a minus before it. -/
def IsMinusZero (token : List UInt8) : Prop :=
  isNegative token = true ∧ wholeValue token = 0

/- A whole number that 64 bits with a sign can hold. -/
def Fits (token : List UInt8) : Prop :=
  Expression.minInt ≤ wholeValue token ∧
    wholeValue token ≤ Expression.maxInt

instance
    (token : List UInt8) :
    Decidable (IsMinusZero token) :=
  inferInstanceAs (Decidable (_ ∧ _))

instance
    (token : List UInt8) :
    Decidable (Fits token) :=
  inferInstanceAs (Decidable (_ ∧ _))

/- The exponent that a number is written with. -/
def exponent (token : List UInt8) : Int :=
  scaleValue (scalePart (unsigned token))

/- The float nearest to the value of a number. -/
def nearest (token : List UInt8) : Double :=
  (decimalOf (unsigned token)).toDouble (isNegative token)

/- A whole number that is read as a float. -/
def IsRounded (token : List UInt8) : Prop :=
  IsMinusZero token ∨
    wholeValue token < Expression.minInt ∨
      (maxUnsigned : Int) < wholeValue token

/-
  What a number is read as.  Whole numbers just above those
  that fit, up to the greatest one of 64 bits without a sign,
  are not read at all.  A number whose exponent is below all
  that are computed with vanishes.
-/
inductive ReadAs (token : List UInt8) : Literal → Prop
| integer
    (n : Int64)
    (hWhole : isWhole token = true)
    (hFits : Fits token)
    (hZero : ¬ IsMinusZero token)
    (hValue : n.toInt = wholeValue token) :
    ReadAs token (.int n)
| rounded
    (hWhole : isWhole token = true)
    (hRounded : IsRounded token)
    (hFinite : (nearest token).isFinite = true) :
    ReadAs token (.float (nearest token))
| float
    (hPart : isWhole token = false)
    (hExponent : -(maxExponent : Int) ≤ exponent token)
    (hFinite : (nearest token).isFinite = true) :
    ReadAs token (.float (nearest token))
| vanished
    (hPart : isWhole token = false)
    (hExponent : exponent token < -(maxExponent : Int)) :
    ReadAs token
      (.float (Double.ofMagnitude (isNegative token) 0))

/-
  A number of less than two thousand million bytes is read as
  the float nearest to it if it is read as a float, also when
  it vanishes.
-/
theorem ReadAs.eq_nearest
    {token : List UInt8}
    {x : Double}
    (h : ReadAs token (.float x))
    (hLength : token.length + 324 ≤ maxExponent) :
    x = nearest token := by
  cases h with
  | rounded _ _ _ => rfl
  | float _ _ _ => rfl
  | vanished _ hExponent =>
      have hUnsigned : (unsigned token).length ≤ token.length := by
        unfold unsigned
        split <;> simp
      rw [exponent] at hExponent
      rw [nearest, Decimal.toDouble,
        magnitude_decimalOf_eq_zero (by omega)]

theorem toLiteral_integer_eq_ok_iff
    {n : Int}
    {value : Literal} :
    (Scalar.number (.integer n)).toLiteral = .ok value ↔
      n ≤ Expression.maxInt ∧ value = .int (Int64.ofInt n) := by
  have hLimit : n < Nat.pow 2 63 ↔ n ≤ Expression.maxInt := by
    unfold Expression.maxInt
    omega
  rw [Scalar.toLiteral]
  split
  · next h => simp [hLimit.mp h, eq_comm]
  · next h => simp [mt hLimit.mpr h]

theorem toLiteral_float_eq_ok_iff
    {x : Double}
    {value : Literal} :
    (Scalar.number (.float x)).toLiteral = .ok value ↔
      x.isFinite = true ∧ value = .float x := by
  rw [Scalar.toLiteral]
  split
  · next h => simp [h, eq_comm]
  · next h => simp [h]

theorem nearest_of_isWhole
    {token : List UInt8}
    (hWhole : isWhole token = true) :
    nearest token =
      (⟨digitsValue (unsigned token), 0⟩ : Decimal).toDouble
        (isNegative token) := by
  rw [nearest, decimalOf_of_all hWhole]

/- A whole number is an integer or rounded, by its value. -/
theorem finishInteger_cases
    {token bytes rest : List UInt8}
    {n : Number}
    (hWhole : isWhole token = true)
    (h :
      finishInteger (isNegative token) (unsigned token) bytes =
        .ok (n, rest)) :
    (n = .integer (wholeValue token) ∧
        Expression.minInt ≤ wholeValue token ∧
          ¬ IsMinusZero token) ∨
      (n = .float (nearest token) ∧ IsRounded token) := by
  have hNearest := nearest_of_isWhole hWhole
  unfold finishInteger at h
  dsimp only at h
  split at h
  · next hSign =>
      have hValue :
          wholeValue token =
            -(digitsValue (unsigned token) : Int) := by
        rw [wholeValue, hSign, Expression.signed, if_pos rfl]
      split at h
      · next hRange =>
          cases h
          refine .inl ⟨by rw [hValue], ?_, ?_⟩
          · unfold Expression.minInt
            omega
          · intro hZero
            have := hZero.2
            omega
      · next hRange =>
          rcases finishFloat_eq_ok_iff.mp h with ⟨-, hFloat, -⟩
          refine .inr ⟨by rw [hFloat, hNearest, hSign], ?_⟩
          by_cases hZero : wholeValue token = 0
          · exact .inl ⟨hSign, hZero⟩
          · refine .inr (.inl ?_)
            unfold Expression.minInt
            omega
  · next hSign =>
      have hValue :
          wholeValue token = (digitsValue (unsigned token) : Int) := by
        rw [wholeValue, Expression.signed, if_neg hSign]
      split at h
      · cases h
        refine .inl ⟨by rw [hValue], ?_, ?_⟩
        · unfold Expression.minInt
          omega
        · intro hZero
          exact hSign hZero.1
      · next hRange =>
          rcases finishFloat_eq_ok_iff.mp h with ⟨-, hFloat, -⟩
          rw [Bool.not_eq_true] at hSign
          refine
            .inr
              ⟨by rw [hFloat, hNearest, hSign], .inr (.inr ?_)⟩
          omega

theorem toInt_ofInt_of_fits
    {token : List UInt8}
    (hFits : Fits token) :
    (Int64.ofInt (wholeValue token)).toInt = wholeValue token := by
  have hMin : Expression.minInt = -9223372036854775808 := rfl
  have hMax : Expression.maxInt = 9223372036854775807 := rfl
  have hLow := hFits.1
  have hHigh := hFits.2
  exact Int64.toInt_ofInt_of_le (by omega) (by omega)

theorem readAs_of_finishInteger
    {token bytes rest : List UInt8}
    {n : Number}
    {value : Literal}
    (hWhole : isWhole token = true)
    (h :
      finishInteger (isNegative token) (unsigned token) bytes =
        .ok (n, rest))
    (hLiteral : (Scalar.number n).toLiteral = .ok value) :
    ReadAs token value := by
  rcases finishInteger_cases hWhole h with
    ⟨rfl, hLow, hZero⟩ | ⟨rfl, hRounded⟩
  · rcases toLiteral_integer_eq_ok_iff.mp hLiteral with
      ⟨hHigh, rfl⟩
    have hFits : Fits token := ⟨hLow, hHigh⟩
    exact .integer _ hWhole hFits hZero (toInt_ofInt_of_fits hFits)
  · rcases toLiteral_float_eq_ok_iff.mp hLiteral with
      ⟨hFinite, rfl⟩
    exact .rounded hWhole hRounded hFinite

theorem readAs_of_isFloat
    {token : List UInt8}
    {n : Number}
    {value : Literal}
    (hPart : isWhole token = false)
    (h :
      IsFloat (isNegative token) (decimalOf (unsigned token))
        (scaleValue (scalePart (unsigned token))) n)
    (hLiteral : (Scalar.number n).toLiteral = .ok value) :
    ReadAs token value := by
  rcases h with ⟨hExponent, rfl⟩ | ⟨hExponent, rfl⟩
  · rcases toLiteral_float_eq_ok_iff.mp hLiteral with
      ⟨hFinite, rfl⟩
    exact .float hPart hExponent hFinite
  · rcases toLiteral_float_eq_ok_iff.mp hLiteral with ⟨-, rfl⟩
    exact .vanished hPart hExponent

/- A number is one word, and it is read as that word says. -/
theorem readAs_of_readNumber
    {negative : Bool}
    {bytes rest : List UInt8}
    {n : Number}
    {value : Literal}
    (h : readNumber negative bytes = .ok (n, rest))
    (hLiteral : (Scalar.number n).toLiteral = .ok value) :
    ∃ token,
      signBytes negative ++ bytes = token ++ rest ∧
        (∀ b ∈ token, isPlain b = true) ∧
          isNumber token = true ∧ ReadAs token value := by
  rcases readNumber_cases h with
    ⟨used, rfl, hDigit, hPlain, hRead⟩
  have hSign := isNegative_signBytes negative hDigit
  have hUnsigned := unsigned_signBytes negative hDigit
  have hSignPlain : (signBytes negative).all isPlain = true := by
    cases negative <;> decide
  refine
    ⟨signBytes negative ++ used, by rw [List.append_assoc], ?_, ?_,
      ?_⟩
  · exact
      List.forall_mem_append.mpr
        ⟨List.all_eq_true.mp hSignPlain, hPlain⟩
  · rw [isNumber, hUnsigned, hDigit]
  · rcases hRead with ⟨hAll, hInteger⟩ | ⟨hPart, hFloat⟩
    · have hWhole : isWhole (signBytes negative ++ used) = true := by
        rw [isWhole, hUnsigned, hAll]
      have hToken :
          finishInteger (isNegative (signBytes negative ++ used))
              (unsigned (signBytes negative ++ used)) rest =
            .ok (n, rest) := by
        rw [hSign, hUnsigned, hInteger]
      exact readAs_of_finishInteger hWhole hToken hLiteral
    · have hToken :
          isWhole (signBytes negative ++ used) = false := by
        rw [isWhole, hUnsigned, hPart]
      apply readAs_of_isFloat hToken ?_ hLiteral
      rw [hSign, hUnsigned]
      exact hFloat

------------------------------------------------------------
-- Numbers That Were Read
------------------------------------------------------------

/-
  The literals that were read between two places of a text:
  the numbers among them are those that stand there.
-/
def Covers
    (bytes rest : List UInt8)
    (values : List Literal) : Prop :=
  ∃ tokens,
    numberTokens bytes = tokens ++ numberTokens rest ∧
      List.Forall₂ ReadAs tokens (values.filter Literal.isNumber)

theorem covers_nil
    {bytes rest : List UInt8}
    (hWords : words bytes = words rest) :
    Covers bytes rest [] :=
  ⟨[], by rw [numberTokens, hWords]; rfl, .nil⟩

theorem Covers.append
    {bytes between rest : List UInt8}
    {xs ys : List Literal}
    (hFirst : Covers bytes between xs)
    (hSecond : Covers between rest ys) :
    Covers bytes rest (xs ++ ys) := by
  rcases hFirst with ⟨first, hBytes, hFirst⟩
  rcases hSecond with ⟨second, hBetween, hSecond⟩
  refine ⟨first ++ second, ?_, ?_⟩
  · rw [hBytes, hBetween, List.append_assoc]
  · rw [List.filter_append]
    exact List.rel_append hFirst hSecond

/- Bytes without a word before others change nothing. -/
theorem Covers.of_words
    {bytes between rest : List UInt8}
    {values : List Literal}
    (hWords : words bytes = words between)
    (h : Covers between rest values) :
    Covers bytes rest values :=
  (covers_nil hWords).append h

/- A word that is no number stands for no number. -/
theorem covers_word
    {b : UInt8}
    {word rest : List UInt8}
    {value : Literal}
    (hPlain : ∀ c ∈ b :: word, isPlain c = true)
    (hEnd : EndsWord rest)
    (hWord : isNumber (b :: word) = false)
    (hValue : value.isNumber = false) :
    Covers (b :: word ++ rest) rest [value] := by
  refine ⟨[], ?_, ?_⟩
  · rw [numberTokens,
      words_append (List.cons_ne_nil b word) hPlain hEnd,
      List.filter_cons_of_neg (by simp [hWord])]
    rfl
  · rw [List.filter_cons_of_neg (by simp [hValue])]
    exact .nil

theorem covers_number
    {token rest : List UInt8}
    {value : Literal}
    (hPlain : ∀ b ∈ token, isPlain b = true)
    (hEnd : EndsWord rest)
    (hToken : isNumber token = true)
    (hRead : ReadAs token value) :
    Covers (token ++ rest) rest [value] := by
  have hSome : token ≠ [] := by
    rintro rfl
    cases hToken
  have hValue : value.isNumber = true := by
    cases hRead <;> rfl
  refine ⟨[token], ?_, ?_⟩
  · rw [numberTokens, words_append hSome hPlain hEnd,
      List.filter_cons_of_pos hToken]
    rfl
  · rw [List.filter_cons_of_pos hValue]
    exact .cons hRead .nil

/- A scalar with the end of its word after it. -/
theorem covers_readScalar
    {first : UInt8}
    {bytes rest : List UInt8}
    {scalar : Scalar}
    {value : Literal}
    (h : readScalar first bytes = .ok (scalar, rest))
    (hLiteral : scalar.toLiteral = .ok value)
    (hEnd : EndsWord rest) :
    Covers (first :: bytes) rest [value] := by
  rcases readScalar_cases h with
    ⟨word, hWord, hBytes⟩ |
      ⟨negative, after, n, hBytes, hNumber, rfl⟩ |
        ⟨text, rfl, hString, rfl⟩
  · rw [hBytes]
    simp only [keywords, List.mem_cons, Prod.mk.injEq,
      List.not_mem_nil, or_false] at hWord
    rcases hWord with ⟨rfl, rfl⟩ | ⟨rfl, rfl⟩ | ⟨rfl, rfl⟩
    · cases hLiteral
    · cases hLiteral
      have hPlain : (byte 't' :: trueTail).all isPlain = true := by
        decide
      exact covers_word (List.all_eq_true.mp hPlain) hEnd rfl rfl
    · cases hLiteral
      have hPlain : (byte 'f' :: falseTail).all isPlain = true := by
        decide
      exact covers_word (List.all_eq_true.mp hPlain) hEnd rfl rfl
  · rcases readAs_of_readNumber hNumber hLiteral with
      ⟨token, hToken, hPlain, hIsNumber, hRead⟩
    rw [hBytes, hToken]
    exact covers_number hPlain hEnd hIsNumber hRead
  · cases hLiteral
    have hWords :
        words (byte '"' :: bytes) = words rest := by
      rw [words_quote, wordsFrom_string hString]
    exact covers_nil hWords

theorem endsWord_of_mark
    {b : UInt8}
    (hb : isMark b = true)
    (rest : List UInt8) :
    EndsWord (b :: rest) := by
  intro c hc
  cases hc
  simp [isPlain, hb]

theorem endsWord_of_skipBlank
    {bytes : List UInt8}
    (h : EndsWord (skipBlank bytes)) :
    EndsWord bytes := by
  cases bytes with
  | nil => exact h
  | cons b rest =>
      by_cases hb : isBlank b = true
      · exact endsWord_of_mark (by simp [isMark, hb]) rest
      · rw [skipBlank, List.dropWhile_cons_of_neg hb] at h
        exact h

/- Where arguments end or go on, no word goes on. -/
theorem endsWord_of_readArgs
    {read : List UInt8 → Step Arg}
    {fuel : Nat}
    {bytes rest : List UInt8}
    {args : List Arg}
    (h : readArgs read fuel bytes = .ok (args, rest)) :
    EndsWord bytes := by
  apply endsWord_of_skipBlank
  rcases readArgs_cases h with
    ⟨hClose, -⟩ | ⟨inner, next, _, _, _, -, hComma, -⟩
  · rw [hClose]
    exact endsWord_of_mark (by decide) rest
  · rw [hComma]
    exact endsWord_of_mark (by decide) next

/- The words of a text that starts with a mark, after blanks. -/
theorem words_of_skipBlank
    {bytes rest : List UInt8}
    {b : UInt8}
    (hBytes : skipBlank bytes = b :: rest)
    (hb : isMark b = true) :
    words bytes = words rest := by
  rw [← words_skipBlank, hBytes, words_mark hb]

/- A reader whose arguments cover what they were read from. -/
def ReadsNumbers (read : List UInt8 → Step Arg) : Prop :=
  ∀ bytes arg rest,
    read bytes = .ok (arg, rest) →
      EndsWord rest → Covers bytes rest arg.literals

/- Each argument covers its part of the text, so all do. -/
theorem covers_readArgs
    {read : List UInt8 → Step Arg}
    (hRead : ReadsNumbers read)
    {fuel : Nat}
    {bytes rest : List UInt8}
    {args : List Arg}
    (h : readArgs read fuel bytes = .ok (args, rest)) :
    Covers bytes rest (Arg.literalsList args) := by
  induction fuel generalizing bytes args with
  | zero => cases h
  | succ fuel ih =>
      rcases readArgs_cases h with
        ⟨hClose, rfl⟩ |
          ⟨inner, next, arg, between, others, hFuel, hComma, hArg,
            hOthers, rfl⟩
      · exact covers_nil (words_of_skipBlank hClose (by decide))
      · cases hFuel
        have hWords : words bytes = words (skipBlank next) := by
          rw [words_of_skipBlank hComma (by decide),
            words_skipBlank]
        -- The comma or bracket that follows ends the argument.
        have hEnd := endsWord_of_readArgs hOthers
        have hFirst := hRead _ _ _ hArg hEnd
        exact (hFirst.of_words hWords).append (ih hOthers)

theorem covers_readNode
    {read : List UInt8 → Step Arg}
    (hRead : ReadsNumbers read)
    {bytes rest : List UInt8}
    {node : Node}
    (h : readNode read bytes = .ok (node, rest)) :
    Covers bytes rest node.toArg.literals := by
  rcases readNode_cases h with
    ⟨quoted, after, fuel, hBytes, hTag, hArgs⟩
  have hWords : words bytes = words after := by
    rw [← words_skipBlank, hBytes, words_quote,
      wordsFrom_string hTag]
  exact (covers_readArgs hRead hArgs).of_words hWords

/- An argument covers its part if those one level down do. -/
theorem readsNumbers_of_inner
    {room : Nat}
    (hInner :
      ∀ inner, room = inner + 1 → ReadsNumbers (readArg inner)) :
    ReadsNumbers (readArg room) := by
  intro bytes arg rest h hEnd
  rcases readArg_cases h with
    ⟨first, after, scalar, value, hBytes, hScalar, hLiteral, rfl⟩ |
      ⟨inner, after, node, hRoom, hBytes, hNode, rfl⟩
  · apply Covers.of_words (words_skipBlank bytes).symm
    rw [hBytes]
    exact covers_readScalar hScalar hLiteral hEnd
  · have hWords := words_of_skipBlank hBytes (by decide)
    exact (covers_readNode (hInner inner hRoom) hNode).of_words hWords

theorem readsNumbers_readArg
    (room : Nat) :
    ReadsNumbers (readArg room) := by
  induction room with
  | zero =>
      apply readsNumbers_of_inner
      intro inner hRoom
      cases hRoom
  | succ room ih =>
      apply readsNumbers_of_inner
      intro inner hRoom
      cases hRoom
      exact ih

/- The numbers of an accepted text are the numbers of its tree. -/
theorem readAs_of_load
    {bytes : List UInt8}
    {tree : Node}
    (h : load bytes = .ok tree) :
    List.Forall₂ ReadAs (numberTokens bytes) tree.numbers := by
  rcases load_eq_ok_iff.mp h with ⟨rest, hRoot, hRest⟩
  rcases readRoot_cases hRoot with ⟨after, hBytes, hNode⟩
  have hCovers : Covers bytes rest tree.toArg.literals :=
    (covers_readNode (readsNumbers_readArg _) hNode).of_words
      (words_of_skipBlank hBytes (by decide))
  have hNone : numberTokens rest = [] := by
    rw [numberTokens, ← words_skipBlank, hRest]
    rfl
  rcases hCovers with ⟨tokens, hTokens, hRead⟩
  rw [hTokens, hNone, List.append_nil]
  exact hRead

------------------------------------------------------------
-- Whole Numbers
------------------------------------------------------------

/- A number that is kept, if it is a whole number. -/
def IsKept
    (token : List UInt8)
    (value : Literal) : Prop :=
  isWhole token = true →
    ∃ n : Int64, value = .int n ∧ n.toInt = wholeValue token

/-
  A text whose whole numbers are all read as integers of their
  value, and that is refused if one of them does not fit.
-/
structure KeepsIntegers (bytes : List UInt8) : Prop where
  kept :
    ∀ tree, load bytes = .ok tree →
      List.Forall₂ IsKept (numberTokens bytes) tree.numbers
  refused :
    ∀ token ∈ numberTokens bytes,
      isWhole token = true → ¬ Fits token →
        ∃ fault, load bytes = .error fault

/- A number that can be kept, if it is a whole number. -/
def IsExact (token : List UInt8) : Prop :=
  isWhole token = true → Fits token ∧ ¬ IsMinusZero token

instance
    (token : List UInt8) :
    Decidable (IsExact token) :=
  inferInstanceAs (Decidable (_ → _))

/- A number is rounded only if it cannot be kept. -/
theorem IsRounded.not_isExact
    {token : List UInt8}
    (hWhole : isWhole token = true)
    (hRounded : IsRounded token) :
    ¬ IsExact token := by
  intro hExact
  rcases hExact hWhole with ⟨⟨hLow, hHigh⟩, hZero⟩
  have hMax : Expression.maxInt = 9223372036854775807 := rfl
  have hUnsigned : maxUnsigned = 18446744073709551615 := rfl
  rcases hRounded with hMinus | hBelow | hAbove
  · exact hZero hMinus
  · omega
  · omega

theorem isKept_iff_of_part
    {token : List UInt8}
    (hPart : isWhole token = false)
    (value : Literal) :
    IsKept token value ↔ IsExact token := by
  simp [IsKept, IsExact, hPart]

theorem ReadAs.isKept_iff
    {token : List UInt8}
    {value : Literal}
    (h : ReadAs token value) :
    IsKept token value ↔ IsExact token := by
  cases h with
  | integer n hWhole hFits hZero hValue =>
      constructor
      · intro _ _
        exact ⟨hFits, hZero⟩
      · intro _ _
        exact ⟨n, rfl, hValue⟩
  | rounded hWhole hRounded hFinite =>
      constructor
      · intro hKept
        rcases hKept hWhole with ⟨n, hInt, -⟩
        cases hInt
      · intro hExact
        exact absurd hExact (hRounded.not_isExact hWhole)
  | float hPart _ _ =>
      exact isKept_iff_of_part hPart _
  | vanished hPart _ =>
      exact isKept_iff_of_part hPart _

/- A number between the two limits of 64 bits is not read. -/
theorem ReadAs.not_between
    {token : List UInt8}
    {value : Literal}
    (h : ReadAs token value)
    (hWhole : isWhole token = true)
    (hLow : Expression.maxInt < wholeValue token) :
    (maxUnsigned : Int) < wholeValue token := by
  have hMin : Expression.minInt = -9223372036854775808 := rfl
  have hMax : Expression.maxInt = 9223372036854775807 := rfl
  cases h with
  | integer n _ hFits _ _ =>
      have hHigh := hFits.2
      omega
  | rounded _ hRounded _ =>
      rcases hRounded with hMinus | hBelow | hAbove
      · have hZero := hMinus.2
        omega
      · omega
      · exact hAbove
  | float hPart _ _ =>
      rw [hPart] at hWhole
      cases hWhole
  | vanished hPart _ =>
      rw [hPart] at hWhole
      cases hWhole

theorem exists_readAs_of_mem
    {tokens : List (List UInt8)}
    {values : List Literal}
    (h : List.Forall₂ ReadAs tokens values)
    {token : List UInt8}
    (hToken : token ∈ tokens) :
    ∃ value, ReadAs token value := by
  induction h with
  | nil => cases hToken
  | cons hRead _ ih =>
      rcases List.mem_cons.mp hToken with rfl | hOther
      · exact ⟨_, hRead⟩
      · exact ih hOther

theorem forall₂_isKept_iff
    {tokens : List (List UInt8)}
    {values : List Literal}
    (h : List.Forall₂ ReadAs tokens values) :
    List.Forall₂ IsKept tokens values ↔
      ∀ token ∈ tokens, IsExact token := by
  induction h with
  | nil => simp
  | cons hRead hOthers ih =>
      rw [List.forall₂_cons, List.forall_mem_cons, ih,
        hRead.isKept_iff]

/- The numbers of a text are kept if they can be, or refused. -/
theorem keepsIntegers_iff
    {bytes : List UInt8} :
    KeepsIntegers bytes ↔
      ∀ tree, load bytes = .ok tree →
        ∀ token ∈ numberTokens bytes, IsExact token := by
  constructor
  · intro hKeeps tree hLoad
    exact
      (forall₂_isKept_iff (readAs_of_load hLoad)).mp
        (hKeeps.kept tree hLoad)
  · intro hExact
    constructor
    · intro tree hLoad
      exact
        (forall₂_isKept_iff (readAs_of_load hLoad)).mpr
          (hExact tree hLoad)
    · intro token hToken hWhole hFits
      cases hLoad : load bytes with
      | error fault => exact ⟨fault, rfl⟩
      | ok tree =>
          exact absurd (hExact tree hLoad token hToken hWhole).1 hFits

theorem exists_refusal
    {bytes token : List UInt8}
    (hToken : token ∈ numberTokens bytes)
    (hWhole : isWhole token = true)
    (hLow : Expression.maxInt < wholeValue token)
    (hHigh : wholeValue token ≤ maxUnsigned) :
    ∃ fault, load bytes = .error fault := by
  cases hLoad : load bytes with
  | error fault => exact ⟨fault, rfl⟩
  | ok tree =>
      rcases exists_readAs_of_mem (readAs_of_load hLoad) hToken with
        ⟨value, hRead⟩
      have hAbove := hRead.not_between hWhole hLow
      omega

/-
  The whole numbers of a text, by their size.  One that fits
  is read as it is, and one that only an integer without a
  sign can hold is refused.  Minus zero and every number of a
  greater size become floats, so integers are kept exactly in
  the texts that hold none of these.
-/
theorem whole_numbers_are_read_by_size
    (bytes : List UInt8) :
    (∀ tree, load bytes = .ok tree →
      List.Forall₂ ReadAs (numberTokens bytes) tree.numbers) ∧
    (∀ token ∈ numberTokens bytes,
      isWhole token = true →
        Expression.maxInt < wholeValue token →
          wholeValue token ≤ maxUnsigned →
            ∃ fault, load bytes = .error fault) ∧
    (KeepsIntegers bytes ↔
      ∀ tree, load bytes = .ok tree →
        ∀ token ∈ numberTokens bytes, IsExact token) := by
  refine ⟨?_, ?_, keepsIntegers_iff⟩
  · intro tree hLoad
    exact readAs_of_load hLoad
  · intro token hToken hWhole hLow hHigh
    exact exists_refusal hToken hWhole hLow hHigh

theorem not_keepsIntegers
    (token : List UInt8)
    {bytes : List UInt8}
    {tree : Node}
    (hLoad : load bytes = .ok tree)
    (hToken : token ∈ numberTokens bytes)
    (hExact : ¬ IsExact token) :
    ¬ KeepsIntegers bytes := by
  intro hKeeps
  exact hExact (keepsIntegers_iff.mp hKeeps tree hLoad token hToken)

/-
  The first numbers past both limits, and minus zero.  Each of
  the texts is accepted, with a float in place of its integer.
-/
theorem integers_past_the_limits_become_floats :
    ¬ KeepsIntegers
        (Utf8.encode "[\"x\",18446744073709551616]") ∧
      ¬ KeepsIntegers
        (Utf8.encode "[\"x\",-9223372036854775809]") ∧
      ¬ KeepsIntegers (Utf8.encode "[\"x\",-0]") := by
  have hAbove :
      load (Utf8.encode "[\"x\",18446744073709551616]") =
        .ok ⟨"x", [.literal (.float ⟨0x43f0000000000000⟩)]⟩ := by
    decide +kernel
  have hBelow :
      load (Utf8.encode "[\"x\",-9223372036854775809]") =
        .ok ⟨"x", [.literal (.float ⟨0xc3e0000000000000⟩)]⟩ := by
    decide +kernel
  have hZero :
      load (Utf8.encode "[\"x\",-0]") =
        .ok ⟨"x", [.literal (.float ⟨0x8000000000000000⟩)]⟩ := by
    decide +kernel
  refine ⟨?_, ?_, ?_⟩
  · exact
      not_keepsIntegers (Utf8.encode "18446744073709551616") hAbove
        (by decide +kernel) (by decide +kernel)
  · exact
      not_keepsIntegers (Utf8.encode "-9223372036854775809") hBelow
        (by decide +kernel) (by decide +kernel)
  · exact
      not_keepsIntegers (Utf8.encode "-0") hZero
        (by decide +kernel) (by decide +kernel)

end Json

end TemplateTree
