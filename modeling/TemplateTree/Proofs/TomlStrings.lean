import TemplateTree.Proofs.EscapedTexts
import TemplateTree.Proofs.Numeral
import TemplateTree.Toml.Reader
import TemplateTree.Toml.Writer

/-
  Reading the strings and keys that a TOML document is written
  with.

  Main declarations:
    * `Toml.Unescapes`
    * `Toml.readBasic_escapedFrom`
    * `Toml.readLongBasic_escapedFrom`
    * `Toml.readLongLiteral_append`
    * `Toml.readString_writeString`
    * `Toml.readNames_writePath`

  A string is written in one of four forms.  Two of them have
  escapes, and their readers undo these alike.  The two long
  ones may hold quotes, so that the end of a string is not
  its first quote but the last three of a row.
-/

------------------------------------------------------------
-- What Readers Gain
------------------------------------------------------------

namespace TemplateTree

namespace Toml

@[simp] theorem prepend_some
    (gained xs rest : List Char) :
    prepend gained (some (xs, rest)) =
      some (gained ++ xs, rest) := rfl

theorem prepend_prepend
    (first second : List Char)
    (rest : Step (List Char)) :
    prepend first (prepend second rest) =
      prepend (first ++ second) rest := by
  cases rest with
  | none => rfl
  | some found =>
      rw [prepend, prepend, prepend]
      simp [List.append_assoc]

theorem prepend_nil
    (rest : Step (List Char)) :
    prepend [] rest = rest := by
  cases rest <;> rfl

/-
  A reader that takes one character, gains something and goes
  on in another way, whatever follows.
-/
def Takes
    (read : Reading → List Char → Step (List Char))
    (reading : Reading)
    (c : Char)
    (gained : List Char)
    (reading' : Reading) : Prop :=
  ∀ rest, read reading (c :: rest) =
    prepend gained (read reading' rest)

/- A character that stands for itself in a string with escapes. -/
def StandsAlone (c : Char) : Prop :=
  isPlain c = true ∧ c ≠ '\\' ∧ c ≠ '"'

/- A reader that undoes escapes. -/
structure Unescapes
    (read : Reading → List Char → Step (List Char)) : Prop where
  plain : ∀ c, StandsAlone c → Takes read .plain c [c] .plain
  escape : Takes read .plain '\\' [] .escape
  letter :
    ∀ c x, escape? c = some x → Takes read .escape c [x] .plain
  number : Takes read .escape 'u' [] (.number 3 0)
  digit :
    ∀ left value c gained reading',
      readDigit left value c = some (gained, reading') →
        Takes read (.number left value) c gained reading'

theorem hexValue?_hexDigit
    {n : Nat}
    (hn : n < 16) :
    Text.hexValue? (hexDigit n) = some n := by
  revert n
  decide

/- A digit that is not the last one of a number. -/
theorem readDigit_succ
    {left value d : Nat}
    (hd : d < 16) :
    readDigit (left + 1) value (hexDigit d) =
      some ([], .number left (16 * value + d)) := by
  rw [readDigit, hexValue?_hexDigit hd]
  rfl

theorem readDigit_zero
    {c : Char}
    {value d : Nat}
    (hd : d < 16)
    (hc : 16 * value + d = c.toNat) :
    readDigit 0 value (hexDigit d) = some ([c], .plain) := by
  rw [readDigit, hexValue?_hexDigit hd, Option.bind_some]
  dsimp only
  rw [hc, Text.charOfNumber?_toNat]
  rfl

theorem toNat_of_isControl
    {c : Char}
    (hc : isControl c = true) :
    c.toNat < 0x80 := by
  simp only [isControl, isPlain, Bool.not_eq_true',
    Bool.or_eq_false_iff, Bool.and_eq_false_iff,
    decide_eq_false_iff_not, bne_eq_false_iff_eq] at hc
  rcases hc.2 with hLow | rfl
  · omega
  · decide

namespace Unescapes

variable {read : Reading → List Char → Step (List Char)}

/- A control character is written by its number. -/
theorem read_control
    (h : Unescapes read)
    {c : Char}
    (hc : c.toNat < 0x80)
    (rest : List Char) :
    read .plain
        ('\\' :: 'u' :: '0' :: '0' :: hexDigit (c.toNat / 16)
          :: hexDigit (c.toNat % 16) :: rest) =
      prepend [c] (read .plain rest) := by
  have hZero : '0' = hexDigit 0 := by decide
  have hFirst : readDigit 3 0 '0' = some ([], .number 2 0) :=
    hZero ▸ readDigit_succ (by decide)
  have hSecond : readDigit 2 0 '0' = some ([], .number 1 0) :=
    hZero ▸ readDigit_succ (by decide)
  have hThird :
      readDigit 1 0 (hexDigit (c.toNat / 16)) =
        some ([], .number 0 (16 * 0 + c.toNat / 16)) :=
    readDigit_succ (by omega)
  have hFourth :
      readDigit 0 (16 * 0 + c.toNat / 16)
          (hexDigit (c.toNat % 16)) =
        some ([c], .plain) :=
    readDigit_zero (by omega) (by omega)
  rw [h.escape, h.number, h.digit _ _ _ _ _ hFirst,
    h.digit _ _ _ _ _ hSecond, h.digit _ _ _ _ _ hThird,
    h.digit _ _ _ _ _ hFourth]
  simp only [prepend_nil]

theorem read_letter
    (h : Unescapes read)
    {letter c : Char}
    (hc : escape? letter = some c)
    (rest : List Char) :
    read .plain ('\\' :: letter :: rest) =
      prepend [c] (read .plain rest) := by
  rw [h.escape, h.letter _ _ hc, prepend_nil]

/-
  Whatever a character is written as, it is read back.  Long
  strings have newlines as they are.
-/
theorem read_escapedChar
    (h : Unescapes read)
    {long : Bool}
    (hLong :
      long = true → Takes read .plain '\n' ['\n'] .plain)
    {c : Char}
    (hQuote : c ≠ '"')
    (rest : List Char) :
    read .plain (escapedChar long c ++ rest) =
      prepend [c] (read .plain rest) := by
  unfold escapedChar
  split
  · next hc => rw [hc]; exact h.read_letter (by decide) rest
  split
  · next hc => rw [hc]; exact h.read_letter (by decide) rest
  split
  · next hc =>
      rw [hc]
      cases long with
      | true => exact hLong rfl rest
      | false => exact h.read_letter (by decide) rest
  split
  · next hc => rw [hc]; exact h.read_letter (by decide) rest
  split
  · next hc => rw [hc]; exact h.read_letter (by decide) rest
  split
  · next hc => rw [hc]; exact h.read_letter (by decide) rest
  split
  · next hControl =>
      exact h.read_control (toNat_of_isControl hControl) rest
  · next hBackslash hControl =>
      have hPlain : isPlain c = true := by
        simpa [isControl] using hControl
      exact h.plain c ⟨hPlain, hBackslash, hQuote⟩ rest

/- A string on one line has all its quotes escaped. -/
theorem read_escapedFrom
    (h : Unescapes read)
    (run : Nat)
    (cs rest : List Char) :
    read .plain (escapedFrom false run cs ++ rest) =
      prepend cs (read .plain rest) := by
  induction cs generalizing run with
  | nil => rw [escapedFrom, List.nil_append, prepend_nil]
  | cons c cs ih =>
      unfold escapedFrom
      split
      · next hc =>
          rw [if_neg (by simp), List.cons_append,
            List.cons_append, h.read_letter (c := c), ih,
            prepend_prepend]
          · rfl
          · rw [hc]; decide
      · next hc =>
          rw [List.append_assoc,
            h.read_escapedChar (by simp) hc, ih,
            prepend_prepend]
          rfl

end Unescapes

------------------------------------------------------------
-- Strings On One Line
------------------------------------------------------------

theorem escape?_u : escape? 'u' = none := by
  decide

theorem escape?_upperU : escape? 'U' = none := by
  decide

theorem readEscape_letter
    {c x : Char}
    (hc : escape? c = some x) :
    readEscape c = some ([x], .plain) := by
  have hLower : c ≠ 'u' := by
    rintro rfl
    simp [escape?_u] at hc
  have hUpper : c ≠ 'U' := by
    rintro rfl
    simp [escape?_upperU] at hc
  rw [readEscape, if_neg hLower, if_neg hUpper, hc]
  rfl

theorem readBasic_takes
    {reading reading' : Reading}
    {c : Char}
    {gained : List Char}
    (hQuote : reading = .plain → c ≠ '"')
    (hStep : basicStep reading c = some (gained, reading')) :
    Takes readBasic reading c gained reading' := by
  intro rest
  rw [readBasic, if_neg fun h => hQuote h.1 h.2, hStep]

theorem unescapes_readBasic : Unescapes readBasic where
  plain c hc := by
    refine readBasic_takes (fun _ => hc.2.2) ?_
    rw [basicStep, if_neg hc.2.1, if_pos hc.1]
    all_goals simp
  escape := readBasic_takes (by decide) (by decide)
  letter c x hc :=
    readBasic_takes (by simp) (readEscape_letter hc)
  number := readBasic_takes (by simp) (by decide)
  digit left value c gained reading' hDigit :=
    readBasic_takes (by simp) hDigit

theorem readBasic_escapedFrom
    (cs rest : List Char) :
    readBasic .plain (escapedFrom false 0 cs ++ '"' :: rest) =
      some (cs, rest) := by
  rw [unescapes_readBasic.read_escapedFrom, readBasic,
    if_pos ⟨rfl, rfl⟩, prepend_some, List.append_nil]

theorem readLiteral_append
    {cs : List Char}
    (hPlain : ∀ c ∈ cs, isPlain c = true ∧ c ≠ '\'')
    (rest : List Char) :
    readLiteral (cs ++ '\'' :: rest) = some (cs, rest) := by
  induction cs with
  | nil => simp [readLiteral]
  | cons c cs ih =>
      obtain ⟨hc, hQuote⟩ := hPlain c List.mem_cons_self
      rw [List.cons_append, readLiteral, if_neg hQuote,
        if_pos hc,
        ih fun x hx => hPlain x (List.mem_cons_of_mem c hx)]
      rfl

------------------------------------------------------------
-- The End Of A Long String
------------------------------------------------------------

/-
  A long string may end with two quotes of its own, which the
  three that close it follow.
-/
theorem closing?_replicate
    {quote : Char}
    {k : Nat}
    (hk : k ≤ 2)
    {rest : List Char}
    (hRest : rest.head? ≠ some quote) :
    closing? quote
        (List.replicate k quote ++ (tripled quote ++ rest)) =
      some (List.replicate k quote, rest) := by
  have hQuotes :
      List.replicate k quote ++ (tripled quote ++ rest) =
        List.replicate (k + 3) quote ++ rest := by
    rw [← List.replicate_append_replicate, List.append_assoc]
    rfl
  have hStop : rest.takeWhile (· == quote) = [] := by
    cases rest with
    | nil => rfl
    | cons c rest =>
        rw [List.takeWhile_cons_of_neg]
        simpa using hRest
  have hTake :
      ((List.replicate (k + 3) quote ++ rest).takeWhile
        (· == quote)).length = k + 3 := by
    rw [List.takeWhile_append_of_pos (by simp), hStop]
    simp
  have hFirst :
      (List.replicate (k + 3) quote ++ rest).take 3 =
        [quote, quote, quote] := by
    simp [List.replicate_succ]
  rw [hQuotes, closing?, hTake, if_pos hFirst,
    show min (k + 3 - 3) 2 = k by omega,
    show 3 + k = k + 3 by omega,
    List.drop_append_of_le_length (by simp)]
  simp

/- Two quotes before another character do not end it. -/
theorem closing?_eq_none
    {quote x : Char}
    {k : Nat}
    (hk : k ≤ 2)
    (hx : x ≠ quote)
    (tail : List Char) :
    closing? quote (List.replicate k quote ++ x :: tail) = none := by
  rw [closing?]
  refine if_neg fun hTake => ?_
  rcases k with - | - | - | k
  · simp_all
  · simp_all
  · simp_all
  · omega

/-
  What the rest of a long string may be written as.  It starts
  with some quotes, no more than may still be, and then ends
  or goes on with something else.
-/
def FewQuotes
    (quote : Char)
    (limit : Nat)
    (cs written : List Char) : Prop :=
  ∃ k, k ≤ limit ∧
    (cs = List.replicate k quote ∧ written = cs ∨
      ∃ x tail, x ≠ quote ∧
        written = List.replicate k quote ++ x :: tail)

theorem FewQuotes.cons
    {quote : Char}
    {limit : Nat}
    {cs written : List Char}
    (h : FewQuotes quote limit cs written) :
    FewQuotes quote (limit + 1) (quote :: cs)
      (quote :: written) := by
  obtain ⟨k, hk, ⟨hQuotes, hSame⟩ | ⟨x, tail, hx, hSplit⟩⟩ := h
  · refine ⟨k + 1, by omega, .inl ⟨?_, ?_⟩⟩
    · rw [hQuotes, List.replicate_succ]
    · rw [hSame]
  · refine ⟨k + 1, by omega, .inr ⟨x, tail, hx, ?_⟩⟩
    rw [hSplit, List.replicate_succ, List.cons_append]

theorem fewQuotes_nil
    (quote : Char)
    (limit : Nat) :
    FewQuotes quote limit [] [] :=
  ⟨0, by omega, .inl ⟨rfl, rfl⟩⟩

theorem fewQuotes_of_ne
    {quote x : Char}
    (hx : x ≠ quote)
    (limit : Nat)
    (cs tail : List Char) :
    FewQuotes quote limit cs (x :: tail) :=
  ⟨0, by omega, .inr ⟨x, tail, hx, rfl⟩⟩

/-
  Either the closing quotes are next, with those of the string
  before them, or the string goes on.
-/
theorem FewQuotes.closing?_append
    {quote : Char}
    {cs written rest : List Char}
    (h : FewQuotes quote 2 cs written)
    (hRest : rest.head? ≠ some quote) :
    closing? quote (written ++ (tripled quote ++ rest)) =
        some (cs, rest) ∨
      written ≠ [] ∧
        closing? quote (written ++ (tripled quote ++ rest)) =
          none := by
  obtain ⟨k, hk, ⟨hQuotes, hSame⟩ | ⟨x, tail, hx, hSplit⟩⟩ := h
  · left
    rw [hSame, hQuotes]
    exact closing?_replicate hk hRest
  · right
    rw [hSplit, List.append_assoc, List.cons_append]
    exact ⟨by simp, closing?_eq_none hk hx _⟩

------------------------------------------------------------
-- Strings On Many Lines
------------------------------------------------------------

theorem readLongBasic_takes
    {reading reading' : Reading}
    {c : Char}
    {gained : List Char}
    (hQuote : reading = .plain ∨ reading = .nextLine → c ≠ '"')
    (hStep : longStep reading c = some (gained, reading')) :
    Takes readLongBasic reading c gained reading' := by
  intro rest
  by_cases hReading : reading = .plain ∨ reading = .nextLine
  · have hOpen : closing? '"' (c :: rest) = none :=
      closing?_eq_none (k := 0) (by omega) (hQuote hReading) rest
    rw [readLongBasic, hOpen, hStep]
  · rw [readLongBasic, decide_eq_false hReading, hStep]
    split <;> simp_all

theorem escape?_of_isBlank
    {c : Char}
    (hc : isBlank c = true) :
    escape? c = none := by
  simp only [isBlank, Bool.or_eq_true, beq_iff_eq] at hc
  rcases hc with rfl | rfl <;> decide

theorem unescapes_readLongBasic : Unescapes readLongBasic where
  plain c hc := by
    refine readLongBasic_takes (fun _ => hc.2.2) ?_
    rw [longStep, if_neg (by simp), if_neg hc.2.1,
      if_pos (.inl hc.1)]
    all_goals simp
  escape := readLongBasic_takes (by decide) (by decide)
  letter c x hc := by
    refine readLongBasic_takes (by simp) ?_
    have hBlank : ¬ isBlank c = true := fun h => by
      simp [escape?_of_isBlank h] at hc
    have hNewline : c ≠ '\n' := by
      rintro rfl
      simp [escape?] at hc
    rw [longStep, if_neg hBlank, if_neg hNewline]
    exact readEscape_letter hc
  number := readLongBasic_takes (by simp) (by decide)
  digit left value c gained reading' hDigit :=
    readLongBasic_takes (by simp) hDigit

/- A long string has its newlines as they are. -/
theorem readLongBasic_newline :
    Takes readLongBasic .plain '\n' ['\n'] .plain :=
  readLongBasic_takes (by decide) (by decide)

/- A character is written with a backslash or as it is. -/
theorem escapedChar_cases
    (long : Bool)
    (c : Char) :
    (∃ tail, escapedChar long c = '\\' :: tail) ∨
      escapedChar long c = [c] := by
  unfold escapedChar
  split; · exact .inl ⟨_, rfl⟩
  split; · exact .inl ⟨_, rfl⟩
  split
  · next hc =>
      cases long with
      | true => exact .inr (by rw [hc]; rfl)
      | false => exact .inl ⟨_, rfl⟩
  split; · exact .inl ⟨_, rfl⟩
  split; · exact .inl ⟨_, rfl⟩
  split; · exact .inl ⟨_, rfl⟩
  split; · exact .inl ⟨_, rfl⟩
  exact .inr rfl

theorem escapedFrom_fewQuotes
    {run : Nat}
    (hRun : run ≤ 2)
    (cs : List Char) :
    FewQuotes '"' (2 - run) cs (escapedFrom true run cs) := by
  induction cs generalizing run with
  | nil => exact fewQuotes_nil _ _
  | cons c cs ih =>
      unfold escapedFrom
      split
      · next hc =>
          subst hc
          split
          · next hLong =>
              have hMore :
                  FewQuotes '"' (2 - (run + 1) + 1) ('"' :: cs)
                    ('"' :: escapedFrom true (run + 1) cs) :=
                (ih (by omega)).cons
              rwa [show 2 - (run + 1) + 1 = 2 - run by omega]
                at hMore
          · exact fewQuotes_of_ne (by decide) _ _ _
      · next hc =>
          rcases escapedChar_cases true c with
            ⟨tail, hWritten⟩ | hWritten
          · rw [hWritten]
            exact fewQuotes_of_ne (by decide) _ _ _
          · rw [hWritten]
            exact fewQuotes_of_ne hc _ _ _

theorem readLongBasic_of_closing
    {cs : List Char}
    {ending : List Char × List Char}
    (hClosing : closing? '"' cs = some ending) :
    readLongBasic .plain cs = some ending := by
  cases cs with
  | nil => simp [closing?] at hClosing
  | cons c cs => rw [readLongBasic, hClosing]; rfl

/- A quote of a long string, when it is not the end. -/
theorem readLongBasic_quote
    {rest : List Char}
    (hOpen : closing? '"' ('"' :: rest) = none) :
    readLongBasic .plain ('"' :: rest) =
      prepend ['"'] (readLongBasic .plain rest) := by
  rw [readLongBasic, hOpen]
  rfl

theorem readLongBasic_escapedFrom
    {run : Nat}
    (hRun : run ≤ 2)
    {rest : List Char}
    (hRest : rest.head? ≠ some '"')
    (cs : List Char) :
    readLongBasic .plain
        (escapedFrom true run cs ++ (tripled '"' ++ rest)) =
      some (cs, rest) := by
  induction cs generalizing run with
  | nil =>
      exact readLongBasic_of_closing
        (closing?_replicate (k := 0) (by omega) hRest)
  | cons c cs ih =>
      have hQuotes :
          FewQuotes '"' 2 (c :: cs)
            (escapedFrom true run (c :: cs)) := by
        obtain ⟨k, hk, hForm⟩ := escapedFrom_fewQuotes hRun (c :: cs)
        exact ⟨k, by omega, hForm⟩
      -- If the closing quotes are next, the rest is read at once.
      rcases hQuotes.closing?_append hRest with hEnd | ⟨-, hOpen⟩
      · exact readLongBasic_of_closing hEnd
      by_cases hc : c = '"'
      · subst hc
        rw [escapedFrom, if_pos rfl] at hOpen ⊢
        split
        · next hLong =>
            rw [if_pos hLong, List.cons_append] at hOpen
            rw [List.cons_append, readLongBasic_quote hOpen,
              ih (by omega), prepend_some]
            rfl
        · rw [List.cons_append, List.cons_append,
            unescapes_readLongBasic.read_letter (c := '"')
              (by decide),
            ih (by omega), prepend_some]
          rfl
      · rw [escapedFrom, if_neg hc, List.append_assoc,
          unescapes_readLongBasic.read_escapedChar
            (fun _ => readLongBasic_newline) hc,
          ih (by omega), prepend_some]
        rfl

theorem fewQuotes_of_hasTriple
    {quote : Char}
    {cs : List Char}
    (hTriple : hasTriple quote cs = false) :
    FewQuotes quote 2 cs cs := by
  rcases cs with - | ⟨a, - | ⟨b, - | ⟨c, rest⟩⟩⟩
  · exact fewQuotes_nil _ _
  · by_cases ha : a = quote
    · rw [ha]
      exact (fewQuotes_nil quote 1).cons
    · exact fewQuotes_of_ne ha _ _ _
  · by_cases ha : a = quote
    · rw [ha]
      by_cases hb : b = quote
      · rw [hb]
        exact (fewQuotes_nil quote 0).cons.cons
      · exact (fewQuotes_of_ne hb 1 _ _).cons
    · exact fewQuotes_of_ne ha _ _ _
  · by_cases ha : a = quote
    · rw [ha]
      by_cases hb : b = quote
      · rw [hb]
        by_cases hc : c = quote
        · simp [hasTriple, ha, hb, hc] at hTriple
        · exact (fewQuotes_of_ne hc 0 _ _).cons.cons
      · exact (fewQuotes_of_ne hb 1 _ _).cons
    · exact fewQuotes_of_ne ha _ _ _

theorem readLongLiteral_append
    {cs rest : List Char}
    (hPlain : ∀ c ∈ cs, isPlain c = true ∨ c = '\n')
    (hTriple : hasTriple '\'' cs = false)
    (hRest : rest.head? ≠ some '\'') :
    readLongLiteral (cs ++ (tripled '\'' ++ rest)) =
      some (cs, rest) := by
  induction cs with
  | nil =>
      have hEnd :
          closing? '\'' (tripled '\'' ++ rest) = some ([], rest) :=
        closing?_replicate (k := 0) (by omega) hRest
      rw [List.nil_append]
      unfold tripled at hEnd ⊢
      rw [List.cons_append] at hEnd ⊢
      rw [readLongLiteral, hEnd]
  | cons c cs ih =>
      have hLater : hasTriple '\'' cs = false :=
        (Bool.or_eq_false_iff.mp hTriple).2
      rcases (fewQuotes_of_hasTriple hTriple).closing?_append hRest
        with hEnd | ⟨-, hOpen⟩
      · rw [List.cons_append] at hEnd ⊢
        rw [readLongLiteral, hEnd]
      · rw [List.cons_append] at hOpen ⊢
        rw [readLongLiteral, hOpen]
        dsimp only
        rw [if_pos (hPlain c List.mem_cons_self),
          ih (fun x hx => hPlain x (List.mem_cons_of_mem c hx))
            hLater,
          prepend_some]
        rfl

------------------------------------------------------------
-- Strings Of Any Form
------------------------------------------------------------

/- Text that may follow a string: it does not go on with a quote. -/
def NoQuote (rest : List Char) : Prop :=
  rest.head? ≠ some '"' ∧ rest.head? ≠ some '\''

theorem dropNewline_of_head?
    {cs : List Char}
    (hHead : cs.head? ≠ some '\n') :
    dropNewline cs = cs := by
  unfold dropNewline
  split
  · simp at hHead
  · rfl

/-
  The newline after the opening quotes stands there when the
  string has one, so that no newline of the string is taken
  for it.
-/
theorem dropNewline_opening
    {cs body : List Char}
    (hBody : body.head? = some '\n' → '\n' ∈ cs) :
    dropNewline
        ((if cs.contains '\n' then ['\n'] else []) ++ body) =
      body := by
  by_cases hNewline : '\n' ∈ cs
  · rw [if_pos (List.contains_iff_mem.mpr hNewline)]
    rfl
  · rw [if_neg (by simpa using hNewline), List.nil_append]
    exact dropNewline_of_head? fun h => hNewline (hBody h)

theorem mem_of_escapedFrom_head?
    {run : Nat}
    {cs rest : List Char}
    (hRest : rest.head? ≠ some '\n')
    (hHead :
      (escapedFrom true run cs ++ rest).head? = some '\n') :
    '\n' ∈ cs := by
  cases cs with
  | nil => exact absurd hHead hRest
  | cons c cs =>
      unfold escapedFrom at hHead
      split at hHead
      · split at hHead <;> simp at hHead
      · rcases escapedChar_cases true c with ⟨tail, hc⟩ | hc
        · simp [hc] at hHead
        · simp only [hc, List.cons_append, List.head?_cons,
            Option.some.injEq] at hHead
          simp [hHead]

theorem mem_of_append_head?
    {cs rest : List Char}
    (hRest : rest.head? ≠ some '\n')
    (hHead : (cs ++ rest).head? = some '\n') :
    '\n' ∈ cs := by
  cases cs with
  | nil => exact absurd hHead hRest
  | cons c cs => simp_all

/- Nothing is hidden in a string that is written as it is. -/
theorem of_stringForm_literal
    {cs : List Char}
    (hForm : stringForm cs = .literal) :
    ∀ c ∈ cs, isPlain c = true ∧ c ≠ '\'' := by
  have hHolds :
      (!cs.any isHidden && !cs.contains '\''
        && !cs.contains '\n') = true := by
    unfold stringForm at hForm
    grind
  simp only [isHidden, isControl, Bool.and_eq_true,
    Bool.not_eq_true', List.any_eq_false, List.contains_eq_mem,
    decide_eq_false_iff_not] at hHolds
  grind

theorem of_stringForm_longLiteral
    {cs : List Char}
    (hForm : stringForm cs = .longLiteral) :
    (∀ c ∈ cs, isPlain c = true ∨ c = '\n') ∧
      hasTriple '\'' cs = false := by
  have hHolds :
      (!cs.any isHidden && !hasTriple '\'' cs) = true := by
    unfold stringForm at hForm
    grind
  simp only [isHidden, isControl, Bool.and_eq_true,
    Bool.not_eq_true', List.any_eq_false] at hHolds
  grind

/- A quote that two more do not follow opens a short string. -/
theorem readString_short
    {cs : List Char}
    (hShort : cs.take 2 ≠ ['"', '"']) :
    readString ('"' :: cs) = readBasic .plain cs := by
  unfold readString
  split
  · next hLong => simp_all
  · next hSame => simp_all
  all_goals simp_all

theorem readString_shortLiteral
    {cs : List Char}
    (hShort : cs.take 2 ≠ ['\'', '\'']) :
    readString ('\'' :: cs) = readLiteral cs := by
  unfold readString
  split
  all_goals simp_all

theorem readString_basic
    {cs rest : List Char}
    (hRest : NoQuote rest) :
    readString (writeAs .basic cs ++ rest) = some (cs, rest) := by
  have hShort :
      (escapedFrom false 0 cs ++ '"' :: rest).take 2 ≠
        ['"', '"'] := by
    cases cs with
    | nil =>
        intro hTake
        apply hRest.1
        cases rest <;> simp_all [escapedFrom]
    | cons c cs =>
        unfold escapedFrom
        split
        · simp
        · rcases escapedChar_cases false c with ⟨tail, hc⟩ | hc <;>
            simp_all
  rw [← readBasic_escapedFrom, ← readString_short hShort]
  simp [writeAs]

theorem readString_literal
    {cs rest : List Char}
    (hPlain : ∀ c ∈ cs, isPlain c = true ∧ c ≠ '\'')
    (hRest : NoQuote rest) :
    readString (writeAs .literal cs ++ rest) = some (cs, rest) := by
  have hShort :
      (cs ++ '\'' :: rest).take 2 ≠ ['\'', '\''] := by
    cases cs with
    | nil =>
        intro hTake
        apply hRest.2
        cases rest <;> simp_all
    | cons c cs => simp_all
  rw [← readLiteral_append hPlain, ← readString_shortLiteral hShort]
  simp [writeAs]

theorem readString_longBasic
    {cs rest : List Char}
    (hRest : NoQuote rest) :
    readString (writeAs .longBasic cs ++ rest) =
      some (cs, rest) := by
  have hBody :
      readLongBasic .plain
          (escapedFrom true 0 cs ++ (tripled '"' ++ rest)) =
        some (cs, rest) :=
    readLongBasic_escapedFrom (by omega) hRest.1 cs
  have hTripled : (tripled '"' ++ rest).head? ≠ some '\n' := by
    simp [tripled]
  rw [← dropNewline_opening (mem_of_escapedFrom_head? hTripled)]
    at hBody
  rw [← hBody]
  simp [writeAs, opening, tripled, readString]

theorem readString_longLiteral
    {cs rest : List Char}
    (hPlain : ∀ c ∈ cs, isPlain c = true ∨ c = '\n')
    (hTriple : hasTriple '\'' cs = false)
    (hRest : NoQuote rest) :
    readString (writeAs .longLiteral cs ++ rest) =
      some (cs, rest) := by
  have hBody := readLongLiteral_append hPlain hTriple hRest.2
  have hTripled : (tripled '\'' ++ rest).head? ≠ some '\n' := by
    simp [tripled]
  rw [← dropNewline_opening (mem_of_append_head? hTripled)]
    at hBody
  rw [← hBody]
  simp [writeAs, opening, tripled, readString]

theorem readString_writeString
    {cs rest : List Char}
    (hRest : NoQuote rest) :
    readString (writeString cs ++ rest) = some (cs, rest) := by
  rw [writeString]
  cases hForm : stringForm cs with
  | basic => exact readString_basic hRest
  | literal =>
      exact readString_literal (of_stringForm_literal hForm) hRest
  | longBasic => exact readString_longBasic hRest
  | longLiteral =>
      obtain ⟨hPlain, hTriple⟩ := of_stringForm_longLiteral hForm
      exact readString_longLiteral hPlain hTriple hRest

------------------------------------------------------------
-- Keys
------------------------------------------------------------

/- Text that may follow a name: it does not go on as a bare one. -/
def NoBare (rest : List Char) : Prop :=
  ∀ c ∈ rest.head?, isBare c = false

theorem readName_basic
    (cs rest : List Char) :
    readName (writeAs .basic cs ++ rest) =
      some (String.ofList cs, rest) := by
  have hBody := readBasic_escapedFrom cs rest
  simp [writeAs, readName, hBody]

theorem readName_literal
    {cs : List Char}
    (hPlain : ∀ c ∈ cs, isPlain c = true ∧ c ≠ '\'')
    (rest : List Char) :
    readName (writeAs .literal cs ++ rest) =
      some (String.ofList cs, rest) := by
  have hBody := readLiteral_append hPlain rest
  simp [writeAs, readName, hBody]

theorem readName_bare
    {cs rest : List Char}
    (hCs : cs ≠ [])
    (hBare : ∀ c ∈ cs, isBare c = true)
    (hRest : NoBare rest) :
    readName (cs ++ rest) = some (String.ofList cs, rest) := by
  have hTake := takeWhile_append_of_head? hBare hRest
  have hDrop := dropWhile_append_of_head? hBare hRest
  obtain ⟨c, cs, rfl⟩ := List.exists_cons_of_ne_nil hCs
  have hc : isBare c = true := hBare c List.mem_cons_self
  unfold readName
  split
  · next hQuote =>
      obtain ⟨rfl, -⟩ := List.cons.inj hQuote
      simp [isBare] at hc
  · next hQuote =>
      obtain ⟨rfl, -⟩ := List.cons.inj hQuote
      simp [isBare] at hc
  · rw [hTake, hDrop]
    rfl

/- Whatever its name, a key is read back. -/
theorem readName_writeKey
    (name : String)
    {rest : List Char}
    (hRest : NoBare rest) :
    readName (writeKey name ++ rest) = some (name, rest) := by
  have hSame : name = String.ofList name.toList := by simp
  unfold writeKey
  dsimp only
  split
  · next hBare =>
      simp only [Bool.and_eq_true, Bool.not_eq_true',
        List.isEmpty_eq_false_iff, List.all_eq_true] at hBare
      rw [readName_bare hBare.1 hBare.2 hRest, ← hSame]
  split
  · rw [readName_basic, ← hSame]
  split
  · next hLiteral =>
      rw [readName_literal, ← hSame]
      simp only [isControl, Bool.and_eq_true, Bool.not_eq_true',
        List.any_eq_false, List.contains_eq_mem,
        decide_eq_false_iff_not] at hLiteral
      grind
  · rw [readName_basic, ← hSame]

/- A key starts with a bare character or a quote. -/
theorem writeKey_eq_cons
    (name : String) :
    ∃ c cs, writeKey name = c :: cs ∧
      (isBare c = true ∨ c = '"' ∨ c = '\'') := by
  unfold writeKey
  dsimp only
  split
  · next hBare =>
      simp only [Bool.and_eq_true, Bool.not_eq_true',
        List.isEmpty_eq_false_iff, List.all_eq_true] at hBare
      obtain ⟨c, cs, hName⟩ := List.exists_cons_of_ne_nil hBare.1
      exact ⟨c, cs, hName, .inl (hBare.2 c (by simp [hName]))⟩
  split
  · exact ⟨_, _, rfl, .inr (.inl rfl)⟩
  split
  · exact ⟨_, _, rfl, .inr (.inr rfl)⟩
  · exact ⟨_, _, rfl, .inr (.inl rfl)⟩

/- The marks that no key starts with. -/
theorem writeKey_eq_cons_of_mark
    (name : String) :
    ∃ c cs, writeKey name = c :: cs ∧
      c ∉ ['[', '#', '\n', ' ', '\t'] := by
  obtain ⟨c, cs, hName, hc⟩ := writeKey_eq_cons name
  refine ⟨c, cs, hName, fun hMark => ?_⟩
  simp only [List.mem_cons, List.not_mem_nil, or_false] at hMark
  rcases hMark with rfl | rfl | rfl | rfl | rfl <;>
    simp [isBare] at hc

theorem skipBlank_writeKey
    (name : String)
    (rest : List Char) :
    skipBlank (writeKey name ++ rest) = writeKey name ++ rest := by
  obtain ⟨c, cs, hName, hc⟩ := writeKey_eq_cons_of_mark name
  simp only [List.mem_cons, List.not_mem_nil, or_false,
    not_or] at hc
  rw [hName, List.cons_append, skipBlank,
    List.dropWhile_cons_of_neg (by simp [isBlank, hc])]

/-
  Text that may follow a path: it goes on neither as a bare
  name nor, after blanks, with a dot.
-/
def EndsPath (rest : List Char) : Prop :=
  NoBare rest ∧ (skipBlank rest).head? ≠ some '.'

theorem readNames_last
    (name : String)
    {rest : List Char}
    (hRest : EndsPath rest)
    (room : Nat) :
    readNames (room + 1) (writeKey name ++ rest) =
      some (⟨[], name⟩, skipBlank rest) := by
  rw [readNames, skipBlank_writeKey, readName_writeKey name hRest.1,
    Option.bind_some]
  dsimp only
  split
  · next hDot => exact absurd (by rw [hDot]; rfl) hRest.2
  · rfl

theorem readNames_parent
    (parent : String)
    (room : Nat)
    (rest : List Char) :
    readNames (room + 1) (writeKey parent ++ '.' :: rest) =
      (readNames room rest).map fun found =>
        (found.1.within parent, found.2) := by
  have hDot : NoBare ('.' :: rest) := by
    simp [NoBare, isBare]
  rw [readNames, skipBlank_writeKey, readName_writeKey parent hDot]
  rfl

theorem writePath_singleton
    (name : String) :
    writePath [name] = writeKey name := by
  simp [writePath, joined]

theorem writePath_cons
    (parent : String)
    {path : List String}
    (hPath : path ≠ []) :
    writePath (parent :: path) =
      writeKey parent ++ '.' :: writePath path := by
  unfold writePath joined
  rw [List.map_cons, List.intercalate_cons_of_ne_nil (by simpa)]
  simp

theorem readNames_writePath
    (parents : List String)
    (name : String)
    {rest : List Char}
    (hRest : EndsPath rest)
    {room : Nat}
    (hRoom : parents.length < room) :
    readNames room (writePath (parents ++ [name]) ++ rest) =
      some (⟨parents, name⟩, skipBlank rest) := by
  induction parents generalizing room with
  | nil =>
      obtain ⟨room, rfl⟩ := Nat.exists_eq_add_one.mpr hRoom
      rw [List.nil_append, writePath_singleton]
      exact readNames_last name hRest room
  | cons parent parents ih =>
      obtain ⟨room, rfl⟩ :=
        Nat.exists_eq_add_one.mpr (Nat.zero_lt_of_lt hRoom)
      rw [List.cons_append, writePath_cons parent (by simp),
        List.append_assoc, List.cons_append, readNames_parent,
        ih (by simpa using hRoom)]
      rfl

------------------------------------------------------------
-- Line Ends
------------------------------------------------------------

theorem hexDigit_ne_return
    {n : Nat}
    (hn : n < 16) :
    hexDigit n ≠ '\r' := by
  revert n
  decide

/- A carriage return is never written as it is. -/
theorem noReturn_escapedChar
    (long : Bool)
    (c : Char) :
    '\r' ∉ escapedChar long c := by
  unfold escapedChar
  split; · simp
  split; · simp
  split; · cases long <;> simp
  split; · simp
  split; · simp
  split; · simp
  split
  · next hControl =>
      have hc := toNat_of_isControl hControl
      have hHigh := hexDigit_ne_return (n := c.toNat / 16) (by omega)
      have hLow := hexDigit_ne_return (n := c.toNat % 16) (by omega)
      simp [hHigh.symm, hLow.symm]
  · next hReturn _ _ => simpa [eq_comm] using hReturn

theorem noReturn_escapedFrom
    (long : Bool)
    (run : Nat)
    (cs : List Char) :
    '\r' ∉ escapedFrom long run cs := by
  induction cs generalizing run with
  | nil => simp [escapedFrom]
  | cons c cs ih =>
      unfold escapedFrom
      split
      · split <;> simp [ih]
      · simp [ih, noReturn_escapedChar]

theorem noReturn_of_isPlain
    {cs : List Char}
    (hPlain : ∀ c ∈ cs, isPlain c = true ∨ c = '\n') :
    '\r' ∉ cs := by
  intro hReturn
  have hc := hPlain _ hReturn
  simp [isPlain] at hc

theorem noReturn_writeAs_basic
    (cs : List Char) :
    '\r' ∉ writeAs .basic cs := by
  simp [writeAs, noReturn_escapedFrom]

theorem noReturn_writeString
    (cs : List Char) :
    '\r' ∉ writeString cs := by
  rw [writeString]
  cases hForm : stringForm cs with
  | basic => exact noReturn_writeAs_basic cs
  | literal =>
      have hPlain := noReturn_of_isPlain fun c hc =>
        .inl (of_stringForm_literal hForm c hc).1
      simp [writeAs, hPlain]
  | longBasic =>
      simp only [writeAs, opening, tripled]
      split <;> simp [noReturn_escapedFrom]
  | longLiteral =>
      have hPlain :=
        noReturn_of_isPlain (of_stringForm_longLiteral hForm).1
      simp only [writeAs, opening, tripled]
      split <;> simp [hPlain]

theorem noReturn_writeKey
    (name : String) :
    '\r' ∉ writeKey name := by
  unfold writeKey
  dsimp only
  split
  · next hBare =>
      intro hReturn
      simp only [Bool.and_eq_true, List.all_eq_true] at hBare
      have hc := hBare.2 _ hReturn
      simp [isBare] at hc
  split
  · exact noReturn_writeAs_basic _
  split
  · next hLiteral =>
      have hPlain : '\r' ∉ name.toList := by
        intro hReturn
        simp only [isControl, Bool.and_eq_true,
          Bool.not_eq_true', List.any_eq_false] at hLiteral
        have hc := hLiteral.1 _ hReturn
        simp [isPlain] at hc
      simp [writeAs, hPlain]
  · exact noReturn_writeAs_basic _

theorem noReturn_writePath
    (path : List String) :
    '\r' ∉ writePath path := by
  induction path with
  | nil => simp [writePath, joined]
  | cons name path ih =>
      by_cases hPath : path = []
      · rw [hPath, writePath_singleton]
        exact noReturn_writeKey name
      · rw [writePath_cons name hPath]
        simp [noReturn_writeKey, ih]

end Toml

end TemplateTree
