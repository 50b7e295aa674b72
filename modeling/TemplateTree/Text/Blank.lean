/-
  White space at the ends of a text.

  Key definitions include:
    * `Text.isBlank`
    * `Text.trimChars`
    * `Text.trim`

  Key theorems include:
    * `Text.trim_trim`
    * `Text.trim_eq_empty_iff`

  White space is the Unicode property White_Space.
  Expressions and fragments of code are compared, looked
  up and printed without the white space around them.
-/

------------------------------------------------------------
-- White Space
------------------------------------------------------------

namespace TemplateTree

namespace Text

/- The characters with the Unicode property White_Space. -/
def isBlank (c : Char) : Bool :=
  let n := c.toNat
  (0x9 ≤ n && n ≤ 0xd)
    || n == 0x20
    || n == 0x85
    || n == 0xa0
    || n == 0x1680
    || (0x2000 ≤ n && n ≤ 0x200a)
    || n == 0x2028
    || n == 0x2029
    || n == 0x202f
    || n == 0x205f
    || n == 0x3000

/- Drop white space from the end of a list of characters. -/
def trimEnd : List Char → List Char
| [] => []
| c :: cs =>
    match trimEnd cs with
    | [] => if isBlank c then [] else [c]
    | d :: ds => c :: d :: ds

/- Drop white space from both ends of a list of characters. -/
def trimChars (cs : List Char) : List Char :=
  trimEnd (cs.dropWhile isBlank)

/- A text without the white space at its ends. -/
def trim (s : String) : String :=
  String.ofList (trimChars s.toList)

/- Trimming the end twice is trimming it once. -/
theorem trimEnd_trimEnd
    (cs : List Char) :
    trimEnd (trimEnd cs) = trimEnd cs := by
  induction cs with
  | nil => rfl
  | cons c cs ih =>
      rw [trimEnd]
      split
      · next h =>
          split
          · rfl
          · next hc => simp [trimEnd, hc]
      · next d ds h =>
          rw [h] at ih
          rw [trimEnd, ih]

/- Trimming the end keeps a first character that stays. -/
theorem trimEnd_cons_of_not_blank
    {c : Char}
    (hc : isBlank c = false)
    (cs : List Char) :
    trimEnd (c :: cs) = c :: trimEnd cs := by
  rw [trimEnd]
  split
  · next h => simp [hc, h]
  · next d ds h => rw [h]

/- What is left after dropping starts with no white space. -/
theorem dropWhile_trimChars
    (cs : List Char) :
    (trimChars cs).dropWhile isBlank = trimChars cs := by
  unfold trimChars
  cases h : cs.dropWhile isBlank with
  | nil => rfl
  | cons c rest =>
      have hc : isBlank c = false := by
        have hHead := List.head?_dropWhile_not isBlank cs
        rw [h] at hHead
        simpa using hHead
      rw [trimEnd_cons_of_not_blank hc]
      simp [List.dropWhile, hc]

/- A trimmed text has no white space left to trim. -/
theorem trimChars_trim
    (s : String) :
    trimChars (trim s).toList = trimChars s.toList := by
  rw [trim, String.toList_ofList, trimChars,
    dropWhile_trimChars, trimChars, trimEnd_trimEnd]

theorem trim_trim
    (s : String) :
    trim (trim s) = trim s := by
  have hChars := trimChars_trim s
  exact congrArg String.ofList hChars

/- Something is left if not all of it is white space. -/
theorem trimEnd_eq_nil_iff
    {cs : List Char} :
    trimEnd cs = [] ↔ ∀ c ∈ cs, isBlank c = true := by
  induction cs with
  | nil => simp [trimEnd]
  | cons c cs ih =>
      rw [List.forall_mem_cons, ← ih, trimEnd]
      split
      · next h => simp [h]
      · next d ds h => simp [h]

theorem trim_eq_empty_iff
    {s : String} :
    trim s = "" ↔ ∀ c ∈ s.toList, isBlank c = true := by
  have hList : trim s = "" ↔ trimChars s.toList = [] := by
    rw [trim, ← String.toList_inj, String.toList_ofList]
    rfl
  rw [hList, trimChars, trimEnd_eq_nil_iff]
  constructor
  · intro hRest c hc
    rw [← List.takeWhile_append_dropWhile (p := isBlank)
      (l := s.toList), List.mem_append] at hc
    rcases hc with hBefore | hAfter
    · exact List.all_eq_true.mp List.all_takeWhile c hBefore
    · exact hRest c hAfter
  · intro hAll c hc
    exact hAll c ((List.dropWhile_sublist isBlank).subset hc)

end Text

end TemplateTree
