/-
  The parts of a text between separators.

  Key definitions include:
    * `Text.split`
    * `Text.dropTrailing`

  Key theorems include:
    * `Text.split_append_separator`
    * `Text.not_mem_of_mem_split`
-/

------------------------------------------------------------
-- Parts
------------------------------------------------------------

namespace TemplateTree

namespace Text

/-
  The parts of a text between separators.  There is one part
  more than there are separators, and a part may be empty.
-/
def split
    (separator : Char) :
    List Char → List (List Char)
| [] => [[]]
| c :: rest =>
    if c = separator then [] :: split separator rest
    else
      match split separator rest with
      | [] => [[c]]
      | part :: parts => (c :: part) :: parts

/- There is always a part. -/
theorem split_ne_nil
    (separator : Char)
    (cs : List Char) :
    split separator cs ≠ [] := by
  cases cs with
  | nil => simp [split]
  | cons c rest =>
      rw [split]
      split
      · simp
      · split <;> simp

/- A part without separators ends at the first one. -/
theorem split_append_separator
    {separator : Char}
    {part : List Char}
    (hPart : separator ∉ part)
    (rest : List Char) :
    split separator (part ++ separator :: rest) =
      part :: split separator rest := by
  induction part with
  | nil =>
      rw [List.nil_append, split, if_pos rfl]
  | cons c part ih =>
      rw [List.mem_cons, not_or] at hPart
      rw [List.cons_append, split, if_neg (Ne.symm hPart.1),
        ih hPart.2]

/- No part has a separator in it. -/
theorem not_mem_of_mem_split
    {separator : Char}
    {cs part : List Char}
    (hPart : part ∈ split separator cs) :
    separator ∉ part := by
  induction cs generalizing part with
  | nil =>
      rw [split, List.mem_singleton] at hPart
      simp [hPart]
  | cons c rest ih =>
      rw [split] at hPart
      split at hPart
      · rcases List.mem_cons.mp hPart with rfl | hPart
        · simp
        · exact ih hPart
      · next hNe =>
          split at hPart
          · rw [List.mem_singleton] at hPart
            simp [hPart, Ne.symm hNe]
          · next first parts hParts =>
              rw [hParts] at ih
              rcases List.mem_cons.mp hPart with rfl | hPart
              · have hFirst : separator ∉ first :=
                  ih List.mem_cons_self
                simp [hFirst, Ne.symm hNe]
              · exact ih (List.mem_cons_of_mem _ hPart)

/- A text without the run of one character at its end. -/
def dropTrailing
    (c : Char)
    (text : List Char) : List Char :=
  (text.reverse.dropWhile (· == c)).reverse

end Text

end TemplateTree
