/-
  Finite maps from names to values, kept in increasing order
  of the names.

  Key definitions include:
    * `NameMap`
    * `NameMap.get?`
    * `NameMap.insert`
    * `NameMap.ofList`
    * `NameMap.keys`
    * `NameMap.filterNames`

  Key theorems include:
    * `NameMap.get?_insert`

  Names are ordered by their code points, which is also the
  order of their UTF-8 bytes.  Each name occurs once, so two
  maps with the same entries are equal.
-/

------------------------------------------------------------
-- Sorted Entries
------------------------------------------------------------

namespace TemplateTree

universe u

/- Entries in strictly increasing order of their names. -/
def NameSorted
    {α : Type u}
    (entries : List (String × α)) : Prop :=
  entries.Pairwise fun a b => a.1 < b.1

/- Put one entry in its place, replacing one of that name. -/
def insertEntry
    {α : Type u}
    (name : String)
    (value : α) :
    List (String × α) → List (String × α)
| [] => [(name, value)]
| entry :: rest =>
    if name < entry.1 then (name, value) :: entry :: rest
    else if name = entry.1 then (name, value) :: rest
    else entry :: insertEntry name value rest

/- An inserted name is new or was there before. -/
theorem mem_insertEntry
    {α : Type u}
    {name : String}
    {value : α}
    {entries : List (String × α)}
    {entry : String × α}
    (h : entry ∈ insertEntry name value entries) :
    entry = (name, value) ∨ entry ∈ entries := by
  induction entries with
  | nil => simpa [insertEntry] using h
  | cons first rest ih =>
      simp only [insertEntry] at h
      split at h
      · simpa using h
      · split at h
        · rcases List.mem_cons.mp h with h | h
          · exact Or.inl h
          · exact Or.inr (List.mem_cons_of_mem _ h)
        · rcases List.mem_cons.mp h with h | h
          · exact Or.inr (by simp [h])
          · rcases ih h with h | h
            · exact Or.inl h
            · exact Or.inr (List.mem_cons_of_mem _ h)

/- The larger of two different names. -/
theorem name_lt_of_not_lt
    {a b : String}
    (hLt : ¬ a < b)
    (hNe : ¬ a = b) :
    b < a := by
  rcases String.le_total a b with h | h
  · exact absurd
      (String.le_antisymm h (String.not_lt.mp hLt)) hNe
  · have hBa : ¬ a ≤ b := fun hAb =>
      hNe (String.le_antisymm hAb h)
    exact Classical.byContradiction fun hNot =>
      hBa (String.not_lt.mp hNot)

/- Inserting keeps the entries sorted. -/
theorem nameSorted_insertEntry
    {α : Type u}
    (name : String)
    (value : α)
    {entries : List (String × α)}
    (h : NameSorted entries) :
    NameSorted (insertEntry name value entries) := by
  induction entries with
  | nil => simp [insertEntry, NameSorted]
  | cons first rest ih =>
      have hRest : NameSorted rest := (List.pairwise_cons.mp h).2
      have hFirst := (List.pairwise_cons.mp h).1
      simp only [insertEntry]
      split
      · next hLt =>
          refine List.pairwise_cons.mpr ⟨?_, h⟩
          intro entry hMem
          rcases List.mem_cons.mp hMem with hEq | hMem
          · simpa [hEq] using hLt
          · exact String.lt_trans hLt (hFirst entry hMem)
      · next hNotLt =>
          split
          · next hEq =>
              refine List.pairwise_cons.mpr ⟨?_, hRest⟩
              intro entry hMem
              simpa [hEq] using hFirst entry hMem
          · next hNe =>
              refine List.pairwise_cons.mpr ⟨?_, ih hRest⟩
              intro entry hMem
              rcases mem_insertEntry hMem with hEq | hMem
              · simpa [hEq] using name_lt_of_not_lt hNotLt hNe
              · exact hFirst entry hMem

------------------------------------------------------------
-- Maps
------------------------------------------------------------

/- A finite map from names to values. -/
structure NameMap (α : Type u) where
  entries : List (String × α)
  sorted : NameSorted entries
deriving DecidableEq, Repr

namespace NameMap

variable {α β : Type u}

/- The map without entries. -/
def empty : NameMap α where
  entries := []
  sorted := List.Pairwise.nil

instance : Inhabited (NameMap α) := ⟨empty⟩

/- The value of a name. -/
def get?
    (map : NameMap α)
    (name : String) : Option α :=
  (map.entries.find? fun entry => entry.1 == name).map Prod.snd

/- Whether a name has a value. -/
def contains
    (map : NameMap α)
    (name : String) : Bool :=
  map.entries.any fun entry => entry.1 == name

/- The names with a value, in increasing order. -/
def keys (map : NameMap α) : List String :=
  map.entries.map Prod.fst

/- The number of names with a value. -/
def size (map : NameMap α) : Nat :=
  map.entries.length

/- Give a name a value, in place of any earlier one. -/
def insert
    (map : NameMap α)
    (name : String)
    (value : α) : NameMap α where
  entries := insertEntry name value map.entries
  sorted := nameSorted_insertEntry name value map.sorted

/- Add entries one after another; a later one wins. -/
def insertMany
    (map : NameMap α)
    (entries : List (String × α)) : NameMap α :=
  entries.foldl (fun m entry => m.insert entry.1 entry.2) map

/- The map of a list of entries; a later one wins. -/
def ofList (entries : List (String × α)) : NameMap α :=
  empty.insertMany entries

/- The entries whose name satisfies a test. -/
def filterNames
    (keep : String → Bool)
    (map : NameMap α) : NameMap α where
  entries := map.entries.filter fun entry => keep entry.1
  sorted := map.sorted.sublist List.filter_sublist

/- A name finds the entry that was inserted for it. -/
theorem find?_insertEntry
    (name other : String)
    (value : α)
    (entries : List (String × α)) :
    (insertEntry name value entries).find?
        (fun entry => entry.1 == other) =
      if name = other then some (name, value)
      else entries.find? fun entry => entry.1 == other := by
  induction entries with
  | nil => by_cases h : name = other <;> simp [insertEntry, h]
  | cons first rest ih =>
      simp only [insertEntry]
      split
      · by_cases h : name = other <;> simp [h]
      · split
        · next hEq =>
            by_cases h : name = other
            · simp [h]
            · have hFirst : ¬ first.1 = other := hEq ▸ h
              simp [h, hFirst]
        · next hNe =>
            by_cases h : name = other
            · have hFirst : ¬ first.1 = other :=
                fun hEq => hNe (h.trans hEq.symm)
              rw [List.find?_cons_of_neg (by simpa using hFirst), ih]
              simp [h]
            · simp [List.find?_cons, ih, h]

/- Looking up after an insertion. -/
theorem get?_insert
    (map : NameMap α)
    (name other : String)
    (value : α) :
    (map.insert name value).get? other =
      if name = other then some value else map.get? other := by
  unfold get? insert
  rw [find?_insertEntry]
  split <;> rfl

end NameMap

end TemplateTree
