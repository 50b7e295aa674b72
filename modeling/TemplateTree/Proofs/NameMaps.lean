import TemplateTree.NameMap

/-
  Maps of names after several changes.

  Main declarations:
    * `NameMap.insert_comm`
    * `NameMap.insertMany_entries`
    * `NameMap.get?_filterNames`
    * `NameMap.contains_insertMany_iff`
    * `NameMap.mem_keys_insert_iff`
    * `NameMap.mem_keys_filterNames_iff`
    * `NameMap.find?_keys_eq_some_iff`

  A map is determined by its entries, and their order by
  their names, so a map that takes over the entries of another
  one in order is that other map.
-/

------------------------------------------------------------
-- Entries In Order
------------------------------------------------------------

namespace TemplateTree

universe u

/- An entry whose name is greater than all others goes last. -/
theorem insertEntry_eq_concat
    {α : Type u}
    {name : String}
    {value : α}
    {entries : List (String × α)}
    (hSorted : NameSorted (entries ++ [(name, value)])) :
    insertEntry name value entries =
      entries ++ [(name, value)] := by
  induction entries with
  | nil => rfl
  | cons first rest ih =>
      rcases List.pairwise_cons.mp hSorted with
        ⟨hFirst, hRest⟩
      have hLt : first.1 < name :=
        hFirst (name, value) (by simp)
      have hNe : ¬ name = first.1 := by
        intro hEq
        rw [hEq] at hLt
        exact String.lt_irrefl _ hLt
      rw [insertEntry, if_neg (String.lt_asymm hLt),
        if_neg hNe, ih hRest]
      rfl

/- Entries of different names can be put in either order. -/
theorem insertEntry_comm
    {α : Type u}
    {first second : String}
    (hNames : first ≠ second)
    (x y : α)
    (entries : List (String × α)) :
    insertEntry first x (insertEntry second y entries) =
      insertEntry second y (insertEntry first x entries) := by
  have hAsymm {a b : String} (h : a < b) : ¬ b < a :=
    String.lt_asymm h
  have hTotal {a b : String} (h : ¬ a < b) (hNe : ¬ a = b) :
      b < a :=
    name_lt_of_not_lt h hNe
  have hTrans {a b c : String} (h : a < b) (h' : b < c) : a < c :=
    String.lt_trans h h'
  induction entries with
  | nil => grind [insertEntry]
  | cons entry entries ih => grind [insertEntry]

namespace NameMap

variable {α : Type u}

/- Two maps with the same entries are the same map. -/
theorem ext_entries
    {map map' : NameMap α}
    (h : map.entries = map'.entries) :
    map = map' := by
  cases map
  cases map'
  cases h
  rfl

theorem insert_comm
    {first second : String}
    (hNames : first ≠ second)
    (map : NameMap α)
    (x y : α) :
    (map.insert first x).insert second y =
      (map.insert second y).insert first x :=
  ext_entries (insertEntry_comm hNames.symm y x map.entries)

/- Entries that are added in order follow those before. -/
theorem entries_insertMany
    {map : NameMap α}
    {entries : List (String × α)}
    (hSorted : NameSorted (map.entries ++ entries)) :
    (map.insertMany entries).entries =
      map.entries ++ entries := by
  induction entries generalizing map with
  | nil => exact (List.append_nil _).symm
  | cons entry entries ih =>
      have hOne :
          (map.insert entry.1 entry.2).entries =
            map.entries ++ [entry] := by
        apply insertEntry_eq_concat
        refine List.Pairwise.sublist ?_ hSorted
        simp
      have hRest :
          NameSorted
            ((map.insert entry.1 entry.2).entries ++
              entries) := by
        rw [hOne, List.append_assoc]
        exact hSorted
      have hMany := ih hRest
      rw [hOne, List.append_assoc] at hMany
      exact hMany

/- Adding all entries of a map to none gives the map. -/
theorem insertMany_entries
    (map : NameMap α) :
    empty.insertMany map.entries = map := by
  apply ext_entries
  apply entries_insertMany
  exact map.sorted

------------------------------------------------------------
-- Names
------------------------------------------------------------

/- A name is listed if some entry has it. -/
theorem contains_iff_mem_keys
    {map : NameMap α}
    {name : String} :
    map.contains name = true ↔ name ∈ map.keys := by
  simp [contains, keys]

theorem mem_insertEntry_iff
    {name other : String}
    {value : α}
    {entries : List (String × α)} :
    other ∈ (insertEntry name value entries).map Prod.fst ↔
      other = name ∨ other ∈ entries.map Prod.fst := by
  induction entries with
  | nil => simp [insertEntry]
  | cons first rest ih =>
      rw [insertEntry]
      split
      · simp
      · split
        · next hEq => simp [hEq]
        · rw [List.map_cons, List.mem_cons, ih,
            List.map_cons, List.mem_cons]
          exact or_left_comm

/- Inserting adds one name and loses none. -/
theorem mem_keys_insert_iff
    {map : NameMap α}
    {name other : String}
    {value : α} :
    other ∈ (map.insert name value).keys ↔
      other = name ∨ other ∈ map.keys :=
  mem_insertEntry_iff

theorem insertMany_cons
    (map : NameMap α)
    (entry : String × α)
    (entries : List (String × α)) :
    map.insertMany (entry :: entries) =
      (map.insert entry.1 entry.2).insertMany entries :=
  rfl

/- A map has its old names and those that were added. -/
theorem contains_insertMany_iff
    {map : NameMap α}
    {entries : List (String × α)}
    {name : String} :
    (map.insertMany entries).contains name = true ↔
      map.contains name = true ∨
        ∃ entry ∈ entries, entry.1 = name := by
  induction entries generalizing map with
  | nil => simp [insertMany]
  | cons entry entries ih =>
      rw [insertMany_cons, ih, contains_iff_mem_keys,
        mem_keys_insert_iff, contains_iff_mem_keys]
      simp only [List.mem_cons, exists_eq_or_imp]
      rw [or_assoc, or_left_comm, eq_comm]

/- A filtered map has the names that pass its test. -/
theorem mem_keys_filterNames_iff
    {keep : String → Bool}
    {map : NameMap α}
    {name : String} :
    name ∈ (map.filterNames keep).keys ↔
      name ∈ map.keys ∧ keep name = true := by
  simp only [keys, filterNames, List.mem_map, List.mem_filter]
  constructor
  · rintro ⟨entry, ⟨hEntry, hKeep⟩, rfl⟩
    exact ⟨⟨entry, hEntry, rfl⟩, hKeep⟩
  · rintro ⟨⟨entry, hEntry, rfl⟩, hKeep⟩
    exact ⟨entry, ⟨hEntry, hKeep⟩, rfl⟩

/- A filtered map finds what passes its test. -/
theorem get?_filterNames
    (keep : String → Bool)
    (map : NameMap α)
    (name : String) :
    (map.filterNames keep).get? name =
      if keep name then map.get? name else none := by
  have hTest :
      (fun entry : String × α =>
          decide
            (keep entry.1 = true ∧ (entry.1 == name) = true)) =
        fun entry => keep name && entry.1 == name := by
    funext entry
    by_cases hName : entry.1 = name
    · simp [hName]
    · simp [hName]
  unfold get? filterNames
  rw [List.find?_filter, hTest]
  cases keep name with
  | true => simp
  | false => simp

/- The names of a map are in increasing order. -/
theorem pairwise_keys
    (map : NameMap α) :
    map.keys.Pairwise fun name other => name < other :=
  List.pairwise_map.mpr map.sorted

/- No name stands twice in a map. -/
theorem nodup_keys
    (map : NameMap α) :
    map.keys.Nodup := by
  refine map.pairwise_keys.imp ?_
  intro name other hLt hSame
  rw [hSame] at hLt
  exact String.lt_irrefl _ hLt

theorem lt_of_find?_keys
    {map : NameMap α}
    {test : String → Bool}
    {name : String}
    (hFind : map.keys.find? test = some name)
    {other : String}
    (hOther : other ∈ map.keys)
    (hTest : test other = true)
    (hNe : other ≠ name) :
    name < other := by
  rcases List.find?_eq_some_iff_append.mp hFind with
    ⟨-, before, after, hKeys, hBefore⟩
  have hSorted := map.pairwise_keys
  rw [hKeys, List.pairwise_append] at hSorted
  rw [hKeys, List.mem_append, List.mem_cons] at hOther
  rcases hOther with hMem | hEq | hMem
  · have hNot := hBefore other hMem
    rw [hTest] at hNot
    cases hNot
  · exact absurd hEq hNe
  · exact (List.pairwise_cons.mp hSorted.2.1).1 other hMem

/- The first name that passes a test is the smallest. -/
theorem find?_keys_eq_some_iff
    {map : NameMap α}
    {test : String → Bool}
    {name : String} :
    map.keys.find? test = some name ↔
      name ∈ map.keys ∧ test name = true ∧
        ∀ other ∈ map.keys,
          test other = true → other ≠ name → name < other := by
  constructor
  · intro hFind
    refine ⟨List.mem_of_find?_eq_some hFind,
      List.find?_some hFind, ?_⟩
    intro other hOther hTest hNe
    exact lt_of_find?_keys hFind hOther hTest hNe
  · rintro ⟨hName, hTest, hLeast⟩
    cases hFind : map.keys.find? test with
    | none =>
        have hNot := List.find?_eq_none.mp hFind name hName
        exact absurd hTest hNot
    | some found =>
        by_cases hEq : found = name
        · rw [hEq]
        · have hLt :=
            hLeast found (List.mem_of_find?_eq_some hFind)
              (List.find?_some hFind) hEq
          have hGt :=
            lt_of_find?_keys hFind hName hTest (Ne.symm hEq)
          exact absurd hGt (String.lt_asymm hLt)

end NameMap

end TemplateTree
