import Mathlib.Data.List.Basic
import TemplateTree.Command.Directory
import TemplateTree.Proofs.Except
import TemplateTree.Proofs.NameMaps

/-
  Files of a directory after one of them is written.

  Main declarations:
    * `Directory.isFolder_below_iff`
    * `Directory.walk_append`
    * `Directory.resolve_eq_ok_iff`
    * `Directory.exists_parent_of_resolve`
    * `Directory.read_written`
    * `Directory.read_kept`
    * `Directory.Sets`
    * `Directory.sets_of_write`

  Folders are told from the paths of the files in them, so a
  new file might make a folder of what was a file before.  It
  does not, since the folder of the new file had to be there.
-/

------------------------------------------------------------
-- Paths
------------------------------------------------------------

namespace TemplateTree

namespace Path

theorem not_slash_of_mem_components
    {path name : String}
    (hName : name ∈ components path) :
    '/' ∉ name.toList := by
  have hPart := List.mem_of_mem_filter hName
  rcases List.mem_map.mp hPart with ⟨part, hSplit, rfl⟩
  rw [String.toList_ofList]
  exact Text.not_mem_of_mem_split hSplit

/- A path without components can only name a folder. -/
theorem namesFolder_of_components_eq_nil
    {path : String}
    (hPath : components path = []) :
    namesFolder path = true := by
  have hParts : parts path ≠ [] := by
    simp [parts, Text.split_ne_nil]
  rcases List.eq_nil_or_concat' (parts path) with
    hNil | ⟨before, last, hLast⟩
  · exact absurd hNil hParts
  · have hMem : last ∈ parts path := by
      rw [hLast]
      simp
    have hDrop := List.filter_eq_nil_iff.mp hPath last hMem
    by_cases hEmpty : last = ""
    · simp [namesFolder, endsInSlash, hLast, hEmpty]
    · have hDot : last = "." := by
        simpa [hEmpty] using hDrop
      simp [namesFolder, endsInDot, hLast, hDot]

end Path

------------------------------------------------------------
-- Folders
------------------------------------------------------------

namespace Directory

/- What the paths of the files in a folder start with. -/
def lead (components : List String) : List Char :=
  components.flatMap fun name => name.toList ++ ['/']

theorem lead_concat
    (components : List String)
    (name : String) :
    lead (components ++ [name]) =
      lead components ++ (name.toList ++ ['/']) := by
  simp [lead]

/- The path of a file is the lead of its folder and its name. -/
theorem toList_joined_concat
    (components : List String)
    (name : String) :
    (joined (components ++ [name])).toList =
      lead components ++ name.toList := by
  unfold joined
  induction components with
  | nil => simp [lead]
  | cons first rest ih =>
      cases rest with
      | nil => simp [lead, String.intercalate_cons_cons]
      | cons second rest =>
          simp only [List.cons_append,
            String.intercalate_cons_cons] at ih ⊢
          simp [ih, lead]

theorem isFolder_below_iff
    {dir : Directory}
    {components : List String} :
    dir.isFolder (.below components) = true ↔
      components = [] ∨
        ∃ path ∈ dir.files.keys,
          lead components <+: path.toList := by
  rcases List.eq_nil_or_concat' components with
    rfl | ⟨before, name, rfl⟩
  · simp [isFolder]
  · have hLead :
        (joined (before ++ [name]) ++ "/").toList =
          lead (before ++ [name]) := by
      rw [String.toList_append, toList_joined_concat,
        lead_concat, List.append_assoc]
      rfl
    rw [isFolder, List.any_eq_true, hLead]
    · simp
    · simp

/- The folder above a folder is a folder. -/
theorem isFolder_dropLast
    {dir : Directory}
    {components : List String}
    (h : dir.isFolder (.below components) = true) :
    dir.isFolder (.below components.dropLast) = true := by
  rcases List.eq_nil_or_concat' components with
    rfl | ⟨before, name, rfl⟩
  · exact h
  · rw [isFolder_below_iff] at h
    rw [List.dropLast_concat, isFolder_below_iff]
    rcases h with hNil | ⟨path, hPath, hLead⟩
    · simp at hNil
    · rw [lead_concat] at hLead
      exact Or.inr
        ⟨path, hPath, (List.prefix_append _ _).trans hLead⟩

------------------------------------------------------------
-- Walks
------------------------------------------------------------

/- A path is followed part by part. -/
theorem walk_append
    (dir : Directory)
    (place : Place)
    (first rest : List String) :
    dir.walk place (first ++ rest) =
      (dir.walk place first).bind fun next =>
        dir.walk next rest := by
  induction first generalizing place with
  | nil => rfl
  | cons name first ih =>
      rw [List.cons_append, walk, walk]
      split
      · split
        · rfl
        · split
          · next next hStep => exact ih next
          · rfl
      · split <;> rfl

/- The last component of a path is looked up in a folder. -/
theorem walk_singleton_eq_ok_iff
    {dir : Directory}
    {place next : Place}
    {name : String} :
    dir.walk place [name] = .ok next ↔
      dir.isFolder place = true ∧
        name.utf8ByteSize ≤ maxNameSize ∧
          step? place name = some next := by
  rw [walk]
  by_cases hFolder : dir.isFolder place = true
  · rw [if_pos hFolder]
    by_cases hSize : maxNameSize < name.utf8ByteSize
    · rw [if_pos hSize]
      simp [Nat.not_le.mpr hSize]
    · rw [if_neg hSize]
      cases hStep : step? place name with
      | none => simp
      | some found =>
          simp [walk, hFolder, Nat.not_lt.mp hSize]
  · rw [if_neg hFolder]
    split <;> simp [hFolder]

/- A step that ends at no folder follows a plain name. -/
theorem eq_below_of_step?
    {dir : Directory}
    {place next : Place}
    {name : String}
    (hStep : step? place name = some next)
    (hFolder : dir.isFolder place = true)
    (hNext : dir.isFolder next = false) :
    ∃ parent,
      place = .below parent ∧
        next = .below (parent ++ [name]) ∧ name ≠ ".." := by
  cases place with
  | above =>
      rw [step?] at hStep
      split at hStep
      · cases hStep
        cases hNext
      · cases hStep
  | below parent =>
      rw [step?] at hStep
      split at hStep
      · split at hStep
        · cases hStep
          cases hNext
        · cases hStep
          rw [isFolder_dropLast hFolder] at hNext
          cases hNext
      · next hName =>
          cases hStep
          exact ⟨parent, rfl, rfl, hName⟩

/- A path that a file system takes. -/
def Nameable (path : String) : Prop :=
  '\x00' ∉ path.toList ∧
    path ≠ "" ∧ path.utf8ByteSize ≤ maxPathSize

/- Where the components of a path are followed from. -/
def start
    (here : Place)
    (path : String) : Place :=
  if Path.isAbsolute path then .above else here

theorem resolve_eq_ok_iff
    {dir : Directory}
    {here place : Place}
    {path : String} :
    dir.resolve here path = .ok place ↔
      Nameable path ∧
        dir.walk (start here path) (Path.components path) =
          .ok place := by
  unfold resolve Nameable
  by_cases hZero : '\x00' ∈ path.toList
  · rw [if_pos (List.contains_iff_mem.mpr hZero)]
    simp [hZero]
  · rw [if_neg (mt List.contains_iff_mem.mp hZero)]
    by_cases hEmpty : path = ""
    · simp [hEmpty]
    · rw [if_neg hEmpty]
      by_cases hSize : maxPathSize < path.utf8ByteSize
      · rw [if_pos hSize]
        simp [Nat.not_le.mpr hSize]
      · rw [if_neg hSize]
        simp only [hZero, hEmpty, Nat.not_lt.mp hSize, start,
          ne_eq, not_false_eq_true, and_self, true_and]

/-
  A path that leads to no folder and does not ask for one ends
  with the name of what it leads to.
-/
theorem exists_parent_of_resolve
    {dir : Directory}
    {here place : Place}
    {path : String}
    (hResolve : dir.resolve here path = .ok place)
    (hFolder : dir.isFolder place = false)
    (hName : Path.namesFolder path = false) :
    ∃ parent name,
      place = .below (parent ++ [name]) ∧
        dir.isFolder (.below parent) = true ∧
          (Path.components path).getLast? = some name := by
  have hWalk := (resolve_eq_ok_iff.mp hResolve).2
  rcases List.eq_nil_or_concat' (Path.components path) with
    hNil | ⟨before, name, hLast⟩
  · rw [Path.namesFolder_of_components_eq_nil hNil] at hName
    cases hName
  · rw [hLast, walk_append, Except.bind_eq_ok_iff] at hWalk
    rcases hWalk with ⟨last, -, hStep⟩
    rw [walk_singleton_eq_ok_iff] at hStep
    rcases hStep with ⟨hParent, -, hStep⟩
    rcases eq_below_of_step? hStep hParent hFolder with
      ⟨parent, rfl, rfl, -⟩
    refine ⟨parent, name, rfl, hParent, ?_⟩
    rw [hLast, List.getLast?_concat]

------------------------------------------------------------
-- Reading And Writing
------------------------------------------------------------

theorem read_eq_ok_iff
    {dir : Directory}
    {here : Place}
    {path : String}
    {bytes : List UInt8} :
    dir.read here path = .ok bytes ↔
      ∃ place,
        dir.resolve here path = .ok place ∧
          dir.isFolder place = false ∧
            Path.namesFolder path = false ∧
              dir.file? place = some bytes := by
  rw [read, Except.bind_eq_ok_iff]
  apply exists_congr
  intro place
  apply and_congr_right
  intro hResolve
  cases hFolder : dir.isFolder place with
  | true => simp
  | false =>
      cases hFile : dir.file? place with
      | none => simp
      | some found =>
          cases hName : Path.namesFolder path with
          | true => simp
          | false => simp

/- A directory with some bytes in the file at a place. -/
def stored
    (dir : Directory)
    (components : List String)
    (bytes : List UInt8) : Directory :=
  ⟨dir.files.insert (joined components) bytes⟩

theorem write_eq_ok_iff
    {dir dir' : Directory}
    {here : Place}
    {path : String}
    {bytes : List UInt8} :
    dir.write here path bytes = .ok dir' ↔
      ∃ components,
        dir.resolve here path = .ok (.below components) ∧
          dir.isFolder (.below components) = false ∧
            Path.namesFolder path = false ∧
              dir' = dir.stored components bytes := by
  rw [write, Except.bind_eq_ok_iff]
  constructor
  · intro ⟨place, hResolve, hWrite⟩
    split at hWrite
    · cases hWrite
    · next hFolder =>
        split at hWrite
        · cases hWrite
        · next hDot =>
            split at hWrite
            · cases hWrite
            · next hSlash =>
                cases place with
                | above => cases hWrite
                | below components =>
                    cases hWrite
                    refine ⟨components, hResolve, ?_, ?_, rfl⟩
                    · simpa using hFolder
                    · simp [Path.namesFolder, hDot, hSlash]
  · intro ⟨components, hResolve, hFolder, hName, hStored⟩
    rw [Path.namesFolder, Bool.or_eq_false_iff] at hName
    refine ⟨_, hResolve, ?_⟩
    simp [hFolder, hName.1, hName.2, hStored, stored]

------------------------------------------------------------
-- Storing A File
------------------------------------------------------------

/- Folders stay folders when a file is stored. -/
theorem isFolder_stored
    {dir : Directory}
    {place : Place}
    (components : List String)
    (bytes : List UInt8)
    (hFolder : dir.isFolder place = true) :
    (dir.stored components bytes).isFolder place = true := by
  cases place with
  | above => rfl
  | below inner =>
      rw [isFolder_below_iff] at hFolder ⊢
      rcases hFolder with hNil | ⟨path, hPath, hLead⟩
      · exact Or.inl hNil
      · refine Or.inr ⟨path, ?_, hLead⟩
        exact NameMap.mem_keys_insert_iff.mpr (Or.inr hPath)

/- A path leads where it led before a file was stored. -/
theorem walk_stored
    {dir : Directory}
    {place next : Place}
    {names : List String}
    (components : List String)
    (bytes : List UInt8)
    (hWalk : dir.walk place names = .ok next) :
    (dir.stored components bytes).walk place names =
      .ok next := by
  induction names generalizing place with
  | nil => exact hWalk
  | cons name names ih =>
      rw [walk] at hWalk ⊢
      split at hWalk
      · next hFolder =>
          rw [if_pos (isFolder_stored components bytes hFolder)]
          split at hWalk
          · cases hWalk
          · next hSize =>
              rw [if_neg hSize]
              split at hWalk
              · next inner hStep =>
                  exact ih hWalk
              · cases hWalk
      · split at hWalk <;> cases hWalk

theorem resolve_stored
    {dir : Directory}
    {here place : Place}
    {path : String}
    (components : List String)
    (bytes : List UInt8)
    (hResolve : dir.resolve here path = .ok place) :
    (dir.stored components bytes).resolve here path =
      .ok place := by
  rw [resolve_eq_ok_iff] at hResolve ⊢
  exact ⟨hResolve.1, walk_stored components bytes hResolve.2⟩

/-
  A lead ends with a slash, so it cannot end inside a name
  that has none.
-/
theorem lead_isPrefix_of_append_name
    {inner parent : List String}
    {name : List Char}
    (hName : '/' ∉ name)
    (hLead : lead inner <+: lead parent ++ name) :
    lead inner <+: lead parent := by
  rcases List.eq_nil_or_concat' inner with
    rfl | ⟨before, last, rfl⟩
  · exact List.nil_prefix
  · rcases List.prefix_or_prefix_of_prefix hLead
        (List.prefix_append (lead parent) name) with
      hLess | ⟨more, hMore⟩
    · exact hLess
    · rw [← hMore, List.prefix_append_right_inj] at hLead
      rcases List.eq_nil_or_concat' more with
        rfl | ⟨front, c, rfl⟩
      · rw [List.append_nil] at hMore
        exact ⟨[], by rw [List.append_nil, hMore]⟩
      · rw [lead_concat, ← List.append_assoc,
          ← List.append_assoc] at hMore
        have hSlash := (List.append_inj' hMore rfl).2
        rw [List.singleton_inj] at hSlash
        have hMem : c ∈ name := hLead.subset (by simp)
        rw [hSlash] at hMem
        exact absurd hMem hName

/- No file becomes a folder when a file is stored. -/
theorem isFolder_stored_eq_false
    {dir : Directory}
    {inner parent : List String}
    {name : String}
    (bytes : List UInt8)
    (hParent : dir.isFolder (.below parent) = true)
    (hName : '/' ∉ name.toList)
    (hFolder : dir.isFolder (.below inner) = false) :
    (dir.stored (parent ++ [name]) bytes).isFolder
        (.below inner) = false := by
  rw [← Bool.not_eq_true, isFolder_below_iff] at hFolder ⊢
  intro hStored
  apply hFolder
  rcases hStored with hNil | ⟨path, hPath, hLead⟩
  · exact Or.inl hNil
  · rcases NameMap.mem_keys_insert_iff.mp hPath with rfl | hOld
    · rw [toList_joined_concat] at hLead
      have hShort := lead_isPrefix_of_append_name hName hLead
      rcases isFolder_below_iff.mp hParent with
        rfl | ⟨old, hOld, hPrefix⟩
      · rw [show lead [] = [] from rfl, List.prefix_nil]
          at hShort
        left
        cases inner with
        | nil => rfl
        | cons first rest => simp [lead] at hShort
      · exact Or.inr ⟨old, hOld, hShort.trans hPrefix⟩
    · exact Or.inr ⟨path, hOld, hLead⟩

/- The name of a file is what follows the last slash. -/
theorem takeWhile_reverse_joined
    (parent : List String)
    {name : String}
    (hName : '/' ∉ name.toList) :
    (joined (parent ++ [name])).toList.reverse.takeWhile
        (· != '/') =
      name.toList.reverse := by
  rw [toList_joined_concat, List.reverse_append,
    List.takeWhile_append_of_pos]
  · rcases List.eq_nil_or_concat' parent with
      rfl | ⟨before, last, rfl⟩
    · simp [lead]
    · simp [lead_concat]
  · intro c hc
    rw [List.mem_reverse] at hc
    have hNe : c ≠ '/' := by
      rintro rfl
      exact hName hc
    simpa using hNe

theorem name_eq_of_joined_eq
    {parent parent' : List String}
    {name name' : String}
    (hName : '/' ∉ name.toList)
    (hName' : '/' ∉ name'.toList)
    (hJoined :
      joined (parent ++ [name]) = joined (parent' ++ [name'])) :
    name = name' := by
  have hSame := takeWhile_reverse_joined parent hName
  rw [hJoined, takeWhile_reverse_joined parent' hName',
    List.reverse_inj, String.toList_inj] at hSame
  exact hSame.symm

theorem file?_stored
    (dir : Directory)
    (components inner : List String)
    (bytes : List UInt8) :
    (dir.stored components bytes).file? (.below inner) =
      if joined components = joined inner then some bytes
      else dir.file? (.below inner) := by
  exact NameMap.get?_insert dir.files _ _ bytes

/- What was written can be read. -/
theorem read_written
    {dir dir' : Directory}
    {here : Place}
    {path : String}
    {bytes : List UInt8}
    (hWrite : dir.write here path bytes = .ok dir') :
    dir'.read here path = .ok bytes := by
  rcases write_eq_ok_iff.mp hWrite with
    ⟨components, hResolve, hFolder, hNames, rfl⟩
  rcases exists_parent_of_resolve hResolve hFolder hNames with
    ⟨parent, name, hPlace, hParent, hLast⟩
  cases hPlace
  have hSlash : '/' ∉ name.toList :=
    Path.not_slash_of_mem_components
      (List.mem_of_getLast? hLast)
  apply read_eq_ok_iff.mpr
  refine ⟨_, resolve_stored _ bytes hResolve, ?_, hNames, ?_⟩
  · exact isFolder_stored_eq_false bytes hParent hSlash hFolder
  · rw [file?_stored, if_pos rfl]

/- A file with another name is still there after a write. -/
theorem read_kept
    {dir dir' : Directory}
    {here : Place}
    {path other : String}
    {bytes found : List UInt8}
    (hWrite : dir.write here path bytes = .ok dir')
    (hRead : dir.read here other = .ok found)
    (hOther :
      (Path.components path).getLast? ≠
        (Path.components other).getLast?) :
    dir'.read here other = .ok found := by
  rcases write_eq_ok_iff.mp hWrite with
    ⟨components, hResolve, hFolder, hNames, rfl⟩
  rcases exists_parent_of_resolve hResolve hFolder hNames with
    ⟨parent, name, hPlace, hParent, hLast⟩
  cases hPlace
  rcases read_eq_ok_iff.mp hRead with
    ⟨place, hResolve', hFolder', hNames', hFile⟩
  rcases exists_parent_of_resolve hResolve' hFolder' hNames' with
    ⟨parent', name', rfl, -, hLast'⟩
  have hSlash : '/' ∉ name.toList :=
    Path.not_slash_of_mem_components
      (List.mem_of_getLast? hLast)
  have hSlash' : '/' ∉ name'.toList :=
    Path.not_slash_of_mem_components
      (List.mem_of_getLast? hLast')
  have hKey :
      joined (parent ++ [name]) ≠ joined (parent' ++ [name']) := by
    intro hJoined
    apply hOther
    rw [hLast, hLast',
      name_eq_of_joined_eq hSlash hSlash' hJoined]
  apply read_eq_ok_iff.mpr
  refine ⟨_, resolve_stored _ bytes hResolve', ?_, hNames', ?_⟩
  · exact isFolder_stored_eq_false bytes hParent hSlash hFolder'
  · rw [file?_stored, if_neg hKey, hFile]

------------------------------------------------------------
-- What A Write Leaves Alone
------------------------------------------------------------

/- The file at a place in the directory that a path names. -/
def Names
    (dir : Directory)
    (here : Place)
    (path key : String) : Prop :=
  ∃ components,
    dir.resolve here path = .ok (.below components) ∧
      joined components = key

/-
  One directory is another with some bytes in the file that a
  path names.  No other file is different, and a path that
  names no such file reads what it read before.
-/
structure Sets
    (dir : Directory)
    (here : Place)
    (path : String)
    (bytes : List UInt8)
    (dir' : Directory) : Prop where
  written : dir'.read here path = .ok bytes
  kept :
    ∃ key,
      dir.Names here path key ∧
        (∀ other,
          dir'.files.get? other =
            if key = other then some bytes
            else dir.files.get? other) ∧
        ∀ other found,
          ¬ dir.Names here other key →
            (dir'.read here other = .ok found ↔
              dir.read here other = .ok found)

section Frame

variable {dir : Directory}
variable {parent : List String}
variable {name : String}

/- Neither folders nor files change into each other. -/
theorem isFolder_stored_eq
    (hParent : dir.isFolder (.below parent) = true)
    (hName : '/' ∉ name.toList)
    (bytes : List UInt8)
    (place : Place) :
    (dir.stored (parent ++ [name]) bytes).isFolder place =
      dir.isFolder place := by
  cases hFolder : dir.isFolder place with
  | true => exact isFolder_stored _ bytes hFolder
  | false =>
      cases place with
      | above => cases hFolder
      | below inner =>
          exact isFolder_stored_eq_false bytes hParent hName
            hFolder

/- So a path leads to the same place as before, or nowhere. -/
theorem walk_stored_eq_ok_iff
    (hParent : dir.isFolder (.below parent) = true)
    (hName : '/' ∉ name.toList)
    (bytes : List UInt8)
    {place next : Place}
    {names : List String} :
    (dir.stored (parent ++ [name]) bytes).walk place names =
        .ok next ↔
      dir.walk place names = .ok next := by
  induction names generalizing place with
  | nil => rw [walk, walk]
  | cons first rest ih =>
      rw [walk, walk, isFolder_stored_eq hParent hName]
      cases dir.isFolder place with
      | true =>
          simp only [if_true]
          split
          · simp
          · split
            · exact ih
            · simp
      | false =>
          -- The faults may differ, since the new file may
          -- stand where nothing was, but both walks end.
          simp only [Bool.false_eq_true, if_false]
          split <;> split <;> simp

theorem resolve_stored_eq_ok_iff
    (hParent : dir.isFolder (.below parent) = true)
    (hName : '/' ∉ name.toList)
    (bytes : List UInt8)
    {here place : Place}
    {path : String} :
    (dir.stored (parent ++ [name]) bytes).resolve here path =
        .ok place ↔
      dir.resolve here path = .ok place := by
  rw [resolve_eq_ok_iff, resolve_eq_ok_iff,
    walk_stored_eq_ok_iff hParent hName]

/- A path that names another file reads what it read. -/
theorem read_stored_eq_ok_iff
    (hParent : dir.isFolder (.below parent) = true)
    (hName : '/' ∉ name.toList)
    (bytes : List UInt8)
    {here : Place}
    {path : String}
    {found : List UInt8}
    (hOther :
      ¬ dir.Names here path (joined (parent ++ [name]))) :
    (dir.stored (parent ++ [name]) bytes).read here path =
        .ok found ↔
      dir.read here path = .ok found := by
  rw [read_eq_ok_iff, read_eq_ok_iff]
  apply exists_congr
  intro place
  rw [resolve_stored_eq_ok_iff hParent hName,
    isFolder_stored_eq hParent hName]
  apply and_congr_right
  intro hResolve
  cases place with
  | above => rfl
  | below inner =>
      have hKey :
          joined (parent ++ [name]) ≠ joined inner := by
        intro hSame
        exact hOther ⟨inner, hResolve, hSame.symm⟩
      rw [file?_stored, if_neg hKey]

end Frame

/- A write sets the file that its path names. -/
theorem sets_of_write
    {dir dir' : Directory}
    {here : Place}
    {path : String}
    {bytes : List UInt8}
    (hWrite : dir.write here path bytes = .ok dir') :
    dir.Sets here path bytes dir' := by
  refine ⟨read_written hWrite, ?_⟩
  rcases write_eq_ok_iff.mp hWrite with
    ⟨components, hResolve, hFolder, hNames, rfl⟩
  rcases exists_parent_of_resolve hResolve hFolder hNames with
    ⟨parent, name, hPlace, hParent, hLast⟩
  cases hPlace
  have hSlash : '/' ∉ name.toList :=
    Path.not_slash_of_mem_components
      (List.mem_of_getLast? hLast)
  refine ⟨_, ⟨_, hResolve, rfl⟩, ?_, ?_⟩
  · intro other
    exact NameMap.get?_insert dir.files _ other bytes
  · intro other found hOther
    exact read_stored_eq_ok_iff hParent hSlash bytes hOther

end Directory

end TemplateTree
