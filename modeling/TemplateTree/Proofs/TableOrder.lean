import Mathlib.Data.List.Forall2
import TemplateTree.EngineFile
import TemplateTree.Proofs.Except
import TemplateTree.Proofs.NameMaps

/-
  Engine files and the order of the entries of their tables.

  Main declarations:
    * `Toml.Value.Same`
    * `EngineFile.FieldReader`
    * `EngineFile.FieldReader.read_of_same`
    * `EngineFile.readOptions_of_same`
    * `EngineFile.readStage_of_same`
    * `EngineFile.ofTable_of_same`

  A table of a document has no order that counts.  The entries
  of an engine, of a stage and of its options are each read
  one after another, and two of them with different names can
  change places.
-/

------------------------------------------------------------
-- Values Up To Order
------------------------------------------------------------

namespace TemplateTree

namespace Toml

/- Values that differ in the order of entries at most. -/
inductive Value.Same : Value → Value → Prop
| refl (value : Value) : Same value value
| array {xs ys : List Value} :
    List.Forall₂ Same xs ys → Same (.array xs) (.array ys)
| table {xs ys zs : Table} :
    xs.map Prod.fst = ys.map Prod.fst →
    List.Forall₂ Same (xs.map Prod.snd) (ys.map Prod.snd) →
    ys.Perm zs →
    Same (.table xs) (.table zs)

namespace Value.Same

theorem exists_of_array
    {value : Value}
    {ys : List Value}
    (h : value.Same (.array ys)) :
    ∃ xs, value = .array xs ∧ List.Forall₂ Same xs ys := by
  cases h with
  | refl => exact ⟨ys, rfl, List.forall₂_same.mpr fun y _ => refl y⟩
  | array hItems => exact ⟨_, rfl, hItems⟩

theorem exists_of_table
    {value : Value}
    {zs : Table}
    (h : value.Same (.table zs)) :
    ∃ xs ys : Table, value = .table xs ∧
      xs.map Prod.fst = ys.map Prod.fst ∧
      List.Forall₂ Same (xs.map Prod.snd) (ys.map Prod.snd) ∧
      ys.Perm zs := by
  cases h with
  | refl =>
      exact ⟨zs, zs, rfl, rfl,
        List.forall₂_same.mpr fun y _ => refl y, .refl zs⟩
  | table hNames hValues hPerm =>
      exact ⟨_, _, rfl, hNames, hValues, hPerm⟩

theorem eq_string
    {value : Value}
    {text : String}
    (h : value.Same (.string text)) :
    value = .string text := by
  cases h
  rfl

mutual

/- An option has no tables, so nothing in it can be moved. -/
theorem eq_toToml :
    (option : OptionValue) →
    {value : Value} →
    value.Same option.toToml →
    value = option.toToml
| .bool _, _, h => by cases h; rfl
| .int _, _, h => by cases h; rfl
| .float _, _, h => by cases h; rfl
| .text _, _, h => by cases h; rfl
| .list items, _, h => by
    rcases exists_of_array h with ⟨xs, rfl, hItems⟩
    rw [eq_listToToml items hItems]
    rfl

theorem eq_listToToml :
    (items : List OptionValue) →
    {xs : List Value} →
    List.Forall₂ Same xs (OptionValue.listToToml items) →
    xs = OptionValue.listToToml items
| [], _, h => by cases h; rfl
| item :: items, _, h => by
    rcases h with - | ⟨hFirst, hRest⟩
    rw [eq_toToml item hFirst, eq_listToToml items hRest]
    rfl

end

end Value.Same

/- Tables that differ in the order of entries at most. -/
def Table.Same (table table' : Table) : Prop :=
  Value.Same (.table table) (.table table')

end Toml

------------------------------------------------------------
-- Readers Of Fields
------------------------------------------------------------

namespace EngineFile

/-
  A reader of the entries of a table, one after another.  Each
  entry makes a change, and the changes of entries with
  different names can change places.
-/
structure FieldReader (σ ρ : Type) where
  read : Toml.Table → σ → Except Fault ρ
  change : String × Toml.Value → Except Fault (σ → σ)
  read_cons :
    ∀ entry rest state,
      read (entry :: rest) state =
        (change entry).bind fun f => read rest (f state)
  comm :
    ∀ {first second f g},
      first.1 ≠ second.1 →
      change first = .ok f →
      change second = .ok g →
      ∀ state, f (g state) = g (f state)

namespace FieldReader

variable {σ ρ : Type}
variable (reader : FieldReader σ ρ)

theorem read_cons_eq_ok_iff
    {entry : String × Toml.Value}
    {rest : Toml.Table}
    {state : σ}
    {result : ρ} :
    reader.read (entry :: rest) state = .ok result ↔
      ∃ f, reader.change entry = .ok f ∧
        reader.read rest (f state) = .ok result := by
  rw [reader.read_cons, Except.bind_eq_ok_iff]

theorem read_perm
    {xs ys : Toml.Table}
    (hPerm : xs.Perm ys)
    (hNames : (xs.map Prod.fst).Nodup)
    {state : σ}
    {result : ρ}
    (hRead : reader.read xs state = .ok result) :
    reader.read ys state = .ok result := by
  induction hPerm generalizing state with
  | nil => exact hRead
  | cons entry _ ih =>
      obtain ⟨f, hChange, hRest⟩ :=
        reader.read_cons_eq_ok_iff.mp hRead
      exact reader.read_cons_eq_ok_iff.mpr
        ⟨f, hChange, ih (List.nodup_cons.mp hNames).2 hRest⟩
  | swap first second rest =>
      obtain ⟨g, hSecond, hLater⟩ :=
        reader.read_cons_eq_ok_iff.mp hRead
      obtain ⟨f, hFirst, hRest⟩ :=
        reader.read_cons_eq_ok_iff.mp hLater
      have hNe : first.1 ≠ second.1 := by
        intro hSame
        simp [hSame] at hNames
      rw [reader.comm hNe hFirst hSecond] at hRest
      exact reader.read_cons_eq_ok_iff.mpr
        ⟨f, hFirst,
          reader.read_cons_eq_ok_iff.mpr ⟨g, hSecond, hRest⟩⟩
  | trans hFirst _ ih ih' =>
      exact ih' ((hFirst.map Prod.fst).nodup_iff.mp hNames)
        (ih hNames hRead)

/- Entries of which each one makes the same change. -/
theorem read_congr
    {xs ys : Toml.Table}
    (hNames : xs.map Prod.fst = ys.map Prod.fst)
    (hValues :
      List.Forall₂ Toml.Value.Same
        (xs.map Prod.snd) (ys.map Prod.snd))
    (hChange :
      ∀ y ∈ ys, ∀ value, Toml.Value.Same value y.2 →
        reader.change (y.1, value) = reader.change y)
    (state : σ) :
    reader.read xs state = reader.read ys state := by
  induction xs generalizing ys state with
  | nil =>
      rw [List.map_nil, eq_comm, List.map_eq_nil_iff] at hNames
      rw [hNames]
  | cons x xs ih =>
      cases ys with
      | nil => simp at hNames
      | cons y ys =>
          obtain ⟨hName, hNames⟩ := List.cons.inj hNames
          rcases hValues with - | ⟨hValue, hValues⟩
          obtain ⟨hFirst, hLater⟩ := List.forall_mem_cons.mp hChange
          have hSame : reader.change x = reader.change y := by
            rw [← hFirst x.2 hValue, ← hName]
          rw [reader.read_cons, reader.read_cons, hSame,
            funext (ih hNames hValues hLater)]

/-
  What is read from a table is read from it in any other order
  of its entries, if each of them makes the same change.
-/
theorem read_of_same
    {value : Toml.Value}
    {zs : Toml.Table}
    (hSame : value.Same (.table zs))
    (hNames : (zs.map Prod.fst).Nodup)
    (hChange :
      ∀ z ∈ zs, ∀ value, Toml.Value.Same value z.2 →
        reader.change (z.1, value) = reader.change z)
    {state : σ}
    {result : ρ}
    (hRead : reader.read zs state = .ok result) :
    ∃ xs, value = .table xs ∧
      reader.read xs state = .ok result := by
  obtain ⟨xs, ys, rfl, hSameNames, hValues, hPerm⟩ :=
    hSame.exists_of_table
  refine ⟨xs, rfl, ?_⟩
  rw [reader.read_congr hSameNames hValues fun y hy =>
    hChange y (hPerm.mem_iff.mp hy)]
  exact reader.read_perm hPerm.symm hNames hRead

end FieldReader

------------------------------------------------------------
-- Options
------------------------------------------------------------

mutual

theorem readOption_toToml :
    (option : OptionValue) →
    readOption option.toToml = .ok option
| .bool _ => rfl
| .int _ => rfl
| .float _ => rfl
| .text _ => rfl
| .list items => by
    rw [OptionValue.toToml, readOption, readOptionList_listToToml]
    rfl

theorem readOptionList_listToToml :
    (items : List OptionValue) →
    readOptionList (OptionValue.listToToml items) = .ok items
| [] => rfl
| item :: items => by
    rw [OptionValue.listToToml, readOptionList, readOption_toToml,
      Except.bind_ok, readOptionList_listToToml]
    rfl

end

/- The reader of options: each one finds its place by its name. -/
def optionReader : FieldReader Options Options where
  read := readEntries
  change entry :=
    (readOption entry.2).map fun value options =>
      options.insert entry.1 value
  read_cons entry rest options := by
    rw [readEntries]
    cases readOption entry.2 <;> rfl
  comm {first second f g} hNames hFirst hSecond options := by
    obtain ⟨x, -, rfl⟩ := Except.map_eq_ok_iff.mp hFirst
    obtain ⟨y, -, rfl⟩ := Except.map_eq_ok_iff.mp hSecond
    exact NameMap.insert_comm hNames.symm options y x

theorem readEntries_toTable
    (entries : List (String × OptionValue))
    (options : Options) :
    readEntries
        (entries.map fun entry => (entry.1, entry.2.toToml))
        options =
      .ok (options.insertMany entries) := by
  induction entries generalizing options with
  | nil => rfl
  | cons entry entries ih =>
      rw [List.map_cons, readEntries, readOption_toToml,
        Except.bind_ok, ih]
      rfl

theorem nodup_names
    (options : Options) :
    ((Options.toTable options).map Prod.fst).Nodup := by
  rw [Options.toTable, List.map_map]
  exact options.nodup_keys

theorem readOptions_of_same
    {value : Toml.Value}
    {options : Options}
    (hSame : value.Same (.table (Options.toTable options))) :
    readOptions value = .ok options := by
  have hRead :
      readEntries (Options.toTable options) NameMap.empty =
        .ok options := by
    have hEntries := readEntries_toTable options.entries NameMap.empty
    rwa [NameMap.insertMany_entries] at hEntries
  have hChange :
      ∀ entry ∈ Options.toTable options, ∀ value,
        Toml.Value.Same value entry.2 →
          optionReader.change (entry.1, value) =
            optionReader.change entry := by
    intro entry hEntry value hValue
    obtain ⟨option, -, rfl⟩ := List.mem_map.mp hEntry
    rw [hValue.eq_toToml]
  obtain ⟨xs, rfl, hResult⟩ :=
    optionReader.read_of_same hSame (nodup_names options) hChange
      hRead
  exact hResult

------------------------------------------------------------
-- Stages
------------------------------------------------------------

/- What is known of a stage while its fields are read. -/
abbrev StageFields := Option String × Options

/- The change that a field of a stage makes. -/
def stageChange
    (entry : String × Toml.Value) :
    Except Fault (StageFields → StageFields) :=
  if entry.1 = "name" then
    (readName entry.2).map fun name fields =>
      (some name, fields.2)
  else if entry.1 = "options" then
    (readOptions entry.2).map fun options fields =>
      (fields.1, options)
  else .ok id

theorem stageChange_cases
    {entry : String × Toml.Value}
    {f : StageFields → StageFields}
    (h : stageChange entry = .ok f) :
    (entry.1 = "name" ∧
        ∃ name, f = fun fields => (some name, fields.2)) ∨
      (entry.1 = "options" ∧
        ∃ options, f = fun fields => (fields.1, options)) ∨
      f = id := by
  unfold stageChange at h
  split at h
  · next hName =>
      obtain ⟨name, -, rfl⟩ := Except.map_eq_ok_iff.mp h
      exact .inl ⟨hName, name, rfl⟩
  split at h
  · next hName =>
      obtain ⟨options, -, rfl⟩ := Except.map_eq_ok_iff.mp h
      exact .inr (.inl ⟨hName, options, rfl⟩)
  · exact .inr (.inr (Except.ok.inj h).symm)

/- The reader of the fields of a stage. -/
def stageReader : FieldReader StageFields DeclaredStage where
  read table fields := readStageFields table fields.1 fields.2
  change := stageChange
  read_cons entry rest fields := by
    rw [readStageFields, stageChange]
    split
    · cases readName entry.2 <;> rfl
    split
    · cases readOptions entry.2 <;> rfl
    · rfl
  comm {first second f g} hNames hFirst hSecond fields := by
    rcases stageChange_cases hFirst with
      ⟨hField, x, rfl⟩ | ⟨hField, x, rfl⟩ | rfl <;>
    rcases stageChange_cases hSecond with
      ⟨hField', y, rfl⟩ | ⟨hField', y, rfl⟩ | rfl <;>
    first
      | rfl
      | exact absurd (hField.trans hField'.symm) hNames

theorem readStage_of_same
    {value : Toml.Value}
    {decl : DeclaredStage}
    (hSame : value.Same (.table decl.toTable)) :
    readStage value = .ok decl := by
  have hOptions :
      readOptions (.table (Options.toTable decl.options)) =
        .ok decl.options :=
    readOptions_of_same (.refl _)
  have hRead :
      stageReader.read decl.toTable (none, NameMap.empty) =
        .ok decl := by
    simp [stageReader, DeclaredStage.toTable, readStageFields,
      readName, hOptions]
  have hChange :
      ∀ entry ∈ decl.toTable, ∀ value,
        Toml.Value.Same value entry.2 →
          stageReader.change (entry.1, value) =
            stageReader.change entry := by
    intro entry hEntry value hValue
    simp only [DeclaredStage.toTable, List.mem_cons,
      List.not_mem_nil, or_false] at hEntry
    rcases hEntry with rfl | rfl
    · rw [hValue.eq_string]
    · have hMoved := readOptions_of_same hValue
      simp [stageReader, stageChange, hMoved, hOptions]
  obtain ⟨xs, rfl, hResult⟩ :=
    stageReader.read_of_same hSame
      (by simp [DeclaredStage.toTable]) hChange hRead
  exact hResult

/- Stages keep their order. -/
theorem readStages_of_same
    {values : List Toml.Value}
    {decls : List DeclaredStage}
    (hSame :
      List.Forall₂ Toml.Value.Same values
        (decls.map fun decl => .table decl.toTable)) :
    readStages values = .ok decls := by
  induction decls generalizing values with
  | nil =>
      cases hSame
      rfl
  | cons decl decls ih =>
      rcases hSame with - | ⟨hFirst, hRest⟩
      rw [readStages, readStage_of_same hFirst, Except.bind_ok,
        ih hRest]
      rfl

theorem readFilters_of_same
    {value : Toml.Value}
    {decls : List DeclaredStage}
    (hSame :
      value.Same
        (.array (decls.map fun decl => .table decl.toTable))) :
    readFilters value = .ok decls := by
  obtain ⟨values, rfl, hValues⟩ := hSame.exists_of_array
  exact readStages_of_same hValues

------------------------------------------------------------
-- Engines
------------------------------------------------------------

/- The change that a field of an engine makes. -/
def fileChange
    (entry : String × Toml.Value) :
    Except Fault (EngineFile → EngineFile) :=
  if entry.1 = "name" then
    (readName entry.2).map fun name file =>
      { file with name := name }
  else if entry.1 = "options" then
    (readOptions entry.2).map fun options file =>
      { file with options := options }
  else if entry.1 = "filters" then
    (readFilters entry.2).map fun filters file =>
      { file with filters := filters }
  else if entry.1 = "generator" then
    (readStage entry.2).map fun generator file =>
      { file with generator := generator }
  else .error (.unknownField entry.1)

theorem fileChange_cases
    {entry : String × Toml.Value}
    {f : EngineFile → EngineFile}
    (h : fileChange entry = .ok f) :
    (entry.1 = "name" ∧
        ∃ name, f = fun file => { file with name := name }) ∨
      (entry.1 = "options" ∧
        ∃ options,
          f = fun file => { file with options := options }) ∨
      (entry.1 = "filters" ∧
        ∃ filters,
          f = fun file => { file with filters := filters }) ∨
      (entry.1 = "generator" ∧
        ∃ generator,
          f = fun file => { file with generator := generator }) := by
  unfold fileChange at h
  split at h
  · next hName =>
      obtain ⟨name, -, rfl⟩ := Except.map_eq_ok_iff.mp h
      exact .inl ⟨hName, name, rfl⟩
  split at h
  · next hName =>
      obtain ⟨options, -, rfl⟩ := Except.map_eq_ok_iff.mp h
      exact .inr (.inl ⟨hName, options, rfl⟩)
  split at h
  · next hName =>
      obtain ⟨filters, -, rfl⟩ := Except.map_eq_ok_iff.mp h
      exact .inr (.inr (.inl ⟨hName, filters, rfl⟩))
  split at h
  · next hName =>
      obtain ⟨generator, -, rfl⟩ := Except.map_eq_ok_iff.mp h
      exact .inr (.inr (.inr ⟨hName, generator, rfl⟩))
  · simp at h

/- The reader of the fields of an engine. -/
def fileReader : FieldReader EngineFile EngineFile where
  read := readFields
  change := fileChange
  read_cons entry rest file := by
    rw [readFields, fileChange]
    split
    · cases readName entry.2 <;> rfl
    split
    · cases readOptions entry.2 <;> rfl
    split
    · cases readFilters entry.2 <;> rfl
    split
    · cases readStage entry.2 <;> rfl
    · rfl
  comm {first second f g} hNames hFirst hSecond file := by
    rcases fileChange_cases hFirst with
      ⟨hField, x, rfl⟩ | ⟨hField, x, rfl⟩ | ⟨hField, x, rfl⟩
        | ⟨hField, x, rfl⟩ <;>
    rcases fileChange_cases hSecond with
      ⟨hField', y, rfl⟩ | ⟨hField', y, rfl⟩ | ⟨hField', y, rfl⟩
        | ⟨hField', y, rfl⟩ <;>
    first
      | rfl
      | exact absurd (hField.trans hField'.symm) hNames

/- The table of an engine declares it in any order. -/
theorem ofTable_of_same
    {table : Toml.Table}
    {file : EngineFile}
    (hSame : table.Same file.toTable) :
    ofTable table = .ok file := by
  have hOptions :
      readOptions (.table (Options.toTable file.options)) =
        .ok file.options :=
    readOptions_of_same (.refl _)
  have hFilters :
      readFilters
          (.array (file.filters.map fun decl =>
            .table decl.toTable)) =
        .ok file.filters :=
    readFilters_of_same (.refl _)
  have hGenerator :
      readStage (.table file.generator.toTable) =
        .ok file.generator :=
    readStage_of_same (.refl _)
  have hRead : fileReader.read file.toTable bare = .ok file := by
    simp [fileReader, toTable, readFields, readName, hOptions,
      hFilters, hGenerator]
  have hChange :
      ∀ entry ∈ file.toTable, ∀ value,
        Toml.Value.Same value entry.2 →
          fileReader.change (entry.1, value) =
            fileReader.change entry := by
    intro entry hEntry value hValue
    simp only [toTable, List.mem_cons, List.not_mem_nil,
      or_false] at hEntry
    rcases hEntry with rfl | rfl | rfl | rfl
    · rw [hValue.eq_string]
    · have hMoved := readOptions_of_same hValue
      simp [fileReader, fileChange, hMoved, hOptions]
    · have hMoved := readFilters_of_same hValue
      simp [fileReader, fileChange, hMoved, hFilters]
    · have hMoved := readStage_of_same hValue
      simp [fileReader, fileChange, hMoved, hGenerator]
  obtain ⟨xs, hTable, hResult⟩ :=
    fileReader.read_of_same hSame (by simp [toTable]) hChange hRead
  rw [Toml.Value.table.inj hTable]
  exact hResult

end EngineFile

end TemplateTree
