import TemplateTree.Proofs.TableOrder
import TemplateTree.Proofs.TomlDocuments

/-
  Engine files that are saved and loaded again.

  Main declarations:
    * `EngineFile.values`
    * `EngineFile.statements`
    * `EngineFile.spells_file`
    * `EngineFile.buildFrom_statements`
    * `EngineFile.read_save`
    * `EngineFile.saved_files_load_back`

  The text of an engine file spells its statements, and they
  build its table again.  Only the filters may move, since
  none at all are an entry and not a section.
-/

------------------------------------------------------------
-- The Options Of A File
------------------------------------------------------------

namespace TemplateTree

namespace OptionValue

theorem nestingOf_append
    (xs ys : List OptionValue) :
    nestingOf (xs ++ ys) = max (nestingOf xs) (nestingOf ys) := by
  induction xs with
  | nil => simp [nestingOf]
  | cons x xs ih => simp [nestingOf, ih, Nat.max_assoc]

theorem anyNaN_append
    (xs ys : List OptionValue) :
    anyNaN (xs ++ ys) = (anyNaN xs || anyNaN ys) := by
  induction xs with
  | nil => simp [anyNaN]
  | cons x xs ih => simp [anyNaN, ih, Bool.or_assoc]

end OptionValue

/- The values of some options. -/
def Options.values (options : Options) : List OptionValue :=
  options.entries.map Prod.snd

namespace EngineFile

/- All values of options in a file. -/
def values (file : EngineFile) : List OptionValue :=
  Options.values file.options
    ++ (file.filters.flatMap fun decl => Options.values decl.options)
    ++ Options.values file.generator.options

/- How deep the lists in a file nest. -/
def nesting (file : EngineFile) : Nat :=
  OptionValue.nestingOf file.values

/- Whether a file has a float that is no number. -/
def hasNaN (file : EngineFile) : Bool :=
  OptionValue.anyNaN file.values

end EngineFile

------------------------------------------------------------
-- Texts Of Options
------------------------------------------------------------

namespace Toml

/- No option stands under a header. -/
theorem isSection_toToml
    (option : OptionValue) :
    option.toToml.isSection = false := by
  cases option with
  | list items =>
      cases items with
      | nil => rfl
      | cons item items => cases item <;> rfl
  | _ => rfl

theorem writeSection_toToml
    (path : List String)
    (option : OptionValue) :
    writeSection path option.toToml = [] := by
  cases option with
  | list items =>
      cases items with
      | nil => rfl
      | cons item items => cases item <;> rfl
  | _ => rfl

/- The table that some options make. -/
def valueTable
    (values : List (String × OptionValue)) : Table :=
  values.map fun entry => (entry.1, entry.2.toToml)

theorem writeEntries_valueTable
    (values : List (String × OptionValue)) :
    writeEntries (valueTable values) =
      values.flatMap fun entry =>
        writeEntry (entry.1, entry.2.toToml) := by
  have hAll :
      (valueTable values).filter (fun entry => !entry.2.isSection) =
        valueTable values := by
    rw [List.filter_eq_self]
    intro entry hEntry
    obtain ⟨value, -, rfl⟩ := List.mem_map.mp hEntry
    rw [isSection_toToml]
    rfl
  rw [writeEntries, hAll, valueTable, List.flatMap_map]

theorem writeSections_valueTable
    (path : List String)
    (values : List (String × OptionValue)) :
    writeSections path (valueTable values) = [] := by
  induction values with
  | nil => rfl
  | cons value values ih =>
      change writeSection _ value.2.toToml
        ++ writeSections path (valueTable values) = []
      rw [writeSection_toToml, ih]
      rfl

theorem spells_values
    {values : List (String × OptionValue)}
    (hNumbers :
      OptionValue.anyNaN (values.map Prod.snd) = false) :
    Spells (writeEntries (valueTable values))
      (OptionValue.nestingOf (values.map Prod.snd))
      (assigns values) := by
  rw [writeEntries_valueTable]
  induction values with
  | nil => exact spells_nil
  | cons value values ih =>
      obtain ⟨hFirst, hLater⟩ := Bool.or_eq_false_iff.mp hNumbers
      rw [List.flatMap_cons]
      exact (spells_entry value.1 hFirst).append (ih hLater)

/- A header with the options after it. -/
theorem spells_options
    {parents : List String}
    (hPath : parents.length < valueRoom)
    (name : String)
    {options : Options}
    (hNumbers :
      OptionValue.anyNaN (Options.values options) = false) :
    Spells
      (writeSection (parents ++ [name])
        (.table (Options.toTable options)))
      (OptionValue.nestingOf (Options.values options))
      (.table ⟨parents, name⟩ :: assigns options.entries) := by
  have hText :
      writeSection (parents ++ [name])
          (.table (Options.toTable options)) =
        tableHeader (parents ++ [name])
          ++ writeEntries (valueTable options.entries) := by
    change tableHeader (parents ++ [name])
        ++ writeEntries (valueTable options.entries)
        ++ writeSections (parents ++ [name])
          (valueTable options.entries) = _
    rw [writeSections_valueTable, List.append_nil]
  rw [hText, ← Nat.zero_max (OptionValue.nestingOf _)]
  exact (spells_tableHeader hPath name).append
    (spells_values hNumbers)

theorem map_within_assigns
    (name : String)
    (values : List (String × OptionValue)) :
    (assigns values).map (Statement.within name) =
      assigns values := by
  rw [assigns, List.map_map]
  rfl

theorem Spells.of_depth
    {text : List Char}
    {depth depth' : Nat}
    {statements : List Statement}
    (h : Spells text depth statements)
    (hDepth : depth ≤ valueRoom ↔ depth' ≤ valueRoom) :
    Spells text depth' statements := by
  have hSame :
      upTo valueRoom depth' statements =
        upTo valueRoom depth statements := by
    simp only [upTo, hDepth]
  exact ⟨fun hRest => hSame ▸ h.reads hRest, h.no_return⟩

end Toml

------------------------------------------------------------
-- Texts Of Files
------------------------------------------------------------

/- The statements of a stage, seen from its own table. -/
def DeclaredStage.statements
    (decl : DeclaredStage) : List Toml.Statement :=
  Toml.assigns [("name", .text decl.name)]
    ++ .table ⟨[], "options"⟩ :: Toml.assigns decl.options.entries

theorem DeclaredStage.spells_stage
    (parent : String)
    {decl : DeclaredStage}
    (hNumbers :
      OptionValue.anyNaN (Options.values decl.options) = false) :
    Toml.Spells
      (Toml.writeEntries decl.toTable
        ++ Toml.writeSections [parent] decl.toTable)
      (OptionValue.nestingOf (Options.values decl.options))
      (decl.statements.map (Toml.Statement.within parent)) := by
  have hText :
      Toml.writeSections [parent] decl.toTable =
        Toml.writeSection ([parent] ++ ["options"])
          (.table (Options.toTable decl.options)) :=
    List.append_nil _
  have hStatements :
      decl.statements.map (Toml.Statement.within parent) =
        Toml.assigns [("name", .text decl.name)]
          ++ .table ⟨[parent], "options"⟩
            :: Toml.assigns decl.options.entries := by
    rw [statements, List.map_append, List.map_cons,
      Toml.map_within_assigns, Toml.map_within_assigns]
    rfl
  have hName :
      Toml.Spells
        (Toml.writeEntries
          (Toml.valueTable [("name", .text decl.name)]))
        0 (Toml.assigns [("name", .text decl.name)]) :=
    Toml.spells_values rfl
  have hPath : [parent].length < Toml.valueRoom :=
    show 1 < Toml.valueRoom by decide
  rw [hText, hStatements, ← Nat.zero_max (OptionValue.nestingOf _)]
  exact hName.append
    (Toml.spells_options hPath "options" hNumbers)

namespace EngineFile

/- A path of one name is short enough to be read. -/
theorem noParents : ([] : List String).length < Toml.valueRoom := by
  decide

/- The options of a file itself that are no section. -/
def rootValues (file : EngineFile) : List (String × OptionValue) :=
  ("name", .text file.name)
    :: if file.filters = [] then [("filters", .list [])] else []

/- The statements of the filters of a file. -/
def filterStatements
    (filters : List DeclaredStage) : List Toml.Statement :=
  filters.flatMap fun decl =>
    .element ⟨[], "filters"⟩
      :: decl.statements.map (Toml.Statement.within "filters")

/- The statements of a file. -/
def statements (file : EngineFile) : List Toml.Statement :=
  Toml.assigns file.rootValues
    ++ (.table ⟨[], "options"⟩
      :: (Toml.assigns file.options.entries
        ++ (filterStatements file.filters
          ++ .table ⟨[], "generator"⟩
            :: file.generator.statements.map
              (Toml.Statement.within "generator"))))

theorem spells_filters
    {filters : List DeclaredStage}
    (hNumbers :
      OptionValue.anyNaN
        (filters.flatMap fun decl => Options.values decl.options) =
          false) :
    Toml.Spells
      (Toml.writeElements ["filters"]
        (filters.map fun decl => .table decl.toTable))
      (OptionValue.nestingOf
        (filters.flatMap fun decl => Options.values decl.options))
      (filterStatements filters) := by
  induction filters with
  | nil => exact Toml.spells_nil
  | cons decl filters ih =>
      rw [List.flatMap_cons, OptionValue.anyNaN_append,
        Bool.or_eq_false_iff] at hNumbers
      have hText :
          Toml.writeElements ["filters"]
              ((decl :: filters).map fun decl =>
                .table decl.toTable) =
            (Toml.elementHeader ([] ++ ["filters"])
              ++ (Toml.writeEntries decl.toTable
                ++ Toml.writeSections ["filters"] decl.toTable))
              ++ Toml.writeElements ["filters"]
                (filters.map fun decl => .table decl.toTable) := by
        rw [← List.append_assoc]
        rfl
      have hHeader := Toml.spells_elementHeader noParents "filters"
      rw [hText, List.flatMap_cons, OptionValue.nestingOf_append,
        filterStatements, List.flatMap_cons]
      refine Toml.Spells.append ?_ (ih hNumbers.2)
      exact Nat.zero_max (OptionValue.nestingOf _) ▸
        hHeader.append (decl.spells_stage "filters" hNumbers.1)

/- Filters are written as elements, and none as nothing. -/
theorem writeSection_filters
    (filters : List DeclaredStage) :
    Toml.writeSection ["filters"]
        (.array (filters.map fun decl => .table decl.toTable)) =
      Toml.writeElements ["filters"]
        (filters.map fun decl => .table decl.toTable) := by
  have hTables :
      (filters.map fun decl => Toml.Value.table decl.toTable).all
        Toml.Value.isTable = true := by
    simp [Toml.Value.isTable]
  cases filters with
  | nil => rfl
  | cons decl filters => exact if_pos hTables

theorem spells_generator
    {decl : DeclaredStage}
    (hNumbers :
      OptionValue.anyNaN (Options.values decl.options) = false) :
    Toml.Spells
      (Toml.writeSection ["generator"] (.table decl.toTable))
      (OptionValue.nestingOf (Options.values decl.options))
      (.table ⟨[], "generator"⟩
        :: decl.statements.map
          (Toml.Statement.within "generator")) := by
  have hText :
      Toml.writeSection ["generator"] (.table decl.toTable) =
        Toml.tableHeader ([] ++ ["generator"])
          ++ (Toml.writeEntries decl.toTable
            ++ Toml.writeSections ["generator"] decl.toTable) := by
    rw [← List.append_assoc]
    rfl
  have hHeader := Toml.spells_tableHeader noParents "generator"
  rw [hText, ← Nat.zero_max (OptionValue.nestingOf _)]
  exact hHeader.append (decl.spells_stage "generator" hNumbers)

theorem writeEntries_file
    (file : EngineFile) :
    Toml.writeEntries file.toTable =
      Toml.writeEntries (Toml.valueTable file.rootValues) := by
  by_cases hNone : file.filters = []
  · simp [Toml.writeEntries, toTable, rootValues,
      Toml.valueTable, Toml.Value.isSection, hNone,
      OptionValue.toToml, OptionValue.listToToml]
  · simp [Toml.writeEntries, toTable, rootValues,
      Toml.valueTable, Toml.Value.isSection, Toml.Value.isTable,
      hNone, OptionValue.toToml]

theorem spells_rootValues
    (file : EngineFile) :
    Toml.Spells (Toml.writeEntries file.toTable) 0
      (Toml.assigns file.rootValues) := by
  rw [writeEntries_file]
  by_cases hNone : file.filters = []
  · rw [rootValues, if_pos hNone]
    -- No filters are an empty list, which is one level deep.
    refine (Toml.spells_values rfl).of_depth ?_
    change 1 ≤ Toml.valueRoom ↔ 0 ≤ Toml.valueRoom
    decide
  · rw [rootValues, if_neg hNone]
    exact Toml.spells_values rfl

/- The text of a file spells its statements. -/
theorem spells_file
    {file : EngineFile}
    (hNumbers : file.hasNaN = false) :
    Toml.Spells
      (Toml.writeEntries file.toTable
        ++ Toml.writeSections [] file.toTable)
      file.nesting file.statements := by
  rw [hasNaN, values, OptionValue.anyNaN_append,
    OptionValue.anyNaN_append, Bool.or_eq_false_iff,
    Bool.or_eq_false_iff] at hNumbers
  obtain ⟨⟨hOptions, hFilters⟩, hGenerator⟩ := hNumbers
  have hText :
      Toml.writeSections [] file.toTable =
        Toml.writeSection ([] ++ ["options"])
            (.table (Options.toTable file.options))
          ++ (Toml.writeElements ["filters"]
              (file.filters.map fun decl => .table decl.toTable)
            ++ Toml.writeSection ["generator"]
              (.table file.generator.toTable)) := by
    rw [← writeSection_filters, ← List.append_nil
      (Toml.writeSection ["generator"] _)]
    rfl
  rw [hText, nesting, values, OptionValue.nestingOf_append,
    OptionValue.nestingOf_append, Nat.max_assoc,
    ← Nat.zero_max (max _ _)]
  refine file.spells_rootValues.append ?_
  exact (Toml.spells_options noParents "options" hOptions).append
    ((spells_filters hFilters).append (spells_generator hGenerator))

------------------------------------------------------------
-- Tables Of Files
------------------------------------------------------------

end EngineFile

/- The entries that the statements of a stage build. -/
def DeclaredStage.items (decl : DeclaredStage) : Toml.Entries :=
  [("name", .value (.string decl.name)),
    ("options",
      .table .header (Toml.valueItems decl.options.entries))]

theorem buildFrom_options
    (options : Options) :
    Toml.buildFrom [] (Toml.assigns options.entries) [] =
      some (Toml.valueItems options.entries) :=
  Toml.buildFrom_assigns options.nodup_keys
    fun _ _ _ hNone => absurd hNone List.not_mem_nil

theorem DeclaredStage.buildFrom_statements
    (decl : DeclaredStage) :
    Toml.buildFrom [] decl.statements [] = some decl.items := by
  have hFresh :
      Toml.Entries.Fresh "options"
        [("name", .value (.string decl.name))] := by
    simp [Toml.Entries.Fresh]
  have hTable :
      Toml.buildFrom []
          (.table ⟨[], "options"⟩
            :: ((Toml.assigns decl.options.entries).map
                (Toml.Statement.within "options") ++ []))
          [("name", .value (.string decl.name))] =
        some decl.items :=
    Toml.buildFrom_table (buildFrom_options decl.options) hFresh
      Toml.headed_nil
  rw [Toml.map_within_assigns, List.append_nil] at hTable
  rw [statements, Toml.buildFrom_append (Toml.headed_table _ _)]
  exact hTable

namespace EngineFile

/- The entries of a file up to its options. -/
def optionItems (file : EngineFile) : Toml.Entries :=
  Toml.valueItems file.rootValues
    ++ [("options",
      .table .header (Toml.valueItems file.options.entries))]

/- The entries of a file up to its filters. -/
def filterItems (file : EngineFile) : Toml.Entries :=
  Toml.withElements "filters"
    (file.filters.map DeclaredStage.items) file.optionItems

/- The entries of a file. -/
def items (file : EngineFile) : Toml.Entries :=
  file.filterItems
    ++ [("generator", .table .header file.generator.items)]

theorem buildFrom_rootValues
    (file : EngineFile) :
    Toml.buildFrom [] (Toml.assigns file.rootValues) [] =
      some (Toml.valueItems file.rootValues) := by
  have hNames : (file.rootValues.map Prod.fst).Nodup := by
    unfold rootValues
    split <;> simp
  exact Toml.buildFrom_assigns hNames
    fun _ _ _ hNone => absurd hNone List.not_mem_nil

theorem fresh_options
    (file : EngineFile) :
    Toml.Entries.Fresh "options"
      (Toml.valueItems file.rootValues) := by
  unfold rootValues Toml.valueItems
  split <;> simp [Toml.Entries.Fresh]

theorem fresh_filters
    {file : EngineFile}
    (hSome : file.filters ≠ []) :
    Toml.Entries.Fresh "filters" file.optionItems := by
  rw [optionItems, rootValues, if_neg hSome]
  simp [Toml.Entries.Fresh, Toml.valueItems]

theorem fresh_generator
    (file : EngineFile) :
    Toml.Entries.Fresh "generator" file.filterItems := by
  unfold filterItems Toml.withElements optionItems rootValues
    Toml.valueItems
  split <;> split <;> simp [Toml.Entries.Fresh]

/- The statements of a file build its entries. -/
theorem buildFrom_statements
    (file : EngineFile) :
    Toml.buildFrom [] file.statements [] = some file.items := by
  have hGenerator :
      Toml.buildFrom []
          (.table ⟨[], "generator"⟩
            :: (file.generator.statements.map
                (Toml.Statement.within "generator") ++ []))
          file.filterItems =
        some file.items :=
    Toml.buildFrom_table file.generator.buildFrom_statements
      file.fresh_generator Toml.headed_nil
  have hFilters :
      Toml.buildFrom []
          (filterStatements file.filters
            ++ .table ⟨[], "generator"⟩
              :: (file.generator.statements.map
                  (Toml.Statement.within "generator") ++ []))
          (Toml.withElements "filters" [] file.optionItems) =
        some file.items :=
    (Toml.buildFrom_elements
      (fun decl _ => decl.buildFrom_statements) fresh_filters
      (Toml.headed_table _ _) []).trans hGenerator
  have hOptions :
      Toml.buildFrom []
          (.table ⟨[], "options"⟩
            :: ((Toml.assigns file.options.entries).map
                (Toml.Statement.within "options")
              ++ (filterStatements file.filters
                ++ .table ⟨[], "generator"⟩
                  :: (file.generator.statements.map
                      (Toml.Statement.within "generator") ++ []))))
          (Toml.valueItems file.rootValues) =
        some file.items :=
    (Toml.buildFrom_table (buildFrom_options file.options)
      file.fresh_options
      (Toml.headed_elements _ _ _ (Toml.headed_table _ _))).trans
        hFilters
  rw [List.append_nil, Toml.map_within_assigns] at hOptions
  rw [statements, Toml.buildFrom_append (Toml.headed_table _ _),
    buildFrom_rootValues, Option.bind_some, hOptions]

end EngineFile

namespace Toml

theorem toTable_append
    (xs ys : Entries) :
    toTable (xs ++ ys) = toTable xs ++ toTable ys := by
  induction xs with
  | nil => rfl
  | cons x xs ih =>
      rw [List.cons_append, toTable, ih]
      rfl

theorem toTable_valueItems
    (values : List (String × OptionValue)) :
    toTable (valueItems values) = valueTable values := by
  induction values with
  | nil => rfl
  | cons value values ih => exact congrArg (List.cons _) ih

end Toml

theorem DeclaredStage.toTable_items
    (decl : DeclaredStage) :
    Toml.toTable decl.items = decl.toTable := by
  change [("name", Toml.Value.string decl.name),
    ("options", .table
      (Toml.toTable (Toml.valueItems decl.options.entries)))] = _
  rw [Toml.toTable_valueItems]
  rfl

namespace EngineFile

theorem toTables_filters
    (filters : List DeclaredStage) :
    Toml.toTables (filters.map DeclaredStage.items) =
      filters.map fun decl => .table decl.toTable := by
  induction filters with
  | nil => rfl
  | cons decl filters ih =>
      rw [List.map_cons, Toml.toTables, decl.toTable_items, ih]
      rfl

theorem toTable_optionItems
    (file : EngineFile) :
    Toml.toTable file.optionItems =
      Toml.valueTable file.rootValues
        ++ [("options", .table (Options.toTable file.options))] := by
  rw [optionItems, Toml.toTable_append, Toml.toTable_valueItems,
    Toml.toTable, Toml.Item.toValue, Toml.toTable_valueItems]
  rfl

theorem toTable_items
    (file : EngineFile) :
    Toml.toTable file.items =
      Toml.toTable file.filterItems
        ++ [("generator", .table file.generator.toTable)] := by
  rw [items, Toml.toTable_append, Toml.toTable, Toml.Item.toValue,
    file.generator.toTable_items]
  rfl

/- With filters the table is built in its own order. -/
theorem toTable_items_of_filters
    {file : EngineFile}
    (hSome : file.filters ≠ []) :
    Toml.toTable file.items = file.toTable := by
  have hItems : file.filters.map DeclaredStage.items ≠ [] := by
    simpa using hSome
  rw [toTable_items, filterItems, Toml.withElements,
    if_neg hItems, Toml.toTable_append, toTable_optionItems,
    Toml.toTable, Toml.Item.toValue, toTables_filters, rootValues,
    if_neg hSome]
  rfl

/- An empty list of filters comes before the sections. -/
theorem toTable_items_of_none
    {file : EngineFile}
    (hNone : file.filters = []) :
    Toml.toTable file.items =
      [("name", .string file.name),
        ("filters", .array []),
        ("options", .table (Options.toTable file.options)),
        ("generator", .table file.generator.toTable)] := by
  rw [toTable_items, filterItems, Toml.withElements,
    if_pos (by rw [hNone]; rfl), toTable_optionItems, rootValues,
    if_pos hNone]
  rfl

/- The statements of a file build its table, up to order. -/
theorem same_items
    (file : EngineFile) :
    Toml.Table.Same (Toml.toTable file.items) file.toTable := by
  by_cases hNone : file.filters = []
  · rw [toTable_items_of_none hNone, toTable, hNone]
    refine .table rfl
      (List.forall₂_same.mpr fun value _ => .refl value) ?_
    exact .cons _ (.swap _ _ _)
  · rw [toTable_items_of_filters hNone]
    exact .refl _

------------------------------------------------------------
-- Saving And Loading
------------------------------------------------------------

/- A saved file starts with its name. -/
theorem head?_write
    (file : EngineFile) :
    (Toml.writeEntries file.toTable
      ++ Toml.writeSections [] file.toTable).head? = some 'n' := by
  have hKey : Toml.writeKey "name" = ['n', 'a', 'm', 'e'] := by
    decide
  rw [writeEntries_file, Toml.writeEntries_valueTable, rootValues,
    List.flatMap_cons, Toml.writeEntry, hKey]
  rfl

/- What is read from a saved file, as deep as lists may nest. -/
theorem read_save
    {file : EngineFile}
    (hNumbers : file.hasNaN = false) :
    Toml.read file.save =
      Toml.upTo Toml.valueRoom file.nesting
        (Toml.toTable file.items) := by
  have hBuild :
      Toml.build file.statements =
        some (Toml.toTable file.items) := by
    rw [Toml.build, file.buildFrom_statements]
    rfl
  rw [save, Toml.write, (spells_file hNumbers).read_eq]
  · unfold Toml.upTo
    split
    · exact hBuild
    · rfl
  · rw [head?_write]
    decide

end EngineFile

/- A table that is written and read again, up to order. -/
def Toml.ReadsBack (table : Toml.Table) : Prop :=
  ∃ found, Toml.read (Toml.write table) = some found ∧
    Toml.Table.Same found table

namespace EngineFile

theorem nesting_le_iff
    (file : EngineFile) :
    file.nesting ≤ Toml.valueRoom ↔
      file.nesting < Toml.nestingLimit :=
  Nat.le_sub_one_iff_lt (by decide)

theorem readsBack_iff
    {file : EngineFile}
    (hNumbers : file.hasNaN = false) :
    Toml.ReadsBack file.toTable ↔
      file.nesting < Toml.nestingLimit := by
  have hRead := read_save hNumbers
  rw [save] at hRead
  rw [← nesting_le_iff]
  constructor
  · rintro ⟨found, hFound, -⟩
    by_contra hDeep
    rw [hRead, Toml.upTo, if_neg hDeep] at hFound
    simp at hFound
  · intro hDepth
    rw [Toml.upTo, if_pos hDepth] at hRead
    exact ⟨_, hRead, file.same_items⟩

theorem load_of_readsBack
    {file : EngineFile}
    (hFile : Toml.ReadsBack file.toTable) :
    load file.save = .ok file := by
  obtain ⟨found, hFound, hSame⟩ := hFile
  rw [load, save, hFound]
  exact ofTable_of_same hSame

theorem load_of_deep
    {file : EngineFile}
    (hNumbers : file.hasNaN = false)
    (hDeep : Toml.nestingLimit ≤ file.nesting) :
    load file.save = .error .notToml := by
  have hRoom : ¬ file.nesting ≤ Toml.valueRoom :=
    fun h => Nat.not_lt.mpr hDeep (file.nesting_le_iff.mp h)
  rw [load, read_save hNumbers, Toml.upTo, if_neg hRoom]

/-
  Whatever table has the entries of a file, in any order,
  declares that file, so a saved file is loaded back whenever
  its text is read as what was written.  It is exactly if no
  lists nest too deep, and otherwise the file is refused.
-/
theorem saved_files_load_back
    (file : EngineFile)
    (hNumbers : file.hasNaN = false) :
    (∀ table : Toml.Table,
        table.Same file.toTable → ofTable table = .ok file) ∧
      (Toml.ReadsBack file.toTable →
        load file.save = .ok file) ∧
      (Toml.ReadsBack file.toTable ↔
        file.nesting < Toml.nestingLimit) ∧
      (Toml.nestingLimit ≤ file.nesting →
        load file.save = .error .notToml) :=
  ⟨fun _ hSame => ofTable_of_same hSame, load_of_readsBack,
    readsBack_iff hNumbers, load_of_deep hNumbers⟩

end EngineFile

namespace MixedFile

/- A list with a list in it, and a zero with a sign. -/
def options : Options where
  entries :=
    [("deep list",
        .list
          [.list [.int (-1), .float ⟨0xfff0000000000000⟩],
            .text "it's \"one\"\r\n", .bool true]),
      ("zero", .float ⟨0x8000000000000000⟩)]
  sorted := List.pairwise_pair.mpr (by decide)

/- No filters, and options of the engine but of no stage. -/
def file : EngineFile where
  name := ""
  options := options
  filters := []
  generator := .named "buffer"

theorem mixed_file_loads_back :
    file.hasNaN = false ∧ file.nesting = 2 ∧
      EngineFile.load file.save = .ok file := by
  have hLoads := EngineFile.saved_files_load_back file (by decide)
  have hNesting : file.nesting = 2 := by decide
  refine ⟨by decide, hNesting, hLoads.2.1 (hLoads.2.2.1.mpr ?_)⟩
  rw [hNesting]
  decide

end MixedFile

end TemplateTree
