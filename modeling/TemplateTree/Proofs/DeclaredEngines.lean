import TemplateTree.Command
import TemplateTree.Proofs.BoundOptions
import TemplateTree.Proofs.EngineComposition
import TemplateTree.Proofs.NameMaps

/-
  The engines that an engine file declares.

  Main declarations:
    * `ResolvedOptions.bind_congr`
    * `Registry.build_congr`
    * `EngineFile.declareFilters_eq`
    * `EngineFile.Declares`
    * `EngineFile.compiler_eq_ok_iff`
    * `EngineFile.Renders`
    * `EngineFile.Renders.filterEngine_eq`
    * `compiler_runs_filters_then_generator`

  A stage sees an option of the whole engine only if it has
  declared it.  So the stages of an engine do not change when
  options are left out that none of them has declared, and the
  filters that a tree is rendered with are those that it is
  compiled with.
-/

------------------------------------------------------------
-- Options That Stages See
------------------------------------------------------------

namespace TemplateTree

namespace ResolvedOptions

/- Options of the engine with the same declared values. -/
def AgreeOn
    (specs : List OptionSpec)
    (globals globals' : Options) : Prop :=
  ∀ spec ∈ specs,
    globals.get? spec.name = globals'.get? spec.name

/- Only declared options of an engine reach a stage. -/
theorem bind_congr
    (stage : String)
    {specs : List OptionSpec}
    {globals globals' : Options}
    (locals : Options)
    (hAgree : AgreeOn specs globals globals') :
    bind stage specs globals locals =
      bind stage specs globals' locals := by
  apply bind_eq_of_effective?
  intro spec hSpec
  unfold effective?
  rw [hAgree spec hSpec]

end ResolvedOptions

/- So a registered stage is the same under like options. -/
theorem Registry.build_congr
    {a b : Type}
    {registry : Registry a b}
    {name : String}
    {globals globals' : Options}
    (locals : Options)
    (hAgree :
      ∀ specs ∈ registry.specs? name,
        ResolvedOptions.AgreeOn specs globals globals') :
    registry.build name globals locals =
      registry.build name globals' locals := by
  unfold Registry.build
  cases hGet : registry.get? name with
  | none => rfl
  | some blueprint =>
      have hSpecs :
          ResolvedOptions.AgreeOn blueprint.specs globals
            globals' := by
        apply hAgree
        simp [specs?, hGet]
      simp only [Blueprint.configure]
      rw [ResolvedOptions.bind_congr _ locals hSpecs]

------------------------------------------------------------
-- Drafts
------------------------------------------------------------

namespace Draft

variable {a b c : Type}

/- A draft that starts with some options has just these. -/
theorem withGlobals_start
    (name : String)
    (options : Options) :
    (start name : Draft a a).withGlobals options =
      ⟨name, options, NameMap.empty, .nil⟩ := by
  unfold withGlobals start
  rw [NameMap.insertMany_entries]

/- Declaring a stage that can be made adds it to a draft. -/
theorem declare_eq
    {draft : Draft a b}
    {registry : Registry b c}
    {name : String}
    {options : Options}
    {stage : Stage b c}
    (hBuild :
      registry.build name draft.globals options = .ok stage) :
    draft.declare registry name options =
      .ok
        ((draft.recognize
          ((registry.specs? name).getD [])).add stage) := by
  unfold Registry.build at hBuild
  unfold declare Registry.specs?
  cases hGet : registry.get? name with
  | none =>
      rw [hGet] at hBuild
      cases hBuild
  | some blueprint =>
      simp only [hGet] at hBuild
      simp only [configure, hBuild]
      rfl

/- An option is recognized if it was or if it is declared. -/
theorem contains_recognize_iff
    {draft : Draft a b}
    {specs : List OptionSpec}
    {name : String} :
    (draft.recognize specs).recognized.contains name = true ↔
      draft.recognized.contains name = true ∨
        declares specs name = true := by
  unfold recognize
  rw [NameMap.contains_insertMany_iff]
  simp [declares]

/- An engine is finished if all of its options are recognized. -/
theorem build_eq_ok_iff
    {draft : Draft a b}
    {engine : Engine a b} :
    draft.build = .ok engine ↔
      (∀ name ∈ draft.globals.keys,
        draft.recognized.contains name = true) ∧
        engine = ⟨draft.name, draft.chain⟩ := by
  unfold build
  cases hFind :
      draft.globals.keys.find? fun name =>
        !draft.recognized.contains name with
  | none =>
      have hAll :
          ∀ name ∈ draft.globals.keys,
            draft.recognized.contains name = true := by
        simpa using hFind
      constructor
      · intro h
        cases h
        exact ⟨hAll, rfl⟩
      · rintro ⟨-, rfl⟩
        rfl
  | some name =>
      have hMem := List.mem_of_find?_eq_some hFind
      have hNot := List.find?_some hFind
      constructor
      · intro h
        cases h
      · rintro ⟨hAll, -⟩
        rw [hAll name hMem] at hNot
        cases hNot

end Draft

------------------------------------------------------------
-- Declared Filters
------------------------------------------------------------

namespace EngineFile

/- The options that a declared filter understands. -/
def filterSpecs (decl : DeclaredStage) : List OptionSpec :=
  (Catalogue.filters.specs? decl.name).getD []

/- Stages that can be made from declarations, in order. -/
def Builds
    (globals : Options) :
    List DeclaredStage → List (Stage Node Node) → Prop :=
  List.Forall₂ fun decl stage =>
    Catalogue.filters.build decl.name globals decl.options =
      .ok stage

/-
  Filters that can be made are added to a draft one after
  another, with the options that they understand.
-/
theorem declareFilters_eq
    {decls : List DeclaredStage}
    {stages : List (Stage Node Node)}
    (draft : Draft Node Node)
    (hBuilds : Builds draft.globals decls stages) :
    ∃ recognized,
      declareFilters decls draft =
          .ok
            { draft with
              recognized := recognized
              chain := stages.foldl Chain.snoc draft.chain } ∧
        ∀ name,
          recognized.contains name = true ↔
            draft.recognized.contains name = true ∨
              ∃ decl ∈ decls,
                declares (filterSpecs decl) name = true := by
  induction decls generalizing draft stages with
  | nil =>
      cases hBuilds
      refine ⟨draft.recognized, rfl, ?_⟩
      simp
  | cons decl decls ih =>
      cases hBuilds with
      | cons hStage hStages =>
          next stage stages =>
          rcases ih
              ((draft.recognize (filterSpecs decl)).add stage)
              hStages with
            ⟨recognized, hDeclare, hNames⟩
          refine ⟨recognized, ?_, ?_⟩
          · rw [declareFilters, Draft.declare_eq hStage]
            exact hDeclare
          · intro name
            have hAdd :
                ((draft.recognize
                    (filterSpecs decl)).add
                      stage).recognized.contains name = true ↔
                  draft.recognized.contains name = true ∨
                    declares (filterSpecs decl) name = true :=
              Draft.contains_recognize_iff
            rw [hNames, hAdd]
            simp only [List.mem_cons, exists_eq_or_imp, or_assoc]

/- The draft of the declared filters of an engine. -/
theorem declareFilters_start
    (name : String)
    {globals : Options}
    {decls : List DeclaredStage}
    {stages : List (Stage Node Node)}
    (hBuilds : Builds globals decls stages) :
    ∃ recognized,
      declareFilters decls
            ((Draft.start name).withGlobals globals) =
          .ok
            ⟨name, globals, recognized,
              stages.foldl Chain.snoc .nil⟩ ∧
        ∀ option,
          recognized.contains option = true ↔
            ∃ decl ∈ decls,
              declares (filterSpecs decl) option = true := by
  rw [Draft.withGlobals_start]
  rcases declareFilters_eq
      ⟨name, globals, NameMap.empty, .nil⟩ hBuilds with
    ⟨recognized, hDeclare, hNames⟩
  refine ⟨recognized, hDeclare, ?_⟩
  intro option
  rw [hNames]
  apply or_iff_right
  intro hEmpty
  cases hEmpty

------------------------------------------------------------
-- Compilers
------------------------------------------------------------

/- The options that a declared generator understands. -/
def generatorSpecs (decl : DeclaredStage) : List OptionSpec :=
  (Catalogue.generators.specs? decl.name).getD []

/-
  The stages of a file whose generator is given: each can be
  made from its declaration, and each option of the file is
  understood by one of them.
-/
structure Declares
    (file : EngineFile)
    (generator : DeclaredStage)
    (stages : List (Stage Node Node))
    (last : Stage Node String) : Prop where
  filters : Builds file.options file.filters stages
  last :
    Catalogue.generators.build generator.name file.options
      generator.options = .ok last
  options :
    ∀ name ∈ file.options.keys,
      (∃ decl ∈ file.filters,
        declares (filterSpecs decl) name = true) ∨
        declares (generatorSpecs generator) name = true

/- A compiler has the stages that its file declares. -/
theorem compiler_eq_ok_iff
    {file : EngineFile}
    {generator : Option String}
    {engine : Engine Node String} :
    file.compiler generator = .ok engine ↔
      ∃ stages last,
        file.Declares (file.chosenGenerator generator) stages
            last ∧
          engine =
            ⟨file.name,
              (stages.foldl Chain.snoc .nil).snoc last⟩ := by
  unfold compiler
  dsimp only
  generalize file.chosenGenerator generator = decl
  constructor
  · intro h
    rcases Except.bind_eq_ok_iff.mp h with
      ⟨draft, hFilters, h⟩
    rcases Except.bind_eq_ok_iff.mp h with
      ⟨draft', hDeclare, hBuild⟩
    rcases exists_stages_of_declareFilters hFilters with
      ⟨stages, hStages, -, -⟩
    rw [Draft.withGlobals_start] at hStages
    rcases declareFilters_start file.name hStages with
      ⟨recognized, hEq, hNames⟩
    rw [hEq] at hFilters
    cases hFilters
    rcases Draft.exists_stage_of_declare hDeclare with
      ⟨last, hLast, -, -, -⟩
    rw [Draft.declare_eq hLast] at hDeclare
    cases hDeclare
    rcases Draft.build_eq_ok_iff.mp hBuild with
      ⟨hOptions, rfl⟩
    refine ⟨stages, last, ⟨hStages, hLast, ?_⟩, rfl⟩
    intro name hName
    rw [← hNames]
    exact Draft.contains_recognize_iff.mp
      (hOptions name hName)
  · rintro ⟨stages, last, hFile, rfl⟩
    rcases declareFilters_start file.name hFile.filters with
      ⟨recognized, hEq, hNames⟩
    rw [hEq, Except.bind_ok, Draft.declare_eq hFile.last,
      Except.bind_ok]
    apply Draft.build_eq_ok_iff.mpr
    refine ⟨?_, rfl⟩
    intro name hName
    have hOption := hFile.options name hName
    rw [← hNames] at hOption
    exact Draft.contains_recognize_iff.mpr hOption

------------------------------------------------------------
-- Filters Alone
------------------------------------------------------------

/- A filter of the file understands an option. -/
theorem filtersRecognize_iff
    {file : EngineFile}
    {name : String} :
    file.filtersRecognize name = true ↔
      ∃ decl ∈ file.filters,
        declares (filterSpecs decl) name = true := by
  unfold filtersRecognize filterSpecs
  rw [List.any_eq_true]
  apply exists_congr
  intro decl
  apply and_congr_right
  intro hDecl
  cases Catalogue.filters.specs? decl.name with
  | none => simp [declares]
  | some specs => simp

theorem builds_congr
    {globals globals' : Options}
    {decls : List DeclaredStage}
    (hSame :
      ∀ decl ∈ decls,
        Catalogue.filters.build decl.name globals decl.options =
          Catalogue.filters.build decl.name globals'
            decl.options)
    {stages : List (Stage Node Node)} :
    Builds globals decls stages ↔
      Builds globals' decls stages := by
  unfold Builds
  induction decls generalizing stages with
  | nil => simp only [List.forall₂_nil_left_iff]
  | cons decl decls ih =>
      rw [List.forall_mem_cons] at hSame
      simp only [List.forall₂_cons_left_iff, hSame.1,
        ih hSame.2]

/-
  Without the options that no filter understands, the filters
  are made as before.
-/
theorem builds_filterNames_iff
    {file : EngineFile}
    {stages : List (Stage Node Node)} :
    Builds (file.options.filterNames file.filtersRecognize)
        file.filters stages ↔
      Builds file.options file.filters stages := by
  apply builds_congr
  intro decl hDecl
  apply Registry.build_congr
  intro specs hSpecs spec hSpec
  have hKeep : file.filtersRecognize spec.name = true := by
    apply filtersRecognize_iff.mpr
    refine ⟨decl, hDecl, ?_⟩
    rw [filterSpecs, hSpecs, Option.getD_some, declares,
      List.any_eq_true]
    exact ⟨spec, hSpec, by simp⟩
  rw [NameMap.get?_filterNames, if_pos hKeep]

/-
  The filters of a file that can be rendered with: each can be
  made, the generator is known by its name, and each option of
  the file is understood.  Whether the generator can be made
  does not matter.
-/
structure Renders
    (file : EngineFile)
    (stages : List (Stage Node Node)) : Prop where
  filters : Builds file.options file.filters stages
  generator :
    ∃ blueprint,
      Catalogue.generators.get? file.generator.name =
        some blueprint
  options :
    ∀ name ∈ file.options.keys,
      (∃ decl ∈ file.filters,
        declares (filterSpecs decl) name = true) ∨
        declares (generatorSpecs file.generator) name = true

theorem Declares.renders
    {file : EngineFile}
    {stages : List (Stage Node Node)}
    {last : Stage Node String}
    (hFile : file.Declares file.generator stages last) :
    file.Renders stages := by
  rcases Registry.build_eq_ok_iff.mp hFile.last with
    ⟨blueprint, -, hGet, -, -⟩
  exact ⟨hFile.filters, ⟨blueprint, hGet⟩, hFile.options⟩

theorem specs?_generator
    {decl : DeclaredStage}
    {blueprint : Blueprint Node String}
    (hGet :
      Catalogue.generators.get? decl.name = some blueprint) :
    Catalogue.generators.specs? decl.name =
      some (generatorSpecs decl) := by
  simp [generatorSpecs, Registry.specs?, hGet]

/- No option of a file is left over. -/
theorem find?_foreign_eq_none_iff
    {file : EngineFile} :
    (file.options.keys.find? fun name =>
        !file.filtersRecognize name &&
          !declares (generatorSpecs file.generator) name) =
        none ↔
      ∀ name ∈ file.options.keys,
        (∃ decl ∈ file.filters,
          declares (filterSpecs decl) name = true) ∨
          declares (generatorSpecs file.generator) name =
            true := by
  rw [List.find?_eq_none]
  apply forall₂_congr
  intro name hName
  rw [← filtersRecognize_iff]
  cases file.filtersRecognize name <;> simp

/-
  Such filters make an engine of their own, unless there are
  none.
-/
theorem Renders.filterEngine_eq
    {file : EngineFile}
    {stages : List (Stage Node Node)}
    (hFile : file.Renders stages) :
    file.filterEngine =
      .ok
        (if file.filters.isEmpty then none
        else some ⟨file.name, stages.foldl Chain.snoc .nil⟩) := by
  rcases hFile.generator with ⟨blueprint, hGet⟩
  have hOptions := find?_foreign_eq_none_iff.mpr hFile.options
  unfold filterEngine
  rw [specs?_generator hGet]
  simp only [hOptions]
  split
  · rfl
  rcases declareFilters_start file.name
      (builds_filterNames_iff.mpr hFile.filters) with
    ⟨recognized, hDeclare, hNames⟩
  rw [hDeclare, Except.bind_ok, Except.map_eq_ok_iff]
  refine ⟨_, Draft.build_eq_ok_iff.mpr ⟨?_, rfl⟩, rfl⟩
  intro name hName
  rw [hNames, ← filtersRecognize_iff]
  exact (NameMap.mem_keys_filterNames_iff.mp hName).2

theorem exists_renders_of_filterEngine
    {file : EngineFile}
    {filters : Option (Engine Node Node)}
    (h : file.filterEngine = .ok filters) :
    ∃ stages, file.Renders stages := by
  unfold filterEngine at h
  cases hGet :
      Catalogue.generators.get? file.generator.name with
  | none =>
      rw [Registry.specs?, hGet] at h
      cases h
  | some blueprint =>
      rw [specs?_generator hGet] at h
      dsimp only at h
      split at h
      · cases h
      · next hOptions =>
          rw [find?_foreign_eq_none_iff] at hOptions
          split at h
          · next hEmpty =>
              rw [List.isEmpty_iff] at hEmpty
              refine ⟨[], ?_, ⟨blueprint, hGet⟩, hOptions⟩
              rw [hEmpty]
              exact List.Forall₂.nil
          · rcases Except.bind_eq_ok_iff.mp h with
              ⟨draft, hDeclare, -⟩
            rcases exists_stages_of_declareFilters hDeclare with
              ⟨stages, hStages, -, -⟩
            rw [Draft.withGlobals_start] at hStages
            exact
              ⟨stages, builds_filterNames_iff.mp hStages,
                ⟨blueprint, hGet⟩, hOptions⟩

/-
  The filters of a file that can be compiled make an engine of
  their own, unless there are none.
-/
theorem filterEngine_eq
    {file : EngineFile}
    {stages : List (Stage Node Node)}
    {last : Stage Node String}
    (hFile : file.Declares file.generator stages last) :
    file.filterEngine =
      .ok
        (if file.filters.isEmpty then none
        else some ⟨file.name, stages.foldl Chain.snoc .nil⟩) :=
  hFile.renders.filterEngine_eq

end EngineFile

------------------------------------------------------------
-- Compiling And Rendering
------------------------------------------------------------

/- The result of a run goes on unless it is a failure. -/
theorem Run.result_andThen
    {α β : Type}
    (run : Run α)
    (next : α → Run β) :
    (run.andThen next).result =
      run.result.bind fun x => (next x).result := by
  rcases run with ⟨log, error | x⟩
  · rfl
  · rfl

/- Stages are counted as they are added. -/
theorem Chain.length_foldl_snoc
    (stages : List (Stage Node Node))
    (before : Chain Node Node) :
    (stages.foldl Chain.snoc before).length =
      before.length + stages.length := by
  induction stages generalizing before with
  | nil => rfl
  | cons stage stages ih =>
      rw [List.foldl_cons, ih, Chain.length,
        List.length_cons]
      omega

/- Without filters a tree stays as it is. -/
theorem EngineFile.filtered_eq
    {file : EngineFile}
    {stages : List (Stage Node Node)}
    (hBuilds : Builds file.options file.filters stages)
    (tree : Node) :
    filtered
        (if file.filters.isEmpty then none
        else some ⟨file.name, stages.foldl Chain.snoc .nil⟩)
        tree =
      ((stages.foldl Chain.snoc .nil).run file.name
        tree).result := by
  cases hFilters : file.filters with
  | nil =>
      rw [hFilters] at hBuilds
      cases hBuilds
      rw [List.foldl_nil, Chain.run]
      rfl
  | cons decl decls => rfl

/-
  A file that can be compiled has an engine of its filters,
  unless it declares none.  The compiler fails as that engine
  does, and otherwise runs the generator of the file on what
  the filters leave.  The error of the generator is wrapped
  with the number of filters before it.
-/
theorem compiler_runs_filters_then_generator
    {file : EngineFile}
    {engine : Engine Node String}
    (hCompiler : file.compiler none = .ok engine) :
    ∃ filters last,
      file.filterEngine = .ok filters ∧
        (filters = none ↔ file.filters = []) ∧
        Catalogue.generators.build file.generator.name
            file.options file.generator.options = .ok last ∧
        ∀ tree : Node,
          (engine.run tree).result =
            (filtered filters tree).bind fun tree' =>
              (last.run tree').result.mapError
                (.pipeline file.name file.filters.length
                  file.generator.name) := by
  rcases EngineFile.compiler_eq_ok_iff.mp hCompiler with
    ⟨stages, last, hFile, rfl⟩
  have hLength :
      (stages.foldl Chain.snoc
          (Chain.nil : Chain Node Node)).length =
        file.filters.length := by
    rw [Chain.length_foldl_snoc, hFile.filters.length_eq,
      Chain.length, Nat.zero_add]
  have hName : last.name = file.generator.name := by
    rcases Catalogue.exists_generator_of_build hFile.last with
      ⟨g, hStyle, rfl⟩
    exact hStyle
  refine ⟨_, last, EngineFile.filterEngine_eq hFile, ?_,
    hFile.last, ?_⟩
  · cases file.filters with
    | nil => simp
    | cons decl decls => simp
  · intro tree
    rw [EngineFile.filtered_eq hFile.filters, Engine.run,
      Chain.run_snoc, Run.result_andThen, hLength, hName]
    rfl

namespace PageFile

/-
  An option for the generator, one that a filter overrules,
  and one that a filter takes over.
-/
def file : EngineFile where
  name := "page"
  options :=
    NameMap.ofList
      [("buffer", .text "out"), ("unwrap_single", .bool true),
        ("erase", .list [.text "note"])]
  filters :=
    [⟨"flatten",
        NameMap.empty.insert "unwrap_single" (.bool false)⟩,
      .named "erase", .named "validate"]
  generator := .named "array"

/- Each option goes to the stages that understand it. -/
theorem page_compiler_runs_filters_then_generator :
    ∃ engine,
      file.compiler none = .ok engine ∧
        ∃ filters last,
          file.filterEngine = .ok filters ∧
            (filters = none ↔ file.filters = []) ∧
            Catalogue.generators.build "array" file.options
                NameMap.empty = .ok last ∧
            ∀ tree : Node,
              (engine.run tree).result =
                (filtered filters tree).bind fun tree' =>
                  (last.run tree').result.mapError
                    (.pipeline "page" 3 "array") := by
  have hBuilt : ∃ engine, file.compiler none = .ok engine :=
    ⟨_, rfl⟩
  rcases hBuilt with ⟨engine, hCompiler⟩
  exact
    ⟨engine, hCompiler,
      compiler_runs_filters_then_generator hCompiler⟩

end PageFile

end TemplateTree
