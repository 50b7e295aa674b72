import TemplateTree.Proofs.BoundOptions
import TemplateTree.Proofs.DeclaredEngines

/-
  Engine files that can be rendered with but not compiled.

  Main declarations:
    * `Generator.Fits`
    * `Catalogue.exists_generator_iff`
    * `EngineFile.compiler_eq_error_iff`
    * `EngineFile.exists_compiler_iff`
    * `rendering_skips_generator_options`

  Rendering looks at the name of the generator and at the
  names of the options that it understands.  The generator is
  not made, so neither its own options nor the value of an
  option of the whole engine that it reads is looked at.
-/

------------------------------------------------------------
-- Options Of A Generator
------------------------------------------------------------

namespace TemplateTree

namespace Generator

/-
  Options that a generator can be made from: it has no other
  option of its own than its output, and the output that it
  would use, if there is one, is the name of a variable.
-/
structure Fits (globals locals : Options) : Prop where
  known : ∀ name ∈ locals.keys, name = "buffer"
  output :
    ∀ value,
      ResolvedOptions.effective? globals locals "buffer" =
          some value →
        ∃ name, value = .text name ∧ isVariable name = true

theorem ofOptions_eq_ok_iff
    {style : GeneratorStyle}
    {options : ResolvedOptions}
    {g : Generator} :
    ofOptions style options = .ok g ↔
      isVariable (options.textOr "buffer" defaultVariable) =
          true ∧
        (⟨style, options.textOr "buffer" defaultVariable⟩ :
          Generator) = g := by
  unfold ofOptions
  dsimp only
  split
  · next hVariable => simp [hVariable]
  · next hVariable => simp [hVariable]

theorem declares_bufferSpec_iff
    {style : GeneratorStyle}
    {name : String} :
    declares [bufferSpec style] name = true ↔
      name = "buffer" := by
  simp only [declares, List.any_cons, List.any_nil,
    Bool.or_false, beq_iff_eq]
  exact eq_comm

/- A value of the output is admitted if it is a text. -/
theorem admits_bufferSpec_iff
    {style : GeneratorStyle}
    {value? : Option OptionValue} :
    (bufferSpec style).Admits value? ↔
      ∀ value,
        value? = some value → ∃ name, value = .text name := by
  cases value? with
  | none => simp [OptionSpec.Admits, bufferSpec]
  | some value =>
      cases value <;>
        simp [OptionSpec.Admits, bufferSpec,
          OptionKind.accepts]

/- The output of a generator is its option or the default. -/
theorem textOr_of_bind
    {stage : String}
    {style : GeneratorStyle}
    {globals locals : Options}
    {resolved : ResolvedOptions}
    (hBind :
      ResolvedOptions.bind stage [bufferSpec style] globals
        locals = .ok resolved) :
    resolved.textOr "buffer" defaultVariable =
      ((ResolvedOptions.effective? globals locals
        "buffer").bind OptionValue.asText?).getD
          defaultVariable := by
  rw [ResolvedOptions.textOr, ResolvedOptions.text?,
    ResolvedOptions.get?_of_bind hBind,
    if_pos (declares_bufferSpec_iff.mpr rfl)]

theorem isVariable_defaultVariable :
    isVariable defaultVariable = true := by
  decide

end Generator

------------------------------------------------------------
-- Generators Of The Catalogue
------------------------------------------------------------

namespace Catalogue

/- A generator is found by the name of its style. -/
theorem get?_generators_eq_some_iff
    {name : String}
    {blueprint : Blueprint Node String} :
    generators.get? name = some blueprint ↔
      ∃ style : GeneratorStyle,
        style.name = name ∧ generator style = blueprint := by
  constructor
  · intro h
    rcases Registry.mem_of_get?_ofList h with ⟨hMem, rfl⟩
    simp only [List.mem_cons, List.not_mem_nil, or_false]
      at hMem
    rcases hMem with rfl | rfl
    · exact ⟨.buffer, rfl, rfl⟩
    · exact ⟨.array, rfl, rfl⟩
  · rintro ⟨style, rfl, rfl⟩
    cases style with
    | buffer => rfl
    | array => rfl

/- It can be made from options that fit. -/
theorem exists_configure_generator_iff
    (style : GeneratorStyle)
    {globals locals : Options} :
    (∃ stage,
        (generator style).configure globals locals =
          .ok stage) ↔
      Generator.Fits globals locals := by
  have hBind :
      (∃ resolved,
          ResolvedOptions.bind style.name
            [Generator.bufferSpec style] globals locals =
              .ok resolved) ↔
        (∀ name ∈ locals.keys, name = "buffer") ∧
          ∀ value,
            ResolvedOptions.effective? globals locals
                "buffer" = some value →
              ∃ name, value = .text name := by
    rw [ResolvedOptions.exists_bind_iff]
    simp only [Generator.declares_bufferSpec_iff,
      List.forall_mem_singleton,
      Generator.admits_bufferSpec_iff]
    rfl
  simp only [Blueprint.configure, generator,
    Except.bind_eq_ok_iff, Except.map_eq_ok_iff,
    Generator.ofOptions_eq_ok_iff]
  constructor
  · rintro ⟨stage, resolved, hResolved, g, ⟨hVariable, -⟩, -⟩
    rcases hBind.mp ⟨resolved, hResolved⟩ with
      ⟨hKnown, hText⟩
    rw [Generator.textOr_of_bind hResolved] at hVariable
    refine ⟨hKnown, ?_⟩
    intro value hValue
    rcases hText value hValue with ⟨name, rfl⟩
    rw [hValue] at hVariable
    exact ⟨name, rfl, hVariable⟩
  · intro hFits
    have hText :
        ∀ value,
          ResolvedOptions.effective? globals locals "buffer" =
              some value →
            ∃ name, value = .text name := by
      intro value hValue
      rcases hFits.output value hValue with ⟨name, hName, -⟩
      exact ⟨name, hName⟩
    rcases hBind.mpr ⟨hFits.known, hText⟩ with
      ⟨resolved, hResolved⟩
    refine ⟨_, resolved, hResolved, _, ⟨?_, rfl⟩, rfl⟩
    rw [Generator.textOr_of_bind hResolved]
    cases hValue :
        ResolvedOptions.effective? globals locals "buffer" with
    | none => exact Generator.isVariable_defaultVariable
    | some value =>
        rcases hFits.output value hValue with
          ⟨name, rfl, hVariable⟩
        exact hVariable

/- A generator is made if it is known and its options fit. -/
theorem exists_generator_iff
    {name : String}
    {globals locals : Options} :
    (∃ stage,
        generators.build name globals locals = .ok stage) ↔
      (∃ blueprint, generators.get? name = some blueprint) ∧
        Generator.Fits globals locals := by
  unfold Registry.build
  cases hGet : generators.get? name with
  | none => simp
  | some blueprint =>
      rcases get?_generators_eq_some_iff.mp hGet with
        ⟨style, -, rfl⟩
      simp [exists_configure_generator_iff]

end Catalogue

------------------------------------------------------------
-- Rendering And Compiling
------------------------------------------------------------

namespace EngineFile

variable {file : EngineFile}

/- Only the generator is left to be made. -/
theorem Renders.compiler_eq
    {stages : List (Stage Node Node)}
    {last : Stage Node String}
    (hFile : file.Renders stages)
    (hLast :
      Catalogue.generators.build file.generator.name
        file.options file.generator.options = .ok last) :
    file.compiler none =
      .ok
        ⟨file.name,
          (stages.foldl Chain.snoc .nil).snoc last⟩ := by
  apply compiler_eq_ok_iff.mpr
  exact
    ⟨stages, last, ⟨hFile.filters, hLast, hFile.options⟩, rfl⟩

/-
  After the checks of rendering, a compiler fails exactly if
  its generator cannot be made, and for the same reason.
-/
theorem compiler_eq_error_iff
    {filters : Option (Engine Node Node)}
    (hFilters : file.filterEngine = .ok filters)
    {error : ConfigError} :
    file.compiler none = .error error ↔
      Catalogue.generators.build file.generator.name
        file.options file.generator.options =
          .error error := by
  rcases exists_renders_of_filterEngine hFilters with
    ⟨stages, hFile⟩
  cases hLast :
      Catalogue.generators.build file.generator.name
        file.options file.generator.options with
  | ok last =>
      rw [hFile.compiler_eq hLast]
      simp
  | error cause =>
      rcases declareFilters_start file.name hFile.filters with
        ⟨recognized, hDeclare, -⟩
      rcases hFile.generator with ⟨blueprint, hGet⟩
      have hCompiler : file.compiler none = .error cause := by
        unfold compiler chosenGenerator
        simp only [Registry.build, hGet] at hLast
        simp only [hDeclare, Except.bind_ok, Draft.declare,
          hGet, Draft.configure, hLast, Except.map_error,
          Except.bind_error]
      rw [hCompiler, Except.error.injEq, Except.error.injEq]

/-
  A file can be compiled if it can be rendered with and the
  options of its generator fit.
-/
theorem exists_compiler_iff :
    (∃ engine, file.compiler none = .ok engine) ↔
      (∃ filters, file.filterEngine = .ok filters) ∧
        Generator.Fits file.options
          file.generator.options := by
  constructor
  · rintro ⟨engine, hCompiler⟩
    rcases compiler_eq_ok_iff.mp hCompiler with
      ⟨stages, last, hFile, -⟩
    have hFits :=
      (Catalogue.exists_generator_iff.mp ⟨last, hFile.last⟩).2
    exact ⟨⟨_, filterEngine_eq hFile⟩, hFits⟩
  · rintro ⟨⟨filters, hFilters⟩, hFits⟩
    rcases exists_renders_of_filterEngine hFilters with
      ⟨stages, hFile⟩
    rcases Catalogue.exists_generator_iff.mpr
        ⟨hFile.generator, hFits⟩ with
      ⟨last, hLast⟩
    exact ⟨_, hFile.compiler_eq hLast⟩

end EngineFile

/-
  A file that cannot be compiled is refused for rendering as
  well, unless the options of its generator are its only
  fault.  What rendering does not see is exactly why that
  generator cannot be made.
-/
theorem rendering_skips_generator_options
    (file : EngineFile) :
    (((∃ error, file.compiler none = .error error) →
        ∃ error, file.filterEngine = .error error) ↔
      (∃ error, file.filterEngine = .error error) ∨
        Generator.Fits file.options file.generator.options) ∧
    ∀ filters,
      file.filterEngine = .ok filters →
        ∀ error,
          file.compiler none = .error error ↔
            Catalogue.generators.build file.generator.name
              file.options file.generator.options =
                .error error := by
  constructor
  · rw [Except.exists_eq_error_iff, Except.exists_eq_error_iff,
      EngineFile.exists_compiler_iff]
    tauto
  · intro filters hFilters error
    exact EngineFile.compiler_eq_error_iff hFilters

namespace IndentedFile

/- A generator with an option that it does not have. -/
def file : EngineFile where
  name := "page"
  options := NameMap.empty
  filters := [.named "merge-static"]
  generator :=
    ⟨"buffer", NameMap.empty.insert "indent" (.int 4)⟩

/- It is refused by the compiler and rendered with. -/
theorem indented_file_renders_but_does_not_compile :
    file.compiler none =
        .error (.unknownOption "buffer" "indent") ∧
      ∃ filters, file.filterEngine = .ok (some filters) :=
  ⟨rfl, _, rfl⟩

/- The generator is what cannot be made from it. -/
theorem indented_file_fails_at_its_generator :
    (∃ filters, file.filterEngine = .ok filters) ∧
      Catalogue.generators.build file.generator.name
          file.options file.generator.options =
        .error (.unknownOption "buffer" "indent") ∧
      ¬ Generator.Fits file.options file.generator.options := by
  have hFilters :
      ∃ filters, file.filterEngine = .ok filters := ⟨_, rfl⟩
  have hCompiler :
      file.compiler none =
        .error (.unknownOption "buffer" "indent") := rfl
  rcases rendering_skips_generator_options file with
    ⟨hHolds, hCause⟩
  rcases hFilters with ⟨filters, hFilters⟩
  refine
    ⟨⟨filters, hFilters⟩, (hCause filters hFilters _).mp hCompiler,
      ?_⟩
  intro hFits
  rcases hHolds.mpr (Or.inr hFits) ⟨_, hCompiler⟩ with
    ⟨error, hError⟩
  rw [hFilters] at hError
  cases hError

end IndentedFile

end TemplateTree
