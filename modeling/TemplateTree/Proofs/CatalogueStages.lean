import Mathlib.Data.List.Forall2
import TemplateTree.Engine.Declared
import TemplateTree.Proofs.EmittedPieces

/-
  The stages that declarations stand for.

  Main declarations:
    * `NameMap.mem_of_get?_ofList`
    * `Registry.build_eq_ok_iff`
    * `Catalogue.Filter`
    * `Catalogue.exists_filter_of_build`
    * `Catalogue.exists_generator_of_build`
    * `Stage.Registered`
    * `Stage.Registered.blamedOn`
    * `Draft.exists_stage_of_declare`
    * `EngineFile.exists_stages_of_declareFilters`

  Whatever options a declaration has, the stage that comes of
  it is one of six passes or a generator, and its errors name
  it.  A draft takes the stages of its declarations in their
  order.
-/

------------------------------------------------------------
-- Registries
------------------------------------------------------------

namespace TemplateTree

namespace NameMap

universe u

variable {α : Type u}

/- A name that is found was added, or was there before. -/
theorem mem_or_get?_of_get?_insertMany
    {map : NameMap α}
    {entries : List (String × α)}
    {name : String}
    {value : α}
    (h : (map.insertMany entries).get? name = some value) :
    (name, value) ∈ entries ∨ map.get? name = some value := by
  induction entries generalizing map with
  | nil => exact Or.inr h
  | cons entry entries ih =>
      rcases ih h with hMem | hGet
      · exact Or.inl (List.mem_cons_of_mem entry hMem)
      · rw [get?_insert] at hGet
        split at hGet
        · next hName =>
            cases hGet
            rw [← hName]
            exact Or.inl List.mem_cons_self
        · exact Or.inr hGet

/- A name that is found in the map of a list is listed. -/
theorem mem_of_get?_ofList
    {entries : List (String × α)}
    {name : String}
    {value : α}
    (h : (ofList entries).get? name = some value) :
    (name, value) ∈ entries := by
  rcases mem_or_get?_of_get?_insertMany h with hMem | hGet
  · exact hMem
  · cases hGet

end NameMap

namespace Registry

variable {a b : Type}

/- What a name finds in a registry has that name. -/
theorem mem_of_get?_ofList
    {blueprints : List (Blueprint a b)}
    {name : String}
    {blueprint : Blueprint a b}
    (h : (ofList blueprints).get? name = some blueprint) :
    blueprint ∈ blueprints ∧ blueprint.name = name := by
  have hMem := NameMap.mem_of_get?_ofList h
  rcases List.mem_map.mp hMem with ⟨found, hFound, hEntry⟩
  cases hEntry
  exact ⟨hFound, rfl⟩

/-
  A stage is made if its name is registered, its options are
  those of its blueprint, and the blueprint takes them.
-/
theorem build_eq_ok_iff
    {registry : Registry a b}
    {name : String}
    {globals locals : Options}
    {stage : Stage a b} :
    registry.build name globals locals = .ok stage ↔
      ∃ blueprint options,
        registry.get? name = some blueprint ∧
          ResolvedOptions.bind blueprint.name blueprint.specs
            globals locals = .ok options ∧
          blueprint.construct options = .ok stage := by
  unfold build
  cases registry.get? name with
  | none => simp
  | some blueprint =>
      simp [Blueprint.configure, Except.bind_eq_ok_iff]

end Registry

------------------------------------------------------------
-- The Catalogue
------------------------------------------------------------

namespace Catalogue

/- The filters of the catalogue with the options they read. -/
inductive Filter where
| mergeStatic
| inlineDynamic
| flatten (unwrapSingle : Bool)
| erase (tags : TagSet)
| controlFlow (passThrough : TagSet)
| validate

/- The pass of a filter. -/
def Filter.pass : Filter → Pass
| .mergeStatic => MergeStatic.pass
| .inlineDynamic => InlineDynamic.pass
| .flatten unwrapSingle => Flatten.pass unwrapSingle
| .erase tags => Erase.pass tags
| .controlFlow passThrough => ControlFlow.pass passThrough
| .validate => Validate.pass

/- A registered filter is one of the six, by its name. -/
theorem exists_filter_of_build
    {name : String}
    {globals locals : Options}
    {stage : Stage Node Node}
    (h : filters.build name globals locals = .ok stage) :
    ∃ filter : Filter,
      filter.pass.name = name ∧ stage = ofPass filter.pass := by
  rcases Registry.build_eq_ok_iff.mp h with
    ⟨blueprint, options, hGet, -, hConstruct⟩
  rcases Registry.mem_of_get?_ofList hGet with ⟨hMem, rfl⟩
  simp only [List.mem_cons, List.not_mem_nil, or_false] at hMem
  rcases hMem with rfl | rfl | rfl | rfl | rfl | rfl
  all_goals cases hConstruct
  · exact ⟨.mergeStatic, rfl, rfl⟩
  · exact ⟨.inlineDynamic, rfl, rfl⟩
  · exact ⟨.flatten _, rfl, rfl⟩
  · exact ⟨.erase _, rfl, rfl⟩
  · exact ⟨.controlFlow _, rfl, rfl⟩
  · exact ⟨.validate, rfl, rfl⟩

/- A registered generator is one of the two styles. -/
theorem exists_generator_of_build
    {name : String}
    {globals locals : Options}
    {stage : Stage Node String}
    (h : generators.build name globals locals = .ok stage) :
    ∃ g : Generator,
      g.style.name = name ∧ stage = ofGenerator g := by
  rcases Registry.build_eq_ok_iff.mp h with
    ⟨blueprint, options, hGet, -, hConstruct⟩
  rcases Registry.mem_of_get?_ofList hGet with ⟨hMem, rfl⟩
  have hStyle : ∃ style, blueprint = generator style := by
    simp only [List.mem_cons, List.not_mem_nil, or_false]
      at hMem
    rcases hMem with rfl | rfl
    · exact ⟨.buffer, rfl⟩
    · exact ⟨.array, rfl⟩
  rcases hStyle with ⟨style, rfl⟩
  rcases Except.map_eq_ok_iff.mp hConstruct with
    ⟨g, hOptions, rfl⟩
  refine ⟨g, ?_, rfl⟩
  unfold Generator.ofOptions at hOptions
  dsimp only at hOptions
  split at hOptions
  · cases hOptions
    rfl
  · cases hOptions

end Catalogue

------------------------------------------------------------
-- Errors That Name Their Stage
------------------------------------------------------------

/- An error that a stage of a given name reports itself. -/
def CompileError.BlamedOn (name : String) : CompileError → Prop
| .shape stage _ _ => stage = name
| .generation stage _ _ => stage = name
| _ => False

namespace CompileError

/- An error that names its stage is a root cause. -/
theorem BlamedOn.rootCause_eq
    {name : String}
    {error : CompileError}
    (h : error.BlamedOn name) :
    error.rootCause = error := by
  cases error with
  | pipeline engine position stage source => exact h.elim
  | _ => rfl

/- An error that names its stage overrules what wraps it. -/
theorem BlamedOn.failingStageFrom_eq
    {name : String}
    {error : CompileError}
    (h : error.BlamedOn name)
    (wrapped : Option String) :
    failingStageFrom wrapped error = some name := by
  cases error with
  | shape stage node text => exact congrArg some h
  | generation stage node text => exact congrArg some h
  | _ => exact h.elim

end CompileError

namespace Pass

/- A pass whose changes fail only in its own name. -/
def SpeaksForItself (pass : Pass) : Prop :=
  ∀ (node : Node) (error : CompileError),
    pass.transform node = .error error →
      error.BlamedOn pass.name

/- Changing a node fails in the name of the pass. -/
theorem SpeaksForItself.finish
    {pass : Pass}
    (hPass : pass.SpeaksForItself)
    {tag : Tag}
    {args : List Arg}
    {error : CompileError}
    (h : pass.finish tag args = .error error) :
    error.BlamedOn pass.name := by
  unfold Pass.finish at h
  split at h
  · exact hPass _ error h
  · cases h

mutual

theorem SpeaksForItself.foldArg
    {pass : Pass}
    (hPass : pass.SpeaksForItself)
    {error : CompileError} :
    (arg : Arg) →
    pass.foldArg arg = .error error →
    error.BlamedOn pass.name
| .literal value, h => by
    rw [Pass.foldArg] at h
    cases h
| .node tag args, h => by
    rw [Pass.foldArg] at h
    split at h
    · cases h
      rfl
    · rw [Except.map_eq_error_iff,
        Except.bind_eq_error_iff] at h
      rcases h with hArgs | ⟨args', -, hFinish⟩
      · exact SpeaksForItself.foldArgs hPass args hArgs
      · exact hPass.finish hFinish

theorem SpeaksForItself.foldArgs
    {pass : Pass}
    (hPass : pass.SpeaksForItself)
    {error : CompileError} :
    (args : List Arg) →
    pass.foldArgs args = .error error →
    error.BlamedOn pass.name
| [], h => by
    rw [Pass.foldArgs] at h
    cases h
| arg :: args, h => by
    rw [Pass.foldArgs, Except.bind_eq_error_iff] at h
    rcases h with hArg | ⟨first, -, hRest⟩
    · exact SpeaksForItself.foldArg hPass arg hArg
    · rw [Except.map_eq_error_iff] at hRest
      exact SpeaksForItself.foldArgs hPass args hRest

end

/- A pass fails in its own name if its changes do. -/
theorem SpeaksForItself.run
    {pass : Pass}
    (hPass : pass.SpeaksForItself)
    {tree : Node}
    {error : CompileError}
    (h : pass.run tree = .error error) :
    error.BlamedOn pass.name := by
  apply hPass.foldArg tree.toArg
  rw [foldArg_toArg, h]
  rfl

end Pass

/- The filters of the catalogue fail in their own names. -/
theorem Catalogue.Filter.speaksForItself
    (filter : Filter) :
    filter.pass.SpeaksForItself := by
  intro node error h
  cases filter with
  | controlFlow passThrough =>
      rcases Except.mapError_eq_error_iff.mp h with
        ⟨fault, -, rfl⟩
      rfl
  | validate =>
      simp only [pass, Validate.pass, Validate.check] at h
      split at h
      · cases h
      · cases h
        rfl
  | _ => cases h

namespace Piece

/- A fault is reported in the name of the stage. -/
theorem Fault.blamedOn
    (stage : String)
    (node : Node)
    (fault : Fault) :
    (fault.on stage node).BlamedOn stage := by
  cases fault <;> rfl

mutual

/- Collecting pieces fails in the name of the stage. -/
theorem blamedOn_of_ofArg
    {stage : String}
    {parent : Node}
    {error : CompileError} :
    (arg : Arg) →
    ofArg stage parent arg = .error error →
    error.BlamedOn stage
| .literal value, h => by
    rw [ofArg] at h
    cases h
    exact Fault.blamedOn _ _ _
| .node tag args, h => by
    rw [ofArg] at h
    split at h
    · exact blamedOn_of_ofArgs args h
    iterate 3
      · rcases Except.mapError_eq_error_iff.mp h with
          ⟨fault, -, rfl⟩
        exact Fault.blamedOn _ _ _
    · cases h
      exact Fault.blamedOn _ _ _

theorem blamedOn_of_ofArgs
    {stage : String}
    {parent : Node}
    {error : CompileError} :
    (args : List Arg) →
    ofArgs stage parent args = .error error →
    error.BlamedOn stage
| [], h => by
    rw [ofArgs] at h
    cases h
| arg :: args, h => by
    rw [ofArgs, Except.bind_eq_error_iff] at h
    rcases h with hArg | ⟨first, -, hRest⟩
    · exact blamedOn_of_ofArg arg hArg
    · rw [Except.map_eq_error_iff] at hRest
      exact blamedOn_of_ofArgs args hRest

end

end Piece

/- A stage that the catalogue makes from some options. -/
inductive Stage.Registered :
    {a b : Type} → Stage a b → Prop where
| filter
    {name : String}
    {globals locals : Options}
    {stage : Stage Node Node}
    (hBuild :
      Catalogue.filters.build name globals locals = .ok stage) :
    Registered stage
| generator
    {name : String}
    {globals locals : Options}
    {stage : Stage Node String}
    (hBuild :
      Catalogue.generators.build name globals locals =
        .ok stage) :
    Registered stage

/- A registered stage fails in its own name. -/
theorem Stage.Registered.blamedOn
    {a b : Type}
    {stage : Stage a b}
    (hStage : stage.Registered)
    {x : a}
    {error : CompileError}
    (h : (stage.run x).result = .error error) :
    error.BlamedOn stage.name := by
  cases hStage with
  | filter hBuild =>
      rcases Catalogue.exists_filter_of_build hBuild with
        ⟨filter, -, rfl⟩
      exact filter.speaksForItself.run h
  | generator hBuild =>
      rcases Catalogue.exists_generator_of_build hBuild with
        ⟨g, -, rfl⟩
      have hWalk : g.generate x = .error error := h
      rw [g.generate_eq, Except.map_eq_error_iff] at hWalk
      exact Piece.blamedOn_of_ofArg _ hWalk

------------------------------------------------------------
-- Drafts
------------------------------------------------------------

namespace Draft

variable {a b c : Type}

/- Declaring a stage adds the stage that its name stands for. -/
theorem exists_stage_of_declare
    {draft : Draft a b}
    {registry : Registry b c}
    {name : String}
    {options : Options}
    {draft' : Draft a c}
    (h : draft.declare registry name options = .ok draft') :
    ∃ stage,
      registry.build name draft.globals options = .ok stage ∧
        draft'.chain = draft.chain.snoc stage ∧
        draft'.name = draft.name ∧
        draft'.globals = draft.globals := by
  unfold declare at h
  unfold Registry.build
  cases hGet : registry.get? name with
  | none =>
      rw [hGet] at h
      cases h
  | some blueprint =>
      simp only [hGet] at h
      rcases Except.map_eq_ok_iff.mp h with ⟨stage, hStage, rfl⟩
      exact ⟨stage, hStage, rfl, rfl, rfl⟩

/- A finished engine has the name and the stages of its draft. -/
theorem eq_of_build
    {draft : Draft a b}
    {engine : Engine a b}
    (h : draft.build = .ok engine) :
    engine = ⟨draft.name, draft.chain⟩ := by
  unfold build at h
  split at h
  · cases h
  · cases h
    rfl

end Draft

/- The stages of declared filters follow those of the draft. -/
theorem EngineFile.exists_stages_of_declareFilters
    {decls : List DeclaredStage}
    {draft draft' : Draft Node Node}
    (h : declareFilters decls draft = .ok draft') :
    ∃ stages : List (Stage Node Node),
      List.Forall₂
          (fun decl stage =>
            Catalogue.filters.build decl.name draft.globals
              decl.options = .ok stage)
          decls stages ∧
        draft'.chain = stages.foldl Chain.snoc draft.chain ∧
        draft'.name = draft.name := by
  induction decls generalizing draft with
  | nil =>
      cases h
      exact ⟨[], List.Forall₂.nil, rfl, rfl⟩
  | cons decl decls ih =>
      rw [declareFilters] at h
      rcases Except.bind_eq_ok_iff.mp h with
        ⟨middle, hDeclare, hRest⟩
      rcases Draft.exists_stage_of_declare hDeclare with
        ⟨stage, hStage, hChain, hName, hGlobals⟩
      rcases ih hRest with ⟨stages, hStages, hChain', hName'⟩
      rw [hGlobals] at hStages
      refine ⟨stage :: stages, List.Forall₂.cons hStage hStages,
        ?_, hName'.trans hName⟩
      rw [hChain', hChain, List.foldl_cons]

end TemplateTree
