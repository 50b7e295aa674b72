import TemplateTree.Proofs.DeclaredEngines
import TemplateTree.Proofs.EngineComposition
import TemplateTree.Proofs.NameMaps
import TemplateTree.Proofs.Utf8

/-
  Engines that are declared stage by stage.

  Main declarations:
    * `Declaration`
    * `Declaration.Valid`
    * `Declaration.stage_filterNames`
    * `Plan`
    * `Plan.Written`
    * `Plan.writeTo_eq_error_iff`
    * `engine_built_iff_declarations_valid`

  A plan lists the stages of an engine, made or to be made.
  Each declaration stands on its own: it is made from the
  options that it declares, whatever stands around it.  What
  the whole adds is the check that no option of the engine is
  left over.
-/

------------------------------------------------------------
-- Declarations
------------------------------------------------------------

namespace TemplateTree

/-
  One stage of an engine: registered under a name, made from a
  blueprint, or already made.
-/
inductive Declaration (a b : Type) where
| registered
    (registry : Registry a b)
    (name : String)
    (options : Options)
| typed
    (blueprint : Blueprint a b)
    (options : Options)
| made
    (stage : Stage a b)

/- Options that a blueprint binds and makes a stage of. -/
def Blueprint.Accepts
    {a b : Type}
    (blueprint : Blueprint a b)
    (globals locals : Options) : Prop :=
  ∃ resolved stage,
    ResolvedOptions.bind blueprint.name blueprint.specs globals
        locals = .ok resolved ∧
      blueprint.construct resolved = .ok stage

theorem Blueprint.exists_configure_iff
    {a b : Type}
    {blueprint : Blueprint a b}
    {globals locals : Options} :
    (∃ stage, blueprint.configure globals locals = .ok stage) ↔
      blueprint.Accepts globals locals := by
  simp only [configure, Accepts, Except.bind_eq_ok_iff]
  exact exists_comm

namespace Declaration

variable {a b c : Type}

/- The options that the stage of a declaration understands. -/
def specs : Declaration a b → List OptionSpec
| .registered registry name _ => (registry.specs? name).getD []
| .typed blueprint _ => blueprint.specs
| .made _ => []

/- The stage of a declaration. -/
def stage
    (globals : Options) :
    Declaration a b → Except ConfigError (Stage a b)
| .registered registry name options =>
    registry.build name globals options
| .typed blueprint options =>
    blueprint.configure globals options
| .made stage => .ok stage

/- A declaration whose stage can be made. -/
def Valid
    (globals : Options) :
    Declaration a b → Prop
| .registered registry name options =>
    ∃ blueprint,
      registry.get? name = some blueprint ∧
        blueprint.Accepts globals options
| .typed blueprint options => blueprint.Accepts globals options
| .made _ => True

/- Write a declaration into a draft. -/
def addTo
    (draft : Draft a b) :
    Declaration b c → Except ConfigError (Draft a c)
| .registered registry name options =>
    draft.declare registry name options
| .typed blueprint options => draft.configure blueprint options
| .made stage => .ok (draft.add stage)

/- The stage of a valid declaration is made. -/
theorem exists_stage_iff
    {globals : Options}
    {declaration : Declaration a b} :
    (∃ stage, declaration.stage globals = .ok stage) ↔
      declaration.Valid globals := by
  cases declaration with
  | registered registry name options =>
      simp only [stage, Valid]
      unfold Registry.build
      cases registry.get? name with
      | none => simp
      | some blueprint => simp [Blueprint.exists_configure_iff]
  | typed blueprint options =>
      exact Blueprint.exists_configure_iff
  | made stage => simp [Declaration.stage, Valid]

/- Writing a declaration adds its stage and its options. -/
theorem addTo_eq
    (draft : Draft a b)
    (declaration : Declaration b c) :
    declaration.addTo draft =
      (declaration.stage draft.globals).map fun stage =>
        (draft.recognize declaration.specs).add stage := by
  cases declaration with
  | registered registry name options =>
      simp only [addTo, stage, specs]
      unfold Draft.declare Registry.build Registry.specs?
      cases registry.get? name with
      | none => rfl
      | some blueprint => rfl
  | typed blueprint options => rfl
  | made stage => rfl

/- Only the options that it declares reach the stage. -/
theorem stage_filterNames
    (globals : Options)
    (declaration : Declaration a b) :
    declaration.stage
        (globals.filterNames (declares declaration.specs)) =
      declaration.stage globals := by
  have hAgree {specs : List OptionSpec} :
      ResolvedOptions.AgreeOn specs
        (globals.filterNames (declares specs)) globals := by
    intro spec hSpec
    have hDeclared : declares specs spec.name = true :=
      List.any_eq_true.mpr ⟨spec, hSpec, by simp⟩
    rw [NameMap.get?_filterNames, if_pos hDeclared]
  cases declaration with
  | registered registry name options =>
      apply Registry.build_congr
      intro specs hSpecs
      rw [Option.mem_def] at hSpecs
      simp only [Declaration.specs, hSpecs, Option.getD_some]
      exact hAgree
  | typed blueprint options =>
      simp only [stage, Blueprint.configure, specs]
      rw [ResolvedOptions.bind_congr _ options hAgree]
  | made stage => rfl

end Declaration

------------------------------------------------------------
-- Plans
------------------------------------------------------------

/- A declaration between whatever types. -/
structure SomeDeclaration where
  input : Type
  output : Type
  declaration : Declaration input output

namespace SomeDeclaration

/- Why the stage of a declaration cannot be made. -/
def error?
    (globals : Options)
    (item : SomeDeclaration) : Option ConfigError :=
  match item.declaration.stage globals with
  | .ok _ => none
  | .error error => some error

/- A stage that a declaration makes from options. -/
inductive Makes
    (globals : Options) :
    SomeDeclaration → SomeStage → Prop where
| intro
    {a b : Type}
    {declaration : Declaration a b}
    {stage : Stage a b}
    (hStage : declaration.stage globals = .ok stage) :
    Makes globals ⟨a, b, declaration⟩ ⟨a, b, stage⟩

theorem error?_eq_some_iff
    {globals : Options}
    {item : SomeDeclaration}
    {error : ConfigError} :
    item.error? globals = some error ↔
      item.declaration.stage globals = .error error := by
  unfold error?
  cases item.declaration.stage globals with
  | ok stage => simp
  | error other => simp

theorem error?_eq_none_iff
    {globals : Options}
    {item : SomeDeclaration} :
    item.error? globals = none ↔
      item.declaration.Valid globals := by
  rw [← Declaration.exists_stage_iff]
  unfold error?
  cases item.declaration.stage globals with
  | ok stage => simp
  | error other => simp

/- Options that are not declared could be left out. -/
theorem Makes.filterNames
    {globals : Options}
    {item : SomeDeclaration}
    {stage : SomeStage}
    (h : item.Makes globals stage) :
    item.Makes
      (globals.filterNames (declares item.declaration.specs))
      stage := by
  cases h with
  | @intro a b declaration stage hStage =>
      apply Makes.intro
      rw [Declaration.stage_filterNames]
      exact hStage

end SomeDeclaration

/- Declarations of stages that follow each other. -/
inductive Plan : Type → Type → Type 1 where
| nil
    {a : Type} :
    Plan a a
| snoc
    {a b c : Type}
    (before : Plan a b)
    (declaration : Declaration b c) :
    Plan a c

namespace Plan

variable {a b c : Type}

/- The declarations of a plan, first to last. -/
def items
    {a b : Type} :
    Plan a b → List SomeDeclaration
| .nil => []
| .snoc before declaration =>
    before.items ++ [⟨_, _, declaration⟩]

/- Write a plan into a draft. -/
def writeTo
    {a b c : Type}
    (draft : Draft a b) :
    Plan b c → Except ConfigError (Draft a c)
| .nil => .ok draft
| .snoc before declaration =>
    (before.writeTo draft).bind fun draft =>
      declaration.addTo draft

/- Build the engine of a plan. -/
def build
    (name : String)
    (globals : Options)
    (plan : Plan a b) : Except ConfigError (Engine a b) :=
  (plan.writeTo ((Draft.start name).withGlobals globals)).bind
    Draft.build

/- An option that some declaration of a plan understands. -/
def Declares
    (plan : Plan a b)
    (key : String) : Prop :=
  ∃ item ∈ plan.items,
    declares item.declaration.specs key = true

/- What is in a draft after a plan. -/
structure Written
    (name : String)
    (globals : Options)
    (plan : Plan a b)
    (draft : Draft a b) : Prop where
  name_eq : draft.name = name
  globals_eq : draft.globals = globals
  recognized_iff :
    ∀ key,
      draft.recognized.contains key = true ↔ plan.Declares key
  stages :
    List.Forall₂ (SomeDeclaration.Makes globals) plan.items
      draft.chain.stages

theorem written_nil
    (name : String)
    (globals : Options) :
    Written name globals (.nil : Plan a a)
      ((Draft.start name).withGlobals globals) := by
  rw [Draft.withGlobals_start]
  refine ⟨rfl, rfl, ?_, List.Forall₂.nil⟩
  intro key
  simp [NameMap.contains, NameMap.empty, Declares, items]

/- A declaration adds its stage and its options. -/
theorem Written.snoc
    {name : String}
    {globals : Options}
    {plan : Plan a b}
    {draft : Draft a b}
    (h : Written name globals plan draft)
    {declaration : Declaration b c}
    {stage : Stage b c}
    (hStage : declaration.stage globals = .ok stage) :
    Written name globals (plan.snoc declaration)
      ((draft.recognize declaration.specs).add stage) := by
  refine ⟨h.name_eq, h.globals_eq, ?_, ?_⟩
  · intro key
    have hRecognized :
        ((draft.recognize
            declaration.specs).add stage).recognized.contains
              key = true ↔
          draft.recognized.contains key = true ∨
            declares declaration.specs key = true :=
      Draft.contains_recognize_iff
    rw [hRecognized, h.recognized_iff]
    simp [Declares, items, or_and_right, exists_or]
  · exact List.rel_append h.stages
      (List.Forall₂.cons (SomeDeclaration.Makes.intro hStage)
        List.Forall₂.nil)

theorem Written.addTo_eq_error_iff
    {name : String}
    {globals : Options}
    {plan : Plan a b}
    {draft : Draft a b}
    (h : Written name globals plan draft)
    {declaration : Declaration b c}
    {error : ConfigError} :
    declaration.addTo draft = .error error ↔
      declaration.stage globals = .error error := by
  rw [Declaration.addTo_eq, h.globals_eq,
    Except.map_eq_error_iff]

/- A draft holds what was written into it. -/
theorem written_of_writeTo
    {name : String}
    {globals : Options}
    {plan : Plan a b}
    {draft : Draft a b}
    (h :
      plan.writeTo ((Draft.start name).withGlobals globals) =
        .ok draft) :
    Written name globals plan draft := by
  induction plan with
  | nil =>
      cases h
      exact written_nil name globals
  | snoc before declaration ih =>
      rcases Except.bind_eq_ok_iff.mp h with
        ⟨middle, hBefore, hAdd⟩
      have hMiddle := ih hBefore
      rw [Declaration.addTo_eq, hMiddle.globals_eq,
        Except.map_eq_ok_iff] at hAdd
      rcases hAdd with ⟨stage, hStage, rfl⟩
      exact hMiddle.snoc hStage

/- Writing a plan fails at its first declaration that fails. -/
theorem writeTo_eq_error_iff
    {name : String}
    {globals : Options}
    {plan : Plan a b}
    {error : ConfigError} :
    plan.writeTo ((Draft.start name).withGlobals globals) =
        .error error ↔
      plan.items.findSome? (SomeDeclaration.error? globals) =
        some error := by
  induction plan generalizing error with
  | nil => simp [writeTo, items]
  | snoc before declaration ih =>
      have hLast :
          ([⟨_, _, declaration⟩] :
              List SomeDeclaration).findSome?
                (SomeDeclaration.error? globals) =
              some error ↔
            declaration.stage globals = .error error := by
        rw [List.findSome?_singleton,
          SomeDeclaration.error?_eq_some_iff]
      have hBefore :=
        Except.exists_eq_ok_iff fun _ => ih
      rw [writeTo, items, List.findSome?_append,
        Except.bind_eq_error_iff, Option.or_eq_some_iff, ih,
        hLast, ← hBefore]
      apply or_congr_right
      constructor
      · rintro ⟨draft, hDraft, hAdd⟩
        rw [(written_of_writeTo hDraft).addTo_eq_error_iff]
          at hAdd
        exact ⟨⟨draft, hDraft⟩, hAdd⟩
      · rintro ⟨⟨draft, hDraft⟩, hStage⟩
        refine ⟨draft, hDraft, ?_⟩
        rw [(written_of_writeTo hDraft).addTo_eq_error_iff]
        exact hStage

/- A plan of valid declarations can be written. -/
theorem exists_writeTo_iff
    {name : String}
    {globals : Options}
    {plan : Plan a b} :
    (∃ draft,
        plan.writeTo ((Draft.start name).withGlobals globals) =
          .ok draft) ↔
      ∀ item ∈ plan.items, item.declaration.Valid globals := by
  rw [Except.exists_eq_ok_iff fun _ => writeTo_eq_error_iff,
    List.findSome?_eq_none_iff]
  simp only [SomeDeclaration.error?_eq_none_iff]

------------------------------------------------------------
-- Options That Are Left Over
------------------------------------------------------------

/- An option of the engine that no stage understands. -/
def LeavesOver
    (plan : Plan a b)
    (globals : Options)
    (key : String) : Prop :=
  key ∈ globals.keys ∧ ¬ plan.Declares key

/- A finished draft is an engine of its name and its stages. -/
theorem Written.build_eq_ok_iff
    {name : String}
    {globals : Options}
    {plan : Plan a b}
    {draft : Draft a b}
    (h : Written name globals plan draft)
    {engine : Engine a b} :
    draft.build = .ok engine ↔
      (∀ key ∈ globals.keys, plan.Declares key) ∧
        engine = ⟨name, draft.chain⟩ := by
  rw [Draft.build_eq_ok_iff, h.globals_eq, h.name_eq]
  simp only [h.recognized_iff]

/- A draft is refused for the first option that is left over. -/
theorem Written.build_eq_error_iff
    {name : String}
    {globals : Options}
    {plan : Plan a b}
    {draft : Draft a b}
    (h : Written name globals plan draft)
    {error : ConfigError} :
    draft.build = .error error ↔
      ∃ key,
        plan.LeavesOver globals key ∧
          (∀ other,
            plan.LeavesOver globals other →
              other ≠ key →
                Utf8.encode key < Utf8.encode other) ∧
          error = .unknownGlobalOption name key := by
  have hForeign (key : String) :
      (!draft.recognized.contains key) = true ↔
        ¬ plan.Declares key := by
    rw [← h.recognized_iff]
    simp
  have hFirst (key : String) :
      (draft.globals.keys.find? fun name =>
          !draft.recognized.contains name) = some key ↔
        plan.LeavesOver globals key ∧
          ∀ other,
            plan.LeavesOver globals other →
              other ≠ key →
                Utf8.encode key < Utf8.encode other := by
    rw [NameMap.find?_keys_eq_some_iff, h.globals_eq]
    simp only [hForeign, Utf8.encode_lt_encode_iff, LeavesOver,
      and_imp, and_assoc]
  unfold Draft.build
  cases hFind :
      draft.globals.keys.find? fun name =>
        !draft.recognized.contains name with
  | none =>
      constructor
      · intro hError
        cases hError
      · rintro ⟨key, hOver, hLeast, -⟩
        have hKey := (hFirst key).mpr ⟨hOver, hLeast⟩
        rw [hFind] at hKey
        cases hKey
  | some found =>
      constructor
      · intro hError
        cases hError
        rcases (hFirst found).mp hFind with ⟨hOver, hLeast⟩
        exact ⟨found, hOver, hLeast, by rw [h.name_eq]⟩
      · rintro ⟨key, hOver, hLeast, rfl⟩
        have hKey := (hFirst key).mpr ⟨hOver, hLeast⟩
        rw [hFind] at hKey
        cases hKey
        rw [h.name_eq]

------------------------------------------------------------
-- Building
------------------------------------------------------------

variable {name : String}
variable {globals : Options}
variable {plan : Plan a b}

/- What is needed for an engine, and what it then is. -/
theorem build_eq_ok_iff
    {engine : Engine a b} :
    plan.build name globals = .ok engine ↔
      ∃ draft,
        plan.writeTo ((Draft.start name).withGlobals globals) =
            .ok draft ∧
          (∀ key ∈ globals.keys, plan.Declares key) ∧
          engine = ⟨name, draft.chain⟩ := by
  unfold build
  rw [Except.bind_eq_ok_iff]
  apply exists_congr
  intro draft
  apply and_congr_right
  intro hDraft
  exact (written_of_writeTo hDraft).build_eq_ok_iff

theorem exists_build_iff :
    (∃ engine, plan.build name globals = .ok engine) ↔
      (∀ item ∈ plan.items, item.declaration.Valid globals) ∧
        ∀ key ∈ globals.keys, plan.Declares key := by
  simp only [build_eq_ok_iff]
  rw [← exists_writeTo_iff]
  constructor
  · rintro ⟨engine, draft, hDraft, hKeys, -⟩
    exact ⟨⟨draft, hDraft⟩, hKeys⟩
  · rintro ⟨⟨draft, hDraft⟩, hKeys⟩
    exact ⟨_, draft, hDraft, hKeys, rfl⟩

/- The first failure of a plan, before any of its options. -/
theorem build_eq_error_iff
    {error : ConfigError} :
    plan.build name globals = .error error ↔
      (∃ before item after,
        plan.items = before ++ item :: after ∧
          item.declaration.stage globals = .error error ∧
          ∀ earlier ∈ before,
            earlier.declaration.Valid globals) ∨
        (∀ item ∈ plan.items,
          item.declaration.Valid globals) ∧
          ∃ key,
            plan.LeavesOver globals key ∧
              (∀ other,
                plan.LeavesOver globals other →
                  other ≠ key →
                    Utf8.encode key < Utf8.encode other) ∧
              error = .unknownGlobalOption name key := by
  unfold build
  rw [Except.bind_eq_error_iff, writeTo_eq_error_iff,
    List.findSome?_eq_some_iff, ← exists_writeTo_iff]
  simp only [SomeDeclaration.error?_eq_some_iff,
    SomeDeclaration.error?_eq_none_iff]
  apply or_congr_right
  constructor
  · rintro ⟨draft, hDraft, hBuild⟩
    have hWritten := written_of_writeTo hDraft
    exact
      ⟨⟨draft, hDraft⟩, hWritten.build_eq_error_iff.mp hBuild⟩
  · rintro ⟨⟨draft, hDraft⟩, hKey⟩
    have hWritten := written_of_writeTo hDraft
    exact
      ⟨draft, hDraft, hWritten.build_eq_error_iff.mpr hKey⟩

/- Each stage is made from the options that it declares. -/
theorem makes_of_build
    {engine : Engine a b}
    (h : plan.build name globals = .ok engine) :
    engine.name = name ∧
      List.Forall₂
        (fun item stage =>
          item.Makes
            (globals.filterNames
              (declares item.declaration.specs))
            stage)
        plan.items engine.chain.stages := by
  rcases build_eq_ok_iff.mp h with ⟨draft, hDraft, -, rfl⟩
  refine ⟨rfl, ?_⟩
  exact (written_of_writeTo hDraft).stages.imp
    fun _ _ hMakes => hMakes.filterNames

end Plan

------------------------------------------------------------
-- Engines
------------------------------------------------------------

/-
  An engine is built exactly if each declaration is valid and
  each option of the engine is understood by one of them.
  Otherwise the first declaration that fails tells why or,
  where none fails, the option that is left over and whose
  bytes come first is named.  The stages of an engine are made
  from the options that they declare, and from no others.
-/
theorem engine_built_iff_declarations_valid
    {a b : Type}
    (name : String)
    (globals : Options)
    (plan : Plan a b) :
    ((∃ engine, plan.build name globals = .ok engine) ↔
        (∀ item ∈ plan.items,
          item.declaration.Valid globals) ∧
          ∀ key ∈ globals.keys,
            ∃ item ∈ plan.items,
              declares item.declaration.specs key = true) ∧
      (∀ error,
        plan.build name globals = .error error ↔
          (∃ before item after,
            plan.items = before ++ item :: after ∧
              item.declaration.stage globals = .error error ∧
              ∀ earlier ∈ before,
                earlier.declaration.Valid globals) ∨
            (∀ item ∈ plan.items,
              item.declaration.Valid globals) ∧
              ∃ key,
                plan.LeavesOver globals key ∧
                  (∀ other,
                    plan.LeavesOver globals other →
                      other ≠ key →
                        Utf8.encode key < Utf8.encode other) ∧
                  error = .unknownGlobalOption name key) ∧
      ∀ engine,
        plan.build name globals = .ok engine →
          engine.name = name ∧
            List.Forall₂
              (fun item stage =>
                item.Makes
                  (globals.filterNames
                    (declares item.declaration.specs))
                  stage)
              plan.items engine.chain.stages := by
  refine ⟨Plan.exists_build_iff, ?_, ?_⟩
  · intro error
    exact Plan.build_eq_error_iff
  · intro engine hBuild
    exact Plan.makes_of_build hBuild

namespace MixedPlan

/- A stage that is made between two that are declared. -/
def plan : Plan Node String :=
  ((Plan.nil.snoc
      (.registered Catalogue.filters "flatten"
        NameMap.empty)).snoc
      (.made (Catalogue.ofPass MergeStatic.pass))).snoc
    (.typed (Catalogue.generator .array) NameMap.empty)

/- One option for each of the declared stages. -/
def globals : Options :=
  NameMap.ofList
    [("unwrap_single", .bool false), ("buffer", .text "out")]

/- Two more that no stage understands. -/
def excess : Options :=
  globals.insertMany [("zoom", .int 2), ("depth", .int 3)]

/- It is built, and refused for the smaller of the two. -/
theorem mixed_plan_is_built_without_excess :
    (∃ engine,
        plan.build "page" globals = .ok engine ∧
          engine.name = "page" ∧
          List.Forall₂
            (fun item stage =>
              item.Makes
                (globals.filterNames
                  (declares item.declaration.specs))
                stage)
            plan.items engine.chain.stages) ∧
      plan.build "page" excess =
          .error (.unknownGlobalOption "page" "depth") ∧
        plan.LeavesOver excess "zoom" := by
  have hBuilt :
      ∃ engine, plan.build "page" globals = .ok engine :=
    ⟨_, rfl⟩
  rcases hBuilt with ⟨engine, hBuild⟩
  have hStages :=
    (engine_built_iff_declarations_valid "page" globals
      plan).2.2 engine hBuild
  refine ⟨⟨engine, hBuild, hStages⟩, rfl, by decide, ?_⟩
  rintro ⟨item, hItem, hDeclares⟩
  simp only [plan, Plan.items, List.nil_append,
    List.cons_append, List.mem_cons, List.not_mem_nil,
    or_false] at hItem
  rcases hItem with rfl | rfl | rfl
  all_goals exact absurd hDeclares (by decide)

end MixedPlan

end TemplateTree
