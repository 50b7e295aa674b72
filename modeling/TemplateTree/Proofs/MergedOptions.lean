import TemplateTree.Proofs.BoundOptions
import TemplateTree.Proofs.Utf8

/-
  How the options of a stage are merged and checked.

  Main declarations:
    * `OptionSpec.Refuses`
    * `ResolvedOptions.bind_eq_error_iff`
    * `OptionSpec.Reads`
    * `ResolvedOptions.reads_of_bind`
    * `options_are_merged_then_checked`

  An option of the stage's own that it does not declare is
  reported first.  After that the declarations are checked in
  order.  What passes the check of a declaration is found again
  by the reader that belongs to its kind.
-/

------------------------------------------------------------
-- Refused Options
------------------------------------------------------------

namespace TemplateTree

/- The error for a value that a declaration does not admit. -/
inductive OptionSpec.Refuses
    (stage : String)
    (spec : OptionSpec) :
    Option OptionValue → ConfigError → Prop
| invalid
    (value : OptionValue)
    (hAccepts : spec.kind.accepts value = false) :
    Refuses stage spec (some value)
      (.invalidOption stage spec.name spec.kind.describe
        value.kindName)
| missing
    (hRequired : spec.required = true) :
    Refuses stage spec none (.missingOption stage spec.name)

theorem OptionSpec.admits_iff
    {spec : OptionSpec}
    {value? : Option OptionValue} :
    spec.Admits value? ↔
      (∀ value, value? = some value →
        spec.kind.accepts value = true) ∧
        (spec.required = true → ∃ value, value? = some value) := by
  cases value? with
  | some value => simp [Admits]
  | none => simp [Admits]

/- The least option of its own that a stage does not declare. -/
structure Options.IsFirstUnknown
    (specs : List OptionSpec)
    (locals : Options)
    (name : String) : Prop where
  own : name ∈ locals.keys
  unknown : ∀ spec ∈ specs, spec.name ≠ name
  least :
    ∀ other ∈ locals.keys,
      (∀ spec ∈ specs, spec.name ≠ other) →
        other ≠ name → Utf8.encode name < Utf8.encode other

theorem declares_eq_true_iff
    {specs : List OptionSpec}
    {name : String} :
    declares specs name = true ↔
      ∃ spec ∈ specs, spec.name = name := by
  simp [declares]

theorem not_declares_iff
    {specs : List OptionSpec}
    {name : String} :
    (!declares specs name) = true ↔
      ∀ spec ∈ specs, spec.name ≠ name := by
  simp [declares]

namespace ResolvedOptions

variable {stage : String}
variable {globals locals : Options}
variable {specs : List OptionSpec}

theorem find?_keys_eq_some_iff
    {name : String} :
    (locals.keys.find? fun name => !declares specs name) =
        some name ↔
      locals.IsFirstUnknown specs name := by
  rw [NameMap.find?_keys_eq_some_iff]
  simp only [not_declares_iff, ← Utf8.encode_lt_encode_iff]
  constructor
  · rintro ⟨hOwn, hUnknown, hLeast⟩
    exact ⟨hOwn, hUnknown, hLeast⟩
  · rintro ⟨hOwn, hUnknown, hLeast⟩
    exact ⟨hOwn, hUnknown, hLeast⟩

/- A declaration is refused, or a later one is. -/
theorem bindSpecs_cons_eq_error_iff
    {spec : OptionSpec}
    {values : Options}
    {error : ConfigError} :
    bindSpecs stage globals locals (spec :: specs) values =
        .error error ↔
      spec.Refuses stage (effective? globals locals spec.name)
          error ∨
        spec.Admits (effective? globals locals spec.name) ∧
          bindSpecs stage globals locals specs
              (match effective? globals locals spec.name with
              | some value => values.insert spec.name value
              | none => values) = .error error := by
  rw [bindSpecs]
  cases effective? globals locals spec.name with
  | some value =>
      cases hAccepts : spec.kind.accepts value with
      | true =>
          have hNot : ¬ spec.Refuses stage (some value) error := by
            intro hRefuses
            cases hRefuses with
            | invalid _ hRefused =>
                rw [hAccepts] at hRefused
                cases hRefused
          simp [OptionSpec.Admits, hAccepts, hNot]
      | false =>
          simp only [Bool.false_eq_true, if_false,
            OptionSpec.Admits, hAccepts, false_and, or_false]
          constructor
          · intro hError
            cases hError
            exact .invalid value hAccepts
          · rintro ⟨-⟩
            rfl
  | none =>
      cases hRequired : spec.required with
      | true =>
          simp only [if_true, OptionSpec.Admits, hRequired,
            Bool.true_eq_false, false_and, or_false]
          constructor
          · intro hError
            cases hError
            exact .missing hRequired
          · rintro ⟨-⟩
            rfl
      | false =>
          have hNot : ¬ spec.Refuses stage none error := by
            intro hRefuses
            cases hRefuses with
            | missing hMissing =>
                rw [hRequired] at hMissing
                cases hMissing
          simp [OptionSpec.Admits, hRequired, hNot]

/- The first declaration that is not met gives the error. -/
theorem bindSpecs_eq_error_iff
    (values : Options)
    {error : ConfigError} :
    bindSpecs stage globals locals specs values =
        .error error ↔
      ∃ before spec after,
        specs = before ++ spec :: after ∧
          (∀ earlier ∈ before,
            earlier.Admits
              (effective? globals locals earlier.name)) ∧
            spec.Refuses stage
              (effective? globals locals spec.name) error := by
  induction specs generalizing values with
  | nil => simp [bindSpecs]
  | cons first specs ih =>
      rw [bindSpecs_cons_eq_error_iff, ih]
      constructor
      · rintro (hRefuses | ⟨hAdmits, before, spec, after, rfl,
          hBefore, hRefuses⟩)
        · exact ⟨[], first, specs, rfl, by simp, hRefuses⟩
        · refine
            ⟨first :: before, spec, after, rfl, ?_, hRefuses⟩
          exact List.forall_mem_cons.mpr ⟨hAdmits, hBefore⟩
      · rintro ⟨before, spec, after, hSpecs, hBefore, hRefuses⟩
        cases before with
        | nil =>
            cases hSpecs
            exact Or.inl hRefuses
        | cons other before =>
            cases hSpecs
            rw [List.forall_mem_cons] at hBefore
            exact Or.inr
              ⟨hBefore.1, before, spec, after, rfl, hBefore.2,
                hRefuses⟩

/- An unknown option is reported before all others. -/
theorem bind_eq_error_iff
    {error : ConfigError} :
    bind stage specs globals locals = .error error ↔
      (∃ name,
        locals.IsFirstUnknown specs name ∧
          error = .unknownOption stage name) ∨
      (∀ name ∈ locals.keys, declares specs name = true) ∧
        ∃ before spec after,
          specs = before ++ spec :: after ∧
            (∀ earlier ∈ before,
              earlier.Admits
                (effective? globals locals earlier.name)) ∧
              spec.Refuses stage
                (effective? globals locals spec.name) error := by
  have hKnown :
      (locals.keys.find? fun name => !declares specs name) =
          none ↔
        ∀ name ∈ locals.keys, declares specs name = true := by
    simp
  rw [← hKnown, ← bindSpecs_eq_error_iff NameMap.empty]
  simp only [← find?_keys_eq_some_iff]
  unfold bind
  cases locals.keys.find? fun name => !declares specs name with
  | some name => simp [eq_comm]
  | none => simp [Except.map_eq_error_iff]

end ResolvedOptions

------------------------------------------------------------
-- Reading Options
------------------------------------------------------------

/-
  What the reader that belongs to a kind finds for a value, or
  for no value at all.  Only without a value it answers with
  the default.
-/
def OptionSpec.Reads
    (options : ResolvedOptions)
    (spec : OptionSpec)
    (value? : Option OptionValue) : Prop :=
  match spec.kind with
  | .bool =>
      ∀ default,
        .bool (options.boolOr spec.name default) =
          value?.getD (.bool default)
  | .int =>
      ∀ default,
        .int (options.intOr spec.name default) =
          value?.getD (.int default)
  | .float => options.get? spec.name = value?
  | .text =>
      (options.text? spec.name).map .text = value? ∧
        ∀ default,
          .text (options.textOr spec.name default) =
            value?.getD (.text default)
  | .textList =>
      ∀ default,
        .list ((options.textListOr spec.name default).map .text) =
          value?.getD (.list (default.map .text))

/- A list of texts is the list of the texts in it. -/
theorem OptionValue.map_text_filterMap
    {items : List OptionValue}
    (hItems : ∀ item ∈ items, item.asText?.isSome = true) :
    (items.filterMap asText?).map .text = items := by
  induction items with
  | nil => rfl
  | cons item items ih =>
      rw [List.forall_mem_cons] at hItems
      cases item with
      | text value =>
          have hText : asText? (.text value) = some value := rfl
          rw [List.filterMap_cons_some hText, List.map_cons,
            ih hItems.2]
      | _ => cases hItems.1

/- An admitted value is found by the reader of its kind. -/
theorem OptionSpec.reads_of_admits
    {options : ResolvedOptions}
    {spec : OptionSpec}
    {value? : Option OptionValue}
    (hAdmits : spec.Admits value?)
    (hGet : options.get? spec.name = value?) :
    spec.Reads options value? := by
  unfold Reads
  cases hKind : spec.kind with
  | bool =>
      intro default
      rw [ResolvedOptions.boolOr, hGet]
      cases value? with
      | none => rfl
      | some value =>
          cases value with
          | bool b => rfl
          | _ => simp [Admits, hKind, OptionKind.accepts] at hAdmits
  | int =>
      intro default
      rw [ResolvedOptions.intOr, hGet]
      cases value? with
      | none => rfl
      | some value =>
          cases value with
          | int n => rfl
          | _ => simp [Admits, hKind, OptionKind.accepts] at hAdmits
  | float => exact hGet
  | text =>
      simp only [ResolvedOptions.textOr, ResolvedOptions.text?, hGet]
      cases value? with
      | none => exact ⟨rfl, fun default => rfl⟩
      | some value =>
          cases value with
          | text s => exact ⟨rfl, fun default => rfl⟩
          | _ => simp [Admits, hKind, OptionKind.accepts] at hAdmits
  | textList =>
      intro default
      rw [ResolvedOptions.textListOr, hGet]
      cases value? with
      | none => rfl
      | some value =>
          cases value with
          | list items =>
              rw [Admits, hKind, OptionKind.accepts,
                List.all_eq_true] at hAdmits
              exact congrArg OptionValue.list
                (OptionValue.map_text_filterMap hAdmits)
          | _ => simp [Admits, hKind, OptionKind.accepts] at hAdmits

------------------------------------------------------------
-- Outcomes
------------------------------------------------------------

namespace ResolvedOptions

/-
  What merging and checking comes to.  All of a stage's own
  options have to be declared, each value that is used has to
  be of its kind, and what is required has to have a value.
-/
structure IsMerged
    (stage : String)
    (specs : List OptionSpec)
    (globals locals : Options)
    (outcome : Except ConfigError ResolvedOptions) : Prop where
  accepted :
    (∃ resolved, outcome = .ok resolved) ↔
      (∀ name ∈ locals.keys, ∃ spec ∈ specs, spec.name = name) ∧
        (∀ spec ∈ specs, ∀ value,
          effective? globals locals spec.name = some value →
            spec.kind.accepts value = true) ∧
        ∀ spec ∈ specs, spec.required = true →
          ∃ value,
            effective? globals locals spec.name = some value
  refused :
    ∀ error, outcome = .error error ↔
      (∃ name,
        locals.IsFirstUnknown specs name ∧
          error = .unknownOption stage name) ∨
      (∀ name ∈ locals.keys, ∃ spec ∈ specs, spec.name = name) ∧
        ∃ before spec after,
          specs = before ++ spec :: after ∧
            (∀ earlier ∈ before,
              earlier.Admits
                (effective? globals locals earlier.name)) ∧
              spec.Refuses stage
                (effective? globals locals spec.name) error
  named :
    ∀ resolved, outcome = .ok resolved → resolved.stage = stage
  held :
    ∀ resolved, outcome = .ok resolved →
      ∀ name value,
        resolved.get? name = some value ↔
          (∃ spec ∈ specs, spec.name = name) ∧
            effective? globals locals name = some value
  read :
    ∀ resolved, outcome = .ok resolved →
      ∀ spec ∈ specs,
        spec.Reads resolved
          (effective? globals locals spec.name)

variable {stage : String}
variable {specs : List OptionSpec}
variable {globals locals : Options}

theorem exists_bind_iff_accepts :
    (∃ resolved,
        bind stage specs globals locals = .ok resolved) ↔
      (∀ name ∈ locals.keys, ∃ spec ∈ specs, spec.name = name) ∧
        (∀ spec ∈ specs, ∀ value,
          effective? globals locals spec.name = some value →
            spec.kind.accepts value = true) ∧
        ∀ spec ∈ specs, spec.required = true →
          ∃ value,
            effective? globals locals spec.name = some value := by
  rw [exists_bind_iff]
  simp only [declares_eq_true_iff, OptionSpec.admits_iff,
    forall_and]

/- Every declared option is read as the value that is used. -/
theorem reads_of_bind
    {resolved : ResolvedOptions}
    (h : bind stage specs globals locals = .ok resolved)
    {spec : OptionSpec}
    (hSpec : spec ∈ specs) :
    spec.Reads resolved
      (effective? globals locals spec.name) := by
  have hAdmits := (exists_bind_iff.mp ⟨resolved, h⟩).2 spec hSpec
  have hDeclares : declares specs spec.name = true :=
    declares_eq_true_iff.mpr ⟨spec, hSpec, rfl⟩
  apply OptionSpec.reads_of_admits hAdmits
  rw [get?_of_bind h, if_pos hDeclares]

end ResolvedOptions

/-
  The options of a stage are merged and then checked.  What an
  engine sets for a name that the stage does not declare, or
  that the stage sets itself, makes no difference.
-/
theorem options_are_merged_then_checked
    (stage : String)
    (specs : List OptionSpec)
    (globals locals : Options) :
    ResolvedOptions.IsMerged stage specs globals locals
        (ResolvedOptions.bind stage specs globals locals) ∧
      ∀ globals' : Options,
        (∀ spec ∈ specs, locals.get? spec.name = none →
          globals.get? spec.name = globals'.get? spec.name) →
          ResolvedOptions.bind stage specs globals locals =
            ResolvedOptions.bind stage specs globals' locals := by
  constructor
  · refine ⟨ResolvedOptions.exists_bind_iff_accepts, ?_, ?_, ?_, ?_⟩
    · intro error
      rw [ResolvedOptions.bind_eq_error_iff]
      simp only [declares_eq_true_iff]
    · intro resolved hBind
      rcases ResolvedOptions.bind_eq_ok_iff.mp hBind with
        ⟨-, values, -, rfl⟩
      rfl
    · intro resolved hBind name value
      rw [ResolvedOptions.get?_of_bind hBind,
        ← declares_eq_true_iff]
      simp
    · intro resolved hBind spec hSpec
      exact ResolvedOptions.reads_of_bind hBind hSpec
  · intro globals' hSame
    apply ResolvedOptions.bind_eq_of_effective?
    intro spec hSpec
    unfold ResolvedOptions.effective?
    cases hLocal : locals.get? spec.name with
    | some value => rfl
    | none => exact hSame spec hSpec hLocal

end TemplateTree
