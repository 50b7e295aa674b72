import TemplateTree.Options
import TemplateTree.Proofs.Except
import TemplateTree.Proofs.NameMaps

/-
  Options that a stage can be bound to.

  Main declarations:
    * `OptionSpec.Admits`
    * `ResolvedOptions.bind_eq_ok_iff`
    * `ResolvedOptions.exists_bind_iff`
    * `ResolvedOptions.get?_of_bind`
    * `ResolvedOptions.bind_eq_of_effective?`

  Each declared option is checked on its own, with the value
  that the stage would use.  What is bound are the values of
  the declared options.
-/

------------------------------------------------------------
-- Declared Options
------------------------------------------------------------

namespace TemplateTree

/- A value of an option, or none, as its declaration allows. -/
def OptionSpec.Admits
    (spec : OptionSpec) :
    Option OptionValue → Prop
| some value => spec.kind.accepts value = true
| none => spec.required = false

theorem declares_cons_iff
    {spec : OptionSpec}
    {specs : List OptionSpec}
    {name : String} :
    declares (spec :: specs) name = true ↔
      spec.name = name ∨ declares specs name = true := by
  simp [declares]

namespace ResolvedOptions

variable {stage : String}
variable {globals locals : Options}
variable {specs : List OptionSpec}

/- A declared option is bound if its value is admitted. -/
theorem bindSpecs_cons_eq_ok_iff
    {spec : OptionSpec}
    {values bound : Options} :
    bindSpecs stage globals locals (spec :: specs) values =
        .ok bound ↔
      spec.Admits (effective? globals locals spec.name) ∧
        bindSpecs stage globals locals specs
            (match effective? globals locals spec.name with
            | some value => values.insert spec.name value
            | none => values) = .ok bound := by
  rw [bindSpecs]
  cases effective? globals locals spec.name with
  | some value =>
      cases hAccepts : spec.kind.accepts value <;>
        simp [OptionSpec.Admits, hAccepts]
  | none =>
      cases hRequired : spec.required <;>
        simp [OptionSpec.Admits, hRequired]

/- All declared options are bound if each one is admitted. -/
theorem exists_bindSpecs_iff
    (stage : String)
    (values : Options) :
    (∃ bound,
        bindSpecs stage globals locals specs values =
          .ok bound) ↔
      ∀ spec ∈ specs,
        spec.Admits (effective? globals locals spec.name) := by
  induction specs generalizing values with
  | nil => simp [bindSpecs]
  | cons spec specs ih =>
      simp only [bindSpecs_cons_eq_ok_iff, exists_and_left, ih,
        List.forall_mem_cons]

/- A declared option has the value that the stage uses. -/
theorem get?_of_bindSpecs
    {values bound : Options}
    (h :
      bindSpecs stage globals locals specs values = .ok bound)
    {name : String} :
    bound.get? name =
      (if declares specs name then
          effective? globals locals name
        else none).or (values.get? name) := by
  induction specs generalizing values with
  | nil =>
      cases h
      rfl
  | cons spec specs ih =>
      rw [ih (bindSpecs_cons_eq_ok_iff.mp h).2]
      by_cases hName : spec.name = name
      · subst hName
        rw [if_pos (declares_cons_iff.mpr (Or.inl rfl))]
        cases effective? globals locals spec.name with
        | some value =>
            cases declares specs spec.name <;>
              simp [NameMap.get?_insert]
        | none => simp
      · have hDeclares :
            declares (spec :: specs) name =
              declares specs name := by
          simp [declares, hName]
        rw [hDeclares]
        cases effective? globals locals spec.name with
        | some value =>
            simp only [NameMap.get?_insert, if_neg hName]
        | none => rfl

------------------------------------------------------------
-- Binding
------------------------------------------------------------

/- A stage's own options have to be declared. -/
theorem bind_eq_ok_iff
    {resolved : ResolvedOptions} :
    bind stage specs globals locals = .ok resolved ↔
      (∀ name ∈ locals.keys, declares specs name = true) ∧
        ∃ values,
          bindSpecs stage globals locals specs NameMap.empty =
              .ok values ∧
            (⟨stage, values⟩ : ResolvedOptions) = resolved := by
  have hKnown :
      (locals.keys.find? fun name => !declares specs name) =
          none ↔
        ∀ name ∈ locals.keys, declares specs name = true := by
    simp
  unfold bind
  rw [← hKnown]
  cases locals.keys.find? fun name => !declares specs name with
  | some name => simp
  | none => simp [Except.map_eq_ok_iff]

/- What is needed to bind the options of a stage. -/
theorem exists_bind_iff :
    (∃ resolved,
        bind stage specs globals locals = .ok resolved) ↔
      (∀ name ∈ locals.keys, declares specs name = true) ∧
        ∀ spec ∈ specs,
          spec.Admits
            (effective? globals locals spec.name) := by
  rw [← exists_bindSpecs_iff stage NameMap.empty]
  simp only [bind_eq_ok_iff]
  constructor
  · rintro ⟨resolved, hKnown, values, hValues, -⟩
    exact ⟨hKnown, values, hValues⟩
  · rintro ⟨hKnown, values, hValues⟩
    exact ⟨_, hKnown, values, hValues, rfl⟩

/- What a stage then sees. -/
theorem get?_of_bind
    {resolved : ResolvedOptions}
    (h : bind stage specs globals locals = .ok resolved)
    {name : String} :
    resolved.get? name =
      if declares specs name then
        effective? globals locals name
      else none := by
  rcases bind_eq_ok_iff.mp h with ⟨-, values, hValues, rfl⟩
  rw [get?, get?_of_bindSpecs hValues]
  exact Option.or_none

------------------------------------------------------------
-- Options With The Same Values
------------------------------------------------------------

variable {globals' : Options}

theorem bindSpecs_eq_of_effective?
    (stage : String)
    (hSame :
      ∀ spec ∈ specs,
        effective? globals locals spec.name =
          effective? globals' locals spec.name)
    (values : Options) :
    bindSpecs stage globals locals specs values =
      bindSpecs stage globals' locals specs values := by
  induction specs generalizing values with
  | nil => rfl
  | cons spec specs ih =>
      rw [List.forall_mem_cons] at hSame
      simp only [bindSpecs, hSame.1, ih hSame.2]

/- Of the options of an engine, a stage sees what it uses. -/
theorem bind_eq_of_effective?
    (stage : String)
    (hSame :
      ∀ spec ∈ specs,
        effective? globals locals spec.name =
          effective? globals' locals spec.name) :
    bind stage specs globals locals =
      bind stage specs globals' locals := by
  unfold bind
  rw [bindSpecs_eq_of_effective? stage hSame]

end ResolvedOptions

end TemplateTree
