import TemplateTree.Error

/-
  Results that may be failures, taken apart.

  Main declarations:
    * `Except.bind_eq_ok_iff`
    * `Except.map_eq_ok_iff`
    * `Except.mapError_eq_ok_iff`
    * `Except.bind_eq_error_iff`
    * `Except.exists_of_collected_error`
    * `Except.toOption_eq_some_iff`

  A chain of readings succeeds exactly when each of them
  does, and then the values in between can be named.
-/

------------------------------------------------------------
-- Computation
------------------------------------------------------------

namespace TemplateTree

namespace Except

universe u v w x y

variable {ε : Type u} {δ : Type v}
variable {α : Type w} {β : Type x}

@[simp] theorem bind_ok
    (x : α)
    (f : α → Except ε β) :
    (Except.ok x : Except ε α).bind f = f x := rfl

@[simp] theorem bind_error
    (e : ε)
    (f : α → Except ε β) :
    (Except.error e : Except ε α).bind f = .error e := rfl

@[simp] theorem map_ok
    (x : α)
    (f : α → β) :
    (Except.ok x : Except ε α).map f = .ok (f x) := rfl

@[simp] theorem map_error
    (e : ε)
    (f : α → β) :
    (Except.error e : Except ε α).map f = .error e := rfl

@[simp] theorem mapError_ok
    (x : α)
    (f : ε → δ) :
    (Except.ok x : Except ε α).mapError f = .ok x := rfl

@[simp] theorem mapError_error
    (e : ε)
    (f : ε → δ) :
    (Except.error e : Except ε α).mapError f =
      .error (f e) := rfl

/- Two changes of a result are one. -/
theorem map_map
    {γ : Type y}
    (r : Except ε α)
    (f : α → β)
    (g : β → γ) :
    (r.map f).map g = r.map fun x => g (f x) := by
  cases r with
  | error e => rfl
  | ok x => rfl

theorem map_bind
    {γ : Type y}
    (r : Except ε α)
    (f : α → Except ε β)
    (g : β → γ) :
    (r.bind f).map g = r.bind fun x => (f x).map g := by
  cases r with
  | error e => rfl
  | ok x => rfl

theorem bind_assoc
    {γ : Type y}
    (r : Except ε α)
    (f : α → Except ε β)
    (g : β → Except ε γ) :
    (r.bind f).bind g = r.bind fun x => (f x).bind g := by
  cases r with
  | error e => rfl
  | ok x => rfl

/- A chain whose second link never fails. -/
theorem bind_ok_eq_map
    (r : Except ε α)
    (f : α → β) :
    (r.bind fun x => .ok (f x)) = r.map f := by
  cases r with
  | error e => rfl
  | ok x => rfl

/- Two changes of an error are one. -/
theorem mapError_mapError
    {γ : Type y}
    (r : Except ε α)
    (f : ε → δ)
    (g : δ → γ) :
    (r.mapError f).mapError g =
      r.mapError fun e => g (f e) := by
  cases r with
  | error e => rfl
  | ok x => rfl

/- The errors of a chain are those of its links. -/
theorem mapError_bind
    (r : Except ε α)
    (f : α → Except ε β)
    (g : ε → δ) :
    (r.bind f).mapError g =
      (r.mapError g).bind fun x => (f x).mapError g := by
  cases r with
  | error e => rfl
  | ok x => rfl

theorem mapError_map
    (r : Except ε α)
    (f : α → β)
    (g : ε → δ) :
    (r.map f).mapError g = (r.mapError g).map f := by
  cases r with
  | error e => rfl
  | ok x => rfl

------------------------------------------------------------
-- Success
------------------------------------------------------------

/- A chain succeeds when both of its links do. -/
theorem bind_eq_ok_iff
    {r : Except ε α}
    {f : α → Except ε β}
    {y : β} :
    r.bind f = .ok y ↔ ∃ x, r = .ok x ∧ f x = .ok y := by
  cases r with
  | error e => simp
  | ok x => simp

/- A changed result is the change of a result. -/
theorem map_eq_ok_iff
    {r : Except ε α}
    {f : α → β}
    {y : β} :
    r.map f = .ok y ↔ ∃ x, r = .ok x ∧ f x = y := by
  cases r with
  | error e => simp
  | ok x => simp

/- Changing errors changes no success. -/
theorem mapError_eq_ok_iff
    {r : Except ε α}
    {f : ε → δ}
    {x : α} :
    r.mapError f = .ok x ↔ r = .ok x := by
  cases r with
  | error e => simp
  | ok y => simp

------------------------------------------------------------
-- Failure
------------------------------------------------------------

/- A chain fails at its first link or at its second. -/
theorem bind_eq_error_iff
    {r : Except ε α}
    {f : α → Except ε β}
    {e : ε} :
    r.bind f = .error e ↔
      r = .error e ∨ ∃ x, r = .ok x ∧ f x = .error e := by
  cases r with
  | error e' => simp
  | ok x => simp

theorem map_eq_error_iff
    {r : Except ε α}
    {f : α → β}
    {e : ε} :
    r.map f = .error e ↔ r = .error e := by
  cases r with
  | error e' => simp
  | ok x => simp

theorem mapError_eq_error_iff
    {r : Except ε α}
    {f : ε → δ}
    {e : δ} :
    r.mapError f = .error e ↔
      ∃ cause, r = .error cause ∧ f cause = e := by
  cases r with
  | error cause => simp
  | ok x => simp

/- What is collected along a list fails at a member of it. -/
theorem exists_of_collected_error
    {ι : Type v}
    {γ : Type y}
    {one : ι → Except ε α}
    {all : List ι → Except ε γ}
    (start : γ)
    (join : α → γ → γ)
    (hNil : all [] = .ok start)
    (hCons :
      ∀ x xs,
        all (x :: xs) =
          (one x).bind fun first => (all xs).map (join first))
    {xs : List ι}
    {e : ε}
    (h : all xs = .error e) :
    ∃ x ∈ xs, one x = .error e := by
  induction xs with
  | nil =>
      rw [hNil] at h
      cases h
  | cons x xs ih =>
      rw [hCons, bind_eq_error_iff] at h
      rcases h with hFirst | ⟨first, -, hRest⟩
      · exact ⟨x, List.mem_cons_self, hFirst⟩
      · rw [map_eq_error_iff] at hRest
        rcases ih hRest with ⟨y, hMem, hError⟩
        exact ⟨y, List.mem_cons_of_mem x hMem, hError⟩

/- A result is a failure if it is no success. -/
theorem exists_eq_error_iff
    {r : Except ε α} :
    (∃ e, r = .error e) ↔ ¬ ∃ x, r = .ok x := by
  cases r with
  | error e => simp
  | ok x => simp

/- Where there is no error there is a result. -/
theorem exists_eq_ok_iff
    {r : Except ε α}
    {error? : Option ε}
    (h : ∀ e, r = .error e ↔ error? = some e) :
    (∃ x, r = .ok x) ↔ error? = none := by
  cases r with
  | error e => simp [(h e).mp rfl]
  | ok x =>
      have hNone : ∀ e, error? ≠ some e := by
        intro e hError
        cases (h e).mpr hError
      simp [Option.eq_none_iff_forall_ne_some.mpr hNone]

------------------------------------------------------------
-- Errors Left Out
------------------------------------------------------------

@[simp] theorem toOption_ok
    (x : α) :
    (Except.ok x : Except ε α).toOption = some x := rfl

@[simp] theorem toOption_error
    (e : ε) :
    (Except.error e : Except ε α).toOption = none := rfl

/- Without its error, a result still tells its success. -/
theorem toOption_eq_some_iff
    {r : Except ε α}
    {x : α} :
    r.toOption = some x ↔ r = .ok x := by
  cases r with
  | error e => simp
  | ok y => simp

theorem toOption_bind
    (r : Except ε α)
    (f : α → Except ε β) :
    (r.bind f).toOption =
      r.toOption.bind fun x => (f x).toOption := by
  cases r with
  | error e => rfl
  | ok x => rfl

theorem toOption_map
    (r : Except ε α)
    (f : α → β) :
    (r.map f).toOption = r.toOption.map f := by
  cases r with
  | error e => rfl
  | ok x => rfl

theorem toOption_mapError
    (r : Except ε α)
    (f : ε → δ) :
    (r.mapError f).toOption = r.toOption := by
  cases r with
  | error e => rfl
  | ok x => rfl

end Except

end TemplateTree
