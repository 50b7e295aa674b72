import TemplateTree.Command.Binding
import TemplateTree.Proofs.LiteralSources
import TemplateTree.Proofs.NameMaps
import TemplateTree.Proofs.ProgramReading

/-
  Bindings that are given to a command.

  Main declarations:
    * `Expression.literal?_eq_none_of_isIdentifier`
    * `Binding.parse_eq_ok_iff`
    * `Binding.IsLast`
    * `Binding.get?_insertMany_of_isLast`
    * `accepted_bindings_are_reachable`

  A name is looked up only if the expression is no literal,
  so a name that is bound must never be one.  Among bindings
  of one name the last one counts.
-/

------------------------------------------------------------
-- Identifiers
------------------------------------------------------------

namespace TemplateTree

namespace Text

theorem mem_trimEnd_of_not_blank
    {c : Char}
    (hc : isBlank c = false)
    {cs : List Char}
    (hMem : c ∈ cs) :
    c ∈ trimEnd cs := by
  induction cs with
  | nil => cases hMem
  | cons d cs ih =>
      rw [trimEnd]
      rcases List.mem_cons.mp hMem with rfl | hTail
      · split <;> simp [hc]
      · have hKept := ih hTail
        split
        · next hNil =>
            rw [hNil] at hKept
            cases hKept
        · next e es hEq =>
            rw [hEq] at hKept
            exact List.mem_cons_of_mem _ hKept

/- Only white space is lost when a text is trimmed. -/
theorem mem_trimChars_of_not_blank
    {c : Char}
    (hc : isBlank c = false)
    {cs : List Char}
    (hMem : c ∈ cs) :
    c ∈ trimChars cs := by
  apply mem_trimEnd_of_not_blank hc
  rw [← List.takeWhile_append_dropWhile (p := isBlank)
    (l := cs), List.mem_append] at hMem
  rcases hMem with hBefore | hAfter
  · have hBlank :=
      List.all_eq_true.mp List.all_takeWhile c hBefore
    rw [hc] at hBlank
    cases hBlank
  · exact hAfter

end Text

namespace Expression

/- The characters of words that are joined by dots. -/
theorem isPath_mem
    {start : Bool}
    {cs : List Char}
    (hPath : isPath start cs = true)
    {c : Char}
    (hc : c ∈ cs) :
    c = '.' ∨ isWordStart c = true ∨ isWordChar c = true := by
  induction cs generalizing start with
  | nil => cases hc
  | cons d cs ih =>
      cases start with
      | true =>
          rw [isPath, Bool.and_eq_true] at hPath
          rcases List.mem_cons.mp hc with rfl | hTail
          · exact Or.inr (Or.inl hPath.1)
          · exact ih hPath.2 hTail
      | false =>
          rw [isPath] at hPath
          split at hPath
          · next hDot =>
              rcases List.mem_cons.mp hc with rfl | hTail
              · exact Or.inl hDot
              · exact ih hPath hTail
          · rw [Bool.and_eq_true] at hPath
            rcases List.mem_cons.mp hc with rfl | hTail
            · exact Or.inr (Or.inr hPath.1)
            · exact ih hPath.2 hTail

theorem isIdentifier_iff
    {src : String} :
    isIdentifier src = true ↔
      Text.trimChars src.toList ≠ "true".toList ∧
        Text.trimChars src.toList ≠ "false".toList ∧
          isPath true (Text.trimChars src.toList) = true := by
  unfold isIdentifier
  simp [and_assoc]

/- No name has an equality sign in it. -/
theorem sign_not_mem_of_isIdentifier
    {name : String}
    (hName : isIdentifier name = true) :
    '=' ∉ name.toList := by
  intro hSign
  have hPath := (isIdentifier_iff.mp hName).2.2
  have hKept :=
    Text.mem_trimChars_of_not_blank (by decide) hSign
  have hChar := isPath_mem hPath hKept
  revert hChar
  decide

theorem toNat_of_isAlpha
    {c : Char}
    (hc : c.isAlpha = true) :
    (65 ≤ c.toNat ∧ c.toNat ≤ 90) ∨
      (97 ≤ c.toNat ∧ c.toNat ≤ 122) := by
  rcases Bool.or_eq_true_iff.mp hc with hUpper | hLower
  · exact Or.inl (of_decide_eq_true hUpper)
  · rcases Bool.and_eq_true_iff.mp hLower with ⟨hLow, hHigh⟩
    exact
      Or.inr ⟨of_decide_eq_true hLow, of_decide_eq_true hHigh⟩

/- What starts a word starts no number. -/
theorem isDigit_of_isWordStart
    {c : Char}
    (hc : isWordStart c = true) :
    c.isDigit = false := by
  rw [isWordStart, Bool.or_eq_true, beq_iff_eq] at hc
  rcases hc with hAlpha | rfl
  · have hLetter := toNat_of_isAlpha hAlpha
    rw [← Bool.not_eq_true]
    intro hDigit
    have hRange : 48 ≤ c.toNat ∧ c.toNat ≤ 57 :=
      Char.isDigit_iff_toNat.mp hDigit
    omega
  · decide

/- A name is no literal, so a literal never hides its value. -/
theorem literal?_eq_none_of_isIdentifier
    {src : String}
    (hName : isIdentifier src = true) :
    literal? src = none := by
  rcases isIdentifier_iff.mp hName with ⟨hTrue, hFalse, hPath⟩
  unfold literal?
  simp only [if_neg hTrue, if_neg hFalse]
  cases hChars : Text.trimChars src.toList with
  | nil => rfl
  | cons c cs =>
      rw [hChars, isPath, Bool.and_eq_true] at hPath
      have hOther {d : Char} (hd : isWordStart d = false) :
          c ≠ d := by
        rintro rfl
        rw [hd] at hPath
        cases hPath.1
      split
      · next body hBody =>
          exact absurd (List.cons.inj hBody).1
            (hOther (by decide))
      · have hMinus : c ≠ '-' := hOther (by decide)
        simp [readNumber, hMinus, isDigit_of_isWordStart hPath.1]

end Expression

------------------------------------------------------------
-- Single Bindings
------------------------------------------------------------

namespace Binding

/- A text is cut at its first equality sign. -/
theorem split?_eq_some_iff
    {cs name value : List Char} :
    split? cs = some (name, value) ↔
      cs = name ++ '=' :: value ∧ '=' ∉ name := by
  induction cs generalizing name with
  | nil => simp [split?]
  | cons c cs ih =>
      rw [split?]
      by_cases hc : c = '='
      · rw [if_pos hc]
        constructor
        · intro h
          cases h
          exact ⟨by rw [hc]; rfl, by simp⟩
        · rintro ⟨hCut, hSign⟩
          cases name with
          | nil =>
              rw [List.nil_append, List.cons.injEq] at hCut
              rw [hCut.2]
          | cons d name =>
              rw [List.cons_append, List.cons.injEq] at hCut
              rw [← hCut.1, hc] at hSign
              simp at hSign
      · rw [if_neg hc]
        constructor
        · intro h
          rcases Option.map_eq_some_iff.mp h with
            ⟨⟨before, after⟩, hRest, hEq⟩
          cases hEq
          rcases ih.mp hRest with ⟨rfl, hSign⟩
          refine ⟨rfl, ?_⟩
          simp [hSign, Ne.symm hc]
        · rintro ⟨hCut, hSign⟩
          cases name with
          | nil =>
              rw [List.nil_append, List.cons.injEq] at hCut
              exact absurd hCut.1 hc
          | cons d name =>
              rw [List.cons_append, List.cons.injEq] at hCut
              rcases hCut with ⟨rfl, hCut⟩
              have hTail : '=' ∉ name :=
                fun hMem => hSign (List.mem_cons_of_mem _ hMem)
              rw [ih.mpr ⟨hCut, hTail⟩]
              rfl

/- A binding is a name, the first equality sign and a value. -/
theorem parse_eq_ok_iff
    {raw name : String}
    {value : Literal} :
    parse raw = .ok (name, value) ↔
      ∃ left right,
        raw = left ++ "=" ++ right ∧ '=' ∉ left.toList ∧
          Expression.isIdentifier left = true ∧
            Text.trim left = name ∧
              Binding.value right = value := by
  constructor
  · intro h
    unfold parse at h
    split at h
    · cases h
    · next left right hSplit =>
        rcases split?_eq_some_iff.mp hSplit with ⟨hCut, hSign⟩
        simp only [Render.isIdentifier_trim] at h
        split at h
        · next hName =>
            cases h
            refine
              ⟨String.ofList left, String.ofList right, ?_, ?_,
                hName, rfl, rfl⟩
            · apply String.toList_inj.mp
              simp [hCut]
            · rwa [String.toList_ofList]
        · cases h
  · rintro ⟨left, right, rfl, hSign, hName, rfl, rfl⟩
    have hSplit :
        split? (left ++ "=" ++ right).toList =
          some (left.toList, right.toList) := by
      apply split?_eq_some_iff.mpr
      exact ⟨by simp, hSign⟩
    unfold parse
    simp only [hSplit, String.ofList_toList,
      Render.isIdentifier_trim, hName, if_true]

theorem parse_source
    {name : String}
    (hName : Expression.isIdentifier name = true)
    {value : Literal}
    (hFinite : value.IsFinite) :
    parse (name ++ "=" ++ Expression.source value) =
      .ok (Text.trim name, value) := by
  apply parse_eq_ok_iff.mpr
  refine ⟨name, Expression.source value, rfl, ?_, hName, rfl, ?_⟩
  · exact Expression.sign_not_mem_of_isIdentifier hName
  · rw [Binding.value, Expression.literal?_source hFinite]
    rfl

------------------------------------------------------------
-- Several Bindings
------------------------------------------------------------

/- No text binds a name. -/
def NoneBinds
    (raws : List String)
    (name : String) : Prop :=
  ∀ raw ∈ raws, ∀ value, parse raw ≠ .ok (name, value)

/- The value that the last text with a name gives to it. -/
def IsLast
    (raws : List String)
    (name : String)
    (value : Literal) : Prop :=
  ∃ before raw after,
    raws = before ++ raw :: after ∧
      parse raw = .ok (name, value) ∧ NoneBinds after name

/- Texts are accepted together if each one is. -/
theorem exists_parseAll
    {raws : List String}
    (hAll : ∀ raw ∈ raws, ∃ binding, parse raw = .ok binding) :
    ∃ entries, parseAll raws = .ok entries := by
  induction raws with
  | nil => exact ⟨[], rfl⟩
  | cons raw raws ih =>
      rw [List.forall_mem_cons] at hAll
      rcases hAll.1 with ⟨binding, hBinding⟩
      rcases ih hAll.2 with ⟨entries, hEntries⟩
      exact ⟨binding :: entries, by
        rw [parseAll, hBinding, hEntries]
        rfl⟩

theorem parseAll_cons_eq_ok_iff
    {raw : String}
    {raws : List String}
    {entries : List (String × Literal)} :
    parseAll (raw :: raws) = .ok entries ↔
      ∃ binding others,
        parse raw = .ok binding ∧ parseAll raws = .ok others ∧
          entries = binding :: others := by
  rw [parseAll, Except.bind_eq_ok_iff]
  simp only [Except.map_eq_ok_iff, exists_and_left]
  constructor
  · rintro ⟨binding, hRaw, others, hOthers, hEntries⟩
    exact ⟨binding, hRaw, others, hOthers, hEntries.symm⟩
  · rintro ⟨binding, hRaw, others, hOthers, hEntries⟩
    exact ⟨binding, hRaw, others, hOthers, hEntries.symm⟩

/- A name that no text binds keeps the value it had. -/
theorem get?_insertMany_of_noneBinds
    {raws : List String}
    {entries : List (String × Literal)}
    (hAll : parseAll raws = .ok entries)
    {name : String}
    (hNone : NoneBinds raws name)
    (map : Bindings) :
    (map.insertMany entries).get? name = map.get? name := by
  induction raws generalizing entries map with
  | nil =>
      cases hAll
      rfl
  | cons raw raws ih =>
      rcases parseAll_cons_eq_ok_iff.mp hAll with
        ⟨⟨other, value⟩, others, hRaw, hOthers, rfl⟩
      rw [NoneBinds, List.forall_mem_cons] at hNone
      have hName : other ≠ name := by
        rintro rfl
        exact hNone.1 value hRaw
      rw [NameMap.insertMany_cons, ih hOthers hNone.2,
        NameMap.get?_insert, if_neg hName]

/- The last binding of a name gives it its value. -/
theorem get?_insertMany_of_isLast
    {raws : List String}
    {entries : List (String × Literal)}
    (hAll : parseAll raws = .ok entries)
    {name : String}
    {value : Literal}
    (hLast : IsLast raws name value)
    (map : Bindings) :
    (map.insertMany entries).get? name = some value := by
  rcases hLast with ⟨before, raw, after, rfl, hRaw, hNone⟩
  -- What stands before the last one only changes the map.
  induction before generalizing entries map with
  | nil =>
      rcases parseAll_cons_eq_ok_iff.mp hAll with
        ⟨binding, others, hBinding, hOthers, rfl⟩
      rw [hRaw] at hBinding
      cases hBinding
      rw [NameMap.insertMany_cons,
        get?_insertMany_of_noneBinds hOthers hNone,
        NameMap.get?_insert, if_pos rfl]
  | cons first before ih =>
      rcases parseAll_cons_eq_ok_iff.mp hAll with
        ⟨binding, others, -, hOthers, rfl⟩
      rw [NameMap.insertMany_cons]
      exact ih _ hOthers

/- Some text is the last one with a name, or none has it. -/
theorem exists_isLast_or_noneBinds
    (raws : List String)
    (name : String) :
    (∃ value, IsLast raws name value) ∨ NoneBinds raws name := by
  induction raws with
  | nil => exact Or.inr fun raw hRaw => by cases hRaw
  | cons raw raws ih =>
      rcases ih with
        ⟨value, before, last, after, rfl, hLast⟩ | hNone
      · exact Or.inl ⟨value, raw :: before, last, after, rfl, hLast⟩
      · by_cases hRaw : ∃ value, parse raw = .ok (name, value)
        · rcases hRaw with ⟨value, hRaw⟩
          exact Or.inl ⟨value, [], raw, raws, rfl, hRaw, hNone⟩
        · refine Or.inr (List.forall_mem_cons.mpr ⟨?_, hNone⟩)
          intro value hEq
          exact hRaw ⟨value, hEq⟩

end Binding

------------------------------------------------------------
-- Rendered Names
------------------------------------------------------------

/- A name is rendered as the value that is bound to it. -/
theorem Render.render_identifier
    {e : String}
    (hName : Expression.isIdentifier e = true)
    (bindings : Bindings) :
    render bindings (Node.dynamic e) =
      match bindings.get? (Text.trim e) with
      | some value => .ok value.rendered
      | none =>
          .error (.generation stage (some (Node.dynamic e))
            (Fault.unbound (Text.trim e)).message) := by
  have hCore :
      Tag.core? CoreTag.dynamic.name = some .dynamic :=
    Tag.core?_eq_some_iff.mpr rfl
  have hText : singleText (Node.dynamic e) = .ok e :=
    singleText_eq_ok_iff.mpr rfl
  have hRender :
      render bindings (Node.dynamic e) =
        (renderDynamic bindings (Node.dynamic e)).mapError
          (Fault.on (Node.dynamic e)) := by
    rw [render, Node.toArg, Node.dynamic, Node.ofText, renderArg,
      hCore]
  rw [hRender, renderDynamic, hText, Except.bind_ok, evaluate,
    Expression.literal?_eq_none_of_isIdentifier hName]
  simp only [hName, if_true]
  cases bindings.get? (Text.trim e) with
  | some value => rfl
  | none => rfl

section Collected

variable {raws : List String}
variable {entries : List (String × Literal)}
variable (hEntries : Binding.parseAll raws = .ok entries)
variable {e : String}
variable (hName : Expression.isIdentifier e = true)

include hEntries hName

theorem Binding.render_of_isLast
    {value : Literal}
    (hLast : IsLast raws (Text.trim e) value) :
    Render.render (NameMap.ofList entries) (Node.dynamic e) =
      .ok value.rendered := by
  have hGet :=
    get?_insertMany_of_isLast hEntries hLast NameMap.empty
  rw [Render.render_identifier hName, NameMap.ofList, hGet]

theorem Binding.render_of_noneBinds
    (hNone : NoneBinds raws (Text.trim e)) :
    Render.render (NameMap.ofList entries) (Node.dynamic e) =
      .error
        (.generation "render" (some (Node.dynamic e))
          (ticked (Text.trim e) ++ " is not bound")) := by
  have hGet :=
    get?_insertMany_of_noneBinds hEntries hNone NameMap.empty
  rw [Render.render_identifier hName, NameMap.ofList, hGet]
  rfl

end Collected

/-
  Bindings that are accepted one by one are accepted together.
  A name is then no literal, and it is rendered as the value of
  the last binding of that name.  It cannot be rendered exactly
  if there is none.

  A binding that is made of a name and the source of a literal
  binds the name to that literal.
-/
theorem accepted_bindings_are_reachable :
    (∀ raws,
      (∀ raw ∈ raws, ∃ binding, Binding.parse raw = .ok binding) →
        ∃ entries,
          Binding.parseAll raws = .ok entries ∧
          ∀ e, Expression.isIdentifier e = true →
            Expression.literal? e = none ∧
            (∀ text,
              Render.render (NameMap.ofList entries)
                  (Node.dynamic e) = .ok text ↔
                ∃ value,
                  Binding.IsLast raws (Text.trim e) value ∧
                    text = value.rendered) ∧
            (Render.render (NameMap.ofList entries)
                (Node.dynamic e) =
                .error
                  (.generation "render" (some (Node.dynamic e))
                    (ticked (Text.trim e) ++ " is not bound")) ↔
              Binding.NoneBinds raws (Text.trim e))) ∧
    ∀ name value,
      Expression.isIdentifier name = true →
      value.IsFinite →
        Binding.parse
            (name ++ "=" ++ Expression.source value) =
          .ok (Text.trim name, value) := by
  refine ⟨?_, fun name value hName hFinite =>
    Binding.parse_source hName hFinite⟩
  intro raws hAll
  rcases Binding.exists_parseAll hAll with ⟨entries, hEntries⟩
  refine ⟨entries, hEntries, ?_⟩
  intro e hName
  refine
    ⟨Expression.literal?_eq_none_of_isIdentifier hName, ?_, ?_⟩
  · intro text
    constructor
    · intro hText
      rcases Binding.exists_isLast_or_noneBinds raws
          (Text.trim e) with ⟨value, hLast⟩ | hNone
      · rw [Binding.render_of_isLast hEntries hName hLast]
          at hText
        cases hText
        exact ⟨value, hLast, rfl⟩
      · rw [Binding.render_of_noneBinds hEntries hName hNone]
          at hText
        cases hText
    · rintro ⟨value, hLast, rfl⟩
      exact Binding.render_of_isLast hEntries hName hLast
  · refine ⟨?_, Binding.render_of_noneBinds hEntries hName⟩
    intro hError
    rcases Binding.exists_isLast_or_noneBinds raws
        (Text.trim e) with ⟨value, hLast⟩ | hNone
    · rw [Binding.render_of_isLast hEntries hName hLast]
        at hError
      cases hError
    · exact hNone

namespace RepeatedName

/- Bindings with white space, and a value with a second sign. -/
def raws : List String :=
  ["user.name=Ada", "count= 3", "\tuser.name =\"a=b\""]

theorem repeated_name_has_its_last_value :
    (∃ entries,
      Binding.parseAll raws = .ok entries ∧
        Expression.literal? " user.name" = none ∧
          Render.render (NameMap.ofList entries)
              (Node.dynamic " user.name") = .ok "a=b") ∧
      Binding.parse
          ("limit" ++ "=" ++ Expression.source (.int (-7))) =
        .ok ("limit", .int (-7)) := by
  rcases accepted_bindings_are_reachable with ⟨hNames, hSources⟩
  have hAccepted :
      ∀ raw ∈ raws, ∃ binding, Binding.parse raw = .ok binding := by
    simp only [raws, List.forall_mem_cons]
    exact
      ⟨⟨("user.name", .text "Ada"), by decide +kernel⟩,
        ⟨("count", .int 3), by decide +kernel⟩,
        ⟨("user.name", .text "a=b"), by decide +kernel⟩, by simp⟩
  rcases hNames raws hAccepted with ⟨entries, hEntries, hRender⟩
  rcases hRender " user.name" (by decide +kernel) with
    ⟨hNone, hText, -⟩
  refine ⟨⟨entries, hEntries, hNone, ?_⟩, ?_⟩
  · apply (hText "a=b").mpr
    refine ⟨.text "a=b", ?_, rfl⟩
    exact ⟨raws.take 2, raws.getLast (by decide), [], rfl,
      by decide +kernel, by simp [Binding.NoneBinds]⟩
  · apply hSources "limit" (.int (-7)) (by decide +kernel)
    rintro x hFloat
    cases hFloat

end RepeatedName

end TemplateTree
