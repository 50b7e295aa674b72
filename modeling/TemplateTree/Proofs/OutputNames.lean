import TemplateTree.Proofs.AcceptedBindings
import TemplateTree.Proofs.GeneratorOptions
import TemplateTree.Proofs.StaticTexts

/-
  Names of the variable that holds the output of a program.

  Main declarations:
    * `Generator.IsPlainName`
    * `Generator.isVariable_iff`
    * `Generator.isPlainName_iff`
    * `accepted_outputs_keep_white_space`

  A name is checked as an expression would be, without the
  white space around it.  Programs are written with the name
  as it was given, so the white space that was not looked at
  stands in every one of their lines.
-/

------------------------------------------------------------
-- Words
------------------------------------------------------------

namespace TemplateTree

namespace Text

theorem mem_of_mem_trimEnd
    {c : Char}
    {cs : List Char}
    (hMem : c ∈ trimEnd cs) :
    c ∈ cs := by
  induction cs with
  | nil => cases hMem
  | cons d cs ih =>
      rw [trimEnd] at hMem
      split at hMem
      · split at hMem
        · cases hMem
        · rcases List.mem_cons.mp hMem with rfl | hNone
          · exact List.mem_cons_self
          · cases hNone
      · next e es hEq =>
          rw [hEq] at ih
          rcases List.mem_cons.mp hMem with rfl | hTail
          · exact List.mem_cons_self
          · exact List.mem_cons_of_mem d (ih hTail)

theorem mem_of_mem_trimChars
    {c : Char}
    {cs : List Char}
    (hMem : c ∈ trimChars cs) :
    c ∈ cs :=
  (List.dropWhile_sublist isBlank).subset (mem_of_mem_trimEnd hMem)

end Text

namespace Expression

/- What may start a word is what goes on with it, but a digit. -/
theorem isWordStart_iff
    {c : Char} :
    isWordStart c = true ↔
      isWordChar c = true ∧ c.isDigit = false := by
  constructor
  · intro hc
    refine ⟨?_, isDigit_of_isWordStart hc⟩
    rw [isWordStart, Bool.or_eq_true] at hc
    rw [isWordChar, Char.isAlphanum]
    rcases hc with hAlpha | hLine
    · simp [hAlpha]
    · simp [hLine]
  · rintro ⟨hc, hDigit⟩
    rw [isWordChar, Char.isAlphanum, hDigit, Bool.or_false] at hc
    exact hc

theorem isPath_false_iff
    {cs : List Char} :
    (isPath false cs = true ∧ '.' ∉ cs) ↔
      ∀ c ∈ cs, isWordChar c = true := by
  induction cs with
  | nil => simp [isPath]
  | cons c cs ih =>
      rw [isPath, List.forall_mem_cons, ← ih, List.mem_cons]
      by_cases hc : c = '.'
      · subst hc
        have hDot : isWordChar '.' = false := by decide
        simp [hDot]
      · rw [if_neg hc, Bool.and_eq_true]
        have hOther : '.' ≠ c := Ne.symm hc
        simp [hOther, and_assoc]

/- A path without dots is one word. -/
theorem isPath_true_iff
    {cs : List Char} :
    (isPath true cs = true ∧ '.' ∉ cs) ↔
      cs ≠ [] ∧ (∀ c ∈ cs, isWordChar c = true) ∧
        ∀ c ∈ cs.head?, c.isDigit = false := by
  cases cs with
  | nil => simp [isPath]
  | cons c cs =>
      rw [isPath, Bool.and_eq_true, isWordStart_iff,
        List.forall_mem_cons, ← isPath_false_iff]
      constructor
      · rintro ⟨⟨⟨hc, hDigit⟩, hPath⟩, hDot⟩
        refine ⟨List.cons_ne_nil c cs, ⟨hc, hPath, ?_⟩, ?_⟩
        · exact fun hMem => hDot (List.mem_cons_of_mem c hMem)
        · simpa using hDigit
      · rintro ⟨-, ⟨hc, hPath, hDot⟩, hDigit⟩
        refine ⟨⟨⟨hc, by simpa using hDigit⟩, hPath⟩, ?_⟩
        intro hMem
        rcases List.mem_cons.mp hMem with rfl | hTail
        · revert hc
          decide
        · exact hDot hTail

theorem isBlank_of_isWordChar
    {c : Char}
    (hc : isWordChar c = true) :
    Text.isBlank c = false := by
  rw [isWordChar, Char.isAlphanum, Bool.or_eq_true,
    Bool.or_eq_true, beq_iff_eq] at hc
  rcases hc with (hAlpha | hDigit) | rfl
  · have hLetter := toNat_of_isAlpha hAlpha
    rw [← Bool.not_eq_true]
    intro hBlank
    simp only [Text.isBlank, Bool.or_eq_true, Bool.and_eq_true,
      decide_eq_true_eq, beq_iff_eq] at hBlank
    omega
  · exact isBlank_of_isDigit hDigit
  · decide

end Expression

------------------------------------------------------------
-- Plain Names
------------------------------------------------------------

namespace Generator

/-
  A name that stands for a variable as it is: letters, digits
  and underscores, no digit first, and no truth value.
-/
structure IsPlainName (name : String) : Prop where
  nonempty : name.toList ≠ []
  chars : ∀ c ∈ name.toList, Expression.isWordChar c = true
  start : ∀ c ∈ name.toList.head?, c.isDigit = false
  noLiteral : name ≠ "true" ∧ name ≠ "false"

/- White space is all that may keep a variable from being plain. -/
theorem isVariable_iff
    {name : String} :
    isVariable name = true ↔ IsPlainName (Text.trim name) := by
  have hDot :
      '.' ∈ name.toList ↔ '.' ∈ Text.trimChars name.toList :=
    ⟨Text.mem_trimChars_of_not_blank (by decide),
      Text.mem_of_mem_trimChars⟩
  have hWord {word : String} :
      Text.trimChars name.toList ≠ word.toList ↔
        Text.trim name ≠ word := by
    rw [Text.trim, Ne, Ne, ← String.toList_inj,
      String.toList_ofList]
  rw [isVariable, Bool.and_eq_true, Expression.isIdentifier_iff,
    hWord, hWord, Bool.not_eq_true', ← Bool.not_eq_true,
    List.contains_iff_mem, hDot]
  constructor
  · rintro ⟨⟨hTrue, hFalse, hPath⟩, hNone⟩
    rcases Expression.isPath_true_iff.mp ⟨hPath, hNone⟩ with
      ⟨hNonempty, hChars, hStart⟩
    rw [← String.toList_ofList (l := Text.trimChars name.toList)]
      at hNonempty hChars hStart
    exact ⟨hNonempty, hChars, hStart, hTrue, hFalse⟩
  · rintro ⟨hNonempty, hChars, hStart, hTrue, hFalse⟩
    rw [Text.trim, String.toList_ofList] at hNonempty hChars hStart
    rcases Expression.isPath_true_iff.mpr
        ⟨hNonempty, hChars, hStart⟩ with
      ⟨hPath, hNone⟩
    exact ⟨⟨hTrue, hFalse, hPath⟩, hNone⟩

theorem IsPlainName.trim_eq
    {name : String}
    (hName : IsPlainName name) :
    Text.trim name = name := by
  have hChars : Text.trimChars name.toList = name.toList := by
    apply Text.trimChars_of_forall
    intro c hc
    exact Expression.isBlank_of_isWordChar (hName.chars c hc)
  rw [Text.trim, hChars, String.ofList_toList]

/- A variable is plain if there is no white space around it. -/
theorem isPlainName_iff
    {name : String}
    (hName : isVariable name = true) :
    IsPlainName name ↔ Text.trim name = name := by
  constructor
  · exact IsPlainName.trim_eq
  · intro hTrim
    rw [← hTrim]
    exact isVariable_iff.mp hName

/- The name that options give to the output. -/
def chosenOutput (globals locals : Options) : String :=
  ((ResolvedOptions.effective? globals locals "buffer").bind
    OptionValue.asText?).getD defaultVariable

/- A program starts by introducing its output by that name. -/
theorem exists_program_of_generate
    {g : Generator}
    {tree : Node}
    {text : String}
    (hText : g.generate tree = .ok text) :
    ∃ after,
      text.toList =
        "let mut ".toList ++ g.output.toList ++ after := by
  rcases generate_eq_ok_iff.mp hText with ⟨pieces, -, rfl⟩
  have hPreamble :
      ∃ after,
        g.preamble.toList =
          "let mut ".toList ++ g.output.toList ++ after := by
    unfold preamble
    split
    · exact ⟨" = String::new();".toList, by simp⟩
    · exact ⟨": Vec<String> = Vec::new();".toList, by simp⟩
  rcases hPreamble with ⟨after, hPreamble⟩
  rw [program, entries, List.cons_append, Layout.toList_emit,
    Layout.place, List.flatMap_cons, Layout.toList_printLine,
    hPreamble]
  simp only [Nat.mul_zero, List.replicate_zero, List.nil_append,
    List.append_assoc]
  exact ⟨_, rfl⟩

/- A generator of the catalogue is one with the chosen output. -/
theorem exists_of_configure
    {style : GeneratorStyle}
    {globals locals : Options}
    {stage : Stage Node String}
    (hStage :
      (Catalogue.generator style).configure globals locals =
        .ok stage) :
    ∃ g : Generator,
      stage = Catalogue.ofGenerator g ∧ g.style = style ∧
        g.output = chosenOutput globals locals ∧
          isVariable g.output = true := by
  rcases Except.bind_eq_ok_iff.mp hStage with
    ⟨resolved, hBind, hMade⟩
  rcases Except.map_eq_ok_iff.mp hMade with ⟨g, hOptions, rfl⟩
  rcases ofOptions_eq_ok_iff.mp hOptions with ⟨hVariable, rfl⟩
  exact ⟨_, rfl, rfl, textOr_of_bind hBind, hVariable⟩

end Generator

------------------------------------------------------------
-- Accepted Names
------------------------------------------------------------

/-
  A generator can be made from a name that is plain once the
  white space around it is dropped.  Its programs have the
  name as it was given, which is plain exactly if there was
  no white space around it.
-/
theorem accepted_outputs_keep_white_space
    (style : GeneratorStyle)
    (globals locals : Options) :
    ((∃ stage,
        (Catalogue.generator style).configure globals locals =
          .ok stage) ↔
      (∀ name ∈ locals.keys, name = "buffer") ∧
        ∀ value,
          ResolvedOptions.effective? globals locals "buffer" =
              some value →
            ∃ name,
              value = .text name ∧
                Generator.IsPlainName (Text.trim name)) ∧
    ∀ stage,
      (Catalogue.generator style).configure globals locals =
          .ok stage →
        ∃ g : Generator,
          stage = Catalogue.ofGenerator g ∧ g.style = style ∧
          g.output = Generator.chosenOutput globals locals ∧
          (Generator.IsPlainName g.output ↔
            Text.trim g.output = g.output) ∧
          ∀ tree text,
            g.generate tree = .ok text →
              ∃ after,
                text.toList =
                  "let mut ".toList ++ g.output.toList ++ after := by
  constructor
  · rw [Catalogue.exists_configure_generator_iff]
    simp only [← Generator.isVariable_iff]
    exact ⟨fun hFits => ⟨hFits.known, hFits.output⟩,
      fun hFits => ⟨hFits.1, hFits.2⟩⟩
  · intro stage hStage
    rcases Generator.exists_of_configure hStage with
      ⟨g, hMade, hStyle, hOutput, hVariable⟩
    refine
      ⟨g, hMade, hStyle, hOutput,
        Generator.isPlainName_iff hVariable, ?_⟩
    intro tree text hText
    exact Generator.exists_program_of_generate hText

namespace PaddedOutput

/- A name after a space at which no line may be broken. -/
def name : String :=
  "\u00a0out"

def options : Options :=
  NameMap.empty.insert "buffer" (.text name)

/- It is accepted, and no program with it has a plain name. -/
theorem padded_output_is_written :
    (Catalogue.generator .buffer).configure NameMap.empty
        options =
      .ok (Catalogue.ofGenerator ⟨.buffer, name⟩) ∧
    ¬ Generator.IsPlainName name ∧
    Generator.generate ⟨.buffer, name⟩ (.static "a") =
      .ok
        "let mut \u00a0out = String::new();
\u00a0out.push_str(\"a\");
\u00a0out
" := by
  refine ⟨rfl, ?_, rfl⟩
  intro hName
  have hBlank := hName.chars '\u00a0' (by decide)
  revert hBlank
  decide

/- What makes it acceptable, and what a program starts with. -/
theorem padded_output_keeps_white_space :
    Generator.IsPlainName (Text.trim name) ∧
      ∃ g : Generator,
        Catalogue.ofGenerator ⟨.buffer, name⟩ =
            Catalogue.ofGenerator g ∧
          g.output = name ∧
          ¬ Generator.IsPlainName g.output ∧
          ∃ after,
            "let mut \u00a0out = String::new();\n\u00a0out\n".toList =
              "let mut ".toList ++ g.output.toList ++ after := by
  rcases accepted_outputs_keep_white_space .buffer NameMap.empty
      options with
    ⟨hAccepted, hMade⟩
  have hConfigure :
      (Catalogue.generator .buffer).configure NameMap.empty
          options =
        .ok (Catalogue.ofGenerator ⟨.buffer, name⟩) := rfl
  rcases (hAccepted.mp ⟨_, hConfigure⟩).2 (.text name) rfl with
    ⟨found, hFound, hPlain⟩
  cases hFound
  rcases hMade _ hConfigure with
    ⟨g, hStage, hStyle, hOutput, hIff, hText⟩
  have hName : g.output = name := hOutput
  have hGenerate :
      g.generate Node.empty =
        .ok "let mut \u00a0out = String::new();\n\u00a0out\n" := by
    rcases g with ⟨style, output⟩
    cases hStyle
    cases hName
    rfl
  refine ⟨hPlain, g, hStage, hName, ?_, hText _ _ hGenerate⟩
  rw [hIff, hName]
  decide

end PaddedOutput

end TemplateTree
