import TemplateTree.Proofs.EscapedTexts
import TemplateTree.Proofs.GeneratorAgreement

/-
  Static texts inside generated programs.

  Main declarations:
    * `Layout.exists_toList_emit`
    * `Generator.statement`
    * `Text.stringLiteral_injective`
    * `Generator.hasSingleLines_iff`
    * `static_texts_stay_in_their_literals`

  The statement of a static text is a string literal between
  two texts that depend on the generator alone, and each
  statement is printed on a line of its own.  The literal has
  no newline in it, and the name of the variable, which white
  space may surround, can have one.
-/

------------------------------------------------------------
-- Lines Of Programs
------------------------------------------------------------

namespace TemplateTree

namespace Layout

theorem toList_printLine
    (level : Nat)
    (text : String) :
    (printLine (level, text)).toList =
      List.replicate (4 * level) ' ' ++ text.toList ++ ['\n'] := by
  simp [printLine]

/- The lines that are printed for entries. -/
theorem toList_emit
    (entries : List Entry) :
    (emit entries).toList =
      (place 0 entries).flatMap fun line =>
        (printLine line).toList := by
  rw [emit, String.toList_join, List.flatMap_map]

/- A line is printed between what stands before and after it. -/
theorem exists_toList_emit
    (first : List Entry)
    (text : String)
    (rest : List Entry) :
    ∃ level after,
      (emit (first ++ .line text :: rest)).toList =
        (emit first).toList ++
          (List.replicate (4 * level) ' ' ++ text.toList) ++
            '\n' :: after := by
  refine
    ⟨endLevel 0 first,
      (place (endLevel 0 first) rest).flatMap fun line =>
        (printLine line).toList, ?_⟩
  rw [toList_emit, toList_emit, place_append, place,
    List.flatMap_append, List.flatMap_cons, toList_printLine]
  simp only [List.append_assoc, List.singleton_append]

/- What is printed ends with a newline. -/
theorem getLast?_toList_emit
    {entries : List Entry}
    (hEntries : entries ≠ []) :
    (emit entries).toList.getLast? = some '\n' := by
  have hPlace : place 0 entries ≠ [] := by
    cases entries with
    | nil => exact absurd rfl hEntries
    | cons entry rest =>
        cases entry <;> exact List.cons_ne_nil _ _
  rw [toList_emit]
  rcases List.eq_nil_or_concat (place 0 entries) with
    hNil | ⟨lines, ⟨level, text⟩, hLines⟩
  · exact absurd hNil hPlace
  · rw [hLines, List.concat_eq_append, List.flatMap_append,
      List.flatMap_singleton, toList_printLine,
      ← List.append_assoc, List.getLast?_concat]

end Layout

namespace Generator

/- The texts around the literal of a static text. -/
def textFrame (g : Generator) : Frame :=
  (Template.ofStyle g.style g.output).text

theorem toList_staticLine_eq_around
    (g : Generator)
    (text : String) :
    (g.staticLine text).toList =
      g.textFrame.around (Text.stringLiteral text).toList := by
  cases g with
  | mk style output =>
      cases style <;>
        simp [staticLine, textFrame, Template.ofStyle,
          Frame.around]

theorem exists_textFrame
    (g : Generator) :
    ∃ opening closing : String,
      g.textFrame = ⟨g.output ++ opening, closing⟩ ∧
        (opening.toList ++ closing.toList).all
          (fun c => decide (Text.IsVisible c)) = true := by
  cases g with
  | mk style output =>
      cases style with
      | buffer => exact ⟨".push_str(", ");", rfl, by decide⟩
      | array => exact ⟨".push(String::from(", "));", rfl, by decide⟩

/- The statement of a static text. -/
def statement
    (g : Generator)
    (text : String) : List Char :=
  g.textFrame.around (Text.stringLiteral text).toList

end Generator

------------------------------------------------------------
-- Static Texts
------------------------------------------------------------

theorem Text.isVisible_of_mem_stringLiteral
    (text : String) :
    ∀ c ∈ (stringLiteral text).toList, IsVisible c := by
  have hBody := (spells_escaped text.toList).isVisible
  rw [stringLiteral, String.toList_ofList]
  simp only [List.cons_append, List.forall_mem_cons,
    List.forall_mem_append]
  exact ⟨by decide, hBody, by decide, by simp⟩

/- Different texts have different literals. -/
theorem Text.stringLiteral_injective
    {raw other : String}
    (h : stringLiteral raw = stringLiteral other) :
    raw = other := by
  have hBodies : escaped raw.toList = escaped other.toList := by
    have hLists := congrArg String.toList h
    simpa [stringLiteral] using hLists
  have hRaw := (spells_escaped raw.toList).unescape_eq
  rw [hBodies, (spells_escaped other.toList).unescape_eq] at hRaw
  exact String.toList_inj.mp (Option.some.inj hRaw).symm

------------------------------------------------------------
-- Statements
------------------------------------------------------------

namespace Generator

/-
  Around a literal stand visible texts and the variable, so
  what is not visible in a statement is in its variable.
-/
theorem mem_statement_iff
    (g : Generator)
    (text : String)
    {c : Char}
    (hc : ¬ Text.IsVisible c) :
    c ∈ g.statement text ↔ c ∈ g.output.toList := by
  rcases g.exists_textFrame with
    ⟨opening, closing, hFrame, hVisible⟩
  have hOpening : c ∉ opening.toList := fun hMem =>
    hc (Text.isVisible_of_all hVisible (by simp [hMem]))
  have hClosing : c ∉ closing.toList := fun hMem =>
    hc (Text.isVisible_of_all hVisible (by simp [hMem]))
  have hLiteral : c ∉ (Text.stringLiteral text).toList := fun hMem =>
    hc (Text.isVisible_of_mem_stringLiteral text c hMem)
  rw [statement, hFrame, Frame.around, String.toList_append]
  simp only [List.mem_append, hOpening, hClosing, hLiteral,
    or_false]

/- The statements of static texts take one line each. -/
def HasSingleLines
    (g : Generator)
    (pieces : List Piece) : Prop :=
  ∀ text, .static text ∈ pieces → '\n' ∉ g.statement text

/- They do unless the name of the variable takes several. -/
theorem hasSingleLines_iff
    (g : Generator)
    (pieces : List Piece) :
    g.HasSingleLines pieces ↔
      '\n' ∉ g.output.toList ∨
        ∀ text, .static text ∉ pieces := by
  have hNewline (text : String) :
      '\n' ∈ g.statement text ↔ '\n' ∈ g.output.toList :=
    g.mem_statement_iff text (by decide)
  unfold HasSingleLines
  simp only [hNewline]
  by_cases hOutput : '\n' ∈ g.output.toList
  · simp [hOutput]
  · simp [hOutput]

/- A statement starts on a new line, and a newline ends it. -/
theorem exists_toList_program
    (g : Generator)
    (before : List Piece)
    (text : String)
    (after : List Piece) :
    ∃ start level rest,
      (g.program (before ++ .static text :: after)).toList =
          start ++
            (List.replicate (4 * level) ' ' ++ g.statement text) ++
              '\n' :: rest ∧
        start.getLast? = some '\n' := by
  have hEntries :
      g.entries (before ++ .static text :: after) =
        (.line g.preamble :: before.map g.entry) ++
          .line (g.staticLine text) ::
            (after.map g.entry ++ [.line g.postamble]) := by
    simp [entries, entry]
  rcases Layout.exists_toList_emit
      (.line g.preamble :: before.map g.entry)
      (g.staticLine text)
      (after.map g.entry ++ [.line g.postamble]) with
    ⟨level, rest, hProgram⟩
  rw [← hEntries, toList_staticLine_eq_around] at hProgram
  exact
    ⟨_, level, rest, hProgram,
      Layout.getLast?_toList_emit (List.cons_ne_nil _ _)⟩

end Generator

/-
  A static text is written as a literal of visible characters
  that ends where it was meant to end, whatever follows it, and
  that stands for the text.  No other text has that literal.

  So the statement of a static text, in the program of every
  tree, starts on a new line and ends that line.  In between it
  is visible but for what the name of the variable brings in.
  It is a single line exactly if there is no newline in that
  name.
-/
theorem static_texts_stay_in_their_literals
    (g : Generator)
    (tree : Node) :
    (∀ raw, ∃ body,
      (Text.stringLiteral raw).toList = '"' :: body ++ ['"'] ∧
        (∀ c ∈ body, Text.IsVisible c) ∧ '\n' ∉ body ∧
        (∀ rest,
          Text.cutLiteral? (body ++ '"' :: rest) =
            some (body, rest)) ∧
        Text.Spells body raw.toList ∧
        Text.unescape body = some raw.toList) ∧
    (∀ raw other,
      Text.stringLiteral raw = Text.stringLiteral other →
        raw = other) ∧
    ∀ program,
      g.generate tree = .ok program →
        ∃ pieces,
          tree.toArg.pieces? = some pieces ∧
          (∀ before text after,
            pieces = before ++ .static text :: after →
              ∃ start level rest,
                program.toList =
                    start ++
                      (List.replicate (4 * level) ' ' ++
                        g.statement text) ++
                        '\n' :: rest ∧
                  start.getLast? = some '\n') ∧
          (∀ text c,
            ¬ Text.IsVisible c →
              (c ∈ g.statement text ↔ c ∈ g.output.toList)) ∧
          (g.HasSingleLines pieces ↔
            '\n' ∉ g.output.toList ∨
              ∀ text, .static text ∉ pieces) := by
  refine ⟨?_, ?_, ?_⟩
  · intro raw
    have hSpells := Text.spells_escaped raw.toList
    refine
      ⟨Text.escaped raw.toList, ?_, hSpells.isVisible, ?_,
        hSpells.cutLiteral?_append, hSpells, hSpells.unescape_eq⟩
    · rw [Text.stringLiteral, String.toList_ofList]
    · intro hNewline
      have hVisible := hSpells.isVisible _ hNewline
      revert hVisible
      decide
  · intro raw other hEq
    exact Text.stringLiteral_injective hEq
  · intro program hGenerate
    rcases Generator.generate_eq_ok_iff.mp hGenerate with
      ⟨pieces, hPieces, rfl⟩
    refine
      ⟨pieces, hPieces, ?_, fun text _ => g.mem_statement_iff text,
        g.hasSingleLines_iff pieces⟩
    rintro before text after rfl
    exact g.exists_toList_program before text after

namespace BrokenOutput

/- A name with a newline after it. -/
def name : String :=
  "out\n"

def options : Options :=
  NameMap.empty.insert "buffer" (.text name)

def page : Node :=
  .static "a"

/- It is accepted, and the statement of a text takes two lines. -/
theorem broken_output_breaks_statements :
    (Catalogue.generator .buffer).configure NameMap.empty
        options =
      .ok (Catalogue.ofGenerator ⟨.buffer, name⟩) ∧
    page.toArg.pieces? = some [.static "a"] ∧
    ¬ Generator.HasSingleLines ⟨.buffer, name⟩ [.static "a"] ∧
    Generator.generate ⟨.buffer, name⟩ page =
      .ok
        "let mut out
 = String::new();
out
.push_str(\"a\");
out

" := by
  refine ⟨rfl, rfl, ?_, rfl⟩
  rw [Generator.hasSingleLines_iff]
  rintro (hOutput | hNone)
  · exact hOutput (by decide)
  · exact hNone "a" List.mem_cons_self

end BrokenOutput

end TemplateTree
