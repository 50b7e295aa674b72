import TemplateTree.Proofs.EscapedTexts
import TemplateTree.Proofs.ProgramMeaning
import TemplateTree.Proofs.Statements
import TemplateTree.Proofs.StructuredPrograms

/-
  Programs evaluate to the text that their tree stands for.

  Main declarations:
    * `Piece.rendered?`
    * `Piece.rendered?_of_renderArg`
    * `Arg.exists_dynamic_of_mem_pieces?`
    * `Program.Reads`
    * `Generator.reads_entries_outline`
    * `programs_evaluate_to_rendered_text`

  Rendering a tree and printing its program both go through
  its pieces.  The statement of a piece adds to the output
  what the piece adds to the rendered text.
-/

------------------------------------------------------------
-- Rendering Pieces
------------------------------------------------------------

namespace TemplateTree

namespace Render

/- The only text of a node is found as for a program. -/
theorem toOption_singleText
    (node : Node) :
    (singleText node).toOption =
      (Piece.singleText node).toOption := by
  unfold singleText Piece.singleText
  rcases node with ⟨tag, _ | ⟨arg, _ | ⟨next, rest⟩⟩⟩
  · rfl
  · cases hText : arg.asText? <;> simp [hText]
  · rfl

theorem singleText_eq_ok_iff
    {node : Node}
    {text : String} :
    singleText node = .ok text ↔
      node.args = [Arg.text text] := by
  rw [← Piece.singleText_eq_ok_iff,
    ← Except.toOption_eq_some_iff, toOption_singleText,
    Except.toOption_eq_some_iff]

theorem isIdentifier_trim
    (expression : String) :
    Expression.isIdentifier (Text.trim expression) =
      Expression.isIdentifier expression := by
  unfold Expression.isIdentifier
  rw [Text.trimChars_trim]

/- White space around an expression does not change its value. -/
theorem evaluate_trim
    {bindings : Bindings}
    {expression : String}
    {value : Literal}
    (h : evaluate bindings expression = .ok value) :
    evaluate bindings (Text.trim expression) = .ok value := by
  unfold evaluate at h ⊢
  rw [Expression.literal?_trim, isIdentifier_trim,
    Text.trim_trim]
  cases hLiteral : Expression.literal? expression with
  | some found =>
      simpa only [hLiteral] using h
  | none =>
      simp only [hLiteral] at h ⊢
      by_cases hName : Expression.isIdentifier expression
      · simpa only [hName, if_true] using h
      · simp [hName] at h

/- A blank expression has no value. -/
theorem trim_ne_empty_of_evaluate
    {bindings : Bindings}
    {expression : String}
    {value : Literal}
    (h : evaluate bindings expression = .ok value) :
    Text.trim expression ≠ "" := by
  intro hBlank
  have hTrim := evaluate_trim h
  rw [hBlank] at hTrim
  cases hTrim

theorem renderArg_static_eq_ok_iff
    {bindings : Bindings}
    {parent : Node}
    {args : List Arg}
    {text : String} :
    renderArg bindings parent
          (.node CoreTag.static.name args) = .ok text ↔
      args = [Arg.text text] := by
  have hCore :
      Tag.core? CoreTag.static.name = some .static :=
    Tag.core?_eq_some_iff.mpr rfl
  rw [renderArg, hCore]
  simp only [Except.mapError_eq_ok_iff, singleText_eq_ok_iff]

/- A dynamic node is rendered as the value of its text. -/
theorem renderArg_dynamic_eq_ok_iff
    {bindings : Bindings}
    {parent : Node}
    {args : List Arg}
    {text : String} :
    renderArg bindings parent
          (.node CoreTag.dynamic.name args) = .ok text ↔
      ∃ expression,
        args = [Arg.text expression] ∧
          ∃ value,
            evaluate bindings expression = .ok value ∧
              value.rendered = text := by
  have hCore :
      Tag.core? CoreTag.dynamic.name = some .dynamic :=
    Tag.core?_eq_some_iff.mpr rfl
  rw [renderArg, hCore]
  simp only [Except.mapError_eq_ok_iff, renderDynamic,
    Except.bind_eq_ok_iff, Except.map_eq_ok_iff,
    singleText_eq_ok_iff]

end Render

namespace Piece

/- What a piece adds to the rendered text. -/
def output?
    (bindings : Bindings) :
    Piece → Option String
| .static text => some text
| .dynamic expression =>
    (Render.render bindings (Node.dynamic expression)).toOption
| .block _ => none

/- The text of pieces that follow each other. -/
def rendered?
    (bindings : Bindings) :
    List Piece → Option String
| [] => some ""
| piece :: pieces =>
    (piece.output? bindings).bind fun first =>
      (rendered? bindings pieces).map (first ++ ·)

theorem rendered?_append
    {bindings : Bindings}
    {first rest : List Piece}
    {text others : String}
    (hFirst : rendered? bindings first = some text)
    (hRest : rendered? bindings rest = some others) :
    rendered? bindings (first ++ rest) =
      some (text ++ others) := by
  induction first generalizing text with
  | nil =>
      cases hFirst
      rw [List.nil_append, hRest, String.empty_append]
  | cons piece pieces ih =>
      rw [rendered?, Option.bind_eq_some_iff] at hFirst
      rcases hFirst with ⟨head, hHead, hTail⟩
      rw [Option.map_eq_some_iff] at hTail
      rcases hTail with ⟨tail, hTail, rfl⟩
      rw [List.cons_append, rendered?, hHead, ih hTail,
        Option.bind_some, Option.map_some,
        String.append_assoc]

theorem rendered?_ofStatic
    (bindings : Bindings)
    (text : String) :
    rendered? bindings (ofStatic text) = some text := by
  unfold ofStatic
  by_cases hText : text = ""
  · rw [if_pos hText, hText]
    rfl
  · rw [if_neg hText]
    simp [rendered?, output?]

/- The trimmed expression of a node adds what the node does. -/
theorem rendered?_dynamic
    {bindings : Bindings}
    {expression : String}
    {value : Literal}
    (h : Render.evaluate bindings expression = .ok value) :
    rendered? bindings [.dynamic (Text.trim expression)] =
      some value.rendered := by
  have hTrim :
      Render.render bindings
          (Node.dynamic (Text.trim expression)) =
        .ok value.rendered :=
    Render.renderArg_dynamic_eq_ok_iff.mpr
      ⟨_, rfl, value, Render.evaluate_trim h, rfl⟩
  simp [rendered?, output?, hTrim]

mutual

/- A tree that can be rendered has pieces with its text. -/
theorem rendered?_of_renderArg
    (bindings : Bindings) :
    (arg : Arg) →
    {parent : Node} →
    {text : String} →
    Render.renderArg bindings parent arg = .ok text →
    ∃ pieces,
      arg.pieces? = some pieces ∧
        rendered? bindings pieces = some text
| .literal value, parent, text, h => by
    rw [Render.renderArg] at h
    cases h
| .node tag args, parent, text, h => by
    cases hCore : Tag.core? tag with
    | none =>
        rw [Render.renderArg, hCore] at h
        cases h
    | some kind =>
        have hName := Tag.core?_eq_some_iff.mp hCore
        subst hName
        cases kind with
        | sequence =>
            rw [Render.renderArg, hCore] at h
            rw [Arg.pieces?_sequence]
            exact rendered?_of_renderArgs bindings args h
        | static =>
            rw [Render.renderArg_static_eq_ok_iff] at h
            refine ⟨ofStatic text, ?_, ?_⟩
            · exact Arg.pieces?_static_eq_some_iff.mpr
                ⟨text, h, rfl⟩
            · exact rendered?_ofStatic bindings text
        | dynamic =>
            rw [Render.renderArg_dynamic_eq_ok_iff] at h
            rcases h with
              ⟨expression, hArgs, value, hValue, rfl⟩
            refine ⟨[.dynamic (Text.trim expression)], ?_, ?_⟩
            · apply Arg.pieces?_dynamic_eq_some_iff.mpr
              exact ⟨expression, hArgs,
                Render.trim_ne_empty_of_evaluate hValue, rfl⟩
            · exact rendered?_dynamic hValue
        | block =>
            rw [Render.renderArg, hCore] at h
            cases h

theorem rendered?_of_renderArgs
    (bindings : Bindings) :
    (args : List Arg) →
    {parent : Node} →
    {text : String} →
    Render.renderArgs bindings parent args = .ok text →
    ∃ pieces,
      Arg.piecesList? args = some pieces ∧
        rendered? bindings pieces = some text
| [], parent, text, h => by
    rw [Render.renderArgs] at h
    cases h
    exact ⟨[], Arg.piecesList?_nil, rfl⟩
| arg :: args, parent, text, h => by
    rw [Render.renderArgs] at h
    split at h
    · cases h
    · next head hHead =>
        rw [Except.map_eq_ok_iff] at h
        rcases h with ⟨others, hOthers, rfl⟩
        rcases rendered?_of_renderArg bindings arg hHead with
          ⟨first, hFirst, hText⟩
        rcases rendered?_of_renderArgs bindings args hOthers with
          ⟨rest, hRest, hTexts⟩
        refine ⟨first ++ rest, ?_, ?_⟩
        · rw [Arg.piecesList?_cons, hFirst, hRest]
          rfl
        · exact rendered?_append hText hTexts

end

end Piece

namespace Arg

mutual

/- The expressions among the pieces of a tree are its own. -/
theorem exists_dynamic_of_mem_pieces? :
    (arg : Arg) →
    {pieces : List Piece} →
    {code : String} →
    arg.pieces? = some pieces →
    .dynamic code ∈ pieces →
    ∃ expression,
      Node.dynamic expression ∈ arg.nodes ∧
        Text.trim expression = code
| .literal value, pieces, code, hPieces, _ => by
    rw [pieces?_literal] at hPieces
    cases hPieces
| .node tag args, pieces, code, hPieces, hCode => by
    cases hCore : Tag.core? tag with
    | none =>
        rw [pieces?_foreign hCore] at hPieces
        cases hPieces
    | some kind =>
        have hName := Tag.core?_eq_some_iff.mp hCore
        subst hName
        cases kind with
        | sequence =>
            rw [pieces?_sequence] at hPieces
            rcases exists_dynamic_of_mem_piecesList? args
                hPieces hCode with
              ⟨expression, hNode, hTrim⟩
            refine ⟨expression, ?_, hTrim⟩
            rw [nodes]
            exact List.mem_cons_of_mem _ hNode
        | static =>
            rcases pieces?_static_eq_some_iff.mp hPieces with
              ⟨text, -, rfl⟩
            unfold Piece.ofStatic at hCode
            split at hCode <;> simp at hCode
        | dynamic =>
            rcases pieces?_dynamic_eq_some_iff.mp hPieces with
              ⟨expression, rfl, -, rfl⟩
            rw [List.mem_singleton] at hCode
            cases hCode
            refine ⟨expression, ?_, rfl⟩
            rw [nodes]
            exact List.mem_cons_self
        | block =>
            rcases pieces?_block_eq_some_iff.mp hPieces with
              ⟨text, -, -, rfl⟩
            simp at hCode

theorem exists_dynamic_of_mem_piecesList? :
    (args : List Arg) →
    {pieces : List Piece} →
    {code : String} →
    piecesList? args = some pieces →
    .dynamic code ∈ pieces →
    ∃ expression,
      Node.dynamic expression ∈ nodesOf args ∧
        Text.trim expression = code
| [], pieces, code, hPieces, hCode => by
    rw [piecesList?_nil] at hPieces
    cases hPieces
    cases hCode
| arg :: args, pieces, code, hPieces, hCode => by
    rw [piecesList?_cons] at hPieces
    simp only [Option.bind_eq_some_iff,
      Option.map_eq_some_iff] at hPieces
    rcases hPieces with ⟨first, hFirst, rest, hRest, rfl⟩
    simp only [nodesOf, List.mem_append]
    rcases List.mem_append.mp hCode with hCode | hCode
    · rcases exists_dynamic_of_mem_pieces? arg hFirst hCode with
        ⟨expression, hNode, hTrim⟩
      exact ⟨expression, Or.inl hNode, hTrim⟩
    · rcases exists_dynamic_of_mem_piecesList? args
          hRest hCode with
        ⟨expression, hNode, hTrim⟩
      exact ⟨expression, Or.inr hNode, hTrim⟩

end

end Arg

------------------------------------------------------------
-- Programs
------------------------------------------------------------

namespace Program

/- Entries that are lines with a certain output. -/
def Reads
    (bindings : Bindings)
    (entries : List Entry)
    (text : String) : Prop :=
  ∃ lines : List String,
    entries = lines.map Entry.line ∧
      (∀ line ∈ lines, Text.IsTrimmedLine line.toList) ∧
        outputOf? bindings (lines.map String.toList) =
          some text

theorem reads_nil
    (bindings : Bindings) :
    Reads bindings [] "" := by
  refine ⟨[], rfl, ?_, rfl⟩
  intro line hLine
  cases hLine

/- A line in front adds the output of its statement. -/
theorem Reads.cons
    {bindings : Bindings}
    {line first rest : String}
    {entries : List Entry}
    {statement : Statement}
    (hRest : Reads bindings entries rest)
    (hLine : Text.IsTrimmedLine line.toList)
    (hStatement :
      Statement.ofLine? line.toList = some statement)
    (hFirst : statement.output? bindings = some first) :
    Reads bindings (.line line :: entries) (first ++ rest) := by
  rcases hRest with ⟨lines, rfl, hLines, hOutput⟩
  refine ⟨line :: lines, rfl, ?_, ?_⟩
  · rw [List.forall_mem_cons]
    exact ⟨hLine, hLines⟩
  · rw [List.map_cons, outputOf?, hStatement,
      Option.bind_some, hFirst, hOutput]
    rfl

/- What is printed for entries has their output. -/
theorem Reads.evaluate?_emit
    {bindings : Bindings}
    {entries : List Entry}
    {text : String}
    (h : Reads bindings entries text) :
    evaluate? bindings (Layout.emit entries) = some text := by
  rcases h with ⟨lines, rfl, hLines, hOutput⟩
  rw [evaluate?, Layout.trimmed_lines_emit hLines, hOutput]

end Program

namespace Generator

open Statement

/- The generator of a style with the usual variable. -/
def usual (style : GeneratorStyle) : Generator :=
  ⟨style, defaultVariable⟩

theorem toList_dynamicLine
    (style : GeneratorStyle)
    (expression : String) :
    ((usual style).dynamicLine expression).toList =
      (valueFrame style).around expression.toList := by
  cases style <;>
    simp [dynamicLine, usual, defaultVariable, valueFrame,
      Frame.around]

theorem toList_staticLine
    (style : GeneratorStyle)
    (text : String) :
    ((usual style).staticLine text).toList =
      (textFrame style).around (Text.escaped text.toList) := by
  cases style <;>
    simp [staticLine, usual, defaultVariable, textFrame,
      Frame.around, Text.stringLiteral]

theorem isTrimmedLine_preamble
    (style : GeneratorStyle) :
    Text.IsTrimmedLine (usual style).preamble.toList := by
  cases style <;> constructor <;> decide

theorem isTrimmedLine_postamble
    (style : GeneratorStyle) :
    Text.IsTrimmedLine (usual style).postamble.toList := by
  cases style <;> constructor <;> decide

theorem ofLine?_preamble
    (style : GeneratorStyle) :
    ofLine? (usual style).preamble.toList = some .outline := by
  cases style <;> decide

theorem ofLine?_postamble
    (style : GeneratorStyle) :
    ofLine? (usual style).postamble.toList = some .outline := by
  cases style <;> decide

/- The line of a piece adds what the piece does. -/
theorem reads_entry
    (style : GeneratorStyle)
    {bindings : Bindings}
    {piece : Piece}
    {first rest : String}
    {entries : List Entry}
    (hPiece : piece.output? bindings = some first)
    (hLine :
      ∀ code, piece = .dynamic code → '\n' ∉ code.toList)
    (hRest : Program.Reads bindings entries rest) :
    Program.Reads bindings
      ((usual style).entry piece :: entries)
      (first ++ rest) := by
  cases piece with
  | static text =>
      cases hPiece
      have hBody : '\n' ∉ Text.escaped first.toList := by
        intro hNewline
        have hVisible :=
          Text.isVisible_of_mem_escaped hNewline
        revert hVisible
        decide
      apply hRest.cons
      · rw [toList_staticLine]
        exact (isPlain_textFrame style).isTrimmedLine_around
          hBody
      · rw [toList_staticLine]
        exact ofLine?_textFrame style _
      · rw [Statement.output?, Text.unescape_escaped,
          Option.map_some, String.ofList_toList]
  | dynamic code =>
      apply hRest.cons
      · rw [toList_dynamicLine]
        exact (isPlain_valueFrame style).isTrimmedLine_around
          (hLine code rfl)
      · rw [toList_dynamicLine]
        exact ofLine?_valueFrame style _
      · rw [Statement.output?, String.ofList_toList]
        exact hPiece
  | block code =>
      cases hPiece

/- The lines of pieces add up to the text of the pieces. -/
theorem reads_entries
    (style : GeneratorStyle)
    {bindings : Bindings}
    {pieces : List Piece}
    {text rest : String}
    {entries : List Entry}
    (hPieces : Piece.rendered? bindings pieces = some text)
    (hLines :
      ∀ code, .dynamic code ∈ pieces → '\n' ∉ code.toList)
    (hRest : Program.Reads bindings entries rest) :
    Program.Reads bindings
      (pieces.map (usual style).entry ++ entries)
      (text ++ rest) := by
  induction pieces generalizing text with
  | nil =>
      cases hPieces
      rw [String.empty_append]
      exact hRest
  | cons piece pieces ih =>
      rw [Piece.rendered?, Option.bind_eq_some_iff] at hPieces
      rcases hPieces with ⟨first, hFirst, hOthers⟩
      rw [Option.map_eq_some_iff] at hOthers
      rcases hOthers with ⟨others, hOthers, rfl⟩
      rw [List.map_cons, List.cons_append, String.append_assoc]
      apply reads_entry style hFirst
      · intro code hCode
        exact hLines code (hCode ▸ List.mem_cons_self)
      · apply ih hOthers
        intro code hCode
        exact hLines code (List.mem_cons_of_mem piece hCode)

/- The first line and the last line add nothing. -/
theorem reads_entries_outline
    (style : GeneratorStyle)
    {bindings : Bindings}
    {pieces : List Piece}
    {text : String}
    (hPieces : Piece.rendered? bindings pieces = some text)
    (hLines :
      ∀ code, .dynamic code ∈ pieces → '\n' ∉ code.toList) :
    Program.Reads bindings
      ((usual style).entries pieces) text := by
  have hLast :
      Program.Reads bindings
        [.line (usual style).postamble] ("" ++ "") := by
    apply (Program.reads_nil bindings).cons
      (isTrimmedLine_postamble style)
      (ofLine?_postamble style)
    rfl
  have hAll :=
    (reads_entries style hPieces hLines hLast).cons
      (isTrimmedLine_preamble style)
      (ofLine?_preamble style) rfl
  simpa [entries] using hAll

end Generator

------------------------------------------------------------
-- Rendering And Programs
------------------------------------------------------------

/-
  If a tree can be rendered and its expressions, once trimmed,
  are each on one line, then a generator of either style has a
  program for it.  Read back line by line, the program has no
  line that is not a statement, and its output is the rendered
  text.
-/
theorem programs_evaluate_to_rendered_text
    {tree : Node}
    {bindings : Bindings}
    {text : String}
    (hRender : Render.render bindings tree = .ok text)
    (hLines :
      ∀ expression,
        Node.dynamic expression ∈ tree.toArg.nodes →
          '\n' ∉ (Text.trim expression).toList)
    (style : GeneratorStyle) :
    ∃ program,
      (Generator.usual style).generate tree = .ok program ∧
        Program.evaluate? bindings program = some text := by
  rcases Piece.rendered?_of_renderArg bindings tree.toArg
      hRender with
    ⟨pieces, hPieces, hText⟩
  have hCodes :
      ∀ code, .dynamic code ∈ pieces → '\n' ∉ code.toList := by
    intro code hCode
    rcases Arg.exists_dynamic_of_mem_pieces? tree.toArg
        hPieces hCode with
      ⟨expression, hNode, rfl⟩
    exact hLines expression hNode
  refine ⟨(Generator.usual style).program pieces, ?_, ?_⟩
  · exact Generator.generate_eq_ok_iff.mpr
      ⟨pieces, hPieces, rfl⟩
  · apply Program.Reads.evaluate?_emit
    exact Generator.reads_entries_outline style hText hCodes

namespace Greeting

/- A tree with texts that need escapes. -/
def tree : Node :=
  Node.sequence
    [Node.static "Hi \"you\"\n\t",
      Node.dynamic "\n name ",
      Node.sequence [Node.static " caf\u00e9 \\ ", Node.dynamic "42"]]

/- A value that is spelled like the end of a statement. -/
def bindings : Bindings :=
  NameMap.empty.insert "name" (.text ").to_string());")

def text : String :=
  "Hi \"you\"\n\t).to_string()); caf\u00e9 \\ 42"

theorem greeting_programs_evaluate_to_rendered_text :
    Render.render bindings tree = .ok text ∧
      ∃ program,
        (Generator.usual .array).generate tree = .ok program ∧
          Program.evaluate? bindings program = some text := by
  have hRender : Render.render bindings tree = .ok text := by
    rfl
  refine ⟨hRender, ?_⟩
  apply programs_evaluate_to_rendered_text hRender
  intro expression hNode
  have hCases : expression = "\n name " ∨ expression = "42" := by
    simpa [tree, Node.sequence, Node.toArg, Node.static,
      Node.dynamic, Node.ofText, Arg.nodes, Arg.nodesOf,
      Arg.text, CoreTag.name] using hNode
  rcases hCases with rfl | rfl
  · decide
  · decide

end Greeting

end TemplateTree
