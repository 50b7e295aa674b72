import TemplateTree.Proofs.CatalogueStages
import TemplateTree.Proofs.CoreTrees
import TemplateTree.Proofs.Statements
import TemplateTree.Proofs.TreeNodes

/-
  Programs of either style for one tree.

  Main declarations:
    * `Arg.Contribute`
    * `Arg.contribute_iff`
    * `Piece.placed`
    * `Template.program`
    * `Generator.program_eq_template`
    * `CompileError.SameButStage`
    * `generators_agree`

  What a tree contributes to a program, and how far each piece
  is indented, is settled before a style is chosen.  A style
  only has texts to put around the pieces, and a name to blame
  errors on.
-/

------------------------------------------------------------
-- Contributions
------------------------------------------------------------

namespace TemplateTree

namespace Arg

/- Arguments that contribute pieces to a program, in order. -/
inductive Contribute : List Arg → List Piece → Prop where
| nil :
    Contribute [] []
| sequence
    {inner rest : List Arg}
    {first others : List Piece}
    (hInner : Contribute inner first)
    (hRest : Contribute rest others) :
    Contribute (.node CoreTag.sequence.name inner :: rest)
      (first ++ others)
| static
    {text : String}
    {rest : List Arg}
    {others : List Piece}
    (hText : text ≠ "")
    (hRest : Contribute rest others) :
    Contribute ((Node.static text).toArg :: rest)
      (.static text :: others)
| blank
    {rest : List Arg}
    {others : List Piece}
    (hRest : Contribute rest others) :
    Contribute ((Node.static "").toArg :: rest) others
| dynamic
    {text : String}
    {rest : List Arg}
    {others : List Piece}
    (hText : Text.trim text ≠ "")
    (hRest : Contribute rest others) :
    Contribute ((Node.dynamic text).toArg :: rest)
      (.dynamic (Text.trim text) :: others)
| block
    {text : String}
    {rest : List Arg}
    {others : List Piece}
    (hText : Text.trim text ≠ "")
    (hRest : Contribute rest others) :
    Contribute ((Node.block text).toArg :: rest)
      (.block (Text.trim text) :: others)

theorem piecesList?_cons_eq_some
    {arg : Arg}
    {args : List Arg}
    {first rest : List Piece}
    (hFirst : arg.pieces? = some first)
    (hRest : piecesList? args = some rest) :
    piecesList? (arg :: args) = some (first ++ rest) := by
  rw [piecesList?_cons, hFirst, hRest]
  rfl

theorem Contribute.piecesList?_eq
    {args : List Arg}
    {pieces : List Piece}
    (h : Contribute args pieces) :
    piecesList? args = some pieces := by
  induction h with
  | nil => rw [piecesList?_nil]
  | sequence hInner hRest ihInner ihRest =>
      refine piecesList?_cons_eq_some ?_ ihRest
      rw [pieces?_sequence, ihInner]
  | @static text rest others hText hRest ih =>
      have hPiece : Piece.ofStatic text = [.static text] := by
        rw [Piece.ofStatic, if_neg hText]
      exact piecesList?_cons_eq_some
        (pieces?_static_eq_some_iff.mpr ⟨_, rfl, hPiece⟩) ih
  | blank hRest ih =>
      exact piecesList?_cons_eq_some
        (pieces?_static_eq_some_iff.mpr ⟨_, rfl, rfl⟩) ih
  | dynamic hText hRest ih =>
      exact piecesList?_cons_eq_some
        (pieces?_dynamic_eq_some_iff.mpr ⟨_, rfl, hText, rfl⟩) ih
  | block hText hRest ih =>
      exact piecesList?_cons_eq_some
        (pieces?_block_eq_some_iff.mpr ⟨_, rfl, hText, rfl⟩) ih

/- Arguments that each contribute do so after each other. -/
theorem contribute_of_piecesList?
    {args : List Arg}
    (hEach :
      ∀ arg ∈ args,
        ∀ pieces rest others,
          arg.pieces? = some pieces →
            Contribute rest others →
              Contribute (arg :: rest) (pieces ++ others))
    {pieces : List Piece}
    (h : piecesList? args = some pieces) :
    Contribute args pieces := by
  induction args generalizing pieces with
  | nil =>
      rw [piecesList?_nil] at h
      cases h
      exact Contribute.nil
  | cons arg args ih =>
      rw [List.forall_mem_cons] at hEach
      rw [piecesList?_cons] at h
      simp only [Option.bind_eq_some_iff,
        Option.map_eq_some_iff] at h
      rcases h with ⟨first, hFirst, rest, hRest, rfl⟩
      exact hEach.1 first args rest hFirst (ih hEach.2 hRest)

theorem contribute_cons_of_pieces?
    (arg : Arg) :
    ∀ pieces rest others,
      arg.pieces? = some pieces →
        Contribute rest others →
          Contribute (arg :: rest) (pieces ++ others) := by
  induction arg using Arg.inductOn with
  | literal value =>
      intro pieces rest others hPieces hRest
      rw [pieces?_literal] at hPieces
      cases hPieces
  | node tag args ih =>
      intro pieces rest others hPieces hRest
      cases hCore : Tag.core? tag with
      | none =>
          rw [pieces?_foreign hCore] at hPieces
          cases hPieces
      | some kind =>
          have hName := Tag.core?_eq_some_iff.mp hCore
          subst hName
          cases kind with
          | sequence =>
              rw [pieces?_sequence] at hPieces
              exact Contribute.sequence
                (contribute_of_piecesList? ih hPieces) hRest
          | static =>
              rcases pieces?_static_eq_some_iff.mp hPieces with
                ⟨text, rfl, rfl⟩
              by_cases hText : text = ""
              · subst hText
                exact Contribute.blank hRest
              · rw [Piece.ofStatic, if_neg hText]
                exact Contribute.static hText hRest
          | dynamic =>
              rcases pieces?_dynamic_eq_some_iff.mp hPieces with
                ⟨text, rfl, hText, rfl⟩
              exact Contribute.dynamic hText hRest
          | block =>
              rcases pieces?_block_eq_some_iff.mp hPieces with
                ⟨text, rfl, hText, rfl⟩
              exact Contribute.block hText hRest

/- The pieces that are collected are the contributions. -/
theorem contribute_iff
    {args : List Arg}
    {pieces : List Piece} :
    Contribute args pieces ↔
      piecesList? args = some pieces := by
  constructor
  · exact Contribute.piecesList?_eq
  · apply contribute_of_piecesList?
    intro arg hArg
    exact contribute_cons_of_pieces? arg

end Arg

------------------------------------------------------------
-- Levels Of Pieces
------------------------------------------------------------

namespace Piece

/- The level of a piece: code may end a block first. -/
def levelAt (level : Nat) : Piece → Nat
| .block code => Layout.levelAt level code
| _ => level

/- The level after a piece: code may start a block last. -/
def levelAfter (level : Nat) : Piece → Nat
| .block code => Layout.levelAfter level code
| _ => level

/- The pieces of a program with the levels they stand on. -/
def placed : (level : Nat) → List Piece → List (Nat × Piece)
| _, [] => []
| level, piece :: rest =>
    let here := piece.levelAt level
    (here, piece) :: placed (piece.levelAfter here) rest

/- The level that pieces leave behind. -/
def endLevel : (level : Nat) → List Piece → Nat
| level, [] => level
| level, piece :: rest =>
    endLevel (piece.levelAfter (piece.levelAt level)) rest

/- No level lies to the left of the first. -/
example :
    placed 0
        [.block "\x7d", .static "a", .block "\x7d else \x7b",
          .dynamic "b", .block "\x7d"] =
      [(0, .block "\x7d"), (0, .static "a"),
        (0, .block "\x7d else \x7b"), (1, .dynamic "b"),
        (0, .block "\x7d")] := by
  decide

/- A piece whose code has no white space around it. -/
def IsTrimmed : Piece → Prop
| .block code => Text.trim code = code
| _ => True

/- Contributions are trimmed. -/
theorem isTrimmed_of_contribute
    {args : List Arg}
    {pieces : List Piece}
    (h : Arg.Contribute args pieces) :
    ∀ piece ∈ pieces, piece.IsTrimmed := by
  induction h with
  | nil => simp
  | sequence hInner hRest ihInner ihRest =>
      intro piece hPiece
      rcases List.mem_append.mp hPiece with hFirst | hOther
      · exact ihInner piece hFirst
      · exact ihRest piece hOther
  | static hText hRest ih =>
      exact List.forall_mem_cons.mpr ⟨trivial, ih⟩
  | blank hRest ih => exact ih
  | dynamic hText hRest ih =>
      exact List.forall_mem_cons.mpr ⟨trivial, ih⟩
  | block hText hRest ih =>
      exact List.forall_mem_cons.mpr ⟨Text.trim_trim _, ih⟩

end Piece

------------------------------------------------------------
-- Templates
------------------------------------------------------------

/- The texts that a style has for all programs. -/
structure Template where
  first : String
  text : Frame
  value : Frame
  last : String
deriving DecidableEq, Repr

namespace Template

/- The texts of a style, with the variable of the output. -/
def ofStyle
    (style : GeneratorStyle)
    (output : String) : Template :=
  match style with
  | .buffer =>
      { first := "let mut " ++ output ++ " = String::new();"
        text := ⟨output ++ ".push_str(", ");"⟩
        value := ⟨output ++ ".push_str(&(", ").to_string());"⟩
        last := output }
  | .array =>
      { first :=
          "let mut " ++ output ++ ": Vec<String> = Vec::new();"
        text := ⟨output ++ ".push(String::from(", "));"⟩
        value := ⟨output ++ ".push((", ").to_string());"⟩
        last := output ++ ".concat()" }

/- The statement of a piece: code is its own statement. -/
def statement (template : Template) : Piece → String
| .static text =>
    template.text.before ++ Text.stringLiteral text
      ++ template.text.after
| .dynamic expression =>
    template.value.before ++ expression
      ++ template.value.after
| .block code => code

/- The lines of a program: one for each piece between two. -/
def lines
    (template : Template)
    (pieces : List Piece) : List (Nat × String) :=
  (0, template.first) ::
    (Piece.placed 0 pieces).map
      (Prod.map id template.statement) ++
    [(Piece.endLevel 0 pieces, template.last)]

/- The text of a program. -/
def program
    (template : Template)
    (pieces : List Piece) : String :=
  String.join ((template.lines pieces).map Layout.printLine)

end Template

namespace Generator

/- A piece is placed on its level, with its statement. -/
theorem place_entry
    (g : Generator)
    (level : Nat)
    {piece : Piece}
    (hPiece : piece.IsTrimmed)
    (rest : List Entry) :
    Layout.place level (g.entry piece :: rest) =
      (piece.levelAt level,
          (Template.ofStyle g.style g.output).statement
            piece) ::
        Layout.place (piece.levelAfter (piece.levelAt level))
          rest := by
  cases g with
  | mk style output =>
      cases piece with
      | static text => cases style <;> rfl
      | dynamic expression => cases style <;> rfl
      | block code =>
          have hCode : Text.trim code = code := hPiece
          rw [entry, Layout.place, hCode]
          rfl

theorem place_entries
    (g : Generator)
    (level : Nat)
    {pieces : List Piece}
    (hPieces : ∀ piece ∈ pieces, piece.IsTrimmed)
    (rest : List Entry) :
    Layout.place level (pieces.map g.entry ++ rest) =
      (Piece.placed level pieces).map
          (Prod.map id
            (Template.ofStyle g.style g.output).statement) ++
        Layout.place (Piece.endLevel level pieces) rest := by
  induction pieces generalizing level with
  | nil => rfl
  | cons piece pieces ih =>
      rw [List.forall_mem_cons] at hPieces
      rw [List.map_cons, List.cons_append,
        place_entry g level hPieces.1, ih _ hPieces.2]
      rfl

/- A program is that of the template of its style. -/
theorem program_eq_template
    (g : Generator)
    {pieces : List Piece}
    (hPieces : ∀ piece ∈ pieces, piece.IsTrimmed) :
    g.program pieces =
      (Template.ofStyle g.style g.output).program pieces := by
  unfold program Layout.emit entries Template.program
    Template.lines
  rw [List.cons_append, Layout.place, place_entries g 0 hPieces]
  cases g with
  | mk style output => cases style <;> rfl

end Generator

------------------------------------------------------------
-- Errors
------------------------------------------------------------

namespace CompileError

/- Two errors that blame one node alike, for two stages. -/
inductive SameButStage
    (stage stage' : String) :
    CompileError → CompileError → Prop where
| shape (node : Node) (text : String) :
    SameButStage stage stage' (.shape stage node text)
      (.shape stage' node text)
| generation (node : Option Node) (text : String) :
    SameButStage stage stage' (.generation stage node text)
      (.generation stage' node text)

/- An error with another stage to blame. -/
def blame (stage : String) : CompileError → CompileError
| .shape _ node text => .shape stage node text
| .generation _ node text => .generation stage node text
| error => error

theorem BlamedOn.sameButStage
    {stage : String}
    {error : CompileError}
    (h : error.BlamedOn stage)
    (stage' : String) :
    SameButStage stage stage' error (error.blame stage') := by
  cases error with
  | shape name node text =>
      cases h
      exact SameButStage.shape node text
  | generation name node text =>
      cases h
      exact SameButStage.generation node text
  | _ => exact h.elim

end CompileError

namespace Piece

theorem Fault.on_eq_blame
    (stage stage' : String)
    (node : Node)
    (fault : Fault) :
    fault.on stage' node =
      (fault.on stage node).blame stage' := by
  cases fault <;> rfl

mutual

/- Another stage fails with the same errors in its name. -/
theorem ofArg_eq_mapError
    (stage stage' : String)
    (parent : Node) :
    (arg : Arg) →
    ofArg stage' parent arg =
      (ofArg stage parent arg).mapError
        (CompileError.blame stage')
| .literal value => by
    rw [ofArg, ofArg, Fault.on_eq_blame stage]
    rfl
| .node tag args => by
    rw [ofArg, ofArg]
    split
    · exact ofArgs_eq_mapError stage stage' _ args
    iterate 3
      · rw [Except.mapError_mapError]
        simp only [← Fault.on_eq_blame]
    · rw [Fault.on_eq_blame stage]
      rfl

theorem ofArgs_eq_mapError
    (stage stage' : String)
    (parent : Node) :
    (args : List Arg) →
    ofArgs stage' parent args =
      (ofArgs stage parent args).mapError
        (CompileError.blame stage')
| [] => by
    rw [ofArgs, ofArgs]
    rfl
| arg :: args => by
    rw [ofArgs, ofArgs,
      ofArg_eq_mapError stage stage' parent arg,
      ofArgs_eq_mapError stage stage' parent args,
      Except.mapError_bind]
    simp only [Except.mapError_map]

end

end Piece

------------------------------------------------------------
-- Agreement
------------------------------------------------------------

/- A generator has a program if a tree has contributions. -/
theorem Generator.generate_of_contribute
    (g : Generator)
    {tree : Node}
    {pieces : List Piece}
    (h : Arg.Contribute [tree.toArg] pieces) :
    g.generate tree =
      .ok ((Template.ofStyle g.style g.output).program
        pieces) := by
  rw [generate_eq_ok_iff]
  refine ⟨pieces, ?_,
    g.program_eq_template (Piece.isTrimmed_of_contribute h)⟩
  rw [← Arg.piecesList?_singleton]
  exact Arg.contribute_iff.mp h

/- Otherwise it fails, and only the style is blamed. -/
theorem Generator.exists_error_of_not_contribute
    {tree : Node}
    (h : ∀ pieces, ¬ Arg.Contribute [tree.toArg] pieces)
    (g g' : Generator) :
    ∃ error error',
      g.generate tree = .error error ∧
        g'.generate tree = .error error' ∧
        CompileError.SameButStage g.style.name g'.style.name
          error error' := by
  cases hPieces : Piece.ofNode g.style.name tree with
  | ok pieces =>
      rw [Piece.ofNode_eq_ok_iff, ← Arg.piecesList?_singleton,
        ← Arg.contribute_iff] at hPieces
      exact absurd hPieces (h pieces)
  | error error =>
      have hOther :
          Piece.ofNode g'.style.name tree =
            .error (error.blame g'.style.name) := by
        rw [Piece.ofNode,
          Piece.ofArg_eq_mapError g.style.name,
          ← Piece.ofNode, hPieces]
        rfl
      have hBlamed : error.BlamedOn g.style.name :=
        Piece.blamedOn_of_ofArg _ hPieces
      refine ⟨error, error.blame g'.style.name, ?_, ?_,
        hBlamed.sameButStage g'.style.name⟩
      · rw [generate_eq, hPieces]
        rfl
      · rw [generate_eq, hOther]
        rfl

/-
  Either both styles have a program for a tree, which is that
  of their own template over what the tree contributes, or the
  tree has no contribution, and both fail with errors that
  differ only in the style they name.
-/
theorem generators_agree
    (tree : Node)
    (variableName : String) :
    (∃ pieces,
        Arg.Contribute [tree.toArg] pieces ∧
          ∀ style,
            (Generator.mk style variableName).generate tree =
              .ok ((Template.ofStyle style
                variableName).program pieces)) ∨
      ((∀ pieces, ¬ Arg.Contribute [tree.toArg] pieces) ∧
        ∃ error error',
          (Generator.mk .buffer variableName).generate tree =
              .error error ∧
            (Generator.mk .array variableName).generate tree =
              .error error' ∧
            CompileError.SameButStage "buffer" "array"
              error error') := by
  by_cases h : ∃ pieces, Arg.Contribute [tree.toArg] pieces
  · rcases h with ⟨pieces, hPieces⟩
    left
    refine ⟨pieces, hPieces, ?_⟩
    intro style
    exact Generator.generate_of_contribute _ hPieces
  · right
    have hNone := not_exists.mp h
    refine ⟨hNone, ?_⟩
    exact Generator.exists_error_of_not_contribute hNone
      ⟨.buffer, variableName⟩ ⟨.array, variableName⟩

end TemplateTree
