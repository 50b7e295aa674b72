import TemplateTree.Proofs.CatalogueStages
import TemplateTree.Proofs.CoreTrees
import TemplateTree.Proofs.EngineComposition
import TemplateTree.Proofs.Exchange
import TemplateTree.Proofs.TreeNodes

/-
  Filters keep the meaning of the program of a tree.

  Main declarations:
    * `Piece.normal`
    * `Piece.normal_compositional`
    * `Arg.Alike`
    * `Arg.alike_congruence`
    * `Pass.IgnoresCore`
    * `Chain.KeepsProgram`
    * `declared_filters_keep_program`

  Pieces are compared in a normal form: expressions with a
  known value are static texts, and static texts that follow
  each other are one text.  Fragments of code divide the
  texts before them from the texts after them, so a filter
  that moved one would change the normal form.
-/

------------------------------------------------------------
-- Normal Form Of Pieces
------------------------------------------------------------

namespace TemplateTree

namespace Piece

/- A piece, or the text of an expression with a known value. -/
def evaluated : Piece → Piece
| .dynamic expression =>
    match Expression.literal? expression with
    | some value => .static value.rendered
    | none => .dynamic expression
| piece => piece

/-
  Put a piece before others.  A static text joins one that
  follows it, and an empty one is dropped.
-/
def attach : Piece → List Piece → List Piece
| .static text, pieces =>
    if text = "" then pieces
    else
      match pieces with
      | .static next :: rest => .static (text ++ next) :: rest
      | _ => .static text :: pieces
| piece, pieces => piece :: pieces

/- Pieces with all static texts joined that can be. -/
def joined (pieces : List Piece) : List Piece :=
  pieces.foldr attach []

/- The normal form of pieces. -/
def normal (pieces : List Piece) : List Piece :=
  joined (pieces.map evaluated)

@[simp] theorem attach_empty
    (pieces : List Piece) :
    attach (.static "") pieces = pieces := rfl

/- Two static texts are attached as one. -/
theorem attach_static_append
    (first second : String)
    (pieces : List Piece) :
    attach (.static (first ++ second)) pieces =
      attach (.static first) (attach (.static second) pieces) := by
  by_cases hFirst : first = ""
  · simp [hFirst]
  · by_cases hSecond : second = ""
    · simp [hSecond]
    · have hBoth : first ++ second ≠ "" := by
        simp [hFirst]
      cases pieces with
      | nil => simp [attach, hFirst, hSecond]
      | cons piece rest =>
          cases piece <;>
            simp [attach, hFirst, hSecond, String.append_assoc]

/- Attaching to a list starts at its first piece. -/
theorem foldr_attach_attach
    (piece : Piece)
    (pieces others : List Piece) :
    (attach piece pieces).foldr attach others =
      attach piece (pieces.foldr attach others) := by
  cases piece with
  | dynamic expression => rfl
  | block code => rfl
  | static text =>
      by_cases hText : text = ""
      · simp [hText]
      · cases pieces with
        | nil => simp [attach, hText]
        | cons first rest =>
            cases first with
            | static next =>
                have hJoin :
                    attach (.static text) (.static next :: rest) =
                      .static (text ++ next) :: rest := by
                  simp [attach, hText]
                rw [hJoin, List.foldr_cons, attach_static_append,
                  List.foldr_cons]
            | dynamic expression => simp [attach, hText]
            | block code => simp [attach, hText]

/- Joining first and attaching then is attaching at once. -/
theorem foldr_attach_joined
    (pieces others : List Piece) :
    (joined pieces).foldr attach others =
      pieces.foldr attach others := by
  induction pieces with
  | nil => rfl
  | cons piece pieces ih =>
      rw [joined, List.foldr_cons, foldr_attach_attach,
        List.foldr_cons, ← ih, joined]

/- The normal form of two lists is made up of theirs. -/
theorem normal_append
    (first second : List Piece) :
    normal (first ++ second) =
      (normal first).foldr attach (normal second) := by
  unfold normal
  rw [foldr_attach_joined, List.map_append, joined,
    List.foldr_append, joined]

/- A static text is attached to the normal form of others. -/
theorem normal_ofStatic_append
    (text : String)
    (pieces : List Piece) :
    normal (ofStatic text ++ pieces) =
      attach (.static text) (normal pieces) := by
  by_cases hText : text = ""
  · simp [hText, ofStatic]
  · simp [ofStatic, hText, normal, joined, evaluated]

/-
  A view of pieces in which a list depends on the views of its
  parts alone.
-/
def Compositional
    (view : List Piece → List Piece) : Prop :=
  ∀ {first first' second second' : List Piece},
    view first = view first' →
      view second = view second' →
        view (first ++ second) = view (first' ++ second')

/- The normal form is such a view. -/
theorem normal_compositional : Compositional normal := by
  intro first first' second second' hFirst hSecond
  rw [normal_append, normal_append, hFirst, hSecond]

end Piece

------------------------------------------------------------
-- Arguments With Like Pieces
------------------------------------------------------------

namespace Arg

open Piece

/-
  Arguments that may stand for each other if pieces are seen
  in some view: the same literal, or two nodes.
-/
structure Alike
    (view : List Piece → List Piece)
    (arg arg' : Arg) : Prop where
  literal : arg.asLiteral? = arg'.asLiteral?
  pieces : arg.pieces?.map view = arg'.pieces?.map view

/- Nodes with the same pieces are alike in every view. -/
theorem Alike.ofNodes
    {view : List Piece → List Piece}
    {node node' : Node}
    (h :
      node.toArg.pieces?.map view =
        node'.toArg.pieces?.map view) :
    Alike view node.toArg node'.toArg :=
  ⟨rfl, h⟩

/- The only text among arguments can be told from literals. -/
theorem map_asLiteral?_eq_text_iff
    {args : List Arg}
    {text : String} :
    args.map asLiteral? = [some (.text text)] ↔
      args = [Arg.text text] := by
  cases args with
  | nil => simp
  | cons arg args =>
      cases arg with
      | literal value => simp [asLiteral?, Arg.text]
      | node tag inner => simp [asLiteral?, Arg.text]

/- Arguments that are alike hold the same texts. -/
theorem text_iff_of_alike
    {view : List Piece → List Piece}
    {args args' : List Arg}
    (h : List.Forall₂ (Alike view) args args')
    (text : String) :
    args = [Arg.text text] ↔ args' = [Arg.text text] := by
  have hLiterals :
      args.map asLiteral? = args'.map asLiteral? := by
    induction h with
    | nil => rfl
    | cons hArg hArgs ih =>
        rw [List.map_cons, List.map_cons, hArg.literal, ih]
  rw [← map_asLiteral?_eq_text_iff, hLiterals,
    map_asLiteral?_eq_text_iff]

/- Like pieces after like pieces are alike. -/
theorem append_congr
    {view : List Piece → List Piece}
    (hView : Compositional view)
    {first first' second second' : Option (List Piece)}
    (hFirst : first.map view = first'.map view)
    (hSecond : second.map view = second'.map view) :
    (first.bind fun a => second.map fun b => a ++ b).map view =
      (first'.bind fun a => second'.map fun b => a ++ b).map
        view := by
  cases first <;> cases first' <;>
    simp only [Option.map_none, Option.map_some, reduceCtorEq,
      Option.some.injEq] at hFirst
  · rfl
  · cases second <;> cases second' <;>
      simp only [Option.map_none, Option.map_some, reduceCtorEq,
        Option.some.injEq] at hSecond
    · rfl
    · simp [hView hFirst hSecond]

/- Sequences of like arguments have like pieces. -/
theorem piecesList?_congr
    {view : List Piece → List Piece}
    (hView : Compositional view)
    {args args' : List Arg}
    (h : List.Forall₂ (Alike view) args args') :
    (piecesList? args).map view =
      (piecesList? args').map view := by
  induction h with
  | nil => rfl
  | cons hArg hArgs ih =>
      rw [piecesList?_cons, piecesList?_cons]
      exact append_congr hView hArg.pieces ih

/- Exchanging like arguments keeps the pieces of a node. -/
theorem alike_congruence
    {view : List Piece → List Piece}
    (hView : Compositional view) :
    Congruence (Alike view) where
  refl := fun arg => ⟨rfl, rfl⟩
  trans := fun hAB hBC =>
    ⟨hAB.literal.trans hBC.literal,
      hAB.pieces.trans hBC.pieces⟩
  node := by
    intro tag args args' hArgs
    refine ⟨rfl, ?_⟩
    have hText := text_iff_of_alike hArgs
    cases hCore : Tag.core? tag with
    | none => rw [pieces?_foreign hCore, pieces?_foreign hCore]
    | some kind =>
        have hName := Tag.core?_eq_some_iff.mp hCore
        subst hName
        cases kind with
        | sequence =>
            rw [pieces?_sequence, pieces?_sequence]
            exact piecesList?_congr hView hArgs
        | static =>
            congr 1
            apply Option.ext
            intro pieces
            simp only [pieces?_static_eq_some_iff, hText]
        | dynamic =>
            congr 1
            apply Option.ext
            intro pieces
            simp only [pieces?_dynamic_eq_some_iff, hText]
        | block =>
            congr 1
            apply Option.ext
            intro pieces
            simp only [pieces?_block_eq_some_iff, hText]

end Arg

------------------------------------------------------------
-- Merging Static Texts
------------------------------------------------------------

/- The pieces of two lists of arguments follow each other. -/
theorem Arg.piecesList?_append
    (args args' : List Arg) :
    piecesList? (args ++ args') =
      (piecesList? args).bind fun first =>
        (piecesList? args').map fun rest => first ++ rest := by
  induction args with
  | nil => simp
  | cons arg args ih =>
      rw [List.cons_append, piecesList?_cons, piecesList?_cons,
        ih]
      cases arg.pieces? with
      | none => rfl
      | some first =>
          cases piecesList? args with
          | none => rfl
          | some middle =>
              cases piecesList? args' with
              | none => rfl
              | some rest => simp

theorem Node.pieces?_static
    (text : String) :
    (Node.static text).toArg.pieces? =
      some (Piece.ofStatic text) :=
  Arg.pieces?_static_eq_some_iff.mpr ⟨text, rfl, rfl⟩

namespace MergeStatic

/- What can be merged is a static node with one text. -/
theorem staticText?_eq_some_iff
    {arg : Arg}
    {text : String} :
    staticText? arg = some text ↔
      arg = (Node.static text).toArg := by
  constructor
  · intro h
    unfold staticText? at h
    split at h
    · next tag inner =>
        split at h
        · next hTag =>
            rw [Arg.asText?_eq_some_iff] at h
            rw [h, hTag]
            rfl
        · cases h
    · cases h
  · rintro rfl
    simp [staticText?, Node.toArg, Node.static, Node.ofText]

/- A run of static texts has the piece of its text. -/
theorem piecesList?_runArgs
    (before : Option String) :
    Arg.piecesList? (runArgs before) =
      some (Piece.ofStatic (before.getD "")) := by
  cases before with
  | none => rfl
  | some text =>
      rw [runArgs, Arg.piecesList?_singleton,
        Node.pieces?_static]
      rfl

/-
  Merging after a run of static texts has the normal form of
  the run followed by the arguments.
-/
theorem normal_mergeFrom
    (before : Option String)
    (args : List Arg) :
    (Arg.piecesList? (mergeFrom before args)).map Piece.normal =
      (Arg.piecesList? (runArgs before ++ args)).map
        Piece.normal := by
  induction args generalizing before with
  | nil => rw [mergeFrom, List.append_nil]
  | cons arg args ih =>
      rw [mergeFrom]
      cases hStatic : staticText? arg with
      | some text =>
          simp only
          rw [ih, staticText?_eq_some_iff.mp hStatic,
            Arg.piecesList?_append, Arg.piecesList?_append,
            Arg.piecesList?_cons, piecesList?_runArgs,
            piecesList?_runArgs, Node.pieces?_static]
          cases Arg.piecesList? args with
          | none => rfl
          | some rest =>
              simp [Piece.normal_ofStatic_append,
                Piece.attach_static_append]
      | none =>
          simp only
          rw [Arg.piecesList?_append, Arg.piecesList?_append,
            Arg.piecesList?_cons, Arg.piecesList?_cons]
          have hRest := ih none
          rw [runArgs, List.nil_append] at hRest
          exact
            Arg.append_congr Piece.normal_compositional rfl
              (Arg.append_congr Piece.normal_compositional rfl
                hRest)

/- Merging static texts keeps the normal form. -/
theorem pass_exchanges :
    pass.Exchanges (Arg.Alike Piece.normal) where
  accepts := fun tag => by simp [Pass.refuses, pass]
  transform := by
    intro node hHandles
    have hTag : node.tag = CoreTag.sequence.name := by
      simpa [pass] using hHandles
    refine ⟨node.withArgs (merge node.args), rfl, ?_⟩
    apply Arg.Alike.ofNodes
    unfold Node.toArg Node.withArgs
    rw [hTag, Arg.pieces?_sequence, Arg.pieces?_sequence, merge,
      normal_mergeFrom, runArgs, List.nil_append]

end MergeStatic

------------------------------------------------------------
-- Evaluating Literal Expressions
------------------------------------------------------------

namespace Expression

/- White space around an expression does not matter. -/
theorem literal?_trim
    (src : String) :
    literal? (Text.trim src) = literal? src := by
  unfold literal?
  rw [Text.trimChars_trim]

/- A blank expression is no literal. -/
theorem trim_ne_empty_of_literal?
    {src : String}
    {value : Literal}
    (h : literal? src = some value) :
    Text.trim src ≠ "" := by
  intro hBlank
  rw [← literal?_trim, hBlank] at h
  cases h

end Expression

namespace InlineDynamic

/- A node has a value if its only text is a literal. -/
theorem value?_eq_some_iff
    {node : Node}
    {value : Literal} :
    value? node = some value ↔
      ∃ text,
        node.args = [Arg.text text] ∧
          Expression.literal? text = some value := by
  unfold value?
  split
  · next arg hArgs =>
      rw [hArgs]
      simp only [Option.bind_eq_some_iff,
        Arg.asText?_eq_some_iff, List.cons.injEq, and_true]
  · next hLength =>
      constructor
      · intro h
        cases h
      · rintro ⟨text, hArgs, -⟩
        exact absurd hArgs (hLength _)

/- A literal expression is its value in normal form. -/
theorem normal_dynamic
    {text : String}
    {value : Literal}
    (h : Expression.literal? text = some value) :
    Piece.normal [.dynamic (Text.trim text)] =
      Piece.normal (Piece.ofStatic value.rendered) := by
  have hStatic :=
    Piece.normal_ofStatic_append value.rendered []
  rw [List.append_nil] at hStatic
  rw [hStatic]
  simp [Piece.normal, Piece.joined, Piece.evaluated,
    Expression.literal?_trim, h]

/- Evaluating ahead of time keeps the normal form. -/
theorem pass_exchanges :
    pass.Exchanges (Arg.Alike Piece.normal) where
  accepts := fun tag => by simp [Pass.refuses, pass]
  transform := by
    intro node hHandles
    have hTag : node.tag = CoreTag.dynamic.name := by
      simpa [pass] using hHandles
    refine ⟨inline node, rfl, ?_⟩
    apply Arg.Alike.ofNodes
    unfold inline
    cases hValue : value? node with
    | none => rfl
    | some value =>
        rcases value?_eq_some_iff.mp hValue with
          ⟨text, hArgs, hLiteral⟩
        have hPieces :
            node.toArg.pieces? =
              some [.dynamic (Text.trim text)] := by
          unfold Node.toArg
          rw [hTag]
          exact Arg.pieces?_dynamic_eq_some_iff.mpr
            ⟨text, hArgs,
              Expression.trim_ne_empty_of_literal? hLiteral, rfl⟩
        simp only
        rw [hPieces, Node.pieces?_static, Option.map_some,
          Option.map_some, normal_dynamic hLiteral]

end InlineDynamic

------------------------------------------------------------
-- Splicing Nested Sequences
------------------------------------------------------------

namespace Flatten

/- Splicing one argument keeps its pieces. -/
theorem piecesList?_splice
    (arg : Arg) :
    Arg.piecesList? (splice arg) = arg.pieces? := by
  cases arg with
  | literal value => exact Arg.piecesList?_singleton _
  | node tag args =>
      rw [splice]
      by_cases hTag : tag = CoreTag.sequence.name
      · rw [if_pos hTag, hTag, Arg.pieces?_sequence]
      · rw [if_neg hTag, Arg.piecesList?_singleton]

/- Splicing all arguments keeps their pieces. -/
theorem piecesList?_flatMap_splice
    (args : List Arg) :
    Arg.piecesList? (args.flatMap splice) =
      Arg.piecesList? args := by
  induction args with
  | nil => rfl
  | cons arg args ih =>
      rw [List.flatMap_cons, Arg.piecesList?_append,
        Arg.piecesList?_cons, piecesList?_splice, ih]

/- A flattened sequence has the pieces it had before. -/
theorem pieces?_flatten
    (unwrapSingle : Bool)
    {node : Node}
    (hTag : node.tag = CoreTag.sequence.name) :
    (flatten unwrapSingle node).toArg.pieces? =
      node.toArg.pieces? := by
  have hNode :
      node.toArg.pieces? =
        Arg.piecesList? (node.args.flatMap splice) := by
    unfold Node.toArg
    rw [hTag, Arg.pieces?_sequence, piecesList?_flatMap_splice]
  have hKept :
      (node.withArgs (node.args.flatMap splice)).toArg.pieces? =
        node.toArg.pieces? := by
    rw [hNode]
    unfold Node.toArg Node.withArgs
    rw [hTag, Arg.pieces?_sequence]
  unfold flatten
  dsimp only
  split
  · next tag inner hArgs =>
      split
      · rw [hNode, hArgs, Arg.piecesList?_singleton, Node.toArg]
      · exact hKept
  · exact hKept

/- Flattening keeps pieces in whatever view. -/
theorem pass_exchanges
    (view : List Piece → List Piece)
    (unwrapSingle : Bool) :
    (pass unwrapSingle).Exchanges (Arg.Alike view) where
  accepts := fun tag => by simp [Pass.refuses, pass]
  transform := by
    intro node hHandles
    have hTag : node.tag = CoreTag.sequence.name := by
      simpa [pass] using hHandles
    refine ⟨flatten unwrapSingle node, rfl, ?_⟩
    apply Arg.Alike.ofNodes
    rw [pieces?_flatten unwrapSingle hTag]

end Flatten

------------------------------------------------------------
-- Passes That Leave Core Trees Alone
------------------------------------------------------------

namespace Pass

/- A pass that has nothing to do with core tags. -/
def IgnoresCore (pass : Pass) : Prop :=
  ∀ kind : CoreTag,
    pass.handles kind.name = false ∧
      pass.rejects kind.name = false

/- A node of a core tag is left alone with its arguments. -/
theorem IgnoresCore.foldArg_node
    {pass : Pass}
    (hPass : pass.IgnoresCore)
    (kind : CoreTag)
    {args : List Arg}
    (hArgs : ∀ arg ∈ args, pass.foldArg arg = .ok arg) :
    pass.foldArg (.node kind.name args) =
      .ok (.node kind.name args) := by
  rcases hPass kind with ⟨hHandles, hRejects⟩
  rw [foldArg, foldArgs_eq_self hArgs]
  simp [refuses, finish, hHandles, hRejects, Node.toArg]

/- A text is left alone by every pass. -/
theorem foldArg_of_mem_text
    (pass : Pass)
    (text : String) :
    ∀ arg ∈ [Arg.text text], pass.foldArg arg = .ok arg := by
  intro arg hArg
  rw [List.mem_singleton] at hArg
  rw [hArg, Arg.text, foldArg]

/- A core tree comes back from a pass that ignores its tags. -/
theorem IgnoresCore.run
    {pass : Pass}
    (hPass : pass.IgnoresCore)
    {tree : Node}
    (hTree : tree.toArg.IsCore) :
    pass.run tree = .ok tree := by
  have hFold :
      ∀ arg : Arg, arg.IsCore → pass.foldArg arg = .ok arg := by
    intro arg hArg
    induction hArg with
    | sequence hArgs ih => exact hPass.foldArg_node .sequence ih
    | static text =>
        exact hPass.foldArg_node .static
          (pass.foldArg_of_mem_text text)
    | dynamic hText =>
        exact hPass.foldArg_node .dynamic
          (pass.foldArg_of_mem_text _)
    | block hText =>
        exact hPass.foldArg_node .block
          (pass.foldArg_of_mem_text _)
  have hTree' := hFold tree.toArg hTree
  rw [foldArg_toArg, Except.map_eq_ok_iff] at hTree'
  rcases hTree' with ⟨tree', hRun, hEq⟩
  rw [hRun, Node.toArg_inj.mp hEq]

end Pass

/- Control flow is not among the core tags. -/
theorem ControlFlow.pass_ignoresCore
    (passThrough : TagSet) :
    (pass passThrough).IgnoresCore := by
  intro kind
  cases kind <;>
    simp [pass, CoreTag.name, Tag.cond, Tag.loop, Tag.isCore,
      Tag.core?]

------------------------------------------------------------
-- Engines Of Filters
------------------------------------------------------------

/-
  A stage that succeeds on every tree with pieces, with a tree
  whose pieces have the same normal form.
-/
def Stage.KeepsProgram (stage : Stage Node Node) : Prop :=
  ∀ (tree : Node) (pieces : List Piece),
    tree.toArg.pieces? = some pieces →
      ∃ (tree' : Node) (pieces' : List Piece),
        (stage.run tree).result = .ok tree' ∧
          tree'.toArg.pieces? = some pieces' ∧
          Piece.normal pieces' = Piece.normal pieces

/- A chain of stages of that kind, in whatever engine. -/
def Chain.KeepsProgram (chain : Chain Node Node) : Prop :=
  ∀ (engine : String) (tree : Node) (pieces : List Piece),
    tree.toArg.pieces? = some pieces →
      ∃ (tree' : Node) (pieces' : List Piece),
        (chain.run engine tree).result = .ok tree' ∧
          tree'.toArg.pieces? = some pieces' ∧
          Piece.normal pieces' = Piece.normal pieces

theorem Chain.keepsProgram_nil :
    (Chain.nil : Chain Node Node).KeepsProgram := by
  intro engine tree pieces hPieces
  refine ⟨tree, pieces, ?_, hPieces, rfl⟩
  rw [Chain.run]

theorem Chain.keepsProgram_snoc
    {before : Chain Node Node}
    (hBefore : before.KeepsProgram)
    {stage : Stage Node Node}
    (hStage : stage.KeepsProgram) :
    (before.snoc stage).KeepsProgram := by
  intro engine tree pieces hPieces
  rcases hBefore engine tree pieces hPieces with
    ⟨middle, pieces', hMiddle, hPieces', hFirst⟩
  rcases hStage middle pieces' hPieces' with
    ⟨tree', pieces'', hLast, hPieces'', hSecond⟩
  exact
    ⟨tree', pieces'', Chain.result_run_snoc hMiddle hLast,
      hPieces'', hSecond.trans hFirst⟩

/- Stages added one after another keep programs together. -/
theorem Chain.keepsProgram_foldl
    {before : Chain Node Node}
    (hBefore : before.KeepsProgram)
    {stages : List (Stage Node Node)}
    (hStages : ∀ stage ∈ stages, stage.KeepsProgram) :
    (stages.foldl Chain.snoc before).KeepsProgram := by
  induction stages generalizing before with
  | nil => exact hBefore
  | cons stage stages ih =>
      rw [List.forall_mem_cons] at hStages
      rw [List.foldl_cons]
      exact ih (Chain.keepsProgram_snoc hBefore hStages.1)
        hStages.2

/- A pass that exchanges arguments of one normal form. -/
theorem Pass.Exchanges.keepsProgram
    {pass : Pass}
    (hPass : pass.Exchanges (Arg.Alike Piece.normal)) :
    (Catalogue.ofPass pass).KeepsProgram := by
  intro tree pieces hPieces
  rcases hPass.run
      (Arg.alike_congruence Piece.normal_compositional) tree with
    ⟨tree', hRun, hAlike⟩
  have hNormal := hAlike.pieces
  rw [hPieces, Option.map_some, eq_comm,
    Option.map_eq_some_iff] at hNormal
  rcases hNormal with ⟨pieces', hPieces', hNormal⟩
  exact ⟨tree', pieces', hRun, hPieces', hNormal⟩

/- A pass that gives core trees back. -/
theorem Pass.keepsProgram_of_run_eq_self
    {pass : Pass}
    (hPass :
      ∀ tree : Node,
        tree.toArg.IsCore → pass.run tree = .ok tree) :
    (Catalogue.ofPass pass).KeepsProgram := by
  intro tree pieces hPieces
  refine ⟨tree, pieces, ?_, hPieces, rfl⟩
  exact hPass tree
    ((Arg.exists_pieces?_iff tree.toArg).mp ⟨pieces, hPieces⟩)

/- Every filter but the one that erases keeps programs. -/
theorem Catalogue.Filter.keepsProgram
    {filter : Filter}
    (hErase : filter.pass.name ≠ "erase") :
    (ofPass filter.pass).KeepsProgram := by
  cases filter with
  | mergeStatic => exact MergeStatic.pass_exchanges.keepsProgram
  | inlineDynamic =>
      exact InlineDynamic.pass_exchanges.keepsProgram
  | flatten unwrapSingle =>
      exact
        (Flatten.pass_exchanges Piece.normal
          unwrapSingle).keepsProgram
  | erase tags => exact absurd rfl hErase
  | controlFlow passThrough =>
      exact Pass.keepsProgram_of_run_eq_self fun tree hTree =>
        (ControlFlow.pass_ignoresCore passThrough).run hTree
  | validate =>
      exact Pass.keepsProgram_of_run_eq_self fun tree hTree =>
        Validate.run_eq_ok_iff.mpr ⟨rfl, hTree⟩

/- So do the stages of declarations that erase nothing. -/
theorem Catalogue.keepsProgram_of_declared
    {globals : Options}
    {decls : List DeclaredStage}
    {stages : List (Stage Node Node)}
    (hStages :
      List.Forall₂
        (fun decl stage =>
          filters.build decl.name globals decl.options =
            .ok stage)
        decls stages)
    (hErase : ∀ decl ∈ decls, decl.name ≠ "erase") :
    ∀ stage ∈ stages, stage.KeepsProgram := by
  induction hStages with
  | nil => simp
  | cons hBuild hStages ih =>
      rw [List.forall_mem_cons] at hErase ⊢
      rcases exists_filter_of_build hBuild with
        ⟨filter, hName, rfl⟩
      refine ⟨Filter.keepsProgram ?_, ih hErase.2⟩
      rw [hName]
      exact hErase.1

/-
  An engine of declared filters, with any options they accept
  and in any order and number, succeeds on a tree that passes
  the check.  Generators accept the result, and its pieces
  have the normal form of the pieces of the tree.
-/
theorem declared_filters_keep_program
    {name : String}
    {globals : Options}
    {decls : List DeclaredStage}
    {engine : Engine Node Node}
    {tree checked : Node}
    (hNames :
      ∀ decl ∈ decls,
        decl.name ∈
          ["merge-static", "inline-dynamic", "flatten",
            "control-flow", "validate"])
    (hEngine :
      (EngineFile.declareFilters decls
          ((Draft.start name).withGlobals globals)).bind
        Draft.build = .ok engine)
    (hTree : Validate.pass.run tree = .ok checked) :
    ∃ (tree' : Node) (pieces pieces' : List Piece),
      (engine.run tree).result = .ok tree' ∧
        (∀ g : Generator,
          ∃ program, g.generate tree' = .ok program) ∧
        (∀ stage, Piece.ofNode stage tree = .ok pieces) ∧
        (∀ stage, Piece.ofNode stage tree' = .ok pieces') ∧
        Piece.normal pieces' = Piece.normal pieces := by
  rcases Except.bind_eq_ok_iff.mp hEngine with
    ⟨draft, hDeclare, hBuild⟩
  rcases EngineFile.exists_stages_of_declareFilters hDeclare
    with ⟨stages, hStages, hChain, -⟩
  have hErase : ∀ decl ∈ decls, decl.name ≠ "erase" := by
    intro decl hDecl hName
    have hListed := hNames decl hDecl
    simp [hName] at hListed
  have hKeep :=
    Catalogue.keepsProgram_of_declared hStages hErase
  have hEngineChain : engine.chain.KeepsProgram := by
    rw [Draft.eq_of_build hBuild, hChain]
    exact Chain.keepsProgram_foldl Chain.keepsProgram_nil hKeep
  rcases Validate.run_eq_ok_iff.mp hTree with ⟨-, hCore⟩
  rcases (Arg.exists_pieces?_iff tree.toArg).mpr hCore with
    ⟨pieces, hPieces⟩
  rcases hEngineChain engine.name tree pieces hPieces with
    ⟨tree', pieces', hRun, hPieces', hNormal⟩
  refine ⟨tree', pieces, pieces', hRun, ?_, ?_, ?_, hNormal⟩
  · intro g
    exact ⟨_, Generator.generate_eq_ok_iff.mpr
      ⟨pieces', hPieces', rfl⟩⟩
  · intro stage
    exact Piece.ofNode_eq_ok_iff.mpr hPieces
  · intro stage
    exact Piece.ofNode_eq_ok_iff.mpr hPieces'

namespace GuardedGreeting

def decls : List DeclaredStage :=
  [.named "inline-dynamic",
    ⟨"flatten",
      NameMap.empty.insert "unwrap_single" (.bool false)⟩,
    .named "merge-static"]

def tree : Node :=
  Node.sequence
    [Node.static "a",
      Node.sequence
        [Node.dynamic " true ", Node.block "if x \x7b"],
      Node.static "b",
      Node.block "\x7d"]

/-
  The literal joins the text before the fragment, and the text
  after the fragment stays behind it.
-/
theorem guarded_greeting_keeps_program :
    ∃ engine,
      (∀ decl ∈ decls,
          decl.name ∈
            ["merge-static", "inline-dynamic", "flatten",
              "control-flow", "validate"]) ∧
        (EngineFile.declareFilters decls
            ((Draft.start "wf").withGlobals NameMap.empty)).bind
          Draft.build = .ok engine ∧
        Validate.pass.run tree = .ok tree ∧
        ∃ (tree' : Node) (pieces pieces' : List Piece),
          (engine.run tree).result = .ok tree' ∧
            (∀ g : Generator,
              ∃ program, g.generate tree' = .ok program) ∧
            (∀ stage,
              Piece.ofNode stage tree = .ok pieces) ∧
            (∀ stage,
              Piece.ofNode stage tree' = .ok pieces') ∧
            Piece.normal pieces' = Piece.normal pieces := by
  have hNames :
      ∀ decl ∈ decls,
        decl.name ∈
          ["merge-static", "inline-dynamic", "flatten",
            "control-flow", "validate"] := by
    simp [decls, DeclaredStage.named]
  have hBuilt :
      ∃ engine,
        (EngineFile.declareFilters decls
            ((Draft.start "wf").withGlobals NameMap.empty)).bind
          Draft.build = .ok engine :=
    ⟨_, rfl⟩
  rcases hBuilt with ⟨engine, hEngine⟩
  have hTree : Validate.pass.run tree = .ok tree := by
    rfl
  exact
    ⟨engine, hNames, hEngine, hTree,
      declared_filters_keep_program hNames hEngine hTree⟩

end GuardedGreeting

end TemplateTree
