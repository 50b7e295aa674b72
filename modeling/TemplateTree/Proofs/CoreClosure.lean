import TemplateTree.Proofs.DeclaredEngines
import TemplateTree.Proofs.ProgramMeaning

/-
  Core trees stay core trees.

  Main declarations:
    * `Stage.KeepsCore`
    * `Erase.keepsCore`
    * `Catalogue.Filter.keepsCore`
    * `Chain.exists_core_foldl`
    * `compiler_keeps_core_trees`

  Erasing can remove any node of a core tree, and what it puts
  in the node's place is core.  The other filters keep the
  pieces of a tree in some form, and a tree with pieces is
  core.  So no filter fails on a core tree, and a generator
  that follows them does not fail either.
-/

------------------------------------------------------------
-- Filters
------------------------------------------------------------

namespace TemplateTree

/- A stage that succeeds on core trees with core trees. -/
def Stage.KeepsCore (stage : Stage Node Node) : Prop :=
  ∀ tree : Node,
    tree.toArg.IsCore →
      ∃ tree' : Node,
        (stage.run tree).result = .ok tree' ∧
          tree'.toArg.IsCore

/- A stage that keeps programs keeps core trees. -/
theorem Stage.KeepsProgram.keepsCore
    {stage : Stage Node Node}
    (hStage : stage.KeepsProgram) :
    stage.KeepsCore := by
  intro tree hTree
  rcases (Arg.exists_pieces?_iff tree.toArg).mpr hTree with
    ⟨pieces, hPieces⟩
  rcases hStage tree pieces hPieces with
    ⟨tree', pieces', hRun, hPieces', -⟩
  refine ⟨tree', hRun, ?_⟩
  exact (Arg.exists_pieces?_iff tree'.toArg).mp
    ⟨pieces', hPieces'⟩

namespace Erase

/- A core node is kept, or becomes the empty sequence. -/
theorem exists_finish
    (tags : TagSet)
    {tag : Tag}
    {args : List Arg}
    (hNode : Arg.IsCore (.node tag args)) :
    ∃ node,
      (pass tags).finish tag args = .ok node ∧
        node.toArg.IsCore := by
  unfold Pass.finish
  split
  · refine ⟨Node.empty, rfl, ?_⟩
    apply Arg.IsCore.sequence
    intro arg hArg
    cases hArg
  · exact ⟨⟨tag, args⟩, rfl, hNode⟩

/- Arguments that stay core each stay core together. -/
theorem exists_foldArgs
    {tags : TagSet}
    {args : List Arg}
    (hArgs :
      ∀ arg ∈ args,
        ∃ arg',
          (pass tags).foldArg arg = .ok arg' ∧ arg'.IsCore) :
    ∃ args',
      (pass tags).foldArgs args = .ok args' ∧
        ∀ arg' ∈ args', arg'.IsCore := by
  induction args with
  | nil =>
      refine ⟨[], ?_, by simp⟩
      rw [Pass.foldArgs]
  | cons arg args ih =>
      rw [List.forall_mem_cons] at hArgs
      rcases hArgs.1 with ⟨first, hFirst, hCore⟩
      rcases ih hArgs.2 with ⟨rest, hRest, hCores⟩
      refine ⟨first :: rest, ?_, ?_⟩
      · rw [Pass.foldArgs, hFirst, hRest]
        rfl
      · rw [List.forall_mem_cons]
        exact ⟨hCore, hCores⟩

/- A node is erased or kept after its arguments. -/
theorem exists_foldArg_node
    (tags : TagSet)
    {tag : Tag}
    {args args' : List Arg}
    (hArgs : (pass tags).foldArgs args = .ok args')
    (hNode : Arg.IsCore (.node tag args')) :
    ∃ arg',
      (pass tags).foldArg (.node tag args) = .ok arg' ∧
        arg'.IsCore := by
  have hRefuses : (pass tags).refuses tag = false := by
    simp [Pass.refuses, pass]
  rcases exists_finish tags hNode with
    ⟨node, hFinish, hCore⟩
  refine ⟨node.toArg, ?_, hCore⟩
  rw [Pass.foldArg, hRefuses, hArgs]
  simp [hFinish]

/- Erasing any tags, core tags too, keeps core trees. -/
theorem keepsCore
    (tags : TagSet) :
    (Catalogue.ofPass (pass tags)).KeepsCore := by
  have hFold :
      ∀ arg : Arg,
        arg.IsCore →
          ∃ arg',
            (pass tags).foldArg arg = .ok arg' ∧
              arg'.IsCore := by
    intro arg hArg
    have hText (text : String) :
        (pass tags).foldArgs [Arg.text text] =
          .ok [Arg.text text] :=
      Pass.foldArgs_eq_self
        ((pass tags).foldArg_of_mem_text text)
    induction hArg with
    | sequence hArgs ih =>
        rcases exists_foldArgs ih with
          ⟨args', hFold, hCores⟩
        exact exists_foldArg_node tags hFold
          (Arg.IsCore.sequence hCores)
    | static text =>
        exact exists_foldArg_node tags (hText text)
          (Arg.IsCore.static text)
    | dynamic hExpression =>
        exact exists_foldArg_node tags (hText _)
          (Arg.IsCore.dynamic hExpression)
    | block hCode =>
        exact exists_foldArg_node tags (hText _)
          (Arg.IsCore.block hCode)
  intro tree hTree
  rcases hFold tree.toArg hTree with ⟨arg', hArg, hCore⟩
  rw [Pass.foldArg_toArg, Except.map_eq_ok_iff] at hArg
  rcases hArg with ⟨tree', hRun, rfl⟩
  exact ⟨tree', hRun, hCore⟩

end Erase

namespace Catalogue

/- Every filter of the catalogue keeps core trees. -/
theorem Filter.keepsCore
    (filter : Filter) :
    (ofPass filter.pass).KeepsCore := by
  cases filter with
  | erase tags => exact Erase.keepsCore tags
  | _ =>
      apply Stage.KeepsProgram.keepsCore
      apply Filter.keepsProgram
      simp [Filter.pass, MergeStatic.pass, InlineDynamic.pass,
        Flatten.pass, ControlFlow.pass, ControlFlow.name,
        Validate.pass, Validate.name]

/- So do the stages of declared filters. -/
theorem keepsCore_of_builds
    {globals : Options}
    {decls : List DeclaredStage}
    {stages : List (Stage Node Node)}
    (hBuilds : EngineFile.Builds globals decls stages) :
    ∀ stage ∈ stages, stage.KeepsCore := by
  unfold EngineFile.Builds at hBuilds
  induction hBuilds with
  | nil => simp
  | cons hBuild hBuilds ih =>
      rw [List.forall_mem_cons]
      rcases exists_filter_of_build hBuild with
        ⟨filter, -, rfl⟩
      exact ⟨filter.keepsCore, ih⟩

end Catalogue

------------------------------------------------------------
-- Compilers
------------------------------------------------------------

/- A core tree passes through stages that keep core trees. -/
theorem Chain.exists_core_foldl
    {stages : List (Stage Node Node)}
    (hStages : ∀ stage ∈ stages, stage.KeepsCore)
    {before : Chain Node Node}
    {engine : String}
    {tree middle : Node}
    (hBefore : (before.run engine tree).result = .ok middle)
    (hMiddle : middle.toArg.IsCore) :
    ∃ tree' : Node,
      ((stages.foldl Chain.snoc before).run engine
          tree).result = .ok tree' ∧
        tree'.toArg.IsCore := by
  induction stages generalizing before middle with
  | nil => exact ⟨middle, hBefore, hMiddle⟩
  | cons stage stages ih =>
      rw [List.forall_mem_cons] at hStages
      rcases hStages.1 middle hMiddle with
        ⟨next, hNext, hCore⟩
      rw [List.foldl_cons]
      exact ih hStages.2
        (Chain.result_run_snoc hBefore hNext) hCore

/-
  A compiler, with whatever filters and options its file
  declares and with either generator, succeeds on each tree
  that passes the check.  After any number of its filters the
  tree still passes the check.
-/
theorem compiler_keeps_core_trees
    {file : EngineFile}
    {generator : Option String}
    {engine : Engine Node String}
    {tree checked : Node}
    (hCompiler : file.compiler generator = .ok engine)
    (hTree : Validate.pass.run tree = .ok checked) :
    ∃ (stages : List (Stage Node Node))
        (last : Stage Node String),
      EngineFile.Builds file.options file.filters stages ∧
        engine.chain =
          (stages.foldl Chain.snoc .nil).snoc last ∧
        (∀ count : Nat,
          ∃ between : Node,
            (((stages.take count).foldl Chain.snoc .nil).run
                engine.name tree).result = .ok between ∧
              Validate.pass.run between = .ok between) ∧
        ∃ program,
          (engine.run tree).result = .ok program := by
  rcases EngineFile.compiler_eq_ok_iff.mp hCompiler with
    ⟨stages, last, hFile, rfl⟩
  have hCore := (Validate.run_eq_ok_iff.mp hTree).2
  have hKeep := Catalogue.keepsCore_of_builds hFile.filters
  have hStart :
      ((Chain.nil : Chain Node Node).run file.name
        tree).result = .ok tree := by
    rw [Chain.run]
  have hBetween (count : Nat) :
      ∃ between : Node,
        (((stages.take count).foldl Chain.snoc .nil).run
            file.name tree).result = .ok between ∧
          between.toArg.IsCore := by
    apply Chain.exists_core_foldl _ hStart hCore
    intro stage hStage
    exact hKeep stage (List.mem_of_mem_take hStage)
  refine ⟨stages, last, hFile.filters, rfl, ?_, ?_⟩
  · intro count
    rcases hBetween count with ⟨between, hRun, hBetween⟩
    exact ⟨between, hRun,
      Validate.run_eq_ok_iff.mpr ⟨rfl, hBetween⟩⟩
  · rcases hBetween stages.length with
      ⟨between, hRun, hBetween⟩
    rw [List.take_length] at hRun
    rcases Catalogue.exists_generator_of_build hFile.last with
      ⟨g, -, rfl⟩
    rcases (g.exists_generate_iff between).mpr hBetween with
      ⟨program, hProgram⟩
    exact ⟨program, Chain.result_run_snoc hRun hProgram⟩

namespace BareProgram

/- Filters that erase a core tag and flatten what is left. -/
def file : EngineFile where
  name := "bare"
  options := NameMap.empty.insert "unwrap_single" (.bool true)
  filters :=
    [⟨"erase",
        NameMap.empty.insert "erase"
          (.list [.text "static", .text "sequence"])⟩,
      .named "flatten", .named "control-flow",
      .named "validate"]
  generator := .named "buffer"

def tree : Node :=
  Node.sequence
    [Node.static "a",
      Node.sequence
        [Node.dynamic " 1 ", Node.block "if x \x7b"]]

/- A tree of which nothing is left still has a program. -/
theorem bare_compiler_keeps_core_trees :
    ∃ engine,
      file.compiler (some "array") = .ok engine ∧
        Validate.pass.run tree = .ok tree ∧
        ∃ (stages : List (Stage Node Node))
            (last : Stage Node String),
          EngineFile.Builds file.options file.filters stages ∧
            engine.chain =
              (stages.foldl Chain.snoc .nil).snoc last ∧
            (∀ count : Nat,
              ∃ between : Node,
                (((stages.take count).foldl Chain.snoc
                    .nil).run engine.name tree).result =
                    .ok between ∧
                  Validate.pass.run between = .ok between) ∧
            ∃ program,
              (engine.run tree).result = .ok program := by
  have hBuilt :
      ∃ engine, file.compiler (some "array") = .ok engine :=
    ⟨_, rfl⟩
  rcases hBuilt with ⟨engine, hCompiler⟩
  have hTree : Validate.pass.run tree = .ok tree := by
    rfl
  exact
    ⟨engine, hCompiler, hTree,
      compiler_keeps_core_trees hCompiler hTree⟩

end BareProgram

end TemplateTree
