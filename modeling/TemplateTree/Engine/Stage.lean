import TemplateTree.Error

/-
  Stages and engines.

  Key definitions include:
    * `Stage`
    * `Chain`
    * `Run`
    * `Stage.run`
    * `Chain.run`

  A stage turns a value of one type into a value of another,
  or fails: a text into a tree, a tree into another one or
  into a program.  An engine is a stage made of stages that
  run one after another, so engines nest.  The first failure
  ends a run, and every engine around it adds its name and
  the position of the failing stage.
-/

------------------------------------------------------------
-- Stages
------------------------------------------------------------

namespace TemplateTree

mutual

/-
  A stage from one type to another.  A leaf computes its
  result directly, and may leave a note in the log when it
  is run.
-/
inductive Stage : Type → Type → Type 1 where
| leaf
    {a b : Type}
    (name : String)
    (note : Option String)
    (compute : a → Except CompileError b) :
    Stage a b
| engine
    {a b : Type}
    (name : String)
    (chain : Chain a b) :
    Stage a b

/- Stages that run one after another. -/
inductive Chain : Type → Type → Type 1 where
| nil
    {a : Type} :
    Chain a a
| snoc
    {a b c : Type}
    (before : Chain a b)
    (stage : Stage b c) :
    Chain a c

end

/- The name of a stage. -/
def Stage.name
    {a b : Type} :
    Stage a b → String
| .leaf name _ _ => name
| .engine name _ => name

namespace Chain

/- The number of stages in a chain. -/
def length
    {a b : Type} :
    Chain a b → Nat
| .nil => 0
| .snoc before _ => before.length + 1

/- The names of the stages in a chain, first to last. -/
def names
    {a b : Type} :
    Chain a b → List String
| .nil => []
| .snoc before stage => before.names ++ [stage.name]

end Chain

------------------------------------------------------------
-- Running
------------------------------------------------------------

/- The outcome of a run and the notes of the leaves that ran. -/
structure Run (α : Type) where
  log : List String
  result : Except CompileError α

mutual

/- Run a stage on a value. -/
def Stage.run
    {a b : Type} :
    Stage a b → a → Run b
| .leaf _ note compute, x => ⟨note.toList, compute x⟩
| .engine name chain, x => chain.run name x

/- Run the stages of an engine of a given name. -/
def Chain.run
    {a b : Type}
    (engine : String) :
    Chain a b → a → Run b
| .nil, x => ⟨[], .ok x⟩
| .snoc before stage, x =>
    match Chain.run engine before x with
    | ⟨log, .error error⟩ => ⟨log, .error error⟩
    | ⟨log, .ok middle⟩ =>
        let last := Stage.run stage middle
        ⟨log ++ last.log,
          last.result.mapError
            (.pipeline engine before.length stage.name)⟩

end

end TemplateTree
