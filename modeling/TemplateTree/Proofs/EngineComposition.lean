import TemplateTree.Proofs.CatalogueStages

/-
  Engines run their leaves one after another.

  Main declarations:
    * `Leaves`
    * `Leaves.feed`
    * `Leaves.run`
    * `Leaves.StopsAt`
    * `Stage.leaves`
    * `Stage.run_eq_run_leaves`
    * `Stage.Leads`
    * `engine_runs_its_leaves`

  However engines nest, what counts is the row of leaves from
  left to right.  A run feeds a value through them and stops
  at the first leaf that fails.  Nesting shows only in the
  layers around the error of that leaf, one for each engine
  on the way down to it.
-/

------------------------------------------------------------
-- Leaves In A Row
------------------------------------------------------------

namespace TemplateTree

/-
  What an engine adds to an error: its own name, the position
  of the stage that failed, and the name of that stage.
-/
structure Layer where
  engine : String
  position : Nat
  stage : String
deriving DecidableEq, Repr

/-
  A stage that computes its result directly, with the layers
  of the engines around it, outermost first.
-/
structure Leaf (a b : Type) where
  route : List Layer
  name : String
  note : Option String
  compute : a → Except CompileError b

/- Leaves, each of which takes what the one before it gives. -/
inductive Leaves : Type → Type → Type 1 where
| nil
    {a : Type} :
    Leaves a a
| cons
    {a b c : Type}
    (leaf : Leaf a b)
    (rest : Leaves b c) :
    Leaves a c

namespace Leaf

variable {a b : Type}

/- A leaf as a stage of its own. -/
def stage (leaf : Leaf a b) : Stage a b :=
  .leaf leaf.name leaf.note leaf.compute

/- The positions of the stages on the way down to a leaf. -/
def path (leaf : Leaf a b) : List Nat :=
  leaf.route.map Layer.position

/- A leaf with one more engine around it. -/
def under
    (layer : Layer)
    (leaf : Leaf a b) : Leaf a b :=
  { leaf with route := layer :: leaf.route }

/- A leaf without the engines around it. -/
def bare (leaf : Leaf a b) : Leaf a b :=
  { leaf with route := [] }

/- A leaf that leaves a note of its route when it is run. -/
def marked
    (mark : List Layer → Option String)
    (leaf : Leaf a b) : Leaf a b :=
  { leaf with note := mark leaf.route }

end Leaf

namespace Leaves

variable {a b c d : Type}

/- Two rows of leaves, one after the other. -/
def append
    {a b c : Type} :
    Leaves a b → Leaves b c → Leaves a c
| .nil, others => others
| .cons leaf rest, others => .cons leaf (rest.append others)

/-
  Change each leaf of a row.  A change keeps what a leaf takes
  and gives.
-/
def map
    (change : {a b : Type} → Leaf a b → Leaf a b)
    {a b : Type} :
    Leaves a b → Leaves a b
| .nil => .nil
| .cons leaf rest => .cons (change leaf) (rest.map change)

/- Whether each leaf of a row has a property. -/
def All
    (property : {a b : Type} → Leaf a b → Prop)
    {a b : Type} :
    Leaves a b → Prop
| .nil => True
| .cons leaf rest => property leaf ∧ rest.All property

/- The notes of the leaves in a row. -/
def notes
    {a b : Type} :
    Leaves a b → List String
| .nil => []
| .cons leaf rest => leaf.note.toList ++ rest.notes

/- The routes to the leaves in a row. -/
def routes
    {a b : Type} :
    Leaves a b → List (List Layer)
| .nil => []
| .cons leaf rest => leaf.route :: rest.routes

/-
  Feed a value through the leaves in a row, up to the first
  one that fails.
-/
def feed
    {a b : Type} :
    Leaves a b → a → Except CompileError b
| .nil, x => .ok x
| .cons leaf rest, x => (leaf.compute x).bind rest.feed

theorem map_append
    (change : {a b : Type} → Leaf a b → Leaf a b)
    (first : Leaves a b)
    (second : Leaves b c) :
    (first.append second).map change =
      (first.map change).append (second.map change) := by
  induction first with
  | nil => rfl
  | cons leaf rest ih => simp [append, map, ih]

theorem all_append
    (property : {a b : Type} → Leaf a b → Prop)
    (first : Leaves a b)
    (second : Leaves b c) :
    (first.append second).All property ↔
      first.All property ∧ second.All property := by
  induction first with
  | nil => simp [append, All]
  | cons leaf rest ih => simp [append, All, ih, and_assoc]

/- A change that keeps what leaves compute keeps the feed. -/
theorem feed_map
    (change : {a b : Type} → Leaf a b → Leaf a b)
    (hChange :
      ∀ {a b : Type} (leaf : Leaf a b),
        (change leaf).compute = leaf.compute)
    (leaves : Leaves a b)
    (x : a) :
    (leaves.map change).feed x = leaves.feed x := by
  induction leaves with
  | nil => rfl
  | cons leaf rest ih =>
      rw [map, feed, feed, hChange]
      cases leaf.compute x with
      | error error => rfl
      | ok y => exact ih y

theorem all_map
    (property : {a b : Type} → Leaf a b → Prop)
    (change : {a b : Type} → Leaf a b → Leaf a b)
    (leaves : Leaves a b) :
    (leaves.map change).All property ↔
      leaves.All fun leaf => property (change leaf) := by
  induction leaves with
  | nil => simp [map, All]
  | cons leaf rest ih => simp [map, All, ih]

theorem All.imp
    {property property' : {a b : Type} → Leaf a b → Prop}
    (hImp :
      ∀ {a b : Type} (leaf : Leaf a b),
        property leaf → property' leaf)
    {leaves : Leaves a b}
    (h : leaves.All property) :
    leaves.All property' := by
  induction leaves with
  | nil => exact trivial
  | cons leaf rest ih => exact ⟨hImp leaf h.1, ih h.2⟩

/- Marked leaves leave notes of their routes. -/
theorem notes_map_marked
    (mark : List Layer → Option String)
    (leaves : Leaves a b) :
    (leaves.map (Leaf.marked mark)).notes =
      leaves.routes.filterMap mark := by
  induction leaves with
  | nil => rfl
  | cons leaf rest ih =>
      rw [map, notes, routes, ih, List.filterMap_cons]
      cases hMark : mark leaf.route with
      | none => simp [Leaf.marked, hMark]
      | some note => simp [Leaf.marked, hMark]

theorem map_map
    (change change' : {a b : Type} → Leaf a b → Leaf a b)
    (leaves : Leaves a b) :
    (leaves.map change).map change' =
      leaves.map fun leaf => change' (change leaf) := by
  induction leaves with
  | nil => rfl
  | cons leaf rest ih => simp [map, ih]

end Leaves

------------------------------------------------------------
-- Runs One After Another
------------------------------------------------------------

/- Wrap an error in one layer. -/
def Layer.wrap
    (layer : Layer)
    (cause : CompileError) : CompileError :=
  .pipeline layer.engine layer.position layer.stage cause

/- Wrap an error in layers, the first one outermost. -/
def CompileError.wrapped
    (cause : CompileError)
    (route : List Layer) : CompileError :=
  route.foldr Layer.wrap cause

namespace CompileError

@[simp] theorem wrapped_nil
    (cause : CompileError) :
    cause.wrapped [] = cause := rfl

@[simp] theorem wrapped_cons
    (cause : CompileError)
    (layer : Layer)
    (route : List Layer) :
    cause.wrapped (layer :: route) =
      layer.wrap (cause.wrapped route) := rfl

/- Layers are taken off to find the root cause. -/
theorem rootCause_wrapped
    (cause : CompileError)
    (route : List Layer) :
    (cause.wrapped route).rootCause = cause.rootCause := by
  induction route with
  | nil => rfl
  | cons layer route ih => exact ih

/- The positions of layers come before those of the cause. -/
theorem positionPath_wrapped
    (cause : CompileError)
    (route : List Layer) :
    (cause.wrapped route).positionPath =
      route.map Layer.position ++ cause.positionPath := by
  induction route with
  | nil => rfl
  | cons layer route ih =>
      rw [wrapped_cons, Layer.wrap, positionPath, ih]
      rfl

/- A root cause has no positions left. -/
theorem positionPath_rootCause
    (error : CompileError) :
    error.rootCause.positionPath = [] := by
  induction error with
  | pipeline engine position stage source ih => exact ih
  | _ => rfl

end CompileError

namespace Run

variable {α β γ : Type}

/- Go on with the result of a run, unless it failed. -/
def andThen
    (run : Run α)
    (next : α → Run β) : Run β :=
  match run.result with
  | .error error => ⟨run.log, .error error⟩
  | .ok x => ⟨run.log ++ (next x).log, (next x).result⟩

/- Change the error of a run that failed. -/
def mapError
    (run : Run α)
    (change : CompileError → CompileError) : Run α :=
  ⟨run.log, run.result.mapError change⟩

@[simp] theorem andThen_ok
    (log : List String)
    (x : α)
    (next : α → Run β) :
    (⟨log, .ok x⟩ : Run α).andThen next =
      ⟨log ++ (next x).log, (next x).result⟩ := rfl

@[simp] theorem andThen_error
    (log : List String)
    (error : CompileError)
    (next : α → Run β) :
    (⟨log, .error error⟩ : Run α).andThen next =
      ⟨log, .error error⟩ := rfl

theorem andThen_assoc
    (run : Run α)
    (next : α → Run β)
    (last : β → Run γ) :
    (run.andThen next).andThen last =
      run.andThen fun x => (next x).andThen last := by
  rcases run with ⟨log, error | x⟩
  · rfl
  · rw [andThen_ok, andThen_ok]
    rcases next x with ⟨log', error | y⟩
    · rfl
    · simp

theorem mapError_andThen
    (run : Run α)
    (next : α → Run β)
    (change : CompileError → CompileError) :
    (run.andThen next).mapError change =
      (run.mapError change).andThen fun x =>
        (next x).mapError change := by
  rcases run with ⟨log, error | x⟩
  · rfl
  · rfl

end Run

namespace Leaves

variable {a b c d : Type}

/-
  Run the leaves in a row one after another.  The error of a
  leaf is wrapped in the layers of its route.
-/
def run
    {a b : Type} :
    Leaves a b → a → Run b
| .nil, x => ⟨[], .ok x⟩
| .cons leaf rest, x =>
    Run.andThen
      ⟨leaf.note.toList,
        (leaf.compute x).mapError (·.wrapped leaf.route)⟩
      rest.run

/- Running two rows is running one and then the other. -/
theorem run_append
    (first : Leaves a b)
    (second : Leaves b c)
    (x : a) :
    (first.append second).run x =
      (first.run x).andThen second.run := by
  induction first with
  | nil => simp [append, run]
  | cons leaf rest ih =>
      rw [append, run, run, Run.andThen_assoc]
      congr 1
      funext y
      exact ih second y

/- One more engine around all leaves is one more layer. -/
theorem run_map_under
    (layer : Layer)
    (leaves : Leaves a b)
    (x : a) :
    (leaves.map (Leaf.under layer)).run x =
      (leaves.run x).mapError layer.wrap := by
  induction leaves with
  | nil => rfl
  | cons leaf rest ih =>
      rw [map, run, run, Run.mapError_andThen]
      congr 1
      · simp [Run.mapError, Leaf.under, Except.mapError_mapError]
      · funext y
        exact ih y

/-
  A row stops at a leaf: the leaves before it give a value on
  which it fails.
-/
structure StopsAt
    {a b c d : Type}
    (leaves : Leaves a b)
    (x : a)
    (before : Leaves a c)
    (leaf : Leaf c d)
    (cause : CompileError) : Prop where
  split :
    ∃ after, leaves = before.append (.cons leaf after)
  fails :
    ∃ middle,
      before.feed x = .ok middle ∧
        leaf.compute middle = .error cause

/- A row lets a value through, or stops at its first failure. -/
theorem feed_ok_or_stopsAt
    (leaves : Leaves a b)
    (x : a) :
    (∃ y, leaves.feed x = .ok y) ∨
      ∃ (c d : Type) (before : Leaves a c) (leaf : Leaf c d)
        (cause : CompileError),
        leaves.StopsAt x before leaf cause := by
  induction leaves with
  | nil => exact Or.inl ⟨x, rfl⟩
  | cons leaf rest ih =>
      cases hCompute : leaf.compute x with
      | error cause =>
          exact Or.inr ⟨_, _, .nil, leaf, cause,
            ⟨rest, rfl⟩, ⟨x, rfl, hCompute⟩⟩
      | ok y =>
          rcases ih y with
            ⟨z, hFeed⟩ | ⟨c, d, before, last, cause, hStop⟩
          · refine Or.inl ⟨z, ?_⟩
            rw [feed, hCompute]
            exact hFeed
          · rcases hStop with
              ⟨⟨after, rfl⟩, ⟨middle, hBefore, hCause⟩⟩
            refine Or.inr ⟨c, d, .cons leaf before, last, cause,
              ⟨after, rfl⟩, ⟨middle, ?_, hCause⟩⟩
            rw [feed, hCompute]
            exact hBefore

/- All leaves run if a value is let through. -/
theorem run_of_feed
    {leaves : Leaves a b}
    {x : a}
    {y : b}
    (h : leaves.feed x = .ok y) :
    leaves.run x = ⟨leaves.notes, .ok y⟩ := by
  induction leaves with
  | nil =>
      cases h
      rfl
  | cons leaf rest ih =>
      rcases Except.bind_eq_ok_iff.mp h with
        ⟨middle, hCompute, hRest⟩
      rw [run, hCompute, notes]
      simp [ih hRest]

/- The leaves up to a failure run, and no others. -/
theorem run_of_stopsAt
    {leaves : Leaves a b}
    {x : a}
    {before : Leaves a c}
    {leaf : Leaf c d}
    {cause : CompileError}
    (h : leaves.StopsAt x before leaf cause) :
    leaves.run x =
      ⟨before.notes ++ leaf.note.toList,
        .error (cause.wrapped leaf.route)⟩ := by
  rcases h with ⟨⟨after, rfl⟩, ⟨middle, hBefore, hCause⟩⟩
  rw [run_append, run_of_feed hBefore, Run.andThen_ok, run,
    hCause]
  rfl

/- A failure stays where it is if leaves compute as before. -/
theorem StopsAt.map
    {leaves : Leaves a b}
    {x : a}
    {before : Leaves a c}
    {leaf : Leaf c d}
    {cause : CompileError}
    (h : leaves.StopsAt x before leaf cause)
    {change : {a b : Type} → Leaf a b → Leaf a b}
    (hChange :
      ∀ {a b : Type} (leaf : Leaf a b),
        (change leaf).compute = leaf.compute) :
    (leaves.map change).StopsAt x (before.map change)
      (change leaf) cause := by
  rcases h with ⟨⟨after, rfl⟩, ⟨middle, hBefore, hCause⟩⟩
  refine ⟨⟨after.map change, map_append _ _ _⟩, middle, ?_, ?_⟩
  · rw [feed_map change hChange, hBefore]
  · rw [hChange, hCause]

/- The root cause of a run is that of the value fed through. -/
theorem rootCause_run
    (leaves : Leaves a b)
    (x : a) :
    (leaves.run x).result.mapError CompileError.rootCause =
      (leaves.feed x).mapError CompileError.rootCause := by
  induction leaves with
  | nil => rfl
  | cons leaf rest ih =>
      rw [run, feed]
      cases leaf.compute x with
      | error cause =>
          simp [CompileError.rootCause_wrapped]
      | ok y => exact ih y

end Leaves

------------------------------------------------------------
-- The Leaves Of A Stage
------------------------------------------------------------

mutual

/- The leaves of a stage from left to right. -/
def Stage.leaves
    {a b : Type} :
    Stage a b → Leaves a b
| .leaf name note compute => .cons ⟨[], name, note, compute⟩ .nil
| .engine name chain => chain.leaves name

/- The leaves of the stages of an engine of a given name. -/
def Chain.leaves
    {a b : Type}
    (engine : String) :
    Chain a b → Leaves a b
| .nil => .nil
| .snoc before stage =>
    (Chain.leaves engine before).append
      ((Stage.leaves stage).map
        (Leaf.under ⟨engine, before.length, stage.name⟩))

end

mutual

/- A stage whose leaves all leave notes of their routes. -/
def Stage.marked
    {a b : Type}
    (mark : List Layer → Option String) :
    Stage a b → Stage a b
| .leaf name _ compute => .leaf name (mark []) compute
| .engine name chain => .engine name (chain.marked name mark)

/- The stages of an engine with notes of the routes to leaves. -/
def Chain.marked
    {a b : Type}
    (engine : String)
    (mark : List Layer → Option String) :
    Chain a b → Chain a b
| .nil => .nil
| .snoc before stage =>
    .snoc (Chain.marked engine mark before)
      (Stage.marked
        (fun route =>
          mark (⟨engine, before.length, stage.name⟩ :: route))
        stage)

end

namespace Engine

variable {a b : Type}

/- The leaves of an engine from left to right. -/
def leaves (engine : Engine a b) : Leaves a b :=
  engine.chain.leaves engine.name

/- An engine whose leaves all leave notes of their routes. -/
def marked
    (mark : List Layer → Option String)
    (engine : Engine a b) : Engine a b :=
  { engine with chain := engine.chain.marked engine.name mark }

end Engine

/- A stage added at the end runs after the others. -/
theorem Chain.run_snoc
    {a b c : Type}
    (engine : String)
    (before : Chain a b)
    (stage : Stage b c)
    (x : a) :
    (before.snoc stage).run engine x =
      (before.run engine x).andThen fun middle =>
        (stage.run middle).mapError
          (.pipeline engine before.length stage.name) := by
  rw [Chain.run]
  rcases before.run engine x with ⟨log, error | middle⟩
  · rfl
  · rfl

/- Nothing is added to the result of a stage that succeeds. -/
theorem Chain.result_run_snoc
    {a b c : Type}
    {engine : String}
    {before : Chain a b}
    {stage : Stage b c}
    {x : a}
    {middle : b}
    {y : c}
    (hBefore : (before.run engine x).result = .ok middle)
    (hStage : (stage.run middle).result = .ok y) :
    ((before.snoc stage).run engine x).result = .ok y := by
  rw [Chain.run_snoc]
  unfold Run.andThen
  rw [hBefore]
  simp only [Run.mapError]
  rw [hStage]
  rfl

mutual

/- Running a stage is running its leaves. -/
theorem Stage.run_eq_run_leaves :
    {a b : Type} →
    (stage : Stage a b) →
    (x : a) →
    stage.run x = stage.leaves.run x
| _, _, .leaf name note compute, x => by
    rw [Stage.run, Stage.leaves, Leaves.run]
    dsimp only
    cases compute x with
    | error cause => rfl
    | ok y => simp [Leaves.run]
| _, _, .engine name chain, x => by
    rw [Stage.run, Stage.leaves, chain.run_eq_run_leaves name x]

/- Running the stages of an engine is running their leaves. -/
theorem Chain.run_eq_run_leaves :
    {a b : Type} →
    (chain : Chain a b) →
    (engine : String) →
    (x : a) →
    chain.run engine x = (chain.leaves engine).run x
| _, _, .nil, engine, x => by
    rw [Chain.run, Chain.leaves, Leaves.run]
| _, _, .snoc before stage, engine, x => by
    rw [Chain.run_snoc, Chain.leaves, Leaves.run_append,
      before.run_eq_run_leaves engine x]
    congr 1
    funext middle
    rw [Leaves.run_map_under, stage.run_eq_run_leaves middle]
    rfl

end

------------------------------------------------------------
-- Marked Leaves
------------------------------------------------------------

@[simp] theorem Stage.name_marked
    {a b : Type}
    (mark : List Layer → Option String)
    (stage : Stage a b) :
    (stage.marked mark).name = stage.name := by
  cases stage with
  | leaf name note compute => rfl
  | engine name chain => rfl

@[simp] theorem Chain.length_marked
    (engine : String)
    (mark : List Layer → Option String) :
    {a b : Type} →
    (chain : Chain a b) →
    (chain.marked engine mark).length = chain.length
| _, _, .nil => rfl
| _, _, .snoc before stage => by
    rw [Chain.marked, Chain.length, Chain.length,
      Chain.length_marked engine mark before]

mutual

/- The leaves of a marked stage are its leaves, marked. -/
theorem Stage.leaves_marked :
    {a b : Type} →
    (stage : Stage a b) →
    (mark : List Layer → Option String) →
    (stage.marked mark).leaves =
      stage.leaves.map (Leaf.marked mark)
| _, _, .leaf name note compute, mark => rfl
| _, _, .engine name chain, mark => by
    rw [Stage.marked, Stage.leaves, Stage.leaves,
      chain.leaves_marked name mark]

theorem Chain.leaves_marked :
    {a b : Type} →
    (chain : Chain a b) →
    (engine : String) →
    (mark : List Layer → Option String) →
    (chain.marked engine mark).leaves engine =
      (chain.leaves engine).map (Leaf.marked mark)
| _, _, .nil, engine, mark => rfl
| _, _, .snoc before stage, engine, mark => by
    rw [Chain.marked, Chain.leaves, Chain.leaves,
      before.leaves_marked engine mark,
      Leaves.map_append, stage.leaves_marked,
      Leaves.map_map, Leaves.map_map, Chain.length_marked,
      Stage.name_marked]
    rfl

end

------------------------------------------------------------
-- The Way Down To A Leaf
------------------------------------------------------------

/- A stage between whatever types. -/
structure SomeStage where
  input : Type
  output : Type
  stage : Stage input output

/- The stages of a chain, first to last. -/
def Chain.stages
    {a b : Type} :
    Chain a b → List SomeStage
| .nil => []
| .snoc before stage => before.stages ++ [⟨_, _, stage⟩]

/-
  The layers on the way from a stage down to another one: an
  engine gives its name, a position, and what it lists there
  as the name of a stage.
-/
inductive Stage.Leads :
    {a b c d : Type} →
      Stage a b → List Layer → Stage c d → Prop where
| here
    {a b : Type}
    (stage : Stage a b) :
    Leads stage [] stage
| down
    {a b c d e f : Type}
    {name : String}
    {chain : Chain a b}
    {position : Nat}
    {stage : Stage c d}
    {listed : String}
    {route : List Layer}
    {target : Stage e f}
    (hStage : chain.stages[position]? = some ⟨c, d, stage⟩)
    (hListed : chain.names[position]? = some listed)
    (hRoute : Leads stage route target) :
    Leads (.engine name chain) (⟨name, position, listed⟩ :: route)
      target

theorem Chain.length_stages :
    {a b : Type} →
    (chain : Chain a b) →
    chain.stages.length = chain.length
| _, _, .nil => rfl
| _, _, .snoc before stage => by
    simp [Chain.stages, Chain.length, before.length_stages]

theorem Chain.length_names :
    {a b : Type} →
    (chain : Chain a b) →
    chain.names.length = chain.length
| _, _, .nil => rfl
| _, _, .snoc before stage => by
    simp [Chain.names, Chain.length, before.length_names]

/- A way down stays open when a stage is added at the end. -/
theorem Stage.Leads.snoc
    {a b c d e : Type}
    {name : String}
    {before : Chain a b}
    {layer : Layer}
    {route : List Layer}
    {target : Stage d e}
    (h : Leads (.engine name before) (layer :: route) target)
    (stage : Stage b c) :
    Leads (.engine name (before.snoc stage)) (layer :: route)
      target := by
  cases h with
  | down hStage hListed hRoute =>
      refine Leads.down ?_ ?_ hRoute
      · rw [Chain.stages, List.getElem?_append_left, hStage]
        exact (List.getElem?_eq_some_iff.mp hStage).1
      · rw [Chain.names, List.getElem?_append_left, hListed]
        exact (List.getElem?_eq_some_iff.mp hListed).1

/- The last stage of an engine stands at the last position. -/
theorem Stage.Leads.last
    {a b c d e : Type}
    {name : String}
    {before : Chain a b}
    {stage : Stage b c}
    {route : List Layer}
    {target : Stage d e}
    (h : Leads stage route target) :
    Leads (.engine name (before.snoc stage))
      (⟨name, before.length, stage.name⟩ :: route) target := by
  refine Leads.down ?_ ?_ h
  · rw [Chain.stages, ← before.length_stages,
      List.getElem?_concat_length]
  · rw [Chain.names, ← before.length_names,
      List.getElem?_concat_length]

mutual

/- The route of each leaf of a stage leads down to it. -/
theorem Stage.all_leaves_lead :
    {a b : Type} →
    (stage : Stage a b) →
    stage.leaves.All fun leaf =>
      stage.Leads leaf.route leaf.stage
| _, _, .leaf name note compute =>
    ⟨Stage.Leads.here _, trivial⟩
| _, _, .engine name chain => by
    rw [Stage.leaves]
    refine Leaves.All.imp ?_ (chain.all_leaves_lead name)
    rintro c d leaf ⟨layer, route, hRoute, hLeads⟩
    rw [hRoute]
    exact hLeads

theorem Chain.all_leaves_lead :
    {a b : Type} →
    (chain : Chain a b) →
    (name : String) →
    (chain.leaves name).All fun leaf =>
      ∃ layer route,
        leaf.route = layer :: route ∧
          (Stage.engine name chain).Leads (layer :: route)
            leaf.stage
| _, _, .nil, name => trivial
| _, _, .snoc before stage, name => by
    rw [Chain.leaves, Leaves.all_append, Leaves.all_map]
    constructor
    · refine Leaves.All.imp ?_ (before.all_leaves_lead name)
      rintro c d leaf ⟨layer, route, hRoute, hLeads⟩
      exact ⟨layer, route, hRoute, hLeads.snoc stage⟩
    · refine Leaves.All.imp ?_ stage.all_leaves_lead
      intro c d leaf hLeads
      exact ⟨_, _, rfl, hLeads.last⟩

end

------------------------------------------------------------
-- Engines
------------------------------------------------------------

namespace CompileError

/- Layers do not hide the stage that an error names. -/
theorem BlamedOn.failingStage?_wrapped
    {name : String}
    {cause : CompileError}
    (h : cause.BlamedOn name)
    (route : List Layer) :
    (cause.wrapped route).failingStage? = some name := by
  have hFrom :
      ∀ wrapped,
        failingStageFrom wrapped (cause.wrapped route) =
          some name := by
    induction route with
    | nil => exact h.failingStageFrom_eq
    | cons layer route ih =>
        intro wrapped
        exact ih (some layer.stage)
  exact hFrom none

end CompileError

namespace Engine

variable {a b c d : Type}

/- Running an engine is running its leaves. -/
theorem run_eq_run_leaves
    (engine : Engine a b)
    (x : a) :
    engine.run x = engine.leaves.run x :=
  engine.chain.run_eq_run_leaves engine.name x

/- Marks change notes and nothing else. -/
theorem leaves_marked
    (engine : Engine a b)
    (mark : List Layer → Option String) :
    (engine.marked mark).leaves =
      engine.leaves.map (Leaf.marked mark) :=
  engine.chain.leaves_marked engine.name mark

/- The route of a leaf at which an engine stops leads to it. -/
theorem leads_of_stopsAt
    {engine : Engine a b}
    {x : a}
    {before : Leaves a c}
    {leaf : Leaf c d}
    {cause : CompileError}
    (h : engine.leaves.StopsAt x before leaf cause) :
    engine.toStage.Leads leaf.route leaf.stage := by
  have hAll := engine.toStage.all_leaves_lead
  rcases h.split with ⟨after, hLeaves⟩
  rw [show engine.toStage.leaves = engine.leaves from rfl,
    hLeaves, Leaves.all_append] at hAll
  exact hAll.2.1

end Engine

/-
  An engine, its stages nested to any depth, feeds a value
  through its leaves from left to right.  Either each of them
  lets it through, or there is a first one that fails.

  In the first case all leaves run, once and in order, and the
  last output is the result.  In the second no leaf runs after
  the one that fails, and its error comes back in the layers
  of the engines that lead down to it.  A leaf that itself
  hands on the report of some engine has that report taken
  apart as well; any other error is the root cause as it
  stands.  The leaves of the catalogue give their own names.

  Whatever an engine's notes, marks at the routes of leaves
  tell which leaves ran.  Grouping the same leaves in another
  way changes neither the output nor the root cause.
-/
theorem engine_runs_its_leaves
    {a b : Type}
    (engine : Engine a b)
    (x : a) :
    ((∃ y, engine.leaves.feed x = .ok y) ∨
        ∃ (c d : Type) (before : Leaves a c) (leaf : Leaf c d)
          (cause : CompileError),
          engine.leaves.StopsAt x before leaf cause) ∧
      (∀ y,
        engine.leaves.feed x = .ok y →
          engine.run x = ⟨engine.leaves.notes, .ok y⟩ ∧
            ∀ mark,
              (engine.marked mark).run x =
                ⟨engine.leaves.routes.filterMap mark, .ok y⟩) ∧
      (∀ (c d : Type) (before : Leaves a c) (leaf : Leaf c d)
          (cause : CompileError),
        engine.leaves.StopsAt x before leaf cause →
          ∃ error,
            engine.run x =
                ⟨before.notes ++ leaf.note.toList,
                  .error error⟩ ∧
              (∀ mark,
                (engine.marked mark).run x =
                  ⟨(before.routes ++ [leaf.route]).filterMap mark,
                    .error error⟩) ∧
              error = cause.wrapped leaf.route ∧
              engine.toStage.Leads leaf.route leaf.stage ∧
              error.rootCause = cause.rootCause ∧
              error.positionPath =
                leaf.path ++ cause.positionPath ∧
              (cause.rootCause = cause →
                error.rootCause = cause ∧
                  error.positionPath = leaf.path) ∧
              (leaf.stage.Registered →
                error.rootCause = cause ∧
                  error.positionPath = leaf.path ∧
                  error.failingStage? = some leaf.name)) ∧
      ∀ engine' : Engine a b,
        engine'.leaves.map Leaf.bare =
            engine.leaves.map Leaf.bare →
          (engine'.run x).result.mapError
              CompileError.rootCause =
            (engine.run x).result.mapError
              CompileError.rootCause := by
  refine ⟨engine.leaves.feed_ok_or_stopsAt x, ?_, ?_, ?_⟩
  · intro y hFeed
    refine ⟨?_, ?_⟩
    · rw [engine.run_eq_run_leaves, Leaves.run_of_feed hFeed]
    · intro mark
      have hMarked :
          (engine.leaves.map (Leaf.marked mark)).feed x =
            .ok y := by
        rw [Leaves.feed_map (Leaf.marked mark) (fun _ => rfl),
          hFeed]
      rw [Engine.run_eq_run_leaves, engine.leaves_marked,
        Leaves.run_of_feed hMarked, Leaves.notes_map_marked]
  · intro c d before leaf cause hStop
    have hPlain :
        cause.rootCause = cause →
          (cause.wrapped leaf.route).rootCause = cause ∧
            (cause.wrapped leaf.route).positionPath =
              leaf.path := by
      intro hCause
      have hPath := cause.positionPath_rootCause
      rw [hCause] at hPath
      rw [CompileError.rootCause_wrapped,
        CompileError.positionPath_wrapped, hPath,
        List.append_nil]
      exact ⟨hCause, rfl⟩
    refine ⟨cause.wrapped leaf.route, ?_, ?_, rfl,
      Engine.leads_of_stopsAt hStop,
      cause.rootCause_wrapped leaf.route,
      cause.positionPath_wrapped leaf.route, hPlain, ?_⟩
    · rw [engine.run_eq_run_leaves, Leaves.run_of_stopsAt hStop]
    · intro mark
      have hMarked :
          (engine.leaves.map (Leaf.marked mark)).StopsAt x
            (before.map (Leaf.marked mark)) (leaf.marked mark)
            cause :=
        hStop.map (fun _ => rfl)
      rw [Engine.run_eq_run_leaves, engine.leaves_marked,
        Leaves.run_of_stopsAt hMarked, Leaves.notes_map_marked,
        List.filterMap_append]
      cases hMark : mark leaf.route <;>
        simp [Leaf.marked, hMark]
    · intro hRegistered
      rcases hStop.fails with ⟨middle, -, hCause⟩
      have hBlamed : cause.BlamedOn leaf.name :=
        hRegistered.blamedOn hCause
      rcases hPlain hBlamed.rootCause_eq with ⟨hRoot, hPath⟩
      exact ⟨hRoot, hPath,
        hBlamed.failingStage?_wrapped leaf.route⟩
  · intro engine' hLeaves
    rw [engine'.run_eq_run_leaves, engine.run_eq_run_leaves,
      Leaves.rootCause_run, Leaves.rootCause_run,
      ← Leaves.feed_map Leaf.bare (fun _ => rfl) engine'.leaves x,
      hLeaves, Leaves.feed_map Leaf.bare (fun _ => rfl)]

namespace NestedCheck

/- A stage that hands a tree on and notes its own name. -/
def probe (name : String) : Stage Node Node :=
  .leaf name (some name) .ok

/- Merging and checking, in an engine of their own. -/
def inner : Engine Node Node where
  name := "inner"
  chain :=
    (Chain.nil.snoc (Catalogue.ofPass MergeStatic.pass)).snoc
      (Catalogue.ofPass Validate.pass)

/- The inner engine between two probes. -/
def outer : Engine Node Node where
  name := "outer"
  chain :=
    ((Chain.nil.snoc (probe "first")).snoc inner.toStage).snoc
      (probe "last")

/- The same leaves in one engine. -/
def flat : Engine Node Node where
  name := "flat"
  chain :=
    (((Chain.nil.snoc (probe "first")).snoc
      (Catalogue.ofPass MergeStatic.pass)).snoc
        (Catalogue.ofPass Validate.pass)).snoc (probe "last")

/- The check as a leaf of the outer engine. -/
def check : Leaf Node Node where
  route := [⟨"outer", 1, "inner"⟩, ⟨"inner", 1, "validate"⟩]
  name := "validate"
  note := none
  compute := Validate.pass.run

/- The stages ahead of the check. -/
def ahead : Chain Node Node :=
  (Chain.nil.snoc (probe "first")).snoc
    (.engine "inner"
      (Chain.nil.snoc (Catalogue.ofPass MergeStatic.pass)))

/-
  The empty tree passes all leaves.  A node of a foreign tag
  is refused by the check at position 1 of the engine at
  position 1, and by the same check in one engine.
-/
theorem outer_runs_its_leaves :
    outer.run Node.empty =
        ⟨["first", "last"], .ok Node.empty⟩ ∧
      check.stage.Registered ∧
      (∃ error,
        outer.run ⟨"include", []⟩ = ⟨["first"], .error error⟩ ∧
          error.rootCause =
            Validate.pass.rejection ⟨"include", []⟩ ∧
          error.positionPath = [1, 1] ∧
          error.failingStage? = some "validate") ∧
      (flat.run ⟨"include", []⟩).result.mapError
          CompileError.rootCause =
        (outer.run ⟨"include", []⟩).result.mapError
          CompileError.rootCause := by
  have hCheck : check.stage.Registered :=
    @Stage.Registered.filter "validate" NameMap.empty
      NameMap.empty _ rfl
  have hStop :
      outer.leaves.StopsAt ⟨"include", []⟩
        (ahead.leaves "outer") check
        (Validate.pass.rejection ⟨"include", []⟩) :=
    ⟨⟨_, rfl⟩, ⟨_, rfl, rfl⟩⟩
  have hForeign := engine_runs_its_leaves outer ⟨"include", []⟩
  refine ⟨?_, hCheck, ?_, ?_⟩
  · exact
      ((engine_runs_its_leaves outer Node.empty).2.1 _ rfl).1
  · rcases hForeign.2.2.1 _ _ _ _ _ hStop with
      ⟨error, hRun, -, -, -, -, -, -, hNamed⟩
    rcases hNamed hCheck with ⟨hRoot, hPath, hStage⟩
    exact ⟨error, hRun, hRoot, hPath, hStage⟩
  · exact hForeign.2.2.2 flat rfl

end NestedCheck

end TemplateTree
