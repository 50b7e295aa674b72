import TemplateTree.Literal
import TemplateTree.NameMap
import TemplateTree.Text.Quoted

/-
  Template trees.

  Key definitions include:
    * `Tag`
    * `CoreTag`
    * `Tag.core?`
    * `Arg`
    * `Node`
    * `Node.depth`
    * `Node.deeperThan`
    * `Node.display`

  A node is a tag with arguments, and an argument is a
  literal or a nested node.  Any text is a tag; four of them
  form the core vocabulary that programs are generated from.
-/

------------------------------------------------------------
-- Tags
------------------------------------------------------------

namespace TemplateTree

/- The name of a kind of node. -/
abbrev Tag := String

/- The kinds of node that rendering and generation understand. -/
inductive CoreTag where
| sequence
| static
| dynamic
| block
deriving DecidableEq, Repr

/- The tag of a core kind of node. -/
def CoreTag.name : CoreTag → Tag
| .sequence => "sequence"
| .static => "static"
| .dynamic => "dynamic"
| .block => "block"

namespace Tag

/- The core kind that a tag names. -/
def core? (tag : Tag) : Option CoreTag :=
  if tag = CoreTag.sequence.name then some .sequence
  else if tag = CoreTag.static.name then some .static
  else if tag = CoreTag.dynamic.name then some .dynamic
  else if tag = CoreTag.block.name then some .block
  else none

/- Whether a tag belongs to the core vocabulary. -/
def isCore (tag : Tag) : Bool :=
  (core? tag).isSome

/- A tag names a core kind exactly when it is its name. -/
theorem core?_eq_some_iff
    {tag : Tag}
    {kind : CoreTag} :
    core? tag = some kind ↔ tag = kind.name := by
  constructor
  · intro h
    unfold core? at h
    split at h
    · next hTag => cases h; exact hTag
    · split at h
      · next hTag => cases h; exact hTag
      · split at h
        · next hTag => cases h; exact hTag
        · split at h
          · next hTag => cases h; exact hTag
          · cases h
  · intro h
    subst h
    cases kind <;> rfl

/- Conditional content: a condition, a branch, an else branch. -/
def cond : Tag := "if"

/- Repeated content: a header and a body. -/
def loop : Tag := "loop"

/- Content that is never rendered. -/
def comment : Tag := "comment"

end Tag

/- A set of tags, each listed once in increasing order. -/
abbrev TagSet := NameMap Unit

namespace TagSet

/- The set of the tags in a list. -/
def ofList (tags : List Tag) : TagSet :=
  NameMap.ofList (tags.map fun tag => (tag, ()))

/- The tags of a set in increasing order. -/
def toList (set : TagSet) : List Tag :=
  set.keys

/- The tags of one set that are missing from another. -/
def diff (set other : TagSet) : TagSet :=
  set.filterNames fun tag => !other.contains tag

/- The tags of the core vocabulary. -/
def core : TagSet :=
  ofList
    ([.sequence, .static, .dynamic, .block].map CoreTag.name)

end TagSet

------------------------------------------------------------
-- Nodes And Arguments
------------------------------------------------------------

/- One argument of a node: a literal, or a nested node. -/
inductive Arg where
| literal (value : Literal)
| node (tag : Tag) (args : List Arg)
deriving Repr

/- A template tree: a tag with its arguments in order. -/
structure Node where
  tag : Tag
  args : List Arg
deriving Repr

/- A node in argument position. -/
def Node.toArg (node : Node) : Arg :=
  .node node.tag node.args

namespace Arg

mutual

/- Decide whether two arguments are equal. -/
def decEq : (a b : Arg) → Decidable (a = b)
| .literal x, .literal y =>
    if h : x = y then .isTrue (by rw [h])
    else .isFalse (by intro hEq; cases hEq; exact h rfl)
| .literal _, .node _ _ => .isFalse (by intro hEq; cases hEq)
| .node _ _, .literal _ => .isFalse (by intro hEq; cases hEq)
| .node t xs, .node u ys =>
    if h : t = u then
      match decEqList xs ys with
      | .isTrue hArgs => .isTrue (by rw [h, hArgs])
      | .isFalse hArgs =>
          .isFalse (by intro hEq; cases hEq; exact hArgs rfl)
    else .isFalse (by intro hEq; cases hEq; exact h rfl)

/- Decide whether two lists of arguments are equal. -/
def decEqList : (xs ys : List Arg) → Decidable (xs = ys)
| [], [] => .isTrue rfl
| [], _ :: _ => .isFalse (by intro hEq; cases hEq)
| _ :: _, [] => .isFalse (by intro hEq; cases hEq)
| x :: xs, y :: ys =>
    match decEq x y with
    | .isTrue h =>
        match decEqList xs ys with
        | .isTrue hs => .isTrue (by rw [h, hs])
        | .isFalse hs =>
            .isFalse (by intro hEq; cases hEq; exact hs rfl)
    | .isFalse h =>
        .isFalse (by intro hEq; cases hEq; exact h rfl)

end

instance : DecidableEq Arg := decEq

/- The nested node of an argument. -/
def asNode? : Arg → Option Node
| .literal _ => none
| .node tag args => some ⟨tag, args⟩

/- The literal of an argument. -/
def asLiteral? : Arg → Option Literal
| .literal value => some value
| .node _ _ => none

/- The text of an argument that is a text literal. -/
def asText? (arg : Arg) : Option String :=
  arg.asLiteral?.bind Literal.asText?

/- Whether an argument is a nested node. -/
def isNode (arg : Arg) : Bool :=
  arg.asNode?.isSome

/- An argument that is a text literal. -/
def text (value : String) : Arg :=
  .literal (.text value)

end Arg

deriving instance DecidableEq for Node

namespace Node

/- A sequence of nodes. -/
def sequence (children : List Node) : Node :=
  ⟨CoreTag.sequence.name, children.map toArg⟩

/- The empty sequence, which renders nothing. -/
def empty : Node :=
  sequence []

/- A node with one text argument. -/
def ofText
    (kind : CoreTag)
    (text : String) : Node :=
  ⟨kind.name, [Arg.text text]⟩

/- Text that is rendered as it stands. -/
def static (text : String) : Node :=
  ofText .static text

/- An expression that is evaluated. -/
def dynamic (expression : String) : Node :=
  ofText .dynamic expression

/- A fragment of program code. -/
def block (code : String) : Node :=
  ofText .block code

/- The same tag with other arguments. -/
def withArgs
    (node : Node)
    (args : List Arg) : Node :=
  { node with args := args }

/- The argument at an index. -/
def arg?
    (node : Node)
    (index : Nat) : Option Arg :=
  node.args[index]?

/- The text of the argument at an index. -/
def textArg?
    (node : Node)
    (index : Nat) : Option String :=
  (node.arg? index).bind Arg.asText?

/- The nested node at an index. -/
def nodeArg?
    (node : Node)
    (index : Nat) : Option Node :=
  (node.arg? index).bind Arg.asNode?

/- The nested nodes among the arguments, in order. -/
def children (node : Node) : List Node :=
  node.args.filterMap Arg.asNode?

/- Whether a node is a sequence without arguments. -/
def isEmptySequence (node : Node) : Bool :=
  node.tag == CoreTag.sequence.name && node.args.isEmpty

end Node

------------------------------------------------------------
-- Size And Depth
------------------------------------------------------------

namespace Arg

mutual

/- The number of nodes in an argument. -/
def count : Arg → Nat
| .literal _ => 0
| .node _ args => 1 + countList args

/- The number of nodes in a list of arguments. -/
def countList : List Arg → Nat
| [] => 0
| arg :: args => count arg + countList args

end

mutual

/- The number of nodes on the longest path into an argument. -/
def depth : Arg → Nat
| .literal _ => 0
| .node _ args => 1 + depthList args

/- The largest depth in a list of arguments. -/
def depthList : List Arg → Nat
| [] => 0
| arg :: args => max (depth arg) (depthList args)

end

mutual

/- The first float of an argument that is not finite. -/
def findNonFinite? : Arg → Option Double
| .literal (.float x) => if x.isFinite then none else some x
| .literal _ => none
| .node _ args => findNonFiniteList? args

/- The first float in a list of arguments that is not finite. -/
def findNonFiniteList? : List Arg → Option Double
| [] => none
| arg :: args =>
    match findNonFinite? arg with
    | some x => some x
    | none => findNonFiniteList? args

end

end Arg

namespace Node

/- The deepest tree that can be stored, counted in nodes. -/
def maxDepth : Nat :=
  256

/- The number of nodes in a tree, its root included. -/
def count (node : Node) : Nat :=
  node.toArg.count

/- The number of nodes on the longest path from the root. -/
def depth (node : Node) : Nat :=
  node.toArg.depth

/-
  Whether a tree nests more than `limit` nodes deep, without
  looking below that limit.
-/
def deeperThan : (limit : Nat) → Node → Bool
| 0, _ => true
| limit + 1, node => node.children.any (deeperThan limit)

/- The first float of a tree that is not finite. -/
def findNonFinite? (node : Node) : Option Double :=
  node.toArg.findNonFinite?

end Node

------------------------------------------------------------
-- Display
------------------------------------------------------------

namespace Arg

mutual

/- An argument in brackets and quotes, for messages. -/
def display : Arg → String
| .literal (.text value) => Text.quoted value
| .literal value => value.rendered
| .node tag args => "[" ++ tag ++ displayList args ++ "]"

/- Arguments, each after a comma. -/
def displayList : List Arg → String
| [] => ""
| arg :: args => ", " ++ display arg ++ displayList args

end

end Arg

namespace Node

/- A tree in brackets and quotes, for messages. -/
def display (node : Node) : String :=
  node.toArg.display

end Node

end TemplateTree
