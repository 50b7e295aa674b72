import TemplateTree.Error

/-
  Options of the stages of an engine.

  Key definitions include:
    * `OptionValue`
    * `OptionKind.accepts`
    * `OptionSpec`
    * `Options`
    * `ResolvedOptions`
    * `ResolvedOptions.bind`

  A stage declares the options it understands.  When the
  stage is built, the options of the whole engine and its own
  options are merged and checked against that declaration
  once, and the stage sees only the result.
-/

------------------------------------------------------------
-- Values
------------------------------------------------------------

namespace TemplateTree

/- The value of one option, as written in an engine file. -/
inductive OptionValue where
| bool (value : Bool)
| int (value : Int64)
| float (value : Double)
| text (value : String)
| list (items : List OptionValue)
deriving Repr

namespace OptionValue

mutual

/- Decide whether two option values are equal bit for bit. -/
def decEq : (a b : OptionValue) → Decidable (a = b)
| .bool x, .bool y =>
    if h : x = y then .isTrue (by rw [h])
    else .isFalse (by intro hEq; cases hEq; exact h rfl)
| .int x, .int y =>
    if h : x = y then .isTrue (by rw [h])
    else .isFalse (by intro hEq; cases hEq; exact h rfl)
| .float x, .float y =>
    if h : x = y then .isTrue (by rw [h])
    else .isFalse (by intro hEq; cases hEq; exact h rfl)
| .text x, .text y =>
    if h : x = y then .isTrue (by rw [h])
    else .isFalse (by intro hEq; cases hEq; exact h rfl)
| .list xs, .list ys =>
    match decEqList xs ys with
    | .isTrue h => .isTrue (by rw [h])
    | .isFalse h =>
        .isFalse (by intro hEq; cases hEq; exact h rfl)
| .bool _, .int _ => .isFalse (by intro hEq; cases hEq)
| .bool _, .float _ => .isFalse (by intro hEq; cases hEq)
| .bool _, .text _ => .isFalse (by intro hEq; cases hEq)
| .bool _, .list _ => .isFalse (by intro hEq; cases hEq)
| .int _, .bool _ => .isFalse (by intro hEq; cases hEq)
| .int _, .float _ => .isFalse (by intro hEq; cases hEq)
| .int _, .text _ => .isFalse (by intro hEq; cases hEq)
| .int _, .list _ => .isFalse (by intro hEq; cases hEq)
| .float _, .bool _ => .isFalse (by intro hEq; cases hEq)
| .float _, .int _ => .isFalse (by intro hEq; cases hEq)
| .float _, .text _ => .isFalse (by intro hEq; cases hEq)
| .float _, .list _ => .isFalse (by intro hEq; cases hEq)
| .text _, .bool _ => .isFalse (by intro hEq; cases hEq)
| .text _, .int _ => .isFalse (by intro hEq; cases hEq)
| .text _, .float _ => .isFalse (by intro hEq; cases hEq)
| .text _, .list _ => .isFalse (by intro hEq; cases hEq)
| .list _, .bool _ => .isFalse (by intro hEq; cases hEq)
| .list _, .int _ => .isFalse (by intro hEq; cases hEq)
| .list _, .float _ => .isFalse (by intro hEq; cases hEq)
| .list _, .text _ => .isFalse (by intro hEq; cases hEq)

/- Decide whether two lists of option values are equal. -/
def decEqList : (xs ys : List OptionValue) → Decidable (xs = ys)
| [], [] => .isTrue rfl
| [], _ :: _ => .isFalse (by intro hEq; cases hEq)
| _ :: _, [] => .isFalse (by intro hEq; cases hEq)
| x :: xs, y :: ys =>
    match decEq x y with
    | .isTrue h =>
        match decEqList xs ys with
        | .isTrue hs => .isTrue (by rw [h, hs])
        | .isFalse hs =>
            .isFalse (by intro hEq; cases hEq; exact hs rfl)
    | .isFalse h =>
        .isFalse (by intro hEq; cases hEq; exact h rfl)

end

instance : DecidableEq OptionValue := decEq

/- The name of a value's kind. -/
def kindName : OptionValue → String
| .bool _ => "bool"
| .int _ => "int"
| .float _ => "float"
| .text _ => "text"
| .list _ => "list"

/- The text of a text value. -/
def asText? : OptionValue → Option String
| .text value => some value
| _ => none

mutual

/- Equality of values, with floats compared as numbers. -/
def same : (a b : OptionValue) → Bool
| .bool x, .bool y => x == y
| .int x, .int y => x == y
| .float x, .float y => x.sameNumber y
| .text x, .text y => x == y
| .list xs, .list ys => sameList xs ys
| _, _ => false

/- Equality of lists of values. -/
def sameList : (xs ys : List OptionValue) → Bool
| [], [] => true
| x :: xs, y :: ys => same x y && sameList xs ys
| _, _ => false

end

end OptionValue

/- Option values by name. -/
abbrev Options := NameMap OptionValue

/- Equality of options, with floats compared as numbers. -/
def Options.same (a b : Options) : Bool :=
  a.keys == b.keys
    && OptionValue.sameList (a.entries.map Prod.snd)
      (b.entries.map Prod.snd)

------------------------------------------------------------
-- Declarations
------------------------------------------------------------

/- What an option may hold. -/
inductive OptionKind where
| bool
| int
| float
| text
| textList
deriving DecidableEq, Repr

namespace OptionKind

/- A kind in words. -/
def describe : OptionKind → String
| .bool => "a boolean"
| .int => "an integer"
| .float => "a number"
| .text => "a string"
| .textList => "a list of strings"

/- Whether a kind admits a value; an integer is a number. -/
def accepts : OptionKind → OptionValue → Bool
| .bool, .bool _ => true
| .int, .int _ => true
| .float, .float _ => true
| .float, .int _ => true
| .text, .text _ => true
| .textList, .list items =>
    items.all fun item => item.asText?.isSome
| _, _ => false

end OptionKind

/- The declaration of one option that a stage understands. -/
structure OptionSpec where
  name : String
  kind : OptionKind
  required : Bool
  doc : String
deriving DecidableEq, Repr

/- Whether a list of declarations has an option. -/
def declares
    (specs : List OptionSpec)
    (name : String) : Bool :=
  specs.any fun spec => spec.name == name

------------------------------------------------------------
-- Binding
------------------------------------------------------------

/- The options of one stage after merging and checking. -/
structure ResolvedOptions where
  stage : String
  values : Options
deriving DecidableEq, Repr

namespace ResolvedOptions

/- The value that a stage uses: its own one goes first. -/
def effective?
    (globals locals : Options)
    (name : String) : Option OptionValue :=
  match locals.get? name with
  | some value => some value
  | none => globals.get? name

/- Check the options declared by a list, in order. -/
def bindSpecs
    (stage : String)
    (globals locals : Options) :
    List OptionSpec → Options → Except ConfigError Options
| [], values => .ok values
| spec :: specs, values =>
    match effective? globals locals spec.name with
    | some value =>
        if spec.kind.accepts value then
          bindSpecs stage globals locals specs
            (values.insert spec.name value)
        else
          .error (.invalidOption stage spec.name spec.kind.describe
            value.kindName)
    | none =>
        if spec.required then
          .error (.missingOption stage spec.name)
        else bindSpecs stage globals locals specs values

/-
  Merge the options of an engine with those of a stage.  The
  stage has to declare all of its own; others of the engine
  are meant for other stages.
-/
def bind
    (stage : String)
    (specs : List OptionSpec)
    (globals locals : Options) :
    Except ConfigError ResolvedOptions :=
  match locals.keys.find? fun name => !declares specs name with
  | some name => .error (.unknownOption stage name)
  | none =>
      (bindSpecs stage globals locals specs NameMap.empty).map
        fun values => ⟨stage, values⟩

/- The value of an option. -/
def get?
    (options : ResolvedOptions)
    (name : String) : Option OptionValue :=
  options.values.get? name

/- Whether an option has a value. -/
def has
    (options : ResolvedOptions)
    (name : String) : Bool :=
  options.values.contains name

/- The truth value of an option, or a default. -/
def boolOr
    (options : ResolvedOptions)
    (name : String)
    (default : Bool) : Bool :=
  match options.get? name with
  | some (.bool value) => value
  | _ => default

/- The integer of an option, or a default. -/
def intOr
    (options : ResolvedOptions)
    (name : String)
    (default : Int64) : Int64 :=
  match options.get? name with
  | some (.int value) => value
  | _ => default

/- The text of an option. -/
def text?
    (options : ResolvedOptions)
    (name : String) : Option String :=
  (options.get? name).bind OptionValue.asText?

/- The text of an option, or a default. -/
def textOr
    (options : ResolvedOptions)
    (name : String)
    (default : String) : String :=
  (options.text? name).getD default

/- The texts of a list option, or a default. -/
def textListOr
    (options : ResolvedOptions)
    (name : String)
    (default : List String) : List String :=
  match options.get? name with
  | some (.list items) => items.filterMap OptionValue.asText?
  | _ => default

end ResolvedOptions

end TemplateTree
