import TemplateTree.Toml.Strings
import TemplateTree.Toml.Value

/-
  How the statements of a TOML document build its tables.

  Key definitions include:
    * `Toml.Item`
    * `Toml.Statement`
    * `Toml.assign`
    * `Toml.openTable`
    * `Toml.openElement`
    * `Toml.build`

  A table can be defined once.  Tables on the way to another
  one come into being unnamed and may still be defined by a
  header of their own, tables on the way of a dotted key may
  only grow by other dotted keys, and tables written as
  values are closed.
-/

------------------------------------------------------------
-- Unfinished Tables
------------------------------------------------------------

namespace TemplateTree

namespace Toml

/- What brought a table into being. -/
inductive Origin where
| header
| implied
| dotted
deriving DecidableEq, Repr

/- A part of a document that is still being built. -/
inductive Item where
| value (value : Value)
| table (origin : Origin) (entries : List (String × Item))
| tables (elements : List (List (String × Item)))
deriving Repr

/- The entries of an unfinished table. -/
abbrev Entries := List (String × Item)

mutual

/- A part of a document as a value. -/
def Item.toValue : Item → Value
| .value value => value
| .table _ entries => .table (toTable entries)
| .tables elements => .array (toTables elements)

/- Entries as the entries of a table. -/
def toTable : List (String × Item) → Table
| [] => []
| (name, item) :: rest => (name, item.toValue) :: toTable rest

/- The elements of an array of tables. -/
def toTables : List (List (String × Item)) → List Value
| [] => []
| entries :: rest => .table (toTable entries) :: toTables rest

end

namespace Entries

/- The part with a given name. -/
def get?
    (entries : Entries)
    (name : String) : Option Item :=
  (entries.find? fun entry => entry.1 == name).map Prod.snd

/- Change the part with a given name, or add it at the end. -/
def update
    (name : String)
    (change : Option Item → Option Item) :
    Entries → Option Entries
| [] => (change none).map fun item => [(name, item)]
| (other, item) :: rest =>
    if other = name then
      (change (some item)).map fun item => (other, item) :: rest
    else (update name change rest).map ((other, item) :: ·)

/- Leave out the part with a given name. -/
def erase
    (entries : Entries)
    (name : String) : Entries :=
  entries.filter fun entry => entry.1 != name

end Entries

------------------------------------------------------------
-- Going Down
------------------------------------------------------------

/- Change the last element of a list. -/
def updateLast
    {α : Type}
    (change : α → Option α) :
    List α → Option (List α)
| [] => none
| [x] => (change x).map fun x => [x]
| x :: y :: rest => (updateLast change (y :: rest)).map (x :: ·)

/-
  Change the entries of a table on the way to another one.
  In an array of tables the way goes through the last one.
-/
def inside
    (fresh : Origin)
    (passable : Origin → Bool)
    (change : Entries → Option Entries) :
    Option Item → Option Item
| none => (change []).map (.table fresh)
| some (.table origin entries) =>
    if passable origin then (change entries).map (.table origin)
    else none
| some (.tables elements) => (updateLast change elements).map .tables
| some (.value _) => none

/- Change the entries of the table that some names lead to. -/
def descend : (names : List String) → (Entries → Option Entries) →
    Entries → Option Entries
| [], change, entries => change entries
| name :: names, change, entries =>
    entries.update name
      (inside .implied (fun _ => true) (descend names change))

------------------------------------------------------------
-- Statements
------------------------------------------------------------

/- A key with its value, or a header that opens a table. -/
inductive Statement where
| assign (path : KeyPath) (value : Value)
| table (path : KeyPath)
| element (path : KeyPath)
deriving Repr

/- Add an entry with a new name. -/
def addNew
    (name : String)
    (value : Value) :
    Entries → Option Entries :=
  Entries.update name fun
    | none => some (.value value)
    | some _ => none

/-
  Give a key its value in the open table.  All tables of a
  dotted key but the last may come from headers further down.
-/
def assign : (parents : List String) → (name : String) → Value →
    Entries → Option Entries
| [], name, value, entries => addNew name value entries
| [parent], name, value, entries =>
    entries.update parent fun
      | none => (addNew name value []).map (.table .dotted)
      | some (.table .dotted inner) =>
          (addNew name value inner).map (.table .dotted)
      | some _ => none
| parent :: next :: parents, name, value, entries =>
    entries.update parent
      (inside .dotted (fun origin => origin != .header)
        (assign (next :: parents) name value))

/- Open the table of a header, which moves to the end. -/
def openTable
    (path : KeyPath) :
    Entries → Option Entries :=
  descend path.parents fun entries =>
    match entries.get? path.name with
    | none => some (entries ++ [(path.name, .table .header [])])
    | some (.table .implied inner) =>
        some (entries.erase path.name
          ++ [(path.name, .table .header inner)])
    | some _ => none

/- Open a new element of the array of tables of a header. -/
def openElement
    (path : KeyPath) :
    Entries → Option Entries :=
  descend path.parents
    (Entries.update path.name fun
      | none => some (.tables [[]])
      | some (.tables elements) => some (.tables (elements ++ [[]]))
      | some _ => none)

------------------------------------------------------------
-- Documents
------------------------------------------------------------

/-
  Carry out statements.  Keys belong to the table of the last
  header, to which the names in `here` lead.
-/
def buildFrom : (here : List String) → List Statement → Entries →
    Option Entries
| _, [], entries => some entries
| here, .assign path value :: rest, entries =>
    (descend here (assign path.parents path.name value) entries).bind
      (buildFrom here rest)
| _, .table path :: rest, entries =>
    (openTable path entries).bind
      (buildFrom (path.parents ++ [path.name]) rest)
| _, .element path :: rest, entries =>
    (openElement path entries).bind
      (buildFrom (path.parents ++ [path.name]) rest)

/- The table that the statements of a document build. -/
def build (statements : List Statement) : Option Table :=
  (buildFrom [] statements []).map toTable

/- The table that is written as a value with some fields. -/
def inlineTable (fields : List (KeyPath × Value)) : Option Table :=
  build (fields.map fun (path, value) => .assign path value)

end Toml

end TemplateTree
