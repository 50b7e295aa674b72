import TemplateTree.Text.Split

/-
  Paths of files.

  Key definitions include:
    * `Path.components`
    * `Path.namesFolder`
    * `Path.extension?`
    * `TreeFormat.ofPath`

  A path is a text.  Empty components and single dots lead
  nowhere and do not count.
-/

------------------------------------------------------------
-- Components
------------------------------------------------------------

namespace TemplateTree

namespace Path

/- The parts of a path between slashes, the empty ones too. -/
def parts (path : String) : List String :=
  (Text.split '/' path.toList).map String.ofList

/- The components of a path, without those that lead nowhere. -/
def components (path : String) : List String :=
  (parts path).filter fun part => part != "" && part != "."

/- A path that starts at the root of all directories. -/
def isAbsolute (path : String) : Bool :=
  path.toList.head? == some '/'

/- A path that ends with a slash. -/
def endsInSlash (path : String) : Bool :=
  (parts path).getLast? == some ""

/- A path whose last part with a name in it is a single dot. -/
def endsInDot (path : String) : Bool :=
  ((parts path).filter (· != "")).getLast? == some "."

/- Whether a path can only name a directory. -/
def namesFolder (path : String) : Bool :=
  endsInSlash path || endsInDot path

------------------------------------------------------------
-- Extensions
------------------------------------------------------------

/- What follows the last dot of a name, unless the dot is first. -/
def nameExtension? (name : List Char) : Option (List Char) :=
  let reversed := name.reverse
  let extension := reversed.takeWhile (· != '.')
  match reversed.dropWhile (· != '.') with
  | _ :: _ :: _ => some extension.reverse
  | _ => none

/- The extension of the file that a path names. -/
def extension? (path : String) : Option String :=
  match (components path).getLast? with
  | some name =>
      if name = ".." then none
      else (nameExtension? name.toList).map String.ofList
  | none => none

end Path

------------------------------------------------------------
-- Formats
------------------------------------------------------------

/- The forms in which a tree is stored. -/
inductive TreeFormat where
| json
| binary
deriving DecidableEq, Repr

/- The form of a file; only one extension means binary. -/
def TreeFormat.ofPath (path : String) : TreeFormat :=
  if Path.extension? path = some "wfir" then .binary else .json

end TemplateTree
