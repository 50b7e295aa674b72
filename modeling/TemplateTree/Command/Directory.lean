import TemplateTree.Command.Path
import TemplateTree.NameMap

/-
  A directory with the files that commands read and write.

  Key definitions include:
    * `Directory`
    * `Directory.Place`
    * `Directory.resolve`
    * `Directory.read`
    * `Directory.write`

  Files have a path from the directory down.  A folder is
  there when a file lies in it.  Nothing is known about what
  lies outside of the directory, except that the folders
  above it exist.
-/

------------------------------------------------------------
-- Files
------------------------------------------------------------

namespace TemplateTree

/- The bytes of files by path, where a slash joins components. -/
structure Directory where
  files : NameMap (List UInt8)
deriving DecidableEq, Repr

namespace Directory

/- A place in the directory, or one of the folders above it. -/
inductive Place where
| below (components : List String)
| above
deriving DecidableEq, Repr

/- Why a path leads to no file. -/
inductive Fault where
| missing
| isFolder
| notFolder
| tooLong
| zeroCharacter
deriving DecidableEq, Repr

/- The wording of a fault. -/
def Fault.message : Fault → String
| .missing => "No such file or directory (os error 2)"
| .isFolder => "Is a directory (os error 21)"
| .notFolder => "Not a directory (os error 20)"
| .tooLong => "File name too long (os error 36)"
| .zeroCharacter => "file name contained an unexpected NUL byte"

/- The path of a place inside the directory. -/
def joined (components : List String) : String :=
  "/".intercalate components

/- The directory with some files. -/
def ofList (files : List (String × List UInt8)) : Directory where
  files :=
    NameMap.ofList
      (files.map fun (path, bytes) =>
        (joined (Path.components path), bytes))

/- The file at a place. -/
def file?
    (dir : Directory) :
    Place → Option (List UInt8)
| .below components => dir.files.get? (joined components)
| .above => none

/- Whether a place is a folder. -/
def isFolder
    (dir : Directory) :
    Place → Bool
| .above => true
| .below [] => true
| .below components =>
    dir.files.keys.any fun path =>
      (joined components ++ "/").toList.isPrefixOf path.toList

------------------------------------------------------------
-- Paths
------------------------------------------------------------

/- Follow one component of a path. -/
def step? : Place → String → Option Place
| .above, name => if name = ".." then some .above else none
| .below components, name =>
    if name = ".." then
      if components.isEmpty then some .above
      else some (.below components.dropLast)
    else some (.below (components ++ [name]))

/- The most bytes of the name of a file. -/
def maxNameSize : Nat :=
  255

/- The most bytes of a path. -/
def maxPathSize : Nat :=
  4095

/- Follow the components of a path, each from a folder on. -/
def walk
    (dir : Directory) :
    Place → List String → Except Fault Place
| place, [] => .ok place
| place, name :: rest =>
    if dir.isFolder place then
      if maxNameSize < name.utf8ByteSize then .error .tooLong
      else
        match step? place name with
        | some next => walk dir next rest
        | none => .error .missing
    else if (dir.file? place).isSome then .error .notFolder
    else .error .missing

/- The place that a path names, seen from a folder. -/
def resolve
    (dir : Directory)
    (here : Place)
    (path : String) : Except Fault Place :=
  if path.toList.contains '\x00' then .error .zeroCharacter
  else if path = "" then .error .missing
  else if maxPathSize < path.utf8ByteSize then .error .tooLong
  else
    let start := if Path.isAbsolute path then .above else here
    walk dir start (Path.components path)

/- The folder that a path names, seen from another one. -/
def enter
    (dir : Directory)
    (here : Place)
    (path : String) : Except Fault Place :=
  (dir.resolve here path).bind fun place =>
    if dir.isFolder place then .ok place
    else if (dir.file? place).isSome then .error .notFolder
    else .error .missing

------------------------------------------------------------
-- Reading And Writing
------------------------------------------------------------

/- The bytes of the file that a path names. -/
def read
    (dir : Directory)
    (here : Place)
    (path : String) : Except Fault (List UInt8) :=
  (dir.resolve here path).bind fun place =>
    if dir.isFolder place then .error .isFolder
    else
      match dir.file? place with
      | some bytes =>
          if Path.namesFolder path then .error .notFolder
          else .ok bytes
      | none => .error .missing

/-
  Make the file that a path names hold some bytes.  Its
  folder has to be there already.  A dot at the end asks for
  a folder to be there under the name before it, and a slash
  at the end asks for a folder to be made, which is refused.
-/
def write
    (dir : Directory)
    (here : Place)
    (path : String)
    (bytes : List UInt8) : Except Fault Directory :=
  (dir.resolve here path).bind fun place =>
    if dir.isFolder place then .error .isFolder
    else if Path.endsInDot path then
      .error (if (dir.file? place).isSome then .notFolder else .missing)
    else if Path.endsInSlash path then .error .isFolder
    else
      match place with
      | .above => .error .isFolder
      | .below components =>
          .ok ⟨dir.files.insert (joined components) bytes⟩

end Directory

end TemplateTree
