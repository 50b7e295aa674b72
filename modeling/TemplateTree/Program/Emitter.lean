import TemplateTree.Text.Blank

/-
  Text that is put out line by line.

  Key definitions include:
    * `Emitter`
    * `Emitter.pushLine`
    * `Emitter.pushCode`

  Braces in fragments of code drive the indentation: a
  fragment that starts by closing a block stands one level to
  the left, and one that ends by opening a block moves what
  follows to the right.
-/

------------------------------------------------------------
-- Levels
------------------------------------------------------------

namespace TemplateTree

namespace Layout

/- Whether a fragment starts by closing a block. -/
def closes (code : String) : Bool :=
  code.toList.head? == some '\x7d'

/- Whether a fragment ends by opening a block. -/
def opens (code : String) : Bool :=
  code.toList.getLast? == some '\x7b'

/- The level on which a fragment stands. -/
def levelAt
    (level : Nat)
    (code : String) : Nat :=
  if closes code then level - 1 else level

/- The level after a fragment that stands on a level. -/
def levelAfter
    (level : Nat)
    (code : String) : Nat :=
  if opens code then level + 1 else level

/- A line with four spaces for each level. -/
def printLine (line : Nat × String) : String :=
  String.ofList (List.replicate (4 * line.1) ' ') ++ line.2 ++ "\n"

end Layout

------------------------------------------------------------
-- Emitters
------------------------------------------------------------

/- What was put out, and the level of the next line. -/
structure Emitter where
  code : String
  indent : Nat
deriving DecidableEq, Repr

namespace Emitter

/- Nothing was put out yet. -/
def empty : Emitter where
  code := ""
  indent := 0

/- Put out a line on the current level. -/
def pushLine
    (out : Emitter)
    (line : String) : Emitter :=
  { out with code := out.code ++ Layout.printLine (out.indent, line) }

/- Go to the level on which a fragment stands. -/
def stepLeft
    (out : Emitter)
    (code : String) : Emitter :=
  { out with indent := Layout.levelAt out.indent code }

/- Go to the level after a fragment. -/
def stepRight
    (out : Emitter)
    (code : String) : Emitter :=
  { out with indent := Layout.levelAfter out.indent code }

/- Put out a fragment of code on a line of its own. -/
def pushCode
    (out : Emitter)
    (text : String) : Emitter :=
  let code := Text.trim text
  ((out.stepLeft code).pushLine code).stepRight code

end Emitter

end TemplateTree
