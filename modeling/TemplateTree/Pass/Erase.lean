import TemplateTree.Pass.Basic

/-
  Removing nodes by their tag.

  Key definitions include:
    * `Erase.pass`

  A node of a chosen tag becomes the empty sequence, which
  renders nothing.
-/

------------------------------------------------------------
-- Erasing
------------------------------------------------------------

namespace TemplateTree

namespace Erase

/- The pass that removes the nodes of some tags. -/
def pass (tags : TagSet) : Pass where
  name := "erase"
  handles := fun tag => tags.contains tag
  rejects := fun _ => false
  transform := fun _ => .ok Node.empty

end Erase

end TemplateTree
