import StructureLint.ElementSpec
import StructureLint.ElementTree.Basic
/-!
# Trees and nested descriptions

`ofSpec` numbers the elements of a description in pre-order. `toSpec` reads a tree back into its
description, whatever the order in which its elements were added.
-/

namespace StructureLint.ElementTree

mutual

/-- Adds a description below `parent`. -/
def graft (t : ElementTree) (parent : NodeId) : ElementSpec → ElementTree
  | ⟨name, attributes, children⟩ =>
    graftAll (t.push parent name attributes) t.nextId children

/-- Adds descriptions below `parent`, one after another. -/
def graftAll (t : ElementTree) (parent : NodeId) : List ElementSpec → ElementTree
  | [] => t
  | s :: ss => graftAll (graft t parent s) parent ss

end

/-- The tree of a description, with ids in pre-order. -/
def ofSpec (s : ElementSpec) : ElementTree :=
  graftAll (single s.name s.attributes) root s.children

/-- The description of an element and all below it, down to `depth` levels. None if an element is
missing, or if there are more levels. -/
def specAt? (t : ElementTree) : Nat → NodeId → Option ElementSpec
  | 0, _ => none
  | depth + 1, n => do
    let e ← t.get? n
    let children ← e.children.mapM (t.specAt? depth)
    return ⟨e.localName, e.attributes, children⟩

/-- The description of a tree, which has at most as many levels as elements. -/
def toSpec (t : ElementTree) : ElementSpec :=
  (t.specAt? t.size root).getD default

end StructureLint.ElementTree
