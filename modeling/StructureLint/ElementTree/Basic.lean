import StructureLint.Document.Basic
import StructureLint.KeyMap
/-!
# Element trees

An `ElementTree` is a document that is built element by element. Elements are numbered in the order
in which they are added, the root being 0; each knows its parent and its children.

An edit that names an element the tree does not have is refused and leaves the tree as it was
(`append?`, `setAttribute?`, `run`).
-/

namespace StructureLint

/-- One element of a tree. -/
structure Element where
  localName : String
  attributes : KeyMap String
  parent : Option NodeId
  /-- The children, in document order. -/
  children : List NodeId
deriving DecidableEq, Repr

/-- A document built element by element. The element with the id `n` stands at position `n`. -/
structure ElementTree where
  elements : Array Element
deriving DecidableEq, Repr

namespace ElementTree

/-- The tree that has a root and nothing else. -/
def single (name : String) (attributes : KeyMap String) : ElementTree :=
  ⟨#[⟨name, attributes, none, []⟩]⟩

/-- The number of elements. -/
def size (t : ElementTree) : Nat :=
  t.elements.size

/-- The root of every tree. -/
def root : NodeId := ⟨0⟩

/-- An element of the tree. -/
def get? (t : ElementTree) (n : NodeId) : Option Element :=
  t.elements[n.index]?

/-- Whether the tree has an element of this id. -/
def has (t : ElementTree) (n : NodeId) : Bool :=
  n.index < t.size

/-- The id the next new element gets. -/
def nextId (t : ElementTree) : NodeId :=
  ⟨t.size⟩

/-- Adds an element as the last child of `parent`, which is an element of the tree. -/
def push (t : ElementTree) (parent : NodeId) (name : String) (attributes : KeyMap String) :
    ElementTree :=
  let linked := t.elements.modify parent.index fun e =>
    { e with children := e.children ++ [t.nextId] }
  ⟨linked.push ⟨name, attributes, some parent, []⟩⟩

/-- Adds an element without attributes as the last child of `parent`, and gives its id with the
tree; none if the tree has no such element. -/
def append? (t : ElementTree) (parent : NodeId) (name : String) : Option (NodeId × ElementTree) :=
  if t.has parent then some (t.nextId, t.push parent name ∅) else none

/-- Sets an attribute, replacing an earlier value; none if the tree has no such element. -/
def setAttribute? (t : ElementTree) (n : NodeId) (name value : String) : Option ElementTree :=
  if t.has n then
    some ⟨t.elements.modify n.index fun e =>
      { e with attributes := e.attributes.insert name value }⟩
  else none

/-- A change to a tree. -/
inductive Edit where
  /-- A new element as the last child of `parent`. -/
  | append (parent : NodeId) (name : String)
  /-- A new value for an attribute. -/
  | setAttribute (n : NodeId) (name value : String)
deriving DecidableEq, Repr

/-- The tree after a change; none if the change is refused. -/
def edit? (t : ElementTree) : Edit → Option ElementTree
  | .append parent name => (t.append? parent name).map (·.2)
  | .setAttribute n name value => t.setAttribute? n name value

/-- The tree after a sequence of changes, where a refused one changes nothing. -/
def run (t : ElementTree) (edits : List Edit) : ElementTree :=
  edits.foldl (fun t e => (t.edit? e).getD t) t

/-- The trees that can be built: a root and any sequence of changes. -/
def Reachable (t : ElementTree) : Prop :=
  ∃ (name : String) (edits : List Edit), t = (single name ∅).run edits

/-! ## As a document -/

/-- The element that follows `n` in a list. -/
def following (n : NodeId) : List NodeId → Option NodeId
  | [] => none
  | m :: ms => if m = n then ms.head? else following n ms

/-- The next sibling: what follows the element among the children of its parent. -/
def nextSibling (t : ElementTree) (n : NodeId) : Option NodeId := do
  let e ← t.get? n
  let p ← e.parent
  let siblings ← t.get? p
  following n siblings.children

/-- The tree as a document; it has nothing to say about ids of other documents. -/
def toDocument (t : ElementTree) : Document where
  root := root
  localName n := (t.get? n).map (·.localName)
  attr n name := (t.get? n).bind (·.attributes.get? name)
  parent n := (t.get? n).bind (·.parent)
  firstElementChild n := (t.get? n).bind (·.children.head?)
  nextElementSibling := t.nextSibling
  size := t.size
  children n := ((t.get? n).map (·.children)).getD []

end ElementTree

end StructureLint
