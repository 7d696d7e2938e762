/-!
# Documents as rules see them

A document answers six questions about its elements: which is the root, and the name, an attribute,
the parent, the first child and the next sibling of an element (`Links`). It also lists the
children of an element (`Document`); they need not be found by following the links, but
`Document.ofLinks` finds them so (`Links.children`).

The answers are independent of each other and may contradict each other. `size` says how many
elements may be linked at most; it bounds the walks over the links.
-/

namespace StructureLint

/-- Names one element of one document. -/
structure NodeId where
  index : Nat
deriving DecidableEq, Repr, Inhabited

namespace NodeId

/-- The written form, such as `#7`. -/
def display (n : NodeId) : String :=
  "#" ++ toString n.index

end NodeId

/-- What a document answers about its elements, one element at a time. -/
structure Links where
  /-- The document element. -/
  root : NodeId
  /-- The name of an element; none for an element of another document. -/
  localName : NodeId → Option String
  /-- The value of an attribute of an element. -/
  attr : NodeId → String → Option String
  parent : NodeId → Option NodeId
  firstElementChild : NodeId → Option NodeId
  nextElementSibling : NodeId → Option NodeId
  /-- How many elements may have links. -/
  size : Nat

/-- A document: its links and the children of every element. -/
structure Document extends Links where
  /-- The children of an element, in document order. -/
  children : NodeId → List NodeId

namespace Links

/-- An element, its next sibling, the sibling after that and so on, at most `steps` of them. -/
def siblings (l : Links) : Nat → Option NodeId → List NodeId
  | _, none => []
  | 0, some _ => []
  | steps + 1, some n => n :: l.siblings steps (l.nextElementSibling n)

/-- The children found by following the links: the first child and its siblings after it. A chain
of siblings that does not come back to itself has at most `size + 1` members. -/
def children (l : Links) (n : NodeId) : List NodeId :=
  l.siblings (l.size + 1) (l.firstElementChild n)

end Links

namespace Document

/-- The document whose children are those found by following the links. -/
def ofLinks (l : Links) : Document :=
  { l with children := l.children }

/-- The same document, with its children found by following the links. -/
def linksOnly (doc : Document) : Document :=
  ofLinks doc.toLinks

end Document

end StructureLint
