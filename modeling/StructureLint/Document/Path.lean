import StructureLint.Document.Basic
/-!
# Where an element sits

The path of an element names it and its ancestors from the root down, such as
`html > body > section:nth-of-type(2)`. An element that shares its name with siblings is given its
place among them.
-/

namespace StructureLint.Document

/-- One step of a path: a name, and the place among the siblings of that name if there are any. -/
structure Segment where
  name : String
  place : Option Nat
deriving DecidableEq, Repr

namespace Segment

/-- The written form of a step. -/
def display (s : Segment) : String :=
  match s.place with
  | none => s.name
  | some k => s.name ++ ":nth-of-type(" ++ toString k ++ ")"

end Segment

/-- The name shown for an element; an element without a name is shown as `?`. -/
def shownName (doc : Document) (n : NodeId) : String :=
  (doc.localName n).getD "?"

/-- The children of `parent` whose name is exactly the one given. -/
def namedChildren (doc : Document) (parent : NodeId) (name : String) : List NodeId :=
  (doc.children parent).filter fun c => doc.localName c == some name

/-- The last step of the path of an element. Places count from 1; the place is 0 if the element is
missing from the children of its parent. -/
def segment (doc : Document) (n : NodeId) : Segment :=
  let name := doc.shownName n
  match doc.parent n with
  | none => ⟨name, none⟩
  | some p =>
    let same := doc.namedChildren p name
    if 1 < same.length then ⟨name, some (if n ∈ same then same.idxOf n + 1 else 0)⟩
    else ⟨name, none⟩

/-- An element, its parent, the parent of that and so on, at most `steps` of them. -/
def ancestry (doc : Document) : Nat → NodeId → List NodeId
  | 0, _ => []
  | steps + 1, n =>
    match doc.parent n with
    | none => [n]
    | some p => n :: doc.ancestry steps p

/-- The steps of the path of an element, from the outermost ancestor down. A chain of parents that
does not come back to itself has at most `size + 1` members. -/
def segments (doc : Document) (n : NodeId) : List Segment :=
  ((doc.ancestry (doc.size + 1) n).map doc.segment).reverse

/-- The written path of an element. -/
def elementPath (doc : Document) (n : NodeId) : String :=
  " > ".intercalate ((doc.segments n).map Segment.display)

end StructureLint.Document
