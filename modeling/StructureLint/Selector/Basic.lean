import StructureLint.Document.Traversal
import StructureLint.Text.Blank
/-!
# Selectors

A selector is a list of alternatives. Each asks for a name, unless it is universal, and for some
conditions on attributes; it matches an element that has the name, up to the case of ASCII letters,
and meets all the conditions. An element without a name matches nothing.

`Document.select` lists the matching elements in document order.
-/

namespace StructureLint

namespace Text

/-- Lower case for the ASCII letters; every other character is left alone. -/
def foldCase (s : String) : String :=
  s.map Char.toLower

/-- Two names that differ at most in the case of ASCII letters. -/
def sameFolded (a b : String) : Bool :=
  foldCase a == foldCase b

@[simp]
theorem sameFolded_iff {a b : String} : sameFolded a b = true ↔ foldCase a = foldCase b := by
  simp [sameFolded]

theorem sameFolded_refl (a : String) : sameFolded a a = true := by
  simp

end Text

/-- A condition on the attributes of one element. -/
inductive Condition where
  /-- The attribute `id` has this value. -/
  | id (value : String)
  /-- The attribute `class` has this word among its words. -/
  | className (word : String)
  /-- The attribute is there, whatever its value. -/
  | hasAttribute (name : String)
  /-- The attribute has this value. -/
  | attributeEquals (name value : String)
deriving DecidableEq, Repr

/-- A name, or none for every name, and conditions that must all hold. -/
structure Compound where
  localName : Option String
  conditions : List Condition
deriving DecidableEq, Repr

/-- Alternatives, of which one must match, and the text they were read from, trimmed of blanks. -/
structure Selector where
  source : String
  alternatives : List Compound
deriving DecidableEq, Repr

namespace Condition

/-- Whether an element of a document meets the condition. -/
def holds (doc : Document) (n : NodeId) : Condition → Bool
  | .id value => doc.attr n "id" == some value
  | .className word =>
    match doc.attr n "class" with
    | none => false
    | some classes => word ∈ Text.words classes
  | .hasAttribute name => (doc.attr n name).isSome
  | .attributeEquals name value => doc.attr n name == some value

end Condition

namespace Compound

/-- Whether a name is the one asked for. -/
def admits (c : Compound) (name : String) : Bool :=
  match c.localName with
  | none => true
  | some expected => Text.sameFolded expected name

/-- Whether an element of a document has the name and meets every condition. -/
def matchesNode (c : Compound) (doc : Document) (n : NodeId) : Bool :=
  match doc.localName n with
  | none => false
  | some name => c.admits name && c.conditions.all (·.holds doc n)

end Compound

namespace Selector

/-- Whether an element of a document matches one of the alternatives. -/
def matchesNode (s : Selector) (doc : Document) (n : NodeId) : Bool :=
  s.alternatives.any (·.matchesNode doc n)

end Selector

/-- The elements that match a selector, in document order. -/
def Document.select (doc : Document) (s : Selector) : List NodeId :=
  doc.descendants.filter (s.matchesNode doc ·)

end StructureLint
