import StructureLint.ElementTree.Nested
import StructureLint.Proofs.ElementTree.Links
/-!
# How the elements of a description are laid out

The tree of a description has its elements in pre-order: an element, then all below its first
child, then all below the second, and so on. `layout` is this list of elements when its first one
gets some id. Adding a description to any tree links it to its parent and puts its layout after the
elements that are there (`elements_graft`), so the tree of a description is its layout from the id
of the root on (`elements_ofSpec`).
-/

namespace StructureLint

/-- The element with further children after those it has. -/
def Element.adopt (e : Element) (ids : List NodeId) : Element :=
  { e with children := e.children ++ ids }

theorem Element.adopt_nil : (fun e : Element => e.adopt []) = id := by
  funext e
  simp [adopt]

theorem Element.adopt_adopt (ids more : List NodeId) :
    (fun e : Element => e.adopt more) ∘ (fun e : Element => e.adopt ids) =
      fun e : Element => e.adopt (ids ++ more) := by
  funext e
  simp [adopt]

namespace ElementTree

/-! ## Layouts -/

/-- The ids of elements next to each other, if the first has the id `k` and all below an element
comes before the next one. -/
def siblingIds (k : Nat) : List ElementSpec → List NodeId
  | [] => []
  | s :: ss => ⟨k⟩ :: siblingIds (k + s.size) ss

mutual

/-- The elements of a description, the first of which has the id `k`. -/
def layout (parent : Option NodeId) (k : Nat) : ElementSpec → List Element
  | ⟨name, attributes, children⟩ =>
    ⟨name, attributes, parent, siblingIds (k + 1) children⟩ :: layoutAll ⟨k⟩ (k + 1) children

/-- The elements of descriptions below one parent, the first of which has the id `k`. -/
def layoutAll (parent : NodeId) (k : Nat) : List ElementSpec → List Element
  | [] => []
  | s :: ss => layout (some parent) k s ++ layoutAll parent (k + s.size) ss

end

mutual

theorem length_layout (parent : Option NodeId) (k : Nat) :
    ∀ s : ElementSpec, (layout parent k s).length = s.size
  | ⟨name, attributes, children⟩ => by
    rw [layout, List.length_cons, length_layoutAll ⟨k⟩ (k + 1) children, ElementSpec.size,
      Nat.add_comm]

theorem length_layoutAll (parent : NodeId) (k : Nat) :
    ∀ ss : List ElementSpec, (layoutAll parent k ss).length = ElementSpec.sizes ss
  | [] => rfl
  | s :: ss => by
    rw [layoutAll, List.length_append, length_layout (some parent) k s,
      length_layoutAll parent (k + s.size) ss, ElementSpec.sizes]

end

/-! ## Adding descriptions -/

theorem modify_append_of_lt {α : Type} {l : List α} {i : Nat} (h : i < l.length) (r : List α)
    (f : α → α) : (l ++ r).modify i f = l.modify i f ++ r := by
  induction l generalizing i with
  | nil => cases h
  | cons a l ih =>
    cases i with
    | zero => rfl
    | succ i => simpa using ih (Nat.lt_of_succ_lt_succ h)

theorem modify_concat {α : Type} (l : List α) (a : α) (f : α → α) :
    (l ++ [a]).modify l.length f = l ++ [f a] := by
  induction l with
  | nil => rfl
  | cons b l ih => simpa using ih

theorem elements_push (t : ElementTree) (parent : NodeId) (name : String) (as : KeyMap String) :
    (t.push parent name as).elements.toList =
      t.elements.toList.modify parent.index (·.adopt [t.nextId]) ++
        [⟨name, as, some parent, []⟩] := by
  simp [push, Element.adopt]

theorem size_eq_length (t : ElementTree) : t.size = t.elements.toList.length := by
  simp [size]

mutual

theorem size_graft : ∀ (s : ElementSpec) (t : ElementTree) (parent : NodeId),
    (graft t parent s).size = t.size + s.size
  | ⟨name, attributes, children⟩, t, parent => by
    rw [graft, size_graftAll children, size_push, ElementSpec.size, Nat.add_assoc]

theorem size_graftAll : ∀ (ss : List ElementSpec) (t : ElementTree) (parent : NodeId),
    (graftAll t parent ss).size = t.size + ElementSpec.sizes ss
  | [], _, _ => rfl
  | s :: ss, t, parent => by
    rw [graftAll, size_graftAll ss, size_graft s, ElementSpec.sizes, Nat.add_assoc]

end

mutual

theorem elements_graft : ∀ (s : ElementSpec) (t : ElementTree) (parent : NodeId),
    parent.index < t.size →
    (graft t parent s).elements.toList =
      t.elements.toList.modify parent.index (·.adopt [t.nextId]) ++
        layout (some parent) t.size s
  | ⟨name, attributes, children⟩, t, parent, hp => by
    have hsize := size_push t parent name attributes
    have hnew : t.nextId.index < (t.push parent name attributes).size := by
      rw [hsize]
      exact Nat.lt_succ_self _
    -- The children are added below the new element, which is the last one so far.
    have hlast : t.nextId.index =
        (t.elements.toList.modify parent.index (·.adopt [t.nextId])).length := by
      rw [List.length_modify, ← size_eq_length]
      rfl
    rw [graft, elements_graftAll children _ t.nextId hnew, elements_push, hlast, modify_concat,
      hsize, layout]
    simp [Element.adopt, nextId]

theorem elements_graftAll : ∀ (ss : List ElementSpec) (t : ElementTree) (parent : NodeId),
    parent.index < t.size →
    (graftAll t parent ss).elements.toList =
      t.elements.toList.modify parent.index (·.adopt (siblingIds t.size ss)) ++
        layoutAll parent t.size ss
  | [], t, parent, _ => by
    rw [graftAll, siblingIds, layoutAll, Element.adopt_nil, List.modify_id, List.append_nil]
  | s :: ss, t, parent, hp => by
    have hsize := size_graft s t parent
    have hlt : parent.index < (t.elements.toList.modify parent.index (·.adopt [t.nextId])).length := by
      rw [List.length_modify, ← size_eq_length]
      exact hp
    rw [graftAll, elements_graftAll ss _ parent (by omega), elements_graft s t parent hp, hsize,
      modify_append_of_lt hlt, List.modify_modify_eq, Element.adopt_adopt, layoutAll, siblingIds,
      List.append_assoc]
    rfl

end

/-- The tree of a description is laid out from the id of the root on. -/
theorem elements_ofSpec (s : ElementSpec) : (ofSpec s).elements.toList = layout none 0 s := by
  obtain ⟨name, attributes, children⟩ := s
  have hroot : root.index < (single name attributes).size := Nat.zero_lt_one
  rw [ofSpec, elements_graftAll children _ root hroot, layout]
  rfl

theorem size_ofSpec (s : ElementSpec) : (ofSpec s).size = s.size := by
  rw [size_eq_length, elements_ofSpec, length_layout]

/-! ## Links -/

mutual

theorem linked_graft : ∀ (s : ElementSpec) {t : ElementTree} {parent : NodeId}, Linked t →
    parent.index < t.size → Linked (graft t parent s)
  | ⟨name, attributes, children⟩, t, parent, h, hp => by
    rw [graft]
    refine linked_graftAll children (h.push hp name attributes) ?_
    rw [size_push]
    exact Nat.lt_succ_self _

theorem linked_graftAll : ∀ (ss : List ElementSpec) {t : ElementTree} {parent : NodeId}, Linked t →
    parent.index < t.size → Linked (graftAll t parent ss)
  | [], _, _, h, _ => h
  | s :: ss, t, parent, h, hp => by
    rw [graftAll]
    refine linked_graftAll ss (linked_graft s h hp) ?_
    rw [size_graft]
    omega

end

theorem linked_ofSpec (s : ElementSpec) : Linked (ofSpec s) :=
  linked_graftAll s.children (linked_single s.name s.attributes) Nat.zero_lt_one

end ElementTree

end StructureLint
