import StructureLint.Proofs.ElementTree.DocumentOrder
import StructureLint.Proofs.ElementTree.Layout
/-!
# What a tree describes

In a linked tree reading an element back, child by child, is a recursion that ends
(`Linked.describe`); reading down to as many levels as there are elements gives the same
(`Linked.specAt?_eq`). Elements that are laid out for a description are read back as this
description, and their pre-order is that of their ids (`describe_layout`). So the tree of a
description is read back as what it was made from (`toSpec_ofSpec`).
-/

namespace StructureLint.ElementTree

variable {t : ElementTree}

/-! ## Parts of lists -/

/-- The list has the part from the position `k` on. -/
def HasAt {α : Type} (l : List α) (k : Nat) (part : List α) : Prop :=
  ∀ i a, part[i]? = some a → l[k + i]? = some a

namespace HasAt

variable {α : Type} {l part rest : List α} {k : Nat} {a : α}

theorem all (l : List α) : HasAt l 0 l := by
  intro i a h
  rwa [Nat.zero_add]

theorem head (h : HasAt l k (a :: part)) : l[k]? = some a :=
  h 0 a rfl

theorem tail (h : HasAt l k (a :: part)) : HasAt l (k + 1) part := by
  intro i b hb
  rw [Nat.add_assoc, Nat.add_comm 1]
  exact h (i + 1) b hb

theorem left (h : HasAt l k (part ++ rest)) : HasAt l k part := by
  intro i b hb
  refine h i b ?_
  rw [List.getElem?_append_left (List.getElem?_eq_some_iff.1 hb).1, hb]

theorem right (h : HasAt l k (part ++ rest)) : HasAt l (k + part.length) rest := by
  intro i b hb
  rw [Nat.add_assoc]
  refine h (part.length + i) b ?_
  rw [List.getElem?_append_right (Nat.le_add_right _ _), Nat.add_sub_cancel_left, hb]

end HasAt

/-! ## Reading a tree back -/

theorem children_of_get? {n : NodeId} {e : Element} (he : t.get? n = some e) :
    t.toDocument.children n = e.children := by
  simp [toDocument, he]

theorem mapM_of_forall {α β : Type} {f : α → Option β} {g : α → β} {l : List α}
    (h : ∀ a ∈ l, f a = some (g a)) : l.mapM f = some (l.map g) := by
  induction l with
  | nil => rfl
  | cons a l ih =>
    rw [List.mapM_cons, h a (by simp), ih fun b hb => h b (by simp [hb])]
    rfl

namespace Linked

/-- The description of an element and all below it. An element that the tree does not have is
described as one without a name. -/
def describe (h : Linked t) (n : NodeId) : ElementSpec :=
  ⟨(t.toDocument.localName n).getD "", ((t.get? n).map (·.attributes)).getD ∅,
    (t.toDocument.children n).attach.map fun c => h.describe c.1⟩
termination_by t.size - n.index
decreasing_by
  have := h.lt_of_mem_children c.2
  have := h.lt_size_of_mem_children c.2
  omega

theorem describe_of_get? (h : Linked t) {n : NodeId} {e : Element} (he : t.get? n = some e) :
    h.describe n = ⟨e.localName, e.attributes, e.children.map h.describe⟩ := by
  rw [describe]
  simp [toDocument, he]

/-- Reading ends before the levels run out: a child comes after its parent, so below an element
there are at most as many levels as elements after it. -/
theorem specAt?_eq (h : Linked t) {depth : Nat} {n : NodeId} (hn : n.index < t.size)
    (hd : t.size ≤ n.index + depth) : t.specAt? depth n = some (h.describe n) := by
  induction depth generalizing n with
  | zero => omega
  | succ depth ih =>
    have he : t.get? n = some t.elements[n.index] := Array.getElem?_eq_getElem hn
    have hchildren : t.elements[n.index].children.mapM (t.specAt? depth) =
        some (t.elements[n.index].children.map h.describe) := by
      refine mapM_of_forall fun c hc => ?_
      rw [← children_of_get? he] at hc
      have := h.lt_of_mem_children hc
      exact ih (h.lt_size_of_mem_children hc) (by omega)
    rw [specAt?, he, h.describe_of_get? he]
    simp [hchildren]

theorem specAt?_root (h : Linked t) : t.specAt? t.size root = some (h.describe root) :=
  h.specAt?_eq h.size_pos (Nat.le_add_left _ _)

theorem toSpec_eq (h : Linked t) : t.toSpec = h.describe root := by
  rw [toSpec, h.specAt?_root]
  rfl

/-- A description has as many elements as the pre-order. -/
theorem size_describe (h : Linked t) (n : NodeId) :
    (h.describe n).size = (h.preorder n).length := by
  have hsizes : ∀ cs : List NodeId, (∀ c ∈ cs, (h.describe c).size = (h.preorder c).length) →
      ElementSpec.sizes (cs.map h.describe) = (cs.flatMap h.preorder).length := by
    intro cs
    induction cs with
    | nil => exact fun _ => rfl
    | cons c cs ih =>
      intro hcs
      rw [List.map_cons, ElementSpec.sizes, hcs c (by simp), ih fun d hd => hcs d (by simp [hd]),
        List.flatMap_cons, List.length_append]
  induction n using h.induction_up with
  | _ n ih =>
    rw [h.listsPreorder n, List.length_cons, ← hsizes _ ih, describe, ElementSpec.size,
      Nat.add_comm]
    simp

/-! ## Reading a layout -/

mutual

/-- What is laid out for a description is read back as this description. -/
theorem describe_layout (h : Linked t) : ∀ (s : ElementSpec) (parent : Option NodeId) (k : Nat),
    HasAt t.elements.toList k (layout parent k s) →
    h.describe ⟨k⟩ = s ∧ h.preorder ⟨k⟩ = (List.range' k s.size).map NodeId.mk
  | ⟨name, attributes, children⟩, parent, k, hat => by
    rw [layout] at hat
    have he : t.get? ⟨k⟩ = some ⟨name, attributes, parent, siblingIds (k + 1) children⟩ := by
      simpa [get?] using hat.head
    obtain ⟨hdescribe, hpreorder⟩ := describe_layoutAll h children ⟨k⟩ (k + 1) hat.tail
    constructor
    · rw [h.describe_of_get? he, hdescribe]
    · rw [h.listsPreorder ⟨k⟩, children_of_get? he, hpreorder, ElementSpec.size, Nat.add_comm 1,
        List.range'_succ]
      rfl

theorem describe_layoutAll (h : Linked t) :
    ∀ (ss : List ElementSpec) (parent : NodeId) (k : Nat),
    HasAt t.elements.toList k (layoutAll parent k ss) →
    (siblingIds k ss).map h.describe = ss ∧
      (siblingIds k ss).flatMap h.preorder =
        (List.range' k (ElementSpec.sizes ss)).map NodeId.mk
  | [], _, _, _ => ⟨rfl, rfl⟩
  | s :: ss, parent, k, hat => by
    rw [layoutAll] at hat
    obtain ⟨hs, hpreorder⟩ := describe_layout h s (some parent) k hat.left
    have hright := hat.right
    rw [length_layout] at hright
    obtain ⟨hss, hpreorders⟩ := describe_layoutAll h ss parent (k + s.size) hright
    constructor
    · rw [siblingIds, List.map_cons, hs, hss]
    · rw [siblingIds, List.flatMap_cons, hpreorder, hpreorders, ← List.map_append,
        ElementSpec.sizes, ← List.range'_append, Nat.one_mul]

end

end Linked

theorem describe_ofSpec (s : ElementSpec) :
    (linked_ofSpec s).describe root = s ∧
      (linked_ofSpec s).preorder root = (List.range s.size).map NodeId.mk := by
  have hat : HasAt (ofSpec s).elements.toList 0 (layout none 0 s) :=
    elements_ofSpec s ▸ HasAt.all _
  rw [List.range_eq_range']
  exact (linked_ofSpec s).describe_layout s none 0 hat

theorem toSpec_ofSpec (s : ElementSpec) : (ofSpec s).toSpec = s :=
  (linked_ofSpec s).toSpec_eq.trans (describe_ofSpec s).1

/-- The elements are numbered in document order. -/
theorem descendants_ofSpec (s : ElementSpec) :
    (ofSpec s).toDocument.descendants = (List.range (ofSpec s).size).map NodeId.mk := by
  rw [(linked_ofSpec s).descendants_eq, (describe_ofSpec s).2, size_ofSpec]

end StructureLint.ElementTree
