import StructureLint.Proofs.Document.TreeLinks
import StructureLint.Proofs.ElementTree.DocumentOrder
/-!
# The links of a tree that is built

An element of a tree keeps its children in a list, and its next sibling is looked up in the list of
its parent. In a linked tree these answers are the links of a tree in the sense of
`Links.TreeLinked` (`Linked.treeLinked`), so what holds of all such documents holds of it. Its
elements are those with an id below its size (`Linked.mem_elements_iff`).
-/

namespace StructureLint.ElementTree

variable {t : ElementTree} {n : NodeId}

theorem following_append {a : NodeId} {before : List NodeId} (h : a ∉ before)
    (after : List NodeId) : following a (before ++ a :: after) = after.head? := by
  induction before with
  | nil => simp [following]
  | cons b before ih =>
    rw [List.mem_cons, not_or] at h
    rw [List.cons_append, following, if_neg (Ne.symm h.1), ih h.2]

namespace Linked

/-- From the first child on, each next sibling is the next one in the list of children. -/
theorem trail_children (h : Linked t) (p : NodeId) :
    Trail t.toDocument.nextElementSibling (t.toDocument.firstElementChild p)
      (t.toDocument.children p) := by
  -- A sibling is looked up where its predecessor first occurs, which is where the list is split.
  have hfrom : ∀ before after, t.toDocument.children p = before ++ after →
      Trail t.toDocument.nextElementSibling after.head? after := by
    intro before after
    induction after generalizing before with
    | nil => exact fun _ => .nil
    | cons a after ih =>
      intro hsplit
      have hnodup := h.children_nodup p
      rw [hsplit] at hnodup
      have ha : a ∉ before := fun hmem => List.disjoint_of_nodup_append hnodup hmem (by simp)
      have hparent : t.toDocument.parent a = some p :=
        (h.mem_children_iff a p).1 (by simp [hsplit])
      have hnext : t.toDocument.nextElementSibling a = after.head? := by
        rw [nextElementSibling_eq, hparent, Option.bind_some, hsplit, following_append ha]
      refine .cons ?_
      rw [hnext]
      exact ih (before ++ [a]) (by simp [hsplit])
  rw [firstElementChild_eq]
  exact hfrom [] _ rfl

theorem child_iff (h : Linked t) {p c : NodeId} :
    t.toDocument.toLinks.Child p c ↔ c ∈ t.toDocument.children p :=
  (Links.mem_trail_iff (h.trail_children p)).symm

theorem mem_elements_iff (h : Linked t) :
    n ∈ t.toDocument.toLinks.elements ↔ n.index < t.size := by
  rw [← h.reaches_iff]
  constructor
  · intro hn
    induction hn with
    | refl => exact .refl
    | tail _ hc ih => exact ih.child (h.child_iff.1 hc)
  · intro hn
    induction hn with
    | refl => exact .refl
    | tail _ hc ih => exact .tail ih (h.child_iff.2 hc)

theorem elements_eq (h : Linked t) :
    t.toDocument.toLinks.elements = ((h.preorder root).toFinset : Set NodeId) := by
  ext n
  rw [List.coe_toFinset, h.mem_elements_iff]
  exact h.mem_preorder_root.symm

theorem ncard_elements (h : Linked t) : t.toDocument.toLinks.elements.ncard = t.size := by
  rw [h.elements_eq, Set.ncard_coe_finset, List.toFinset_card_of_nodup h.nodup_preorder_root,
    h.length_preorder_root]

theorem treeLinked (h : Linked t) : t.toDocument.toLinks.TreeLinked where
  parent_root := h.parent_root
  children_end p _ := ⟨_, h.trail_children p⟩
  parent_child p _ c hc := (h.mem_children_iff c p).1 (h.child_iff.1 hc)
  finite := by
    rw [h.elements_eq]
    exact Finset.finite_toSet _

/-- Different elements of the tree are no more than its size. -/
theorem length_le (h : Linked t) {ns : List NodeId} (hns : ns.Nodup)
    (hmem : ∀ m ∈ ns, m.index < t.size) : ns.length ≤ t.size := by
  rw [← h.ncard_elements]
  exact h.treeLinked.length_le hns fun m hm => h.mem_elements_iff.2 (hmem m hm)

/-- The way up from an element ends, and the bounded loop goes all of it. -/
theorem trail_ancestry (h : Linked t) (hn : n.index < t.size) :
    Trail t.toDocument.parent (some n) (t.toDocument.ancestry (t.size + 1) n) := by
  obtain ⟨ns, hns, hmem⟩ := h.treeLinked.trail_up (h.mem_elements_iff.2 hn)
  have hlen := h.length_le hns.nodup fun m hm => h.mem_elements_iff.1 (hmem m hm)
  have hup : Trail t.toDocument.parent (some n) ns := hns
  rwa [hup.ancestry_eq (by omega)]

end Linked

end StructureLint.ElementTree
