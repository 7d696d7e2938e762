import Mathlib.Data.List.Nodup
import Mathlib.Logic.ExistsUnique
import StructureLint.Proofs.Document.Preorder
import StructureLint.Proofs.ElementTree.Links
import StructureLint.Proofs.Selector.Parse
/-!
# Document order of a tree that is built

In a linked tree children come after their parents, so listing an element and then, child by child,
what is below it, is a recursion that ends (`Linked.preorder`). The walk lists the same from the
root, and every element of the tree once (`Linked.descendants_eq`, `Linked.preorder_perm`), in
whatever order the elements were added.
-/

namespace StructureLint

namespace Document

/-- The function lists an element and after it, child by child, what it lists for the children. -/
def ListsPreorder (doc : Document) (pre : NodeId → List NodeId) : Prop :=
  ∀ n, pre n = n :: (doc.children n).flatMap pre

theorem preorder_of_listsPreorder {doc : Document} {pre : NodeId → List NodeId}
    (h : doc.ListsPreorder pre) (stack : List NodeId) :
    Preorder doc stack (stack.flatMap pre) := by
  -- What is listed for the children is shorter than what is listed for their parent.
  induction hk : (stack.flatMap pre).length using Nat.strongRecOn generalizing stack with
  | _ k ih =>
    match stack with
    | [] => exact .nil
    | n :: stack =>
      rw [List.flatMap_cons, h n, List.cons_append] at hk ⊢
      simp only [List.length_cons, List.length_append] at hk
      exact .cons (ih _ (by omega) _ rfl) (ih _ (by omega) _ rfl)

end Document

namespace ElementTree

open Document

variable {t : ElementTree}

namespace Linked

/-- An element and all below it, in document order. -/
def preorder (h : Linked t) (n : NodeId) : List NodeId :=
  n :: (t.toDocument.children n).attach.flatMap fun c => h.preorder c.1
termination_by t.size - n.index
decreasing_by
  have := h.lt_of_mem_children c.2
  have := h.lt_size_of_mem_children c.2
  omega

theorem listsPreorder (h : Linked t) : t.toDocument.ListsPreorder h.preorder := by
  intro n
  rw [preorder]
  simp [List.flatMap_def]

/-- What holds of an element whenever it holds of its children holds of all elements. -/
theorem induction_up (h : Linked t) {P : NodeId → Prop}
    (hstep : ∀ n, (∀ c ∈ t.toDocument.children n, P c) → P n) (n : NodeId) : P n := by
  -- Children lie nearer to the last element than their parent.
  induction hk : t.size - n.index using Nat.strongRecOn generalizing n with
  | _ k ih =>
    refine hstep n fun c hc => ih _ ?_ c rfl
    have := h.lt_of_mem_children hc
    have := h.lt_size_of_mem_children hc
    omega

/-- The recursion has no other solution. -/
theorem eq_preorder (h : Linked t) {pre : NodeId → List NodeId}
    (hpre : t.toDocument.ListsPreorder pre) : pre = h.preorder := by
  funext n
  induction n using h.induction_up with
  | _ n ih =>
    rw [hpre n, h.listsPreorder n, List.flatMap_def, List.flatMap_def, List.map_congr_left ih]

theorem treeBelow (h : Linked t) : t.toDocument.TreeBelow NodeId.index where
  parent_eq p c _ hc := (h.mem_children_iff c p).1 hc
  depth_lt _ _ _ hc := h.lt_of_mem_children hc
  children_nodup p _ := h.children_nodup p

/-- Every element of the tree is below the root: so is its parent, which was added before it. -/
theorem reaches_iff (h : Linked t) {n : NodeId} :
    t.toDocument.Reaches root n ↔ n.index < t.size := by
  constructor
  · intro hn
    rcases Relation.ReflTransGen.cases_tail hn with rfl | ⟨p, -, hp⟩
    · exact h.size_pos
    · exact h.lt_size_of_mem_children hp
  · intro hn
    induction hk : n.index using Nat.strongRecOn generalizing n with
    | _ k ih =>
      by_cases hroot : n = root
      · exact hroot ▸ .refl
      · obtain ⟨p, hp, hlt⟩ := h.parent_lt n hroot hn
        have hpn := ih p.index (by omega) (by omega) rfl
        exact Reaches.child hpn ((h.mem_children_iff n p).2 hp)

theorem preorder_root (h : Linked t) : Preorder t.toDocument [root] (h.preorder root) := by
  simpa using preorder_of_listsPreorder h.listsPreorder [root]

theorem mem_preorder_root (h : Linked t) {n : NodeId} :
    n ∈ h.preorder root ↔ n.index < t.size := by
  rw [mem_preorder_iff h.preorder_root, ← h.reaches_iff]
  simp

theorem nodup_preorder_root (h : Linked t) : (h.preorder root).Nodup :=
  h.treeBelow.nodup h.preorder_root

/-- Every element of the tree is listed once. -/
theorem preorder_perm (h : Linked t) :
    (h.preorder root).Perm ((List.range t.size).map NodeId.mk) := by
  refine (List.perm_ext_iff_of_nodup h.nodup_preorder_root ?_).2 fun n => ?_
  · exact List.Nodup.map (fun _ _ he => congrArg NodeId.index he) List.nodup_range
  · rw [h.mem_preorder_root]
    obtain ⟨i⟩ := n
    simp

theorem length_preorder_root (h : Linked t) : (h.preorder root).length = t.size := by
  simpa using h.preorder_perm.length_eq

/-- The walk from the root takes one step for each element. -/
theorem walk_root (h : Linked t) : t.toDocument.walk t.size [root] = some (h.preorder root) := by
  rw [← h.length_preorder_root]
  exact walk_eq_of_preorder h.preorder_root

theorem descendants_eq (h : Linked t) : t.toDocument.descendants = h.preorder root := by
  refine descendants_eq_of_preorder h.preorder_root ?_
  rw [h.length_preorder_root]
  exact Nat.le_of_lt (Nat.lt_trans (Nat.lt_succ_self t.size) Nat.lt_two_pow_self)

end Linked

/-! ## Selections -/

/-- Only elements of the tree have a name, and without one nothing matches. -/
theorem lt_size_of_matchesNode {s : Selector} {n : NodeId}
    (h : s.matchesNode t.toDocument n = true) : n.index < t.size := by
  obtain ⟨c, -, hc⟩ := List.any_eq_true.1 h
  unfold Compound.matchesNode at hc
  split at hc
  · cases hc
  · rename_i name hname
    obtain ⟨e, he, -⟩ := Option.map_eq_some_iff.1 hname
    exact lt_size_of_get? he

theorem query_eq_select {doc : Document} {source : String} {s : Selector}
    (h : Selector.parse source = .ok s) : doc.query source = .ok (doc.select s) := by
  rw [query, h]
  rfl

theorem Linked.mem_select (h : Linked t) {s : Selector} {n : NodeId} :
    n ∈ t.toDocument.select s ↔ s.matchesNode t.toDocument n = true := by
  rw [select, List.mem_filter, h.descendants_eq, h.mem_preorder_root]
  exact ⟨And.right, fun hn => ⟨lt_size_of_matchesNode hn, hn⟩⟩

/-! ## Document order of every tree -/

/-- In every tree that can be built, the walk from the root ends after as many steps as there are
elements. It lists them in pre-order, each once, and a selector finds those that match, in this
order. -/
theorem descendants_document_order (h : t.Reachable) :
    (∃! pre, t.toDocument.ListsPreorder pre) ∧
    (∀ pre, t.toDocument.ListsPreorder pre →
      t.toDocument.walk t.size [t.toDocument.root] = some (pre t.toDocument.root) ∧
      t.toDocument.descendants = pre t.toDocument.root) ∧
    t.toDocument.descendants.Perm ((List.range t.size).map NodeId.mk) ∧
    ∀ source s, Selector.parse source = .ok s →
      ∃ found, t.toDocument.query source = .ok found ∧
        found.Sublist t.toDocument.descendants ∧ found.Nodup ∧
        ∀ n, n ∈ found ↔ s.matchesNode t.toDocument n = true := by
  have hl := reachable_linked h
  refine ⟨⟨hl.preorder, hl.listsPreorder, fun _ => hl.eq_preorder⟩, ?_, ?_, ?_⟩
  · intro pre hpre
    rw [hl.eq_preorder hpre]
    exact ⟨hl.walk_root, hl.descendants_eq⟩
  · rw [hl.descendants_eq]
    exact hl.preorder_perm
  · intro source s hs
    have hsub : (t.toDocument.select s).Sublist t.toDocument.descendants := List.filter_sublist
    refine ⟨_, query_eq_select hs, hsub, hsub.nodup ?_, fun n => hl.mem_select⟩
    rw [hl.descendants_eq]
    exact hl.nodup_preorder_root

theorem descendants_document_order_lateChild :
    lateChild.Reachable ∧ Selector.parse "p" = .ok ⟨"p", [⟨some "p", []⟩]⟩ ∧
      lateChild.toDocument.descendants = [⟨0⟩, ⟨1⟩, ⟨3⟩, ⟨2⟩, ⟨4⟩] ∧
      lateChild.toDocument.descendants.Perm ((List.range 5).map NodeId.mk) ∧
      ∃ found, lateChild.toDocument.query "p" = .ok found ∧
        found.Sublist [⟨0⟩, ⟨1⟩, ⟨3⟩, ⟨2⟩, ⟨4⟩] ∧ ⟨4⟩ ∈ found := by
  have hreach : lateChild.Reachable := ⟨"body", _, rfl⟩
  have hparse : Selector.parse "p" = .ok ⟨"p", [⟨some "p", []⟩]⟩ :=
    Selector.parse_of_name ⟨by decide, List.all_eq_true.1 (by decide)⟩
  have hlisted : lateChild.toDocument.descendants = [⟨0⟩, ⟨1⟩, ⟨3⟩, ⟨2⟩, ⟨4⟩] := rfl
  obtain ⟨-, -, hperm, hquery⟩ := descendants_document_order hreach
  obtain ⟨found, hfound, hsub, -, hmem⟩ := hquery _ _ hparse
  exact ⟨hreach, hparse, hlisted, hperm, found, hfound, hlisted ▸ hsub, (hmem ⟨4⟩).2 (by decide +kernel)⟩

end ElementTree

end StructureLint
