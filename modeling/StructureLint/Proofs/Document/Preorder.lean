import Mathlib.Logic.Relation
import StructureLint.Document.Traversal
/-!
# The walk lists elements in pre-order

A walk whose stack has a pre-order ends, and lists it (`walk_eq_of_preorder`). What is listed are
the elements that the stack reaches (`mem_preorder_iff`); in a document that is a tree below its
root, none of them is listed twice (`TreeBelow.nodup`).
-/

namespace StructureLint.Document

variable {doc : Document} {stack out : List NodeId}

/-! ## Walks -/

theorem preorder_append {s₁ s₂ out₁ out₂ : List NodeId} (h₁ : Preorder doc s₁ out₁)
    (h₂ : Preorder doc s₂ out₂) : Preorder doc (s₁ ++ s₂) (out₁ ++ out₂) := by
  induction h₁ with
  | nil => exact h₂
  | cons hbelow _ _ ih =>
    rw [List.cons_append, List.cons_append, List.append_assoc]
    exact .cons hbelow ih

/-- The walk ends after as many steps as the pre-order has elements. -/
theorem walk_eq_of_preorder (h : Preorder doc stack out) :
    doc.walk out.length stack = some out := by
  -- The stack after one step is no part of the derivation, so the induction is on the steps.
  induction hk : out.length generalizing stack out with
  | zero =>
    cases h with
    | nil => rfl
    | cons => simp at hk
  | succ k ih =>
    cases h with
    | nil => simp at hk
    | cons hbelow hafter =>
      rw [walk_succ, ih (preorder_append hbelow hafter) (by simpa using hk)]
      rfl

theorem descendants_eq_of_preorder (h : Preorder doc [doc.root] out)
    (hlen : out.length ≤ doc.walkBound) : doc.descendants = out := by
  rw [descendants, walk_mono doc (walk_eq_of_preorder h) hlen]
  rfl

/-! ## Elements that a stack reaches -/

/-- One can go from the first element down to the second, from parents to children. -/
def Reaches (doc : Document) : NodeId → NodeId → Prop :=
  Relation.ReflTransGen fun p c => c ∈ doc.children p

theorem Reaches.child {a p c : NodeId} (h : doc.Reaches a p) (hc : c ∈ doc.children p) :
    doc.Reaches a c :=
  Relation.ReflTransGen.tail h hc

theorem reaches_of_mem_preorder (h : Preorder doc stack out) {m : NodeId} (hm : m ∈ out) :
    ∃ a ∈ stack, doc.Reaches a m := by
  induction h with
  | nil => cases hm
  | @cons n rest below after _ _ ihbelow ihafter =>
    rcases List.mem_cons.1 hm with rfl | hm
    · exact ⟨m, by simp, .refl⟩
    · rcases List.mem_append.1 hm with hm | hm
      · obtain ⟨c, hc, hcm⟩ := ihbelow hm
        exact ⟨n, by simp, .head hc hcm⟩
      · obtain ⟨a, ha, ham⟩ := ihafter hm
        exact ⟨a, by simp [ha], ham⟩

/-- A pre-order has the stack in it, and with an element all its children. -/
theorem preorder_closed (h : Preorder doc stack out) :
    (∀ a ∈ stack, a ∈ out) ∧ ∀ n ∈ out, ∀ c ∈ doc.children n, c ∈ out := by
  induction h with
  | nil => simp
  | @cons n rest below after _ _ ihbelow ihafter =>
    constructor
    · intro a ha
      rcases List.mem_cons.1 ha with rfl | ha
      · simp
      · simp [ihafter.1 a ha]
    · intro m hm c hc
      rcases List.mem_cons.1 hm with rfl | hm
      · simp [ihbelow.1 c hc]
      · rcases List.mem_append.1 hm with hm | hm
        · simp [ihbelow.2 m hm c hc]
        · simp [ihafter.2 m hm c hc]

theorem mem_preorder_iff (h : Preorder doc stack out) {m : NodeId} :
    m ∈ out ↔ ∃ a ∈ stack, doc.Reaches a m := by
  refine ⟨reaches_of_mem_preorder h, ?_⟩
  rintro ⟨a, ha, ham⟩
  induction ham with
  | refl => exact (preorder_closed h).1 a ha
  | tail _ hc ih => exact (preorder_closed h).2 _ ih _ hc

/-! ## Trees -/

/-- Below its root, the document is a tree: the children of an element name it as their parent, lie
deeper by some measure of depth, and are listed once each. -/
structure TreeBelow (doc : Document) (depth : NodeId → Nat) : Prop where
  parent_eq : ∀ p c, doc.Reaches doc.root p → c ∈ doc.children p → doc.parent c = some p
  depth_lt : ∀ p c, doc.Reaches doc.root p → c ∈ doc.children p → depth p < depth c
  children_nodup : ∀ p, doc.Reaches doc.root p → (doc.children p).Nodup

namespace TreeBelow

variable {depth : NodeId → Nat} {a c c' m n : NodeId}

theorem depth_le (h : doc.TreeBelow depth) (ha : doc.Reaches doc.root a)
    (hm : doc.Reaches a m) : depth a ≤ depth m := by
  induction hm with
  | refl => exact Nat.le_refl _
  | tail hp hc ih =>
    exact Nat.le_trans ih (Nat.le_of_lt (h.depth_lt _ _ (.trans ha hp) hc))

/-- A child does not reach its parent. -/
theorem not_reaches_parent (h : doc.TreeBelow depth) (hn : doc.Reaches doc.root n)
    (hc : c ∈ doc.children n) : ¬ doc.Reaches c n := fun hcn =>
  absurd (h.depth_le (hn.child hc) hcn) (Nat.not_le.2 (h.depth_lt n c hn hc))

/-- Two children of one element reach nothing in common. -/
theorem eq_of_reaches (h : doc.TreeBelow depth) (hn : doc.Reaches doc.root n)
    (hc : c ∈ doc.children n) (hc' : c' ∈ doc.children n) (hm : doc.Reaches c m)
    (hm' : doc.Reaches c' m) : c = c' := by
  have hpc := h.parent_eq n c hn hc
  have hpc' := h.parent_eq n c' hn hc'
  -- An element has one parent, so both ways down to it end alike, back up to the two children.
  induction hm with
  | refl =>
    rcases Relation.ReflTransGen.cases_tail hm' with rfl | ⟨p, hp, hpm⟩
    · rfl
    · have := h.parent_eq p c (.trans (hn.child hc') hp) hpm
      cases hpc.symm.trans this
      exact absurd hp (h.not_reaches_parent hn hc')
  | @tail p m hp hpm ih =>
    have hparent := h.parent_eq p m (.trans (hn.child hc) hp) hpm
    rcases Relation.ReflTransGen.cases_tail hm' with rfl | ⟨q, hq, hqm⟩
    · cases hpc'.symm.trans hparent
      exact absurd hp (h.not_reaches_parent hn hc)
    · have := h.parent_eq q m (.trans (hn.child hc') hq) hqm
      cases hparent.symm.trans this
      exact ih hq

/-- In the pre-order of elements that reach nothing in common, nothing is listed twice. -/
theorem nodup_of_apart (h : doc.TreeBelow depth) (hp : Preorder doc stack out)
    (hroot : ∀ a ∈ stack, doc.Reaches doc.root a)
    (hapart : stack.Pairwise fun a b => ∀ m, doc.Reaches a m → ¬ doc.Reaches b m) :
    out.Nodup := by
  induction hp with
  | nil => exact List.nodup_nil
  | @cons n rest below after hbelow hafter ihbelow ihafter =>
    obtain ⟨hn, hrest⟩ := List.pairwise_cons.1 hapart
    have hrn := hroot n (by simp)
    have hchildren : ∀ c ∈ doc.children n, doc.Reaches doc.root c := fun c hc => hrn.child hc
    -- The children of one element reach nothing in common either, so both parts follow.
    have hbelow_nodup : below.Nodup := by
      refine ihbelow hchildren ?_
      refine List.Pairwise.imp_of_mem (fun hc hc' hne m hm hm' => ?_) (h.children_nodup n hrn)
      exact hne (h.eq_of_reaches hrn hc hc' hm hm')
    have hafter_nodup : after.Nodup := ihafter (fun a ha => hroot a (by simp [ha])) hrest
    refine List.nodup_cons.2 ⟨?_, List.nodup_append.2 ⟨hbelow_nodup, hafter_nodup, ?_⟩⟩
    · intro hmem
      rcases List.mem_append.1 hmem with hmem | hmem
      · obtain ⟨c, hc, hcn⟩ := reaches_of_mem_preorder hbelow hmem
        exact h.not_reaches_parent hrn hc hcn
      · obtain ⟨b, hb, hbn⟩ := reaches_of_mem_preorder hafter hmem
        exact hn b hb n .refl hbn
    · rintro m hm _ hm' rfl
      obtain ⟨c, hc, hcm⟩ := reaches_of_mem_preorder hbelow hm
      obtain ⟨b, hb, hbm⟩ := reaches_of_mem_preorder hafter hm'
      exact hn b hb m (.head hc hcm) hbm

theorem nodup (h : doc.TreeBelow depth) (hp : Preorder doc [doc.root] out) : out.Nodup :=
  h.nodup_of_apart hp (by simp [Reaches, Relation.ReflTransGen.refl]) (by simp)

end TreeBelow

end StructureLint.Document
