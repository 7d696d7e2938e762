import Mathlib.Data.Set.Card
import StructureLint.Proofs.Document.Preorder
import StructureLint.Proofs.Document.Trails
import StructureLint.Selector.Basic
/-!
# Documents whose links make a tree

The links of a document may lead anywhere. If they make a tree below its root (`TreeLinked`), which
asks of each element only that its children come to an end and name it as their parent, then every
loop over them ends, and the document lists its elements in pre-order, each once
(`treeLinked_traversal`).

Nothing orders the elements beforehand. What excludes that one is met again is the way back: an
element has one parent, the root has none, so there is one trail of parents from an element to the
root, and its length grows by one from a parent to a child.
-/

namespace StructureLint

namespace Document

variable {doc : Document} {stack out : List NodeId}

/-! ## Pre-orders and their parts -/

theorem preorder_unique {out' : List NodeId} (h : Preorder doc stack out)
    (h' : Preorder doc stack out') : out = out' := by
  induction h generalizing out' with
  | nil =>
    cases h'
    rfl
  | cons _ _ ihbelow ihafter =>
    cases h' with
    | cons hbelow hafter => rw [ihbelow hbelow, ihafter hafter]

theorem preorder_flatMap {pre : NodeId → List NodeId}
    (h : ∀ a ∈ stack, Preorder doc [a] (pre a)) : Preorder doc stack (stack.flatMap pre) := by
  induction stack with
  | nil => exact .nil
  | cons a stack ih =>
    rw [List.flatMap_cons]
    exact preorder_append (h a (by simp)) (ih fun b hb => h b (by simp [hb]))

theorem sublist_flatMap {pre : NodeId → List NodeId} {ns : List NodeId}
    (h : ∀ n ∈ ns, ∃ below, pre n = n :: below) : ns.Sublist (ns.flatMap pre) := by
  induction ns with
  | nil => exact .slnil
  | cons n ns ih =>
    obtain ⟨below, hbelow⟩ := h n (by simp)
    rw [List.flatMap_cons, hbelow, List.cons_append]
    exact ((ih fun m hm => h m (by simp [hm])).trans (List.sublist_append_right _ _)).cons_cons n

/-- An element and all below it stand together where an element above is listed with all below
that one. -/
theorem infix_of_reaches {pre : NodeId → List NodeId} {a n : NodeId}
    (hpre : ∀ m, doc.Reaches a m → pre m = m :: (doc.children m).flatMap pre)
    (h : doc.Reaches a n) : pre n <:+: pre a := by
  induction h with
  | refl => exact List.infix_rfl
  | @tail p c hp hc ih =>
    refine List.IsInfix.trans ?_ ih
    obtain ⟨l, r, hlr⟩ := List.append_of_mem hc
    rw [hpre p hp, hlr, List.flatMap_append, List.flatMap_cons]
    exact ⟨p :: l.flatMap pre, r.flatMap pre, by simp⟩

end Document

namespace Links

/-- The element stands in the chain of siblings that begins with the first child of the other. -/
inductive Child (l : Links) (p : NodeId) : NodeId → Prop
  | first {c : NodeId} : l.firstElementChild p = some c → Child l p c
  | next {c d : NodeId} : Child l p c → l.nextElementSibling c = some d → Child l p d

/-- One can go from the first element down to the second by links to first children and next
siblings. -/
def Reaches (l : Links) : NodeId → NodeId → Prop :=
  Relation.ReflTransGen l.Child

/-- The root and all below it. -/
def elements (l : Links) : Set NodeId :=
  { n | l.Reaches l.root n }

/-- The root has no parent; the children of every element come to an end, and each names this
element as its parent; there are finitely many elements. -/
structure TreeLinked (l : Links) : Prop where
  parent_root : l.parent l.root = none
  children_end : ∀ p ∈ l.elements, ∃ cs, Trail l.nextElementSibling (l.firstElementChild p) cs
  parent_child : ∀ p ∈ l.elements, ∀ c, l.Child p c → l.parent c = some p
  finite : l.elements.Finite

variable {l : Links} {a c m n p : NodeId} {ns : List NodeId}

theorem root_mem : l.root ∈ l.elements :=
  Relation.ReflTransGen.refl

theorem mem_of_child (hp : p ∈ l.elements) (hc : l.Child p c) : c ∈ l.elements :=
  Relation.ReflTransGen.tail hp hc

theorem mem_of_reaches (ha : a ∈ l.elements) (h : l.Reaches a n) : n ∈ l.elements :=
  Relation.ReflTransGen.trans ha h

theorem mem_trail_iff (h : Trail l.nextElementSibling (l.firstElementChild p) ns) :
    c ∈ ns ↔ l.Child p c := by
  -- The chain may be entered at any child, so the induction is on trails that begin with one.
  have hmembers : ∀ {start ms}, Trail l.nextElementSibling start ms →
      (∀ d, start = some d → l.Child p d) → ∀ d ∈ ms, l.Child p d := by
    intro start ms hms
    induction hms with
    | nil => simp
    | @cons m ms _ ih =>
      intro hstart d hd
      rcases List.mem_cons.1 hd with rfl | hd
      · exact hstart d rfl
      · exact ih (fun k hk => .next (hstart m rfl) hk) d hd
  constructor
  · exact hmembers h (fun d hd => .first hd) c
  · intro hc
    induction hc with
    | first hc =>
      rw [← h.head?_eq] at hc
      exact List.mem_of_head? hc
    | next _ hd ih => exact h.mem_of_next ih hd

namespace TreeLinked

/-- The way up from an element ends, and passes elements only. -/
theorem trail_up (h : l.TreeLinked) (hn : n ∈ l.elements) :
    ∃ ns, Trail l.parent (some n) ns ∧ ∀ m ∈ ns, m ∈ l.elements := by
  induction hn with
  | refl =>
    refine ⟨[l.root], .cons ?_, by simp [root_mem]⟩
    rw [h.parent_root]
    exact .nil
  | @tail p c hp hc ih =>
    obtain ⟨ns, hns, hmem⟩ := ih
    refine ⟨c :: ns, .cons ?_, ?_⟩
    · rwa [h.parent_child p hp c hc]
    · rintro m (_ | ⟨_, hm⟩)
      · exact mem_of_child hp hc
      · exact hmem m hm

theorem length_le (h : l.TreeLinked) (hns : ns.Nodup) (hmem : ∀ m ∈ ns, m ∈ l.elements) :
    ns.length ≤ l.elements.ncard := by
  rw [← List.toFinset_card_of_nodup hns, ← Set.ncard_coe_finset]
  exact Set.ncard_le_ncard (fun m hm => hmem m (by simpa using hm)) h.finite

/-! ## The loops over the links -/

section

variable (h : l.TreeLinked) (hsize : l.elements.ncard ≤ l.size)
include h hsize

theorem trail_children (hp : p ∈ l.elements) :
    Trail l.nextElementSibling (l.firstElementChild p) (l.children p) := by
  obtain ⟨cs, hcs⟩ := h.children_end p hp
  have hlen := h.length_le hcs.nodup fun c hc => mem_of_child hp ((mem_trail_iff hcs).1 hc)
  rwa [Links.children, hcs.siblings_eq (by omega)]

theorem mem_children_iff (hp : p ∈ l.elements) : c ∈ l.children p ↔ l.Child p c :=
  mem_trail_iff (h.trail_children hsize hp)

theorem trail_ancestry (hn : n ∈ l.elements) :
    Trail l.parent (some n) ((Document.ofLinks l).ancestry (l.size + 1) n) := by
  obtain ⟨ns, hns, hmem⟩ := h.trail_up hn
  have hlen := h.length_le hns.nodup hmem
  have hup : Trail (Document.ofLinks l).parent (some n) ns := hns
  rwa [hup.ancestry_eq (by omega)]

theorem mem_of_mem_ancestry (hn : n ∈ l.elements)
    (hm : m ∈ (Document.ofLinks l).ancestry (l.size + 1) n) : m ∈ l.elements := by
  obtain ⟨ns, hns, hmem⟩ := h.trail_up hn
  rw [(h.trail_ancestry hsize hn).unique hns] at hm
  exact hmem m hm

theorem length_ancestry_child (hp : p ∈ l.elements) (hc : l.Child p c) :
    ((Document.ofLinks l).ancestry (l.size + 1) c).length =
      ((Document.ofLinks l).ancestry (l.size + 1) p).length + 1 := by
  have hup : Trail l.parent (some c) (c :: (Document.ofLinks l).ancestry (l.size + 1) p) := by
    refine .cons ?_
    rw [h.parent_child p hp c hc]
    exact h.trail_ancestry hsize hp
  rw [(h.trail_ancestry hsize (mem_of_child hp hc)).unique hup, List.length_cons]

theorem reaches_iff (ha : a ∈ l.elements) :
    (Document.ofLinks l).Reaches a n ↔ l.Reaches a n := by
  constructor
  · intro hn
    induction hn with
    | refl => exact .refl
    | tail _ hc ih => exact .tail ih ((h.mem_children_iff hsize (mem_of_reaches ha ih)).1 hc)
  · intro hn
    induction hn with
    | refl => exact .refl
    | tail hp hc ih => exact .tail ih ((h.mem_children_iff hsize (mem_of_reaches ha hp)).2 hc)

theorem treeBelow : (Document.ofLinks l).TreeBelow fun n =>
    ((Document.ofLinks l).ancestry (l.size + 1) n).length where
  parent_eq p c hp hc := by
    have hp := (h.reaches_iff hsize root_mem).1 hp
    exact h.parent_child p hp c ((h.mem_children_iff hsize hp).1 hc)
  depth_lt p c hp hc := by
    have hp := (h.reaches_iff hsize root_mem).1 hp
    have := h.length_ancestry_child hsize hp ((h.mem_children_iff hsize hp).1 hc)
    omega
  children_nodup p hp :=
    (h.trail_children hsize ((h.reaches_iff hsize root_mem).1 hp)).nodup

/-- Below an element there is an end: on a way down the trails of parents grow, and none is longer
than there are elements. -/
theorem exists_preorder (hn : n ∈ l.elements) :
    ∃ out, Document.Preorder (Document.ofLinks l) [n] out := by
  induction hk : l.size + 1 - ((Document.ofLinks l).ancestry (l.size + 1) n).length
    using Nat.strongRecOn generalizing n with
  | _ k ih =>
    have hchildren : ∀ c, c ∈ l.children n →
        ∃ out, Document.Preorder (Document.ofLinks l) [c] out := by
      intro c hc
      have hc := (h.mem_children_iff hsize hn).1 hc
      obtain ⟨ns, hns, hmem⟩ := h.trail_up (mem_of_child hn hc)
      have hlen := h.length_le hns.nodup hmem
      rw [hns.unique (h.trail_ancestry hsize (mem_of_child hn hc))] at hlen
      have := h.length_ancestry_child hsize hn hc
      exact ih _ (by omega) (mem_of_child hn hc) rfl
    choose! pre hpre using hchildren
    exact ⟨_, .cons (Document.preorder_flatMap hpre) .nil⟩

theorem exists_subtrees :
    ∃ pre : NodeId → List NodeId, ∀ n ∈ l.elements,
      Document.Preorder (Document.ofLinks l) [n] (pre n) ∧
        pre n = n :: (l.children n).flatMap pre := by
  choose! pre hpre using fun n (hn : n ∈ l.elements) => h.exists_preorder hsize hn
  refine ⟨pre, fun n hn => ⟨hpre n hn, ?_⟩⟩
  have hbelow : Document.Preorder (Document.ofLinks l) (l.children n)
      ((l.children n).flatMap pre) := by
    refine Document.preorder_flatMap fun c hc => hpre c ?_
    exact mem_of_child hn ((h.mem_children_iff hsize hn).1 hc)
  simpa using Document.preorder_unique (hpre n hn) (.cons hbelow .nil)

theorem nodup_of_preorder {out : List NodeId}
    (hout : Document.Preorder (Document.ofLinks l) [l.root] out) : out.Nodup :=
  (h.treeBelow hsize).nodup hout

theorem mem_iff_of_preorder {out : List NodeId} (ha : a ∈ l.elements)
    (hout : Document.Preorder (Document.ofLinks l) [a] out) : m ∈ out ↔ l.Reaches a m := by
  rw [Document.mem_preorder_iff hout, ← h.reaches_iff hsize ha]
  simp

theorem length_of_preorder {out : List NodeId}
    (hout : Document.Preorder (Document.ofLinks l) [l.root] out) :
    out.length = l.elements.ncard := by
  have helements : l.elements = (out.toFinset : Set NodeId) := by
    ext n
    rw [List.coe_toFinset]
    exact (h.mem_iff_of_preorder hsize root_mem hout).symm
  rw [helements, Set.ncard_coe_finset,
    List.toFinset_card_of_nodup (h.nodup_of_preorder hsize hout)]

/-- The walk from the root takes one step for each element. -/
theorem walk_eq_of_preorder {out : List NodeId}
    (hout : Document.Preorder (Document.ofLinks l) [l.root] out) :
    (Document.ofLinks l).walk l.elements.ncard [l.root] = some out := by
  rw [← h.length_of_preorder hsize hout]
  exact Document.walk_eq_of_preorder hout

theorem descendants_eq_of_preorder {out : List NodeId}
    (hout : Document.Preorder (Document.ofLinks l) [l.root] out) :
    (Document.ofLinks l).descendants = out := by
  refine Document.descendants_eq_of_preorder hout ?_
  rw [h.length_of_preorder hsize hout]
  exact Nat.le_of_lt (Nat.lt_of_le_of_lt hsize (Nat.lt_trans (Nat.lt_succ_self l.size)
    Nat.lt_two_pow_self))

end

end TreeLinked

/-! ## Traversal -/

/-- Where links make a tree, and the bound on loops covers its elements, every loop ends. The walk
lists each element once, an element before what is below it, and that child after child; no selector
finds an element twice. -/
theorem treeLinked_traversal (h : l.TreeLinked) (hsize : l.elements.ncard ≤ l.size) :
    (∀ p ∈ l.elements, Trail l.nextElementSibling (l.firstElementChild p) (l.children p)) ∧
    (∀ n ∈ l.elements,
      Trail l.parent (some n) ((Document.ofLinks l).ancestry (l.size + 1) n) ∧
        ∀ m ∈ (Document.ofLinks l).ancestry (l.size + 1) n, m ∈ l.elements) ∧
    (Document.ofLinks l).walk l.elements.ncard [l.root] =
      some (Document.ofLinks l).descendants ∧
    (Document.ofLinks l).descendants.Nodup ∧
    (∀ n, n ∈ (Document.ofLinks l).descendants ↔ n ∈ l.elements) ∧
    (∃ pre : NodeId → List NodeId, (Document.ofLinks l).descendants = pre l.root ∧
      ∀ n ∈ l.elements, pre n = n :: (l.children n).flatMap pre ∧
        (∀ m, m ∈ pre n ↔ l.Reaches n m) ∧ pre n <:+: (Document.ofLinks l).descendants) ∧
    (∀ p ∈ l.elements, (p :: l.children p).Sublist (Document.ofLinks l).descendants) ∧
    ∀ s : Selector, ((Document.ofLinks l).select s).Nodup := by
  obtain ⟨pre, hpre⟩ := h.exists_subtrees hsize
  have hroot := (hpre l.root root_mem).1
  have hlisted := h.descendants_eq_of_preorder hsize hroot
  have hnodup := h.nodup_of_preorder hsize hroot
  have hbelow : ∀ m, (Document.ofLinks l).Reaches l.root m →
      pre m = m :: ((Document.ofLinks l).children m).flatMap pre := by
    intro m hm
    exact (hpre m ((h.reaches_iff hsize root_mem).1 hm)).2
  have htogether : ∀ n ∈ l.elements, pre n <:+: pre l.root := by
    intro n hn
    exact Document.infix_of_reaches hbelow ((h.reaches_iff hsize root_mem).2 hn)
  rw [hlisted]
  refine ⟨fun p => h.trail_children hsize,
    fun n hn => ⟨h.trail_ancestry hsize hn, fun m => h.mem_of_mem_ancestry hsize hn⟩,
    h.walk_eq_of_preorder hsize hroot, hnodup,
    fun n => h.mem_iff_of_preorder hsize root_mem hroot, ⟨pre, rfl, fun n hn => ?_⟩, ?_, ?_⟩
  · exact ⟨(hpre n hn).2, fun m => h.mem_iff_of_preorder hsize hn (hpre n hn).1,
      htogether n hn⟩
  · intro p hp
    refine List.Sublist.trans ?_ (htogether p hp).sublist
    rw [(hpre p hp).2]
    refine (Document.sublist_flatMap fun c hc => ⟨_, (hpre c ?_).2⟩).cons_cons p
    exact mem_of_child hp ((h.mem_children_iff hsize hp).1 hc)
  · intro s
    rw [Document.select, hlisted]
    exact hnodup.filter _

/-- The root has the largest id of all that it reaches. What lies outside contradicts itself: there
an element is its own next sibling and names the root as its parent. -/
def rootLast : Links where
  root := ⟨3⟩
  localName _ := some "p"
  attr _ _ := none
  parent n := if n.index = 3 then none else if n.index = 1 then some ⟨2⟩ else some ⟨3⟩
  firstElementChild n :=
    if n.index = 3 then some ⟨2⟩ else if n.index = 2 then some ⟨1⟩ else none
  nextElementSibling n :=
    if n.index = 2 then some ⟨0⟩ else if n.index < 4 then none else some n
  size := 4

theorem rootLast_children : ∀ p ∈ [⟨3⟩, ⟨2⟩, ⟨1⟩, ⟨0⟩],
    ∃ cs, Trail rootLast.nextElementSibling (rootLast.firstElementChild p) cs ∧
      ∀ c ∈ cs, c ∈ [⟨3⟩, ⟨2⟩, ⟨1⟩, ⟨0⟩] ∧ rootLast.parent c = some p := by
  intro p hp
  simp only [List.mem_cons, List.not_mem_nil, or_false] at hp
  rcases hp with rfl | rfl | rfl | rfl
  · exact ⟨[⟨2⟩, ⟨0⟩], .cons (.cons .nil), by decide⟩
  · exact ⟨[⟨1⟩], .cons .nil, by decide⟩
  · exact ⟨[], .nil, by decide⟩
  · exact ⟨[], .nil, by decide⟩

theorem rootLast_elements {n : NodeId} (hn : n ∈ rootLast.elements) :
    n ∈ [⟨3⟩, ⟨2⟩, ⟨1⟩, ⟨0⟩] := by
  induction hn with
  | refl => decide
  | tail _ hc ih =>
    obtain ⟨cs, hcs, hmem⟩ := rootLast_children _ ih
    exact (hmem _ ((mem_trail_iff hcs).2 hc)).1

theorem rootLast_treeLinked : rootLast.TreeLinked where
  parent_root := rfl
  children_end p hp := by
    obtain ⟨cs, hcs, -⟩ := rootLast_children p (rootLast_elements hp)
    exact ⟨cs, hcs⟩
  parent_child p hp c hc := by
    obtain ⟨cs, hcs, hmem⟩ := rootLast_children p (rootLast_elements hp)
    exact (hmem c ((mem_trail_iff hcs).2 hc)).2
  finite := (List.finite_toSet [⟨3⟩, ⟨2⟩, ⟨1⟩, ⟨0⟩]).subset fun _ => rootLast_elements

theorem rootLast_ncard_le : rootLast.elements.ncard ≤ rootLast.size := by
  have hsub : rootLast.elements ⊆ (([⟨3⟩, ⟨2⟩, ⟨1⟩, ⟨0⟩] : List NodeId).toFinset : Set NodeId) := by
    intro n hn
    rw [List.coe_toFinset]
    exact rootLast_elements hn
  refine (Set.ncard_le_ncard hsub (Finset.finite_toSet _)).trans ?_
  rw [Set.ncard_coe_finset]
  decide

theorem treeLinked_traversal_rootLast :
    rootLast.TreeLinked ∧ rootLast.elements.ncard ≤ rootLast.size ∧
      (Document.ofLinks rootLast).descendants = [⟨3⟩, ⟨2⟩, ⟨1⟩, ⟨0⟩] ∧
      (Document.ofLinks rootLast).walk rootLast.elements.ncard [⟨3⟩] =
        some [⟨3⟩, ⟨2⟩, ⟨1⟩, ⟨0⟩] ∧
      ⟨1⟩ ∈ rootLast.elements ∧ ⟨4⟩ ∉ rootLast.elements := by
  obtain ⟨-, -, hwalk, -, hmem, -⟩ := treeLinked_traversal rootLast_treeLinked rootLast_ncard_le
  have hlisted : (Document.ofLinks rootLast).descendants = [⟨3⟩, ⟨2⟩, ⟨1⟩, ⟨0⟩] := by
    decide +kernel
  rw [hlisted] at hwalk hmem
  exact ⟨rootLast_treeLinked, rootLast_ncard_le, hlisted, hwalk, (hmem ⟨1⟩).1 (by decide),
    fun h => absurd ((hmem ⟨4⟩).2 h) (by decide)⟩

end Links

end StructureLint
