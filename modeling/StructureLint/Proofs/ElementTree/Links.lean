import StructureLint.ElementTree.Basic
/-!
# The links of a tree that is built

A tree keeps each link twice: an element names its parent, and the parent lists it among its
children. `Linked` says how the two agree. It holds of a root alone, every change keeps it
(`linked_edit?`), and so it holds of every tree that can be built (`reachable_linked`), whatever
the order of the changes and however many of them are refused.

Each change is described once by what the document answers afterwards (`children_push`,
`parent_push`, `children_setAttribute?`, `parent_setAttribute?`); the invariant is proved from
these and never looks at the elements themselves.
-/

namespace StructureLint.ElementTree

variable {t t' : ElementTree}

/-! ## What a change does -/

theorem has_iff {n : NodeId} : t.has n = true ↔ n.index < t.size := by
  simp [has]

theorem get?_of_size_le {n : NodeId} (h : t.size ≤ n.index) : t.get? n = none :=
  Array.getElem?_eq_none h

theorem lt_size_of_get? {n : NodeId} {e : Element} (h : t.get? n = some e) :
    n.index < t.size :=
  (Array.getElem?_eq_some_iff.1 h).1

theorem size_push (t : ElementTree) (p : NodeId) (name : String) (as : KeyMap String) :
    (t.push p name as).size = t.size + 1 := by
  simp [push, size]

theorem get?_push (t : ElementTree) (p n : NodeId) (name : String) (as : KeyMap String) :
    (t.push p name as).get? n = if n = t.nextId then some ⟨name, as, some p, []⟩
      else (t.get? n).map fun e =>
        if n = p then { e with children := e.children ++ [t.nextId] } else e := by
  obtain ⟨i⟩ := n
  obtain ⟨j⟩ := p
  -- Inside the tree the elements are as before, but for the parent, which has one child more.
  simp only [push, get?, nextId, NodeId.mk.injEq, Array.getElem?_push, Array.size_modify,
    Array.getElem?_modify, size]
  by_cases hi : i = t.elements.size
  · rw [if_pos hi, if_pos hi]
  · rw [if_neg hi, if_neg hi]
    by_cases hj : i = j
    · simp [hj]
    · simp [hj, Ne.symm hj]

theorem size_setAttribute? {n : NodeId} {name value : String}
    (h : t.setAttribute? n name value = some t') : t'.size = t.size := by
  unfold setAttribute? at h
  split at h
  · cases h
    simp [size]
  · cases h

theorem get?_setAttribute? {n : NodeId} {name value : String}
    (h : t.setAttribute? n name value = some t') (m : NodeId) :
    t'.get? m = (t.get? m).map fun e =>
      if m = n then { e with attributes := e.attributes.insert name value } else e := by
  unfold setAttribute? at h
  split at h
  · cases h
    obtain ⟨i⟩ := m
    obtain ⟨j⟩ := n
    simp only [get?, NodeId.mk.injEq, Array.getElem?_modify]
    by_cases hj : i = j
    · simp [hj]
    · simp [hj, Ne.symm hj]
  · cases h

/-! ## What the document answers -/

theorem lt_size_of_parent {n p : NodeId} (h : t.toDocument.parent n = some p) :
    n.index < t.size := by
  obtain ⟨e, he, -⟩ := Option.bind_eq_some_iff.1 h
  exact lt_size_of_get? he

theorem firstElementChild_eq (t : ElementTree) (n : NodeId) :
    t.toDocument.firstElementChild n = (t.toDocument.children n).head? := by
  simp only [toDocument]
  cases t.get? n <;> rfl

theorem nextElementSibling_eq (t : ElementTree) (n : NodeId) :
    t.toDocument.nextElementSibling n =
      (t.toDocument.parent n).bind fun p => following n (t.toDocument.children p) := by
  simp only [toDocument, nextSibling]
  cases t.get? n with
  | none => rfl
  | some e =>
    cases he : e.parent with
    | none => simp [he]
    | some p =>
      cases hp : t.get? p <;> simp [he, hp, following]

theorem ne_nextId {n : NodeId} (h : n.index < t.size) : n ≠ t.nextId := by
  rintro rfl
  exact Nat.lt_irrefl _ h

theorem get?_nextId (t : ElementTree) : t.get? t.nextId = none :=
  get?_of_size_le (Nat.le_refl _)

theorem children_push (t : ElementTree) {p : NodeId} (hp : p.index < t.size) (name : String)
    (as : KeyMap String) (n : NodeId) :
    (t.push p name as).toDocument.children n =
      if n = p then t.toDocument.children n ++ [t.nextId] else t.toDocument.children n := by
  simp only [toDocument, get?_push]
  by_cases hnp : n = p
  · subst hnp
    have he : t.get? n = some t.elements[n.index] := Array.getElem?_eq_getElem hp
    simp [ne_nextId hp, he]
  · by_cases hn : n = t.nextId
    · rw [if_pos hn, if_neg hnp, hn, get?_nextId]
      rfl
    · rw [if_neg hn, if_neg hnp]
      cases t.get? n <;> simp [hnp]

theorem parent_push (t : ElementTree) (p : NodeId) (name : String) (as : KeyMap String)
    (n : NodeId) :
    (t.push p name as).toDocument.parent n =
      if n = t.nextId then some p else t.toDocument.parent n := by
  simp only [toDocument, get?_push]
  by_cases hn : n = t.nextId
  · simp [hn]
  · rw [if_neg hn, if_neg hn]
    cases t.get? n with
    | none => rfl
    | some e =>
      simp only [Option.map_some, Option.bind_some]
      split <;> rfl

theorem children_setAttribute? {n : NodeId} {name value : String}
    (h : t.setAttribute? n name value = some t') (m : NodeId) :
    t'.toDocument.children m = t.toDocument.children m := by
  simp only [toDocument, get?_setAttribute? h]
  cases t.get? m with
  | none => rfl
  | some e =>
    simp only [Option.map_some]
    split <;> rfl

theorem parent_setAttribute? {n : NodeId} {name value : String}
    (h : t.setAttribute? n name value = some t') (m : NodeId) :
    t'.toDocument.parent m = t.toDocument.parent m := by
  simp only [toDocument, get?_setAttribute? h]
  cases t.get? m with
  | none => rfl
  | some e =>
    simp only [Option.map_some, Option.bind_some]
    split <;> rfl

/-! ## How the links agree -/

/-- An element lists those as its children that name it as their parent, in the order in which they
were added; all but the root have a parent, which was added before them. -/
structure Linked (t : ElementTree) : Prop where
  size_pos : 0 < t.size
  parent_root : t.toDocument.parent root = none
  parent_lt : ∀ n, n ≠ root → n.index < t.size →
    ∃ p, t.toDocument.parent n = some p ∧ p.index < n.index
  mem_children_iff : ∀ n p, n ∈ t.toDocument.children p ↔ t.toDocument.parent n = some p
  children_sorted : ∀ p, (t.toDocument.children p).Pairwise (·.index < ·.index)

theorem linked_single (name : String) (as : KeyMap String) : Linked (single name as) := by
  have hget : ∀ n, (single name as).get? n = if n = root then some ⟨name, as, none, []⟩ else none := by
    rintro ⟨i⟩
    by_cases hi : i = 0 <;> simp [single, get?, root, hi]
  have hchildren : ∀ n, (single name as).toDocument.children n = [] := by
    intro n
    by_cases hn : n = root <;> simp [toDocument, hget, hn]
  have hparent : ∀ n, (single name as).toDocument.parent n = none := by
    intro n
    by_cases hn : n = root <;> simp [toDocument, hget, hn]
  refine ⟨by simp [single, size], hparent root, ?_, by simp [hchildren, hparent],
    by simp [hchildren]⟩
  rintro ⟨i⟩ hne hi
  have : i < 1 := hi
  exact absurd (show (⟨i⟩ : NodeId) = root by simp [root]; omega) hne

namespace Linked

theorem lt_of_parent (h : Linked t) {n p : NodeId} (hp : t.toDocument.parent n = some p) :
    p.index < n.index := by
  have hn : n ≠ root := by
    rintro rfl
    rw [h.parent_root] at hp
    cases hp
  obtain ⟨q, hq, hlt⟩ := h.parent_lt n hn (lt_size_of_parent hp)
  cases hp.symm.trans hq
  exact hlt

theorem lt_of_mem_children (h : Linked t) {n p : NodeId} (hn : n ∈ t.toDocument.children p) :
    p.index < n.index :=
  h.lt_of_parent ((h.mem_children_iff n p).1 hn)

theorem lt_size_of_mem_children (h : Linked t) {n p : NodeId}
    (hn : n ∈ t.toDocument.children p) : n.index < t.size :=
  lt_size_of_parent ((h.mem_children_iff n p).1 hn)

theorem children_nodup (h : Linked t) (p : NodeId) : (t.toDocument.children p).Nodup :=
  (h.children_sorted p).imp fun hlt he => Nat.ne_of_lt hlt (congrArg NodeId.index he)

/-- A new element comes after all others, so it may stand at the end of any list of children. -/
theorem push (h : Linked t) {p : NodeId} (hp : p.index < t.size) (name : String)
    (as : KeyMap String) : Linked (t.push p name as) := by
  -- The new element has not been named by anything: it has no parent before the change.
  have hnew : t.toDocument.parent t.nextId = none := by
    simp [toDocument, get?_nextId]
  refine ⟨by rw [size_push]; omega, ?_, ?_, ?_, ?_⟩
  · rw [parent_push, if_neg (ne_nextId (n := root) h.size_pos), h.parent_root]
  · intro n hn hlt
    rw [parent_push]
    by_cases he : n = t.nextId
    · exact ⟨p, by rw [if_pos he], by rw [he]; exact hp⟩
    · rw [if_neg he]
      refine h.parent_lt n hn ?_
      have : n.index ≠ t.size := fun hi => he (congrArg NodeId.mk hi)
      rw [size_push] at hlt
      omega
  · intro n q
    rw [children_push t hp, parent_push]
    by_cases hq : q = p
    · by_cases hn : n = t.nextId
      · simp [hq, hn]
      · simp [hq, hn, h.mem_children_iff]
    · by_cases hn : n = t.nextId
      · simp [hq, hn, h.mem_children_iff, hnew, Ne.symm hq]
      · simp [hq, hn, h.mem_children_iff]
  · intro q
    rw [children_push t hp]
    split
    · refine List.pairwise_append.2 ⟨h.children_sorted q, by simp, fun m hm n hn => ?_⟩
      cases List.mem_singleton.1 hn
      exact h.lt_size_of_mem_children hm
    · exact h.children_sorted q

theorem setAttribute? (h : Linked t) {n : NodeId} {name value : String}
    (ht : t.setAttribute? n name value = some t') : Linked t' := by
  have hsize := size_setAttribute? ht
  have hchildren := children_setAttribute? ht
  have hparent := parent_setAttribute? ht
  refine ⟨hsize ▸ h.size_pos, (hparent root).trans h.parent_root, ?_, ?_, ?_⟩
  · intro m hm hlt
    rw [hparent]
    exact h.parent_lt m hm (hsize ▸ hlt)
  · intro m p
    rw [hchildren, hparent]
    exact h.mem_children_iff m p
  · intro p
    rw [hchildren]
    exact h.children_sorted p

end Linked

/-- A change is an element added below an element of the tree, or a new value for an attribute of
one; every other change is refused. -/
theorem edit?_cases {e : Edit} (h : t.edit? e = some t') :
    (∃ p name, e = .append p name ∧ p.index < t.size ∧ t' = t.push p name ∅) ∨
    (∃ n name value, e = .setAttribute n name value ∧ t.setAttribute? n name value = some t') := by
  cases e with
  | append p name =>
    simp only [edit?, append?] at h
    split at h
    · rename_i hp
      cases h
      exact .inl ⟨p, name, rfl, has_iff.1 hp, rfl⟩
    · cases h
  | setAttribute n name value => exact .inr ⟨n, name, value, rfl, h⟩

theorem linked_edit? {e : Edit} (hl : Linked t) (h : t.edit? e = some t') : Linked t' := by
  obtain ⟨p, name, -, hp, rfl⟩ | ⟨n, name, value, -, h⟩ := edit?_cases h
  · exact hl.push hp name ∅
  · exact hl.setAttribute? h

/-! ## Trees that can be built -/

/-- What holds of every root alone and is kept by every change holds of every tree that can be
built. A change that is refused keeps everything. -/
theorem reachable_induction {P : ElementTree → Prop} (hroot : ∀ name, P (single name ∅))
    (hedit : ∀ (t t' : ElementTree) (e : Edit), P t → t.edit? e = some t' → P t')
    (h : t.Reachable) : P t := by
  have hrun : ∀ (edits : List Edit) (t : ElementTree), P t → P (t.run edits) := by
    -- The tree changes along the run, so it is not fixed in the induction.
    intro edits
    induction edits with
    | nil => exact fun _ ht => ht
    | cons e edits ih =>
      intro t ht
      refine ih _ ?_
      show P ((t.edit? e).getD t)
      cases he : t.edit? e with
      | none => exact ht
      | some t' => exact hedit t t' e ht he
  obtain ⟨name, edits, rfl⟩ := h
  exact hrun edits _ (hroot name)

theorem reachable_linked (h : t.Reachable) : Linked t :=
  reachable_induction (fun name => linked_single name ∅) (fun _ _ _ => linked_edit?) h

/-! ## Siblings -/

/-- In a list without repetition, what follows an element stands directly after it. -/
theorem following_eq_some_iff {a b : NodeId} {ms : List NodeId} (h : ms.Nodup) :
    following a ms = some b ↔ ∃ l r, ms = l ++ a :: b :: r := by
  induction ms with
  | nil => simp [following]
  | cons m ms ih =>
    obtain ⟨hm, hms⟩ := List.nodup_cons.1 h
    simp only [following]
    split
    · rename_i he
      subst he
      constructor
      · intro hb
        obtain ⟨r, rfl⟩ := List.head?_eq_some_iff.1 hb
        exact ⟨[], r, rfl⟩
      · rintro ⟨l, r, hlr⟩
        match l with
        | [] =>
          cases hlr
          rfl
        | _ :: l =>
          cases hlr
          exact absurd (by simp) hm
    · rename_i hne
      rw [ih hms]
      constructor
      · rintro ⟨l, r, rfl⟩
        exact ⟨m :: l, r, rfl⟩
      · rintro ⟨l, r, hlr⟩
        match l with
        | [] =>
          cases hlr
          exact absurd rfl hne
        | _ :: l =>
          cases hlr
          exact ⟨l, r, rfl⟩

/-- The next sibling of an element stands directly after it among the children of one element. -/
theorem Linked.nextElementSibling_iff (h : Linked t) {a b : NodeId} :
    t.toDocument.nextElementSibling a = some b ↔
      ∃ p l r, t.toDocument.children p = l ++ a :: b :: r := by
  rw [nextElementSibling_eq, Option.bind_eq_some_iff]
  constructor
  · rintro ⟨p, -, hab⟩
    obtain ⟨l, r, hlr⟩ := (following_eq_some_iff (h.children_nodup p)).1 hab
    exact ⟨p, l, r, hlr⟩
  · rintro ⟨p, l, r, hlr⟩
    refine ⟨p, (h.mem_children_iff a p).1 (by simp [hlr]), ?_⟩
    exact (following_eq_some_iff (h.children_nodup p)).2 ⟨l, r, hlr⟩

/-! ## The links of every tree -/

/-- In every tree that can be built, each element but the root has a parent that was added before
it, and is listed once, among its children. Children are listed as they were added, and first
children and siblings stand as listed. -/
theorem reachable_links (h : t.Reachable) :
    (root.index < t.size ∧ t.toDocument.root = root ∧ t.toDocument.parent root = none) ∧
    (∀ n, n ≠ root → n.index < t.size →
      ∃ p, t.toDocument.parent n = some p ∧ p.index < n.index ∧
        (t.toDocument.children p).count n = 1 ∧
        ∀ q, q ≠ p → n ∉ t.toDocument.children q) ∧
    (∀ p, ∀ n ∈ t.toDocument.children p, n ≠ root ∧ n.index < t.size) ∧
    (∀ p, (t.toDocument.children p).Pairwise (·.index < ·.index)) ∧
    (∀ p, t.toDocument.firstElementChild p = (t.toDocument.children p).head?) ∧
    (∀ a b, t.toDocument.nextElementSibling a = some b ↔
      ∃ p l r, t.toDocument.children p = l ++ a :: b :: r) := by
  have hl := reachable_linked h
  refine ⟨⟨hl.size_pos, rfl, hl.parent_root⟩, ?_, ?_, hl.children_sorted,
    firstElementChild_eq t, fun a b => hl.nextElementSibling_iff⟩
  · intro n hn hlt
    obtain ⟨p, hp, hpn⟩ := hl.parent_lt n hn hlt
    refine ⟨p, hp, hpn, ?_, fun q hq hmem => ?_⟩
    · rw [(hl.children_nodup p).count, if_pos ((hl.mem_children_iff n p).2 hp)]
    · exact hq (Option.some.inj (((hl.mem_children_iff n q).1 hmem).symm.trans hp))
  · intro p n hn
    refine ⟨?_, hl.lt_size_of_mem_children hn⟩
    rintro rfl
    exact Nat.not_lt_zero _ (hl.lt_of_mem_children hn)

/-- The last child of `body` is added after a grandchild and after a change that is refused. -/
def lateChild : ElementTree :=
  (single "body" ∅).run
    [.append ⟨0⟩ "section", .append ⟨0⟩ "div", .append ⟨1⟩ "h2", .append ⟨9⟩ "p",
     .setAttribute ⟨3⟩ "id" "first", .append ⟨0⟩ "p"]

theorem reachable_links_lateChild :
    lateChild.Reachable ∧ lateChild.toDocument.children ⟨0⟩ = [⟨1⟩, ⟨2⟩, ⟨4⟩] ∧
      lateChild.toDocument.nextElementSibling ⟨2⟩ = some ⟨4⟩ ∧
      ∃ p, lateChild.toDocument.parent ⟨4⟩ = some p ∧ p.index < 4 ∧
        (lateChild.toDocument.children p).count ⟨4⟩ = 1 ∧
        ∀ q, q ≠ p → ⟨4⟩ ∉ lateChild.toDocument.children q := by
  have hreach : lateChild.Reachable := ⟨"body", _, rfl⟩
  have hchildren : lateChild.toDocument.children ⟨0⟩ = [⟨1⟩, ⟨2⟩, ⟨4⟩] := rfl
  obtain ⟨-, hparent, -, -, -, hnext⟩ := reachable_links hreach
  exact ⟨hreach, hchildren, (hnext ⟨2⟩ ⟨4⟩).2 ⟨⟨0⟩, [⟨1⟩], [], hchildren⟩,
    hparent ⟨4⟩ (by decide) (by decide)⟩

end StructureLint.ElementTree
