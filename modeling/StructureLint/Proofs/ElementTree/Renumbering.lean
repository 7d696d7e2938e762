import StructureLint.Proofs.ElementTree.Description
/-!
# Trees and descriptions are two views

A tree may have its elements in any order of creation. The tree of its description has the same
elements in document order: the element `i` stands for the one at place `i` in the document order of
the first tree (`mirrors_ofSpec`). Its children stand for the children, one by one, and so the
parents and the siblings stand for each other as well (`renumbers_of_mirrors`).
-/

namespace StructureLint.ElementTree

variable {t u : ElementTree} {d : List NodeId}

/-! ## Elements that stand for others -/

/-- The first id, taken as a place in the list, stands for the second. -/
def StandsFor (d : List NodeId) (c m : NodeId) : Prop :=
  d[c.index]? = some m

/-- What is stored of an element agrees with what another tree answers about one of its own, where
the ids stored stand for the elements listed. -/
structure Mirrors (d : List NodeId) (t : ElementTree) (e : Element) (n : NodeId) : Prop where
  localName : t.toDocument.localName n = some e.localName
  attr : ∀ name, t.toDocument.attr n name = e.attributes.get? name
  children : List.Forall₂ (StandsFor d) e.children (t.toDocument.children n)

mutual

/-- Let an element and all below it be listed from the place `k` on. Then what is laid out from `k`
on for its description mirrors them one by one. -/
theorem mirrors_layout (h : Linked t) : ∀ (s : ElementSpec) (parent : Option NodeId) (k : Nat)
    (n : NodeId), n.index < t.size → h.describe n = s → HasAt d k (h.preorder n) →
    List.Forall₂ (Mirrors d t) (layout parent k s) (h.preorder n)
  | ⟨name, attributes, children⟩, parent, k, n, hn, hs, hat => by
    have he : t.get? n = some t.elements[n.index] := Array.getElem?_eq_getElem hn
    rw [h.describe_of_get? he] at hs
    obtain ⟨hname, hattributes, hchildren⟩ := ElementSpec.mk.inj hs
    rw [h.listsPreorder n, children_of_get? he] at hat ⊢
    have hmem : ∀ c ∈ t.elements[n.index].children, c.index < t.size := by
      rw [← children_of_get? he]
      exact fun c hc => h.lt_size_of_mem_children hc
    obtain ⟨hids, hbelow⟩ := mirrors_layoutAll h children ⟨k⟩ (k + 1) _ hmem hchildren hat.tail
    rw [layout]
    refine .cons ⟨?_, ?_, ?_⟩ hbelow
    · simp [toDocument, he, hname]
    · simp [toDocument, he, hattributes]
    · rw [children_of_get? he]
      exact hids

theorem mirrors_layoutAll (h : Linked t) : ∀ (ss : List ElementSpec) (parent : NodeId) (k : Nat)
    (ns : List NodeId), (∀ n ∈ ns, n.index < t.size) → ns.map h.describe = ss →
    HasAt d k (ns.flatMap h.preorder) →
    List.Forall₂ (StandsFor d) (siblingIds k ss) ns ∧
      List.Forall₂ (Mirrors d t) (layoutAll parent k ss) (ns.flatMap h.preorder)
  | [], _, _, ns, _, hss, _ => by
    cases List.map_eq_nil_iff.1 hss
    exact ⟨.nil, .nil⟩
  | s :: ss, parent, k, ns, hns, hss, hat => by
    obtain ⟨n, ns, rfl, hs, hss⟩ := List.map_eq_cons_iff.1 hss
    rw [List.flatMap_cons] at hat ⊢
    have hfirst : StandsFor d ⟨k⟩ n := by
      have hn := hat.left
      rw [h.listsPreorder n] at hn
      exact hn.head
    have hrest := hat.right
    rw [← h.size_describe, hs] at hrest
    have hmirror := mirrors_layout h s (some parent) k n (hns n (by simp)) hs hat.left
    obtain ⟨hids, hmirrors⟩ := mirrors_layoutAll h ss parent (k + s.size) ns
      (fun m hm => hns m (by simp [hm])) hss hrest
    exact ⟨.cons hfirst hids, List.rel_append hmirror hmirrors⟩

end

/-- The elements of the tree that is built from the description of a tree mirror the elements of
that tree in document order. -/
theorem mirrors_ofSpec (h : Linked t) :
    List.Forall₂ (Mirrors (h.preorder root) t) (ofSpec t.toSpec).elements.toList
      (h.preorder root) := by
  rw [elements_ofSpec, h.toSpec_eq]
  exact mirrors_layout h _ none 0 root h.size_pos rfl (.all _)

/-! ## Links that are carried over -/

theorem getElem?_of_forall₂ {α β : Type} {R : α → β → Prop} {as : List α} {bs : List β}
    (h : List.Forall₂ R as bs) {i : Nat} {b : β} (hb : bs[i]? = some b) :
    ∃ a, as[i]? = some a ∧ R a b := by
  induction h generalizing i with
  | nil => cases hb
  | @cons a b' as bs hab _ ih =>
    cases i with
    | zero =>
      cases hb
      exact ⟨a, rfl, hab⟩
    | succ i => exact ih hb

/-- The first element stands for the second; if there is none, there is no second either. -/
def Carried (d : List NodeId) (x y : Option NodeId) : Prop :=
  x.map (fun c => d[c.index]?) = y.map some

theorem carried_head? {cs ms : List NodeId} (h : List.Forall₂ (StandsFor d) cs ms) :
    Carried d cs.head? ms.head? := by
  cases h with
  | nil => rfl
  | cons hcm _ => exact congrArg some hcm

/-- In a list without repetition places stand for the same element only if they are the same. -/
theorem StandsFor.eq_iff (hd : d.Nodup) {c c' m m' : NodeId} (h : StandsFor d c m)
    (h' : StandsFor d c' m') : c = c' ↔ m = m' := by
  constructor
  · rintro rfl
    exact Option.some.inj (h.symm.trans h')
  · rintro rfl
    have hlt := (List.getElem?_eq_some_iff.1 h).1
    exact congrArg NodeId.mk ((List.getElem?_inj hlt hd).1 (h.trans h'.symm))

theorem carried_following (hd : d.Nodup) {c m : NodeId} (h : StandsFor d c m) {cs ms : List NodeId}
    (hcs : List.Forall₂ (StandsFor d) cs ms) :
    Carried d (following c cs) (following m ms) := by
  induction hcs with
  | nil => rfl
  | @cons c' m' cs ms hcm hrest ih =>
    rw [following, following]
    by_cases hc : c' = c
    · rw [if_pos hc, if_pos ((hcm.eq_iff hd h).1 hc)]
      exact carried_head? hrest
    · rw [if_neg hc, if_neg fun hm => hc ((hcm.eq_iff hd h).2 hm)]
      exact ih

/-- The tree `u` is `t` with its elements in the order of `d`: its element `i` has the name and
attributes of the one at place `i`, and links lead to the elements that stand for those linked to.
-/
structure Renumbers (d : List NodeId) (u t : ElementTree) : Prop where
  size_eq : u.size = t.size
  length_eq : d.length = t.size
  localName : ∀ i n, d[i]? = some n → u.toDocument.localName ⟨i⟩ = t.toDocument.localName n
  attr : ∀ i n, d[i]? = some n →
    ∀ name, u.toDocument.attr ⟨i⟩ name = t.toDocument.attr n name
  parent : ∀ i n, d[i]? = some n →
    Carried d (u.toDocument.parent ⟨i⟩) (t.toDocument.parent n)
  firstElementChild : ∀ i n, d[i]? = some n →
    Carried d (u.toDocument.firstElementChild ⟨i⟩) (t.toDocument.firstElementChild n)
  nextElementSibling : ∀ i n, d[i]? = some n →
    Carried d (u.toDocument.nextElementSibling ⟨i⟩) (t.toDocument.nextElementSibling n)

section

variable (hm : List.Forall₂ (Mirrors d t) u.elements.toList d)
include hm

theorem get?_of_mirrors {c m : NodeId} (h : StandsFor d c m) :
    ∃ e, u.get? c = some e ∧ Mirrors d t e m := by
  obtain ⟨e, he, hmirror⟩ := getElem?_of_forall₂ hm h
  exact ⟨e, by simpa [get?] using he, hmirror⟩

theorem children_of_mirrors {c m : NodeId} (h : StandsFor d c m) :
    List.Forall₂ (StandsFor d) (u.toDocument.children c) (t.toDocument.children m) := by
  obtain ⟨e, he, hmirror⟩ := get?_of_mirrors hm h
  rw [children_of_get? he]
  exact hmirror.children

theorem parent_of_mirrors (hu : Linked u) (ht : Linked t) (hd : d.Nodup) {c m p : NodeId}
    (h : StandsFor d c m) (hp : u.toDocument.parent c = some p) :
    ∃ q, StandsFor d p q ∧ t.toDocument.parent m = some q := by
  -- The parent comes before the element, so it is listed too.
  have hlt : p.index < d.length :=
    Nat.lt_trans (hu.lt_of_parent hp) (List.getElem?_eq_some_iff.1 h).1
  have hq : StandsFor d p d[p.index] := List.getElem?_eq_getElem hlt
  obtain ⟨j, hj⟩ := List.mem_iff_getElem?.1 ((hu.mem_children_iff c p).2 hp)
  obtain ⟨m', hm', hcm'⟩ := getElem?_of_forall₂ (children_of_mirrors hm hq).flip hj
  cases (h.eq_iff hd hcm').1 rfl
  exact ⟨_, hq, (ht.mem_children_iff m _).1 (List.mem_of_getElem? hm')⟩

theorem carried_parent (hu : Linked u) (ht : Linked t) (hd : d.Nodup) (hroot : d[0]? = some root)
    {c m : NodeId} (h : StandsFor d c m) :
    Carried d (u.toDocument.parent c) (t.toDocument.parent m) := by
  cases hp : u.toDocument.parent c with
  | some p =>
    obtain ⟨q, hq, hparent⟩ := parent_of_mirrors hm hu ht hd h hp
    rw [hparent]
    exact congrArg some hq
  | none =>
    -- Only the root has no parent, and it stands for the root.
    have hc : c = root := by
      obtain ⟨e, he, -⟩ := get?_of_mirrors hm h
      refine Decidable.byContradiction fun hne => ?_
      obtain ⟨p, hparent, -⟩ := hu.parent_lt c hne (lt_size_of_get? he)
      cases hp.symm.trans hparent
    subst hc
    have hstands : StandsFor d root root := hroot
    cases (h.eq_iff hd hstands).1 rfl
    rw [ht.parent_root]
    rfl

theorem carried_nextElementSibling (hu : Linked u) (ht : Linked t) (hd : d.Nodup)
    (hroot : d[0]? = some root) {c m : NodeId} (h : StandsFor d c m) :
    Carried d (u.toDocument.nextElementSibling c) (t.toDocument.nextElementSibling m) := by
  rw [nextElementSibling_eq, nextElementSibling_eq]
  cases hp : u.toDocument.parent c with
  | some p =>
    obtain ⟨q, hq, hparent⟩ := parent_of_mirrors hm hu ht hd h hp
    rw [hparent]
    exact carried_following hd h (children_of_mirrors hm hq)
  | none =>
    have hcarried := carried_parent hm hu ht hd hroot h
    rw [hp] at hcarried
    cases hq : t.toDocument.parent m with
    | none => rfl
    | some q =>
      rw [hq] at hcarried
      cases hcarried

/-- Where the elements of a linked tree mirror those that a list without repetition has of another
one, the root first, the one tree is the other in the order of the list. -/
theorem renumbers_of_mirrors (hu : Linked u) (ht : Linked t) (hd : d.Nodup)
    (hroot : d[0]? = some root) (hlen : d.length = t.size) : Renumbers d u t where
  size_eq := by rw [size_eq_length, hm.length_eq, hlen]
  length_eq := hlen
  localName i n hn := by
    obtain ⟨e, he, hmirror⟩ := get?_of_mirrors hm (c := ⟨i⟩) hn
    rw [hmirror.localName]
    simp [toDocument, he]
  attr i n hn name := by
    obtain ⟨e, he, hmirror⟩ := get?_of_mirrors hm (c := ⟨i⟩) hn
    rw [hmirror.attr]
    simp [toDocument, he]
  parent i n hn := carried_parent hm hu ht hd hroot hn
  firstElementChild i n hn := by
    rw [firstElementChild_eq, firstElementChild_eq]
    exact carried_head? (children_of_mirrors hm hn)
  nextElementSibling i n hn := carried_nextElementSibling hm hu ht hd hroot hn

end

/-- In document order, the tree built from the description of a linked tree is that tree. -/
theorem Linked.renumbers (h : Linked t) :
    Renumbers t.toDocument.descendants (ofSpec t.toSpec) t := by
  rw [h.descendants_eq]
  refine renumbers_of_mirrors (mirrors_ofSpec h) (linked_ofSpec _) h h.nodup_preorder_root ?_
    h.length_preorder_root
  rw [h.listsPreorder root]
  rfl

/-! ## Two views of one document -/

/-- A description is read back from the tree made of it. A tree that can be built, in whatever
order, has a description, from which the same tree is built, but for its elements being numbered in
document order. -/
theorem description_round_trip :
    (∀ s : ElementSpec,
      (ofSpec s).specAt? (ofSpec s).size root = some s ∧ (ofSpec s).toSpec = s ∧
        (ofSpec s).toDocument.descendants = (List.range (ofSpec s).size).map NodeId.mk) ∧
    ∀ t : ElementTree, t.Reachable →
      t.specAt? t.size root = some t.toSpec ∧
        Renumbers t.toDocument.descendants (ofSpec t.toSpec) t := by
  constructor
  · intro s
    refine ⟨?_, toSpec_ofSpec s, descendants_ofSpec s⟩
    rw [(linked_ofSpec s).specAt?_root, (describe_ofSpec s).1]
  · intro t ht
    have h := reachable_linked ht
    exact ⟨by rw [h.specAt?_root, h.toSpec_eq], h.renumbers⟩

theorem description_round_trip_lateChild :
    lateChild.Reachable ∧ lateChild.toDocument.descendants = [⟨0⟩, ⟨1⟩, ⟨3⟩, ⟨2⟩, ⟨4⟩] ∧
      (ofSpec lateChild.toSpec).size = 5 ∧
      (ofSpec lateChild.toSpec).toDocument.localName ⟨2⟩ = lateChild.toDocument.localName ⟨3⟩ ∧
      (ofSpec lateChild.toSpec).toDocument.attr ⟨2⟩ "id" = lateChild.toDocument.attr ⟨3⟩ "id" ∧
      Carried [⟨0⟩, ⟨1⟩, ⟨3⟩, ⟨2⟩, ⟨4⟩]
        ((ofSpec lateChild.toSpec).toDocument.nextElementSibling ⟨3⟩)
        (lateChild.toDocument.nextElementSibling ⟨2⟩) := by
  have hreach : lateChild.Reachable := ⟨"body", _, rfl⟩
  have hlisted : lateChild.toDocument.descendants = [⟨0⟩, ⟨1⟩, ⟨3⟩, ⟨2⟩, ⟨4⟩] := rfl
  obtain ⟨-, hrenumbers⟩ := description_round_trip.2 lateChild hreach
  rw [hlisted] at hrenumbers
  exact ⟨hreach, hlisted, hrenumbers.size_eq, hrenumbers.localName 2 _ rfl,
    hrenumbers.attr 2 _ rfl "id", hrenumbers.nextElementSibling 3 _ rfl⟩

end StructureLint.ElementTree
