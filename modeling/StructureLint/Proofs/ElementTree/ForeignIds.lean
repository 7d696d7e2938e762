import StructureLint.Proofs.Document.Paths
import StructureLint.Proofs.ElementTree.Description
import StructureLint.Proofs.Selector.Composition
import StructureLint.Rule.HeadinglessSections
/-!
# Ids that a tree does not have

A change is a few accesses to the elements stored. An access whose index is out of range ends it,
and nothing that was written before is undone (`Accesses`, `Edit.carryOut`). The first access of
every change is to the element that the change names, so a change either goes through or leaves the
tree as it was (`carryOut_eq`), and histories with changes that end so lead to no other trees than
those in which they are left out (`after_eq_run`).

Of the readers only two go to an element without looking whether it is there: the one that finds the
next sibling, in the children of the parent, and the one that describes the tree, in the children of
each element. In a linked tree these are there. An id that the tree does not have is answered as
`Absent`.
-/

namespace StructureLint.ElementTree

variable {t : ElementTree} {n m : NodeId}

/-! ## Accesses -/

/-- Accesses to the elements stored, one after another. They end with the first index that is out of
range; the elements stay as they are by then. -/
abbrev Accesses (α : Type) : Type :=
  ExceptT NodeId (StateM ElementTree) α

namespace Accesses

/-- The element at an index. -/
def load (n : NodeId) : Accesses Element := do
  match (← get).get? n with
  | some e => return e
  | none => throw n

/-- Changes the element at an index. -/
def amend (n : NodeId) (f : Element → Element) : Accesses Unit := do
  let _ ← load n
  modify fun t => ⟨t.elements.modify n.index f⟩

/-- Stores one element more. -/
def store (e : Element) : Accesses Unit :=
  modify fun t => ⟨t.elements.push e⟩

/-- Adds an element as the last child of `parent`. -/
def append (parent : NodeId) (name : String) : Accesses NodeId := do
  let new := (← get).nextId
  amend parent fun e => { e with children := e.children ++ [new] }
  store ⟨name, ∅, some parent, []⟩
  return new

/-- Sets an attribute. -/
def setAttribute (n : NodeId) (name value : String) : Accesses Unit :=
  amend n fun e => { e with attributes := e.attributes.insert name value }

/-- Finds the next sibling among the children of the parent, which is taken to be there. -/
def nextSibling (n : NodeId) : Accesses (Option NodeId) := do
  match ((← get).get? n).bind (·.parent) with
  | none => return none
  | some p =>
    let e ← load p
    return following n e.children

end Accesses

/-- The element that a change is about. -/
def Edit.target : Edit → NodeId
  | .append parent _ => parent
  | .setAttribute n _ _ => n

/-- Carries out a change. -/
def Edit.carryOut : Edit → Accesses Unit
  | .append parent name => do
    let _ ← Accesses.append parent name
  | .setAttribute n name value => Accesses.setAttribute n name value

/-- The tree after changes are carried out one after another, beginning with a root. Where one of
them breaks off, the next one finds the elements as they were by then. -/
def after (name : String) (edits : List Edit) : ElementTree :=
  edits.foldl (fun t e => (e.carryOut t).2) (single name ∅)

/-! ## Carrying out a change -/

namespace Accesses

variable {α β : Type} {x : Accesses α} {f : α → Accesses β} {t' : ElementTree}

theorem bind_of_ok {a : α} (h : x t = (.ok a, t')) : (x >>= f) t = f a t' := by
  show ExceptT.bindCont f (x t).1 (x t).2 = _
  rw [h]
  rfl

theorem bind_of_error (h : x t = (.error n, t')) : (x >>= f) t = (.error n, t') := by
  show ExceptT.bindCont f (x t).1 (x t).2 = _
  rw [h]
  rfl

theorem load_of_get? {e : Element} (h : t.get? n = some e) : load n t = (.ok e, t) := by
  show (match t.get? n with | some e => pure e | none => throw n : Accesses Element) t = _
  rw [h]
  rfl

theorem load_of_none (h : t.get? n = none) : load n t = (.error n, t) := by
  show (match t.get? n with | some e => pure e | none => throw n : Accesses Element) t = _
  rw [h]
  rfl

theorem amend_of_lt (h : n.index < t.size) (f : Element → Element) :
    amend n f t = (.ok (), ⟨t.elements.modify n.index f⟩) :=
  bind_of_ok (load_of_get? (Array.getElem?_eq_getElem h))

theorem amend_of_le (h : t.size ≤ n.index) (f : Element → Element) :
    amend n f t = (.error n, t) :=
  bind_of_error (load_of_none (get?_of_size_le h))

theorem append_of_lt (h : n.index < t.size) (name : String) :
    append n name t = (.ok t.nextId, t.push n name ∅) :=
  (bind_of_ok rfl).trans (bind_of_ok (amend_of_lt h _))

theorem append_of_le (h : t.size ≤ n.index) (name : String) :
    append n name t = (.error n, t) :=
  (bind_of_ok rfl).trans (bind_of_error (amend_of_le h _))

end Accesses

theorem edit?_eq_none_iff (t : ElementTree) (e : Edit) :
    t.edit? e = none ↔ t.size ≤ e.target.index := by
  cases e <;> simp [edit?, append?, setAttribute?, has, Edit.target]

/-- A change goes through as `edit?` has it, or its first access ends it. -/
theorem carryOut_eq (t : ElementTree) (e : Edit) : e.carryOut t =
    match t.edit? e with
    | some t' => (.ok (), t')
    | none => (.error e.target, t) := by
  by_cases h : e.target.index < t.size
  · cases e with
    | append parent name =>
      have hp : t.has parent = true := has_iff.2 h
      have hedit : t.edit? (.append parent name) = some (t.push parent name ∅) := by
        rw [edit?, append?, if_pos hp, Option.map_some]
      rw [hedit]
      exact Accesses.bind_of_ok (Accesses.append_of_lt h name)
    | setAttribute n name value =>
      have hedit : t.edit? (.setAttribute n name value) = some _ := if_pos (has_iff.2 h)
      rw [hedit]
      exact Accesses.amend_of_lt h _
  · rw [Nat.not_lt] at h
    rw [(edit?_eq_none_iff t e).2 h]
    cases e with
    | append parent name => exact Accesses.bind_of_error (Accesses.append_of_le h name)
    | setAttribute n name value => exact Accesses.amend_of_le h _

theorem after_eq_run (name : String) (edits : List Edit) :
    after name edits = (single name ∅).run edits := by
  have hstep : (fun (t : ElementTree) (e : Edit) => (e.carryOut t).2) =
      fun t e => (t.edit? e).getD t := by
    funext t e
    rw [carryOut_eq]
    cases t.edit? e <;> rfl
  rw [after, run, hstep]

/-! ## Readers -/

theorem Linked.nextSibling_accesses (h : Linked t) (n : NodeId) :
    Accesses.nextSibling n t = (.ok (t.toDocument.nextElementSibling n), t) := by
  show (match t.toDocument.parent n with
    | none => pure none
    | some p => Accesses.load p >>= fun e => pure (following n e.children) :
      Accesses (Option NodeId)) t = _
  rw [nextElementSibling_eq]
  cases hp : t.toDocument.parent n with
  | none => rfl
  | some p =>
    have hlt : p.index < t.size := Nat.lt_trans (h.lt_of_parent hp) (lt_size_of_parent hp)
    have he : t.get? p = some t.elements[p.index] := Array.getElem?_eq_getElem hlt
    rw [Option.bind_some, children_of_get? he]
    exact Accesses.bind_of_ok (Accesses.load_of_get? he)

/-- The ids that a document hands out lie below a bound. -/
structure HandsOutBelow (doc : Document) (bound : Nat) : Prop where
  root : doc.root.index < bound
  parent : ∀ n p, doc.parent n = some p → p.index < bound
  firstElementChild : ∀ n c, doc.firstElementChild n = some c → c.index < bound
  nextElementSibling : ∀ n m, doc.nextElementSibling n = some m → m.index < bound
  children : ∀ n, ∀ c ∈ doc.children n, c.index < bound
  descendants : ∀ n ∈ doc.descendants, n.index < bound
  select : ∀ s, ∀ n ∈ doc.select s, n.index < bound

/-- What a document answers about an id of another one. -/
structure Absent (doc : Document) (n : NodeId) : Prop where
  localName : doc.localName n = none
  attr : ∀ name, doc.attr n name = none
  parent : doc.parent n = none
  firstElementChild : doc.firstElementChild n = none
  nextElementSibling : doc.nextElementSibling n = none
  children : doc.children n = []
  descendants : n ∉ doc.descendants
  segments : doc.segments n = [⟨"?", none⟩]
  elementPath : doc.elementPath n = "?"
  matchesNode : ∀ s : Selector, s.matchesNode doc n = false
  select : ∀ s, n ∉ doc.select s
  hasNoHeading : doc.hasNoHeading n = true

namespace Linked

theorem handsOutBelow (h : Linked t) : HandsOutBelow t.toDocument t.size where
  root := h.size_pos
  parent _ _ hp := Nat.lt_trans (h.lt_of_parent hp) (lt_size_of_parent hp)
  firstElementChild n c hc := by
    rw [firstElementChild_eq] at hc
    exact h.lt_size_of_mem_children (List.mem_of_head? hc)
  nextElementSibling n m hm := by
    obtain ⟨p, l, r, hlr⟩ := h.nextElementSibling_iff.1 hm
    have hmem : m ∈ t.toDocument.children p := by simp [hlr]
    exact h.lt_size_of_mem_children hmem
  children _ _ := h.lt_size_of_mem_children
  descendants n hn := by
    rw [h.descendants_eq] at hn
    exact h.mem_preorder_root.1 hn
  select _ _ hn := lt_size_of_matchesNode (h.mem_select.1 hn)

theorem absent (h : Linked t) (hn : t.size ≤ n.index) : Absent t.toDocument n := by
  have hget := get?_of_size_le hn
  have hname : t.toDocument.localName n = none := by simp [toDocument, hget]
  have hparent : t.toDocument.parent n = none := by simp [toDocument, hget]
  have hfirst : t.toDocument.firstElementChild n = none := by simp [toDocument, hget]
  have hsegments : t.toDocument.segments n = [⟨"?", none⟩] := by
    simp [Document.segments, Document.ancestry, hparent, Document.segment_of_root hparent,
      Document.shownName, hname]
  have hbelow := h.handsOutBelow
  exact {
    localName := hname
    attr := fun _ => by simp [toDocument, hget]
    parent := hparent
    firstElementChild := hfirst
    nextElementSibling := by simp [nextElementSibling_eq, hparent]
    children := by simp [toDocument, hget]
    descendants := fun hmem => Nat.not_lt.2 hn (hbelow.descendants n hmem)
    segments := hsegments
    elementPath := by rw [Document.elementPath, hsegments]; rfl
    matchesNode := fun s => s.matchesNode_of_nameless hname
    select := fun s hmem => Nat.not_lt.2 hn (hbelow.select s n hmem)
    hasNoHeading := by simp [Document.hasNoHeading, hfirst] }

end Linked

/-! ## Every history -/

/-- A change breaks off just when it names an element that the tree does not have, and leaves the
tree as it was. No reader meets an index out of range, and ids that the tree does not have are
answered as absent. -/
theorem foreign_ids_harmless (name : String) (edits : List Edit) (ht : t = after name edits) :
    t = (single name ∅).run edits ∧
    (∀ e, (t.size ≤ e.target.index →
        e.carryOut t = (.error e.target, t) ∧ after name (edits ++ [e]) = t) ∧
      (e.target.index < t.size →
        ∃ t', e.carryOut t = (.ok (), t') ∧ t.edit? e = some t' ∧
          after name (edits ++ [e]) = t')) ∧
    (∀ n, Accesses.nextSibling n t = (.ok (t.toDocument.nextElementSibling n), t)) ∧
    t.specAt? t.size root = some t.toSpec ∧
    HandsOutBelow t.toDocument t.size ∧
    ∀ n, t.size ≤ n.index → Absent t.toDocument n := by
  have hrun := ht.trans (after_eq_run name edits)
  have hl : Linked t := reachable_linked ⟨name, edits, hrun⟩
  have hsnoc : ∀ e, after name (edits ++ [e]) = (e.carryOut t).2 := fun e => by
    rw [ht, after, after, List.foldl_append]
    rfl
  refine ⟨hrun, fun e => ⟨fun he => ?_, fun he => ?_⟩, hl.nextSibling_accesses, ?_,
    hl.handsOutBelow, fun _ => hl.absent⟩
  · have hrefused : e.carryOut t = (.error e.target, t) := by
      rw [carryOut_eq, (edit?_eq_none_iff t e).2 he]
    exact ⟨hrefused, by rw [hsnoc, hrefused]⟩
  · cases hedit : t.edit? e with
    | none => exact absurd ((edit?_eq_none_iff t e).1 hedit) (Nat.not_le.2 he)
    | some t' =>
      have hdone : e.carryOut t = (.ok (), t') := by rw [carryOut_eq, hedit]
      exact ⟨t', hdone, rfl, by rw [hsnoc, hdone]⟩
  · rw [hl.toSpec_eq]
    exact hl.specAt?_root

/-- The fourth change breaks off, and so would another child of the element 9. -/
theorem foreign_ids_harmless_lateChild :
    (Edit.append ⟨9⟩ "p").carryOut lateChild = (.error ⟨9⟩, lateChild) ∧
      Accesses.nextSibling ⟨2⟩ lateChild = (.ok (some ⟨4⟩), lateChild) ∧
      lateChild.specAt? 5 root = some lateChild.toSpec ∧
      Absent lateChild.toDocument ⟨5⟩ ∧
      Absent lateChild.toDocument ⟨18446744073709551615⟩ := by
  obtain ⟨-, hedit, hnext, hspec, -, habsent⟩ :=
    foreign_ids_harmless (t := lateChild) "body"
      [.append ⟨0⟩ "section", .append ⟨0⟩ "div", .append ⟨1⟩ "h2", .append ⟨9⟩ "p",
       .setAttribute ⟨3⟩ "id" "first", .append ⟨0⟩ "p"] (by decide +kernel)
  exact ⟨((hedit (.append ⟨9⟩ "p")).1 (by decide)).1, hnext ⟨2⟩, hspec,
    habsent ⟨5⟩ (by decide), habsent ⟨18446744073709551615⟩ (by decide)⟩

end StructureLint.ElementTree
