import StructureLint.Proofs.Document.TreeLinks
import StructureLint.Proofs.ElementTree.DocumentOrder
/-!
# What a change leaves as it was

An element that is added is listed right behind all that was below its parent, and of the answers
about other elements only those change that must lead to it (`Document.withLastChild`). A new value
of an attribute changes one answer (`Document.withAttr`). `edits_frame` says both, of trees and of
what selectors find in them.

That the one insertion into the children of an element is one insertion into the document order is
shown for the order as a relation (`preorder_insert`), which knows nothing of trees that are built.
-/

namespace StructureLint

/-- Two values are set in either order, unless they are set for the same key. -/
theorem KeyMap.insert_comm {α : Type} (m : KeyMap α) {k j : String} (h : k ≠ j) (v w : α) :
    (m.insert k v).insert j w = (m.insert j w).insert k v := by
  refine ext_get? fun key => ?_
  simp only [get?_insert]
  by_cases hk : k = key
  · subst hk
    simp [Ne.symm h]
  · simp [hk]

namespace Document

variable {doc doc' : Document} {stack out : List NodeId}

/-- The document with one more element, which has a name and is the last child of `p`. -/
def withLastChild (doc : Document) (p new : NodeId) (name : String) : Document where
  root := doc.root
  localName n := if n = new then some name else doc.localName n
  attr := doc.attr
  parent n := if n = new then some p else doc.parent n
  firstElementChild n :=
    if n = p ∧ doc.children p = [] then some new else doc.firstElementChild n
  nextElementSibling n :=
    if (doc.children p).getLast? = some n then some new else doc.nextElementSibling n
  size := doc.size + 1
  children n := if n = p then doc.children p ++ [new] else doc.children n

/-- The document with another value for one attribute of one element. -/
def withAttr (doc : Document) (n : NodeId) (name value : String) : Document :=
  { doc with attr := fun m key => if m = n ∧ key = name then some value else doc.attr m key }

/-- Documents that give the same answers are the same. -/
theorem eq_of_answers (root : doc.root = doc'.root)
    (localName : ∀ n, doc.localName n = doc'.localName n)
    (attr : ∀ n key, doc.attr n key = doc'.attr n key) (parent : ∀ n, doc.parent n = doc'.parent n)
    (first : ∀ n, doc.firstElementChild n = doc'.firstElementChild n)
    (next : ∀ n, doc.nextElementSibling n = doc'.nextElementSibling n) (size : doc.size = doc'.size)
    (children : ∀ n, doc.children n = doc'.children n) : doc = doc' := by
  obtain ⟨⟨_, _, _, _, _, _, _⟩, _⟩ := doc
  obtain ⟨⟨_, _, _, _, _, _, _⟩, _⟩ := doc'
  cases root
  cases size
  cases funext localName
  cases funext fun n => funext (attr n)
  cases funext parent
  cases funext first
  cases funext next
  cases funext children
  rfl

/-! ## One more child in the document order -/

theorem preorder_congr (h : Preorder doc stack out)
    (hsame : ∀ n ∈ out, doc'.children n = doc.children n) : Preorder doc' stack out := by
  induction h with
  | nil => exact .nil
  | cons _ _ ihbelow ihafter =>
    refine .cons ?_ (ihafter fun m hm => hsame m (by simp [hm]))
    rw [hsame _ (by simp)]
    exact ihbelow fun m hm => hsame m (by simp [hm])

/-- Where one element listed has one child more, at the end and without children of its own, this
child is listed behind all that was below that element. -/
theorem preorder_insert {p new : NodeId} (h : Preorder doc stack out) (hnodup : out.Nodup)
    (hp : p ∈ out) (hparent : doc'.children p = doc.children p ++ [new])
    (hnew : doc'.children new = [])
    (hsame : ∀ n ∈ out, n ≠ p → doc'.children n = doc.children n) :
    ∃ before block after, out = before ++ block ++ after ∧ Preorder doc [p] block ∧
      Preorder doc' stack (before ++ block ++ new :: after) := by
  have hleaf : Preorder doc' [new] [new] := by
    have hbelow : Preorder doc' (doc'.children new) [] := by
      rw [hnew]
      exact .nil
    exact .cons hbelow .nil
  induction h with
  | nil => cases hp
  | @cons n rest below after hbelow hafter ihbelow ihafter =>
    obtain ⟨hn, hnodup⟩ := List.nodup_cons.1 hnodup
    obtain ⟨hnodup₁, hnodup₂, hdisjoint⟩ := List.nodup_append.1 hnodup
    -- The element is listed once, so the parts that do not have it are listed as before.
    have hkeep : ∀ {stack part : List NodeId}, Preorder doc stack part → p ∉ part →
        (∀ m ∈ part, m ∈ n :: (below ++ after)) → Preorder doc' stack part :=
      fun hpart hnot hsub => preorder_congr hpart fun m hm =>
        hsame m (hsub m hm) fun he => hnot (he ▸ hm)
    have hkeep_after : p ∉ after → Preorder doc' rest after := fun hnot =>
      hkeep hafter hnot fun m hm => by simp [hm]
    by_cases hpn : p = n
    · subst hpn
      refine ⟨[], p :: below, after, rfl, ?_, ?_⟩
      · simpa using Preorder.cons hbelow .nil
      · have hchildren : Preorder doc' (doc'.children p) (below ++ [new]) := by
          rw [hparent]
          exact preorder_append
            (hkeep hbelow (fun hm => hn (by simp [hm])) fun m hm => by simp [hm]) hleaf
        simpa using Preorder.cons hchildren (hkeep_after fun hm => hn (by simp [hm]))
    · have hn' : doc'.children n = doc.children n := hsame n (by simp) (Ne.symm hpn)
      have hmem : p ∈ below ++ after := (List.mem_cons.1 hp).resolve_left hpn
      rcases List.mem_append.1 hmem with hmem | hmem
      · obtain ⟨b, block, a, rfl, hblock, hlisted⟩ :=
          ihbelow hnodup₁ hmem fun m hm => hsame m (by simp [hm])
        refine ⟨n :: b, block, a ++ after, by simp, hblock, ?_⟩
        rw [← hn'] at hlisted
        simpa using Preorder.cons hlisted (hkeep_after fun hm => hdisjoint p hmem p hm rfl)
      · obtain ⟨b, block, a, rfl, hblock, hlisted⟩ :=
          ihafter hnodup₂ hmem fun m hm => hsame m (by simp [hm])
        refine ⟨n :: (below ++ b), block, a, by simp, hblock, ?_⟩
        have hbelow' : Preorder doc' (doc'.children n) below := by
          rw [hn']
          exact hkeep hbelow (fun hm => hdisjoint p hm p hmem rfl) fun m hm => by simp [hm]
        simpa using Preorder.cons hbelow' hlisted

end Document

/-- Whether an element matches depends on nothing but its own name and attributes. -/
theorem Selector.matchesNode_congr {doc doc' : Document} {n : NodeId}
    (hname : doc'.localName n = doc.localName n) (hattr : ∀ key, doc'.attr n key = doc.attr n key)
    (s : Selector) : s.matchesNode doc' n = s.matchesNode doc n := by
  have hholds : ∀ c : Condition, c.holds doc' n = c.holds doc n := by
    intro c
    cases c <;> simp [Condition.holds, hattr]
  have hcompound : ∀ c : Compound, c.matchesNode doc' n = c.matchesNode doc n := by
    intro c
    simp only [Compound.matchesNode, hname, hholds]
  simp only [Selector.matchesNode, hcompound]

namespace ElementTree

open Document

variable {t t' : ElementTree} {p n : NodeId}

/-! ## A new element -/

theorem localName_push (t : ElementTree) (p : NodeId) (name : String) (as : KeyMap String)
    (n : NodeId) : (t.push p name as).toDocument.localName n =
      if n = t.nextId then some name else t.toDocument.localName n := by
  simp only [toDocument, get?_push]
  by_cases hn : n = t.nextId
  · simp [hn]
  · rw [if_neg hn, if_neg hn]
    cases t.get? n with
    | none => rfl
    | some e =>
      simp only [Option.map_some]
      split <;> rfl

theorem attr_push (t : ElementTree) (p : NodeId) (name : String) (n : NodeId) (key : String) :
    (t.push p name ∅).toDocument.attr n key = t.toDocument.attr n key := by
  simp only [toDocument, get?_push]
  by_cases hn : n = t.nextId
  · rw [if_pos hn, hn, get?_nextId]
    rfl
  · rw [if_neg hn]
    cases t.get? n with
    | none => rfl
    | some e =>
      simp only [Option.map_some, Option.bind_some]
      split <;> rfl

/-- Only the last one of a list has another one follow it when that is added at the end. -/
theorem following_concat {ms : List NodeId} (h : ms.Nodup) (new n : NodeId) :
    following n (ms ++ [new]) = if ms.getLast? = some n then some new else following n ms := by
  induction ms with
  | nil => simp [following]
  | cons m ms ih =>
    obtain ⟨hm, hms⟩ := List.nodup_cons.1 h
    rw [List.cons_append, following, following, ih hms]
    by_cases hmn : m = n
    · subst hmn
      have hlast : ms.getLast? ≠ some m := fun hl => hm (List.mem_of_getLast? hl)
      cases ms with
      | nil => simp
      | cons k ks => simp [hlast]
    · cases ms with
      | nil => simp [hmn, following]
      | cons k ks => simp [hmn]

theorem following_of_notMem {ms : List NodeId} (h : n ∉ ms) : following n ms = none := by
  induction ms with
  | nil => rfl
  | cons m ms ih =>
    obtain ⟨hne, hms⟩ := not_or.1 fun hor => h (List.mem_cons.2 hor)
    rw [following, if_neg (Ne.symm hne), ih hms]

theorem Linked.nextElementSibling_push (h : Linked t) (hp : p.index < t.size) (name : String)
    (as : KeyMap String) (n : NodeId) : (t.push p name as).toDocument.nextElementSibling n =
      if (t.toDocument.children p).getLast? = some n then some t.nextId
      else t.toDocument.nextElementSibling n := by
  have hchild : (t.toDocument.children p).getLast? = some n → t.toDocument.parent n = some p :=
    fun hlast => (h.mem_children_iff n p).1 (List.mem_of_getLast? hlast)
  rw [nextElementSibling_eq, nextElementSibling_eq, parent_push]
  by_cases hn : n = t.nextId
  · -- The new element comes last, and was in no list of children before.
    have hnone : t.toDocument.parent n = none := by simp [toDocument, hn, get?_nextId]
    have hmem : n ∉ t.toDocument.children p := fun hm => by
      rw [(h.mem_children_iff n p).1 hm] at hnone
      cases hnone
    rw [if_pos hn, Option.bind_some, children_push t hp, if_pos rfl,
      following_concat (h.children_nodup p), following_of_notMem hmem, hnone]
    rfl
  · rw [if_neg hn]
    cases hq : t.toDocument.parent n with
    | none =>
      rw [if_neg fun hlast => by rw [hchild hlast] at hq; cases hq]
      rfl
    | some q =>
      rw [Option.bind_some, Option.bind_some, children_push t hp]
      by_cases hqp : q = p
      · rw [if_pos hqp, hqp, following_concat (h.children_nodup p)]
      · rw [if_neg hqp, if_neg fun hlast => hqp ?_]
        exact Option.some.inj (hq.symm.trans (hchild hlast))

theorem Linked.toDocument_push (h : Linked t) (hp : p.index < t.size) (name : String) :
    (t.push p name ∅).toDocument = t.toDocument.withLastChild p t.nextId name := by
  have hchildren := children_push t hp name ∅
  have hfirst : ∀ n, (t.push p name ∅).toDocument.firstElementChild n =
      if n = p ∧ t.toDocument.children p = [] then some t.nextId
      else t.toDocument.firstElementChild n := by
    intro n
    rw [firstElementChild_eq, firstElementChild_eq, hchildren]
    by_cases hn : n = p
    · subst hn
      cases hc : t.toDocument.children n <;> simp
    · simp [hn]
  refine eq_of_answers rfl (localName_push t p name ∅) (attr_push t p name)
    (parent_push t p name ∅) hfirst
    (h.nextElementSibling_push hp name ∅) (size_push t p name ∅) fun n => ?_
  rw [hchildren]
  by_cases hn : n = p <;> simp [withLastChild, hn]

/-! ## A new value of an attribute -/

theorem toDocument_setAttribute? {name value : String}
    (h : t.setAttribute? n name value = some t') :
    t'.toDocument = t.toDocument.withAttr n name value := by
  have hn : n.index < t.size := by
    unfold setAttribute? at h
    split at h
    · exact has_iff.1 ‹_›
    · cases h
  have hparent := parent_setAttribute? h
  have hchildren := children_setAttribute? h
  refine eq_of_answers rfl (fun m => ?_) (fun m key => ?_) hparent (fun m => ?_) (fun m => ?_)
    (size_setAttribute? h) hchildren
  · simp only [toDocument, withAttr, get?_setAttribute? h]
    cases t.get? m with
    | none => rfl
    | some e =>
      simp only [Option.map_some]
      split <;> rfl
  · simp only [toDocument, withAttr, get?_setAttribute? h]
    by_cases hm : m = n
    · subst hm
      have he : t.get? m = some t.elements[m.index] := Array.getElem?_eq_getElem hn
      simp [he, KeyMap.get?_insert, eq_comm]
    · cases t.get? m <;> simp [hm]
  · rw [firstElementChild_eq, hchildren, ← firstElementChild_eq]
    rfl
  · rw [nextElementSibling_eq, hparent]
    simp only [hchildren]
    rw [← nextElementSibling_eq]
    rfl

theorem setAttribute?_of_not_has (h : t.has n = false) (name value : String) :
    t.setAttribute? n name value = none := by
  rw [setAttribute?, if_neg (by simp [h])]

theorem exists_setAttribute? (h : t.has n = true) (name value : String) :
    ∃ t', t.setAttribute? n name value = some t' := by
  rw [setAttribute?, if_pos h]
  exact ⟨_, rfl⟩

theorem has_setAttribute? {name value : String} (h : t.setAttribute? n name value = some t')
    (m : NodeId) : t'.has m = t.has m := by
  rw [has, has, size_setAttribute? h]

theorem eq_of_get? (h : ∀ n, t.get? n = t'.get? n) : t = t' := by
  obtain ⟨es⟩ := t
  obtain ⟨es'⟩ := t'
  exact congrArg _ (Array.ext_getElem? fun i => h ⟨i⟩)

/-- Values of different attributes may be set in either order. -/
theorem setAttribute?_comm (t : ElementTree) {n m : NodeId} {k j : String}
    (h : (n, k) ≠ (m, j)) (v w : String) :
    (t.setAttribute? n k v).bind (·.setAttribute? m j w) =
      (t.setAttribute? m j w).bind (·.setAttribute? n k v) := by
  by_cases hn : t.has n = true
  · obtain ⟨t₁, ht₁⟩ := exists_setAttribute? hn k v
    by_cases hm : t.has m = true
    · obtain ⟨t₂, ht₂⟩ := exists_setAttribute? hm j w
      obtain ⟨u₁, hu₁⟩ := exists_setAttribute? ((has_setAttribute? ht₁ m).trans hm) j w
      obtain ⟨u₂, hu₂⟩ := exists_setAttribute? ((has_setAttribute? ht₂ n).trans hn) k v
      rw [ht₁, ht₂, Option.bind_some, Option.bind_some, hu₁, hu₂]
      refine congrArg some (eq_of_get? fun i => ?_)
      rw [get?_setAttribute? hu₁, get?_setAttribute? ht₁, get?_setAttribute? hu₂,
        get?_setAttribute? ht₂]
      cases t.get? i with
      | none => rfl
      | some e =>
        simp only [Option.map_some]
        by_cases hin : i = n
        · by_cases him : i = m
          · have hkj : k ≠ j := fun hkj => h (by rw [← hin, him, hkj])
            simp only [if_pos hin, if_pos him, KeyMap.insert_comm e.attributes hkj v w]
          · simp only [if_pos hin, if_neg him]
        · simp only [if_neg hin]
    · have hm' : t.has m = false := Bool.eq_false_iff.2 hm
      rw [ht₁, Option.bind_some, setAttribute?_of_not_has hm',
        setAttribute?_of_not_has ((has_setAttribute? ht₁ m).trans hm')]
      rfl
  · have hn' : t.has n = false := Bool.eq_false_iff.2 hn
    rw [setAttribute?_of_not_has hn']
    cases ht₂ : t.setAttribute? m j w with
    | none => rfl
    | some t₂ =>
      rw [Option.bind_some, setAttribute?_of_not_has ((has_setAttribute? ht₂ n).trans hn')]
      rfl

/-! ## What an edit leaves as it was -/

/-- In the document order the new element stands behind all that was below its parent. -/
theorem Linked.descendants_push (h : Linked t) (hp : p.index < t.size) (name : String) :
    ∃ before block after, t.toDocument.descendants = before ++ block ++ after ∧
      Preorder t.toDocument [p] block ∧
      (t.push p name ∅).toDocument.descendants = before ++ block ++ t.nextId :: after := by
  have h' := h.push hp name ∅
  have hchildren := children_push t hp name ∅
  have hnew : t.toDocument.children t.nextId = [] := by
    simp [toDocument, get?_nextId]
  have hparent : (t.push p name ∅).toDocument.children p =
      t.toDocument.children p ++ [t.nextId] := by
    rw [hchildren, if_pos rfl]
  have hleaf : (t.push p name ∅).toDocument.children t.nextId = [] := by
    rw [hchildren, if_neg (ne_nextId hp).symm, hnew]
  obtain ⟨before, block, after, hout, hblock, hlisted⟩ :=
    preorder_insert h.preorder_root h.nodup_preorder_root (h.mem_preorder_root.2 hp) hparent hleaf
      fun n _ hn => by rw [hchildren, if_neg hn]
  refine ⟨before, block, after, ?_, hblock, ?_⟩
  · rw [h.descendants_eq, hout]
  · rw [h'.descendants_eq]
    exact preorder_unique h'.preorder_root hlisted

/-- What was selected is still selected, and the new element at its place if it matches. -/
theorem Linked.select_push (h : Linked t) (name : String)
    {front after : List NodeId} (hold : t.toDocument.descendants = front ++ after)
    (hnew : (t.push p name ∅).toDocument.descendants = front ++ t.nextId :: after)
    (s : Selector) : (t.push p name ∅).toDocument.select s =
      front.filter (s.matchesNode t.toDocument) ++
        (if s.matchesNode (t.push p name ∅).toDocument t.nextId then [t.nextId] else []) ++
        after.filter (s.matchesNode t.toDocument) := by
  have hsame : ∀ n ∈ front ++ after, s.matchesNode (t.push p name ∅).toDocument n =
      s.matchesNode t.toDocument n := by
    intro n hn
    rw [← hold, h.descendants_eq, h.mem_preorder_root] at hn
    refine Selector.matchesNode_congr ?_ (attr_push t p name n) s
    rw [localName_push, if_neg (ne_nextId hn)]
  rw [select, hnew, List.filter_append, List.filter_cons,
    List.filter_congr fun n hn => hsame n (List.mem_append_left _ hn),
    List.filter_congr fun n hn => hsame n (List.mem_append_right _ hn)]
  split <;> simp

/-- An element that is added is listed directly behind what was listed from its parent down; of the
other answers only the links to it change. A new value of an attribute changes one answer, and
different attributes are set in either order. -/
theorem edits_frame (h : t.Reachable) :
    (∀ p name, t.has p = true → ∃ t', t.append? p name = some (⟨t.size⟩, t') ∧
      t.has ⟨t.size⟩ = false ∧ t'.toDocument = t.toDocument.withLastChild p ⟨t.size⟩ name ∧
      ∃ before block after, t.toDocument.descendants = before ++ block ++ after ∧
        Preorder t.toDocument [p] block ∧
        t'.toDocument.descendants = before ++ block ++ ⟨t.size⟩ :: after ∧
        ∀ s : Selector, ∃ front behind,
          front.Sublist (before ++ block) ∧ behind.Sublist after ∧
          t.toDocument.select s = front ++ behind ∧
          t'.toDocument.select s = front ++
            (if s.matchesNode t'.toDocument ⟨t.size⟩ then [⟨t.size⟩] else []) ++ behind) ∧
    (∀ n k v, t.has n = true → ∃ t', t.setAttribute? n k v = some t' ∧
      t'.toDocument = t.toDocument.withAttr n k v) ∧
    ∀ n k v m j w, (n, k) ≠ (m, j) →
      (t.setAttribute? n k v).bind (·.setAttribute? m j w) =
        (t.setAttribute? m j w).bind (·.setAttribute? n k v) := by
  have hl := reachable_linked h
  refine ⟨fun p name hp => ?_, fun n k v hn => ?_, fun n k v m j w hne => ?_⟩
  · have hp' := has_iff.1 hp
    obtain ⟨before, block, after, hold, hblock, hnew⟩ := hl.descendants_push hp' name
    refine ⟨_, if_pos hp, by simp [has], hl.toDocument_push hp' name,
      before, block, after, hold, hblock, hnew, fun s =>
        ⟨_, _, List.filter_sublist, List.filter_sublist, ?_, hl.select_push name hold hnew s⟩⟩
    rw [select, hold, List.filter_append]
  · obtain ⟨t', ht'⟩ := exists_setAttribute? hn k v
    exact ⟨t', ht', toDocument_setAttribute? ht'⟩
  · exact setAttribute?_comm t hne v w

theorem edits_frame_lateChild :
    lateChild.Reachable ∧ lateChild.has ⟨1⟩ = true ∧ lateChild.has ⟨3⟩ = true ∧
      (⟨3⟩, "id") ≠ ((⟨3⟩, "class") : NodeId × String) ∧
      (∃ t', lateChild.append? ⟨1⟩ "p" = some (⟨5⟩, t') ∧
        t'.toDocument = lateChild.toDocument.withLastChild ⟨1⟩ ⟨5⟩ "p" ∧
        t'.toDocument.descendants = [⟨0⟩, ⟨1⟩, ⟨3⟩, ⟨5⟩, ⟨2⟩, ⟨4⟩]) ∧
      (∃ t', lateChild.setAttribute? ⟨3⟩ "id" "last" = some t' ∧
        t'.toDocument = lateChild.toDocument.withAttr ⟨3⟩ "id" "last") ∧
      (lateChild.setAttribute? ⟨3⟩ "id" "last").bind (·.setAttribute? ⟨3⟩ "class" "new") =
        (lateChild.setAttribute? ⟨3⟩ "class" "new").bind (·.setAttribute? ⟨3⟩ "id" "last") := by
  have hreach : lateChild.Reachable := ⟨"body", _, rfl⟩
  have hne : (⟨3⟩, "id") ≠ ((⟨3⟩, "class") : NodeId × String) := by decide
  obtain ⟨happend, hset, hcomm⟩ := edits_frame hreach
  obtain ⟨t', ht', -, hdoc, -⟩ := happend ⟨1⟩ "p" rfl
  have hlisted : t'.toDocument.descendants = [⟨0⟩, ⟨1⟩, ⟨3⟩, ⟨5⟩, ⟨2⟩, ⟨4⟩] := by
    cases ht'
    rfl
  exact ⟨hreach, rfl, rfl, hne, ⟨t', ht', hdoc, hlisted⟩, hset ⟨3⟩ "id" "last" rfl,
    hcomm ⟨3⟩ "id" "last" ⟨3⟩ "class" "new" hne⟩

end ElementTree

end StructureLint
