import StructureLint.Proofs.Document.Paths
import StructureLint.Proofs.ElementTree.TreeLinks
/-!
# Paths in a tree that is built

In a linked tree the way up from an element ends at the root, and the path of a child is that of
its parent with one step more (`Linked.segments_child`). So walking the path of an element from the
root leads back to it, and two elements have different paths, also as texts unless a name has a mark
of the notation in it (`elementPath_identifies`).
-/

namespace StructureLint.ElementTree

open Document

variable {t : ElementTree} {n p c m : NodeId}

theorem exists_localName (hn : n.index < t.size) :
    ∃ name, t.toDocument.localName n = some name := by
  have he : t.get? n = some t.elements[n.index] := Array.getElem?_eq_getElem hn
  exact ⟨t.elements[n.index].localName, by simp [toDocument, he]⟩

namespace Linked

theorem reaches_of_mem_trail (h : Linked t) {ns : List NodeId}
    (hns : Trail t.toDocument.parent (some n) ns) (hm : m ∈ ns) : t.toDocument.Reaches m n := by
  induction ns generalizing n with
  | nil => cases hm
  | cons a ns ih =>
    cases hns with
    | cons hns =>
      rcases List.mem_cons.1 hm with rfl | hm
      · exact .refl
      · cases hp : t.toDocument.parent a with
        | none =>
          rw [hp] at hns
          cases hns
          cases hm
        | some p =>
          rw [hp] at hns
          exact (ih hns hm).child ((h.mem_children_iff a p).2 hp)

theorem segments_root (h : Linked t) :
    t.toDocument.segments root = [⟨t.toDocument.shownName root, none⟩] := by
  have hup : t.toDocument.ancestry (t.size + 1) root = [root] := by
    refine (h.trail_ancestry (n := root) h.size_pos).unique (.cons ?_)
    rw [h.parent_root]
    exact .nil
  show (List.map t.toDocument.segment (t.toDocument.ancestry (t.size + 1) root)).reverse = _
  rw [hup, List.map_singleton, List.reverse_singleton, segment_of_root h.parent_root]

/-- The path of a child goes on from the path of its parent. -/
theorem segments_child (h : Linked t) (hp : t.toDocument.parent c = some p) :
    t.toDocument.segments c = t.toDocument.segments p ++ [t.toDocument.segment c] := by
  have hc := lt_size_of_parent hp
  have hlt := h.lt_of_parent hp
  have hup : t.toDocument.ancestry (t.size + 1) c = c :: t.toDocument.ancestry (t.size + 1) p := by
    refine (h.trail_ancestry hc).unique (.cons ?_)
    rw [hp]
    exact h.trail_ancestry (by omega)
  show (List.map t.toDocument.segment (t.toDocument.ancestry (t.size + 1) c)).reverse = _
  rw [hup, List.map_cons, List.reverse_cons]
  rfl

/-- Walking the path of an element from the root leads to this element. -/
theorem locate?_segments (h : Linked t) (hn : n.index < t.size) :
    t.toDocument.locate? (t.toDocument.segments n) = some n := by
  induction hk : n.index using Nat.strongRecOn generalizing n with
  | _ k ih =>
    by_cases hroot : n = root
    · rw [hroot, h.segments_root]
      exact if_pos rfl
    · obtain ⟨p, hp, hlt⟩ := h.parent_lt n hroot hn
      obtain ⟨name, hname⟩ := exists_localName hn
      rw [h.segments_child hp, locate?_append (segments_ne_nil p),
        ih p.index (by omega) (by omega) rfl, Option.bind_some]
      exact child?_segment hp ((h.mem_children_iff n p).2 hp) hname

theorem plain_of_mem_segments (h : Linked t) (hn : n.index < t.size)
    (hplain : ∀ m, t.toDocument.Reaches m n → ∀ name, t.toDocument.localName m = some name →
      Plain name) : ∀ s ∈ t.toDocument.segments n, Plain s.name := by
  intro s hs
  obtain ⟨m, hm, rfl⟩ := List.mem_map.1 (List.mem_reverse.1 hs)
  have hreaches := h.reaches_of_mem_trail (h.trail_ancestry hn) hm
  rw [segment_name, shownName]
  cases hname : t.toDocument.localName m with
  | none => decide +kernel
  | some name => exact hplain m hreaches name hname

end Linked

/-- In every tree that can be built, the path of an element leads from the root back to it. Paths of
different elements have different texts if no name on the way has a colon or an angle bracket. -/
theorem elementPath_identifies (h : t.Reachable) :
    (∀ n, n.index < t.size → t.toDocument.locate? (t.toDocument.segments n) = some n) ∧
    ∀ a b, a.index < t.size → b.index < t.size →
      (∀ m, t.toDocument.Reaches m a ∨ t.toDocument.Reaches m b →
        ∀ name, t.toDocument.localName m = some name → Plain name) →
      a ≠ b → t.toDocument.elementPath a ≠ t.toDocument.elementPath b := by
  have hl := reachable_linked h
  refine ⟨fun n => hl.locate?_segments, fun a b ha hb hplain hne heq => hne ?_⟩
  have hsegments := segments_of_elementPath
    (hl.plain_of_mem_segments ha fun m hm => hplain m (.inl hm))
    (hl.plain_of_mem_segments hb fun m hm => hplain m (.inr hm)) heq
  have hlocated := hl.locate?_segments ha
  rw [hsegments, hl.locate?_segments hb] at hlocated
  exact (Option.some.inj hlocated).symm

/-- Two children of the root have the same name, and so have a child of the root and a
grandchild. -/
def twoSections : ElementTree :=
  (single "body" ∅).run
    [.append ⟨0⟩ "section", .append ⟨0⟩ "p", .append ⟨0⟩ "section", .append ⟨3⟩ "p"]

theorem twoSections_plain {name : String} (h : twoSections.toDocument.localName n = some name) :
    Plain name := by
  have hall : ∀ e ∈ twoSections.elements.toList, Plain e.localName := by decide +kernel
  obtain ⟨e, he, rfl⟩ := Option.map_eq_some_iff.1 h
  exact hall e (Array.mem_toList_iff.2 (Array.mem_of_getElem? he))

theorem elementPath_identifies_twoSections :
    twoSections.Reachable ∧
      twoSections.toDocument.segments ⟨4⟩ =
        [⟨"body", none⟩, ⟨"section", some 2⟩, ⟨"p", none⟩] ∧
      twoSections.toDocument.locate? [⟨"body", none⟩, ⟨"section", some 2⟩, ⟨"p", none⟩] =
        some ⟨4⟩ ∧
      twoSections.toDocument.elementPath ⟨2⟩ ≠ twoSections.toDocument.elementPath ⟨4⟩ := by
  have hreach : twoSections.Reachable := ⟨"body", _, rfl⟩
  have hsegments : twoSections.toDocument.segments ⟨4⟩ =
      [⟨"body", none⟩, ⟨"section", some 2⟩, ⟨"p", none⟩] := by decide +kernel
  obtain ⟨hlocate, hpaths⟩ := elementPath_identifies hreach
  refine ⟨hreach, hsegments, hsegments ▸ hlocate ⟨4⟩ (by decide), ?_⟩
  exact hpaths ⟨2⟩ ⟨4⟩ (by decide) (by decide) (fun m _ name hname => twoSections_plain hname)
    (by decide)

end StructureLint.ElementTree
