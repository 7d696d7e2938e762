import StructureLint.Linter.Basic
import StructureLint.Proofs.ElementTree.TreeLinks
/-!
# Stored children and followed links

A tree stores the children of every element. A document that has only the links of the tree finds
them by going from the first child to the next sibling, which the tree in turn looks up in the
stored list of the parent. In a linked tree both give the same (`Linked.trail_children`), so the
tree and the document of its links are one document (`Linked.linksOnly_eq`), and nothing that is
computed from a document tells them apart (`linksOnly_agrees`).
-/

namespace StructureLint.ElementTree

variable {t : ElementTree}

namespace Linked

theorem length_children_le (h : Linked t) (p : NodeId) :
    (t.toDocument.children p).length ≤ t.size :=
  h.length_le (h.children_nodup p) fun _ hc => h.lt_size_of_mem_children hc

theorem children_linksOnly (h : Linked t) (p : NodeId) :
    t.toDocument.linksOnly.children p = t.toDocument.children p :=
  (h.trail_children p).siblings_eq (Nat.le_succ_of_le (h.length_children_le p))

theorem linksOnly_eq (h : Linked t) : t.toDocument.linksOnly = t.toDocument := by
  show { t.toDocument with children := t.toDocument.linksOnly.children } = t.toDocument
  rw [funext h.children_linksOnly]

end Linked

/-- In every tree that can be built, following the links finds the children that are stored. So a
document that has no more than the links answers alike, and every linter gives it the same report.
-/
theorem linksOnly_agrees (h : t.Reachable) :
    (∀ n, Trail t.toDocument.nextElementSibling (t.toDocument.firstElementChild n)
        (t.toDocument.children n) ∧
      t.toDocument.linksOnly.children n = t.toDocument.children n) ∧
    t.toDocument.linksOnly.descendants = t.toDocument.descendants ∧
    (∀ s, t.toDocument.linksOnly.select s = t.toDocument.select s) ∧
    (∀ n, t.toDocument.linksOnly.elementPath n = t.toDocument.elementPath n) ∧
    RunContext.forDocument t.toDocument.linksOnly = RunContext.forDocument t.toDocument ∧
    ∀ (l : Linter) (ctx : RunContext) (given : Conditions),
      l.run t.toDocument.linksOnly ctx given = l.run t.toDocument ctx given ∧
        (l.run t.toDocument.linksOnly ctx given).formatText t.toDocument.linksOnly =
          (l.run t.toDocument ctx given).formatText t.toDocument := by
  have hl := reachable_linked h
  refine ⟨fun n => ⟨hl.trail_children n, hl.children_linksOnly n⟩, ?_⟩
  rw [hl.linksOnly_eq]
  exact ⟨rfl, fun _ => rfl, fun _ => rfl, rfl, fun _ _ _ => ⟨rfl, rfl⟩⟩

theorem linksOnly_agrees_lateChild :
    lateChild.Reachable ∧
      Trail lateChild.toDocument.nextElementSibling (some ⟨1⟩) [⟨1⟩, ⟨2⟩, ⟨4⟩] ∧
      lateChild.toDocument.linksOnly.children ⟨0⟩ = [⟨1⟩, ⟨2⟩, ⟨4⟩] ∧
      lateChild.toDocument.linksOnly.children ⟨7⟩ = [] ∧
      lateChild.toDocument.linksOnly.descendants = [⟨0⟩, ⟨1⟩, ⟨3⟩, ⟨2⟩, ⟨4⟩] := by
  have hreach : lateChild.Reachable := ⟨"body", _, rfl⟩
  obtain ⟨hchildren, hdescendants, -⟩ := linksOnly_agrees hreach
  exact ⟨hreach, (hchildren ⟨0⟩).1, (hchildren ⟨0⟩).2, (hchildren ⟨7⟩).2, hdescendants⟩

end StructureLint.ElementTree
