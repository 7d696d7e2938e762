import Mathlib.Data.List.Nodup
import StructureLint.Document.Path
/-!
# Following links to their end

Two loops go from element to element: from a first child on to its siblings, and from an element up
to its ancestors. Nothing in a document makes such a loop end. `Trail` says of one that it ends, and
which elements it passes. None of them is passed twice (`Trail.nodup`), and a bounded loop lists
them all as soon as its bound is no less than their number (`Trail.siblings_eq`,
`Trail.ancestry_eq`).
-/

namespace StructureLint

/-- Going on from an element by `next` ends, after the elements listed. -/
inductive Trail (next : NodeId → Option NodeId) : Option NodeId → List NodeId → Prop
  | nil : Trail next none []
  | cons {n : NodeId} {ns : List NodeId} :
      Trail next (next n) ns → Trail next (some n) (n :: ns)

namespace Trail

variable {next : NodeId → Option NodeId} {start : Option NodeId} {ns ms : List NodeId}
variable {m n : NodeId}

theorem unique (h : Trail next start ns) (h' : Trail next start ms) : ns = ms := by
  induction h generalizing ms with
  | nil =>
    cases h'
    rfl
  | cons _ ih =>
    cases h' with
    | cons h' => rw [ih h']

theorem head?_eq (h : Trail next start ns) : ns.head? = start := by
  cases h <;> rfl

/-- From any element that is passed the loop goes on as before. -/
theorem suffix (h : Trail next start ns) (hm : m ∈ ns) :
    ∃ ms, Trail next (some m) ms ∧ ms <:+ ns := by
  induction h with
  | nil => cases hm
  | @cons n ns hnext ih =>
    rcases List.mem_cons.1 hm with rfl | hm
    · exact ⟨m :: ns, .cons hnext, List.suffix_rfl⟩
    · obtain ⟨ms, hms, hsuffix⟩ := ih hm
      exact ⟨ms, hms, hsuffix.trans (List.suffix_cons n ns)⟩

theorem mem_of_next (h : Trail next start ns) (hm : m ∈ ns) (hn : next m = some n) : n ∈ ns := by
  obtain ⟨_, hms, hsuffix⟩ := h.suffix hm
  cases hms with
  | cons hms =>
    rw [hn] at hms
    cases hms
    exact hsuffix.subset (by simp)

/-- An element that came twice would be followed by the same elements both times. -/
theorem nodup (h : Trail next start ns) : ns.Nodup := by
  induction h with
  | nil => exact List.nodup_nil
  | @cons n ns hnext ih =>
    refine List.nodup_cons.2 ⟨fun hn => ?_, ih⟩
    obtain ⟨ms, hms, hsuffix⟩ := hnext.suffix hn
    have hlen := hsuffix.length_le
    rw [hms.unique (.cons hnext), List.length_cons] at hlen
    omega

/-! ## Bounded loops -/

theorem siblings_eq {l : Links} {steps : Nat} (h : Trail l.nextElementSibling start ns)
    (hlen : ns.length ≤ steps) : l.siblings steps start = ns := by
  induction h generalizing steps with
  | nil =>
    cases steps <;> rfl
  | @cons n ns _ ih =>
    rw [List.length_cons] at hlen
    obtain ⟨steps, rfl⟩ : ∃ k, steps = k + 1 := ⟨steps - 1, by omega⟩
    rw [Links.siblings, ih (by omega)]

theorem ancestry_eq {doc : Document} {steps : Nat} (h : Trail doc.parent (some n) ns)
    (hlen : ns.length ≤ steps) : doc.ancestry steps n = ns := by
  induction ns generalizing n steps with
  | nil => cases h
  | cons m ns ih =>
    cases h with
    | cons h =>
      rw [List.length_cons] at hlen
      obtain ⟨steps, rfl⟩ : ∃ k, steps = k + 1 := ⟨steps - 1, by omega⟩
      rw [Document.ancestry]
      cases hp : doc.parent m with
      | none =>
        rw [hp] at h
        cases h
        rfl
      | some p =>
        rw [hp] at h
        show m :: doc.ancestry steps p = m :: ns
        rw [ih h (by omega)]

end Trail

end StructureLint
