import StructureLint.KeyMap
/-!
# Nested description of a document

An `ElementSpec` describes an element with everything below it. It carries no ids: an element is
known by its position.
-/

namespace StructureLint

/-- An element, its attributes and its children in document order. -/
structure ElementSpec where
  name : String
  attributes : KeyMap String := ∅
  children : List ElementSpec := []
deriving Repr

namespace ElementSpec

instance : Inhabited ElementSpec := ⟨{ name := "" }⟩

mutual

/-- The number of elements described. -/
def size : ElementSpec → Nat
  | ⟨_, _, children⟩ => 1 + sizes children

/-- The number of elements that a list of descriptions describes. -/
def sizes : List ElementSpec → Nat
  | [] => 0
  | s :: ss => s.size + sizes ss

end

mutual

/-- Whether two descriptions agree in every name, attribute and child. -/
def same : ElementSpec → ElementSpec → Bool
  | ⟨a, as, cs⟩, ⟨b, bs, ds⟩ => a == b && decide (as = bs) && allSame cs ds

/-- Whether two lists of descriptions agree, one by one. -/
def allSame : List ElementSpec → List ElementSpec → Bool
  | [], [] => true
  | c :: cs, d :: ds => same c d && allSame cs ds
  | _, _ => false

end

mutual

theorem same_iff : ∀ s t : ElementSpec, same s t = true ↔ s = t
  | ⟨a, as, cs⟩, ⟨b, bs, ds⟩ => by
    simp only [same, Bool.and_eq_true, beq_iff_eq, decide_eq_true_eq, mk.injEq,
      allSame_iff cs ds, and_assoc]

theorem allSame_iff : ∀ ss ts : List ElementSpec, allSame ss ts = true ↔ ss = ts
  | [], [] => by simp [allSame]
  | [], _ :: _ => by simp [allSame]
  | _ :: _, [] => by simp [allSame]
  | s :: ss, t :: ts => by
    simp only [allSame, Bool.and_eq_true, List.cons.injEq, same_iff s t, allSame_iff ss ts]

end

instance : DecidableEq ElementSpec := fun s t => decidable_of_iff _ (same_iff s t)

end ElementSpec

end StructureLint
