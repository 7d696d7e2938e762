import StructureLint.Document.Basic
/-!
# Document order

`Document.walk` takes elements from a stack, puts the children of each in its place, and so lists
the elements in pre-order. A document may contradict itself so that the walk never ends; the number
of steps it may take is therefore given, and a walk that has not ended by then has no result.

`walk_mono`: a walk that ends does not depend on the number of steps. `Preorder` is the same order
as a relation, which has no steps to count.
-/

namespace StructureLint.Document

/-- The elements reached from a stack, the top of it first, every element followed by all that its
children reach. None if the stack is not empty after `steps` elements. -/
def walk (doc : Document) : Nat → List NodeId → Option (List NodeId)
  | _, [] => some []
  | 0, _ :: _ => none
  | steps + 1, n :: stack => (doc.walk steps (doc.children n ++ stack)).map (n :: ·)

/-- As many elements as a walk that ends can list. It lists an element once for every way down to
it from the root, and `size` elements allow fewer than `2 ^ size` ways. -/
def walkBound (doc : Document) : Nat :=
  Nat.pow 2 (doc.size + 1)

/-- All elements in document order, the root first. -/
def descendants (doc : Document) : List NodeId :=
  (doc.walk doc.walkBound [doc.root]).getD []

/-- The elements listed are those reached from the stack, in pre-order. -/
inductive Preorder (doc : Document) : List NodeId → List NodeId → Prop
  | nil : Preorder doc [] []
  | cons {n : NodeId} {rest below after : List NodeId} :
      Preorder doc (doc.children n) below → Preorder doc rest after →
      Preorder doc (n :: rest) (n :: (below ++ after))

@[simp]
theorem walk_nil (doc : Document) (steps : Nat) : doc.walk steps [] = some [] := by
  cases steps <;> rfl

theorem walk_succ (doc : Document) (steps : Nat) (n : NodeId) (stack : List NodeId) :
    doc.walk (steps + 1) (n :: stack)
      = (doc.walk steps (doc.children n ++ stack)).map (n :: ·) := rfl

/-- More steps do not change the result of a walk that ends. -/
theorem walk_mono (doc : Document) {steps more : Nat} {stack out : List NodeId}
    (h : doc.walk steps stack = some out) (hle : steps ≤ more) :
    doc.walk more stack = some out := by
  induction steps generalizing more stack out with
  | zero =>
    match stack with
    | [] => simpa using h
    | _ :: _ => simp [walk] at h
  | succ steps ih =>
    match stack with
    | [] => simpa using h
    | n :: stack =>
      obtain ⟨more, rfl⟩ : ∃ k, more = k + 1 := ⟨more - 1, by omega⟩
      rw [walk_succ, Option.map_eq_some_iff] at h ⊢
      obtain ⟨rest, hrest, rfl⟩ := h
      exact ⟨rest, ih hrest (by omega), rfl⟩

end StructureLint.Document
