/-!
# Evaluating tasks side by side

A pool of workers takes tasks in some order and puts the result of each into a slot of its own, at
the position of the task. Nothing depends on the order in which they finish.
-/

namespace StructureLint.Pool

/-- The orders in which `n` tasks can finish: each of them once. -/
def Order (n : Nat) : Type :=
  { order : List Nat // order.Perm (List.range n) }

/-- The tasks finish in the order in which they are listed. -/
def Order.listed (n : Nat) : Order n :=
  ⟨List.range n, .refl _⟩

instance {n : Nat} : Inhabited (Order n) := ⟨.listed n⟩

variable {α β : Type}

/-- Puts the result of the task at a position into its slot. -/
def finish (evaluate : α → β) (tasks : List α) (slots : List (Option β)) (i : Nat) :
    List (Option β) :=
  match tasks[i]? with
  | none => slots
  | some task => slots.set i (some (evaluate task))

/-- The results of all tasks, which finish in the order given, by the position of the task. -/
def collect (evaluate : α → β) (tasks : List α) (order : Order tasks.length) : List β :=
  (order.1.foldl (finish evaluate tasks) (tasks.map fun _ => none)).filterMap id

end StructureLint.Pool
