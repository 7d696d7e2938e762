import StructureLint.Linter.Basic
/-!
# What a run puts into its report

Whatever the order in which tasks of a pool finish, the results are those of the tasks one after
another (`collect_eq_map`). A run therefore evaluates the enabled rules in the order of
registration, side by side or not (`outcomes_eq_map`), and its report has the findings and the
errors among what became of them, in that order (`run_eq`).
-/

namespace StructureLint

/-! ## Pools -/

namespace Pool

variable {α β : Type} {evaluate : α → β} {tasks : List α}

theorem length_finish (slots : List (Option β)) (i : Nat) :
    (finish evaluate tasks slots i).length = slots.length := by
  unfold finish
  split <;> simp

/-- A task that finishes fills its own slot and leaves the others as they were. -/
theorem getElem?_finish {slots : List (Option β)} (h : slots.length = tasks.length) (i j : Nat) :
    (finish evaluate tasks slots i)[j]? =
      if i = j then (tasks[j]?).map fun a => some (evaluate a) else slots[j]? := by
  unfold finish
  split
  · rename_i hi
    by_cases hij : i = j
    · subst hij
      have : slots.length ≤ i := h ▸ List.getElem?_eq_none_iff.1 hi
      simp [hi, this]
    · rw [if_neg hij]
  · rename_i a ha
    by_cases hij : i = j
    · subst hij
      have : i < slots.length := h ▸ (List.getElem?_eq_some_iff.1 ha).1
      simp [ha, this]
    · simp [hij]

theorem getElem?_foldl_finish (order : List Nat) {slots : List (Option β)}
    (h : slots.length = tasks.length) (j : Nat) :
    (order.foldl (finish evaluate tasks) slots)[j]? =
      if j ∈ order then (tasks[j]?).map fun a => some (evaluate a) else slots[j]? := by
  induction order generalizing slots with
  | nil => simp
  | cons i order ih =>
    rw [List.foldl_cons, ih ((length_finish slots i).trans h), getElem?_finish h]
    by_cases hij : i = j
    · simp [hij]
    · simp [hij, Ne.symm hij]

/-- The order in which the tasks finish does not show in the results. -/
theorem collect_eq_map (order : Order tasks.length) :
    collect evaluate tasks order = tasks.map evaluate := by
  -- Every task finishes, so every slot is filled, and with what its own task gives.
  have hslots : order.1.foldl (finish evaluate tasks) (tasks.map fun _ => none) =
      tasks.map fun a => some (evaluate a) := by
    refine List.ext_getElem? fun j => ?_
    rw [getElem?_foldl_finish order.1 (by simp), List.getElem?_map, List.getElem?_map]
    have hmem : j ∈ order.1 ↔ j < tasks.length := order.2.mem_iff.trans List.mem_range
    by_cases hj : j < tasks.length
    · rw [if_pos (hmem.2 hj)]
    · rw [if_neg fun h => hj (hmem.1 h), List.getElem?_eq_none (Nat.not_lt.1 hj)]
      rfl
  rw [collect, hslots, List.filterMap_map]
  exact congrFun List.filterMap_eq_map tasks

end Pool

/-! ## Reports -/

/-- The finding that a rule has, if it has a result and there is something to say. -/
def Outcome.finding? : Outcome → Option Finding
  | .ok finding => finding
  | .error _ => none

/-- The error of a rule that has no result. -/
def Outcome.error? : Outcome → Option ExecutionError
  | .ok _ => none
  | .error e => some e

theorem add_eq (r : Report) (o : Outcome) :
    r.add o = ⟨r.findings ++ (Outcome.finding? o).toList, r.errors ++ (Outcome.error? o).toList,
      r.rulesRun + 1⟩ := by
  match o with
  | .ok none => simp [Report.add, Outcome.finding?, Outcome.error?]
  | .ok (some _) => simp [Report.add, Outcome.finding?, Outcome.error?]
  | .error _ => simp [Report.add, Outcome.finding?, Outcome.error?]

theorem filterMap_cons_eq {α β : Type} (f : α → Option β) (a : α) (l : List α) :
    (a :: l).filterMap f = (f a).toList ++ l.filterMap f := by
  cases h : f a <;> simp [h]

theorem foldl_add (outcomes : List Outcome) (r : Report) :
    outcomes.foldl Report.add r =
      ⟨r.findings ++ outcomes.filterMap Outcome.finding?,
        r.errors ++ outcomes.filterMap Outcome.error?, r.rulesRun + outcomes.length⟩ := by
  induction outcomes generalizing r with
  | nil => simp
  | cons o outcomes ih =>
    rw [List.foldl_cons, ih, add_eq]
    simp [filterMap_cons_eq, Nat.add_assoc, Nat.add_comm 1]

/-- A report sorts what became of the rules into findings and errors, each in order. -/
theorem ofOutcomes_eq (outcomes : List Outcome) :
    Report.ofOutcomes outcomes =
      ⟨outcomes.filterMap Outcome.finding?, outcomes.filterMap Outcome.error?,
        outcomes.length⟩ := by
  rw [Report.ofOutcomes, foldl_add]
  simp

/-- The errors of a rule bear its name, whatever went wrong. -/
theorem Rule.rule_of_outcome_error {r : Rule} {ctx : RunContext} {doc : Document}
    {budget : Option Nat} {elapsed : Nat} {e : ExecutionError}
    (h : r.outcome ctx doc budget elapsed = .error e) : e.rule = r.name := by
  unfold outcome at h
  split at h
  · cases h
    rfl
  · cases h
    rfl
  · split at h
    · cases h
    · split at h
      · cases h
        rfl
      · cases h

/-- Without a limit of time, a rule that has something or nothing to say has this as its result. -/
theorem Rule.outcome_of_ok {r : Rule} {ctx : RunContext} {doc : Document}
    {found : Option Finding} (h : r.evaluate ctx doc = .ok found) (elapsed : Nat) :
    r.outcome ctx doc none elapsed = .ok found := by
  simp [outcome, h]

namespace Linter

variable {l : Linter} {doc : Document} {ctx : RunContext} {given : Conditions}

/-- What becomes of a rule in a run. -/
def outcomeOf (l : Linter) (doc : Document) (ctx : RunContext) (given : Conditions) (r : Rule) :
    Outcome :=
  r.outcome (l.contextFor ctx) doc l.config.ruleBudget (given.elapsed r.name)

theorem outcomes_eq_map (l : Linter) (doc : Document) (ctx : RunContext) (given : Conditions) :
    l.outcomes doc ctx given = l.active.map (l.outcomeOf doc ctx given) := by
  unfold outcomes
  split
  · rw [Pool.collect_eq_map]
    rfl
  · rfl

theorem run_eq (l : Linter) (doc : Document) (ctx : RunContext) (given : Conditions) :
    l.run doc ctx given =
      ⟨l.active.filterMap fun r => Outcome.finding? (l.outcomeOf doc ctx given r),
        l.active.filterMap fun r => Outcome.error? (l.outcomeOf doc ctx given r),
        l.active.length⟩ := by
  rw [run, outcomes_eq_map, ofOutcomes_eq, List.filterMap_map, List.filterMap_map,
    List.length_map]
  rfl

theorem mem_findings_iff {f : Finding} :
    f ∈ (l.run doc ctx given).findings ↔
      ∃ r ∈ l.active, l.outcomeOf doc ctx given r = .ok (some f) := by
  rw [run_eq, List.mem_filterMap]
  refine exists_congr fun r => and_congr_right fun _ => ?_
  cases l.outcomeOf doc ctx given r <;> simp [Outcome.finding?]

theorem mem_errors_iff {e : ExecutionError} :
    e ∈ (l.run doc ctx given).errors ↔
      ∃ r ∈ l.active, l.outcomeOf doc ctx given r = .error e := by
  rw [run_eq, List.mem_filterMap]
  refine exists_congr fun r => and_congr_right fun _ => ?_
  cases l.outcomeOf doc ctx given r <;> simp [Outcome.error?]

theorem mem_active_iff {r : Rule} :
    r ∈ l.active ↔ r ∈ l.rules ∧ l.config.isRuleEnabled r.name = true :=
  List.mem_filter

end Linter

end StructureLint
