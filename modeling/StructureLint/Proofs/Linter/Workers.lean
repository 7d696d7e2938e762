import Mathlib.Logic.Relation
import StructureLint.ElementTree.Basic
import StructureLint.Proofs.Linter.Reports
/-!
# Workers side by side

How a pool of workers gets through its tasks, step by step: a free worker takes a task that is
waiting, or a busy one is done and puts the result into the slot of its task (`Step`). Whatever the
workers do, no task is lost or done twice, and the slots hold what the tasks finished so far gave
(`Sound`). So once there is nothing left to do the slots hold the results in the order of the tasks,
and a report made of them is that of the rules one after another (`parallel_run_is_sequential`).
-/

namespace StructureLint

namespace Pool

variable {α β : Type}

/-- How far a pool has come: the positions of the tasks that wait, of those that a worker is at and
of those that are finished, in this order, and the slots for the results. -/
structure Progress (β : Type) where
  waiting : List Nat
  atWork : List Nat
  finished : List Nat
  slots : List (Option β)

namespace Progress

def start (β : Type) (tasks : List α) : Progress β :=
  ⟨List.range tasks.length, [], [], tasks.map fun _ => none⟩

/-- A worker takes the task at a position. -/
def take (p : Progress β) (i : Nat) : Progress β :=
  { p with waiting := p.waiting.erase i, atWork := i :: p.atWork }

/-- The worker of the task at a position puts the result into its slot. -/
def complete (evaluate : α → β) (tasks : List α) (p : Progress β) (i : Nat) : Progress β :=
  ⟨p.waiting, p.atWork.erase i, p.finished ++ [i], finish evaluate tasks p.slots i⟩

def Done (p : Progress β) : Prop :=
  p.waiting = [] ∧ p.atWork = []

/-- The steps still to be made. -/
def left (p : Progress β) : Nat :=
  2 * p.waiting.length + p.atWork.length

end Progress

/-- What can happen next with so many workers. -/
inductive Step (evaluate : α → β) (tasks : List α) (workers : Nat) : Progress β → Progress β → Prop
  /-- A free worker takes any of the tasks that wait. -/
  | take {p : Progress β} {i : Nat} (h : i ∈ p.waiting) (hfree : p.atWork.length < workers) :
      Step evaluate tasks workers p (p.take i)
  /-- Any of the busy workers is done. -/
  | complete {p : Progress β} {i : Nat} (h : i ∈ p.atWork) :
      Step evaluate tasks workers p (p.complete evaluate tasks i)

/-- Any number of steps, in any order that the workers allow. -/
def Steps (evaluate : α → β) (tasks : List α) (workers : Nat) :
    Progress β → Progress β → Prop :=
  Relation.ReflTransGen (Step evaluate tasks workers)

variable {evaluate : α → β} {tasks : List α} {workers : Nat} {p q : Progress β}

/-! ## What every step keeps -/

/-- Every task is in one place, and the slots are filled by the tasks that are finished. -/
structure Sound (evaluate : α → β) (tasks : List α) (p : Progress β) : Prop where
  perm : (p.waiting ++ (p.atWork ++ p.finished)).Perm (List.range tasks.length)
  slots_eq : p.slots = p.finished.foldl (finish evaluate tasks) (tasks.map fun _ => none)

theorem sound_start : Sound evaluate tasks (.start β tasks) :=
  ⟨by simp [Progress.start], rfl⟩

theorem Step.sound (h : Step evaluate tasks workers p q) (hp : Sound evaluate tasks p) :
    Sound evaluate tasks q := by
  cases h with
  | @take i hi =>
    refine ⟨?_, hp.slots_eq⟩
    refine List.Perm.trans ?_ hp.perm
    exact List.perm_middle.trans ((List.perm_cons_erase hi).symm.append_right _)
  | @complete i hi =>
    refine ⟨?_, ?_⟩
    · refine List.Perm.trans (List.Perm.append_left _ ?_) hp.perm
      unfold Progress.complete
      rw [← List.append_assoc]
      exact List.perm_append_comm.trans ((List.perm_cons_erase hi).symm.append_right _)
    · unfold Progress.complete
      rw [List.foldl_append, ← hp.slots_eq]
      rfl

theorem Steps.sound (h : Steps evaluate tasks workers p q) (hp : Sound evaluate tasks p) :
    Sound evaluate tasks q := by
  induction h with
  | refl => exact hp
  | tail _ hstep ih => exact hstep.sound ih

/-- At any time a slot is filled if its task is finished, and with what its own task gave. -/
theorem Sound.getElem?_slots (h : Sound evaluate tasks p) {i : Nat} {a : α}
    (hi : tasks[i]? = some a) :
    p.slots[i]? = some (if i ∈ p.finished then some (evaluate a) else none) := by
  rw [h.slots_eq, getElem?_foldl_finish p.finished (by simp) i]
  split
  · rw [hi]
    rfl
  · rw [List.getElem?_map, hi]
    rfl

/-- Once all tasks are finished, they have finished in some order, each once. -/
theorem Sound.exists_order (h : Sound evaluate tasks p) (hdone : p.Done) :
    ∃ order : Order tasks.length, order.1 = p.finished ∧
      p.slots.filterMap id = collect evaluate tasks order := by
  have hperm := h.perm
  rw [hdone.1, hdone.2, List.nil_append, List.nil_append] at hperm
  exact ⟨⟨p.finished, hperm⟩, rfl, by rw [h.slots_eq]; rfl⟩

/-! ## Pools always come to an end -/

theorem Step.left_lt (h : Step evaluate tasks workers p q) : q.left < p.left := by
  cases h with
  | take hi =>
    have hpos := List.length_pos_of_mem hi
    simp only [Progress.left, Progress.take, List.length_erase_of_mem hi, List.length_cons]
    omega
  | complete hi =>
    have hpos := List.length_pos_of_mem hi
    simp only [Progress.left, Progress.complete, List.length_erase_of_mem hi]
    omega

theorem exists_step (hworkers : 0 < workers) (hleft : ¬ p.Done) :
    ∃ q, Step evaluate tasks workers p q := by
  rcases hw : p.atWork with - | ⟨i, is⟩
  · rcases hq : p.waiting with - | ⟨i, is⟩
    · exact absurd ⟨hq, hw⟩ hleft
    · exact ⟨_, .take (i := i) (by simp [hq]) (by simpa [hw] using hworkers)⟩
  · exact ⟨_, .complete (i := i) (by simp [hw])⟩

/-- As long as there is one worker, the pool can go on until everything is done. -/
theorem exists_done (hworkers : 0 < workers) (p : Progress β) :
    ∃ q, Steps evaluate tasks workers p q ∧ q.Done := by
  induction hn : p.left using Nat.strongRecOn generalizing p with
  | _ n ih =>
    by_cases hdone : p.Done
    · exact ⟨p, .refl, hdone⟩
    · obtain ⟨q, hstep⟩ : ∃ q, Step evaluate tasks workers p q := exists_step hworkers hdone
      obtain ⟨r, hsteps, hr⟩ := ih q.left (hn ▸ hstep.left_lt) q rfl
      exact ⟨r, .head hstep hsteps, hr⟩

/-- One worker is enough for the tasks to be finished in any order. -/
theorem exists_finishing (hworkers : 0 < workers) (order : List Nat) {p : Progress β}
    (hwaiting : p.waiting.Perm order) (hidle : p.atWork = []) :
    ∃ q, Steps evaluate tasks workers p q ∧ q.Done ∧ q.finished = p.finished ++ order := by
  induction order generalizing p with
  | nil => exact ⟨p, .refl, ⟨hwaiting.eq_nil, hidle⟩, (List.append_nil _).symm⟩
  | cons i order ih =>
    -- The worker takes the next task of the order and does nothing else until it is done.
    have hi : i ∈ p.waiting := hwaiting.mem_iff.2 List.mem_cons_self
    have htake : Step evaluate tasks workers p (p.take i) :=
      .take hi (by simpa [hidle] using hworkers)
    have hcomplete : Step evaluate tasks workers (p.take i)
        ((p.take i).complete evaluate tasks i) := .complete List.mem_cons_self
    have hrest : (p.waiting.erase i).Perm order := by simpa using hwaiting.erase i
    obtain ⟨q, hsteps, hdone, hq⟩ := ih (p := (p.take i).complete evaluate tasks i) hrest
      (by simp [Progress.take, Progress.complete, hidle])
    refine ⟨q, .head htake (.head hcomplete hsteps), hdone, ?_⟩
    rw [hq]
    simp [Progress.take, Progress.complete]

end Pool

/-- Without a limit of time, it does not matter how long a rule takes. -/
theorem Rule.outcome_none_eq (r : Rule) (ctx : RunContext) (doc : Document) (e e' : Nat) :
    r.outcome ctx doc none e = r.outcome ctx doc none e' := by
  unfold outcome
  rcases r.evaluate ctx doc with (_ | _) | _ <;> rfl

namespace Linter

open Pool

/-- The same linter, which evaluates its rules side by side or one after another. -/
def withParallel (l : Linter) (parallel : Bool) : Linter :=
  { l with config := { l.config with parallel } }

theorem outcomeOf_withParallel {l : Linter} (hb : l.config.ruleBudgetMs = none) (b b' : Bool)
    (doc : Document) (ctx : RunContext) (given given' : Conditions) :
    (l.withParallel b).outcomeOf doc ctx given = (l.withParallel b').outcomeOf doc ctx given' := by
  funext r
  have hbudget (c : Bool) : (l.withParallel c).config.ruleBudget = none := by
    simp [withParallel, Config.ruleBudget, hb]
  rw [outcomeOf, outcomeOf, hbudget, hbudget]
  exact r.outcome_none_eq ..

/-- A run has the report of what becomes of the enabled rules one after another. -/
theorem run_eq_ofOutcomes (l : Linter) (doc : Document) (ctx : RunContext) (given : Conditions) :
    l.run doc ctx given = .ofOutcomes (l.active.map (l.outcomeOf doc ctx given)) := by
  rw [run, outcomes_eq_map]

/-- Workers may get through the enabled rules in any order, as many at a time as there are workers.
They never block each other, and in the end the report is that of the rules one after another. -/
theorem parallel_run_is_sequential (l : Linter) (hb : l.config.ruleBudgetMs = none)
    (doc : Document) (ctx : RunContext) (given given' : Conditions) (workers : Nat) :
    let rules := (l.withParallel true).active
    let evaluate := (l.withParallel true).outcomeOf doc ctx given
    let sequential := (l.withParallel false).run doc ctx given'
    (l.withParallel true).run doc ctx given = sequential ∧
      (∀ p, Steps evaluate rules workers (.start Outcome rules) p →
        (∀ i r, rules[i]? = some r →
          p.slots[i]? = some (if i ∈ p.finished then some (evaluate r) else none)) ∧
        (p.Done → Report.ofOutcomes (p.slots.filterMap id) = sequential) ∧
        (0 < workers → ∃ q, Steps evaluate rules workers p q ∧ q.Done)) ∧
      (0 < workers → ∀ order : Order rules.length,
        ∃ p, Steps evaluate rules workers (.start Outcome rules) p ∧ p.Done ∧
          p.finished = order.1) := by
  intro rules evaluate sequential
  have hreport : Report.ofOutcomes (rules.map evaluate) = sequential := by
    show Report.ofOutcomes (rules.map evaluate) = (l.withParallel false).run doc ctx given'
    rw [run_eq_ofOutcomes, ← outcomeOf_withParallel hb true false doc ctx given given']
    rfl
  refine ⟨(run_eq_ofOutcomes ..).trans hreport, ?_, ?_⟩
  · intro p hp
    have hsound := hp.sound sound_start
    refine ⟨fun i r hr => hsound.getElem?_slots hr, ?_, fun hworkers => exists_done hworkers p⟩
    intro hdone
    obtain ⟨order, -, hslots⟩ := hsound.exists_order hdone
    rw [hslots, collect_eq_map, hreport]
  · intro hworkers order
    exact exists_finishing hworkers order.1 order.2.symm rfl

def rootMessages : Messages := { description := "root", howToFix := "none" }

/-- A rule that finds the root, one that fails and one that breaks off. -/
def threeOutcomes : Linter where
  rules := [named "root" fun doc => .ok (Finding.of? "root" [doc.root] rootMessages),
    named "fails" fun _ => .error (.failed (.other "no")),
    named "breaks" fun _ => .error (.panicked (.text "off"))]
where
  named (name : String) (verdict : Document → Verdict) : Rule :=
    { name, catalog := Catalog.ofList [("en", rootMessages)], evaluate := fun _ doc => verdict doc }

theorem parallel_run_is_sequential_threeOutcomes :
    let doc := (ElementTree.single "div" ∅).toDocument
    let rules := (threeOutcomes.withParallel true).active
    let evaluate :=
      (threeOutcomes.withParallel true).outcomeOf doc default { elapsed := fun _ => 7 }
    let sequential := (threeOutcomes.withParallel false).run doc default { elapsed := fun _ => 5 }
    threeOutcomes.config.ruleBudgetMs = none ∧
      (∃ p, Steps evaluate rules 2 (.start Outcome rules) p ∧ p.Done ∧ p.finished = [2, 0, 1] ∧
        Report.ofOutcomes (p.slots.filterMap id) = sequential) ∧
      sequential.findings.map (·.rule) = ["root"] ∧
      sequential.errors.map (·.rule) = ["fails", "breaks"] := by
  intro doc rules evaluate sequential
  obtain ⟨-, hruns, horders⟩ := parallel_run_is_sequential threeOutcomes rfl doc default
    { elapsed := fun _ => 7 } { elapsed := fun _ => 5 } 2
  obtain ⟨p, hp, hdone, hfinished⟩ := horders (by decide) ⟨[2, 0, 1], by decide⟩
  exact ⟨rfl, ⟨p, hp, hdone, hfinished, (hruns p hp).2.1 hdone⟩, by decide, by decide⟩

end Linter

end StructureLint
