import Mathlib.Data.List.Induction
import StructureLint.Proofs.Linter.Registry
/-!
# Linters after any number of registrations

Each attempt to register a rule either adds it at the end or changes nothing (`rules_attempt`). So
the rules of a linter are those that were accepted when their turn came (`rules_attemptAll`), and
only an accepted rule takes a name (`mem_ruleNames_attemptAll`). Building a linter is the same
sequence of attempts, given up at the first one that is refused (`registerAll_eq_attemptAll`).
-/

namespace StructureLint.Linter

variable {l : Linter} {r : Rule}

/-! ## What an attempt answers -/

/-- A name that is taken is complained about first, whatever is wrong with the catalog. -/
theorem register_eq (l : Linter) (r : Rule) :
    l.register r =
      if r.name ∈ l.ruleNames then .error (.duplicate r.name)
      else if r.catalog.contains l.config.defaultLang then .ok { l with rules := l.rules ++ [r] }
      else .error (.configuration ⟨some r.name, l.config.defaultLang, r.catalog.available⟩) := by
  unfold register
  by_cases hname : r.name ∈ l.ruleNames
  · rw [if_pos hname, if_pos (hasRule_iff.2 hname)]
  · rw [if_neg hname, if_neg fun h => hname (hasRule_iff.1 h), Catalog.validate]
    by_cases hc : r.catalog.contains l.config.defaultLang = true
    · rw [if_pos hc, if_pos hc]
    · rw [if_neg hc, if_neg hc]
      rfl

/-- The rule has what it takes to be registered: a catalog with the default language and a name
that no registered rule has. -/
def Accepts (l : Linter) (r : Rule) : Prop :=
  r.catalog.contains l.config.defaultLang = true ∧ r.name ∉ l.ruleNames

instance : Decidable (l.Accepts r) := inferInstanceAs (Decidable (_ ∧ _))

theorem attempt_of_accepts (h : l.Accepts r) :
    l.attempt r = { l with rules := l.rules ++ [r] } := by
  unfold attempt
  rw [register_eq_ok_iff.2 ⟨h.2, h.1, rfl⟩]

theorem attempt_of_error {e : RegistryError} (h : l.register r = .error e) : l.attempt r = l := by
  unfold attempt
  rw [h]

theorem attempt_of_not_accepts (h : ¬ l.Accepts r) : l.attempt r = l := by
  cases hr : l.register r with
  | error e => exact attempt_of_error hr
  | ok l' =>
    obtain ⟨hnew, hdefault, -⟩ := register_eq_ok_iff.1 hr
    exact absurd ⟨hdefault, hnew⟩ h

theorem config_attempt (l : Linter) (r : Rule) : (l.attempt r).config = l.config := by
  by_cases h : l.Accepts r
  · rw [attempt_of_accepts h]
  · rw [attempt_of_not_accepts h]

theorem rules_attempt (l : Linter) (r : Rule) :
    (l.attempt r).rules = l.rules ++ if l.Accepts r then [r] else [] := by
  by_cases h : l.Accepts r
  · rw [attempt_of_accepts h, if_pos h]
  · rw [attempt_of_not_accepts h, if_neg h, List.append_nil]

/-! ## One attempt after another -/

/-- The linter after attempts to register rules, one after another. -/
def attemptAll (l : Linter) (calls : List Rule) : Linter :=
  calls.foldl attempt l

theorem attemptAll_concat (l : Linter) (calls : List Rule) (r : Rule) :
    l.attemptAll (calls ++ [r]) = (l.attemptAll calls).attempt r := by
  simp [attemptAll]

theorem config_attemptAll (l : Linter) (calls : List Rule) :
    (l.attemptAll calls).config = l.config := by
  induction calls generalizing l with
  | nil => rfl
  | cons r calls ih => exact (ih (l.attempt r)).trans (config_attempt l r)

theorem reachable_attemptAll (hl : Reachable l) (calls : List Rule) :
    Reachable (l.attemptAll calls) := by
  induction calls generalizing l with
  | nil => exact hl
  | cons r calls ih => exact ih (hl.attempt r)

theorem accepts_attemptAll_iff {config : Config} {calls : List Rule} :
    (attemptAll { config } calls).Accepts r ↔
      r.catalog.contains config.defaultLang = true ∧
        r.name ∉ (attemptAll { config } calls).ruleNames := by
  rw [Accepts, config_attemptAll]

/-- The rules are those that were accepted after the calls before their own, in the order of the
calls. -/
theorem rules_attemptAll (config : Config) (calls : List Rule) :
    (attemptAll { config } calls).rules =
      (calls.zipIdx.filter fun c => c.1.catalog.contains config.defaultLang ∧
        c.1.name ∉ (attemptAll { config } (calls.take c.2)).ruleNames).map (·.1) := by
  induction calls using List.reverseRecOn with
  | nil => rfl
  | append_singleton calls r ih =>
    -- One more call at the end changes nothing about the calls before it.
    have hbefore : ∀ c ∈ calls.zipIdx, (calls ++ [r]).take c.2 = calls.take c.2 := by
      intro c hc
      refine List.take_append_of_le_length (Nat.le_of_lt ?_)
      simpa using (List.mem_zipIdx hc).2.1
    have hlast : (calls ++ [r]).take calls.length = calls := List.take_left
    rw [attemptAll_concat, rules_attempt, List.zipIdx_append, List.filter_append, List.map_append,
      ih]
    congr 1
    · congr 1
      refine List.filter_congr fun c hc => ?_
      rw [hbefore c hc]
    · by_cases h : (attemptAll { config } calls).Accepts r
      · have hr := accepts_attemptAll_iff.1 h
        simp [hlast, h, hr]
      · have hr := fun hr => h (accepts_attemptAll_iff.2 hr)
        rw [if_neg h]
        simpa [hlast] using hr

/-- A name is taken by the first call for it with a catalog that has the default language; calls
that were refused before it do not count. -/
theorem mem_ruleNames_attemptAll {config : Config} {calls : List Rule} {name : String} :
    name ∈ (attemptAll { config } calls).ruleNames ↔
      ∃ r ∈ calls, r.catalog.contains config.defaultLang = true ∧ r.name = name := by
  induction calls using List.reverseRecOn with
  | nil => simp [attemptAll, ruleNames]
  | append_singleton calls r ih =>
    rw [attemptAll_concat, ruleNames, rules_attempt, List.map_append, List.mem_append]
    constructor
    · rintro (hname | hname)
      · obtain ⟨s, hs, hdefault⟩ := ih.1 hname
        exact ⟨s, by simp [hs], hdefault⟩
      · split at hname
        · rename_i hr
          exact ⟨r, by simp, (accepts_attemptAll_iff.1 hr).1, (List.mem_singleton.1 hname).symm⟩
        · cases hname
    · rintro ⟨s, hs, hdefault, rfl⟩
      rcases List.mem_append.1 hs with hs | hs
      · exact .inl (ih.2 ⟨s, hs, hdefault, rfl⟩)
      · obtain rfl := List.mem_singleton.1 hs
        by_cases hname : s.name ∈ (attemptAll { config } calls).ruleNames
        · exact .inl hname
        · rw [if_pos (accepts_attemptAll_iff.2 ⟨hdefault, hname⟩)]
          exact .inr (by simp)

/-! ## What the calls answer -/

/-- The answer to an attempt: nothing, or why the rule is not registered. -/
def refusal? (l : Linter) (r : Rule) : Option RegistryError :=
  match l.register r with
  | .ok _ => none
  | .error e => some e

/-- The answers to attempts made one after another. -/
def refusals (l : Linter) : List Rule → List (Option RegistryError)
  | [] => []
  | r :: calls => l.refusal? r :: (l.attempt r).refusals calls

/-- Registering all rules of a list gives up where the first of the attempts is refused. -/
theorem registerAll_eq_attemptAll (l : Linter) (calls : List Rule) :
    l.registerAll calls =
      match (l.refusals calls).findSome? id with
      | none => .ok (l.attemptAll calls)
      | some e => .error e := by
  induction calls generalizing l with
  | nil => rfl
  | cons r calls ih =>
    cases hr : l.register r with
    | error e => simp [registerAll, refusals, refusal?, hr]
    | ok l' =>
      have hattempt : l.attempt r = l' := by simp [attempt, hr]
      simp [registerAll, refusals, refusal?, hr, hattempt, ih, attemptAll]

theorem build_eq_ok_iff_refusals {config : Config} {calls : List Rule} :
    build config calls = .ok l ↔
      (∀ answer ∈ refusals { config } calls, answer = none) ∧ l = attemptAll { config } calls := by
  have hall := List.findSome?_eq_none_iff (p := id) (l := refusals { config } calls)
  rw [build, registerAll_eq_attemptAll]
  cases hfirst : (refusals { config } calls).findSome? id with
  | none =>
    have hnone := hall.1 hfirst
    constructor
    · intro h
      cases h
      exact ⟨hnone, rfl⟩
    · rintro ⟨-, rfl⟩
      rfl
  | some e =>
    constructor
    · intro h
      cases h
    · rintro ⟨hnone, -⟩
      cases hfirst.symm.trans (hall.2 hnone)

theorem build_eq_error_iff_refusals {config : Config} {calls : List Rule} {e : RegistryError} :
    build config calls = .error e ↔ (refusals { config } calls).findSome? id = some e := by
  rw [build, registerAll_eq_attemptAll]
  cases (refusals { config } calls).findSome? id with
  | none => simp
  | some e' => simp

/-! ## The state of a linter -/

/-- After any calls to register rules, the rules are those whose catalog had the default language
and whose name was free, in this order. Other calls are refused and change nothing, and building a
linter fails as the first of them. -/
theorem registration_history (config : Config) (calls : List Rule) :
    let after (calls : List Rule) : Linter := attemptAll { config } calls
    let l := after calls
    (l.config = config ∧
      l.rules = ((calls.zipIdx.filter fun c =>
        c.1.catalog.contains config.defaultLang ∧
          c.1.name ∉ (after (calls.take c.2)).ruleNames).map (·.1)) ∧
      l.ruleNames.Nodup ∧
      (∀ r ∈ l.rules, r.catalog.contains config.defaultLang = true) ∧
      ∀ name, name ∈ l.ruleNames ↔
        ∃ r ∈ calls, r.catalog.contains config.defaultLang = true ∧ r.name = name) ∧
    (∀ r, l.register r =
      if r.name ∈ l.ruleNames then .error (.duplicate r.name)
      else if r.catalog.contains config.defaultLang then .ok (l.attempt r)
      else .error (.configuration ⟨some r.name, config.defaultLang, r.catalog.available⟩)) ∧
    (∀ r e, l.register r = .error e → l.attempt r = l) ∧
    (∀ built, build config calls = .ok built ↔
      (∀ answer ∈ refusals { config } calls, answer = none) ∧ built = l) ∧
    (∀ e, build config calls = .error e ↔
      (refusals { config } calls).findSome? id = some e) := by
  intro after l
  have hconfig : l.config = config := config_attemptAll { config } calls
  have hreg : Registered l := reachable_registered (reachable_attemptAll (.empty config) calls)
  refine ⟨⟨hconfig, rules_attemptAll config calls, hreg.names_nodup, ?_,
    fun _ => mem_ruleNames_attemptAll⟩, ?_, fun _ _ => attempt_of_error,
    fun _ => build_eq_ok_iff_refusals, fun _ => build_eq_error_iff_refusals⟩
  · intro r hr
    exact hconfig ▸ hreg.has_default r hr
  · intro r
    rw [register_eq, hconfig]
    by_cases hname : r.name ∈ l.ruleNames
    · rw [if_pos hname, if_pos hname]
    · rw [if_neg hname, if_neg hname]
      by_cases hc : r.catalog.contains config.defaultLang = true
      · rw [if_pos hc, if_pos hc, attempt_of_accepts (accepts_attemptAll_iff.2 ⟨hc, hname⟩), hconfig]
      · rw [if_neg hc, if_neg hc]

end StructureLint.Linter
