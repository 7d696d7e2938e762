import StructureLint.ElementTree.Basic
import StructureLint.Proofs.Linter.Registry
import StructureLint.Proofs.Linter.Reports
/-!
# Runs of rules that are put together

A run evaluates each rule by itself, so the report about a list of rules is put together from the
reports about its parts (`run_append`). A rule that breaks down adds its own error and nothing else
(`run_breakdown`); the reports with and without it differ in that error alone
(`report_of_appended_rules`).
-/

namespace StructureLint

/-- What is noted about a rule that breaks down. -/
def Breakdown.cause : Breakdown → ExecutionFailure
  | .failed e => .failed e.message
  | .panicked p => .panicked p.message

theorem Report.append_eq (r s : Report) :
    r ++ s = ⟨r.findings ++ s.findings, r.errors ++ s.errors, r.rulesRun + s.rulesRun⟩ := rfl

/-- A rule that breaks down has no result, however long it took. -/
theorem Rule.outcome_of_error {r : Rule} {ctx : RunContext} {doc : Document} {b : Breakdown}
    (h : r.evaluate ctx doc = .error b) (budget : Option Nat) (elapsed : Nat) :
    r.outcome ctx doc budget elapsed = .error ⟨r.name, b.cause⟩ := by
  unfold outcome
  rw [h]
  cases b <;> rfl

namespace Linter

variable {config : Config} {doc : Document} {ctx : RunContext}

/-- The rules of a linter one after another are reported one after another. Each of the three runs
may let its rules finish in an order of its own. -/
theorem run_append (config : Config) (as bs : List Rule) (doc : Document) (ctx : RunContext)
    (elapsed : String → Nat) (order order₁ order₂ : (n : Nat) → Pool.Order n) :
    run { config, rules := as ++ bs } doc ctx ⟨elapsed, order⟩ =
      run { config, rules := as } doc ctx ⟨elapsed, order₁⟩ ++
        run { config, rules := bs } doc ctx ⟨elapsed, order₂⟩ := by
  have hactive : active { config, rules := as ++ bs } =
      active { config, rules := as } ++ active { config, rules := bs } := List.filter_append _ _
  rw [run_eq, run_eq, run_eq, hactive, List.filterMap_append, List.filterMap_append,
    List.length_append]
  rfl

theorem run_breakdown {r : Rule} {b : Breakdown}
    (h : r.evaluate (ctx.withDefaultLang config.defaultLang) doc = .error b) (given : Conditions) :
    run { config, rules := [r] } doc ctx given =
      if config.isRuleEnabled r.name then ⟨[], [⟨r.name, b.cause⟩], 1⟩ else {} := by
  have hout : outcomeOf { config, rules := [r] } doc ctx given r = .error ⟨r.name, b.cause⟩ :=
    Rule.outcome_of_error h _ _
  rw [run_eq]
  by_cases hen : config.isRuleEnabled r.name = true
  · have hactive : active { config, rules := [r] } = [r] := by simp [active, hen]
    simp [hactive, hout, hen, Outcome.finding?, Outcome.error?]
  · have hactive : active { config, rules := [r] } = [] := by simp [active, hen]
    simp [hactive, hen]

/-- With a rule in between that breaks down, the only thing to come in between is its error. -/
theorem run_insert_breakdown {as bs : List Rule} {r : Rule} {b : Breakdown}
    (h : r.evaluate (ctx.withDefaultLang config.defaultLang) doc = .error b)
    (elapsed : String → Nat) (order order₁ order₂ : (n : Nat) → Pool.Order n) :
    run { config, rules := as ++ r :: bs } doc ctx ⟨elapsed, order⟩ =
      run { config, rules := as } doc ctx ⟨elapsed, order₁⟩ ++
        (if config.isRuleEnabled r.name then ⟨[], [⟨r.name, b.cause⟩], 1⟩ else {} : Report) ++
        run { config, rules := bs } doc ctx ⟨elapsed, order₂⟩ := by
  have hsplit : as ++ r :: bs = (as ++ [r]) ++ bs := by simp
  rw [hsplit, run_append config (as ++ [r]) bs doc ctx elapsed order order order₂,
    run_append config as [r] doc ctx elapsed order order₁ order, run_breakdown h]

/-- Where rules are accepted, so are both parts of their list, and the report about all is that
about the first part followed by that about the second. Leaving out a rule that breaks down takes
away its error and nothing else. -/
theorem report_of_appended_rules {rules : List Rule} {l : Linter}
    (h : build config rules = .ok l) (doc : Document) (ctx : RunContext)
    (elapsed : String → Nat) (order : Linter → (n : Nat) → Pool.Order n) :
    let report (l : Linter) : Report := l.run doc ctx ⟨elapsed, order l⟩
    (∀ as bs, rules = as ++ bs →
      ∃ la lb, build config as = .ok la ∧ build config bs = .ok lb ∧
        report l = report la ++ report lb) ∧
    (∀ as r bs b, rules = as ++ r :: bs → r.evaluate (l.contextFor ctx) doc = .error b →
      ∃ la lb rest, build config as = .ok la ∧ build config bs = .ok lb ∧
        build config (as ++ bs) = .ok rest ∧
        (report l).findings = (report rest).findings ∧
        (report rest).errors = (report la).errors ++ (report lb).errors ∧
        (report l).errors = (report la).errors ++
          (if config.isRuleEnabled r.name then [⟨r.name, b.cause⟩] else []) ++
          (report lb).errors) := by
  intro report
  obtain ⟨rfl, -⟩ := build_eq_ok_iff.1 h
  constructor
  · rintro as bs rfl
    exact ⟨_, _, build_of_sublist h (List.sublist_append_left as bs),
      build_of_sublist h (List.sublist_append_right as bs),
      run_append config as bs doc ctx elapsed _ _ _⟩
  · rintro as r bs b rfl hb
    have hbs : bs.Sublist (r :: bs) := List.sublist_cons_self r bs
    refine ⟨_, _, _, build_of_sublist h (List.sublist_append_left as _),
      build_of_sublist h (hbs.trans (List.sublist_append_right as _)),
      build_of_sublist h (hbs.append_left as), ?_⟩
    have hall : report { config, rules := as ++ r :: bs } = report { config, rules := as } ++
        (if config.isRuleEnabled r.name then ⟨[], [⟨r.name, b.cause⟩], 1⟩ else {}) ++
        report { config, rules := bs } :=
      run_insert_breakdown hb elapsed _ _ _
    have hrest : report { config, rules := as ++ bs } =
        report { config, rules := as } ++ report { config, rules := bs } :=
      run_append config as bs doc ctx elapsed _ _ _
    rw [hall, hrest]
    by_cases hen : config.isRuleEnabled r.name = true
    · simp [hen, Report.append_eq]
    · simp [hen, Report.append_eq]

/-- A rule with messages in English that says the same about every document. -/
def saying (name : String) (verdict : Verdict) : Rule where
  name := name
  catalog := Catalog.ofList [("en", { description := "no", howToFix := "yes" })]
  evaluate _ _ := verdict

/-- Three rules, of which the second breaks off without a text. -/
def breakingSecond : List Rule :=
  [saying "first" (.ok (Finding.of? "first" [⟨0⟩] { description := "no", howToFix := "yes" })),
   saying "second" (.error (.panicked .unprintable)),
   saying "third" (.error (.failed (.other "lost")))]

theorem report_of_appended_rules_breakingSecond :
    let report (l : Linter) : Report :=
      l.run (ElementTree.single "div" ∅).toDocument { lang := "fr" } { elapsed := fun _ => 7 }
    build {} breakingSecond = .ok ⟨{}, breakingSecond⟩ ∧
    (∃ la lb, build {} (breakingSecond.take 2) = .ok la ∧
      build {} (breakingSecond.drop 2) = .ok lb ∧
      report ⟨{}, breakingSecond⟩ = report la ++ report lb) ∧
    ∃ la lb rest, build {} (breakingSecond.take 1) = .ok la ∧
      build {} (breakingSecond.drop 2) = .ok lb ∧
      build {} (breakingSecond.take 1 ++ breakingSecond.drop 2) = .ok rest ∧
      (report ⟨{}, breakingSecond⟩).findings = (report rest).findings ∧
      (report ⟨{}, breakingSecond⟩).errors = (report la).errors ++
        [⟨"second", .panicked "non-string panic payload"⟩] ++ (report lb).errors := by
  have hbuild : build {} breakingSecond = .ok ⟨{}, breakingSecond⟩ := rfl
  obtain ⟨happend, hinsert⟩ := report_of_appended_rules hbuild
    (ElementTree.single "div" ∅).toDocument { lang := "fr" } (fun _ => 7) fun _ => Pool.Order.listed
  obtain ⟨la, lb, rest, ha, hb, hrest, hfindings, -, herrors⟩ := hinsert (breakingSecond.take 1)
    (saying "second" (.error (.panicked .unprintable))) (breakingSecond.drop 2) _ rfl rfl
  exact ⟨hbuild, happend (breakingSecond.take 2) (breakingSecond.drop 2) rfl,
    la, lb, rest, ha, hb, hrest, hfindings, herrors⟩

end Linter

end StructureLint
