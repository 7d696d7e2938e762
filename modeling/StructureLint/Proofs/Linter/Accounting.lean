import StructureLint.ElementTree.Basic
import StructureLint.Proofs.Linter.Registry
import StructureLint.Proofs.Linter.Reports
import StructureLint.Rule.HeadinglessSections
import StructureLint.Rule.Selecting
/-!
# Every rule is accounted for

Rules that report through their own catalog put their own name into their findings. Names are
distinct in a linter, so the names in a report tell what became of each rule: those of the findings
and those of the errors are the names of two lists of rules without a rule in common, both taken
from the enabled rules in their order (`findingNames_run`, `errorNames_run`). `Accounts` lists what
follows from this for a report, and `run_accounts` says that it holds of every run.
-/

namespace StructureLint

namespace Report

/-- The names of the rules that the findings are about. -/
def findingNames (r : Report) : List String :=
  r.findings.map (·.rule)

/-- The names of the rules that the errors are about. -/
def errorNames (r : Report) : List String :=
  r.errors.map (·.rule)

/-- Where no two findings are about one rule, a finding is known by its rule. -/
theorem finding?_eq_some_iff {r : Report} (h : r.findingNames.Nodup) {name : String}
    {f : Finding} : r.finding? name = some f ↔ f ∈ r.findings ∧ f.rule = name := by
  unfold finding?
  constructor
  · intro hf
    exact ⟨List.mem_of_find?_eq_some hf, by simpa using List.find?_some hf⟩
  · rintro ⟨hf, rfl⟩
    have hsome : (r.findings.find? (·.rule == f.rule)).isSome = true :=
      List.find?_isSome.2 ⟨f, hf, by simp⟩
    obtain ⟨g, hg⟩ := Option.isSome_iff_exists.1 hsome
    have hname : g.rule = f.rule := by simpa using List.find?_some hg
    rw [hg, List.inj_on_of_nodup_map h (List.mem_of_find?_eq_some hg) hf hname]

end Report

/-! ## What becomes of one rule -/

/-- Unless the rule breaks down, it says what its own catalog has about some elements. -/
def Rule.ReportsOwn (r : Rule) : Prop :=
  ∀ ctx doc, (∃ b, r.evaluate ctx doc = .error b) ∨
    ∃ offenders, r.evaluate ctx doc = r.findingFor ctx offenders

theorem Verdict.rule_of_ofOffenders {name : String} {catalog : Catalog} {ctx : RunContext}
    {offenders : List NodeId} {f : Finding}
    (h : Verdict.ofOffenders name catalog ctx offenders = .ok (some f)) : f.rule = name := by
  unfold Verdict.ofOffenders at h
  split at h
  · cases h
  · split at h
    · cases h
    · rename_i messages hmessages
      have hf : Finding.of? name offenders messages = some f := Except.ok.inj h
      unfold Finding.of? at hf
      split at hf
      · cases hf
      · cases hf
        rfl

theorem Rule.ReportsOwn.rule_eq {r : Rule} (hr : r.ReportsOwn) {ctx : RunContext} {doc : Document}
    {f : Finding} (h : r.evaluate ctx doc = .ok (some f)) : f.rule = r.name := by
  rcases hr ctx doc with ⟨b, hb⟩ | ⟨offenders, ho⟩
  · cases hb.symm.trans h
  · exact Verdict.rule_of_ofOffenders (ho.symm.trans h)

theorem SelectingRule.reportsOwn (s : SelectingRule) : s.toRule.ReportsOwn := by
  intro ctx doc
  show (∃ b, s.evaluate ctx doc = .error b) ∨ ∃ offenders, s.evaluate ctx doc = _
  unfold SelectingRule.evaluate
  split
  · exact .inl ⟨_, rfl⟩
  · exact .inr ⟨_, rfl⟩

theorem HeadinglessSections.reportsOwn (catalog : Catalog) : (rule catalog).ReportsOwn := by
  intro ctx doc
  show (∃ b, evaluate catalog ctx doc = .error b) ∨ ∃ offenders, evaluate catalog ctx doc = _
  unfold evaluate
  split
  · exact .inl ⟨_, rfl⟩
  · exact .inr ⟨_, rfl⟩

namespace Linter

variable {l : Linter} {r : Rule} {doc : Document} {ctx : RunContext} {given : Conditions}

/-- The rule takes longer than any rule may. -/
def Overruns (l : Linter) (given : Conditions) (r : Rule) : Prop :=
  ∃ limit, l.config.ruleBudget = some limit ∧ limit < given.elapsed r.name

/-- A rule has a result if it does not break down and is in time. -/
theorem outcomeOf_eq_ok_iff {found : Option Finding} :
    l.outcomeOf doc ctx given r = .ok found ↔
      r.evaluate (l.contextFor ctx) doc = .ok found ∧ ¬ l.Overruns given r := by
  unfold outcomeOf Rule.outcome Overruns
  cases r.evaluate (l.contextFor ctx) doc with
  | error b => cases b <;> simp
  | ok said =>
    cases l.config.ruleBudget with
    | none => simp
    | some limit =>
      by_cases hlt : limit < given.elapsed r.name
      · simp [hlt]
      · simp [hlt]

theorem finding?_outcomeOf_iff :
    (Outcome.finding? (l.outcomeOf doc ctx given r)).isSome = true ↔
      (∃ f, r.evaluate (l.contextFor ctx) doc = .ok (some f)) ∧ ¬ l.Overruns given r := by
  have hout : (Outcome.finding? (l.outcomeOf doc ctx given r)).isSome = true ↔
      ∃ f, l.outcomeOf doc ctx given r = .ok (some f) := by
    match l.outcomeOf doc ctx given r with
    | .ok none => simp [Outcome.finding?]
    | .ok (some f) => simp [Outcome.finding?]
    | .error e => simp [Outcome.finding?]
  simp only [hout, outcomeOf_eq_ok_iff, exists_and_right]

theorem error?_outcomeOf_iff :
    (Outcome.error? (l.outcomeOf doc ctx given r)).isSome = true ↔
      (∃ b, r.evaluate (l.contextFor ctx) doc = .error b) ∨
        (∃ found, r.evaluate (l.contextFor ctx) doc = .ok found) ∧ l.Overruns given r := by
  have hout : (Outcome.error? (l.outcomeOf doc ctx given r)).isSome = true ↔
      ∀ found, l.outcomeOf doc ctx given r ≠ .ok found := by
    cases l.outcomeOf doc ctx given r with
    | ok found => simp [Outcome.error?]
    | error e => simp [Outcome.error?]
  simp only [hout, ne_eq, outcomeOf_eq_ok_iff]
  cases r.evaluate (l.contextFor ctx) doc with
  | error b => simp
  | ok found => simp

/-! ## The names in a report -/

/-- Results that bear the name of their rule have the names of the rules with a result. -/
theorem map_filterMap_eq {α : Type} {rules : List Rule} {result : Rule → Option α}
    {name : α → String} (h : ∀ r ∈ rules, ∀ a, result r = some a → name a = r.name) :
    (rules.filterMap result).map name = (rules.filter fun r => (result r).isSome).map (·.name) := by
  induction rules with
  | nil => rfl
  | cons r rules ih =>
    have hrest := ih fun s hs => h s (by simp [hs])
    cases hr : result r with
    | none => simpa [hr] using hrest
    | some a => simpa [hr, h r (by simp) a hr] using hrest

theorem findingNames_run (hr : ∀ r ∈ l.rules, r.ReportsOwn) (doc : Document) (ctx : RunContext)
    (given : Conditions) :
    (l.run doc ctx given).findingNames =
      (l.active.filter fun r => (Outcome.finding? (l.outcomeOf doc ctx given r)).isSome).map
        (·.name) := by
  rw [Report.findingNames, run_eq]
  refine map_filterMap_eq fun r hmem f hf => ?_
  have hout : l.outcomeOf doc ctx given r = .ok (some f) := by
    cases ho : l.outcomeOf doc ctx given r with
    | ok found => rw [ho] at hf; exact congrArg _ hf
    | error e => rw [ho] at hf; cases hf
  exact (hr r (mem_active_iff.1 hmem).1).rule_eq (outcomeOf_eq_ok_iff.1 hout).1

theorem errorNames_run (l : Linter) (doc : Document) (ctx : RunContext) (given : Conditions) :
    (l.run doc ctx given).errorNames =
      (l.active.filter fun r => (Outcome.error? (l.outcomeOf doc ctx given r)).isSome).map
        (·.name) := by
  rw [Report.errorNames, run_eq]
  refine map_filterMap_eq fun r _ e he => ?_
  cases ho : l.outcomeOf doc ctx given r with
  | ok found => rw [ho] at he; cases he
  | error e' =>
    rw [ho] at he
    cases he
    exact Rule.rule_of_outcome_error ho

theorem names_sublist (l : Linter) (p : Rule → Bool) :
    ((l.active.filter p).map (·.name)).Sublist l.ruleNames :=
  (List.filter_sublist.trans List.filter_sublist).map _

/-- A name stands for its rule alone. -/
theorem Registered.mem_names_iff (hl : Registered l) (hr : r ∈ l.rules) (p : Rule → Bool) :
    r.name ∈ (l.active.filter p).map (·.name) ↔
      l.config.isRuleEnabled r.name = true ∧ p r = true := by
  rw [List.mem_map]
  constructor
  · rintro ⟨s, hs, hname⟩
    obtain ⟨hactive, hp⟩ := List.mem_filter.1 hs
    obtain ⟨hmem, hen⟩ := mem_active_iff.1 hactive
    cases hl.eq_of_name hmem hr hname
    exact ⟨hen, hp⟩
  · rintro ⟨hen, hp⟩
    exact ⟨r, List.mem_filter.2 ⟨mem_active_iff.2 ⟨hr, hen⟩, hp⟩, rfl⟩

theorem mem_findingNames_run_iff (hl : Registered l) (hown : ∀ r ∈ l.rules, r.ReportsOwn)
    (hr : r ∈ l.rules) :
    r.name ∈ (l.run doc ctx given).findingNames ↔ l.config.isRuleEnabled r.name = true ∧
      (∃ f, r.evaluate (l.contextFor ctx) doc = .ok (some f)) ∧ ¬ l.Overruns given r := by
  rw [findingNames_run hown, hl.mem_names_iff hr, finding?_outcomeOf_iff]

theorem mem_errorNames_run_iff (hl : Registered l) (hr : r ∈ l.rules) :
    r.name ∈ (l.run doc ctx given).errorNames ↔ l.config.isRuleEnabled r.name = true ∧
      ((∃ b, r.evaluate (l.contextFor ctx) doc = .error b) ∨
        (∃ found, r.evaluate (l.contextFor ctx) doc = .ok found) ∧ l.Overruns given r) := by
  rw [errorNames_run, hl.mem_names_iff hr, error?_outcomeOf_iff]

/-- No rule has both a finding and an error. -/
theorem error?_eq_none_of_finding? {o : Outcome} (h : (Outcome.finding? o).isSome = true) :
    Outcome.error? o = none := by
  cases o with
  | ok found => rfl
  | error e => cases h

theorem disjoint_names_run (hl : Registered l) (hown : ∀ r ∈ l.rules, r.ReportsOwn)
    (doc : Document) (ctx : RunContext) (given : Conditions) :
    (l.run doc ctx given).findingNames.Disjoint (l.run doc ctx given).errorNames := by
  rw [findingNames_run hown, errorNames_run]
  intro name hfinding herror
  obtain ⟨r, hmem, rfl⟩ := List.mem_map.1 hfinding
  obtain ⟨hactive, hfound⟩ := List.mem_filter.1 hmem
  have hfailed := ((hl.mem_names_iff (mem_active_iff.1 hactive).1 _).1 herror).2
  rw [error?_eq_none_of_finding? hfound] at hfailed
  cases hfailed

theorem rulesRun_run (l : Linter) (doc : Document) (ctx : RunContext) (given : Conditions) :
    (l.run doc ctx given).rulesRun = l.active.length := by
  rw [run_eq]

theorem length_add_length_le (l : Linter) (doc : Document) (ctx : RunContext)
    (given : Conditions) :
    (l.run doc ctx given).findings.length + (l.run doc ctx given).errors.length ≤
      (l.run doc ctx given).rulesRun := by
  rw [rulesRun_run, run_eq, List.length_filterMap_eq_countP, List.length_filterMap_eq_countP,
    List.length_eq_countP_add_countP fun r =>
      (Outcome.finding? (l.outcomeOf doc ctx given r)).isSome]
  refine Nat.add_le_add_left (List.countP_mono_left fun r _ he => ?_) _
  simp only [decide_eq_true_eq]
  intro hf
  rw [error?_eq_none_of_finding? hf] at he
  cases he

theorem findingNames_run_nodup (hl : Registered l) (hown : ∀ r ∈ l.rules, r.ReportsOwn)
    (doc : Document) (ctx : RunContext) (given : Conditions) :
    (l.run doc ctx given).findingNames.Nodup := by
  rw [findingNames_run hown]
  exact hl.names_nodup.sublist (names_sublist l _)

/-- The finding of a name in the report of a run is what the rule of that name said. -/
theorem finding?_run_iff (hl : Registered l) (hown : ∀ r ∈ l.rules, r.ReportsOwn) {name : String}
    {f : Finding} :
    (l.run doc ctx given).finding? name = some f ↔
      ∃ r ∈ l.rules, r.name = name ∧ l.config.isRuleEnabled name = true ∧
        r.evaluate (l.contextFor ctx) doc = .ok (some f) ∧ ¬ l.Overruns given r := by
  rw [Report.finding?_eq_some_iff (findingNames_run_nodup hl hown doc ctx given), mem_findings_iff]
  constructor
  · rintro ⟨⟨r, hactive, ho⟩, hname⟩
    obtain ⟨hmem, hen⟩ := mem_active_iff.1 hactive
    obtain ⟨hsaid, htime⟩ := outcomeOf_eq_ok_iff.1 ho
    have hrule : r.name = name := ((hown r hmem).rule_eq hsaid).symm.trans hname
    exact ⟨r, hmem, hrule, hrule ▸ hen, hsaid, htime⟩
  · rintro ⟨r, hmem, rfl, hen, hsaid, htime⟩
    exact ⟨⟨r, mem_active_iff.2 ⟨hmem, hen⟩, outcomeOf_eq_ok_iff.2 ⟨hsaid, htime⟩⟩,
      (hown r hmem).rule_eq hsaid⟩

theorem run_of_switchedOff (h : l.config.enabled = false) (doc : Document) (ctx : RunContext)
    (given : Conditions) : l.run doc ctx given = {} := by
  have hactive : l.active = [] := List.filter_eq_nil_iff.2 fun r _ => by
    simp [Config.isRuleEnabled, h]
  rw [run_eq, hactive]
  rfl

/-! ## Reports of runs -/

/-- How a report accounts for the rules of a linter. -/
structure Accounts (l : Linter) (doc : Document) (ctx : RunContext) (given : Conditions)
    (report : Report) : Prop where
  /-- An enabled rule is among the findings just when it found something and was in time. -/
  found_iff : ∀ r ∈ l.rules, l.config.isRuleEnabled r.name = true →
    (r.name ∈ report.findingNames ↔
      (∃ f, r.evaluate (l.contextFor ctx) doc = .ok (some f)) ∧ ¬ l.Overruns given r)
  /-- An enabled rule is among the errors just when it broke down or had a result too late. -/
  failed_iff : ∀ r ∈ l.rules, l.config.isRuleEnabled r.name = true →
    (r.name ∈ report.errorNames ↔
      (∃ b, r.evaluate (l.contextFor ctx) doc = .error b) ∨
        (∃ found, r.evaluate (l.contextFor ctx) doc = .ok found) ∧ l.Overruns given r)
  /-- An enabled rule is nowhere just when it found nothing and was in time. -/
  silent_iff : ∀ r ∈ l.rules, l.config.isRuleEnabled r.name = true →
    (r.name ∉ report.findingNames ∧ r.name ∉ report.errorNames ↔
      r.evaluate (l.contextFor ctx) doc = .ok none ∧ ¬ l.Overruns given r)
  /-- A rule that is not enabled is nowhere. -/
  absent : ∀ r ∈ l.rules, l.config.isRuleEnabled r.name = false →
    r.name ∉ report.findingNames ∧ r.name ∉ report.errorNames
  findings_sublist : report.findingNames.Sublist l.ruleNames
  errors_sublist : report.errorNames.Sublist l.ruleNames
  findings_nodup : report.findingNames.Nodup
  errors_nodup : report.errorNames.Nodup
  disjoint : report.findingNames.Disjoint report.errorNames
  length_le : report.findings.length + report.errors.length ≤ report.rulesRun
  rulesRun_eq : report.rulesRun = l.rules.countP fun r => l.config.isRuleEnabled r.name
  rulesRun_le : report.rulesRun ≤ l.ruleCount
  occurrences_pos : ∀ f ∈ report.findings, 1 ≤ f.occurrences
  isSome_finding? : ∀ name, (report.finding? name).isSome = true ↔ name ∈ report.findingNames
  /-- The finding of a name is what the enabled rule of that name said in time. -/
  finding?_iff : ∀ name f, report.finding? name = some f ↔
    ∃ r ∈ l.rules, r.name = name ∧ l.config.isRuleEnabled name = true ∧
      r.evaluate (l.contextFor ctx) doc = .ok (some f) ∧ ¬ l.Overruns given r
  /-- With all rules switched off, there is nothing to report. -/
  switchedOff : l.config.enabled = false → report = {} ∧ report.isClean = true

/-- In every linter that can be put together, if its rules report through their own catalogs, every
run accounts for each rule: it is among the findings, among the errors or in neither. -/
theorem run_accounts (hl : Reachable l) (hown : ∀ r ∈ l.rules, r.ReportsOwn) (doc : Document)
    (ctx : RunContext) (given : Conditions) :
    l.Accounts doc ctx given (l.run doc ctx given) := by
  have hreg := reachable_registered hl
  have hnodup := findingNames_run_nodup hreg hown doc ctx given
  constructor
  case found_iff =>
    intro r hr hen
    rw [mem_findingNames_run_iff hreg hown hr]
    exact and_iff_right hen
  case failed_iff =>
    intro r hr hen
    rw [mem_errorNames_run_iff hreg hr]
    exact and_iff_right hen
  case silent_iff =>
    intro r hr hen
    rw [mem_findingNames_run_iff hreg hown hr, mem_errorNames_run_iff hreg hr]
    match r.evaluate (l.contextFor ctx) doc with
    | .error b => simp [hen]
    | .ok none => simp [hen]
    | .ok (some f) =>
      by_cases hlate : l.Overruns given r
      · simp [hen, hlate]
      · simp [hen, hlate]
  case absent =>
    intro r hr hoff
    rw [mem_findingNames_run_iff hreg hown hr, mem_errorNames_run_iff hreg hr]
    simp [hoff]
  case findings_sublist =>
    rw [findingNames_run hown]
    exact names_sublist l _
  case errors_sublist =>
    rw [errorNames_run]
    exact names_sublist l _
  case findings_nodup => exact hnodup
  case errors_nodup =>
    rw [errorNames_run]
    exact hreg.names_nodup.sublist (names_sublist l _)
  case disjoint => exact disjoint_names_run hreg hown doc ctx given
  case length_le => exact length_add_length_le l doc ctx given
  case rulesRun_eq =>
    rw [rulesRun_run, List.countP_eq_length_filter]
    rfl
  case rulesRun_le =>
    rw [rulesRun_run]
    exact List.length_filter_le _ _
  case occurrences_pos => exact fun f _ => f.occurrences_pos
  case isSome_finding? =>
    intro name
    simp only [Option.isSome_iff_exists, Report.finding?_eq_some_iff hnodup, Report.findingNames,
      List.mem_map]
  case finding?_iff => exact fun _ _ => finding?_run_iff hreg hown
  case switchedOff =>
    intro hoff
    rw [run_of_switchedOff hoff]
    exact ⟨rfl, rfl⟩

/-- A rule against `div` that breaks off if it is told to. -/
def againstDiv (name : String) (breaksOff : Bool) : SelectingRule where
  name := name
  selector := ⟨"div", [⟨some "div", []⟩]⟩
  violation _ _ := if breaksOff then .error .unprintable else .ok true
  catalog := Catalog.ofList [("en", { description := "div", howToFix := "section" })]

/-- On a `div` the first rule is content, the second is not, the third breaks off, the fourth may
take too long, and the last is switched off. -/
def mixed : Linter where
  config :=
    { ruleBudgetMs := some 1, rules := KeyMap.ofList [("off", { enabled := some false })] }
  rules :=
    [HeadinglessSections.rule HeadinglessSections.messages, (againstDiv "finds" false).toRule,
     (againstDiv "breaks" true).toRule, (againstDiv "slow" false).toRule,
     (againstDiv "off" false).toRule]

theorem run_accounts_mixed :
    let given : Conditions := { elapsed := fun name => if name = "slow" then 1000001 else 1000000 }
    let report := mixed.run (ElementTree.single "div" ∅).toDocument { lang := "en" } given
    Reachable mixed ∧ (∀ r ∈ mixed.rules, r.ReportsOwn) ∧
      mixed.Accounts (ElementTree.single "div" ∅).toDocument { lang := "en" } given report ∧
      report.findingNames = ["finds"] ∧ report.errorNames = ["breaks", "slow"] ∧
      report.rulesRun = 4 := by
  intro given report
  have hbuild : build mixed.config mixed.rules = .ok mixed := rfl
  have hown : ∀ r ∈ mixed.rules, r.ReportsOwn := by
    intro r hr
    simp only [mixed, List.mem_cons, List.not_mem_nil, or_false] at hr
    rcases hr with rfl | rfl | rfl | rfl | rfl
    · exact HeadinglessSections.reportsOwn _
    all_goals exact SelectingRule.reportsOwn _
  exact ⟨.built hbuild, hown, run_accounts (.built hbuild) hown _ _ _,
    by decide +kernel, by decide +kernel, by decide +kernel⟩

end Linter

end StructureLint
