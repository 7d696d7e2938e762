import StructureLint.CommandLine.Run
import StructureLint.Proofs.CommandLine.Language
/-!
# The exit status of a check

A check comes to a report in three steps: the configuration is loaded, the document is read, and the
rules are registered (`Prepared`). If a step fails, nothing is printed and the status is 1; if none
does, the status says whether the report is clean (`run_check`).

Without a limit of time, whether a report is clean depends on the document and on the enabled rules
alone: a rule that only looks for offending elements either finds none in any context or has
something to say in every one (`isClean_run_iff`). So neither the language nor the form of the
output, and nothing about how the rules are evaluated, shows in the status (`status_is_verdict`).
-/

namespace StructureLint

/-! ## Clean reports -/

theorem Report.isClean_iff {r : Report} : r.isClean = true ↔ r.findings = [] ∧ r.errors = [] := by
  simp [isClean]

/-- The rule has nothing to say about a document, whatever the context. -/
def Rule.Silent (r : Rule) (doc : Document) : Prop :=
  ∀ ctx, r.evaluate ctx doc = .ok none

theorem ofOffenders_eq_none_iff {catalog : Catalog} {ctx : RunContext} {name : String}
    {offenders : List NodeId} (h : catalog.contains ctx.defaultLang = true) :
    Verdict.ofOffenders name catalog ctx offenders = .ok none ↔ offenders = [] := by
  obtain ⟨m, hm, -⟩ := Catalog.resolve_of_contains h ctx.lang
  cases offenders with
  | nil => simp [Verdict.ofOffenders]
  | cons n ns => simp [Verdict.ofOffenders, RunContext.localize, hm, Finding.of?]

namespace Linter

variable {l : Linter} {doc : Document} {r : Rule}

theorem isClean_run_iff_outcomes {ctx : RunContext} {given : Conditions} :
    (l.run doc ctx given).isClean = true ↔
      ∀ r ∈ l.active, l.outcomeOf doc ctx given r = .ok none := by
  have hnone : ∀ o : Outcome,
      o = .ok none ↔ Outcome.finding? o = none ∧ Outcome.error? o = none := by
    rintro (e | _ | f) <;> simp [Outcome.finding?, Outcome.error?]
  rw [Report.isClean_iff, run_eq]
  simp only [List.filterMap_eq_nil_iff, hnone]
  constructor
  · exact fun h r hr => ⟨h.1 r hr, h.2 r hr⟩
  · exact fun h => ⟨fun r hr => (h r hr).1, fun r hr => (h r hr).2⟩

/-- What a registered rule says is nothing in one context only if it is nothing in all. -/
theorem outcomeOf_eq_none_iff (hl : Registered l) (hb : l.config.ruleBudgetMs = none)
    (hr : r ∈ l.rules) (hs : r.Searches doc) (ctx : RunContext) (given : Conditions) :
    l.outcomeOf doc ctx given r = .ok none ↔ r.Silent doc := by
  obtain ⟨offenders, he⟩ := hs.evaluate_eq
  constructor
  · intro h ctx'
    have hnone := (outcomeOf_eq_ok_iff.1 h).1
    rw [he, ofOffenders_eq_none_iff (hl.has_default r hr)] at hnone
    rw [he, hnone]
    rfl
  · intro h
    have hbudget : l.config.ruleBudget = none := by simp [Config.ruleBudget, hb]
    rw [outcomeOf, hbudget]
    exact Rule.outcome_of_ok (h _) _

theorem isClean_run_iff (hl : Registered l) (hb : l.config.ruleBudgetMs = none)
    (hs : ∀ r ∈ l.rules, r.Searches doc) (ctx : RunContext) (given : Conditions) :
    (l.run doc ctx given).isClean = true ↔ ∀ r ∈ l.active, r.Silent doc := by
  rw [isClean_run_iff_outcomes]
  refine forall₂_congr fun r hr => ?_
  have hmem := (mem_active_iff.1 hr).1
  exact outcomeOf_eq_none_iff hl hb hmem (hs r hmem) ctx given

end Linter

namespace CommandLine

variable {fs : Files} {environment : Environment} {given : Conditions} {args : List String}
  {i : Invocation} {path : String} {format : Format} {lang rules : Option String}

/-! ## What a check has to go through -/

/-- The file at a path is UTF-8 and describes a document. -/
def Describes (fs : Files) (path : String) (spec : ElementSpec) : Prop :=
  ∃ bytes text, fs.read path = .ok bytes ∧ String.fromUTF8? bytes = some text ∧
    ElementSpec.ofText text = .ok spec

/-- What must succeed before the rules are run: the configuration that applies is loaded, the file
of the document is read, and the rules selected are registered. -/
structure Prepared (fs : Files) (environment : Environment) (named : Option String) (path : String)
    (rules : Option String) (config : Config) (spec : ElementSpec) (l : Linter) : Prop where
  loaded : (findConfig fs environment (directoryOf path) named).load fs = .ok config
  described : Describes fs path spec
  registered : Linter.build config (selectRules rules) = .ok l

/-- The report about a document that was read from a path. -/
def reportOn (path : String) (lang : Option String) (given : Conditions) (config : Config)
    (spec : ElementSpec) (l : Linter) : Report :=
  let doc := (ElementTree.ofSpec spec).toDocument
  l.run doc (contextFor path doc config lang) given

theorem result_loadConfig_eq_ok_iff {directory : String} {named : Option String}
    {config : Config} :
    (loadConfig fs environment directory named).result = .ok config ↔
      (findConfig fs environment directory named).load fs = .ok config := by
  unfold loadConfig
  simp only [Logged.result_bind, Logged.result_note, Logged.result_lift]
  cases (findConfig fs environment directory named).load fs <;> simp [Except.bind, Except.mapError]

theorem describes_iff {spec : ElementSpec} :
    Describes fs path spec ↔ ∃ text, fs.readText path = .ok text ∧
      ElementSpec.ofText text = .ok spec := by
  unfold Describes Files.readText
  cases fs.read path with
  | error e => simp
  | ok bytes => cases h : String.fromUTF8? bytes <;> simp [h]

theorem readDocument_eq_ok_iff {tree : ElementTree} :
    readDocument fs path = .ok tree ↔
      ∃ spec, Describes fs path spec ∧ tree = .ofSpec spec := by
  simp only [describes_iff]
  unfold readDocument
  cases fs.readText path with
  | error e => simp
  | ok text => cases h : ElementSpec.ofText text <;> simp [h, eq_comm]

theorem result_check_iff_prepared {named : Option String} {c : Checked} :
    (check fs environment named path lang rules given).result = .ok c ↔
      ∃ config spec l, Prepared fs environment named path rules config spec l ∧
        c = ⟨reportOn path lang given config spec l, (ElementTree.ofSpec spec).toDocument⟩ := by
  simp only [result_check_eq_ok_iff, result_loadConfig_eq_ok_iff, readDocument_eq_ok_iff]
  constructor
  · rintro ⟨config, _, l, hconfig, ⟨spec, hspec, rfl⟩, hbuild, rfl⟩
    exact ⟨config, spec, l, ⟨hconfig, hspec, hbuild⟩, rfl⟩
  · rintro ⟨config, spec, l, h, rfl⟩
    exact ⟨config, _, l, h.loaded, ⟨spec, h.described, rfl⟩, h.registered, rfl⟩

/-! ## The status -/

/-- A run of the program that is a check ends as the check does. -/
theorem run_eq_conclude (fs : Files) (given : Conditions) (hi : parse environment args = .ok i)
    (hcheck : i.command = .check path format lang rules) :
    run fs environment given args =
      conclude fs i.verbose (check fs environment i.config path lang rules given)
        (fun c => if c.report.isClean then 0 else 1)
        (fun c => c.report.present c.document format) := by
  simp only [run, hi, perform, hcheck]

/-- A check that succeeds has the status of its report, and one that fails has the status 1 and
prints nothing. -/
theorem run_check (fs : Files) (given : Conditions) (hi : parse environment args = .ok i)
    (hcheck : i.command = .check path format lang rules) :
    (∃ config spec l, Prepared fs environment i.config path rules config spec l ∧
      (run fs environment given args).status =
        if (reportOn path lang given config spec l).isClean then 0 else 1) ∨
    (¬ ∃ config spec l, Prepared fs environment i.config path rules config spec l) ∧
      (run fs environment given args).status = 1 ∧
      (run fs environment given args).output = "" := by
  rw [run_eq_conclude fs given hi hcheck]
  cases hc : (check fs environment i.config path lang rules given).result with
  | ok c =>
    obtain ⟨config, spec, l, h, rfl⟩ := result_check_iff_prepared.1 hc
    exact .inl ⟨config, spec, l, h, by simp [conclude, hc]⟩
  | error failure =>
    refine .inr ⟨?_, by simp [conclude, hc], by simp [conclude, hc]⟩
    rintro ⟨config, spec, l, h⟩
    cases hc.symm.trans (result_check_iff_prepared.2 ⟨config, spec, l, h, rfl⟩)

theorem Prepared.unique {named : Option String} {config config' : Config} {spec spec' : ElementSpec}
    {l l' : Linter} (h : Prepared fs environment named path rules config spec l)
    (h' : Prepared fs environment named path rules config' spec' l') :
    config = config' ∧ spec = spec' ∧ l = l' := by
  cases h.loaded.symm.trans h'.loaded
  cases h.registered.symm.trans h'.registered
  obtain ⟨text, hread, hspec⟩ := describes_iff.1 h.described
  obtain ⟨text', hread', hspec'⟩ := describes_iff.1 h'.described
  cases hread.symm.trans hread'
  cases hspec.symm.trans hspec'
  exact ⟨rfl, rfl, rfl⟩

theorem status_eq_zero_iff (hi : parse environment args = .ok i)
    (hcheck : i.command = .check path format lang rules) :
    (run fs environment given args).status = 0 ↔
      ∃ config spec l, Prepared fs environment i.config path rules config spec l ∧
        (reportOn path lang given config spec l).isClean = true := by
  rcases run_check fs given hi hcheck with ⟨config, spec, l, h, hstatus⟩ | ⟨hnone, hstatus, -⟩
  · rw [hstatus]
    constructor
    · intro hzero
      refine ⟨config, spec, l, h, ?_⟩
      by_contra hclean
      simp [hclean] at hzero
    · rintro ⟨config', spec', l', h', hclean⟩
      obtain ⟨rfl, rfl, rfl⟩ := h.unique h'
      exact if_pos hclean
  · rw [hstatus]
    exact ⟨fun hzero => absurd hzero Nat.one_ne_zero,
      fun ⟨config, spec, l, h, _⟩ => absurd ⟨config, spec, l, h⟩ hnone⟩

theorem status_zero_or_one (fs : Files) (given : Conditions)
    (hi : parse environment args = .ok i)
    (hcheck : i.command = .check path format lang rules) :
    (run fs environment given args).status = 0 ∨ (run fs environment given args).status = 1 := by
  rcases run_check fs given hi hcheck with ⟨_, _, _, _, hstatus⟩ | ⟨_, hstatus, _⟩
  · rw [hstatus]
    split
    · exact .inl rfl
    · exact .inr rfl
  · exact .inr hstatus

/-! ## What the status does not depend on -/

/-- Two attempts to load a configuration that fail both, or that both succeed without a limit of
time, with a difference in the language asked for and in `parallel` at most. -/
inductive LoadAlike : Except ConfigError Config → Except ConfigError Config → Prop
  | failed (e e' : ConfigError) : LoadAlike (.error e) (.error e')
  | loaded (config : Config) (hb : config.ruleBudgetMs = none) (lang : Option String)
      (parallel : Bool) : LoadAlike (.ok config) (.ok { config with lang, parallel })

theorem LoadAlike.symm {a b : Except ConfigError Config} (h : LoadAlike a b) : LoadAlike b a := by
  cases h with
  | failed e e' => exact .failed e' e
  | loaded config hb lang parallel =>
    exact .loaded { config with lang, parallel } hb config.lang config.parallel

theorem registered_alike {config : Config} {l : Linter} (lang : Option String) (parallel : Bool)
    (h : Linter.build config (selectRules rules) = .ok l) :
    Linter.build { config with lang, parallel } (selectRules rules) =
      .ok { config := { config with lang, parallel }, rules := selectRules rules } := by
  have hreg := (Linter.build_eq_ok_iff.1 h).2
  exact Linter.build_eq_ok_iff.2 ⟨rfl, hreg.names_nodup, hreg.has_default⟩

theorem isClean_reportOn_iff {config : Config} {spec : ElementSpec} {l : Linter}
    (hbuild : Linter.build config (selectRules rules) = .ok l) (hb : config.ruleBudgetMs = none) :
    (reportOn path lang given config spec l).isClean = true ↔
      ∀ r ∈ selectRules rules, config.isRuleEnabled r.name = true →
        r.Silent (ElementTree.ofSpec spec).toDocument := by
  obtain ⟨rfl, hreg⟩ := Linter.build_eq_ok_iff.1 hbuild
  rw [reportOn, Linter.isClean_run_iff hreg hb fun r hr =>
    searches_of_builtIn (mem_builtIn_of_selectRules hr) _]
  simp only [Linter.mem_active_iff, and_imp]

theorem status_zero_of_alike {fs' : Files} {environment' : Environment} {given' : Conditions}
    {args' : List String} {i' : Invocation} {format' : Format} {lang' : Option String}
    (hi : parse environment args = .ok i) (hcheck : i.command = .check path format lang rules)
    (hi' : parse environment' args' = .ok i')
    (hcheck' : i'.command = .check path format' lang' rules)
    (hdoc : fs'.readText path = fs.readText path)
    (hload : LoadAlike ((findConfig fs environment (directoryOf path) i.config).load fs)
      ((findConfig fs' environment' (directoryOf path) i'.config).load fs'))
    (h : (run fs environment given args).status = 0) :
    (run fs' environment' given' args').status = 0 := by
  obtain ⟨config, spec, l, hprepared, hclean⟩ := (status_eq_zero_iff hi hcheck).1 h
  have hdescribed : Describes fs' path spec := by
    rw [describes_iff, hdoc]
    exact describes_iff.1 hprepared.described
  rw [hprepared.loaded] at hload
  generalize hloaded : (findConfig fs' environment' (directoryOf path) i'.config).load fs' = loaded'
    at hload
  cases hload with
  | loaded _ hb lang parallel =>
    have hregistered := registered_alike lang parallel hprepared.registered
    refine (status_eq_zero_iff hi' hcheck').2 ⟨_, spec, _, ⟨hloaded, hdescribed, hregistered⟩, ?_⟩
    exact (isClean_reportOn_iff hregistered hb).2
      ((isClean_reportOn_iff hprepared.registered hb).1 hclean)

/-- The status of a check is 0 just when it comes to a report and this is empty, else 1. Without a
limit of time it is the same however the report is presented and the rules are evaluated. -/
theorem status_is_verdict (hi : parse environment args = .ok i)
    (hcheck : i.command = .check path format lang rules) :
    ((run fs environment given args).status = 0 ↔
      ∃ config spec l, Prepared fs environment i.config path rules config spec l ∧
        (reportOn path lang given config spec l).findings = [] ∧
        (reportOn path lang given config spec l).errors = []) ∧
    ((run fs environment given args).status = 0 ∨ (run fs environment given args).status = 1) ∧
    ((¬ ∃ config spec l, Prepared fs environment i.config path rules config spec l) →
      (run fs environment given args).output = "") ∧
    ∀ (fs' : Files) (environment' : Environment) (given' : Conditions) (args' : List String)
      (i' : Invocation) (format' : Format) (lang' : Option String),
      parse environment' args' = .ok i' → i'.command = .check path format' lang' rules →
      fs'.readText path = fs.readText path →
      LoadAlike ((findConfig fs environment (directoryOf path) i.config).load fs)
        ((findConfig fs' environment' (directoryOf path) i'.config).load fs') →
      (run fs' environment' given' args').status = (run fs environment given args).status := by
  refine ⟨?_, status_zero_or_one fs given hi hcheck, fun hnone => ?_, ?_⟩
  · simpa only [Report.isClean_iff] using status_eq_zero_iff hi hcheck
  · rcases run_check fs given hi hcheck with ⟨config, spec, l, h, -⟩ | ⟨-, -, houtput⟩
    · exact absurd ⟨config, spec, l, h⟩ hnone
    · exact houtput
  · intro fs' environment' given' args' i' format' lang' hi' hcheck' hdoc hload
    have hzero : (run fs environment given args).status = 0 ↔
        (run fs' environment' given' args').status = 0 :=
      ⟨status_zero_of_alike hi hcheck hi' hcheck' hdoc hload,
        status_zero_of_alike hi' hcheck' hi hcheck hdoc.symm hload.symm⟩
    have h := status_zero_or_one fs given hi hcheck
    have h' := status_zero_or_one fs' given' hi' hcheck'
    omega

/-- A section without a heading, and a configuration in which rules are evaluated side by side. -/
def sectionBeside : Files :=
  ((({} : Files).withFile ["doclint.toml"] "parallel = true\n".toUTF8).withFile
    ["plain.json"] "\x7b\"name\":\"section\"\x7d".toUTF8)

/-- The same document without a configuration. -/
def sectionAlone : Files :=
  ({} : Files).withFile ["plain.json"] "\x7b\"name\":\"section\"\x7d".toUTF8

theorem status_is_verdict_section :
    (run sectionAlone {} { elapsed := fun _ => 0 } ["check", "plain.json"]).status = 1 ∧
      (run sectionBeside {} { elapsed := fun _ => 7 }
        ["-v", "check", "--format", "json", "--lang", "nl", "plain.json"]).status = 1 ∧
      (run sectionAlone {} { elapsed := fun _ => 0 } ["check", "missing.json"]).output = "" := by
  have hi : parse {} ["check", "plain.json"] =
      .ok ⟨false, none, .check "plain.json" .text none none⟩ := by decide +kernel
  have hi' : parse {} ["-v", "check", "--format", "json", "--lang", "nl", "plain.json"] =
      .ok ⟨true, none, .check "plain.json" .json (some "nl") none⟩ := by decide +kernel
  have hmissing : parse {} ["check", "missing.json"] =
      .ok ⟨false, none, .check "missing.json" .text none none⟩ := by decide +kernel
  have hstatus :
      (run sectionAlone {} { elapsed := fun _ => 0 } ["check", "plain.json"]).status = 1 := by
    decide +kernel
  have hread : sectionBeside.readText "plain.json" = sectionAlone.readText "plain.json" := by
    decide +kernel
  have hdefault : (findConfig sectionAlone {} (directoryOf "plain.json") none).load sectionAlone =
      .ok {} := by decide +kernel
  have hparallel :
      (findConfig sectionBeside {} (directoryOf "plain.json") none).load sectionBeside =
        .ok { parallel := true } := by decide +kernel
  refine ⟨hstatus, ?_, (status_is_verdict hmissing rfl).2.2.1 ?_⟩
  · rw [← hstatus]
    refine (status_is_verdict hi rfl).2.2.2 _ _ _ _ _ _ _ hi' rfl hread ?_
    rw [hdefault, hparallel]
    exact .loaded {} rfl none true
  · rintro ⟨config, spec, l, h⟩
    have hnone : sectionAlone.readText "missing.json" = .error .notFound := by decide +kernel
    obtain ⟨text, htext, -⟩ := describes_iff.1 h.described
    cases hnone.symm.trans htext

end CommandLine

end StructureLint
