import StructureLint.Proofs.CommandLine.Status
import StructureLint.Proofs.Linter.Workers
/-!
# Which configuration applies

The configuration is the one named on the command line, or else the first of the `candidates` that
is a file, or else the default one (`Chosen`, `chosen_iff`). What the file holds does not matter for
the choice, so a check fails if it cannot be read, and no other file takes its place.

A check looks at the candidates up to the one that is chosen (`examined`), reads this one and the
document, and nothing else. Without a limit of time, files that agree there have the same outcome
(`config_by_priority`).
-/

namespace StructureLint

/-- Without a limit of time, it does not matter how long the rules of a linter take. -/
theorem Linter.run_unlimited {l : Linter} (hb : l.config.ruleBudgetMs = none) (doc : Document)
    (ctx : RunContext) (given given' : Conditions) :
    l.run doc ctx given = l.run doc ctx given' := by
  have hbudget : l.config.ruleBudget = none := by simp [Config.ruleBudget, hb]
  have houtcome : l.outcomeOf doc ctx given = l.outcomeOf doc ctx given' := by
    funext r
    rw [outcomeOf, outcomeOf, hbudget]
    exact r.outcome_none_eq ..
  rw [run_eq_ofOutcomes, run_eq_ofOutcomes, houtcome]

namespace CommandLine

variable {fs fs' : Files} {environment : Environment} {given given' : Conditions}
  {args : List String} {i : Invocation} {path directory : String} {format : Format}
  {named lang rules chosen : Option String} {paths : List String}

/-! ## The choice -/

/-- Where a configuration is looked for if none is named: beside the document under two names, then
in the global directory, which is given or lies in the home directory. -/
def candidates (environment : Environment) (directory : String) : List String :=
  [Path.join directory "doclint.toml", Path.join directory ".doclint.toml"] ++
    match environment.get? "DOCLINT_CONFIG_DIR", environment.home with
    | some globals, _ => [Path.join globals "config.toml"]
    | none, some home => [Path.join (Path.join home ".doclint") "config.toml"]
    | none, none => []

/-- The path of the configuration that applies: the one that is named, be there a file or not, or
else the first that is a file. There is none if no path is a file. -/
inductive Chosen (fs : Files) (paths : List String) : Option String → Option String → Prop
  | named (path : String) : Chosen fs paths (some path) (some path)
  | found {before after : List String} {path : String} (hpaths : paths = before ++ path :: after)
      (hbefore : ∀ q ∈ before, fs.isFile q = false) (hpath : fs.isFile path = true) :
      Chosen fs paths none (some path)
  | builtIn (h : ∀ q ∈ paths, fs.isFile q = false) : Chosen fs paths none none

/-- The configuration at a path; without a path, the default one. -/
def configAt (fs : Files) : Option String → Except ConfigError Config
  | none => .ok {}
  | some path => Config.ofFile fs path

theorem candidates_eq (environment : Environment) (directory : String) :
    candidates environment directory =
      localPaths directory ++ (globalPath? environment).toList := by
  unfold candidates globalPath?
  cases environment.get? "DOCLINT_CONFIG_DIR" with
  | some globals => rfl
  | none =>
    cases environment.home with
    | some home => rfl
    | none => rfl

theorem path?_findConfig_none (fs : Files) (environment : Environment) (directory : String) :
    (findConfig fs environment directory none).path? =
      (candidates environment directory).find? fs.isFile := by
  rw [candidates_eq, List.find?_append, findConfig]
  cases (localPaths directory).find? fs.isFile with
  | some path => rfl
  | none =>
    cases globalPath? environment with
    | none => rfl
    | some path =>
      by_cases hfile : fs.isFile path = true
      · simp [Option.filter, hfile, ConfigOrigin.path?]
      · simp [Option.filter, hfile, ConfigOrigin.path?]

theorem chosen_none_iff : Chosen fs paths none chosen ↔ paths.find? fs.isFile = chosen := by
  constructor
  · rintro (_ | ⟨rfl, hbefore, hpath⟩ | ⟨h⟩)
    · refine List.find?_eq_some_iff_append.2 ⟨hpath, _, _, rfl, fun q hq => ?_⟩
      simp [hbefore q hq]
    · exact List.find?_eq_none.2 fun q hq => by simp [h q hq]
  · intro h
    cases chosen with
    | none =>
      refine .builtIn fun q hq => ?_
      simpa using List.find?_eq_none.1 h q hq
    | some path =>
      obtain ⟨hpath, before, after, hpaths, hbefore⟩ := List.find?_eq_some_iff_append.1 h
      exact .found hpaths (fun q hq => by simpa using hbefore q hq) hpath

/-- A check chooses its configuration by priority. -/
theorem chosen_iff : Chosen fs (candidates environment directory) named chosen ↔
    (findConfig fs environment directory named).path? = chosen := by
  cases named with
  | none => rw [chosen_none_iff, path?_findConfig_none]
  | some path =>
    constructor
    · rintro ⟨⟩
      rfl
    · rintro rfl
      exact .named path

theorem load_eq (origin : ConfigOrigin) : origin.load fs = configAt fs origin.path? := by
  cases origin <;> rfl

/-! ## Files that a check cannot tell apart -/

/-- The paths that are looked at: up to the first that is a file. -/
def examined (fs : Files) : List String → List String
  | [] => []
  | q :: qs => if fs.isFile q then [q] else q :: examined fs qs

/-- The files agree on which of the paths up to the chosen one are files, and on what the chosen one
holds. If a path is named, only this one counts. -/
structure AgreeUpTo (fs fs' : Files) (paths : List String) (named chosen : Option String) :
    Prop where
  existence : named = none → ∀ q ∈ examined fs paths, fs'.isFile q = fs.isFile q
  content : ∀ p, chosen = some p → fs'.readText p = fs.readText p

theorem find?_examined (h : ∀ q ∈ examined fs paths, fs'.isFile q = fs.isFile q) :
    paths.find? fs'.isFile = paths.find? fs.isFile := by
  induction paths with
  | nil => rfl
  | cons q paths ih =>
    by_cases hq : fs.isFile q = true
    · -- Both searches end here, so the other paths do not matter.
      have hfile := h q (by simp [examined, hq])
      rw [List.find?_cons_of_pos hq, List.find?_cons_of_pos (hfile.trans hq)]
    · have hfile := h q (by simp [examined, hq])
      rw [List.find?_cons_of_neg hq, List.find?_cons_of_neg (hfile ▸ hq)]
      exact ih fun q' hq' => h q' (by simp [examined, hq, hq'])

theorem AgreeUpTo.keeps_choice (h : AgreeUpTo fs fs' paths named chosen)
    (hc : Chosen fs paths named chosen) : Chosen fs' paths named chosen := by
  cases named with
  | some path =>
    cases hc
    exact .named path
  | none =>
    have hsame := find?_examined (h.existence rfl)
    exact chosen_none_iff.2 (hsame.trans (chosen_none_iff.1 hc))

theorem AgreeUpTo.configAt_eq (h : AgreeUpTo fs fs' paths named chosen) :
    configAt fs' chosen = configAt fs chosen := by
  cases chosen with
  | none => rfl
  | some path => rw [configAt, configAt, Config.ofFile, Config.ofFile, h.content path rfl]

/-! ## The outcome -/

/-- A check loads the configuration, reads the document and registers the rules, in this order, and
fails with the first of these steps that fails. -/
theorem result_check_eq (hc : Chosen fs (candidates environment (directoryOf path)) named chosen) :
    (check fs environment named path lang rules given).result =
      ((configAt fs chosen).mapError Failure.config).bind fun config =>
      ((readDocument fs path).mapError (Failure.document path)).bind fun tree =>
      ((Linter.build config (selectRules rules)).mapError Failure.registration).bind fun l =>
      .ok ⟨l.run tree.toDocument (contextFor path tree.toDocument config lang) given,
        tree.toDocument⟩ := by
  have hload :
      (findConfig fs environment (directoryOf path) named).load fs = configAt fs chosen := by
    rw [load_eq, chosen_iff.1 hc]
  unfold check loadConfig loadDocument buildLinter
  simp only [Logged.result_bind, Logged.result_note, Logged.result_lift, Logged.result_pure, hload]
  cases configAt fs chosen with
  | error e => rfl
  | ok config =>
    cases readDocument fs path with
    | error e => rfl
    | ok tree => rfl

/-- Files that agree up to the chosen configuration and on the document have the same result. -/
theorem result_check_of_agree
    (hc : Chosen fs (candidates environment (directoryOf path)) named chosen)
    (hb : ∀ config, configAt fs chosen = .ok config → config.ruleBudgetMs = none)
    (h : AgreeUpTo fs fs' (candidates environment (directoryOf path)) named chosen)
    (hdoc : fs'.readText path = fs.readText path) (lang rules : Option String)
    (given given' : Conditions) :
    (check fs' environment named path lang rules given').result =
      (check fs environment named path lang rules given).result := by
  have hread : readDocument fs' path = readDocument fs path := by
    rw [readDocument, readDocument, hdoc]
  rw [result_check_eq (h.keeps_choice hc), result_check_eq hc, h.configAt_eq, hread]
  cases hconfig : configAt fs chosen with
  | error e => rfl
  | ok config =>
    cases readDocument fs path with
    | error e => rfl
    | ok tree =>
      simp only [Except.mapError, Except.bind]
      cases hbuild : Linter.build config (selectRules rules) with
      | error e => rfl
      | ok l =>
        simp only
        have hl : l.config.ruleBudgetMs = none := by
          rw [(Linter.build_eq_ok_iff.1 hbuild).1]
          exact hb config hconfig
        rw [Linter.run_unlimited hl _ _ given' given]

/-- A check takes the configuration that is named, else the first candidate that is a file, else the
default one, and fails if it cannot be loaded. Without a limit of time, files that agree up to the
choice have the same outcome. -/
theorem config_by_priority (fs : Files) (given : Conditions)
    (hi : parse environment args = .ok i) (hcheck : i.command = .check path format lang rules) :
    ∃ chosen,
      (∀ other, Chosen fs (candidates environment (directoryOf path)) i.config other ↔
        other = chosen) ∧
      (∀ c, (check fs environment i.config path lang rules given).result = .ok c ↔
        ∃ config spec l, configAt fs chosen = .ok config ∧ Describes fs path spec ∧
          Linter.build config (selectRules rules) = .ok l ∧
          c = ⟨reportOn path lang given config spec l, (ElementTree.ofSpec spec).toDocument⟩) ∧
      (∀ e, configAt fs chosen = .error e →
        (run fs environment given args).status = 1 ∧
        (run fs environment given args).output = "" ∧
        (run fs environment given args).error = (Failure.config e).report) ∧
      ((∀ config, configAt fs chosen = .ok config → config.ruleBudgetMs = none) →
        ∀ (fs' : Files) (given' : Conditions),
          AgreeUpTo fs fs' (candidates environment (directoryOf path)) i.config chosen →
          fs'.readText path = fs.readText path →
          (run fs' environment given' args).output = (run fs environment given args).output ∧
          (run fs' environment given' args).status = (run fs environment given args).status) := by
  have hc : Chosen fs (candidates environment (directoryOf path)) i.config
      (findConfig fs environment (directoryOf path) i.config).path? := chosen_iff.2 rfl
  refine ⟨_, fun other => chosen_iff.trans eq_comm, fun c => ?_, fun e he => ?_, ?_⟩
  · rw [result_check_iff_prepared]
    constructor
    · rintro ⟨config, spec, l, h, rfl⟩
      exact ⟨config, spec, l, load_eq _ ▸ h.loaded, h.described, h.registered, rfl⟩
    · rintro ⟨config, spec, l, hloaded, hdescribed, hregistered, rfl⟩
      exact ⟨config, spec, l, ⟨load_eq _ ▸ hloaded, hdescribed, hregistered⟩, rfl⟩
  · have hfail : (check fs environment i.config path lang rules given).result =
        .error (.config e) := by
      rw [result_check_eq hc, he]
      rfl
    rw [run_eq_conclude fs given hi hcheck]
    simp [conclude, hfail]
  · intro hb fs' given' hagree hdoc
    have hsame := result_check_of_agree hc hb hagree hdoc lang rules given given'
    rw [run_eq_conclude fs given hi hcheck, run_eq_conclude fs' given' hi hcheck]
    unfold conclude
    rw [hsame]
    cases (check fs environment i.config path lang rules given).result with
    | error failure => exact ⟨rfl, rfl⟩
    | ok c => exact ⟨rfl, rfl⟩

/-- A section without a heading, whose messages are asked for in Dutch beside it, and a
configuration in the home directory that does not come into play. -/
def besideDotted (global : String) : Files :=
  (((({} : Files).withFile ["docs", "page.json"] "\x7b\"name\":\"section\"\x7d".toUTF8).withFile
    ["docs", ".doclint.toml"] "lang = \"nl\"\n".toUTF8).withFile
    ["home", ".doclint", "config.toml"] global.toUTF8)

/-- A section without a configuration beside it. The one in the home directory may not be read. -/
def lockedHome : Files :=
  (({} : Files).withFile ["docs", "page.json"] "\x7b\"name\":\"section\"\x7d".toUTF8).withFile
    ["root", ".doclint", "config.toml"] "enabled = false\n".toUTF8 { readable := false }

/-- A home directory that a variable names. -/
def namedHome : Environment :=
  { values := KeyMap.insert ∅ "HOME" "/home", home := some "/home" }

theorem config_by_priority_dotted :
    Chosen (besideDotted "enabled = false\n") ["docs/doclint.toml", "docs/.doclint.toml",
      "/home/.doclint/config.toml"] none (some "docs/.doclint.toml") ∧
    (run (besideDotted "enabled = false\n") namedHome { elapsed := fun _ => 0 }
      ["check", "-f", "compact", "docs/page.json"]).output =
        "section: [no-headingless-sections] " ++
          "Alle secties moeten beginnen met een `h2-6` element.\n" ∧
    (run (besideDotted "enabled = perhaps\n") namedHome { elapsed := fun _ => 7 }
      ["check", "-f", "compact", "docs/page.json"]).output =
        "section: [no-headingless-sections] " ++
          "Alle secties moeten beginnen met een `h2-6` element.\n" ∧
    (run lockedHome { home := some "/root" } { elapsed := fun _ => 0 }
      ["check", "-f", "compact", "docs/page.json"]).status = 1 ∧
    (run lockedHome { home := some "/root" } { elapsed := fun _ => 0 }
      ["check", "-f", "compact", "docs/page.json"]).error =
        (Failure.config (.unreadable "/root/.doclint/config.toml" .permissionDenied)).report := by
  have hi : parse namedHome ["check", "-f", "compact", "docs/page.json"] =
      .ok ⟨false, none, .check "docs/page.json" .compact none none⟩ := by decide +kernel
  have houtput : (run (besideDotted "enabled = false\n") namedHome { elapsed := fun _ => 0 }
      ["check", "-f", "compact", "docs/page.json"]).output =
        "section: [no-headingless-sections] " ++
          "Alle secties moeten beginnen met een `h2-6` element.\n" := by decide +kernel
  have hpaths : candidates namedHome (directoryOf "docs/page.json") =
      ["docs/doclint.toml", "docs/.doclint.toml", "/home/.doclint/config.toml"] := by
    decide +kernel
  have hexamined : examined (besideDotted "enabled = false\n")
      ["docs/doclint.toml", "docs/.doclint.toml", "/home/.doclint/config.toml"] =
        ["docs/doclint.toml", "docs/.doclint.toml"] := by decide +kernel
  have hconfig : configAt (besideDotted "enabled = false\n") (some "docs/.doclint.toml") =
      .ok { lang := some "nl" } := by decide +kernel
  have hc : Chosen (besideDotted "enabled = false\n") ["docs/doclint.toml", "docs/.doclint.toml",
      "/home/.doclint/config.toml"] none (some "docs/.doclint.toml") :=
    chosen_none_iff.2 (by decide +kernel)
  refine ⟨hc, houtput, ?_, ?_⟩
  · obtain ⟨chosen, hchosen, -, -, hlower⟩ :=
      config_by_priority (besideDotted "enabled = false\n") { elapsed := fun _ => 0 } hi rfl
    rw [hpaths] at hchosen hlower
    obtain rfl := (hchosen _).1 hc
    refine (hlower (fun config h => ?_) _ _ ⟨fun _ => ?_, ?_⟩ ?_).1.trans houtput
    · cases hconfig.symm.trans h
      rfl
    · rw [hexamined]
      decide +kernel
    · rintro p ⟨⟩
      decide +kernel
    · decide +kernel
  · have hi' : parse { home := some "/root" } ["check", "-f", "compact", "docs/page.json"] =
        .ok ⟨false, none, .check "docs/page.json" .compact none none⟩ := by decide +kernel
    have hlocked : Chosen lockedHome (candidates { home := some "/root" }
        (directoryOf "docs/page.json")) none (some "/root/.doclint/config.toml") :=
      chosen_none_iff.2 (by decide +kernel)
    have hdenied : configAt lockedHome (some "/root/.doclint/config.toml") =
        .error (.unreadable "/root/.doclint/config.toml" .permissionDenied) := by decide +kernel
    obtain ⟨chosen, hchosen, -, hfails, -⟩ :=
      config_by_priority lockedHome { elapsed := fun _ => 0 } hi' rfl
    obtain rfl := (hchosen _).1 hlocked
    obtain ⟨hstatus, -, herror⟩ := hfails _ hdenied
    exact ⟨hstatus, herror⟩

end CommandLine

end StructureLint
