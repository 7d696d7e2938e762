import Mathlib.Data.List.Induction
import StructureLint.Proofs.CommandLine.Status
import StructureLint.Proofs.Selector.Parse
/-!
# Selecting rules by name

The entries of a filter stand between its commas, with blanks around them (`IsEntries`). Those that
are names of built-in rules decide about the rules of a check, in the order in which they are
written (`known`); blank entries and other names do not count.

A name that is written twice selects its rule twice, and no linter takes the second one
(`build_of_firstRepeat`). So a check runs the rules that are named if none is named twice, and fails
before it runs any otherwise (`filter_selects_by_name`).
-/

namespace StructureLint

/-! ## The first repetition -/

/-- The first of the names, in their order, that repeats an earlier one. -/
def FirstRepeat (names : List String) (name : String) : Prop :=
  ∃ before after, names = before ++ name :: after ∧ before.Nodup ∧ name ∈ before

theorem exists_firstRepeat {names : List String} (h : ¬ names.Nodup) :
    ∃ name, FirstRepeat names name := by
  -- From the right: unless there is a repetition before the last name, it is the last name itself.
  induction names using List.reverseRecOn with
  | nil => exact absurd List.nodup_nil h
  | append_singleton names last ih =>
    by_cases hnodup : names.Nodup
    · refine ⟨last, names, [], rfl, hnodup, ?_⟩
      by_contra hlast
      rw [← List.concat_eq_append] at h
      exact h (hnodup.concat hlast)
    · obtain ⟨name, before, after, rfl, hbefore⟩ := ih hnodup
      exact ⟨name, before, after ++ [last], by simp, hbefore⟩

namespace Linter

variable {config : Config} {rules : List Rule}

theorem register_of_mem {l : Linter} {r : Rule} (h : r.name ∈ l.ruleNames) :
    l.register r = .error (.duplicate r.name) := by
  rw [register, if_pos (hasRule_iff.2 h)]

theorem registerAll_append (l : Linter) (rules rules' : List Rule) :
    l.registerAll (rules ++ rules') = (l.registerAll rules).bind (·.registerAll rules') := by
  induction rules generalizing l with
  | nil => rfl
  | cons r rules ih =>
    rw [List.cons_append, registerAll, registerAll]
    cases l.register r with
    | error e => rfl
    | ok l' => exact ih l'

/-- Where all catalogs define the default language, a linter is only refused for the first rule that
has the name of an earlier one. -/
theorem build_of_firstRepeat {name : String}
    (hdefault : ∀ r ∈ rules, r.catalog.contains config.defaultLang = true)
    (h : FirstRepeat (rules.map (·.name)) name) :
    build config rules = .error (.duplicate name) := by
  -- The rules before the repetition are accepted, and among them is the one whose name is repeated.
  obtain ⟨before, after, hnames, hnodup, hmem⟩ := h
  obtain ⟨accepted, rest, rfl, rfl, hrest⟩ := List.map_eq_append_iff.1 hnames
  obtain ⟨r, rejected, rfl, rfl, -⟩ := List.map_eq_cons_iff.1 hrest
  have hreg : Registered { config, rules := accepted } :=
    ⟨hnodup, fun s hs => hdefault s (by simp [hs])⟩
  have haccepted : registerAll { config } accepted = .ok { config, rules := accepted } :=
    registerAll_of_registered (l := { config }) hreg
  rw [build, registerAll_append, haccepted, Except.bind, registerAll, register_of_mem hmem]

theorem build_of_nodup (hdefault : ∀ r ∈ rules, r.catalog.contains config.defaultLang = true)
    (h : (rules.map (·.name)).Nodup) : build config rules = .ok { config, rules } :=
  build_eq_ok_iff.2 ⟨rfl, h, hdefault⟩

end Linter

namespace CommandLine

variable {fs : Files} {environment : Environment} {named rules : Option String}
  {path filter : String} {config : Config} {spec : ElementSpec}

/-! ## Reading a filter -/

/-- The entries of a filter: what stands between its commas, without the blanks around it. -/
def IsEntries (filter : String) (entries : List String) : Prop :=
  ∃ pieces : List (List Char), pieces ≠ [] ∧ (∀ p ∈ pieces, ',' ∉ p) ∧
    filter.toList = [','].intercalate pieces ∧
    List.Forall₂ (fun p e => Selector.IsTrimOf p e.toList) pieces entries

/-- The names of the built-in rules. -/
def builtInNames : List String :=
  Rule.builtIn.map (·.name)

/-- The entries that are names of built-in rules. -/
def known (entries : List String) : List String :=
  entries.filter (· ∈ builtInNames)

/-- The entries as they are found. -/
def entriesOf (filter : String) : List String :=
  (filter.toList.splitOn ',').map fun cs => String.ofList (Text.trimChars cs)

theorem isTrimOf_toList_iff {p : List Char} {e : String} :
    Selector.IsTrimOf p e.toList ↔ String.ofList (Text.trimChars p) = e := by
  constructor
  · intro h
    rw [Selector.trimChars_of_isTrimOf h, String.ofList_toList]
  · rintro rfl
    simpa using Selector.isTrimOf_trimChars p

theorem not_mem_of_mem_splitOn {c : Char} {cs p : List Char} (h : p ∈ cs.splitOn c) : c ∉ p := by
  induction cs generalizing p with
  | nil =>
    cases List.mem_singleton.1 h
    exact List.not_mem_nil
  | cons d cs ih =>
    rw [List.splitOn_cons_eq_if_modifyHead] at h
    by_cases hd : d = c
    · rw [if_pos (by simp [hd])] at h
      rcases List.mem_cons.1 h with rfl | h
      · exact List.not_mem_nil
      · exact ih h
    · rw [if_neg (by simp [hd])] at h
      cases hcs : cs.splitOn c with
      | nil => exact absurd hcs (List.splitOn_ne_nil c cs)
      | cons q qs =>
        rw [hcs] at h
        rcases List.mem_cons.1 h with rfl | h
        · have hq : c ∉ q := ih (by simp [hcs])
          simp [hq, Ne.symm hd]
        · exact ih (by simp [hcs, h])

theorem isEntries_iff {entries : List String} :
    IsEntries filter entries ↔ entries = entriesOf filter := by
  have htrimmed (pieces : List (List Char)) (entries : List String) :
      List.Forall₂ (fun p e => Selector.IsTrimOf p e.toList) pieces entries ↔
        pieces.map (fun cs => String.ofList (Text.trimChars cs)) = entries := by
    simp only [isTrimOf_toList_iff]
    rw [← List.forall₂_eq_eq_eq, List.forall₂_map_left_iff]
  constructor
  · rintro ⟨pieces, hne, hcommas, hfilter, h⟩
    rw [entriesOf, hfilter, List.splitOn_intercalate ',' hcommas hne]
    exact ((htrimmed _ _).1 h).symm
  · rintro rfl
    exact ⟨filter.toList.splitOn ',', List.splitOn_ne_nil ',' _, fun _ => not_mem_of_mem_splitOn,
      (List.intercalate_splitOn ',').symm, (htrimmed _ _).2 rfl⟩

theorem builtIn?_isSome_iff {name : String} :
    (Rule.builtIn? name).isSome = true ↔ name ∈ builtInNames := by
  simp [Rule.builtIn?, builtInNames]

theorem name_of_builtIn? {name : String} {r : Rule} (h : Rule.builtIn? name = some r) :
    r.name = name := by
  simpa using List.find?_some h

theorem names_filterMap_builtIn? (names : List String) :
    (names.filterMap Rule.builtIn?).map (·.name) = known names := by
  induction names with
  | nil => rfl
  | cons name names ih =>
    rw [known, List.filter_cons, ← known, ← ih]
    cases h : Rule.builtIn? name with
    | none =>
      have hunknown : name ∉ builtInNames := fun hmem => by
        simpa [h] using builtIn?_isSome_iff.2 hmem
      simp [h, hunknown]
    | some r =>
      have hknown : name ∈ builtInNames := builtIn?_isSome_iff.1 (by simp [h])
      simp [h, hknown, name_of_builtIn? h]

/-- Blanks are no name. -/
theorem known_namesIn (filter : String) : known (namesIn filter) = known (entriesOf filter) := by
  have hblank : "" ∉ builtInNames := by decide
  unfold known namesIn
  rw [List.filter_filter]
  apply List.filter_congr
  intro name _
  by_cases hname : name = ""
  · simp [hname, hblank]
  · simp [hname]

theorem names_selectRules (filter : String) :
    (selectRules (some filter)).map (·.name) = known (entriesOf filter) := by
  rw [← known_namesIn]
  exact names_filterMap_builtIn? _

/-! ## What a check logs -/

/-- The line with which the evaluation of a rule begins. -/
def evaluating (name : String) : LogLine :=
  .debug ("Evaluating rule: " ++ name)

/-- The configuration and the document of a check can be read, and the configured default language
is one that all built-in rules have. -/
structure Ready (fs : Files) (environment : Environment) (named : Option String) (path : String)
    (config : Config) (spec : ElementSpec) : Prop where
  loaded : (findConfig fs environment (directoryOf path) named).load fs = .ok config
  described : Describes fs path spec
  has_default : ∀ r ∈ Rule.builtIn, r.catalog.contains config.defaultLang = true

/-- What is logged until the rules are registered or refused. -/
def preparationLog (origin : ConfigOrigin) (config : Config) (spec : ElementSpec)
    (rules : Option String) : List LogLine :=
  origin.log ++
    (.debug ("Loaded document with " ++ toString (ElementTree.ofSpec spec).size ++ " element(s)") ::
      (selectionLog rules ++ ({ config } : Linter).registrationLog (selectRules rules)))

theorem Ready.prepared (h : Ready fs environment named path config spec) {l : Linter}
    (hbuild : Linter.build config (selectRules rules) = .ok l) :
    Prepared fs environment named path rules config spec l :=
  ⟨h.loaded, h.described, hbuild⟩

theorem Ready.readDocument_eq (h : Ready fs environment named path config spec) :
    readDocument fs path = .ok (.ofSpec spec) :=
  readDocument_eq_ok_iff.2 ⟨spec, h.described, rfl⟩

theorem check_of_refused (h : Ready fs environment named path config spec) {e : RegistryError}
    (hbuild : Linter.build config (selectRules rules) = .error e) (lang : Option String)
    (given : Conditions) :
    check fs environment named path lang rules given =
      ⟨preparationLog (findConfig fs environment (directoryOf path) named) config spec rules,
        .error (.registration e)⟩ := by
  simp [check, loadConfig, loadDocument, buildLinter, Bind.bind, Logged.bind, Logged.note,
    Logged.lift, h.loaded, h.readDocument_eq, hbuild, preparationLog, Pure.pure, Logged.pure]

theorem log_check_of_built (h : Ready fs environment named path config spec) {l : Linter}
    (hbuild : Linter.build config (selectRules rules) = .ok l) (lang : Option String)
    (given : Conditions) :
    (check fs environment named path lang rules given).log =
      preparationLog (findConfig fs environment (directoryOf path) named) config spec rules ++
        (.info ("Linting " ++ path ++ " with " ++ toString l.ruleCount ++ " rule(s)") ::
          l.runLog (ElementTree.ofSpec spec).toDocument
            (contextFor path (ElementTree.ofSpec spec).toDocument config lang) given) := by
  simp [check, loadConfig, loadDocument, buildLinter, Bind.bind, Logged.bind, Logged.note,
    Logged.lift, h.loaded, h.readDocument_eq, hbuild, preparationLog, Pure.pure, Logged.pure]

theorem evaluating_ne_debug {s name : String} (h : s.toList.head? ≠ some 'E') :
    evaluating name ≠ .debug s := by
  intro he
  have htext : "Evaluating rule: " ++ name = s := congrArg LogLine.text he
  rw [← htext] at h
  simp at h

/-- Nothing that is logged until the rules are registered looks like the evaluation of one. -/
theorem evaluating_not_mem_registrationLog (l : Linter) (rules : List Rule) (name : String) :
    evaluating name ∉ l.registrationLog rules := by
  induction rules generalizing l with
  | nil => exact List.not_mem_nil
  | cons r rules ih =>
    unfold Linter.registrationLog
    split
    · exact List.not_mem_nil
    · rename_i l' _
      rw [List.mem_cons, not_or]
      exact ⟨evaluating_ne_debug (by simp), ih l'⟩

theorem evaluating_not_mem_preparationLog (origin : ConfigOrigin) (config : Config)
    (spec : ElementSpec) (rules : Option String) (name : String) :
    evaluating name ∉ preparationLog origin config spec rules := by
  have horigin : evaluating name ∉ origin.log := by
    have hsource (s : String) : evaluating name ∉ [.info ("Using config: " ++ s)] := by
      simp [evaluating, LogLine.debug, LogLine.info]
    cases origin with
    | named path => exact hsource path
    | beside path =>
      exact List.not_mem_cons_of_ne_of_not_mem (evaluating_ne_debug (by simp)) (hsource path)
    | «global» path =>
      exact List.not_mem_cons_of_ne_of_not_mem (evaluating_ne_debug (by simp)) (hsource path)
    | builtIn => exact List.not_mem_nil
  have hselection : evaluating name ∉ selectionLog rules := by
    cases rules with
    | none => exact List.not_mem_nil
    | some filter => simp [selectionLog, evaluating, LogLine.debug, LogLine.warn]
  have hloaded : evaluating name ≠ .debug ("Loaded document with " ++
      toString (ElementTree.ofSpec spec).size ++ " element(s)") :=
    evaluating_ne_debug (by simp)
  unfold preparationLog
  rw [List.mem_append, List.mem_cons, List.mem_append]
  rintro (h | h | h | h)
  · exact horigin h
  · exact hloaded h
  · exact hselection h
  · exact evaluating_not_mem_registrationLog _ _ name h

theorem evaluating_mem_runLog {l : Linter} {doc : Document} {ctx : RunContext}
    {given : Conditions} {r : Rule} (h : r ∈ l.active) :
    evaluating r.name ∈ l.runLog doc ctx given := by
  have hrule : evaluating r.name ∈ l.evaluationLog doc ctx given r := by
    simp [Linter.evaluationLog, evaluating]
  unfold Linter.runLog
  simp only [List.mem_append]
  exact .inl (.inl (.inr (List.mem_flatMap.2 ⟨r, h, hrule⟩)))

/-! ## What a filter selects -/

theorem selected_has_default (h : Ready fs environment named path config spec) :
    ∀ r ∈ selectRules rules, r.catalog.contains config.defaultLang = true :=
  fun r hr => h.has_default r (mem_builtIn_of_selectRules hr)

/-- A filter without the name of a rule gives a linter that has nothing to do. -/
theorem build_of_known_nil (h : known (entriesOf filter) = []) (config : Config) :
    ∃ l, Linter.build config (selectRules (some filter)) = .ok l ∧ l.rules = [] ∧
      ∀ doc ctx given, (l.run doc ctx given).isClean = true ∧
        (l.run doc ctx given).rulesRun = 0 := by
  have hnone : selectRules (some filter) = [] := by
    rw [← List.map_eq_nil_iff, names_selectRules, h]
  rw [hnone]
  refine ⟨_, rfl, rfl, fun doc ctx given => ?_⟩
  rw [Linter.run_eq]
  exact ⟨rfl, rfl⟩

/-- A filter selects the built-in rules named between its commas, in this order; other names do not
count. Once configuration and document are read, a check has the report of these rules, or fails for
the first name given twice. -/
theorem filter_selects_by_name (filter : String) :
    ∃ entries, (∀ other, IsEntries filter other ↔ other = entries) ∧
      (selectRules (some filter)).map (·.name) = known entries ∧
      (∀ r ∈ selectRules (some filter), r ∈ Rule.builtIn) ∧
      (known entries = [] → ∀ config, ∃ l,
        Linter.build config (selectRules (some filter)) = .ok l ∧ l.rules = [] ∧
          ∀ doc ctx given, (l.run doc ctx given).isClean = true ∧
            (l.run doc ctx given).rulesRun = 0) ∧
      ∀ (fs : Files) (environment : Environment) (named : Option String) (path : String)
        (config : Config) (spec : ElementSpec) (lang : Option String) (given : Conditions),
        Ready fs environment named path config spec →
          ((∃ c, (check fs environment named path lang (some filter) given).result = .ok c) ↔
            (known entries).Nodup) ∧
          ((known entries).Nodup → ∃ l,
            Linter.build config (selectRules (some filter)) = .ok l ∧
              l.ruleNames = known entries ∧
              (check fs environment named path lang (some filter) given).result =
                .ok ⟨reportOn path lang given config spec l,
                  (ElementTree.ofSpec spec).toDocument⟩ ∧
              ∀ r ∈ l.active, evaluating r.name ∈
                (check fs environment named path lang (some filter) given).log) ∧
          (¬ (known entries).Nodup → ∃ name, FirstRepeat (known entries) name ∧
            (check fs environment named path lang (some filter) given).result =
              .error (.registration (.duplicate name)) ∧
            ∀ other, evaluating other ∉
              (check fs environment named path lang (some filter) given).log) := by
  refine ⟨entriesOf filter, fun other => isEntries_iff, names_selectRules filter,
    fun r => mem_builtIn_of_selectRules, build_of_known_nil, ?_⟩
  intro fs environment named path config spec lang given hready
  have haccepted (h : (known (entriesOf filter)).Nodup) :
      Linter.build config (selectRules (some filter)) =
        .ok { config, rules := selectRules (some filter) } :=
    Linter.build_of_nodup (selected_has_default hready) (by rwa [names_selectRules])
  have hrefused (h : ¬ (known (entriesOf filter)).Nodup) :
      ∃ name, FirstRepeat (known (entriesOf filter)) name ∧
        Linter.build config (selectRules (some filter)) = .error (.duplicate name) := by
    obtain ⟨name, hname⟩ := exists_firstRepeat h
    refine ⟨name, hname, Linter.build_of_firstRepeat (selected_has_default hready) ?_⟩
    rwa [names_selectRules]
  refine ⟨⟨?_, fun h => ?_⟩, fun h => ?_, fun h => ?_⟩
  · rintro ⟨c, hc⟩
    by_contra h
    obtain ⟨name, -, hbuild⟩ := hrefused h
    rw [check_of_refused hready hbuild] at hc
    cases hc
  · exact ⟨_, result_check_iff_prepared.2 ⟨_, _, _, hready.prepared (haccepted h), rfl⟩⟩
  · refine ⟨_, haccepted h, names_selectRules filter,
      result_check_iff_prepared.2 ⟨_, _, _, hready.prepared (haccepted h), rfl⟩, fun r hr => ?_⟩
    rw [log_check_of_built hready (haccepted h)]
    exact List.mem_append_right _ (List.mem_cons_of_mem _ (evaluating_mem_runLog hr))
  · obtain ⟨name, hname, hbuild⟩ := hrefused h
    rw [check_of_refused hready hbuild]
    exact ⟨name, hname, rfl, evaluating_not_mem_preparationLog _ _ _ _⟩

theorem filter_selects_by_name_section :
    (∃ c, (check sectionAlone {} none "plain.json" none (some " no-headingless-sections , bogus,")
      { elapsed := fun _ => 0 }).result = .ok c) ∧
    (check sectionAlone {} none "plain.json" none
      (some "no-headingless-sections,bogus,\tno-headingless-sections")
      { elapsed := fun _ => 0 }).result =
        .error (.registration (.duplicate "no-headingless-sections")) := by
  have hread : (readDocument sectionAlone "plain.json").toOption.isSome = true := by
    decide +kernel
  obtain ⟨tree, htree⟩ : ∃ tree, readDocument sectionAlone "plain.json" = .ok tree := by
    revert hread
    cases readDocument sectionAlone "plain.json" with
    | error e => exact fun h => Bool.noConfusion h
    | ok tree => exact fun _ => ⟨tree, rfl⟩
  obtain ⟨spec, hdescribed, -⟩ := readDocument_eq_ok_iff.1 htree
  have hready : Ready sectionAlone {} none "plain.json" {} spec :=
    ⟨by decide +kernel, hdescribed, by decide⟩
  constructor
  · obtain ⟨entries, hentries, -, -, -, hcheck⟩ :=
      filter_selects_by_name " no-headingless-sections , bogus,"
    obtain rfl := (hentries _).1 (isEntries_iff.2 rfl)
    refine (hcheck _ _ _ _ _ _ none { elapsed := fun _ => 0 } hready).1.2 ?_
    decide +kernel
  · obtain ⟨entries, hentries, -, -, -, hcheck⟩ :=
      filter_selects_by_name "no-headingless-sections,bogus,\tno-headingless-sections"
    obtain rfl := (hentries _).1 (isEntries_iff.2 rfl)
    have hknown : known (entriesOf "no-headingless-sections,bogus,\tno-headingless-sections") =
        ["no-headingless-sections", "no-headingless-sections"] := by decide +kernel
    obtain ⟨-, -, hrefused⟩ := hcheck _ _ _ _ _ _ none { elapsed := fun _ => 0 } hready
    rw [hknown] at hrefused
    obtain ⟨name, ⟨before, after, hnames, -, hmem⟩, hresult, -⟩ := hrefused (by decide)
    rw [hresult]
    have hname : name ∈ ["no-headingless-sections", "no-headingless-sections"] := by
      simp [hnames]
    simp only [List.mem_cons, List.not_mem_nil, or_false, or_self] at hname
    rw [hname]

end CommandLine

end StructureLint
