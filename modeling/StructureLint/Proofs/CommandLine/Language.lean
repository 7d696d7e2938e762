import Mathlib.Data.List.TakeWhile
import StructureLint.CommandLine.Linting
import StructureLint.CommandLine.RuleListing
import StructureLint.Proofs.Linter.Accounting
import StructureLint.Proofs.Linter.Localization
/-!
# The language when nobody asks for one

Without an option and without `lang` in the configuration, `check` goes by the mark on the root of
the document. A document without a mark counts as one in the language `en`, and this is then looked
up like any language that is asked for: the configured default only comes in where a catalog lacks
`en` (`mem_findings_run_unmarked`). `list-rules` starts from the configured default itself
(`describe_unasked`). The two commands therefore show the same messages of a built-in rule just when
the configured default is `en` (`unasked_messages`), and differ if it is `nl`
(`unasked_messages_differ`).
-/

namespace StructureLint

/-! ## Documents without a mark -/

theorem Text.trim_of_blank {s : String} (h : ∀ c ∈ s.toList, isBlank c = true) : trim s = "" := by
  have hskip : skipBlanks s.toList = [] := List.dropWhile_eq_nil_iff.2 h
  rw [trim, trimChars, hskip]
  rfl

/-- The root says nothing about a language: it has no attribute `lang`, or one of blanks. -/
def Document.Unmarked (doc : Document) : Prop :=
  ∀ value, doc.attr doc.root "lang" = some value → ∀ c ∈ value.toList, Text.isBlank c = true

theorem RunContext.documentLanguage_of_unmarked {doc : Document} (h : doc.Unmarked) :
    documentLanguage doc = defaultLanguage := by
  unfold documentLanguage
  split
  · rfl
  · rename_i value hvalue
    rw [Text.trim_of_blank (h value hvalue)]
    rfl

/-! ## Findings and their messages -/

theorem Catalog.getOr?_of_contains {c : Catalog} {lang : String} (h : c.contains lang = true)
    (fallback : String) : c.getOr? lang fallback = c.get? lang :=
  if_pos h

theorem Linter.messages_of_mem_findings {l : Linter} {doc : Document} {ctx : RunContext}
    {given : Conditions} {f : Finding} (hl : l.Registered) (hs : ∀ r ∈ l.rules, r.Searches doc)
    (hf : f ∈ (l.run doc ctx given).findings) :
    ∃ r ∈ l.rules, f.rule = r.name ∧
      r.catalog.getOr? ctx.lang l.config.defaultLang = some f.messages := by
  obtain ⟨r, hr, hout⟩ := mem_findings_iff.1 hf
  have hreg : r ∈ l.rules := (mem_active_iff.1 hr).1
  have heval := (outcomeOf_eq_ok_iff.1 hout).1
  obtain ⟨offenders, hsearch⟩ := (hs r hreg).evaluate_eq
  obtain ⟨found, hfound, hmessages⟩ :=
    ofOffenders_of_contains (l.contextFor ctx) (hl.has_default r hreg) r.name offenders
  rw [hsearch, hfound] at heval
  cases heval
  obtain ⟨hname, hget⟩ := hmessages f rfl
  exact ⟨r, hreg, hname, hget.symm⟩

namespace CommandLine

variable {fs : Files} {environment : Environment} {named rules lang : Option String}
  {path : String} {given : Conditions} {config : Config} {doc : Document}

/-! ## What the commands do when they succeed -/

/-- A check succeeds if the configuration and the document can be read and the rules registered. -/
theorem result_check_eq_ok_iff {c : Checked} :
    (check fs environment named path lang rules given).result = .ok c ↔
      ∃ config tree l, (loadConfig fs environment (directoryOf path) named).result = .ok config ∧
        readDocument fs path = .ok tree ∧ Linter.build config (selectRules rules) = .ok l ∧
        c = ⟨l.run tree.toDocument (contextFor path tree.toDocument config lang) given,
          tree.toDocument⟩ := by
  unfold check loadDocument buildLinter
  simp only [Logged.result_bind, Logged.result_note, Logged.result_lift, Logged.result_pure]
  cases hconfig : (loadConfig fs environment (directoryOf path) named).result with
  | error e => simp [Except.bind]
  | ok config =>
    cases htree : readDocument fs path with
    | error e => simp [Except.bind, Except.mapError]
    | ok tree =>
      cases hbuild : Linter.build config (selectRules rules) with
      | error e => simp [Except.bind, Except.mapError, hbuild]
      | ok l => simp [Except.bind, Except.mapError, hbuild, eq_comm]

theorem result_listRules_of_config
    (h : (loadConfig fs environment "." named).result = .ok config) :
    (listRules fs environment named lang).result = .ok (listing config lang) := by
  simp [listRules, h, Except.bind]

theorem ruleLine_mem_listing {r : Rule} (h : r ∈ Rule.builtIn) :
    ruleLine (listingLang lang config) config.defaultLang r ∈ listing config lang := by
  simp only [listing, List.mem_append]
  exact .inl (.inr (List.mem_map_of_mem h))

theorem mem_builtIn_of_selectRules {r : Rule} (h : r ∈ selectRules rules) : r ∈ Rule.builtIn := by
  cases rules with
  | none => exact h
  | some filter =>
    obtain ⟨name, -, hname⟩ := List.mem_filterMap.1 h
    exact List.mem_of_find?_eq_some hname

theorem searches_of_builtIn {r : Rule} (h : r ∈ Rule.builtIn) (doc : Document) :
    r.Searches doc := by
  cases List.mem_singleton.1 h
  exact .headinglessSections _

/-! ## The languages they arrive at -/

theorem lang_contextFor_unmarked (hlang : config.lang = none) (hdoc : doc.Unmarked) :
    (contextFor path doc config none).lang = defaultLanguage := by
  simp only [contextFor, requestedLang, hlang]
  exact RunContext.documentLanguage_of_unmarked hdoc

/-- Whatever rules a linter has that only look for offending elements, its findings in an unmarked
document are in the language `en` where a catalog has it. -/
theorem mem_findings_run_unmarked {l : Linter} {f : Finding} (hl : l.Registered)
    (hs : ∀ r ∈ l.rules, r.Searches doc) (hlang : l.config.lang = none) (hdoc : doc.Unmarked)
    (hf : f ∈ (l.run doc (contextFor path doc l.config none) given).findings) :
    ∃ r ∈ l.rules, f.rule = r.name ∧
      r.catalog.getOr? defaultLanguage l.config.defaultLang = some f.messages := by
  have := Linter.messages_of_mem_findings hl hs hf
  rwa [lang_contextFor_unmarked hlang hdoc] at this

/-- The listing describes a rule in the configured default language. -/
theorem describe_unasked {r : Rule} {shown : Messages} (hlang : config.lang = none)
    (hshown : r.catalog.get? config.defaultLang = some shown) :
    describe r (listingLang none config) config.defaultLang = shown.description := by
  simp [describe, listingLang, hlang, Catalog.resolve, hshown]

/-! ## The built-in rules -/

theorem contains_defaultLanguage_of_builtIn {r : Rule} (h : r ∈ Rule.builtIn) :
    r.catalog.contains defaultLanguage = true := by
  cases List.mem_singleton.1 h
  decide

/-- No two languages share their messages. -/
theorem lang_eq_of_builtIn {r : Rule} (h : r ∈ Rule.builtIn) {lang lang' : String} {m : Messages}
    (hm : r.catalog.get? lang = some m) (hm' : r.catalog.get? lang' = some m) : lang = lang' := by
  cases List.mem_singleton.1 h
  have hdistinct : ∀ e ∈ HeadinglessSections.messages.languages.entries,
      ∀ e' ∈ HeadinglessSections.messages.languages.entries, e.2 = e'.2 → e.1 = e'.1 := by decide
  exact hdistinct _ (KeyMap.mem_entries_iff.2 hm) _ (KeyMap.mem_entries_iff.2 hm') rfl

/-- Where nobody asks for a language and the root is unmarked, a check reports in `en`, whatever
default language is configured, while the listing takes the configured one. The messages are the
same just when that is `en`. -/
theorem unasked_messages {c : Checked}
    (hconfig : (loadConfig fs environment (directoryOf path) named).result = .ok config)
    (hlisted : (loadConfig fs environment "." named).result = .ok config)
    (hlang : config.lang = none)
    (hcheck : (check fs environment named path none rules given).result = .ok c)
    (hdoc : c.document.Unmarked) :
    ∃ lines, (listRules fs environment named none).result = .ok lines ∧
      ∀ f ∈ c.report.findings, ∃ r ∈ Rule.builtIn, ∃ shown,
        f.rule = r.name ∧
          r.catalog.get? defaultLanguage = some f.messages ∧
          r.catalog.get? config.defaultLang = some shown ∧
          tableLine r.name (",".intercalate r.catalog.codes) shown.description ∈ lines ∧
          (f.messages = shown ↔ config.defaultLang = defaultLanguage) := by
  obtain ⟨loaded, tree, l, hloaded, -, hbuild, rfl⟩ := result_check_eq_ok_iff.1 hcheck
  cases hloaded.symm.trans hconfig
  obtain ⟨rfl, hreg⟩ := Linter.build_eq_ok_iff.1 hbuild
  refine ⟨_, result_listRules_of_config hlisted, ?_⟩
  intro f hf
  obtain ⟨r, hr, hname, hmessages⟩ := mem_findings_run_unmarked hreg
    (fun s hs => searches_of_builtIn (mem_builtIn_of_selectRules hs) _) hlang hdoc hf
  have hbuiltIn := mem_builtIn_of_selectRules hr
  rw [Catalog.getOr?_of_contains (contains_defaultLanguage_of_builtIn hbuiltIn)] at hmessages
  -- The rule is registered, so it has messages in the configured default language as well.
  obtain ⟨shown, hshown⟩ := Option.isSome_iff_exists.1 (hreg.has_default r hr)
  have hline : ruleLine (listingLang none config) config.defaultLang r ∈ listing config none :=
    ruleLine_mem_listing hbuiltIn
  rw [ruleLine, describe_unasked hlang hshown] at hline
  refine ⟨r, hbuiltIn, shown, hname, hmessages, hshown, hline, ?_, ?_⟩
  · rintro rfl
    exact lang_eq_of_builtIn hbuiltIn hshown hmessages
  · intro hdefault
    rw [hdefault] at hshown
    exact Option.some.inj (hmessages.symm.trans hshown)

/-- A configuration with `nl` as the default language and two documents with a section that has no
heading, one without a mark and one with a blank one. -/
def dutch : Files :=
  (((({} : Files).withFile ["doclint.toml"] "default_lang = \"nl\"\n".toUTF8).withFile
    ["plain.json"] "\x7b\"name\":\"section\"\x7d".toUTF8).withFile
    ["blank.json"] "\x7b\"name\":\"section\",\"attributes\":\x7b\"lang\":\" \"\x7d\x7d".toUTF8)

theorem exists_of_map_result {α β : Type} {x : Logged α} {look : α → β} {b : β}
    (h : x.result.toOption.map look = some b) : ∃ a, x.result = .ok a ∧ look a = b := by
  cases hx : x.result with
  | error e => simp [hx, Except.toOption] at h
  | ok a => exact ⟨a, rfl, by simpa [hx, Except.toOption] using h⟩

theorem unasked_messages_blank :
    ∃ c lines, (loadConfig dutch {} (directoryOf "blank.json") none).result =
        .ok { defaultLang := "nl" } ∧
      (check dutch {} none "blank.json" none none { elapsed := fun _ => 0 }).result = .ok c ∧
      c.document.Unmarked ∧ c.report.findings.length = 1 ∧
      (listRules dutch {} none none).result = .ok lines ∧
      ∀ f ∈ c.report.findings, ∃ r ∈ Rule.builtIn,
        f.rule = r.name ∧ r.catalog.get? "en" = some f.messages := by
  have hconfig : (loadConfig dutch {} (directoryOf "blank.json") none).result =
      .ok { defaultLang := "nl" } := by decide +kernel
  have hlisted : (loadConfig dutch {} "." none).result = .ok { defaultLang := "nl" } := by
    decide +kernel
  have hlook : ((check dutch {} none "blank.json" none none
      { elapsed := fun _ => 0 }).result.toOption.map fun c =>
        (c.document.attr c.document.root "lang", c.report.findings.length)) =
      some (some " ", 1) := by decide +kernel
  obtain ⟨c, hcheck, hc⟩ := exists_of_map_result hlook
  obtain ⟨hattr, hlength⟩ := Prod.mk.inj hc
  have hdoc : c.document.Unmarked := by
    intro value hvalue
    cases hvalue.symm.trans hattr
    exact List.all_eq_true.1 (by decide)
  obtain ⟨lines, hlines, hfindings⟩ := unasked_messages hconfig hlisted rfl hcheck hdoc
  refine ⟨c, lines, hconfig, hcheck, hdoc, hlength, hlines, fun f hf => ?_⟩
  obtain ⟨r, hr, -, hname, hmessages, -⟩ := hfindings f hf
  exact ⟨r, hr, hname, hmessages⟩

/-- A check need not report in the configured default language, although the rule has it. -/
theorem unasked_messages_differ :
    ∃ c, (loadConfig dutch {} (directoryOf "plain.json") none).result =
        .ok { defaultLang := "nl" } ∧
      (check dutch {} none "plain.json" none none { elapsed := fun _ => 0 }).result = .ok c ∧
      c.document.Unmarked ∧ (∀ r ∈ Rule.builtIn, r.catalog.contains "nl" = true) ∧
      ∃ f ∈ c.report.findings, ∀ r ∈ Rule.builtIn, r.catalog.get? "nl" ≠ some f.messages := by
  have hlook : ((check dutch {} none "plain.json" none none
      { elapsed := fun _ => 0 }).result.toOption.map fun c =>
        (c.document.attr c.document.root "lang",
          c.report.findings.map fun f => f.messages.description)) =
      some (none, ["All sections must start with a `h2-6` element."]) := by decide +kernel
  obtain ⟨c, hcheck, hc⟩ := exists_of_map_result hlook
  obtain ⟨hattr, hdescriptions⟩ := Prod.mk.inj hc
  obtain ⟨f, hf, hdescription⟩ := List.map_eq_singleton_iff.1 hdescriptions
  refine ⟨c, by decide +kernel, hcheck, ?_, by decide, f, by simp [hf], ?_⟩
  · intro value hvalue
    cases hvalue.symm.trans hattr
  · intro r hr hget
    have hdutch : (r.catalog.get? "nl").map (·.description) =
        some "Alle secties moeten beginnen met een `h2-6` element." := by
      cases List.mem_singleton.1 hr
      decide
    rw [hget, Option.map_some, hdescription] at hdutch
    revert hdutch
    decide

end CommandLine

end StructureLint
