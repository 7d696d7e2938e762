import StructureLint.ElementTree.Basic
import StructureLint.Proofs.Linter.Registry
import StructureLint.Proofs.Linter.Reports
import StructureLint.Proofs.Selector.Parse
import StructureLint.Rule.HeadinglessSections
import StructureLint.Rule.Selecting
/-!
# Registered rules find their messages

A rule looks its messages up in the language of the run, and falls back on a default language. The
default of the context may be missing from a catalog, but a run puts the configured one in its
place, which every registered catalog defines. So a registered rule that only looks for offending
elements (`Searches`) always has a result, and its finding has the messages of the language asked
for or of the configured default (`searching_rule_localized`).
-/

namespace StructureLint

/-! ## Messages -/

theorem Catalog.contains_eq_isSome (c : Catalog) (lang : String) :
    c.contains lang = (c.get? lang).isSome := rfl

/-- The messages of a language, or of another one where the catalog lacks it. -/
def Catalog.getOr? (c : Catalog) (lang fallback : String) : Option Messages :=
  if c.contains lang then c.get? lang else c.get? fallback

/-- In a catalog with the default language every language is resolved. -/
theorem Catalog.resolve_of_contains {c : Catalog} {fallback : String}
    (h : c.contains fallback = true) (lang : String) :
    ∃ m, c.resolve lang fallback = .ok m ∧ c.getOr? lang fallback = some m := by
  obtain ⟨d, hd⟩ := Option.isSome_iff_exists.1 (c.contains_eq_isSome fallback ▸ h)
  cases hm : c.get? lang with
  | none => exact ⟨d, by simp [resolve, hm, hd], by simp [getOr?, contains_eq_isSome, hm, hd]⟩
  | some m => exact ⟨m, by simp [resolve, hm], by simp [getOr?, contains_eq_isSome, hm]⟩

/-- Offending elements are reported whenever the catalog has the default language. -/
theorem ofOffenders_of_contains {catalog : Catalog} (ctx : RunContext)
    (h : catalog.contains ctx.defaultLang = true) (name : String) (offenders : List NodeId) :
    ∃ found, Verdict.ofOffenders name catalog ctx offenders = .ok found ∧
      ∀ f ∈ found, f.rule = name ∧ some f.messages = catalog.getOr? ctx.lang ctx.defaultLang := by
  obtain ⟨m, hm, hget⟩ := Catalog.resolve_of_contains h ctx.lang
  unfold Verdict.ofOffenders
  split
  · exact ⟨none, rfl, by simp⟩
  · rw [RunContext.localize, hm]
    refine ⟨_, rfl, fun f hf => ?_⟩
    unfold Finding.of? at hf
    split at hf
    · cases hf
    · cases hf
      exact ⟨rfl, hget.symm⟩

/-! ## Rules that look for offending elements -/

/-- Rules that look for offending elements and do nothing else: a selecting rule whose test does
not break off on the elements selected, and the rule on headings with any catalog. -/
inductive Rule.Searches (doc : Document) : Rule → Prop
  | selecting (s : SelectingRule)
      (h : ∀ n ∈ doc.select s.selector, ∃ offends, s.violation doc n = .ok offends) :
      Searches doc s.toRule
  | headinglessSections (catalog : Catalog) : Searches doc (HeadinglessSections.rule catalog)

theorem offendersAmong_of_tests {violation : Violation} {doc : Document} {ns : List NodeId}
    (h : ∀ n ∈ ns, ∃ offends, violation doc n = .ok offends) :
    ∃ offenders, SelectingRule.offendersAmong violation doc ns = .ok offenders := by
  induction ns with
  | nil => exact ⟨[], rfl⟩
  | cons n ns ih =>
    obtain ⟨offends, hn⟩ := h n (by simp)
    obtain ⟨rest, hrest⟩ := ih fun m hm => h m (by simp [hm])
    refine ⟨if offends then n :: rest else rest, ?_⟩
    simp only [SelectingRule.offendersAmong, hn, hrest]

theorem HeadinglessSections.parse_section :
    Selector.parse "section" = .ok ⟨"section", [⟨some "section", []⟩]⟩ :=
  Selector.parse_of_name ⟨by decide, List.all_eq_true.1 (by decide)⟩

theorem HeadinglessSections.offenders_ok (doc : Document) :
    ∃ found, offenders doc = .ok found :=
  ⟨_, by rw [offenders, sections, Document.query, parse_section]; rfl⟩

/-- Such a rule reports the elements it found through its catalog. -/
theorem Rule.Searches.evaluate_eq {doc : Document} {r : Rule} (h : Searches doc r) :
    ∃ offenders, ∀ ctx, r.evaluate ctx doc =
      Verdict.ofOffenders r.name r.catalog ctx offenders := by
  cases h with
  | selecting s h =>
    obtain ⟨offenders, ho⟩ := offendersAmong_of_tests h
    exact ⟨offenders, fun ctx => by simp [SelectingRule.toRule, SelectingRule.evaluate, ho]⟩
  | headinglessSections catalog =>
    obtain ⟨found, hf⟩ := HeadinglessSections.offenders_ok doc
    exact ⟨found, fun ctx => by
      simp [HeadinglessSections.rule, HeadinglessSections.evaluate, hf]⟩

/-! ## Runs -/

namespace Linter

variable {l : Linter} {doc : Document} {r : Rule}

/-- Without a limit of time, a registered rule that only looks for offending elements has a result.
It resolves its messages with the configured default language, not with that of the context. -/
theorem outcomeOf_searches (hl : Registered l) (hb : l.config.ruleBudgetMs = none)
    (hr : r ∈ l.rules) (hs : r.Searches doc) (ctx : RunContext) (given : Conditions) :
    ∃ found, l.outcomeOf doc ctx given r = .ok found ∧
      ∀ f ∈ found, f.rule = r.name ∧
        some f.messages = r.catalog.getOr? ctx.lang l.config.defaultLang := by
  obtain ⟨offenders, he⟩ := hs.evaluate_eq
  obtain ⟨found, hfound, hf⟩ :=
    ofOffenders_of_contains (l.contextFor ctx) (hl.has_default r hr) r.name offenders
  have hbudget : l.config.ruleBudget = none := by simp [Config.ruleBudget, hb]
  refine ⟨found, ?_, hf⟩
  rw [outcomeOf, hbudget]
  exact Rule.outcome_of_ok ((he _).trans hfound) _

/-- Without a limit of time, a rule that only looks for offending elements never fails in a linter
that can be put together. Its messages are those of the language asked for, or else those of the
configured default language. -/
theorem searching_rule_localized (hl : Reachable l) (hb : l.config.ruleBudgetMs = none)
    (hr : r ∈ l.rules) (hs : r.Searches doc) (ctx : RunContext) (given : Conditions) :
    (∀ e ∈ (l.run doc ctx given).errors, e.rule ≠ r.name) ∧
    ∃ found, l.outcomeOf doc ctx given r = .ok found ∧
      (l.config.isRuleEnabled r.name = true → ∀ f ∈ found, f ∈ (l.run doc ctx given).findings) ∧
      (∀ f ∈ (l.run doc ctx given).findings, f ∈ found ∨
        ∃ s ∈ l.active, s.name ≠ r.name ∧ l.outcomeOf doc ctx given s = .ok (some f)) ∧
      ∀ f ∈ found, f.rule = r.name ∧
        some f.messages = if r.catalog.contains ctx.lang then r.catalog.get? ctx.lang
          else r.catalog.get? l.config.defaultLang := by
  have hreg := reachable_registered hl
  obtain ⟨found, hfound, hlocal⟩ := outcomeOf_searches hreg hb hr hs ctx given
  -- Names are distinct, so what bears the name of the rule comes from the rule.
  have same : ∀ s ∈ l.active, s.name = r.name → s = r := fun s hs' hname =>
    hreg.eq_of_name (mem_active_iff.1 hs').1 hr hname
  refine ⟨?_, found, hfound, ?_, ?_, hlocal⟩
  · intro e he hname
    obtain ⟨s, hs', ho⟩ := mem_errors_iff.1 he
    cases same s hs' ((Rule.rule_of_outcome_error ho).symm.trans hname)
    cases hfound.symm.trans ho
  · rintro hen f hf
    refine mem_findings_iff.2 ⟨r, mem_active_iff.2 ⟨hr, hen⟩, ?_⟩
    rw [hfound, Option.mem_def.1 hf]
  · intro f hf
    obtain ⟨s, hs', ho⟩ := mem_findings_iff.1 hf
    by_cases hname : s.name = r.name
    · cases same s hs' hname
      cases hfound.symm.trans ho
      exact .inl rfl
    · exact .inr ⟨s, hs', hname, ho⟩

/-- A rule against `div` with messages in one language. -/
def noDiv (lang : String) : SelectingRule where
  name := "no-div"
  selector := ⟨"div", [⟨some "div", []⟩]⟩
  violation _ _ := .ok true
  catalog := Catalog.ofList [(lang, { description := "div", howToFix := "section" })]

/-- Only the second attempt succeeds: the first rule lacks the default language, and the name of
the third is taken by then. -/
def attempted : Linter :=
  (({ config := { defaultLang := "nl" } : Linter }.attempt (noDiv "en").toRule).attempt
    (noDiv "nl").toRule).attempt (noDiv "nl").toRule

theorem searching_rule_localized_attempted :
    Reachable attempted ∧ attempted.config.ruleBudgetMs = none ∧
      (noDiv "nl").toRule ∈ attempted.rules ∧
      (noDiv "nl").toRule.Searches (ElementTree.single "div" ∅).toDocument ∧
      ∃ f, f ∈ (attempted.run (ElementTree.single "div" ∅).toDocument
          { lang := "fr", defaultLang := "en" } { elapsed := fun _ => 5 }).findings ∧
        f.rule = "no-div" ∧
        some f.messages = some { description := "div", howToFix := "section" } := by
  have hreach : Reachable attempted := .attempt (.attempt (.attempt (.empty _) _) _) _
  have hr : (noDiv "nl").toRule ∈ attempted.rules := by
    have : attempted.rules = [(noDiv "nl").toRule] := rfl
    simp [this]
  have hs : (noDiv "nl").toRule.Searches (ElementTree.single "div" ∅).toDocument :=
    .selecting _ fun _ _ => ⟨true, rfl⟩
  obtain ⟨-, found, hfound, hin, -, hlocal⟩ := searching_rule_localized hreach rfl hr hs
    { lang := "fr", defaultLang := "en" } { elapsed := fun _ => 5 }
  have hsome : (Outcome.finding? (attempted.outcomeOf (ElementTree.single "div" ∅).toDocument
      { lang := "fr", defaultLang := "en" } { elapsed := fun _ => 5 }
      (noDiv "nl").toRule)).isSome = true := by decide +kernel
  rw [hfound] at hsome
  obtain ⟨f, rfl⟩ := Option.isSome_iff_exists.1 hsome
  exact ⟨hreach, rfl, hr, hs, f, hin rfl f rfl, hlocal f rfl⟩

end Linter

end StructureLint
