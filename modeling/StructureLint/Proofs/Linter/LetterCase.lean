import StructureLint.Proofs.Linter.Reports
import StructureLint.Proofs.Selector.Matching
import StructureLint.Rule.HeadinglessSections
import StructureLint.Rule.Selecting
/-!
# The case of letters does not show in a report

The test for headings takes names in either case, as selectors do. So rules that select elements and
test for headings say the same about documents that are the same up to the case of letters in names,
also when letters of the names in their selectors change case (`Rule.SameUpToNames`), and the
reports are equal (`run_congr`). `only_names_caseless` puts this together with what selectors tell
apart.
-/

namespace StructureLint

variable {doc doc' : Document}

/-! ## Headings -/

theorem toLower_eq_h {c : Char} : c.toLower = 'h' ↔ c = 'h' ∨ c = 'H' := by
  constructor
  · intro h
    rcases Selector.toLower_cases c with ⟨-, hlower⟩ | ⟨-, hlower⟩
    · rw [h] at hlower
      exact .inr (Char.toNat_inj.1 (Nat.add_right_cancel hlower.symm))
    · exact .inl (hlower.symm.trans h)
  · rintro (rfl | rfl) <;> decide

/-- Digits have no case, and letters stay letters. -/
theorem level_toLower (c : Char) :
    ('1' ≤ c.toLower ∧ c.toLower ≤ '6') ↔ ('1' ≤ c ∧ c ≤ '6') := by
  rcases Selector.toLower_cases c with ⟨hc, hlower⟩ | ⟨-, hlower⟩
  · show (49 ≤ c.toLower.toNat ∧ c.toLower.toNat ≤ 54) ↔ (49 ≤ c.toNat ∧ c.toNat ≤ 54)
    omega
  · rw [hlower]

/-- The test for headings sees a name folded. -/
theorem isHeading_iff (name : String) :
    Document.isHeading name = true ↔
      ∃ level, name.toList.map Char.toLower = ['h', level] ∧ '1' ≤ level ∧ level ≤ '6' := by
  unfold Document.isHeading
  match name.toList with
  | [] | [_] | _ :: _ :: _ :: _ => simp
  | [h, level] => simp [toLower_eq_h, ← level_toLower level, and_assoc]

theorem isHeading_congr {name name' : String} (h : Text.foldCase name = Text.foldCase name') :
    Document.isHeading name = Document.isHeading name' := by
  have hmap : name.toList.map Char.toLower = name'.toList.map Char.toLower := by
    simpa [Text.foldCase] using congrArg String.toList h
  rw [Bool.eq_iff_iff, isHeading_iff, isHeading_iff, hmap]

theorem Document.SameUpToNames.hasNoHeading_eq (h : doc.SameUpToNames doc') (n : NodeId) :
    doc.hasNoHeading n = doc'.hasNoHeading n := by
  unfold hasNoHeading
  rw [h.firstElementChild]
  cases doc'.firstElementChild n with
  | none => rfl
  | some child =>
    rcases folded_cases (h.localName child) with ⟨hn, hn'⟩ | ⟨name, name', hn, hn', hfold⟩
    · simp [hn, hn']
    · simp [hn, hn', isHeading_congr hfold]

/-! ## Rules -/

/-- The test of the rule on headings, as a selecting rule may use it. -/
def lacksHeading : Violation :=
  fun doc n => .ok (doc.hasNoHeading n)

/-- Two rules that select elements and test for headings: the built-in rule with any catalog, and
selecting rules whose selectors are the same up to the case of letters in names. -/
inductive Rule.SameUpToNames : Rule → Rule → Prop
  | headinglessSections (catalog : Catalog) :
      SameUpToNames (HeadinglessSections.rule catalog) (HeadinglessSections.rule catalog)
  | selecting (r : SelectingRule) (hr : r.violation = lacksHeading) {source source' : String}
      {s s' : Selector} (h : Selector.SameUpToNames source source')
      (hs : Selector.parse source = .ok s) (hs' : Selector.parse source' = .ok s') :
      SameUpToNames { r with selector := s }.toRule { r with selector := s' }.toRule

theorem offendersAmong_congr {violation : Violation}
    (h : ∀ n, violation doc n = violation doc' n) (ns : List NodeId) :
    SelectingRule.offendersAmong violation doc ns =
      SelectingRule.offendersAmong violation doc' ns := by
  induction ns with
  | nil => rfl
  | cons n ns ih => rw [SelectingRule.offendersAmong, SelectingRule.offendersAmong, h, ih]

/-- Two texts of one selector select the same elements of the two documents. -/
theorem Document.SameUpToNames.select_parsed (h : doc.SameUpToNames doc')
    {source source' : String} (hsource : Selector.SameUpToNames source source') {s s' : Selector}
    (hs : Selector.parse source = .ok s) (hs' : Selector.parse source' = .ok s') :
    doc.select s = doc'.select s' := by
  obtain ⟨u, hu, hall⟩ := Selector.parse_recased hsource hs
  cases hs'.symm.trans hu
  exact h.select_eq hall

theorem offenders_congr (h : doc.SameUpToNames doc') :
    HeadinglessSections.offenders doc = HeadinglessSections.offenders doc' := by
  have hselect : doc.select = doc'.select := funext fun s =>
    h.select_eq (List.forall₂_same.2 fun _ _ => ⟨rfl, rfl⟩)
  have htest : doc.hasNoHeading = doc'.hasNoHeading := funext h.hasNoHeading_eq
  unfold HeadinglessSections.offenders HeadinglessSections.sections Document.query
  rw [hselect, htest]

theorem Rule.SameUpToNames.evaluate_eq {r r' : Rule} (hr : r.SameUpToNames r')
    (h : doc.SameUpToNames doc') (ctx : RunContext) :
    r.name = r'.name ∧ r.evaluate ctx doc = r'.evaluate ctx doc' := by
  cases hr with
  | headinglessSections catalog =>
    refine ⟨rfl, ?_⟩
    change HeadinglessSections.evaluate catalog ctx doc =
      HeadinglessSections.evaluate catalog ctx doc'
    unfold HeadinglessSections.evaluate
    rw [offenders_congr h]
  | selecting r hr hsource hs hs' =>
    refine ⟨rfl, ?_⟩
    change SelectingRule.evaluate _ ctx doc = SelectingRule.evaluate _ ctx doc'
    have htest : ∀ n, r.violation doc n = r.violation doc' n := fun n => by
      rw [hr, lacksHeading, lacksHeading, h.hasNoHeading_eq]
    simp only [SelectingRule.evaluate, h.select_parsed hsource hs hs', offendersAmong_congr htest]

/-! ## Runs -/

namespace Linter

/-- Rules of the same names that evaluate alike are reported alike. -/
theorem run_congr {config : Config} {rules rules' : List Rule}
    (h : List.Forall₂ (fun r r' => r.name = r'.name ∧
      ∀ ctx, r.evaluate ctx doc = r'.evaluate ctx doc') rules rules')
    (ctx : RunContext) (given : Conditions) :
    run { config, rules } doc ctx given = run { config, rules := rules' } doc' ctx given := by
  rw [run, run, outcomes_eq_map, outcomes_eq_map]
  congr 1
  unfold active
  dsimp only
  induction h with
  | nil => rfl
  | @cons r r' rs rs' hr _ ih =>
    have hout : outcomeOf { config, rules := r :: rs } doc ctx given r =
        outcomeOf { config, rules := r' :: rs' } doc' ctx given r' := by
      simp only [outcomeOf, Rule.outcome, hr.1, hr.2]
      rfl
    by_cases hen : config.isRuleEnabled r.name = true
    · have hen' : config.isRuleEnabled r'.name = true := hr.1 ▸ hen
      simp only [List.filter_cons, hen, hen', if_true, List.map_cons, hout]
      congr 1
    · have hen' : ¬ config.isRuleEnabled r'.name = true := hr.1 ▸ hen
      simp only [List.filter_cons, hen, hen']
      exact ih

/-- Names of elements, and the names that selectors ask for, may change case: the same elements are
found and reports are equal. Nothing else may: conditions that the same elements meet everywhere are
the same, and so are names once folded. -/
theorem only_names_caseless :
    (∀ doc doc' : Document, doc.SameUpToNames doc' →
      (∀ source source', Selector.SameUpToNames source source' →
        ((∃ s, Selector.parse source = .ok s) ↔ ∃ s, Selector.parse source' = .ok s) ∧
        ∀ s s', Selector.parse source = .ok s → Selector.parse source' = .ok s' →
          doc.select s = doc'.select s') ∧
      (∀ n, doc.hasNoHeading n = doc'.hasNoHeading n) ∧
      RunContext.forDocument doc = RunContext.forDocument doc' ∧
      ∀ (config : Config) (rules rules' : List Rule),
        List.Forall₂ Rule.SameUpToNames rules rules' → ∀ ctx given,
          run { config, rules } doc ctx given = run { config, rules := rules' } doc' ctx given) ∧
    (∀ t t' c c', Selector.Grammar.IsCondition t c → Selector.Grammar.IsCondition t' c' →
      ((∀ doc n, c.holds doc n = c'.holds doc n) ↔ c.spelledOut = c'.spelledOut)) ∧
    ∀ n n', (∀ doc e, Compound.matchesNode ⟨some n, []⟩ doc e =
      Compound.matchesNode ⟨some n', []⟩ doc e) ↔ Text.foldCase n = Text.foldCase n' := by
  refine ⟨fun doc doc' h => ⟨fun source source' hsource => ⟨⟨?_, ?_⟩, ?_⟩, h.hasNoHeading_eq, ?_,
    ?_⟩, fun _ _ _ _ => Selector.holds_iff_spelledOut, admits_iff_foldCase⟩
  · rintro ⟨s, hs⟩
    obtain ⟨s', hs', -⟩ := Selector.parse_recased hsource hs
    exact ⟨s', hs'⟩
  · rintro ⟨s, hs⟩
    obtain ⟨s', hs', -⟩ := Selector.parse_recased (Selector.Recased.symm hsource) hs
    exact ⟨s', hs'⟩
  · exact fun s s' => h.select_parsed hsource
  · simp [RunContext.forDocument, RunContext.documentLanguage, h.root, h.attr]
  · intro config rules rules' hrules ctx given
    refine run_congr (hrules.imp fun r r' hr => ?_) ctx given
    exact ⟨(hr.evaluate_eq h ctx).1, fun ctx => (hr.evaluate_eq h ctx).2⟩

/-- The built-in rule once more, as a selecting rule. -/
def headedSection : SelectingRule where
  name := "headed-section"
  selector := ⟨"section", [⟨some "section", []⟩]⟩
  violation := lacksHeading
  catalog := HeadinglessSections.messages

theorem only_names_caseless_section :
    (ElementTree.single "SECTION" ∅).toDocument.SameUpToNames
        (ElementTree.single "section" ∅).toDocument ∧
      Selector.SameUpToNames "section" "Section" ∧
      (ElementTree.single "SECTION" ∅).toDocument.select headedSection.selector =
        (ElementTree.single "section" ∅).toDocument.select ⟨"Section", [⟨some "Section", []⟩]⟩ ∧
      (∀ ctx given, run { rules := Rule.builtIn ++ [headedSection.toRule] }
          (ElementTree.single "SECTION" ∅).toDocument ctx given =
        run { rules := Rule.builtIn ++ [headedSection.toRule] }
          (ElementTree.single "section" ∅).toDocument ctx given) ∧
      ¬ ∀ doc n, Condition.holds doc n (.id "top") = Condition.holds doc n (.id "Top") := by
  obtain ⟨hsame, hconditions, -⟩ := only_names_caseless
  have hdoc : (ElementTree.single "SECTION" ∅).toDocument.SameUpToNames
      (ElementTree.single "section" ∅).toDocument := by
    have hfolded : (ElementTree.single "SECTION" ∅).mapNames Text.foldCase =
        ElementTree.single "section" ∅ := by decide +kernel
    exact hfolded ▸ ElementTree.sameUpToNames_mapNames _ foldCase_foldCase
  have htext : Selector.SameUpToNames "section" "Section" :=
    .letter (by decide) (by decide) (.refl _ _)
  have hs : Selector.parse "section" = .ok headedSection.selector := by decide +kernel
  have hs' : Selector.parse "Section" = .ok ⟨"Section", [⟨some "Section", []⟩]⟩ := by
    decide +kernel
  obtain ⟨htexts, -, -, hruns⟩ := hsame _ _ hdoc
  refine ⟨hdoc, htext, (htexts _ _ htext).2 _ _ hs hs', hruns {} _ _ ?_, fun hall => ?_⟩
  · exact .cons (.headinglessSections _)
      (.cons (.selecting headedSection rfl (.refl _ _) hs hs) .nil)
  · have htop : Selector.Grammar.IsCondition "#top".toList (.id "top") :=
      .id ⟨by decide, List.all_eq_true.1 (by decide)⟩
    have hTop : Selector.Grammar.IsCondition "#Top".toList (.id "Top") :=
      .id ⟨by decide, List.all_eq_true.1 (by decide)⟩
    exact absurd ((hconditions _ _ _ _ htop hTop).1 hall) (by decide)

end Linter

end StructureLint
