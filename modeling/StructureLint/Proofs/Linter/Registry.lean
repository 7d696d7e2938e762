import Mathlib.Data.List.Nodup
import StructureLint.Linter.Basic
/-!
# What registration ensures

`Registered` says what the rules of a linter have in common: their names are distinct, and each
catalog defines the configured default language. It holds of a linter without rules, every
registration keeps it (`registered_register`), and so it holds of every linter that can be put
together (`reachable_registered`), also after rules that were refused. Nothing else is asked of the
rules that a linter is built with (`build_eq_ok_iff`).
-/

namespace StructureLint.Linter

variable {l l' : Linter} {r : Rule}

/-! ## One registration -/

theorem hasRule_iff {name : String} : l.hasRule name = true ↔ name ∈ l.ruleNames := by
  simp [hasRule, ruleNames]

theorem validate_eq_ok_iff {c : Catalog} {lang : String} :
    c.validate lang = .ok () ↔ c.contains lang = true := by
  unfold Catalog.validate
  split <;> simp_all

/-- A rule is registered just when its name is new and its catalog has the default language. It is
then the last rule, and nothing else has changed. -/
theorem register_eq_ok_iff :
    l.register r = .ok l' ↔
      r.name ∉ l.ruleNames ∧ r.catalog.contains l.config.defaultLang = true ∧
        l' = { l with rules := l.rules ++ [r] } := by
  unfold register
  by_cases hname : l.hasRule r.name = true
  · simp [hname, hasRule_iff.1 hname]
  · have hnew : r.name ∉ l.ruleNames := fun h => hname (hasRule_iff.2 h)
    rw [if_neg hname]
    split
    · rename_i e he
      have : r.catalog.contains l.config.defaultLang ≠ true := fun hc => by
        rw [validate_eq_ok_iff.2 hc] at he
        cases he
      simp [this]
    · rename_i hv
      simp [hnew, validate_eq_ok_iff.1 hv, eq_comm]

/-! ## Linters that can be put together -/

/-- The linter after an attempt to register a rule. A rule that is refused changes nothing. -/
def attempt (l : Linter) (r : Rule) : Linter :=
  match l.register r with
  | .ok l' => l'
  | .error _ => l

/-- The linters that can be put together: one without rules or one that was built, and after it any
number of attempts to register a rule. -/
inductive Reachable : Linter → Prop
  | empty (config : Config) : Reachable { config }
  | built {config : Config} {rules : List Rule} {l : Linter} (h : build config rules = .ok l) :
      Reachable l
  | attempt {l : Linter} (h : Reachable l) (r : Rule) : Reachable (l.attempt r)

/-- The rules have distinct names, and their catalogs define the default language. -/
structure Registered (l : Linter) : Prop where
  names_nodup : l.ruleNames.Nodup
  has_default : ∀ r ∈ l.rules, r.catalog.contains l.config.defaultLang = true

theorem registered_empty (config : Config) : Registered { config } :=
  ⟨List.nodup_nil, by simp⟩

theorem registered_register (hl : Registered l) (h : l.register r = .ok l') : Registered l' := by
  obtain ⟨hnew, hdefault, rfl⟩ := register_eq_ok_iff.1 h
  constructor
  · have hnames : ruleNames { l with rules := l.rules ++ [r] } = l.ruleNames ++ [r.name] := by
      simp [ruleNames]
    rw [hnames]
    refine List.nodup_append.2 ⟨hl.names_nodup, by simp, ?_⟩
    rintro a ha _ hb rfl
    exact hnew (List.mem_singleton.1 hb ▸ ha)
  · intro s hs
    rcases List.mem_append.1 hs with hs | hs
    · exact hl.has_default s hs
    · exact List.mem_singleton.1 hs ▸ hdefault

theorem registered_registerAll {rules : List Rule} (hl : Registered l)
    (h : l.registerAll rules = .ok l') : Registered l' := by
  induction rules generalizing l with
  | nil =>
    cases h
    exact hl
  | cons r rules ih =>
    unfold registerAll at h
    split at h
    · cases h
    · rename_i hr
      exact ih (registered_register hl hr) h

theorem registered_attempt (hl : Registered l) (r : Rule) : Registered (l.attempt r) := by
  unfold attempt
  split
  · rename_i h
    exact registered_register hl h
  · exact hl

theorem reachable_registered (h : Reachable l) : Registered l := by
  induction h with
  | empty config => exact registered_empty config
  | built h => exact registered_registerAll (registered_empty _) h
  | attempt _ r ih => exact registered_attempt ih r

theorem registerAll_eq {rules : List Rule} (h : l.registerAll rules = .ok l') :
    l' = { l with rules := l.rules ++ rules } := by
  induction rules generalizing l with
  | nil =>
    cases h
    simp
  | cons r rules ih =>
    unfold registerAll at h
    split at h
    · cases h
    · rename_i hr
      obtain ⟨-, -, rfl⟩ := register_eq_ok_iff.1 hr
      rw [ih h]
      simp

theorem Registered.sublist {rules kept : List Rule} (h : Registered { l with rules := rules })
    (hk : kept.Sublist rules) : Registered { l with rules := kept } :=
  ⟨h.names_nodup.sublist (hk.map Rule.name), fun r hr => h.has_default r (hk.subset hr)⟩

/-- The next rule of a linter that could have all of them is accepted. -/
theorem register_of_registered {rules : List Rule}
    (h : Registered { l with rules := l.rules ++ r :: rules }) :
    l.register r = .ok { l with rules := l.rules ++ [r] } := by
  refine register_eq_ok_iff.2 ⟨fun hmem => ?_, h.has_default r (by simp), rfl⟩
  have hnames : (l.ruleNames ++ r.name :: rules.map (·.name)).Nodup := by
    simpa [ruleNames] using h.names_nodup
  exact (List.nodup_append.1 hnames).2.2 _ hmem _ (by simp) rfl

theorem registerAll_of_registered {rules : List Rule}
    (h : Registered { l with rules := l.rules ++ rules }) :
    l.registerAll rules = .ok { l with rules := l.rules ++ rules } := by
  induction rules generalizing l with
  | nil => simp [registerAll]
  | cons r rules ih =>
    rw [registerAll, register_of_registered h]
    simpa using ih (l := { l with rules := l.rules ++ [r] }) (by simpa using h)

/-- A linter can be built with these rules just when they could be the rules of one. -/
theorem build_eq_ok_iff {config : Config} {rules : List Rule} :
    build config rules = .ok l ↔ l = { config, rules } ∧ Registered { config, rules } := by
  constructor
  · intro h
    have hl : l = { config, rules } := by simpa using registerAll_eq h
    exact ⟨hl, hl ▸ registered_registerAll (registered_empty config) h⟩
  · rintro ⟨rfl, h⟩
    exact registerAll_of_registered (l := { config }) h

/-- Of rules that are accepted, some in the same order are accepted as well. -/
theorem build_of_sublist {config : Config} {rules kept : List Rule}
    (h : build config rules = .ok l) (hk : kept.Sublist rules) :
    build config kept = .ok { config, rules := kept } :=
  build_eq_ok_iff.2 ⟨rfl, (build_eq_ok_iff.1 h).2.sublist (l := { config }) hk⟩

/-- A registered rule is known by its name. -/
theorem Registered.eq_of_name (hl : Registered l) {r s : Rule} (hr : r ∈ l.rules)
    (hs : s ∈ l.rules) (h : r.name = s.name) : r = s :=
  List.inj_on_of_nodup_map hl.names_nodup hr hs h

end StructureLint.Linter
