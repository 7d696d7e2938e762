import Mathlib.Data.List.Induction
import StructureLint.Config.Toml
import StructureLint.Proofs.Catalog.RoundTrip
import StructureLint.Proofs.Toml.DistinctKeys
/-!
# Which documents are configurations

`Admits` lists the keys of a configuration with the values that each may have, and a document is a
configuration just when it has no other entries (`parse_accepts_exactly`). What is read is what the
document `Tells`: each field has the value under its key, or its default if the key is missing.

The entries are read one by one, and `Sets` says what one of them does (`decodeEntry_eq_ok_iff`).
As no key occurs twice (`Toml.distinct_of_parse`), an entry is the only one that sets its field.
-/

namespace StructureLint

open Toml (Value)

/-! ## Fields and defaults -/

section Given

variable {α : Type} {entries : List (String × Value)} {key : String} {v : Value}
  {reads : Value → α → Prop} {default field : α}

/-- A field has the value that is given under its key, or its default if the key is missing. -/
def Given (entries : List (String × Value)) (key : String) (reads : Value → α → Prop)
    (default field : α) : Prop :=
  (∀ v, (key, v) ∈ entries → reads v field) ∧ ((∀ v, (key, v) ∉ entries) → field = default)

theorem given_nil : Given [] key reads default default :=
  ⟨by simp, fun _ => rfl⟩

/-- The entry that is read last sets the field of its key, which had none before. -/
theorem given_concat (hkeys : ((entries ++ [(key, v)]).map (·.1)).Nodup) (h : reads v field) :
    Given (entries ++ [(key, v)]) key reads default field := by
  rw [List.map_append, List.nodup_append] at hkeys
  constructor
  · intro w hw
    rcases List.mem_append.1 hw with hw | hw
    · have hmem : key ∈ entries.map (·.1) := List.mem_map.2 ⟨_, hw, rfl⟩
      exact absurd rfl (hkeys.2.2 key hmem key (by simp))
    · cases List.mem_singleton.1 hw
      exact h
  · intro hmissing
    exact absurd (by simp) (hmissing v)

/-- An entry under another key leaves the field as it was. -/
theorem Given.concat {key' : String} (h : Given entries key reads default field)
    (hne : key' ≠ key) : Given (entries ++ [(key', v)]) key reads default field := by
  have hmem : ∀ w, (key, w) ∈ entries ++ [(key', v)] ↔ (key, w) ∈ entries := by
    intro w
    simp [Ne.symm hne]
  simpa only [Given, hmem] using h

theorem Given.cases (h : Given entries key reads default field) :
    (∃ v, (key, v) ∈ entries ∧ reads v field) ∨
      (∀ v, (key, v) ∉ entries) ∧ field = default := by
  by_cases hmem : ∃ v, (key, v) ∈ entries
  · obtain ⟨v, hv⟩ := hmem
    exact .inl ⟨v, hv, h.1 v hv⟩
  · have hmissing : ∀ v, (key, v) ∉ entries := fun v hv => hmem ⟨v, hv⟩
    exact .inr ⟨hmissing, h.2 hmissing⟩

end Given

/-! ## One rule -/

theorem map_eq_ok_iff {ε α β : Type} {x : Except ε α} {f : α → β} {b : β} :
    x.map f = .ok b ↔ ∃ a, x = .ok a ∧ f a = b := by
  cases x <;> simp [Except.map]

theorem asBoolean_eq_ok_iff {v : Value} {b : Bool} : v.asBoolean = .ok b ↔ v = .boolean b := by
  cases v <;> simp [Value.asBoolean]

theorem asString_eq_ok_iff {v : Value} {s : String} : v.asString = .ok s ↔ v = .string s := by
  cases v <;> simp [Value.asString]

namespace RuleConfig

variable {v : Value} {r : RuleConfig}

/-- The values that configure a rule: a table with no key but `enabled`, which is a boolean, or an
array that is empty or begins with a boolean. -/
inductive Admits : Value → Prop
  | table {entries : List (String × Value)} (h : ∀ e ∈ entries, ∃ b, e = ("enabled", .boolean b)) :
      Admits (.table entries)
  | nothing : Admits (.array [])
  | array (b : Bool) (rest : List Value) : Admits (.array (.boolean b :: rest))

/-- The value says whether the rule is enabled. -/
inductive Switches : Value → Bool → Prop
  | table {entries : List (String × Value)} {b : Bool} (h : ("enabled", .boolean b) ∈ entries) :
      Switches (.table entries) b
  | array (b : Bool) (rest : List Value) : Switches (.array (.boolean b :: rest)) b

theorem decodeEntries_cons_eq_ok_iff {e : String × Value} {es : List (String × Value)}
    {r r' : RuleConfig} :
    decodeEntries r (e :: es) = .ok r' ↔
      ∃ b, e = ("enabled", .boolean b) ∧
        decodeEntries { r with enabled := some b } es = .ok r' := by
  obtain ⟨key, v⟩ := e
  rw [decodeEntries]
  by_cases hkey : key = "enabled"
  · subst hkey
    rw [if_pos rfl]
    cases v <;> simp [Value.asBoolean]
  · simp [hkey]

/-- A table of distinct keys that configures a rule has one entry at most. -/
theorem decodeEntries_eq_ok_iff {entries : List (String × Value)}
    (hkeys : (entries.map (·.1)).Nodup) :
    decodeEntries {} entries = .ok r ↔
      (entries = [] ∧ r = {}) ∨
        ∃ b, entries = [("enabled", .boolean b)] ∧ r = { enabled := some b } := by
  cases entries with
  | nil => simp [decodeEntries, eq_comm]
  | cons e es =>
    rw [decodeEntries_cons_eq_ok_iff]
    cases es with
    | nil => simp [decodeEntries, eq_comm]
    | cons e' es =>
      have hnever : ∀ b, e = ("enabled", .boolean b) →
          ¬ decodeEntries { enabled := some b } (e' :: es) = .ok r := by
        rintro b rfl h
        obtain ⟨b', rfl, -⟩ := decodeEntries_cons_eq_ok_iff.1 h
        simp at hkeys
      constructor
      · rintro ⟨b, he, h⟩
        exact absurd h (hnever b he)
      · rintro (⟨h, -⟩ | ⟨b, h, -⟩)
        · cases h
        · cases h

theorem admits_table_iff {entries : List (String × Value)} (hkeys : (entries.map (·.1)).Nodup) :
    Admits (.table entries) ↔ entries = [] ∨ ∃ b, entries = [("enabled", .boolean b)] := by
  constructor
  · rintro ⟨h⟩
    match entries, hkeys, h with
    | [], _, _ => exact .inl rfl
    | [e], _, h =>
      obtain ⟨b, rfl⟩ := h e (by simp)
      exact .inr ⟨b, rfl⟩
    | e :: e' :: es, hkeys, h =>
      obtain ⟨b, rfl⟩ := h e (by simp)
      obtain ⟨b', rfl⟩ := h e' (by simp)
      simp at hkeys
  · rintro (rfl | ⟨b, rfl⟩)
    · exact .table (by simp)
    · exact .table (by simp)

theorem switches_table_iff {entries : List (String × Value)} {b : Bool} :
    Switches (.table entries) b ↔ ("enabled", .boolean b) ∈ entries := by
  constructor
  · rintro ⟨h⟩
    exact h
  · exact .table

theorem decode_array_eq_ok_iff {items : List Value} :
    decode (.array items) = .ok r ↔
      (items = [] ∧ r = {}) ∨
        ∃ b rest, items = .boolean b :: rest ∧ r = { enabled := some b } := by
  cases items with
  | nil =>
    constructor
    · intro h
      cases h
      exact .inl ⟨rfl, rfl⟩
    · rintro (⟨-, rfl⟩ | ⟨b, rest, h, -⟩)
      · rfl
      · cases h
  | cons item rest =>
    have hdecode : decode (.array (item :: rest)) =
        item.asBoolean.map fun b => { enabled := some b } := rfl
    rw [hdecode, map_eq_ok_iff]
    simp only [asBoolean_eq_ok_iff]
    constructor
    · rintro ⟨b, rfl, rfl⟩
      exact .inr ⟨b, rest, rfl, rfl⟩
    · rintro (⟨h, -⟩ | ⟨b, rest', h, rfl⟩)
      · cases h
      · cases h
        exact ⟨b, rfl, rfl⟩

theorem admits_array_iff {items : List Value} :
    Admits (.array items) ↔ items = [] ∨ ∃ b rest, items = .boolean b :: rest := by
  constructor
  · rintro (_ | _ | ⟨b, rest⟩)
    · exact .inl rfl
    · exact .inr ⟨b, rest, rfl⟩
  · rintro (rfl | ⟨b, rest, rfl⟩)
    · exact .nothing
    · exact .array b rest

theorem switches_array_iff {items : List Value} {b : Bool} :
    Switches (.array items) b ↔ ∃ rest, items = .boolean b :: rest := by
  constructor
  · rintro (_ | ⟨rest⟩)
    exact ⟨_, rfl⟩
  · rintro ⟨rest, rfl⟩
    exact .array b rest

/-- What configures a rule is read, and says whether the rule is enabled, or leaves it open. -/
theorem decode_eq_ok_iff (hv : v.Distinct) :
    decode v = .ok r ↔ Admits v ∧ ∀ b, r.enabled = some b ↔ Switches v b := by
  cases hv with
  | table hkeys _ =>
    rename_i entries _
    have hdecode : decode (.table entries) = decodeEntries {} entries := rfl
    rw [hdecode, decodeEntries_eq_ok_iff hkeys, admits_table_iff hkeys]
    simp only [switches_table_iff]
    obtain ⟨enabled⟩ := r
    constructor
    · rintro (⟨rfl, h⟩ | ⟨b, rfl, h⟩)
      · cases h
        simp
      · cases h
        simp
    · rintro ⟨rfl | ⟨b, rfl⟩, h⟩
      · refine .inl ⟨rfl, ?_⟩
        cases enabled with
        | none => rfl
        | some b => cases (h b).1 rfl
      · refine .inr ⟨b, rfl, ?_⟩
        have hb : enabled = some b := (h b).2 (by simp)
        rw [hb]
  | array _ =>
    rename_i items _
    rw [decode_array_eq_ok_iff, admits_array_iff]
    simp only [switches_array_iff]
    obtain ⟨enabled⟩ := r
    constructor
    · rintro (⟨rfl, h⟩ | ⟨b, rest, rfl, h⟩)
      · cases h
        simp
      · cases h
        simp
    · rintro ⟨rfl | ⟨b, rest, rfl⟩, h⟩
      · refine .inl ⟨rfl, ?_⟩
        cases enabled with
        | none => rfl
        | some b =>
          obtain ⟨rest, hrest⟩ := (h b).1 rfl
          cases hrest
      · have hb : enabled = some b := (h b).2 ⟨rest, rfl⟩
        exact .inr ⟨b, rest, rfl, by rw [hb]⟩
  | _ =>
    constructor
    · intro h
      cases h
    · rintro ⟨⟨⟩, -⟩

theorem Admits.exists_decode (h : Admits v) (hv : v.Distinct) : ∃ r, decode v = .ok r := by
  cases hv with
  | table hkeys _ =>
    rcases (admits_table_iff hkeys).1 h with rfl | ⟨b, rfl⟩
    · exact ⟨_, (decodeEntries_eq_ok_iff hkeys).2 (.inl ⟨rfl, rfl⟩)⟩
    · exact ⟨_, (decodeEntries_eq_ok_iff hkeys).2 (.inr ⟨b, rfl, rfl⟩)⟩
  | array _ =>
    rcases admits_array_iff.1 h with rfl | ⟨b, rest, rfl⟩
    · exact ⟨_, decode_array_eq_ok_iff.2 (.inl ⟨rfl, rfl⟩)⟩
    · exact ⟨_, decode_array_eq_ok_iff.2 (.inr ⟨b, rest, rfl, rfl⟩)⟩
  | _ => cases h

end RuleConfig

namespace Config

variable {c c' : Config} {entries table : List (String × Value)} {key : String} {v : Value}

/-! ## The rules -/

/-- Each rule is configured as its entry says, and no other rule is configured. -/
def RulesTold (v : Value) (rules : KeyMap RuleConfig) : Prop :=
  ∃ table, v = .table table ∧ ∀ name,
    Given table name (fun w o => ∃ r : RuleConfig, o = some r ∧ ∀ b, r.enabled = some b ↔
      RuleConfig.Switches w b) none (rules.get? name)

theorem foldlM_concat_eq_ok_iff {ε σ α : Type} {f : σ → α → Except ε σ} {as : List α} {a : α}
    {s t : σ} : (as ++ [a]).foldlM f s = .ok t ↔ ∃ u, as.foldlM f s = .ok u ∧ f u a = .ok t := by
  simp [List.foldlM_append, bind_eq_ok_iff]

theorem nodup_of_concat {e : String × Value}
    (h : ((entries ++ [e]).map (·.1)).Nodup) : (entries.map (·.1)).Nodup := by
  rw [List.map_append] at h
  exact (List.nodup_append.1 h).1

theorem given_of_foldlM {rules : KeyMap RuleConfig} (hkeys : (table.map (·.1)).Nodup)
    (h : table.foldlM (fun m e => (RuleConfig.decode e.2).map (m.insert e.1)) ∅ = .ok rules)
    (name : String) :
    Given table name (fun v o => ∃ r, RuleConfig.decode v = .ok r ∧ o = some r) none
      (rules.get? name) := by
  induction table using List.reverseRecOn generalizing rules with
  | nil =>
    cases h
    exact given_nil
  | append_singleton table e ih =>
    obtain ⟨before, hbefore, hlast⟩ := foldlM_concat_eq_ok_iff.1 h
    obtain ⟨r, hr, rfl⟩ := map_eq_ok_iff.1 hlast
    rw [KeyMap.get?_insert]
    split
    · rename_i hname
      subst hname
      exact given_concat hkeys ⟨r, hr, rfl⟩
    · rename_i hname
      exact (ih (nodup_of_concat hkeys) hbefore).concat hname

/-- A fold goes through if every step does. -/
theorem exists_foldlM {ε σ α : Type} {f : σ → α → Except ε σ} {as : List α}
    (hf : ∀ s, ∀ a ∈ as, ∃ t, f s a = .ok t) (s : σ) : ∃ t, as.foldlM f s = .ok t := by
  induction as generalizing s with
  | nil => exact ⟨s, rfl⟩
  | cons a as ih =>
    obtain ⟨t, ht⟩ := hf s a (by simp)
    obtain ⟨u, hu⟩ := ih (fun s' a' ha' => hf s' a' (by simp [ha'])) t
    exact ⟨u, by rw [List.foldlM_cons, ht]; exact hu⟩

theorem rulesTold_of_decodeRules (hv : v.Distinct) {rules : KeyMap RuleConfig}
    (h : decodeRules v = .ok rules) :
    (∃ table, v = .table table ∧ ∀ e ∈ table, RuleConfig.Admits e.2) ∧ RulesTold v rules := by
  cases hv with
  | table hkeys hvalues =>
    rename_i table
    have hgiven := given_of_foldlM hkeys h
    have hread : ∀ e ∈ table, ∀ r, RuleConfig.decode e.2 = .ok r → _ := fun e he r hr =>
      (RuleConfig.decode_eq_ok_iff (hvalues e he)).1 hr
    refine ⟨⟨table, rfl, fun e he => ?_⟩, table, rfl, fun name => ⟨fun w hw => ?_, (hgiven name).2⟩⟩
    · obtain ⟨r, hr, -⟩ := (hgiven e.1).1 e.2 he
      exact (hread e he r hr).1
    · obtain ⟨r, hr, hname⟩ := (hgiven name).1 w hw
      exact ⟨r, hname, (hread _ hw r hr).2⟩
  | _ => cases h

theorem exists_decodeRules (hvalues : ∀ e ∈ table, e.2.Distinct)
    (h : ∀ e ∈ table, RuleConfig.Admits e.2) :
    ∃ rules, decodeRules (.table table) = .ok rules := by
  refine exists_foldlM (fun m e he => ?_) ∅
  obtain ⟨r, hr⟩ := (h e he).exists_decode (hvalues e he)
  exact ⟨m.insert e.1 r, by rw [hr]; rfl⟩

/-! ## One entry -/

/-- The entries that a configuration may have. -/
inductive Admits : String → Value → Prop
  | enabled (b : Bool) : Admits "enabled" (.boolean b)
  | lang (s : String) : Admits "lang" (.string s)
  | defaultLang (s : String) : Admits "default_lang" (.string s)
  | parallel (b : Bool) : Admits "parallel" (.boolean b)
  | ruleBudgetMs (n : Nat) : Admits "rule_budget_ms" (.integer n)
  | rules {table : List (String × Value)} (h : ∀ e ∈ table, RuleConfig.Admits e.2) :
      Admits "rules" (.table table)

/-- What becomes of a configuration by one entry. -/
inductive Sets (c : Config) : String → Value → Config → Prop
  | enabled (b : Bool) : Sets c "enabled" (.boolean b) { c with enabled := b }
  | lang (s : String) : Sets c "lang" (.string s) { c with lang := some s }
  | defaultLang (s : String) : Sets c "default_lang" (.string s) { c with defaultLang := s }
  | parallel (b : Bool) : Sets c "parallel" (.boolean b) { c with parallel := b }
  | ruleBudgetMs (n : Nat) :
      Sets c "rule_budget_ms" (.integer n) { c with ruleBudgetMs := some n }
  | rules {v : Value} {rules : KeyMap RuleConfig} (h : decodeRules v = .ok rules) :
      Sets c "rules" v { c with rules }

theorem decodeUnsigned_eq_ok_iff {n : Nat} : decodeUnsigned v = .ok n ↔ v = .integer n := by
  cases v with
  | integer i =>
    have hdecode : decodeUnsigned (.integer i) =
        if i < 0 then .error (.misfit (.wrongValue (.integer i) .unsigned)) else .ok i.toNat := rfl
    rw [hdecode, Value.integer.injEq]
    split
    · constructor
      · intro h
        cases h
      · omega
    · rw [Except.ok.injEq]
      omega
  | _ => simp [decodeUnsigned]

theorem decodeEntry_eq_ok_iff : c.decodeEntry key v = .ok c' ↔ Sets c key v c' := by
  constructor
  · intro h
    unfold decodeEntry at h
    split at h
    · subst key
      obtain ⟨b, hb, rfl⟩ := map_eq_ok_iff.1 h
      obtain rfl := asBoolean_eq_ok_iff.1 hb
      exact .enabled b
    split at h
    · subst key
      obtain ⟨s, hs, rfl⟩ := map_eq_ok_iff.1 h
      obtain rfl := asString_eq_ok_iff.1 hs
      exact .lang s
    split at h
    · subst key
      obtain ⟨s, hs, rfl⟩ := map_eq_ok_iff.1 h
      obtain rfl := asString_eq_ok_iff.1 hs
      exact .defaultLang s
    split at h
    · subst key
      obtain ⟨b, hb, rfl⟩ := map_eq_ok_iff.1 h
      obtain rfl := asBoolean_eq_ok_iff.1 hb
      exact .parallel b
    split at h
    · subst key
      obtain ⟨n, hn, rfl⟩ := map_eq_ok_iff.1 h
      obtain rfl := decodeUnsigned_eq_ok_iff.1 hn
      exact .ruleBudgetMs n
    split at h
    · subst key
      obtain ⟨rules, hrules, rfl⟩ := map_eq_ok_iff.1 h
      exact .rules hrules
    · cases h
  · rintro (_ | _ | _ | _ | n | h)
    · rfl
    · rfl
    · rfl
    · rfl
    · have hdecode : c.decodeEntry "rule_budget_ms" (.integer n) =
          (decodeUnsigned (.integer n)).map fun n => { c with ruleBudgetMs := some n } := rfl
      rw [hdecode, decodeUnsigned_eq_ok_iff.2 rfl]
      rfl
    · show (decodeRules _).map _ = _
      rw [h]
      rfl

/-! ## All entries -/

/-- The configuration has in each field what the entries give for it, or the default. -/
structure Tells (entries : List (String × Value)) (c : Config) : Prop where
  enabled : Given entries "enabled" (fun v b => v = .boolean b) ({} : Config).enabled c.enabled
  lang : Given entries "lang" (fun v o => ∃ s, v = .string s ∧ o = some s) ({} : Config).lang c.lang
  defaultLang :
    Given entries "default_lang" (fun v s => v = .string s) ({} : Config).defaultLang c.defaultLang
  parallel : Given entries "parallel" (fun v b => v = .boolean b) ({} : Config).parallel c.parallel
  ruleBudgetMs :
    Given entries "rule_budget_ms" (fun v o => ∃ n : Nat, v = .integer n ∧ o = some n)
      ({} : Config).ruleBudgetMs c.ruleBudgetMs
  rules : Given entries "rules" RulesTold ({} : Config).rules c.rules

theorem tells_nil : Tells [] {} :=
  ⟨given_nil, given_nil, given_nil, given_nil, given_nil, given_nil⟩

theorem Tells.concat (h : Tells entries c) (hkeys : ((entries ++ [(key, v)]).map (·.1)).Nodup)
    (hv : v.Distinct) (hs : Sets c key v c') : Tells (entries ++ [(key, v)]) c' := by
  cases hs with
  | enabled b =>
    exact ⟨given_concat hkeys rfl, h.lang.concat (by decide), h.defaultLang.concat (by decide),
      h.parallel.concat (by decide), h.ruleBudgetMs.concat (by decide), h.rules.concat (by decide)⟩
  | lang s =>
    exact ⟨h.enabled.concat (by decide), given_concat hkeys ⟨s, rfl, rfl⟩,
      h.defaultLang.concat (by decide), h.parallel.concat (by decide),
      h.ruleBudgetMs.concat (by decide), h.rules.concat (by decide)⟩
  | defaultLang s =>
    exact ⟨h.enabled.concat (by decide), h.lang.concat (by decide), given_concat hkeys rfl,
      h.parallel.concat (by decide), h.ruleBudgetMs.concat (by decide), h.rules.concat (by decide)⟩
  | parallel b =>
    exact ⟨h.enabled.concat (by decide), h.lang.concat (by decide),
      h.defaultLang.concat (by decide), given_concat hkeys rfl, h.ruleBudgetMs.concat (by decide),
      h.rules.concat (by decide)⟩
  | ruleBudgetMs n =>
    exact ⟨h.enabled.concat (by decide), h.lang.concat (by decide),
      h.defaultLang.concat (by decide), h.parallel.concat (by decide),
      given_concat hkeys ⟨n, rfl, rfl⟩, h.rules.concat (by decide)⟩
  | rules hrules =>
    exact ⟨h.enabled.concat (by decide), h.lang.concat (by decide),
      h.defaultLang.concat (by decide), h.parallel.concat (by decide),
      h.ruleBudgetMs.concat (by decide),
      given_concat hkeys (rulesTold_of_decodeRules hv hrules).2⟩

theorem Admits.mem_fields (h : Admits key v) : key ∈ fields := by
  cases h <;> decide

theorem Admits.rules_of (h : Admits key v) (hkey : key = "rules") :
    ∃ table, v = .table table ∧ ∀ e ∈ table, RuleConfig.Admits e.2 := by
  cases h with
  | rules hall => exact ⟨_, rfl, hall⟩
  | _ => exact absurd hkey (by decide)

theorem Sets.admits (hv : v.Distinct) (h : Sets c key v c') : Admits key v := by
  cases h with
  | enabled b => exact .enabled b
  | lang s => exact .lang s
  | defaultLang s => exact .defaultLang s
  | parallel b => exact .parallel b
  | ruleBudgetMs n => exact .ruleBudgetMs n
  | rules hrules =>
    obtain ⟨⟨table, rfl, hall⟩, -⟩ := rulesTold_of_decodeRules hv hrules
    exact .rules hall

theorem Admits.exists_sets (hv : v.Distinct) (h : Admits key v) (c : Config) :
    ∃ c', Sets c key v c' := by
  cases h with
  | enabled b => exact ⟨_, .enabled b⟩
  | lang s => exact ⟨_, .lang s⟩
  | defaultLang s => exact ⟨_, .defaultLang s⟩
  | parallel b => exact ⟨_, .parallel b⟩
  | ruleBudgetMs n => exact ⟨_, .ruleBudgetMs n⟩
  | rules hall =>
    cases hv with
    | table _ hvalues =>
      obtain ⟨rules, hrules⟩ := exists_decodeRules hvalues hall
      exact ⟨_, .rules hrules⟩

theorem tells_of_decode (hkeys : (entries.map (·.1)).Nodup)
    (hvalues : ∀ e ∈ entries, e.2.Distinct) (h : decode entries = .ok c) :
    (∀ e ∈ entries, Admits e.1 e.2) ∧ Tells entries c := by
  induction entries using List.reverseRecOn generalizing c with
  | nil =>
    cases h
    exact ⟨by simp, tells_nil⟩
  | append_singleton entries e ih =>
    obtain ⟨before, hbefore, hlast⟩ := foldlM_concat_eq_ok_iff.1 h
    have hsets := decodeEntry_eq_ok_iff.1 hlast
    have he : e.2.Distinct := hvalues e (by simp)
    obtain ⟨hall, htells⟩ :=
      ih (nodup_of_concat hkeys) (fun e' he' => hvalues e' (by simp [he'])) hbefore
    refine ⟨fun e' he' => ?_, htells.concat hkeys he hsets⟩
    rcases List.mem_append.1 he' with he' | he'
    · exact hall e' he'
    · rw [List.mem_singleton.1 he']
      exact hsets.admits he

theorem exists_decode (hvalues : ∀ e ∈ entries, e.2.Distinct)
    (h : ∀ e ∈ entries, Admits e.1 e.2) : ∃ c, decode entries = .ok c := by
  refine exists_foldlM (fun c e he => ?_) ({} : Config)
  obtain ⟨c', hc⟩ := (h e he).exists_sets (hvalues e he) c
  exact ⟨c', decodeEntry_eq_ok_iff.2 hc⟩

/-! ## Documents -/

/-- The document switches a rule off. -/
def SwitchesOff (entries : List (String × Value)) (rule : String) : Prop :=
  ∃ table v, ("rules", .table table) ∈ entries ∧ (rule, v) ∈ table ∧ RuleConfig.Switches v false

theorem isRuleEnabled_eq_false_iff {rule : String} :
    c.isRuleEnabled rule = false ↔
      c.enabled = false ∨ ∃ r, c.rules.get? rule = some r ∧ r.enabled = some false := by
  unfold isRuleEnabled
  cases c.enabled with
  | false => simp
  | true =>
    cases hrule : c.rules.get? rule with
    | none => simp
    | some r =>
      obtain ⟨_ | b⟩ := r
      · simp
      · simp

theorem Tells.enabled_eq_false_iff (h : Tells entries c) :
    c.enabled = false ↔ ("enabled", .boolean false) ∈ entries := by
  constructor
  · intro hfalse
    rcases h.enabled.cases with ⟨v, hv, rfl⟩ | ⟨-, hdefault⟩
    · rwa [hfalse] at hv
    · rw [hfalse] at hdefault
      cases hdefault
  · intro hmem
    have hvalue := h.enabled.1 _ hmem
    cases henabled : c.enabled with
    | false => rfl
    | true =>
      rw [henabled] at hvalue
      cases hvalue

theorem Tells.rule_iff (h : Tells entries c) {rule : String} :
    (∃ r, c.rules.get? rule = some r ∧ r.enabled = some false) ↔ SwitchesOff entries rule := by
  constructor
  · rintro ⟨r, hr, hfalse⟩
    rcases h.rules.cases with ⟨_, hmem, table, rfl, htold⟩ | ⟨-, hdefault⟩
    · rcases (htold rule).cases with ⟨v, hv, r', hr', hswitches⟩ | ⟨-, hnone⟩
      · cases hr.symm.trans hr'
        exact ⟨table, v, hmem, hv, (hswitches false).1 hfalse⟩
      · cases hr.symm.trans hnone
    · rw [hdefault] at hr
      cases hr
  · rintro ⟨table, v, hmem, hv, hswitches⟩
    obtain ⟨_, htable, htold⟩ := h.rules.1 _ hmem
    cases htable
    obtain ⟨r, hr, hiff⟩ := (htold rule).1 v hv
    exact ⟨r, hr, (hiff false).2 hswitches⟩

theorem parse_eq_of_toml {text : String} (h : Toml.parse text = .ok entries) :
    Config.parse text = decode entries := by
  rw [Config.parse, h]
  rfl

/-- A document of TOML is a configuration just when each of its entries may stand in one. What is
read has in each field what is given under its key, or else the default. A rule is off just when it,
or everything, is switched off. -/
theorem parse_accepts_exactly {text : String} (h : Toml.parse text = .ok entries) :
    (Value.table entries).Distinct ∧
    ((∃ c, Config.parse text = .ok c) ↔ ∀ e ∈ entries, Admits e.1 e.2) ∧
    (∀ c, Config.parse text = .ok c →
      Tells entries c ∧
        ∀ rule, c.isRuleEnabled rule = false ↔
          ("enabled", .boolean false) ∈ entries ∨ SwitchesOff entries rule) ∧
    (∀ key v, (key, v) ∈ entries → key ∉ fields → ∃ e, Config.parse text = .error e) ∧
    ∀ table rule es key v, ("rules", .table table) ∈ entries → (rule, .table es) ∈ table →
      (key, v) ∈ es → key ≠ "enabled" → ∃ e, Config.parse text = .error e := by
  have hdistinct := Toml.distinct_of_parse h
  rw [parse_eq_of_toml h]
  cases hdistinct with
  | table hkeys hvalues =>
    have hadmits : ∀ c, decode entries = .ok c → ∀ e ∈ entries, Admits e.1 e.2 := fun c hc =>
      (tells_of_decode hkeys hvalues hc).1
    have hrefused : (¬ ∀ e ∈ entries, Admits e.1 e.2) → ∃ e, decode entries = .error e := by
      intro hnot
      cases hdecode : decode entries with
      | error e => exact ⟨e, rfl⟩
      | ok c => exact absurd (hadmits c hdecode) hnot
    refine ⟨.table hkeys hvalues, ⟨?_, exists_decode hvalues⟩, ?_, ?_, ?_⟩
    · rintro ⟨c, hc⟩
      exact hadmits c hc
    · intro c hc
      have htells := (tells_of_decode hkeys hvalues hc).2
      refine ⟨htells, fun rule => ?_⟩
      rw [isRuleEnabled_eq_false_iff, htells.enabled_eq_false_iff, htells.rule_iff]
    · intro key v hmem hkey
      apply hrefused
      intro hall
      exact hkey (hall _ hmem).mem_fields
    · intro table rule es key v hrules hrule hmem hkey
      apply hrefused
      intro hall
      obtain ⟨_, htable, hall⟩ := (hall _ hrules).rules_of rfl
      cases htable
      cases hall _ hrule with
      | table hes =>
        obtain ⟨b, he⟩ := hes _ hmem
        cases he
        exact hkey rfl

/-- One rule is switched off in the short form, and one is switched on. -/
def switchedText : String :=
  "lang = \"nl\"\nrule_budget_ms = 250\n[rules]\nfirst = [false]\n[rules.second]\nenabled = true\n"

/-- A key that is misspelt. -/
def misspeltText : String := "langauge = \"nl\"\n"

theorem exists_of_map_parse {α : Type} {text : String} {look : List (String × Value) → α} {a : α}
    (h : (Toml.parse text).toOption.map look = some a) :
    ∃ entries, Toml.parse text = .ok entries ∧ look entries = a := by
  cases hparse : Toml.parse text with
  | error e => simp [hparse, Except.toOption] at h
  | ok entries => exact ⟨entries, rfl, by simpa [hparse, Except.toOption] using h⟩

theorem parse_accepts_exactly_switched :
    (∃ entries c, Toml.parse switchedText = .ok entries ∧
      (entries.map fun e => (e.1, e.2.found)) =
        [("lang", .string "nl"), ("rule_budget_ms", .integer 250), ("rules", .map)] ∧
      (∀ e ∈ entries, Admits e.1 e.2) ∧ Config.parse switchedText = .ok c ∧ Tells entries c ∧
      c.lang = some "nl" ∧ SwitchesOff entries "first" ∧ ¬ SwitchesOff entries "second") ∧
    ∃ entries v, Toml.parse misspeltText = .ok entries ∧ ("langauge", v) ∈ entries ∧
      ∃ e, Config.parse misspeltText = .error e := by
  have hlook : ((Toml.parse switchedText).toOption.map fun entries =>
      entries.map fun e => (e.1, e.2.found)) =
        some [("lang", .string "nl"), ("rule_budget_ms", .integer 250), ("rules", .map)] := by
    decide +kernel
  have hmisspelt : ((Toml.parse misspeltText).toOption.map fun entries =>
      entries.map fun e => (e.1, e.2.found)) = some [("langauge", .string "nl")] := by
    decide +kernel
  constructor
  · obtain ⟨entries, hparse, hentries⟩ := exists_of_map_parse hlook
    have hconfig : Config.parse switchedText =
        .ok { lang := some "nl", ruleBudgetMs := some 250,
              rules := .ofList [("first", { enabled := some false }),
                ("second", { enabled := some true })] } := by
      decide +kernel
    obtain ⟨-, haccepts, htells, -, -⟩ := parse_accepts_exactly hparse
    obtain ⟨hfields, hrules⟩ := htells _ hconfig
    have hmissing : ("enabled", Value.boolean false) ∉ entries := by
      intro hmem
      have hfound := List.mem_map_of_mem (f := fun e => (e.1, e.2.found)) hmem
      rw [hentries] at hfound
      revert hfound
      decide
    have hfirst := (hrules "first").1 (by decide)
    have hsecond : ¬ SwitchesOff entries "second" := fun h =>
      absurd ((hrules "second").2 (.inr h)) (by decide)
    exact ⟨entries, _, hparse, hentries, haccepts.1 ⟨_, hconfig⟩, hconfig, hfields, rfl,
      hfirst.resolve_left hmissing, hsecond⟩
  · obtain ⟨entries, hparse, hentries⟩ := exists_of_map_parse hmisspelt
    obtain ⟨e, rfl, he⟩ := List.map_eq_singleton_iff.1 hentries
    obtain ⟨key, v⟩ := e
    obtain ⟨rfl, -⟩ := Prod.mk.inj he
    obtain ⟨-, -, -, hunknown, -⟩ := parse_accepts_exactly hparse
    exact ⟨_, v, hparse, by simp, hunknown "langauge" v (by simp) (by decide)⟩

end Config

end StructureLint
