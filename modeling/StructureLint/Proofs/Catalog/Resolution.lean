import Mathlib.Data.List.Induction
import StructureLint.Proofs.Catalog.RoundTrip
import StructureLint.Proofs.Text.ByteOrder
/-!
# Which messages a catalog resolves to

A catalog is put together language by language, in any order and also with one language several
times. It then answers a language with the message set that was given last for it (`LastGiven`,
`get?_ofList_iff`), and knows the languages that were given at all (`mem_codes_ofList_iff`).
Everything else follows from these two: what `resolve` comes to, when `validate` succeeds, and that
they report the same error (`resolves_last_given`).
-/

namespace StructureLint.Catalog

variable {sets : List (String × Messages)} {lang : String} {m : Messages}

/-- The message set is the last one given for the language. -/
def LastGiven (sets : List (String × Messages)) (lang : String) (m : Messages) : Prop :=
  ∃ before after, sets = before ++ (lang, m) :: after ∧ lang ∉ after.map (·.1)

theorem lastGiven_concat_iff {e : String × Messages} :
    LastGiven (sets ++ [e]) lang m ↔ if e.1 = lang then e.2 = m else LastGiven sets lang m := by
  constructor
  · rintro ⟨before, after, hsets, hafter⟩
    rcases List.eq_nil_or_concat after with rfl | ⟨after, d, rfl⟩
    · obtain ⟨-, he⟩ := List.append_inj' hsets rfl
      cases he
      rw [if_pos rfl]
    · rw [List.concat_eq_append, ← List.cons_append, ← List.append_assoc] at hsets
      obtain ⟨rfl, he⟩ := List.append_inj' hsets rfl
      cases he
      simp only [List.concat_eq_append, List.map_append, List.mem_append, not_or] at hafter
      rw [if_neg fun hlang => hafter.2 (by simp [hlang])]
      exact ⟨before, after, rfl, hafter.1⟩
  · by_cases hlang : e.1 = lang
    · rw [if_pos hlang]
      rintro rfl
      exact ⟨sets, [], by rw [← hlang], by simp⟩
    · rw [if_neg hlang]
      rintro ⟨before, after, rfl, hafter⟩
      refine ⟨before, after ++ [e], by simp, ?_⟩
      simpa [Ne.symm hlang] using hafter

theorem ofList_concat (sets : List (String × Messages)) (e : String × Messages) :
    ofList (sets ++ [e]) = (ofList sets).language e.1 e.2 := by
  simp [ofList]

/-- A language has the messages that were given last for it. -/
theorem get?_ofList_iff : (ofList sets).get? lang = some m ↔ LastGiven sets lang m := by
  induction sets using List.reverseRecOn with
  | nil =>
    constructor
    · intro h
      cases h
    · rintro ⟨before, after, hsets, -⟩
      simp at hsets
  | append_singleton sets e ih =>
    rw [ofList_concat, get?_language, lastGiven_concat_iff]
    split
    · exact Option.some_inj
    · exact ih

theorem mem_codes_iff {c : Catalog} : lang ∈ c.codes ↔ ∃ m, c.get? lang = some m := by
  rw [codes, KeyMap.keys, List.mem_map]
  constructor
  · rintro ⟨⟨k, m⟩, hmem, rfl⟩
    exact ⟨m, KeyMap.mem_entries_iff.1 hmem⟩
  · rintro ⟨m, hm⟩
    exact ⟨(lang, m), KeyMap.mem_entries_iff.2 hm, rfl⟩

/-- Some message set is the last one for every language that was given at all. -/
theorem exists_lastGiven_iff : (∃ m, LastGiven sets lang m) ↔ lang ∈ sets.map (·.1) := by
  induction sets using List.reverseRecOn with
  | nil => simp [LastGiven]
  | append_singleton sets e ih =>
    simp only [lastGiven_concat_iff, List.map_append, List.mem_append]
    by_cases hlang : e.1 = lang
    · simp [hlang]
    · simp [hlang, ih, Ne.symm hlang]

/-- The languages of a catalog are those that were given. -/
theorem mem_codes_ofList_iff : lang ∈ (ofList sets).codes ↔ lang ∈ sets.map (·.1) := by
  simp only [mem_codes_iff, get?_ofList_iff, exists_lastGiven_iff]

/-! ## Resolving -/

section Resolving

variable {c : Catalog} {requested fallback : String} {e : ConfigurationError}

theorem contains_iff : c.contains lang = true ↔ lang ∈ c.codes := by
  rw [mem_codes_iff]
  exact Option.isSome_iff_exists

theorem get?_eq_none_iff : c.get? lang = none ↔ lang ∉ c.codes := by
  simp [mem_codes_iff, Option.eq_none_iff_forall_ne_some]

theorem validate_eq_ok_iff : c.validate fallback = .ok () ↔ fallback ∈ c.codes := by
  rw [← contains_iff, validate]
  by_cases h : c.contains fallback = true <;> simp [h]

theorem validate_eq_error_iff : c.validate fallback = .error e ↔ fallback ∉ c.codes ∧
    e = { rule := none, defaultLang := fallback, available := ", ".intercalate c.codes } := by
  rw [← contains_iff, validate]
  by_cases h : c.contains fallback = true
  · simp [h]
  · rw [if_neg h, and_iff_right h, Except.error.injEq]
    exact eq_comm

theorem resolve_eq_ok_iff : c.resolve requested fallback = .ok m ↔
    c.get? requested = some m ∨ requested ∉ c.codes ∧ c.get? fallback = some m := by
  rw [← get?_eq_none_iff]
  unfold resolve
  cases c.get? requested with
  | some found => simp
  | none => cases c.get? fallback <;> simp

/-- Resolving fails just when the language asked for is missing and the default language is not
valid, and then with the same error. -/
theorem resolve_eq_error_iff : c.resolve requested fallback = .error e ↔
    requested ∉ c.codes ∧ c.validate fallback = .error e := by
  rw [validate_eq_error_iff, ← get?_eq_none_iff, ← get?_eq_none_iff]
  unfold resolve
  cases c.get? requested with
  | some found => simp
  | none =>
    cases c.get? fallback with
    | some found => simp
    | none =>
      simp only [Except.error.injEq, true_and]
      exact eq_comm

/-- A default language is valid just when it takes the place of every language that is missing. -/
theorem validate_eq_ok_iff_resolves : c.validate fallback = .ok () ↔
    ∀ requested, ∃ m, c.resolve requested fallback = .ok m := by
  rw [validate_eq_ok_iff, mem_codes_iff]
  constructor
  · rintro ⟨d, hd⟩ requested
    cases hm : c.get? requested with
    | some m => exact ⟨m, resolve_eq_ok_iff.2 (.inl hm)⟩
    | none => exact ⟨d, resolve_eq_ok_iff.2 (.inr ⟨get?_eq_none_iff.1 hm, hd⟩)⟩
  · intro h
    obtain ⟨m, hm⟩ := h fallback
    rcases resolve_eq_ok_iff.1 hm with hm | ⟨-, hm⟩
    · exact ⟨m, hm⟩
    · exact ⟨m, hm⟩

end Resolving

/-- A language resolves to the message set given last for it, else to the one given last for the
default language, else to an error that lists the languages by their bytes. Every language resolves
just when the default language is valid. -/
theorem resolves_last_given (sets : List (String × Messages)) :
    (ofList sets).codes.Pairwise (fun a b => List.Lex (· < ·) (Text.bytes a) (Text.bytes b)) ∧
    (∀ lang, lang ∈ (ofList sets).codes ↔ lang ∈ sets.map (·.1)) ∧
    (∀ requested fallback m, (ofList sets).resolve requested fallback = .ok m ↔
      LastGiven sets requested m ∨ requested ∉ sets.map (·.1) ∧ LastGiven sets fallback m) ∧
    (∀ requested fallback e, (ofList sets).resolve requested fallback = .error e ↔
      requested ∉ sets.map (·.1) ∧ fallback ∉ sets.map (·.1) ∧
        e = { rule := none, defaultLang := fallback,
              available := ", ".intercalate (ofList sets).codes }) ∧
    (∀ fallback, (ofList sets).validate fallback = .ok () ↔ fallback ∈ sets.map (·.1)) ∧
    (∀ fallback, (ofList sets).validate fallback = .ok () ↔
      ∀ requested, ∃ m, (ofList sets).resolve requested fallback = .ok m) ∧
    ∀ requested fallback e, (ofList sets).resolve requested fallback = .error e ↔
      requested ∉ sets.map (·.1) ∧ (ofList sets).validate fallback = .error e := by
  refine ⟨?_, fun _ => mem_codes_ofList_iff, fun requested fallback m => ?_,
    fun requested fallback e => ?_, fun fallback => ?_, fun _ => validate_eq_ok_iff_resolves,
    fun requested fallback e => ?_⟩
  · exact (ofList sets).languages.keys_sorted.imp Text.lt_iff_bytes_lex.1
  · rw [resolve_eq_ok_iff, get?_ofList_iff, get?_ofList_iff, mem_codes_ofList_iff]
  · rw [resolve_eq_error_iff, validate_eq_error_iff, mem_codes_ofList_iff, mem_codes_ofList_iff]
  · rw [validate_eq_ok_iff, mem_codes_ofList_iff]
  · rw [resolve_eq_error_iff, mem_codes_ofList_iff]

/-- The Dutch messages are given twice, and languages are not given in their order. -/
example : (ofList [("nl", { description := "oud", howToFix := "" }),
      ("en", { description := "new", howToFix := "" }),
      ("nl", { description := "nieuw", howToFix := "" })]).resolve "nl" "fr" =
    .ok { description := "nieuw", howToFix := "" } := by
  decide +kernel

end StructureLint.Catalog
