import StructureLint.Catalog.Json
import StructureLint.Catalog.Toml
import StructureLint.Proofs.Json.Written
/-!
# Catalogs that are kept as JSON

As JSON, the further texts of a message set stand next to its fields, under keys of their own. A
catalog is read back from its JSON just when none of these keys names a field (`Plain`).

That such a catalog is read back follows its members through `Draft.add` (`decodeJson_reading`).
Every other catalog is not, because nothing that is read has a further text under the key of a
field: what goes by such a key becomes the field or an error (`Draft.Plain.add`). This holds of any
text, of TOML as well, so that whatever was read once can be kept as JSON.
-/

namespace StructureLint

open Json (Reading reading memberReadings)

/-- The keys that name a field. -/
def Messages.fieldKeys : List String :=
  ["description", "howToFix", "how_to_fix", "help"]

/-- No further text goes by a key that names a field. -/
def Messages.Plain (m : Messages) : Prop :=
  ∀ key ∈ fieldKeys, m.extra.get? key = none

/-- All message sets are plain. -/
def Catalog.Plain (c : Catalog) : Prop :=
  ∀ lang m, c.get? lang = some m → m.Plain

/-! ## What is read is plain -/

section Results

variable {ε α β σ : Type}

theorem bind_eq_ok_iff {x : Except ε α} {f : α → Except ε β} {b : β} :
    (x >>= f) = .ok b ↔ ∃ a, x = .ok a ∧ f a = .ok b := by
  constructor
  · intro h
    cases x with
    | error e => cases h
    | ok a => exact ⟨a, rfl, h⟩
  · rintro ⟨a, rfl, h⟩
    exact h

/-- What every step preserves holds after all of them. -/
theorem foldlM_preserves {P : σ → Prop} {f : σ → α → Except ε σ} {as : List α}
    (hf : ∀ s, ∀ a ∈ as, ∀ t, P s → f s a = .ok t → P t) {s t : σ} (hs : P s)
    (h : as.foldlM f s = .ok t) : P t := by
  induction as generalizing s with
  | nil =>
    cases h
    exact hs
  | cons a as ih =>
    rw [List.foldlM_cons] at h
    obtain ⟨u, hu, h⟩ := bind_eq_ok_iff.1 h
    exact ih (fun s b hb => hf s b (by simp [hb])) (hf s a (by simp) u hs hu) h

end Results

namespace Messages

theorem ofKey?_eq_none_iff {key : String} : Field.ofKey? key = none ↔ key ∉ fieldKeys := by
  unfold Field.ofKey? fieldKeys
  grind

/-- The further fields of a draft go by keys that name no field. -/
def Draft.Plain (d : Draft) : Prop :=
  ∀ e ∈ d.others, e.1 ∉ fieldKeys

theorem Draft.Plain.add {d d' : Draft} {key : String} {v : FieldValue} (hd : d.Plain)
    (h : d.add key v = .ok d') : d'.Plain := by
  unfold Draft.add at h
  split at h
  · rename_i hkey
    obtain ⟨c, -, h⟩ := bind_eq_ok_iff.1 h
    cases h
    intro e he
    rcases List.mem_append.1 he with he | he
    · exact hd e he
    · cases List.mem_singleton.1 he
      exact ofKey?_eq_none_iff.1 hkey
  · -- A field is filled, and the further ones stay as they are.
    suffices hothers : d'.others = d.others by rwa [Draft.Plain, hothers]
    split at h
    · cases h
    · split at h
      all_goals
        obtain ⟨c, -, h⟩ := bind_eq_ok_iff.1 h
        obtain ⟨s, -, h⟩ := bind_eq_ok_iff.1 h
        cases h
        rfl

theorem collectExtra_get? {others : List (String × Content)} {extra : KeyMap String}
    (h : collectExtra others = .ok extra) {key : String} (hkey : ∀ e ∈ others, e.1 ≠ key) :
    extra.get? key = none := by
  refine foldlM_preserves (P := fun m => m.get? key = none) (fun m e he n hm hn => ?_) rfl h
  obtain ⟨text, -, hn⟩ := bind_eq_ok_iff.1 hn
  cases hn
  rw [KeyMap.get?_insert, if_neg (hkey e he), hm]

theorem Draft.Plain.finish {d : Draft} {m : Messages} (hd : d.Plain) (h : d.finish = .ok m) :
    m.Plain := by
  unfold Draft.finish at h
  split at h
  · cases h
  · cases h
  · obtain ⟨extra, hextra, h⟩ := bind_eq_ok_iff.1 h
    cases h
    exact fun key hkey => collectExtra_get? hextra fun e he hek => hd e he (hek ▸ hkey)

theorem plain_ofFields {fields : List (String × FieldValue)} {complete : Bool} {m : Messages}
    (h : ofFields fields complete = .ok m) : m.Plain := by
  unfold ofFields at h
  obtain ⟨d, hd, h⟩ := bind_eq_ok_iff.1 h
  have hplain : d.Plain := foldlM_preserves (P := Draft.Plain) (fun _ _ _ _ hs => hs.add)
    (fun e he => by cases he) hd
  split at h
  · exact hplain.finish h
  · cases h

theorem plain_decodeJson {room : Nat} {v : Reading} {m : Messages}
    (h : decodeJson room v = .ok m) : m.Plain := by
  cases v with
  | object members closed =>
    rw [decodeJson] at h
    split at h
    · cases h
    · exact plain_ofFields h
  | _ => cases h

theorem plain_decodeToml {v : Toml.Value} {m : Messages} (h : decodeToml v = .ok m) :
    m.Plain := by
  unfold decodeToml at h
  split at h
  · cases h
  · exact plain_ofFields h

end Messages

namespace Catalog

theorem get?_language (c : Catalog) (lang : String) (m : Messages) (k : String) :
    (c.language lang m).get? k = if lang = k then some m else c.get? k :=
  KeyMap.get?_insert ..

theorem plain_empty : empty.Plain :=
  fun _ _ h => by cases h

theorem Plain.language {c : Catalog} {m : Messages} (hc : c.Plain) (hm : m.Plain)
    (lang : String) : (c.language lang m).Plain := by
  intro k n h
  rw [get?_language] at h
  split at h
  · cases h
    exact hm
  · exact hc k n h

theorem plain_decodeLanguages {room : Nat} {ms : List (String × Reading)} {c c' : Catalog}
    (hc : c.Plain) (h : decodeLanguages room c ms = .ok c') : c'.Plain := by
  induction ms generalizing c with
  | nil =>
    cases h
    exact hc
  | cons m ms ih =>
    unfold decodeLanguages at h
    split at h
    · cases h
    · rename_i hm
      exact ih (hc.language (Messages.plain_decodeJson hm) _) h

theorem plain_decodeJson {room : Nat} {v : Reading} {c : Catalog}
    (h : decodeJson room v = .ok c) : c.Plain := by
  cases v with
  | object members closed =>
    rw [decodeJson] at h
    split at h
    · cases h
    · split at h
      · cases h
      · rename_i hms
        split at h
        · cases h
          exact plain_decodeLanguages plain_empty hms
        · cases h
  | _ => cases h

theorem plain_ofJson {text : String} {c : Catalog} (h : ofJson text = .ok c) : c.Plain := by
  rw [ofJson, Json.readWith] at h
  split at h
  · cases h
  · rename_i hc
    split at h
    · cases h
      exact plain_decodeJson hc
    · cases h

theorem plain_ofToml {text : String} {c : Catalog} (h : ofToml text = .ok c) : c.Plain := by
  obtain ⟨entries, -, h⟩ := bind_eq_ok_iff.1 h
  refine foldlM_preserves (P := Plain) (fun c e _ c' hc hc' => ?_) plain_empty h
  cases hm : Messages.decodeToml e.2 with
  | error e => simp [hm, Except.map] at hc'
  | ok m =>
    rw [hm] at hc'
    cases hc'
    exact hc.language (Messages.plain_decodeToml hm) e.1

end Catalog

/-! ## What is plain is read back -/

namespace Messages

/-- The members of a message set, all of which are texts. -/
def texts (m : Messages) : List (String × String) :=
  [("description", m.description), ("howToFix", m.howToFix)]
    ++ (m.help.toList.map fun h => ("help", h)) ++ m.extra.entries

theorem toJson_eq (m : Messages) :
    m.toJson = .object (m.texts.map fun e => (e.1, .string e.2)) := by
  cases h : m.help <;> simp [toJson, texts, h]

/-- A text as the value of a field. -/
def FieldValue.ofText (s : String) : FieldValue :=
  ⟨.ok (.text s), .ok (.text s)⟩

theorem fieldValue_string (room : Nat) (s : String) :
    fieldValue room (reading (.string s)) = FieldValue.ofText s := by
  cases room <;> rfl

theorem decodeJson_toJson (room : Nat) (m : Messages) :
    decodeJson (room + 1) (reading m.toJson) =
      ofFields (m.texts.map fun e => (e.1, .ofText e.2)) true := by
  rw [toJson_eq, reading, decodeJson, if_neg (Nat.succ_ne_zero room), Json.named_memberReadings,
    Json.complete_memberReadings]
  simp [Function.comp_def, fieldValue_string]

/-- Further texts are added after the others. -/
theorem foldlM_add_others {es : List (String × String)} (hes : ∀ e ∈ es, e.1 ∉ fieldKeys)
    (d : Draft) :
    (es.map fun e => (e.1, FieldValue.ofText e.2)).foldlM (fun d e => d.add e.1 e.2) d =
      .ok { d with others := d.others ++ es.map fun e => (e.1, .text e.2) } := by
  induction es generalizing d with
  | nil =>
    simp
    rfl
  | cons e es ih =>
    have hadd : d.add e.1 (FieldValue.ofText e.2) =
        .ok { d with others := d.others ++ [(e.1, .text e.2)] } := by
      rw [Draft.add, ofKey?_eq_none_iff.2 (hes e (by simp))]
      rfl
    rw [List.map_cons, List.foldlM_cons, hadd]
    refine (ih (fun f hf => hes f (by simp [hf])) _).trans ?_
    simp

theorem foldlM_insert_texts (es : List (String × String)) (m : KeyMap String) :
    (es.map fun e => (e.1, Content.text e.2)).foldlM
        (fun m e => (do return m.insert e.1 (← e.2.asText) : Except ReadError (KeyMap String))) m =
      .ok (es.foldl (fun m e => m.insert e.1 e.2) m) := by
  induction es generalizing m with
  | nil => rfl
  | cons e es ih => exact ih _

theorem collectExtra_texts (m : KeyMap String) :
    collectExtra (m.entries.map fun e => (e.1, .text e.2)) = .ok m :=
  (foldlM_insert_texts m.entries ∅).trans (congrArg _ m.ofList_entries)

/-- The fields come first, and none of them is there before. -/
theorem foldlM_add_fields (description howToFix : String) (help : Option String) :
    (([("description", description), ("howToFix", howToFix)]
        ++ help.toList.map fun h => ("help", h)).map
          fun e => (e.1, FieldValue.ofText e.2)).foldlM (fun d e => d.add e.1 e.2) ({} : Draft) =
      .ok { description := some description, howToFix := some howToFix,
            help := help.map some } := by
  cases help <;> rfl

theorem ofFields_texts {m : Messages} (hm : m.Plain) :
    ofFields (m.texts.map fun e => (e.1, .ofText e.2)) true = .ok m := by
  have hextra : ∀ e ∈ m.extra.entries, e.1 ∉ fieldKeys := fun e he hkey => by
    have hnone := hm e.1 hkey
    rw [KeyMap.mem_entries_iff.1 he] at hnone
    cases hnone
  have hfold : (m.texts.map fun e => (e.1, FieldValue.ofText e.2)).foldlM
      (fun d e => d.add e.1 e.2) ({} : Draft) =
        .ok { description := some m.description, howToFix := some m.howToFix,
              help := m.help.map some
              others := m.extra.entries.map fun e => (e.1, .text e.2) } := by
    rw [texts, List.map_append, List.foldlM_append, foldlM_add_fields]
    exact foldlM_add_others hextra _
  have hhelp : (m.help.map some).getD none = m.help := by cases m.help <;> rfl
  refine bind_eq_ok_iff.2 ⟨_, hfold, ?_⟩
  rw [if_pos rfl]
  refine bind_eq_ok_iff.2 ⟨m.extra, collectExtra_texts m.extra, ?_⟩
  rw [hhelp]
  rfl

end Messages

namespace Catalog

theorem decodeLanguages_readings (room : Nat) {sets : List (String × Messages)}
    (h : ∀ e ∈ sets, e.2.Plain) (c : Catalog) :
    decodeLanguages (room + 1) c (sets.map fun e => (e.1, reading e.2.toJson)) =
      .ok (sets.foldl (fun c e => c.language e.1 e.2) c) := by
  induction sets generalizing c with
  | nil => rfl
  | cons e sets ih =>
    rw [List.map_cons, decodeLanguages, Messages.decodeJson_toJson,
      Messages.ofFields_texts (h e (by simp))]
    exact ih (fun f hf => h f (by simp [hf])) _

/-- A catalog is what its own message sets make up. -/
theorem ofList_entries (c : Catalog) : ofList c.languages.entries = c := by
  have hlanguages : ∀ (sets : List (String × Messages)) (c : Catalog),
      (sets.foldl (fun c e => c.language e.1 e.2) c).languages =
        sets.foldl (fun m e => m.insert e.1 e.2) c.languages := by
    intro sets
    induction sets with
    | nil => exact fun _ => rfl
    | cons e sets ih => exact fun c => ih _
  have hmap : (ofList c.languages.entries).languages = c.languages :=
    (hlanguages _ _).trans c.languages.ofList_entries
  cases c
  exact congrArg Catalog.mk hmap

theorem decodeJson_reading (room : Nat) {c : Catalog} (hc : c.Plain) :
    decodeJson (room + 2) (reading c.toJson) = .ok c := by
  have hsets : ∀ e ∈ c.languages.entries, e.2.Plain := fun e he =>
    hc e.1 e.2 (KeyMap.mem_entries_iff.1 he)
  have hnamed :
      Reading.named (memberReadings (c.languages.entries.map fun e => (e.1, e.2.toJson))) =
        c.languages.entries.map fun e => (e.1, reading e.2.toJson) := by
    rw [Json.named_memberReadings, List.map_map]
    rfl
  rw [toJson, reading, decodeJson, if_neg (Nat.succ_ne_zero _), hnamed,
    Json.complete_memberReadings]
  simp only [Nat.add_one_sub_one, decodeLanguages_readings room hsets, if_true]
  exact congrArg _ c.ofList_entries

theorem ofJson_toJson {c : Catalog} (hc : c.Plain) : ofJson c.toJson.compact = .ok c := by
  rw [ofJson, Json.readWith, Json.scan_compact]
  simp only [Reading.maxNesting, decodeJson_reading 125 hc, if_true]

/-- A catalog is read back from its JSON just when no message set has a further text under the key
of a field. This holds of every catalog that is read from a text, so all of these are read back. -/
theorem json_round_trip :
    (∀ c : Catalog, ofJson c.toJson.compact = .ok c ↔
      ∀ lang m, c.get? lang = some m →
        ∀ key ∈ ["description", "howToFix", "how_to_fix", "help"], m.extra.get? key = none) ∧
    ∀ (text : String) (c : Catalog), ofJson text = .ok c ∨ ofToml text = .ok c →
      (∀ lang m, c.get? lang = some m →
        ∀ key ∈ ["description", "howToFix", "how_to_fix", "help"], m.extra.get? key = none) ∧
      ofJson c.toJson.compact = .ok c := by
  refine ⟨fun c => ⟨plain_ofJson, ofJson_toJson⟩, fun text c h => ?_⟩
  have hc : c.Plain := h.elim plain_ofJson plain_ofToml
  exact ⟨hc, ofJson_toJson hc⟩

/-- Messages in one language, with one further text. -/
def noted (help : Option String) (key : String) : Catalog :=
  ofList [("nl", { description := "kop", howToFix := "voeg toe", help,
                   extra := .ofList [(key, "streng")] })]

/-- A table of messages with a further text. -/
def notedText : String :=
  "[nl]\ndescription = \"kop\"\nhow_to_fix = \"voeg toe\"\nlevel = \"streng\"\n"

theorem json_round_trip_noted :
    ofToml notedText = .ok (noted none "level") ∧
      ofJson (noted none "level").toJson.compact = .ok (noted none "level") ∧
      ofJson (noted none "help").toJson.compact ≠ .ok (noted none "help") ∧
      ofJson (noted (some "console") "how_to_fix").toJson.compact ≠
        .ok (noted (some "console") "how_to_fix") := by
  have hsome : (ofToml notedText).toOption = some (noted none "level") := by decide +kernel
  have hread : ofToml notedText = .ok (noted none "level") := by
    cases h : ofToml notedText with
    | error e =>
      rw [h] at hsome
      cases hsome
    | ok c =>
      rw [h] at hsome
      cases hsome
      rfl
  have hlost : ∀ help, ∀ key ∈ ["description", "howToFix", "how_to_fix", "help"],
      ofJson (noted help key).toJson.compact ≠ .ok (noted help key) := by
    intro help key hkey h
    have hnone := (json_round_trip.1 _).1 h "nl" _ rfl key hkey
    simp [KeyMap.ofList, KeyMap.get?_insert] at hnone
  exact ⟨hread, (json_round_trip.2 _ _ (.inr hread)).2, hlost _ _ (by decide),
    hlost _ _ (by decide)⟩

end Catalog

end StructureLint
