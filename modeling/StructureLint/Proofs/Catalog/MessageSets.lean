import Mathlib.Data.List.Forall2
import Mathlib.Data.List.Induction
import StructureLint.Proofs.Catalog.RoundTrip
/-!
# Which tables are message sets

To a message set a value is a text, or null, or something else (`Given`), in TOML as in JSON. So a
table of either format is a list of keys with such values (`tomlTable?`, `jsonTable?`). It is read
just when it is `Acceptable`, and what is read is what it `Tells` (`decodeToml_eq_ok_iff`,
`decodeJson_eq_ok_iff`).

The entries are read one by one. Those that have been read determine the draft (`Drafted`), and the
next one is refused just when no table that begins so is acceptable.
-/

namespace StructureLint

open Json (Reading)

/-! ## Entries of tables -/

section Entries

variable {α : Type} {keys : List String} {es ds : List (String × α)}

/-- What stands under any of the keys, in order. -/
def valuesUnder (keys : List String) (es : List (String × α)) : List α :=
  (es.filter fun e => e.1 ∈ keys).map (·.2)

theorem valuesUnder_append : valuesUnder keys (es ++ ds) =
    valuesUnder keys es ++ valuesUnder keys ds := by
  simp [valuesUnder]

theorem valuesUnder_cons (key : String) (a : α) : valuesUnder keys ((key, a) :: es) =
    if key ∈ keys then a :: valuesUnder keys es else valuesUnder keys es := by
  by_cases h : key ∈ keys <;> simp [valuesUnder, h]

theorem mem_valuesUnder {a : α} : a ∈ valuesUnder keys es ↔ ∃ key ∈ keys, (key, a) ∈ es := by
  simp [valuesUnder, and_comm]

/-- Entries under other keys do not count. -/
theorem valuesUnder_filter {p : String → Bool} (hp : ∀ key ∈ keys, p key = true) :
    valuesUnder keys (es.filter fun e => p e.1) = valuesUnder keys es := by
  rw [valuesUnder, List.filter_filter, valuesUnder]
  refine congrArg _ (List.filter_congr fun e _ => ?_)
  by_cases h : e.1 ∈ keys
  · simp [h, hp]
  · simp [h]

theorem getLast?_valuesUnder_concat (key lang : String) (a : α) :
    (valuesUnder [lang] (es ++ [(key, a)])).getLast? =
      if key = lang then some a else (valuesUnder [lang] es).getLast? := by
  rw [valuesUnder_append, valuesUnder_cons]
  by_cases h : key = lang <;> simp [h, valuesUnder]

end Entries

namespace Messages

/-! ## What a table tells -/

/-- What a value is to a message set. -/
inductive Given where
  | text (s : String)
  | null
  | other
deriving DecidableEq, Repr

/-- The table is a message set: it has a description and advice, each once and as a text, at most
one help, which is a text or null, and nothing but texts otherwise. -/
structure Acceptable (fields : List (String × Given)) : Prop where
  description : ∃ s, valuesUnder ["description"] fields = [.text s]
  howToFix : ∃ s, valuesUnder ["howToFix", "how_to_fix"] fields = [.text s]
  help : valuesUnder ["help"] fields = [] ∨ valuesUnder ["help"] fields = [.null] ∨
    ∃ s, valuesUnder ["help"] fields = [.text s]
  others : ∀ e ∈ fields, e.1 ∉ fieldKeys → ∃ s, e.2 = .text s

/-- The messages that a table tells. The last text counts for a further key. -/
structure Tells (fields : List (String × Given)) (m : Messages) : Prop where
  description : valuesUnder ["description"] fields = [.text m.description]
  howToFix : valuesUnder ["howToFix", "how_to_fix"] fields = [.text m.howToFix]
  help : ∀ s, m.help = some s ↔ valuesUnder ["help"] fields = [.text s]
  extra : ∀ key s, m.extra.get? key = some s ↔
    key ∉ fieldKeys ∧ (valuesUnder [key] fields).getLast? = some (.text s)

/-- A table tells one message set. -/
theorem Tells.unique {fields : List (String × Given)} {m n : Messages} (hm : Tells fields m)
    (hn : Tells fields n) : m = n := by
  have hdescription : m.description = n.description := by
    simpa using hm.description.symm.trans hn.description
  have hfix : m.howToFix = n.howToFix := by
    simpa using hm.howToFix.symm.trans hn.howToFix
  have hhelp : m.help = n.help := Option.ext fun s => (hm.help s).trans (hn.help s).symm
  have hextra : m.extra = n.extra :=
    KeyMap.ext_get? fun key => Option.ext fun s => (hm.extra key s).trans (hn.extra key s).symm
  obtain ⟨_, _, _, _⟩ := m
  obtain ⟨_, _, _, _⟩ := n
  cases hdescription
  cases hfix
  cases hhelp
  cases hextra
  rfl

/-! ## Values -/

/-- What a content is to a message set. -/
def Content.given : Content → Given
  | .text s => .text s
  | .null => .null
  | .other _ => .other

/-- A help text, or null. -/
def Given.ofHelp : Option String → Given
  | none => .null
  | some s => .text s

theorem asText_eq_ok_iff {c : Content} {s : String} : c.asText = .ok s ↔ c.given = .text s := by
  cases c <;> simp [Content.asText, Content.given]

theorem asOptionalText_eq_ok_iff {c : Content} {o : Option String} :
    c.asOptionalText = .ok o ↔ c.given = Given.ofHelp o := by
  cases c <;> cases o <;>
    simp [Content.asOptionalText, Content.asText, Content.given, Given.ofHelp, Except.map]

/-- The value of a field shows itself, if at all, as what it is; texts and null do. -/
structure Shows (v : FieldValue) (g : Given) : Prop where
  atFirst : ∀ c, v.atFirst = .ok c → c.given = g
  inFull : ∀ c, v.inFull = .ok c → c.given = g
  present : g ≠ .other → (∃ c, v.atFirst = .ok c) ∧ ∃ c, v.inFull = .ok c

/-! ## Fields -/

/-- The keys of a field. -/
def Field.keys : Field → List String
  | .description => ["description"]
  | .howToFix => ["howToFix", "how_to_fix"]
  | .help => ["help"]

/-- What a field may be. -/
def Field.Admits : Field → Given → Prop
  | .help, g => ∃ o, g = Given.ofHelp o
  | _, g => ∃ s, g = .text s

theorem ofKey?_eq_some_iff {key : String} {f : Field} :
    Field.ofKey? key = some f ↔ key ∈ f.keys := by
  unfold Field.ofKey?
  cases f <;> simp only [Field.keys] <;> grind

theorem keys_subset {f : Field} {key : String} (h : key ∈ f.keys) : key ∈ fieldKeys := by
  cases f <;> simp only [Field.keys, fieldKeys] at h ⊢ <;> grind

/-- What a draft has for a field. -/
def Draft.given (d : Draft) : Field → List Given
  | .description => d.description.toList.map .text
  | .howToFix => d.howToFix.toList.map .text
  | .help => d.help.toList.map Given.ofHelp

theorem hasField_eq_false_iff {d : Draft} {f : Field} :
    d.hasField f = false ↔ d.given f = [] := by
  cases f <;> simp [Draft.hasField, Draft.given]

/-- Each field is there once at most, as what it may be. -/
theorem Acceptable.field {fields : List (String × Given)} (h : Acceptable fields) (f : Field) :
    valuesUnder f.keys fields = [] ∨ ∃ g, valuesUnder f.keys fields = [g] ∧ f.Admits g := by
  cases f with
  | description =>
    obtain ⟨s, hs⟩ := h.description
    exact .inr ⟨_, hs, s, rfl⟩
  | howToFix =>
    obtain ⟨s, hs⟩ := h.howToFix
    exact .inr ⟨_, hs, s, rfl⟩
  | help =>
    rcases h.help with hnone | hnull | ⟨s, hs⟩
    · exact .inl hnone
    · exact .inr ⟨_, hnull, none, rfl⟩
    · exact .inr ⟨_, hs, some s, rfl⟩

/-! ## One entry -/

variable {d d' : Draft} {key : String} {v : FieldValue} {g : Given} {f : Field}

/-- A field that is read was not there before, and nothing else changes. -/
theorem given_add (hf : Field.ofKey? key = some f) (hv : Shows v g)
    (h : d.add key v = .ok d') :
    d.given f = [] ∧ d'.given f = [g] ∧ (∀ f', f' ≠ f → d'.given f' = d.given f') ∧
      d'.others = d.others := by
  simp only [Draft.add, hf] at h
  split at h
  · cases h
  · rename_i hnew
    refine ⟨hasField_eq_false_iff.1 (Bool.eq_false_iff.2 hnew), ?_⟩
    cases f
    all_goals
      obtain ⟨c, hc, h⟩ := bind_eq_ok_iff.1 h
      obtain ⟨s, hs, h⟩ := bind_eq_ok_iff.1 h
      cases h
      have hg := hv.atFirst c hc
      refine ⟨?_, fun f' hf' => by cases f' <;> first | rfl | exact absurd rfl hf', rfl⟩
    · simp [Draft.given, ← hg, asText_eq_ok_iff.1 hs]
    · simp [Draft.given, ← hg, asText_eq_ok_iff.1 hs]
    · simp [Draft.given, ← hg, asOptionalText_eq_ok_iff.1 hs]

/-- A field that is new and what it may be is read. -/
theorem exists_add_field (hf : Field.ofKey? key = some f) (hv : Shows v g) (hnew : d.given f = [])
    (hadmits : f.Admits g) : ∃ d', d.add key v = .ok d' := by
  have hpresent : g ≠ .other := by
    rintro rfl
    cases f with
    | help =>
      obtain ⟨o, ho⟩ := hadmits
      cases o <;> cases ho
    | _ =>
      obtain ⟨s, hs⟩ := hadmits
      cases hs
  obtain ⟨c, hc⟩ := (hv.present hpresent).1
  have hg := hv.atFirst c hc
  simp only [Draft.add, hf, hasField_eq_false_iff.2 hnew]
  cases f with
  | help =>
    obtain ⟨o, ho⟩ := hadmits
    exact ⟨_, bind_eq_ok_iff.2 ⟨c, hc, bind_eq_ok_iff.2
      ⟨o, asOptionalText_eq_ok_iff.2 (hg.trans ho), rfl⟩⟩⟩
  | _ =>
    obtain ⟨s, hs⟩ := hadmits
    exact ⟨_, bind_eq_ok_iff.2 ⟨c, hc, bind_eq_ok_iff.2
      ⟨s, asText_eq_ok_iff.2 (hg.trans hs), rfl⟩⟩⟩

/-- The entries read make up the draft. -/
structure Drafted (read : List (String × Given)) (d : Draft) : Prop where
  fields : ∀ f : Field, valuesUnder f.keys read = d.given f
  others : d.others.map (fun e => (e.1, e.2.given)) = read.filter fun e => e.1 ∉ fieldKeys

theorem Drafted.add {read : List (String × Given)} (hd : Drafted read d) (hv : Shows v g)
    (h : d.add key v = .ok d') : Drafted (read ++ [(key, g)]) d' := by
  have hvalues : ∀ f' : Field, valuesUnder f'.keys (read ++ [(key, g)]) =
      d.given f' ++ if key ∈ f'.keys then [g] else [] := fun f' => by
    rw [valuesUnder_append, valuesUnder_cons, hd.fields]
    rfl
  cases hf : Field.ofKey? key with
  | none =>
    simp only [Draft.add, hf] at h
    obtain ⟨c, hc, h⟩ := bind_eq_ok_iff.1 h
    cases h
    have hkey := ofKey?_eq_none_iff.1 hf
    constructor
    · intro f'
      rw [hvalues, if_neg fun hmem => hkey (keys_subset hmem), List.append_nil]
      rfl
    · simp [hd.others, hkey, hv.inFull c hc]
  | some f =>
    obtain ⟨hnew, hthis, hrest, hothers⟩ := given_add hf hv h
    constructor
    · intro f'
      rw [hvalues]
      by_cases hff : f' = f
      · rw [hff, hnew, hthis, if_pos (ofKey?_eq_some_iff.1 hf)]
        rfl
      · have hnot : key ∉ f'.keys := fun hmem =>
          hff (Option.some.inj ((ofKey?_eq_some_iff.2 hmem).symm.trans hf))
        rw [if_neg hnot, List.append_nil, hrest f' hff]
    · have hkey : key ∈ fieldKeys := keys_subset (ofKey?_eq_some_iff.1 hf)
      simp [hothers, hd.others, hkey]

/-- Where the table goes on so that it is acceptable, the next entry is read. -/
theorem Drafted.exists_add {read rest : List (String × Given)} (hd : Drafted read d)
    (hv : Shows v g) (hacceptable : Acceptable (read ++ (key, g) :: rest)) :
    ∃ d', d.add key v = .ok d' := by
  cases hf : Field.ofKey? key with
  | none =>
    obtain ⟨s, hs⟩ := hacceptable.others (key, g) (by simp) (ofKey?_eq_none_iff.1 hf)
    have hg : g = .text s := hs
    obtain ⟨c, hc⟩ := (hv.present (by simp [hg])).2
    simp only [Draft.add, hf]
    exact ⟨_, bind_eq_ok_iff.2 ⟨c, hc, rfl⟩⟩
  | some f =>
    -- The field stands here, so it cannot stand before.
    have hvalues : valuesUnder f.keys (read ++ (key, g) :: rest) =
        d.given f ++ g :: valuesUnder f.keys rest := by
      rw [valuesUnder_append, hd.fields, valuesUnder_cons, if_pos (ofKey?_eq_some_iff.1 hf)]
    rcases hacceptable.field f with hnone | ⟨g', hg', hadmits⟩
    · simp [hvalues] at hnone
    · rw [hvalues, List.append_eq_singleton_iff] at hg'
      rcases hg' with ⟨hnew, hg'⟩ | ⟨-, hg'⟩
      · exact exists_add_field hf hv hnew ((List.cons.inj hg').1 ▸ hadmits)
      · cases hg'

/-! ## All entries -/

/-- The values of fields show the entries of a table. -/
abbrev ShowAll : List (String × FieldValue) → List (String × Given) → Prop :=
  List.Forall₂ fun e t => e.1 = t.1 ∧ Shows e.2 t.2

theorem Drafted.foldlM {vs : List (String × FieldValue)} {ts read : List (String × Given)}
    (h : ShowAll vs ts) (hd : Drafted read d)
    (hfold : vs.foldlM (fun d e => d.add e.1 e.2) d = .ok d') : Drafted (read ++ ts) d' := by
  induction h generalizing read d with
  | nil =>
    cases hfold
    simpa using hd
  | @cons e t vs ts he _ ih =>
    rw [List.foldlM_cons] at hfold
    obtain ⟨u, hu, hfold⟩ := bind_eq_ok_iff.1 hfold
    rw [he.1] at hu
    simpa using ih (hd.add he.2 hu) hfold

theorem Drafted.exists_foldlM {vs : List (String × FieldValue)}
    {ts read : List (String × Given)} (h : ShowAll vs ts) (hd : Drafted read d)
    (hacceptable : Acceptable (read ++ ts)) :
    ∃ d', vs.foldlM (fun d e => d.add e.1 e.2) d = .ok d' := by
  induction h generalizing read d with
  | nil => exact ⟨d, rfl⟩
  | @cons e t vs ts he _ ih =>
    obtain ⟨u, hu⟩ : ∃ u, d.add e.1 e.2 = .ok u := by
      rw [he.1]
      exact hd.exists_add he.2 hacceptable
    rw [List.foldlM_cons, hu]
    rw [he.1] at hu
    exact ih (hd.add he.2 hu) (by simpa using hacceptable)

/-! ## Further texts -/

theorem collectExtra_concat {others : List (String × Content)} {e : String × Content}
    {extra : KeyMap String} : collectExtra (others ++ [e]) = .ok extra ↔
      ∃ m s, collectExtra others = .ok m ∧ e.2.given = .text s ∧ extra = m.insert e.1 s := by
  rw [collectExtra, List.foldlM_append, bind_eq_ok_iff]
  refine exists_congr fun m => ?_
  rw [List.foldlM_cons, bind_eq_ok_iff]
  constructor
  · rintro ⟨hm, u, hu, h⟩
    cases h
    obtain ⟨s, hs, h⟩ := bind_eq_ok_iff.1 hu
    cases h
    exact ⟨s, hm, asText_eq_ok_iff.1 hs, rfl⟩
  · rintro ⟨s, hm, hs, rfl⟩
    exact ⟨hm, _, bind_eq_ok_iff.2 ⟨s, asText_eq_ok_iff.2 hs, rfl⟩, rfl⟩

theorem collectExtra_eq_ok {others : List (String × Content)} {extra : KeyMap String}
    (h : collectExtra others = .ok extra) :
    (∀ e ∈ others, ∃ s, e.2.given = .text s) ∧ ∀ key s, extra.get? key = some s ↔
      (valuesUnder [key] (others.map fun e => (e.1, e.2.given))).getLast? = some (.text s) := by
  induction others using List.reverseRecOn generalizing extra with
  | nil =>
    cases h
    simp [valuesUnder]
  | append_singleton others e ih =>
    obtain ⟨m, s, hm, hs, rfl⟩ := collectExtra_concat.1 h
    obtain ⟨htexts, hextra⟩ := ih hm
    constructor
    · intro e' he'
      rcases List.mem_append.1 he' with he' | he'
      · exact htexts e' he'
      · exact ⟨s, by rw [List.mem_singleton.1 he', hs]⟩
    · intro key s'
      rw [List.map_append, List.map_cons, List.map_nil, getLast?_valuesUnder_concat,
        KeyMap.get?_insert, hs]
      by_cases hkey : e.1 = key
      · simp [hkey]
      · rw [if_neg hkey, if_neg hkey, hextra]

theorem exists_collectExtra {others : List (String × Content)}
    (h : ∀ e ∈ others, ∃ s, e.2.given = .text s) : ∃ extra, collectExtra others = .ok extra := by
  induction others using List.reverseRecOn with
  | nil => exact ⟨∅, rfl⟩
  | append_singleton others e ih =>
    obtain ⟨m, hm⟩ := ih fun e' he' => h e' (by simp [he'])
    obtain ⟨s, hs⟩ := h e (by simp)
    exact ⟨_, collectExtra_concat.2 ⟨m, s, hm, hs, rfl⟩⟩

/-! ## A message set -/

theorem Drafted.texts_iff {read : List (String × Given)} (hd : Drafted read d) :
    (∀ e ∈ d.others, ∃ s, e.2.given = .text s) ↔
      ∀ e ∈ read, e.1 ∉ fieldKeys → ∃ s, e.2 = .text s := by
  have hmem : ∀ t, t ∈ d.others.map (fun e => (e.1, e.2.given)) ↔
      t ∈ read ∧ t.1 ∉ fieldKeys := fun t => by
    rw [hd.others, List.mem_filter, decide_eq_true_iff]
  constructor
  · intro h t ht hkey
    obtain ⟨e, he, rfl⟩ := List.mem_map.1 ((hmem t).2 ⟨ht, hkey⟩)
    exact h e he
  · intro h e he
    obtain ⟨hread, hkey⟩ := (hmem (e.1, e.2.given)).1 (List.mem_map.2 ⟨e, he, rfl⟩)
    exact h _ hread hkey

theorem Drafted.get?_extra {read : List (String × Given)} (hd : Drafted read d)
    {extra : KeyMap String} (hextra : collectExtra d.others = .ok extra) (key s : String) :
    extra.get? key = some s ↔
      key ∉ fieldKeys ∧ (valuesUnder [key] read).getLast? = some (.text s) := by
  rw [(collectExtra_eq_ok hextra).2, hd.others]
  by_cases hkey : key ∈ fieldKeys
  · have hnone : valuesUnder [key] (read.filter fun e => e.1 ∉ fieldKeys) = [] := by
      refine List.eq_nil_iff_forall_not_mem.2 fun g hg => ?_
      obtain ⟨key', hkey', hmem⟩ := mem_valuesUnder.1 hg
      cases List.mem_singleton.1 hkey'
      simp [hkey] at hmem
    rw [hnone]
    simp [hkey]
  · have hsame : valuesUnder [key] (read.filter fun e => e.1 ∉ fieldKeys) =
        valuesUnder [key] read :=
      valuesUnder_filter (p := fun key => key ∉ fieldKeys) (by simp [hkey])
    rw [hsame]
    simp [hkey]

theorem Drafted.finish {read : List (String × Given)} {m : Messages} (hd : Drafted read d)
    (h : d.finish = .ok m) : Acceptable read ∧ Tells read m := by
  have hdescription := hd.fields .description
  have hfix := hd.fields .howToFix
  have hhelp := hd.fields .help
  unfold Draft.finish at h
  split at h
  · cases h
  · cases h
  · rename_i description howToFix hdes hhow
    obtain ⟨extra, hextra, h⟩ := bind_eq_ok_iff.1 h
    cases h
    simp only [Field.keys, Draft.given, hdes, hhow] at hdescription hfix hhelp
    have hothers := hd.texts_iff.1 (collectExtra_eq_ok hextra).1
    refine ⟨⟨⟨_, hdescription⟩, ⟨_, hfix⟩, ?_, hothers⟩,
      ⟨hdescription, hfix, fun s => ?_, hd.get?_extra hextra⟩⟩
    · rw [hhelp]
      rcases d.help with _ | _ | s
      · exact .inl rfl
      · exact .inr (.inl rfl)
      · exact .inr (.inr ⟨s, rfl⟩)
    · rw [hhelp]
      rcases d.help with _ | _ | s' <;> simp [Given.ofHelp]

theorem Drafted.exists_finish {read : List (String × Given)} (hd : Drafted read d)
    (hacceptable : Acceptable read) : ∃ m, d.finish = .ok m := by
  obtain ⟨extra, hextra⟩ := exists_collectExtra (hd.texts_iff.2 hacceptable.others)
  obtain ⟨s, hs⟩ := hacceptable.description
  obtain ⟨r, hr⟩ := hacceptable.howToFix
  have hdescription := (hd.fields .description).symm.trans hs
  have hfix := (hd.fields .howToFix).symm.trans hr
  unfold Draft.finish
  cases hdes : d.description with
  | none => simp [Draft.given, hdes] at hdescription
  | some description =>
    cases hhow : d.howToFix with
    | none => simp [Draft.given, hhow] at hfix
    | some howToFix => exact ⟨_, bind_eq_ok_iff.2 ⟨extra, hextra, rfl⟩⟩

theorem drafted_nil : Drafted [] {} :=
  ⟨fun f => by cases f <;> rfl, rfl⟩

section OfFields

variable {vs : List (String × FieldValue)} {ts : List (String × Given)} {m : Messages}

theorem tells_of_ofFields (h : ShowAll vs ts) (hm : ofFields vs true = .ok m) :
    Acceptable ts ∧ Tells ts m := by
  obtain ⟨d, hd, hm⟩ := bind_eq_ok_iff.1 hm
  exact (drafted_nil.foldlM h hd).finish hm

theorem exists_ofFields (h : ShowAll vs ts) (hacceptable : Acceptable ts) :
    ∃ m, ofFields vs true = .ok m := by
  obtain ⟨d, hd⟩ := drafted_nil.exists_foldlM h hacceptable
  obtain ⟨m, hm⟩ := (drafted_nil.foldlM h hd).exists_finish hacceptable
  exact ⟨m, bind_eq_ok_iff.2 ⟨d, hd, hm⟩⟩

/-- A message set is read from the fields of a table just when the table is acceptable, and it is
the one that the table tells. -/
theorem ofFields_eq_ok_iff (h : ShowAll vs ts) :
    ofFields vs true = .ok m ↔ Acceptable ts ∧ Tells ts m := by
  refine ⟨tells_of_ofFields h, fun ⟨hacceptable, htells⟩ => ?_⟩
  obtain ⟨n, hn⟩ := exists_ofFields h hacceptable
  rw [hn, (tells_of_ofFields h hn).2.unique htells]

theorem complete_of_ofFields {complete : Bool} (h : ofFields vs complete = .ok m) :
    complete = true := by
  obtain ⟨d, -, h⟩ := bind_eq_ok_iff.1 h
  cases complete with
  | false => cases h
  | true => rfl

end OfFields

/-- A value that shows itself as this. -/
def FieldValue.ofGiven : Given → FieldValue
  | .text s => .ofText s
  | .null => ⟨.ok .null, .ok .null⟩
  | .other => ⟨.ok (.other .map), .ok (.other .map)⟩

theorem shows_ofGiven (g : Given) : Shows (.ofGiven g) g := by
  constructor
  · intro c hc
    cases g <;> cases hc <;> rfl
  · intro c hc
    cases g <;> cases hc <;> rfl
  · intro _
    cases g <;> exact ⟨⟨_, rfl⟩, _, rfl⟩

theorem Acceptable.exists_tells {fields : List (String × Given)} (h : Acceptable fields) :
    ∃ m, Tells fields m := by
  have hshow : ShowAll (fields.map fun e => (e.1, .ofGiven e.2)) fields := by
    rw [ShowAll, List.forall₂_map_left_iff, List.forall₂_same]
    exact fun e _ => ⟨rfl, shows_ofGiven e.2⟩
  obtain ⟨m, hm⟩ := exists_ofFields hshow h
  exact ⟨m, (tells_of_ofFields hshow hm).2⟩

/-! ## Values of the formats -/

/-- What a TOML value is to a message set. -/
def givenToml : Toml.Value → Given
  | .string s => .text s
  | _ => .other

/-- What a JSON value is to a message set. A string without a text is not a text. -/
def givenJson : Reading → Given
  | .string (some s) => .text s
  | .null => .null
  | _ => .other

/-- The values of a TOML table. -/
def tomlTable? : Toml.Value → Option (List (String × Given))
  | .table entries => some (entries.map fun e => (e.1, givenToml e.2))
  | _ => none

/-- Members whose names are texts. -/
def textNamed? : List (Option String × Reading) → Option (List (String × Reading))
  | [] => some []
  | (none, _) :: _ => none
  | (some key, v) :: members => (textNamed? members).map ((key, v) :: ·)

/-- The values of a JSON object whose names are texts. -/
def jsonTable? : Reading → Option (List (String × Given))
  | .object members true =>
    (textNamed? members).map fun es => es.map fun e => (e.1, givenJson e.2)
  | _ => none

theorem given_contentOf (v : Toml.Value) : (contentOf v).given = givenToml v := by
  cases v <;> rfl

theorem shows_contentOf (v : Toml.Value) :
    Shows ⟨.ok (contentOf v), .ok (contentOf v)⟩ (givenToml v) := by
  refine ⟨fun c hc => ?_, fun c hc => ?_, fun _ => ⟨⟨_, rfl⟩, _, rfl⟩⟩
  all_goals
    cases hc
    exact given_contentOf v

theorem given_contentOf? {v : Reading} {c : Content} (h : contentOf? v = some c) :
    c.given = givenJson v := by
  unfold contentOf? at h
  split at h
  · cases h
    rfl
  · cases h
    rfl
  · rename_i htext hnull
    obtain ⟨found, -, rfl⟩ := Option.map_eq_some_iff.1 h
    unfold givenJson
    split
    · exact absurd rfl (htext _)
    · exact absurd rfl hnull
    · rfl

theorem shows_fieldValue (room : Nat) (v : Reading) : Shows (fieldValue room v) (givenJson v) := by
  have hcontent : ∀ c, (fieldValue room v).atFirst = .ok c → c.given = givenJson v := by
    intro c hc
    simp only [fieldValue] at hc
    split at hc
    · cases hc
    · rename_i h
      cases hc
      exact given_contentOf? h
  refine ⟨hcontent, fun c hc => ?_, fun hne => ?_⟩
  · simp only [fieldValue] at hc
    split at hc
    · exact hcontent c hc
    · cases hc
  · unfold givenJson at hne
    split at hne
    · cases room <;> exact ⟨⟨_, rfl⟩, _, rfl⟩
    · cases room <;> exact ⟨⟨_, rfl⟩, _, rfl⟩
    · exact absurd rfl hne

theorem decodeToml_eq_ok_iff (v : Toml.Value) (m : Messages) : decodeToml v = .ok m ↔
    ∃ fields, tomlTable? v = some fields ∧ Acceptable fields ∧ Tells fields m := by
  have hshow : ∀ entries : List (String × Toml.Value),
      ShowAll (entries.map fun e => (e.1, ⟨.ok (contentOf e.2), .ok (contentOf e.2)⟩))
        (entries.map fun e => (e.1, givenToml e.2)) := fun entries => by
    rw [ShowAll, List.forall₂_map_left_iff, List.forall₂_map_right_iff, List.forall₂_same]
    exact fun e _ => ⟨rfl, shows_contentOf e.2⟩
  constructor
  · intro h
    unfold decodeToml at h
    split at h
    · cases h
    · rename_i entries hentries
      have hread := (ofFields_eq_ok_iff (hshow entries)).1 h
      cases v with
      | table entries =>
        cases hentries
        exact ⟨_, rfl, hread⟩
      | dateTime shown =>
        -- A date is looked at as a table, but its only entry is no description.
        cases hentries
        obtain ⟨s, hs⟩ := hread.1.description
        simp [valuesUnder, Toml.Value.dateTimeKey] at hs
      | _ => cases hentries
  · rintro ⟨fields, htable, hread⟩
    cases v with
    | table entries =>
      cases htable
      exact (ofFields_eq_ok_iff (hshow entries)).2 hread
    | _ => cases htable

theorem named_of_textNamed? {members : List (Option String × Reading)}
    {es : List (String × Reading)} (h : textNamed? members = some es) :
    Reading.named members = es := by
  induction members generalizing es with
  | nil =>
    cases h
    rfl
  | cons m members ih =>
    obtain ⟨key, v⟩ := m
    cases key with
    | none => cases h
    | some key =>
      obtain ⟨rest, hrest, rfl⟩ := Option.map_eq_some_iff.1 h
      rw [Reading.named, ih hrest]

theorem complete_iff {members : List (Option String × Reading)} {closed : Bool} :
    Reading.complete members closed = true ↔
      closed = true ∧ textNamed? members = some (Reading.named members) := by
  rw [Reading.complete, Bool.and_eq_true, and_comm]
  refine and_congr_right fun _ => ?_
  induction members with
  | nil => simp [textNamed?, Reading.named]
  | cons m members ih =>
    obtain ⟨key, v⟩ := m
    cases key <;> simp [textNamed?, Reading.named, ← ih]

theorem decodeJson_eq_ok_iff {room : Nat} (hroom : room ≠ 0) (v : Reading) (m : Messages) :
    decodeJson room v = .ok m ↔
      ∃ fields, jsonTable? v = some fields ∧ Acceptable fields ∧ Tells fields m := by
  have hshow : ∀ es : List (String × Reading),
      ShowAll (es.map fun e => (e.1, fieldValue (room - 1) e.2))
        (es.map fun e => (e.1, givenJson e.2)) := fun es => by
    rw [ShowAll, List.forall₂_map_left_iff, List.forall₂_map_right_iff, List.forall₂_same]
    exact fun e _ => ⟨rfl, shows_fieldValue _ e.2⟩
  cases v with
  | object members closed =>
    rw [decodeJson, if_neg hroom]
    constructor
    · intro h
      have hcomplete := complete_of_ofFields h
      rw [hcomplete] at h
      obtain ⟨rfl, hnamed⟩ := complete_iff.1 hcomplete
      exact ⟨_, by rw [jsonTable?, hnamed, Option.map_some],
        (ofFields_eq_ok_iff (hshow _)).1 h⟩
    · rintro ⟨fields, htable, hread⟩
      cases closed with
      | false => cases htable
      | true =>
        obtain ⟨es, hes, rfl⟩ := Option.map_eq_some_iff.1 htable
        have hnamed := named_of_textNamed? hes
        rw [complete_iff.2 ⟨rfl, hnamed ▸ hes⟩, hnamed]
        exact (ofFields_eq_ok_iff (hshow es)).2 hread
  | _ =>
    constructor
    · intro h
      cases h
    · rintro ⟨fields, htable, -⟩
      cases htable

end Messages

end StructureLint
