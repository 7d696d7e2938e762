import StructureLint.Proofs.Catalog.MessageSets
/-!
# Which texts are catalogs

A text of either format holds tables under the codes of languages (`tomlTables?`, `jsonTables?`),
and what is read depends on nothing else: it is a catalog if every table is a message set, and has
for each language what the last of its tables tells (`Catalog.Holds`). `decoded_exactly` says so,
and that the format, the order of the keys and the spelling of a key do not matter.
-/

namespace StructureLint

open Json (Reading)

namespace Messages

/-! ## The same table in other words -/

/-- The keys that say the same as this one. -/
def spellings (key : String) : List String :=
  if key ∈ Field.howToFix.keys then Field.howToFix.keys else [key]

/-- Two tables give the same values under each key, whichever key stands for advice and in whatever
order the keys come. -/
def SameFields (fields fields' : List (String × Given)) : Prop :=
  ∀ key, valuesUnder (spellings key) fields = valuesUnder (spellings key) fields'

theorem SameFields.symm {fields fields' : List (String × Given)} (h : SameFields fields fields') :
    SameFields fields' fields :=
  fun key => (h key).symm

theorem spellings_of_notMem {key : String} (h : key ∉ fieldKeys) : spellings key = [key] :=
  if_neg fun hmem => h (keys_subset hmem)

theorem SameFields.acceptable {fields fields' : List (String × Given)}
    (h : SameFields fields fields') (ha : Acceptable fields) : Acceptable fields' := by
  have hdescription := h "description"
  have hfix := h "howToFix"
  have hhelp := h "help"
  simp only [spellings, Field.keys] at hdescription hfix hhelp
  refine ⟨hdescription ▸ ha.description, hfix ▸ ha.howToFix, hhelp ▸ ha.help, fun e he hkey => ?_⟩
  have hmem : e.2 ∈ valuesUnder (spellings e.1) fields := by
    rw [h, spellings_of_notMem hkey]
    exact mem_valuesUnder.2 ⟨e.1, by simp, he⟩
  rw [spellings_of_notMem hkey] at hmem
  obtain ⟨key, hsame, hmem⟩ := mem_valuesUnder.1 hmem
  cases List.mem_singleton.1 hsame
  exact ha.others _ hmem hkey

theorem SameFields.tells {fields fields' : List (String × Given)} {m : Messages}
    (h : SameFields fields fields') (hm : Tells fields m) : Tells fields' m := by
  have hdescription := h "description"
  have hfix := h "howToFix"
  have hhelp := h "help"
  simp only [spellings, Field.keys] at hdescription hfix hhelp
  refine ⟨hdescription ▸ hm.description, hfix ▸ hm.howToFix, hhelp ▸ hm.help, fun key s => ?_⟩
  rw [hm.extra]
  refine and_congr_right fun hkey => ?_
  have hvalues := h key
  rw [spellings_of_notMem hkey] at hvalues
  rw [hvalues]

end Messages

namespace Catalog

open Messages

/-- What a text holds, as tables of values under the codes of languages. -/
abbrev Tables := List (String × List (String × Given))

/-- The values under the codes of languages, if all are tables. -/
def tablesOf? {V : Type} (table? : V → Option (List (String × Given))) :
    List (String × V) → Option Tables
  | [] => some []
  | (lang, v) :: es =>
    (table? v).bind fun fields => (tablesOf? table? es).map ((lang, fields) :: ·)

/-- The tables of a TOML text. -/
def tomlTables? (text : String) : Option Tables :=
  match Toml.parse text with
  | .ok entries => tablesOf? tomlTable? entries
  | .error _ => none

/-- The tables of a JSON text: it is an object, and nothing follows it. -/
def jsonTables? (text : String) : Option Tables :=
  match Json.scan text with
  | ⟨.object members true, true⟩ => (textNamed? members).bind (tablesOf? jsonTable?)
  | _ => none

/-- The catalog has for each language the messages that its last table tells. -/
def Holds (c : Catalog) (tables : Tables) : Prop :=
  ∀ lang, Option.Rel Tells (valuesUnder [lang] tables).getLast? (c.get? lang)

variable {c c' : Catalog} {tables tables' : Tables}

theorem holds_empty : empty.Holds [] :=
  fun _ => .none

theorem Holds.language (h : c.Holds tables) {fields : List (String × Given)} {m : Messages}
    (hm : Tells fields m) (lang : String) :
    (c.language lang m).Holds (tables ++ [(lang, fields)]) := by
  intro k
  rw [getLast?_valuesUnder_concat, get?_language]
  by_cases hk : lang = k
  · rw [if_pos hk, if_pos hk]
    exact .some hm
  · rw [if_neg hk, if_neg hk]
    exact h k

theorem exists_holds (hall : ∀ t ∈ tables, Acceptable t.2) : ∃ c : Catalog, c.Holds tables := by
  induction tables using List.reverseRecOn with
  | nil => exact ⟨_, holds_empty⟩
  | append_singleton tables t ih =>
    obtain ⟨c, hc⟩ := ih fun t' ht' => hall t' (by simp [ht'])
    obtain ⟨m, hm⟩ := (hall t (by simp)).exists_tells
    exact ⟨_, hc.language hm t.1⟩

/-- Tables make up one catalog. -/
theorem Holds.unique (h : c.Holds tables) (h' : c'.Holds tables) : c = c' := by
  have hget : ∀ lang, c.get? lang = c'.get? lang := by
    intro lang
    have hlang := h lang
    have hlang' := h' lang
    revert hlang hlang'
    generalize (valuesUnder [lang] tables).getLast? = last
    generalize c.get? lang = found
    generalize c'.get? lang = found'
    rintro (hm | _) (hm' | _)
    · rw [hm.unique hm']
    · rfl
  obtain ⟨languages⟩ := c
  obtain ⟨languages'⟩ := c'
  exact congrArg mk (KeyMap.ext_get? hget)

/-- The message sets of several languages are read just when each of them is a table that is one. -/
theorem foldlM_language_iff {V : Type} {decode : V → Except ReadError Messages}
    {table? : V → Option (List (String × Given))}
    (hdecode : ∀ v m, decode v = .ok m ↔
      ∃ fields, table? v = some fields ∧ Acceptable fields ∧ Tells fields m)
    (h : c.Holds tables) (es : List (String × V)) :
    es.foldlM (fun c e => (decode e.2).map (c.language e.1)) c = .ok c' ↔
      ∃ more, tablesOf? table? es = some more ∧ (∀ t ∈ more, Acceptable t.2) ∧
        c'.Holds (tables ++ more) := by
  induction es generalizing c tables with
  | nil =>
    constructor
    · intro hc
      cases hc
      exact ⟨[], rfl, by simp, by simpa using h⟩
    · rintro ⟨more, hmore, -, hc⟩
      cases hmore
      rw [List.append_nil] at hc
      rw [h.unique hc]
      rfl
  | cons e es ih =>
    rw [List.foldlM_cons, bind_eq_ok_iff]
    constructor
    · rintro ⟨u, hu, hfold⟩
      cases hm : decode e.2 with
      | error _ =>
        rw [hm] at hu
        cases hu
      | ok m =>
        rw [hm] at hu
        cases hu
        obtain ⟨fields, htable, hacceptable, htells⟩ := (hdecode _ _).1 hm
        obtain ⟨more, hmore, hall, hc⟩ := (ih (h.language htells e.1)).1 hfold
        refine ⟨(e.1, fields) :: more, ?_, List.forall_mem_cons.2 ⟨hacceptable, hall⟩,
          by simpa using hc⟩
        rw [tablesOf?, htable, Option.bind_some, hmore, Option.map_some]
    · rintro ⟨_, htables, hall, hc⟩
      obtain ⟨fields, htable, hrest⟩ := Option.bind_eq_some_iff.1 htables
      obtain ⟨more, hmore, rfl⟩ := Option.map_eq_some_iff.1 hrest
      obtain ⟨hacceptable, hall⟩ := List.forall_mem_cons.1 hall
      obtain ⟨m, htells⟩ := hacceptable.exists_tells
      have hm := (hdecode _ _).2 ⟨_, htable, hacceptable, htells⟩
      exact ⟨_, by rw [hm]; rfl,
        (ih (h.language htells e.1)).2 ⟨more, hmore, hall, by simpa using hc⟩⟩

theorem ofToml_eq_ok_iff {text : String} : ofToml text = .ok c ↔
    ∃ tables, tomlTables? text = some tables ∧ (∀ t ∈ tables, Acceptable t.2) ∧
      c.Holds tables := by
  unfold ofToml tomlTables?
  cases Toml.parse text with
  | error e => simp [Except.bind]
  | ok entries => exact foldlM_language_iff decodeToml_eq_ok_iff holds_empty entries

theorem decodeLanguages_eq (room : Nat) (es : List (String × Reading)) (c : Catalog) :
    decodeLanguages room c es =
      es.foldlM (fun c e => (Messages.decodeJson room e.2).map (c.language e.1)) c := by
  induction es generalizing c with
  | nil => rfl
  | cons e es ih =>
    rw [decodeLanguages, List.foldlM_cons]
    cases Messages.decodeJson room e.2 with
    | error _ => rfl
    | ok m => exact ih _

theorem decodeJson_eq_ok_iff {room : Nat} (hroom : room ≠ 0) {v : Reading} :
    decodeJson room v = .ok c ↔ ∃ members es, v = .object members true ∧
      textNamed? members = some es ∧ decodeLanguages (room - 1) empty es = .ok c := by
  cases v with
  | object members closed =>
    rw [decodeJson, if_neg hroom]
    constructor
    · intro h
      split at h
      · cases h
      · rename_i hlanguages
        split at h
        · rename_i hcomplete
          cases h
          obtain ⟨rfl, hnamed⟩ := complete_iff.1 hcomplete
          exact ⟨members, _, rfl, hnamed, hlanguages⟩
        · cases h
    · rintro ⟨_, es, hmembers, hes, hlanguages⟩
      cases hmembers
      have hnamed := named_of_textNamed? hes
      rw [complete_iff.2 ⟨rfl, hnamed ▸ hes⟩, hnamed, hlanguages]
      rfl
  | _ =>
    constructor
    · intro h
      cases h
    · rintro ⟨_, _, hmembers, -⟩
      cases hmembers

theorem jsonTables?_eq_some_iff {text : String} : jsonTables? text = some tables ↔
    (Json.scan text).ended = true ∧ ∃ members es, (Json.scan text).value = .object members true ∧
      textNamed? members = some es ∧ tablesOf? jsonTable? es = some tables := by
  unfold jsonTables?
  split
  · rename_i members hscan
    rw [hscan, Option.bind_eq_some_iff]
    constructor
    · rintro ⟨es, hes, htables⟩
      exact ⟨rfl, members, es, rfl, hes, htables⟩
    · rintro ⟨-, _, es, hmembers, hrest⟩
      cases hmembers
      exact ⟨es, hrest⟩
  · rename_i hnot
    constructor
    · intro h
      cases h
    · rintro ⟨hended, members, _, hvalue, -⟩
      refine absurd ?_ (hnot members)
      rw [← hvalue, ← hended]

theorem ofJson_eq_ok_iff {text : String} : ofJson text = .ok c ↔
    ∃ tables, jsonTables? text = some tables ∧ (∀ t ∈ tables, Acceptable t.2) ∧
      c.Holds tables := by
  have hread : ofJson text = .ok c ↔ (Json.scan text).ended = true ∧
      decodeJson Reading.maxNesting (Json.scan text).value = .ok c := by
    rw [ofJson, Json.readWith]
    cases decodeJson Reading.maxNesting (Json.scan text).value with
    | error _ => simp
    | ok d => cases (Json.scan text).ended <;> simp
  have hroom : Reading.maxNesting - 1 ≠ 0 := by decide
  have hlanguages : ∀ es, decodeLanguages (Reading.maxNesting - 1) empty es = .ok c ↔ _ := fun es =>
    (decodeLanguages_eq _ es empty).symm ▸
      foldlM_language_iff (Messages.decodeJson_eq_ok_iff hroom) holds_empty es
  rw [hread, decodeJson_eq_ok_iff (by decide)]
  simp only [jsonTables?_eq_some_iff, hlanguages]
  constructor
  · rintro ⟨hended, members, es, hvalue, hes, tables, htables, hrest⟩
    exact ⟨tables, ⟨hended, members, es, hvalue, hes, htables⟩, hrest⟩
  · rintro ⟨tables, ⟨hended, members, es, hvalue, hes, htables⟩, hrest⟩
    exact ⟨hended, members, es, hvalue, hes, tables, htables, hrest⟩

/-! ## The same tables in other words -/

/-- Two lists of tables have the same tables for each language, in whatever order the languages
come. -/
def SameTables (tables tables' : Tables) : Prop :=
  ∀ lang, List.Forall₂ SameFields (valuesUnder [lang] tables) (valuesUnder [lang] tables')

theorem SameTables.symm (h : SameTables tables tables') : SameTables tables' tables :=
  fun lang => (h lang).flip.imp fun _ _ => SameFields.symm

theorem exists_left_of_mem {α β : Type} {R : α → β → Prop} {as : List α} {bs : List β}
    (h : List.Forall₂ R as bs) {b : β} (hb : b ∈ bs) : ∃ a ∈ as, R a b := by
  induction h with
  | nil => cases hb
  | cons hab _ ih =>
    rcases List.mem_cons.1 hb with rfl | hb
    · exact ⟨_, List.mem_cons_self, hab⟩
    · obtain ⟨a, ha, hab⟩ := ih hb
      exact ⟨a, List.mem_cons_of_mem _ ha, hab⟩

theorem SameTables.acceptable (h : SameTables tables tables')
    (hall : ∀ t ∈ tables, Acceptable t.2) : ∀ t ∈ tables', Acceptable t.2 := by
  intro t ht
  have hmem : t.2 ∈ valuesUnder [t.1] tables' := mem_valuesUnder.2 ⟨t.1, by simp, ht⟩
  obtain ⟨fields, hfields, hsame⟩ := exists_left_of_mem (h t.1) hmem
  obtain ⟨lang, -, hlang⟩ := mem_valuesUnder.1 hfields
  exact hsame.acceptable (hall _ hlang)

theorem rel_getLast? {α β : Type} {R : α → β → Prop} {as : List α} {bs : List β}
    (h : List.Forall₂ R as bs) : Option.Rel R as.getLast? bs.getLast? := by
  induction h with
  | nil => exact .none
  | cons hab htail ih =>
    cases htail with
    | nil => exact .some hab
    | cons => simpa using ih

theorem SameTables.holds (h : SameTables tables tables') (hc : c.Holds tables) :
    c.Holds tables' := by
  intro lang
  have hlast := rel_getLast? (h lang)
  have hlang := hc lang
  revert hlast hlang
  generalize (valuesUnder [lang] tables).getLast? = last
  generalize (valuesUnder [lang] tables').getLast? = last'
  generalize c.get? lang = found
  rintro (hsame | _) (hm | _)
  · exact .some (hsame.tells hm)
  · exact .none

/-- A text of TOML or JSON is a catalog just when it holds tables for languages, each a message set;
the last table of a language counts. Texts that hold the same tables, in whatever order and spelling
of keys, are the same catalog. -/
theorem decoded_exactly :
    (∀ text, (∃ c, ofToml text = .ok c) ↔
      ∃ tables, tomlTables? text = some tables ∧ ∀ t ∈ tables, Acceptable t.2) ∧
    (∀ text, (∃ c, ofJson text = .ok c) ↔
      ∃ tables, jsonTables? text = some tables ∧ ∀ t ∈ tables, Acceptable t.2) ∧
    (∀ text tables c, tomlTables? text = some tables → ofToml text = .ok c → c.Holds tables) ∧
    (∀ text tables c, jsonTables? text = some tables → ofJson text = .ok c → c.Holds tables) ∧
    ∀ toml json tables tables', tomlTables? toml = some tables → jsonTables? json = some tables' →
      SameTables tables tables' → ∀ c, ofToml toml = .ok c ↔ ofJson json = .ok c := by
  have hsuccess : ∀ tables? : Option Tables,
      (∃ (c : Catalog) (tables : Tables), tables? = some tables ∧ (∀ t ∈ tables, Acceptable t.2) ∧
        c.Holds tables) ↔ ∃ tables, tables? = some tables ∧ ∀ t ∈ tables, Acceptable t.2 := by
    intro tables?
    constructor
    · rintro ⟨c, tables, htables, hall, -⟩
      exact ⟨tables, htables, hall⟩
    · rintro ⟨tables, htables, hall⟩
      obtain ⟨c, hc⟩ := exists_holds hall
      exact ⟨c, tables, htables, hall, hc⟩
  refine ⟨fun text => ?_, fun text => ?_, ?_, ?_, ?_⟩
  · simp only [ofToml_eq_ok_iff, hsuccess]
  · simp only [ofJson_eq_ok_iff, hsuccess]
  · intro text tables c htables h
    obtain ⟨tables', htables', -, hc⟩ := ofToml_eq_ok_iff.1 h
    cases htables.symm.trans htables'
    exact hc
  · intro text tables c htables h
    obtain ⟨tables', htables', -, hc⟩ := ofJson_eq_ok_iff.1 h
    cases htables.symm.trans htables'
    exact hc
  · intro toml json tables tables' htoml hjson hsame c
    rw [ofToml_eq_ok_iff, ofJson_eq_ok_iff]
    constructor
    · rintro ⟨u, hu, hall, hc⟩
      cases htoml.symm.trans hu
      exact ⟨tables', hjson, hsame.acceptable hall, hsame.holds hc⟩
    · rintro ⟨u, hu, hall, hc⟩
      cases hjson.symm.trans hu
      exact ⟨tables, htoml, hsame.symm.acceptable hall, hsame.symm.holds hc⟩

/-- The messages of `notedText` as JSON, in another order and in the other spelling. -/
def reorderedText : String :=
  "\x7b\"nl\": \x7b\"level\": \"streng\", \"howToFix\": \"voeg toe\", "
    ++ "\"description\": \"kop\"\x7d\x7d"

theorem sameFields_reordered : SameFields
    [("description", .text "kop"), ("how_to_fix", .text "voeg toe"), ("level", .text "streng")]
    [("level", .text "streng"), ("howToFix", .text "voeg toe"), ("description", .text "kop")] := by
  intro key
  by_cases hadvice : key ∈ Field.howToFix.keys
  · rw [spellings, if_pos hadvice]
    decide
  · have hcamel : "howToFix" ≠ key := fun he => hadvice (he ▸ by decide)
    have hsnake : "how_to_fix" ≠ key := fun he => hadvice (he ▸ by decide)
    rw [spellings, if_neg hadvice]
    by_cases hdescription : "description" = key
    · subst hdescription
      decide
    · by_cases hlevel : "level" = key <;>
        simp [valuesUnder, hcamel, hsnake, hdescription, hlevel]

theorem decoded_exactly_reordered :
    ∃ tables tables', tomlTables? notedText = some tables ∧
      jsonTables? reorderedText = some tables' ∧ SameTables tables tables' ∧
      (∀ t ∈ tables, Acceptable t.2) ∧ ∃ c, ofToml notedText = .ok c ∧ c.Holds tables ∧
        ofJson reorderedText = .ok c ∧ c.Holds tables' := by
  let fields : List (String × Given) := [("description", .text "kop"),
    ("how_to_fix", .text "voeg toe"), ("level", .text "streng")]
  let fields' : List (String × Given) := [("level", .text "streng"),
    ("howToFix", .text "voeg toe"), ("description", .text "kop")]
  have htoml : tomlTables? notedText = some [("nl", fields)] := by decide +kernel
  have hjson : jsonTables? reorderedText = some [("nl", fields')] := by decide +kernel
  have hsame : SameTables [("nl", fields)] [("nl", fields')] := fun lang => by
    rw [valuesUnder_cons, valuesUnder_cons]
    split
    · exact .cons sameFields_reordered .nil
    · exact .nil
  have hall : ∀ t ∈ [("nl", fields)], Acceptable t.2 := by
    intro t ht
    cases List.mem_singleton.1 ht
    refine ⟨⟨_, rfl⟩, ⟨_, rfl⟩, .inl rfl, fun e he _ => ?_⟩
    simp only [fields, List.mem_cons, List.not_mem_nil, or_false] at he
    rcases he with rfl | rfl | rfl <;> exact ⟨_, rfl⟩
  obtain ⟨hsuccess, -, hholds, hholds', hagree⟩ := decoded_exactly
  obtain ⟨c, hc⟩ := (hsuccess notedText).2 ⟨_, htoml, hall⟩
  have hc' := (hagree _ _ _ _ htoml hjson hsame c).1 hc
  exact ⟨_, _, htoml, hjson, hsame, hall, c, hc, hholds _ _ _ htoml hc, hc',
    hholds' _ _ _ hjson hc'⟩

end Catalog

end StructureLint
