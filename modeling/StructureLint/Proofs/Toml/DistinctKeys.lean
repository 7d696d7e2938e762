import Mathlib.Data.List.Nodup
import StructureLint.Toml.Reader
/-!
# No key twice

In no table of a document does a key occur twice (`distinct_of_parse`), whether the table is opened
by a header, made by the points of a key, written in braces, or one of several under double
brackets. Entries come into a table by `put` alone, which never adds a second entry under one key;
the ways down to the table (`descend`, `assign`) put back what they changed under the key by which
they went.
-/

namespace StructureLint.Toml

/-- No table in the value has a key twice, the value included. -/
inductive Value.Distinct : Value → Prop
  | string (text : String) : Distinct (.string text)
  | integer (value : Int) : Distinct (.integer value)
  | decimal (shown : String) : Distinct (.decimal shown)
  | boolean (value : Bool) : Distinct (.boolean value)
  | dateTime (shown : String) : Distinct (.dateTime shown)
  | array {items : List Value} (h : ∀ v ∈ items, Distinct v) : Distinct (.array items)
  | table {entries : List (String × Value)} (hkeys : (entries.map (·.1)).Nodup)
      (h : ∀ e ∈ entries, Distinct e.2) : Distinct (.table entries)

/-- No table in the item has a key twice, the item included. -/
inductive Item.Distinct : Item → Prop
  | value {v : Value} (h : v.Distinct) : Distinct (.value v)
  | table {origin : Origin} {entries : Entries} (hkeys : (entries.map (·.1)).Nodup)
      (h : ∀ e ∈ entries, Distinct e.2) : Distinct (.table origin entries)
  | tables {elements : List Entries} (hkeys : ∀ es ∈ elements, (es.map (·.1)).Nodup)
      (h : ∀ es ∈ elements, ∀ e ∈ es, Distinct e.2) : Distinct (.tables elements)

/-- No key occurs twice among the entries, nor in a table below them. -/
structure Distinct (es : Entries) : Prop where
  keys_nodup : (es.map (·.1)).Nodup
  items : ∀ e ∈ es, e.2.Distinct

variable {es es' : Entries} {item : Item} {key : String} {v : Value}

theorem distinct_nil : Distinct [] :=
  ⟨List.nodup_nil, by simp⟩

theorem Item.distinct_table_iff {origin : Origin} :
    (Item.table origin es).Distinct ↔ Toml.Distinct es := by
  constructor
  · rintro (_ | ⟨hkeys, h⟩ | _)
    exact ⟨hkeys, h⟩
  · rintro ⟨hkeys, h⟩
    exact .table hkeys h

theorem Item.distinct_tables_iff {elements : List Entries} :
    (Item.tables elements).Distinct ↔ ∀ es ∈ elements, Toml.Distinct es := by
  constructor
  · rintro (_ | _ | ⟨hkeys, h⟩) es hes
    exact ⟨hkeys es hes, h es hes⟩
  · intro h
    exact .tables (fun es hes => (h es hes).keys_nodup) fun es hes => (h es hes).items

/-! ## Entries -/

theorem mem_of_find? (h : find? key es = some item) : (key, item) ∈ es := by
  induction es with
  | nil => cases h
  | cons e es ih =>
    unfold find? at h
    split at h
    · rename_i hkey
      cases h
      exact hkey ▸ List.mem_cons_self
    · exact List.mem_cons_of_mem _ (ih h)

theorem Distinct.find? (h : Distinct es) (hf : find? key es = some item) : item.Distinct :=
  h.items _ (mem_of_find? hf)

theorem mem_put {e : String × Item} (h : e ∈ put key item es) : e = (key, item) ∨ e ∈ es := by
  induction es with
  | nil => exact .inl (List.mem_singleton.1 h)
  | cons d es ih =>
    unfold put at h
    split at h
    · rcases List.mem_cons.1 h with h | h
      · exact .inl h
      · exact .inr (List.mem_cons_of_mem _ h)
    · rcases List.mem_cons.1 h with rfl | h
      · exact .inr List.mem_cons_self
      · exact (ih h).imp_right (List.mem_cons_of_mem _)

/-- A key that is new comes at the end, and one that is not stays where it is. -/
theorem keys_put (key : String) (item : Item) (es : Entries) :
    (put key item es).map (·.1) =
      es.map (·.1) ++ if key ∈ es.map (·.1) then [] else [key] := by
  induction es with
  | nil => rfl
  | cons e es ih =>
    unfold put
    by_cases hkey : e.1 = key
    · simp [hkey]
    · have hmem : key ∈ (e :: es).map (·.1) ↔ key ∈ es.map (·.1) := by
        simp [Ne.symm hkey]
      simp only [if_neg hkey, List.map_cons, ih, List.cons_append, ← hmem]

theorem Distinct.put (h : Distinct es) (hitem : item.Distinct) : Distinct (put key item es) := by
  constructor
  · rw [keys_put]
    split
    · simpa using h.keys_nodup
    · rename_i hnew
      exact List.nodup_append.2 ⟨h.keys_nodup, List.nodup_singleton key, by grind⟩
  · intro e he
    rcases mem_put he with rfl | he
    · exact hitem
    · exact h.items e he

theorem Distinct.remove (h : Distinct es) (key : String) : Distinct (remove key es) :=
  ⟨h.keys_nodup.sublist (List.filter_sublist.map _),
    fun e he => h.items e (List.mem_of_mem_filter he)⟩

/-! ## Ways down to a table -/

theorem forall_changeLast {α : Type} {P : α → Prop} {f : α → Option α} {as bs : List α}
    (hf : ∀ a b, P a → f a = some b → P b) (h : ∀ a ∈ as, P a) (hc : changeLast f as = some bs) :
    ∀ b ∈ bs, P b := by
  fun_induction changeLast f as generalizing bs with
  | case1 => cases hc
  | case2 a =>
    obtain ⟨b, hb, rfl⟩ := Option.map_eq_some_iff.1 hc
    intro b' hb'
    rw [List.mem_singleton.1 hb']
    exact hf a b (h a List.mem_cons_self) hb
  | case3 a a' as ih =>
    obtain ⟨bs', hbs, rfl⟩ := Option.map_eq_some_iff.1 hc
    intro b hb
    rcases List.mem_cons.1 hb with rfl | hb
    · exact h b List.mem_cons_self
    · exact ih (fun c hmem => h c (List.mem_cons_of_mem _ hmem)) hbs b hb

/-- What keeps keys distinct in a table keeps them distinct in the whole document. -/
theorem Distinct.descend {f : Entries → Option Entries}
    (hf : ∀ es es', Distinct es → f es = some es' → Distinct es') {keys : List String}
    (h : Distinct es) (hd : descend f keys es = some es') : Distinct es' := by
  induction keys generalizing es es' with
  | nil => exact hf es es' h hd
  | cons key keys ih =>
    unfold Toml.descend at hd
    split at hd
    · obtain ⟨sub, hsub, rfl⟩ := Option.map_eq_some_iff.1 hd
      exact h.put (Item.distinct_table_iff.2 (ih distinct_nil hsub))
    · cases hd
    · rename_i hfind
      obtain ⟨sub, hsub, rfl⟩ := Option.map_eq_some_iff.1 hd
      exact h.put (Item.distinct_table_iff.2 (ih (Item.distinct_table_iff.1 (h.find? hfind)) hsub))
    · rename_i elements hfind
      obtain ⟨elements', helements, rfl⟩ := Option.map_eq_some_iff.1 hd
      have hbefore := Item.distinct_tables_iff.1 (h.find? hfind)
      refine h.put (Item.distinct_tables_iff.2 ?_)
      exact forall_changeLast (fun a b ha hb => ih ha hb) hbefore helements

theorem Distinct.assign {parts : List String} (hv : v.Distinct) (h : Distinct es)
    (ha : assign key v parts es = some es') : Distinct es' := by
  induction parts generalizing es es' with
  | nil =>
    unfold Toml.assign at ha
    split at ha
    · cases ha
      exact h.put (.value hv)
    · cases ha
  | cons part parts ih =>
    unfold Toml.assign at ha
    split at ha
    · obtain ⟨sub, hsub, rfl⟩ := Option.map_eq_some_iff.1 ha
      exact h.put (Item.distinct_table_iff.2 (ih distinct_nil hsub))
    · cases ha
    · cases ha
    · rename_i hfind
      split at ha
      · cases ha
      · obtain ⟨sub, hsub, rfl⟩ := Option.map_eq_some_iff.1 ha
        exact h.put (Item.distinct_table_iff.2
          (ih (Item.distinct_table_iff.1 (h.find? hfind)) hsub))
    · rename_i hfind
      obtain ⟨sub, hsub, rfl⟩ := Option.map_eq_some_iff.1 ha
      exact h.put (Item.distinct_table_iff.2 (ih (Item.distinct_table_iff.1 (h.find? hfind)) hsub))
    · rename_i elements hfind
      split at ha
      · cases ha
      · obtain ⟨elements', helements, rfl⟩ := Option.map_eq_some_iff.1 ha
        have hbefore := Item.distinct_tables_iff.1 (h.find? hfind)
        refine h.put (Item.distinct_tables_iff.2 ?_)
        exact forall_changeLast (fun a b ha hb => ih ha hb) hbefore helements

/-! ## Entries as values -/

theorem entriesToValues_eq (es : Entries) :
    entriesToValues es = es.map fun e => (e.1, e.2.toValue) := by
  induction es with
  | nil => rfl
  | cons e es ih =>
    rw [entriesToValues, ih]
    rfl

theorem elementsToValues_eq (elements : List Entries) :
    elementsToValues elements = elements.map fun es => .table (entriesToValues es) := by
  induction elements with
  | nil => rfl
  | cons es elements ih =>
    rw [elementsToValues, ih]
    rfl

theorem distinct_entries (hkeys : (es.map (·.1)).Nodup) (h : ∀ e ∈ es, e.2.toValue.Distinct) :
    (Value.table (entriesToValues es)).Distinct := by
  rw [entriesToValues_eq]
  refine .table ?_ fun e he => ?_
  · rw [List.map_map]
    exact hkeys
  · obtain ⟨d, hd, rfl⟩ := List.mem_map.1 he
    exact h d hd

theorem Item.Distinct.toValue (h : item.Distinct) : item.toValue.Distinct := by
  induction h with
  | value hv =>
    rw [Item.toValue]
    exact hv
  | table hkeys _ ih =>
    rw [Item.toValue]
    exact distinct_entries hkeys ih
  | tables hkeys _ ih =>
    rw [Item.toValue, elementsToValues_eq]
    refine .array fun v hv => ?_
    obtain ⟨es, hes, rfl⟩ := List.mem_map.1 hv
    exact distinct_entries (hkeys es hes) (ih es hes)

theorem Distinct.toValue (h : Distinct es) : (Value.table (entriesToValues es)).Distinct :=
  distinct_entries h.keys_nodup fun e he => (h.items e he).toValue

/-! ## Values that are read -/

variable {cs rest : List Char}

/-- Dates, times and numbers have no parts. -/
theorem distinct_dateTime (h : dateTime? cs = some (v, rest)) : v.Distinct := by
  unfold dateTime? at h
  split at h
  · split at h
    · cases h
      exact .dateTime _
    · cases h
      exact .dateTime _
  · obtain ⟨r, -, h⟩ := Option.map_eq_some_iff.1 h
    cases h
    exact .dateTime _

theorem distinct_signed {negative : Bool} {n : Nat} (h : signed? negative n = some v) :
    v.Distinct := by
  obtain ⟨-, h⟩ := Option.ite_none_right_eq_some.1 h
  cases h
  exact .integer _

theorem distinct_inBase {base : Nat} {isDigit : Char → Bool}
    (h : inBase base isDigit cs = some (v, rest)) : v.Distinct := by
  obtain ⟨⟨ds, rest'⟩, -, h⟩ := Option.bind_eq_some_iff.1 h
  obtain ⟨w, hw, h⟩ := Option.bind_eq_some_iff.1 h
  cases h
  exact distinct_signed hw

theorem distinct_integer (h : integer? cs = some (v, rest)) : v.Distinct := by
  unfold integer? at h
  split at h
  · exact distinct_inBase h
  · exact distinct_inBase h
  · exact distinct_inBase h
  · obtain ⟨⟨ds, rest'⟩, -, h⟩ := Option.bind_eq_some_iff.1 h
    obtain ⟨w, hw, h⟩ := Option.bind_eq_some_iff.1 h
    cases h
    exact distinct_signed hw

theorem distinct_special {negative : Bool} (h : special? negative cs = some (v, rest)) :
    v.Distinct := by
  unfold special? at h
  split at h
  · cases h
    exact .decimal _
  · cases h
    exact .decimal _
  · cases h

theorem distinct_decimal {negative : Bool} {x : Float} (h : decimal? negative x = some v) :
    v.Distinct := by
  unfold decimal? at h
  split at h
  · cases h
  · cases h
    exact .decimal _

theorem distinct_decimalNumber (h : decimalNumber? cs = some (v, rest)) : v.Distinct := by
  unfold decimalNumber? at h
  generalize sign cs = signed at h
  obtain ⟨negative, digits⟩ := signed
  simp only at h
  split at h
  · rename_i hspecial
    cases h
    exact distinct_special hspecial
  · obtain ⟨whole, -, h⟩ := Option.bind_eq_some_iff.1 h
    obtain ⟨fraction, -, h⟩ := Option.bind_eq_some_iff.1 h
    obtain ⟨exponent, -, h⟩ := Option.bind_eq_some_iff.1 h
    split at h
    · cases h
    · obtain ⟨w, hw, h⟩ := Option.bind_eq_some_iff.1 h
      cases h
      exact distinct_decimal hw

theorem distinct_numeric (h : numeric? cs = some (v, rest)) : v.Distinct := by
  rcases Option.or_eq_some_iff.1 h with h | ⟨-, h⟩
  · exact distinct_dateTime h
  · rcases Option.or_eq_some_iff.1 h with h | ⟨-, h⟩
    · exact distinct_decimalNumber h
    · exact distinct_integer h

/-- Whatever is read within so many steps has no key twice. -/
structure ReadDistinct (steps : Nat) : Prop where
  value {room : Nat} {cs rest : List Char} {v : Value} :
    value? steps room cs = some (v, rest) → v.Distinct
  items {room : Nat} {cs rest : List Char} {vs : List Value} :
    items? steps room cs = some (vs, rest) → ∀ v ∈ vs, v.Distinct
  pairs {room : Nat} {cs rest : List Char} {es es' : Entries} (hes : Distinct es) :
    pairs? steps room es cs = some (es', rest) → Distinct es'

variable {steps room : Nat}

theorem ReadDistinct.value_succ (ih : ReadDistinct steps)
    (h : value? (steps + 1) room cs = some (v, rest)) : v.Distinct := by
  unfold value? at h
  split at h
  · cases h
  · obtain ⟨r, -, h⟩ := Option.map_eq_some_iff.1 h
    cases h
    exact .string _
  · obtain ⟨r, -, h⟩ := Option.map_eq_some_iff.1 h
    cases h
    exact .string _
  · split at h
    · cases h
    · obtain ⟨r, hr, h⟩ := Option.map_eq_some_iff.1 h
      cases h
      exact .array (ih.items hr)
  · split at h
    · cases h
    · split at h
      · cases h
        exact .table List.nodup_nil (by simp)
      · obtain ⟨r, hr, h⟩ := Option.map_eq_some_iff.1 h
        cases h
        exact (ih.pairs distinct_nil hr).toValue
  · obtain ⟨r, -, h⟩ := Option.map_eq_some_iff.1 h
    cases h
    exact .boolean _
  · obtain ⟨r, -, h⟩ := Option.map_eq_some_iff.1 h
    cases h
    exact .boolean _
  · exact distinct_numeric h

theorem ReadDistinct.items_succ (ih : ReadDistinct steps) {vs : List Value}
    (h : items? (steps + 1) room cs = some (vs, rest)) : ∀ v ∈ vs, v.Distinct := by
  unfold items? at h
  split at h
  · cases h
    simp
  · obtain ⟨⟨w, rest'⟩, hw, h⟩ := Option.bind_eq_some_iff.1 h
    have hfirst := ih.value hw
    simp only at h
    split at h
    · obtain ⟨⟨ws, rest''⟩, hws, h⟩ := Option.bind_eq_some_iff.1 h
      cases h
      exact List.forall_mem_cons.2 ⟨hfirst, ih.items hws⟩
    · cases h
      exact List.forall_mem_singleton.2 hfirst
    · cases h

theorem ReadDistinct.pairs_succ (ih : ReadDistinct steps) (hes : Distinct es)
    (h : pairs? (steps + 1) room es cs = some (es', rest)) : Distinct es' := by
  unfold pairs? at h
  obtain ⟨⟨path, rest'⟩, -, h⟩ := Option.bind_eq_some_iff.1 h
  obtain ⟨⟨parts, key⟩, -, h⟩ := Option.bind_eq_some_iff.1 h
  simp only at h
  split at h
  · obtain ⟨⟨v, rest''⟩, hv, h⟩ := Option.bind_eq_some_iff.1 h
    obtain ⟨assigned, hassigned, h⟩ := Option.bind_eq_some_iff.1 h
    have hdistinct := Distinct.assign (ih.value hv) hes hassigned
    simp only at h
    split at h
    · exact ih.pairs hdistinct h
    · cases h
      exact hdistinct
    · cases h
  · cases h

theorem readDistinct (steps : Nat) : ReadDistinct steps := by
  induction steps with
  | zero => exact ⟨fun h => by simp [value?] at h, fun h => by simp [items?] at h,
      fun _ h => by simp [pairs?] at h⟩
  | succ steps ih => exact ⟨ih.value_succ, ih.items_succ, fun hes => ih.pairs_succ hes⟩

/-! ## Documents -/

/-- No key occurs twice in what was gathered so far, nor in the section that is open. -/
structure Assembly.Distinct (a : Assembly) : Prop where
  closed : Toml.Distinct a.closed
  current : Toml.Distinct a.current

variable {a a' : Assembly} {parents : List String}

theorem Assembly.Distinct.close (h : a.Distinct) (hc : a.close = some es) : Toml.Distinct es := by
  unfold Assembly.close at hc
  split at hc
  · cases hc
    exact h.current
  · refine h.closed.descend (fun sub sub' hsub hf => ?_) hc
    split at hf
    · cases hf
      exact hsub.put (Item.distinct_table_iff.2 h.current)
    · rename_i elements hfind _
      cases hf
      have hbefore := Item.distinct_tables_iff.1 (hsub.find? hfind)
      refine hsub.put (Item.distinct_tables_iff.2 fun es hes => ?_)
      rcases List.mem_append.1 hes with hes | hes
      · exact hbefore es hes
      · rw [List.mem_singleton.1 hes]
        exact h.current
    · cases hf

theorem Distinct.entriesAt {keys : List String} {found : Entries} (h : Distinct es)
    (hf : Assembly.openTable.entriesAt keys es = some found) : Distinct found := by
  induction keys generalizing es with
  | nil =>
    cases hf
    exact h
  | cons key keys ih =>
    unfold Assembly.openTable.entriesAt at hf
    split at hf
    · cases hf
      exact distinct_nil
    · cases hf
    · rename_i hfind
      exact ih (Item.distinct_table_iff.1 (h.find? hfind)) hf
    · rename_i elements hfind
      split at hf
      · cases hf
      · rename_i sub hlast
        exact ih (Item.distinct_tables_iff.1 (h.find? hfind) sub (List.mem_of_getLast? hlast)) hf

theorem Distinct.withdraw {found left : Entries} (h : Distinct es)
    (hw : Assembly.withdraw key es = some (found, left)) : Distinct found ∧ Distinct left := by
  unfold Assembly.withdraw at hw
  split at hw
  · cases hw
    exact ⟨distinct_nil, h⟩
  · rename_i hfind
    cases hw
    exact ⟨Item.distinct_table_iff.1 (h.find? hfind), h.remove key⟩
  · cases hw

theorem Assembly.Distinct.openTable (h : a.Distinct) (ho : a.openTable parents key = some a') :
    a'.Distinct := by
  obtain ⟨closed, hclosed, ho⟩ := Option.bind_eq_some_iff.1 ho
  obtain ⟨found, hfound, ho⟩ := Option.bind_eq_some_iff.1 ho
  obtain ⟨⟨current, left⟩, hcurrent, ho⟩ := Option.bind_eq_some_iff.1 ho
  obtain ⟨kept, hkept, ho⟩ := Option.bind_eq_some_iff.1 ho
  cases ho
  have hdistinct := h.close hclosed
  refine ⟨hdistinct.descend (fun sub sub' hsub hf => ?_) hkept,
    ((hdistinct.entriesAt hfound).withdraw hcurrent).1⟩
  obtain ⟨⟨out, sub'⟩, hout, rfl⟩ := Option.map_eq_some_iff.1 hf
  exact (hsub.withdraw hout).2

theorem Assembly.Distinct.openElement (h : a.Distinct)
    (ho : a.openElement parents key = some a') : a'.Distinct := by
  obtain ⟨closed, hclosed, ho⟩ := Option.bind_eq_some_iff.1 ho
  obtain ⟨kept, hkept, ho⟩ := Option.bind_eq_some_iff.1 ho
  cases ho
  refine ⟨(h.close hclosed).descend (fun sub sub' hsub hf => ?_) hkept, distinct_nil⟩
  split at hf
  · cases hf
    exact hsub.put (Item.distinct_tables_iff.2 (by simp))
  · cases hf
    exact hsub
  · cases hf

theorem Assembly.Distinct.assignment (h : a.Distinct)
    (ha : assignment? a cs = some (a', rest)) : a'.Distinct := by
  obtain ⟨⟨path, rest'⟩, -, ha⟩ := Option.bind_eq_some_iff.1 ha
  obtain ⟨⟨parts, key⟩, -, ha⟩ := Option.bind_eq_some_iff.1 ha
  simp only at ha
  split at ha
  · obtain ⟨⟨v, rest''⟩, hv, ha⟩ := Option.bind_eq_some_iff.1 ha
    obtain ⟨assigned, hassigned, ha⟩ := Option.bind_eq_some_iff.1 ha
    obtain ⟨left, -, ha⟩ := Option.bind_eq_some_iff.1 ha
    cases ha
    obtain ⟨current, hcurrent, rfl⟩ := Option.map_eq_some_iff.1 hassigned
    exact ⟨h.closed, Distinct.assign ((readDistinct _).value hv) h.current hcurrent⟩
  · cases ha

theorem Assembly.Distinct.header (h : a.Distinct) (hh : header? a cs = some (a', rest)) :
    a'.Distinct := by
  unfold header? at hh
  split at hh
  · obtain ⟨⟨path, rest'⟩, -, hh⟩ := Option.bind_eq_some_iff.1 hh
    obtain ⟨⟨parents, key⟩, -, hh⟩ := Option.bind_eq_some_iff.1 hh
    simp only at hh
    split at hh
    · obtain ⟨opened, hopened, hh⟩ := Option.bind_eq_some_iff.1 hh
      obtain ⟨left, -, hh⟩ := Option.bind_eq_some_iff.1 hh
      cases hh
      exact h.openElement hopened
    · cases hh
  · obtain ⟨⟨path, rest'⟩, -, hh⟩ := Option.bind_eq_some_iff.1 hh
    obtain ⟨⟨parents, key⟩, -, hh⟩ := Option.bind_eq_some_iff.1 hh
    simp only at hh
    split at hh
    · obtain ⟨opened, hopened, hh⟩ := Option.bind_eq_some_iff.1 hh
      obtain ⟨left, -, hh⟩ := Option.bind_eq_some_iff.1 hh
      cases hh
      exact h.openTable hopened
    · cases hh

theorem Assembly.Distinct.lines (h : a.Distinct) (hl : lines? steps a cs = some a') :
    a'.Distinct := by
  induction steps generalizing a cs with
  | zero => cases hl
  | succ steps ih =>
    unfold lines? at hl
    split at hl
    · cases hl
      exact h
    · obtain ⟨⟨next, rest'⟩, hnext, hl⟩ := Option.bind_eq_some_iff.1 hl
      exact ih (h.header hnext) hl
    · split at hl
      · exact ih h hl
      · obtain ⟨⟨next, rest'⟩, hnext, hl⟩ := Option.bind_eq_some_iff.1 hl
        exact ih (h.assignment hnext) hl

/-- No table of a document has a key twice. -/
theorem distinct_of_parse {text : String} {entries : List (String × Value)}
    (h : parse text = .ok entries) : (Value.table entries).Distinct := by
  unfold parse at h
  simp only at h
  split at h
  · cases h
  · rename_i es hes
    cases h
    obtain ⟨a, ha, hclose⟩ := Option.bind_eq_some_iff.1 hes
    have hempty : Assembly.Distinct {} := ⟨distinct_nil, distinct_nil⟩
    exact ((hempty.lines ha).close hclose).toValue

end StructureLint.Toml
