/-!
# Maps keyed by text

A `KeyMap` is a finite map from texts to values, held as a list of entries whose keys increase in
code point order, which is also the order of their UTF-8 bytes. The order is part of the type, so a
map has one representation: two maps that answer every key alike are equal (`ext_get?`).

`insert` replaces an earlier value of the same key (`get?_insert`), so `ofList` keeps the last of
several entries with one key.
-/

namespace StructureLint

/-- A finite map from texts to values, with its entries in increasing order of their keys. -/
structure KeyMap (α : Type) where
  /-- The entries, by increasing key. -/
  entries : List (String × α)
  sorted : entries.Pairwise (·.1 < ·.1)
deriving Repr, DecidableEq

namespace KeyMap

variable {α : Type}

/-- The map without entries. -/
def empty : KeyMap α := ⟨[], .nil⟩

instance : EmptyCollection (KeyMap α) := ⟨empty⟩

instance : Inhabited (KeyMap α) := ⟨empty⟩

/-- The value found first under a key in a list of entries. -/
def lookup (key : String) : List (String × α) → Option α
  | [] => none
  | e :: es => if e.1 = key then some e.2 else lookup key es

/-- The value of a key. -/
def get? (m : KeyMap α) (key : String) : Option α :=
  lookup key m.entries

/-- Whether the map has a value for the key. -/
def contains (m : KeyMap α) (key : String) : Bool :=
  (m.get? key).isSome

/-- The keys, in increasing order. -/
def keys (m : KeyMap α) : List String :=
  m.entries.map (·.1)

/-- Whether the map has no entry. -/
def isEmpty (m : KeyMap α) : Bool :=
  m.entries.isEmpty

/-- Puts an entry into a sorted list at the place of its key, replacing one with the same key. -/
def place (key : String) (value : α) : List (String × α) → List (String × α)
  | [] => [(key, value)]
  | e :: es =>
    if key < e.1 then (key, value) :: e :: es
    else if e.1 = key then (key, value) :: es
    else e :: place key value es

theorem mem_place {key : String} {value : α} {es : List (String × α)} {e : String × α}
    (h : e ∈ place key value es) : e = (key, value) ∨ e ∈ es := by
  induction es with
  | nil => simpa [place] using h
  | cons d es ih =>
    simp only [place] at h
    split at h
    · simpa using h
    · split at h
      · rcases List.mem_cons.1 h with h | h
        · exact .inl h
        · exact .inr (List.mem_cons_of_mem _ h)
      · rcases List.mem_cons.1 h with h | h
        · exact .inr (by simp [h])
        · exact (ih h).imp_right (List.mem_cons_of_mem _)

theorem key_lt_of_not {a b : String} (h : ¬ a < b) (hne : b ≠ a) : b < a := by
  rcases Decidable.em (b < a) with hlt | hlt
  · exact hlt
  · exact absurd (String.le_antisymm (String.not_lt.1 h) (String.not_lt.1 hlt)) hne

theorem sorted_place {key : String} {value : α} {es : List (String × α)}
    (h : es.Pairwise (·.1 < ·.1)) : (place key value es).Pairwise (·.1 < ·.1) := by
  induction es with
  | nil => simp [place]
  | cons e es ih =>
    have he := List.pairwise_cons.1 h
    simp only [place]
    split
    · rename_i hlt
      refine List.pairwise_cons.2 ⟨fun d hd => ?_, h⟩
      rcases List.mem_cons.1 hd with rfl | hd
      · exact hlt
      · exact String.lt_trans hlt (he.1 d hd)
    · rename_i hlt
      split
      · rename_i heq
        exact List.pairwise_cons.2 ⟨fun d hd => heq ▸ he.1 d hd, he.2⟩
      · rename_i hne
        refine List.pairwise_cons.2 ⟨fun d hd => ?_, ih he.2⟩
        rcases mem_place hd with rfl | hd
        · exact key_lt_of_not hlt hne
        · exact he.1 d hd

/-- Sets the value of a key, replacing an earlier one. -/
def insert (m : KeyMap α) (key : String) (value : α) : KeyMap α :=
  ⟨place key value m.entries, sorted_place m.sorted⟩

/-- The map of the entries given, of which the last one counts for a key that is repeated. -/
def ofList (es : List (String × α)) : KeyMap α :=
  es.foldl (fun m e => m.insert e.1 e.2) ∅

theorem lookup_place (key : String) (value : α) (es : List (String × α)) (k : String) :
    lookup k (place key value es) = if key = k then some value else lookup k es := by
  induction es with
  | nil => simp [place, lookup]
  | cons e es ih =>
    simp only [place]
    split
    · simp [lookup]
    · split
      · rename_i heq
        by_cases hk : key = k <;> simp [lookup, heq, hk]
      · rename_i hne
        by_cases he : e.1 = k
        · have : key ≠ k := fun h => hne (he.trans h.symm)
          simp [lookup, he, this]
        · simp [lookup, he, ih]

@[simp]
theorem get?_empty (k : String) : (∅ : KeyMap α).get? k = none := rfl

/-- A new value is found under its key, and every other key keeps its value. -/
theorem get?_insert (m : KeyMap α) (key : String) (value : α) (k : String) :
    (m.insert key value).get? k = if key = k then some value else m.get? k :=
  lookup_place key value m.entries k

theorem lookup_eq_none_of_lt {k : String} {es : List (String × α)} (h : ∀ e ∈ es, k < e.1) :
    lookup k es = none := by
  induction es with
  | nil => rfl
  | cons e es ih =>
    have hne : e.1 ≠ k := fun he => String.lt_irrefl k (by simpa [he] using h e (by simp))
    simp only [lookup, hne, if_false]
    exact ih fun d hd => h d (by simp [hd])

theorem lookup_eq_none_of_lt_head {k : String} {e : String × α} {es : List (String × α)}
    (hk : k < e.1) (h : (e :: es).Pairwise (·.1 < ·.1)) : lookup k (e :: es) = none := by
  refine lookup_eq_none_of_lt fun d hd => ?_
  rcases List.mem_cons.1 hd with rfl | hd
  · exact hk
  · exact String.lt_trans hk ((List.pairwise_cons.1 h).1 d hd)

theorem eq_of_lookup_eq {es ds : List (String × α)} (he : es.Pairwise (·.1 < ·.1))
    (hd : ds.Pairwise (·.1 < ·.1)) (h : ∀ k, lookup k es = lookup k ds) : es = ds := by
  induction es generalizing ds with
  | nil =>
    match ds with
    | [] => rfl
    | d :: ds => simpa [lookup] using h d.1
  | cons e es ih =>
    match ds with
    | [] => simpa [lookup] using h e.1
    | d :: ds =>
      have he' := List.pairwise_cons.1 he
      have hd' := List.pairwise_cons.1 hd
      have hk : e.1 = d.1 := by
        apply String.le_antisymm
        · refine String.not_lt.1 fun hlt => ?_
          have := h d.1
          rw [lookup_eq_none_of_lt_head hlt he] at this
          simp [lookup] at this
        · refine String.not_lt.1 fun hlt => ?_
          have := h e.1
          rw [lookup_eq_none_of_lt_head hlt hd] at this
          simp [lookup] at this
      have hv : e.2 = d.2 := by simpa [lookup, hk] using h e.1
      have hes : es = ds := by
        refine ih he'.2 hd'.2 fun k => ?_
        by_cases hek : e.1 = k
        · rw [lookup_eq_none_of_lt fun x hx => hek ▸ he'.1 x hx,
            lookup_eq_none_of_lt fun x hx => hek ▸ hk ▸ hd'.1 x hx]
        · have := h k
          simpa [lookup, hek, hk ▸ hek] using this
      rw [hes, Prod.ext hk hv]

/-- Maps that answer every key alike are equal. -/
theorem ext_get? {m n : KeyMap α} (h : ∀ k, m.get? k = n.get? k) : m = n := by
  obtain ⟨es, hes⟩ := m
  obtain ⟨ds, hds⟩ := n
  simpa using eq_of_lookup_eq hes hds h

/-- The entries are the keys that have a value, with this value. -/
theorem mem_entries_iff {m : KeyMap α} {k : String} {v : α} :
    (k, v) ∈ m.entries ↔ m.get? k = some v := by
  obtain ⟨es, hes⟩ := m
  show (k, v) ∈ es ↔ lookup k es = some v
  induction es with
  | nil => simp [lookup]
  | cons e es ih =>
    have htail := List.pairwise_cons.1 hes
    rw [List.mem_cons, lookup, ih htail.2]
    split
    · rename_i hk
      have hnone : lookup k es = none := lookup_eq_none_of_lt fun d hd => hk ▸ htail.1 d hd
      rw [hnone]
      constructor
      · rintro (h | h)
        · rw [← h]
        · cases h
      · intro h
        exact .inl (by rw [← hk, ← Option.some.inj h])
    · rename_i hk
      refine or_iff_right ?_
      intro h
      exact hk (by rw [← h])

theorem lookup_filter (p : String → Bool) (es : List (String × α)) (k : String) :
    lookup k (es.filter fun e => p e.1) = if p k then lookup k es else none := by
  induction es with
  | nil => simp [lookup]
  | cons e es ih =>
    by_cases hk : e.1 = k
    · by_cases hp : p k = true <;> simp [lookup, hk, hp, ih]
    · by_cases hp : p e.1 = true <;> simp [lookup, hk, hp, ih]

/-- Maps have the same entries under certain keys if they answer these keys alike. -/
theorem filter_entries_eq_iff {m n : KeyMap α} (p : String → Bool) :
    (m.entries.filter fun e => p e.1) = (n.entries.filter fun e => p e.1) ↔
      ∀ k, p k = true → m.get? k = n.get? k := by
  constructor
  · intro h k hk
    have hlookup := congrArg (lookup k) h
    rwa [lookup_filter, lookup_filter, if_pos hk, if_pos hk] at hlookup
  · intro h
    refine eq_of_lookup_eq (m.sorted.filter _) (n.sorted.filter _) fun k => ?_
    rw [lookup_filter, lookup_filter]
    split
    · exact h k ‹_›
    · rfl

/-- The keys increase strictly, so none occurs twice. -/
theorem keys_sorted (m : KeyMap α) : m.keys.Pairwise (· < ·) :=
  List.pairwise_map.2 m.sorted

theorem place_last {key : String} {value : α} {es : List (String × α)}
    (h : ∀ e ∈ es, e.1 < key) : place key value es = es ++ [(key, value)] := by
  induction es with
  | nil => rfl
  | cons e es ih =>
    have hlt := h e (by simp)
    have hnot : ¬ key < e.1 := fun hgt => String.lt_irrefl _ (String.lt_trans hlt hgt)
    have hne : e.1 ≠ key := fun heq => String.lt_irrefl key (by rwa [heq] at hlt)
    rw [place, if_neg hnot, if_neg hne, ih fun d hd => h d (by simp [hd])]
    rfl

/-- Entries in the order of their keys are put in one after another. -/
theorem foldl_insert_entries {m : KeyMap α} {es : List (String × α)}
    (h : (m.entries ++ es).Pairwise (·.1 < ·.1)) :
    (es.foldl (fun m e => m.insert e.1 e.2) m).entries = m.entries ++ es := by
  induction es generalizing m with
  | nil => simp
  | cons e es ih =>
    have hplace : (m.insert e.1 e.2).entries = m.entries ++ [e] :=
      place_last fun d hd => (List.pairwise_append.1 h).2.2 d hd e (by simp)
    rw [List.foldl_cons, ih, hplace, List.append_assoc]
    · rfl
    · rw [hplace, List.append_assoc]
      exact h

theorem ofList_entries (m : KeyMap α) : ofList m.entries = m := by
  have hentries : (ofList m.entries).entries = m.entries :=
    foldl_insert_entries (m := ∅) m.sorted
  refine ext_get? fun k => ?_
  rw [get?, get?, hentries]

end KeyMap

end StructureLint
