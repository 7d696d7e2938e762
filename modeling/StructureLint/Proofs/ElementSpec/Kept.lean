import StructureLint.ElementSpec.Json
import StructureLint.Proofs.Json.Written
/-!
# Descriptions that are kept as text

The text of a description is read back unless it has too many levels of arrays and objects, and
`nesting` says how many it has. What comes back is proved on readings, from the innermost element
outwards: with `room` levels left a description is read as itself if its `nesting` is at most `room`
and refused as malformed if not (`decode_reading`).

The other direction holds of every text, whatever form it gives to its elements: what could be read
with `room` levels left has a `nesting` of at most `room` (`nesting_le_of_decode`). An element is
put together from fields that come in any order, so the invariant is about the fields read so far
(`Draft.Fits`).
-/

namespace StructureLint.ElementSpec

open StructureLint.Json (Reading reading readings memberReadings complete_memberReadings)

theorem decodeEntries_readings (m : KeyMap String) (es : List (String × String)) :
    decodeEntries m (Reading.named (memberReadings (es.map fun e => (e.1, Json.string e.2)))) =
      .ok (es.foldl (fun m e => m.insert e.1 e.2) m) := by
  induction es generalizing m with
  | nil => rfl
  | cons e es ih =>
    rw [List.map_cons, memberReadings, reading, Reading.named, decodeEntries]
    exact ih _

theorem decodeAttributes_reading (room : Nat) (m : KeyMap String) :
    decodeAttributes room (reading (.object (m.entries.map fun e => (e.1, .string e.2)))) =
      if 1 ≤ room then .ok m else .error .malformed := by
  rw [reading, decodeAttributes, decodeEntries_readings, complete_memberReadings]
  have hm : m.entries.foldl (fun m e => m.insert e.1 e.2) ∅ = m := m.ofList_entries
  cases room with
  | zero => rfl
  | succ room => simp [hm]

theorem decodeFields_attributes {d : Draft} (hd : d.attributes = none) (room : Nat)
    (m : KeyMap String) (ms : List (String × Json)) :
    decodeFields room d (memberReadings
        ((if m.isEmpty then []
          else [("attributes", .object (m.entries.map fun e => (e.1, .string e.2)))]) ++ ms)) =
      if (if m.isEmpty then 0 else 1) ≤ room then
        decodeFields room { d with attributes := if m.isEmpty then none else some m }
          (memberReadings ms)
      else .error .malformed := by
  cases hm : m.isEmpty with
  | true => simp [← hd]
  | false =>
    simp only [Bool.false_eq_true, if_false, List.singleton_append, memberReadings, decodeFields,
      String.reduceEq, if_true, hd, once, decodeAttributes_reading]
    by_cases hroom : 1 ≤ room
    · simp only [if_pos hroom]
    · simp only [if_neg hroom]

theorem decodeFields_children {d : Draft} (hd : d.children = none) {room : Nat}
    {cs : List ElementSpec}
    (hcs : cs ≠ [] → decodeChildren room (reading (.array (allToJson cs))) =
      if nestings cs ≤ room then .ok cs else .error .malformed) :
    decodeFields room d
        (memberReadings (if cs.isEmpty then [] else [("children", .array (allToJson cs))])) =
      if nestings cs ≤ room then
        .ok { d with children := if cs.isEmpty then none else some cs }
      else .error .malformed := by
  match cs with
  | [] => simp [← hd, nestings, memberReadings, decodeFields]
  | c :: cs =>
    simp only [List.isEmpty_cons, Bool.false_eq_true, if_false, memberReadings, decodeFields,
      String.reduceEq, if_true, hd, once, hcs (List.cons_ne_nil c cs)]
    by_cases hroom : nestings (c :: cs) ≤ room
    · simp only [if_pos hroom]
    · simp only [if_neg hroom]

theorem finish_written (name : String) (attributes : KeyMap String) (children : List ElementSpec) :
    Draft.finish
        { name := some name
          attributes := if attributes.isEmpty then none else some attributes
          children := if children.isEmpty then none else some children } =
      .ok ⟨name, attributes, children⟩ := by
  have ha : (if attributes.isEmpty then none else some attributes).getD ∅ = attributes := by
    obtain ⟨es, hes⟩ := attributes
    cases es <;> rfl
  have hc : (if children.isEmpty then none else some children).getD [] = children := by
    cases children <;> rfl
  rw [Draft.finish, ha, hc]

mutual

theorem decode_reading : ∀ (s : ElementSpec) (room : Nat),
    decode room (reading s.toJson) = if s.nesting ≤ room then .ok s else .error .malformed
  | ⟨name, attributes, children⟩, 0 => by simp [toJson, reading, decode, nesting]
  | ⟨name, attributes, children⟩, room + 1 => by
    have hname : ∀ ms, decodeFields room {} ((some "name", .string (some name)) :: ms) =
        decodeFields room { name := some name } ms := fun ms => by
      rw [decodeFields, if_pos rfl]
      rfl
    -- The two optional fields are read one after the other, each within all that is left.
    rw [toJson, nesting, reading, decode, if_neg (Nat.succ_ne_zero room), Nat.add_sub_cancel,
      memberReadings, reading, hname, decodeFields_attributes rfl,
      decodeFields_children rfl (decodeChildren_reading children room)]
    have hroom : 1 + max (if attributes.isEmpty then 0 else 1) (nestings children) ≤ room + 1 ↔
        (if attributes.isEmpty then 0 else 1) ≤ room ∧ nestings children ≤ room := by
      omega
    by_cases ha : (if attributes.isEmpty then 0 else 1) ≤ room
    · by_cases hc : nestings children ≤ room
      · simp only [if_pos ha, if_pos hc, if_pos (hroom.2 ⟨ha, hc⟩), if_true, finish_written]
      · simp only [if_pos ha, if_neg hc, if_neg fun h => hc (hroom.1 h).2]
    · simp only [if_neg ha, if_neg fun h => ha (hroom.1 h).1]

theorem decodeItems_readings : ∀ (ss : List ElementSpec) (room : Nat),
    decodeItems room (readings (allToJson ss)) =
      if nestings ss ≤ room + 1 then .ok ss else .error .malformed
  | [], room => by simp [allToJson, readings, decodeItems, nestings]
  | s :: ss, room => by
    rw [allToJson, readings, decodeItems, decode_reading s room, decodeItems_readings ss room,
      nestings]
    by_cases hs : s.nesting ≤ room
    · have hmax : max (1 + s.nesting) (nestings ss) ≤ room + 1 ↔ nestings ss ≤ room + 1 := by
        omega
      simp only [if_pos hs, hmax]
      by_cases hss : nestings ss ≤ room + 1
      · rw [if_pos hss, if_pos hss]
      · rw [if_neg hss, if_neg hss]
    · have hmax : ¬ max (1 + s.nesting) (nestings ss) ≤ room + 1 := by omega
      rw [if_neg hs, if_neg hmax]

theorem decodeChildren_reading : ∀ (ss : List ElementSpec) (room : Nat), ss ≠ [] →
    decodeChildren room (reading (.array (allToJson ss))) =
      if nestings ss ≤ room then .ok ss else .error .malformed
  | [], _, h => absurd rfl h
  | s :: ss, 0, _ => by simp [reading, decodeChildren, nestings]
  | s :: ss, room + 1, _ => by
    rw [reading, decodeChildren, if_neg (Nat.succ_ne_zero room), Nat.add_sub_cancel,
      decodeItems_readings (s :: ss) room]
    by_cases h : nestings (s :: ss) ≤ room + 1
    · simp [h]
    · simp [h]

end

/-! ## What is read fits -/

/-- The fields that have been read fit into an object in which `room` levels are left. -/
structure Draft.Fits (room : Nat) (d : Draft) : Prop where
  attributes : ∀ m ∈ d.attributes, 1 ≤ room
  children : ∀ cs ∈ d.children, nestings cs ≤ room

theorem fits_nothing (room : Nat) : Draft.Fits room {} where
  attributes _ h := by cases h
  children _ h := by cases h

theorem nesting_le {room : Nat} {attributes : KeyMap String} {children : List ElementSpec}
    (name : String) (ha : attributes ≠ ∅ → 1 ≤ room) (hc : nestings children ≤ room) :
    nesting ⟨name, attributes, children⟩ ≤ room + 1 := by
  have ha : (if attributes.isEmpty then 0 else 1) ≤ room := by
    split
    · exact Nat.zero_le room
    · rename_i hne
      exact ha fun he => hne (by rw [he]; rfl)
  rw [nesting]
  omega

theorem Draft.Fits.finish {room : Nat} {d : Draft} {s : ElementSpec} (h : d.Fits room)
    (hs : d.finish = .ok s) : s.nesting ≤ room + 1 := by
  obtain ⟨name, attributes, children⟩ := d
  cases name with
  | none => cases hs
  | some name =>
    cases hs
    refine nesting_le name (fun hne => ?_) ?_
    · cases attributes with
      | none => exact absurd rfl hne
      | some m => exact h.attributes m rfl
    · cases children with
      | none => exact Nat.zero_le room
      | some cs => exact h.children cs rfl

theorem room_of_decodeAttributes {room : Nat} {v : Reading} {m : KeyMap String}
    (h : decodeAttributes room v = .ok m) : 1 ≤ room := by
  cases v with
  | object members closed =>
    cases room with
    | zero => cases h
    | succ room => exact Nat.le_add_left 1 room
  | _ => cases h

theorem ok_of_short {α : Type} {closed : Bool} {e : Except ReadError α} {a : α}
    (h : short closed e = .ok a) : e = .ok a := by
  cases closed with
  | false => cases h
  | true => exact h

/-- A field that is read without an error is one of the three or is passed over. -/
theorem decodeFields_cons {room : Nat} {d e : Draft} {key : String} {v : Reading}
    {ms : List (Option String × Reading)}
    (h : decodeFields room d ((some key, v) :: ms) = .ok e) :
    (∃ name, decodeFields room { d with name := some name } ms = .ok e) ∨
      (∃ m, decodeAttributes room v = .ok m ∧
        decodeFields room { d with attributes := some m } ms = .ok e) ∨
      (∃ cs, decodeChildren room v = .ok cs ∧
        decodeFields room { d with children := some cs } ms = .ok e) ∨
      decodeFields room d ms = .ok e := by
  rw [decodeFields] at h
  by_cases hname : key = "name"
  · rw [if_pos hname] at h
    split at h
    · cases h
    · split at h
      · cases h
      · exact .inl ⟨_, h⟩
  rw [if_neg hname] at h
  by_cases hattributes : key = "attributes"
  · rw [if_pos hattributes] at h
    split at h
    · cases h
    · split at h
      · cases h
      · rename_i m hm
        exact .inr (.inl ⟨m, hm, h⟩)
  rw [if_neg hattributes] at h
  by_cases hchildren : key = "children"
  · rw [if_pos hchildren] at h
    split at h
    · cases h
    · split at h
      · cases h
      · rename_i cs hcs
        exact .inr (.inr (.inl ⟨cs, hcs, h⟩))
  rw [if_neg hchildren] at h
  split at h
  · exact .inr (.inr (.inr h))
  · cases h

mutual

theorem nesting_le_of_decode : ∀ (v : Reading) {room : Nat} {s : ElementSpec},
    decode room v = .ok s → s.nesting ≤ room
  | v, 0, s, h => by
    match v with
    | .object members closed => cases h
    | .array [] closed => cases h
    | .array (v :: vs) closed => cases h
    | .null | .boolean _ | .number _ | .string _ | .malformed => cases h
  | .object members closed, room + 1, s, h => by
    rw [decode, if_neg (Nat.succ_ne_zero room)] at h
    split at h
    · cases h
    · rename_i d hd
      have hfits := fits_of_decodeFields members (fits_nothing room) hd
      split at h
      · exact hfits.finish h
      · cases h
  | .array [] closed, room + 1, s, h => by
    rw [decode, if_neg (Nat.succ_ne_zero room)] at h
    cases ok_of_short h
  | .array (v :: vs) closed, room + 1, s, h => by
    rw [decode, if_neg (Nat.succ_ne_zero room)] at h
    -- The array may end after each of its items, and what it leaves out needs no level.
    split at h
    · cases h
    · rename_i name hname
      split at h
      · cases ok_of_short h
        exact nesting_le name (fun hne => absurd rfl hne) (Nat.zero_le room)
      · rename_i vs w ws
        split at h
        · cases h
        · rename_i attributes ha
          have ha := room_of_decodeAttributes ha
          split at h
          · cases ok_of_short h
            exact nesting_le name (fun _ => ha) (Nat.zero_le room)
          · rename_i xs x xs
            split at h
            · cases h
            · rename_i children hc
              have hc := nestings_le_of_decodeChildren x hc
              split at h
              · cases ok_of_short h
                exact nesting_le name (fun _ => ha) hc
              · cases h
  | .null, _ + 1, _, h | .boolean _, _ + 1, _, h | .number _, _ + 1, _, h
  | .string _, _ + 1, _, h | .malformed, _ + 1, _, h => by cases h

theorem fits_of_decodeFields : ∀ (ms : List (Option String × Reading)) {room : Nat} {d e : Draft},
    d.Fits room → decodeFields room d ms = .ok e → e.Fits room
  | [], room, d, e, hd, h => by
    cases h
    exact hd
  | (none, v) :: ms, room, d, e, hd, h => by cases h
  | (some key, v) :: ms, room, d, e, hd, h => by
    rcases decodeFields_cons h with ⟨name, h⟩ | ⟨m, hm, h⟩ | ⟨cs, hcs, h⟩ | h
    · have hd' : Draft.Fits room { d with name := some name } := ⟨hd.attributes, hd.children⟩
      exact fits_of_decodeFields ms hd' h
    · have hd' : Draft.Fits room { d with attributes := some m } :=
        ⟨fun _ _ => room_of_decodeAttributes hm, hd.children⟩
      exact fits_of_decodeFields ms hd' h
    · have hd' : Draft.Fits room { d with children := some cs } := by
        refine ⟨hd.attributes, fun ds hds => ?_⟩
        cases hds
        exact nestings_le_of_decodeChildren v hcs
      exact fits_of_decodeFields ms hd' h
    · exact fits_of_decodeFields ms hd h

theorem nestings_le_of_decodeChildren : ∀ (v : Reading) {room : Nat} {ss : List ElementSpec},
    decodeChildren room v = .ok ss → nestings ss ≤ room
  | .array items closed, 0, ss, h => by cases h
  | .array items closed, room + 1, ss, h => by
    rw [decodeChildren, if_neg (Nat.succ_ne_zero room)] at h
    split at h
    · cases h
    · rename_i ts hts
      split at h
      · cases h
        exact nestings_le_of_decodeItems items hts
      · cases h

theorem nestings_le_of_decodeItems : ∀ (vs : List Reading) {room : Nat} {ss : List ElementSpec},
    decodeItems room vs = .ok ss → nestings ss ≤ room + 1
  | [], room, ss, h => by
    cases h
    exact Nat.zero_le (room + 1)
  | v :: vs, room, ss, h => by
    rw [decodeItems] at h
    split at h
    · cases h
    · rename_i s hs
      split at h
      · cases h
      · rename_i ts hts
        cases h
        have hs := nesting_le_of_decode v hs
        have hts := nestings_le_of_decodeItems vs hts
        rw [nestings]
        omega

end

/-! ## Texts -/

theorem readWith_toText (room : Nat) (s : ElementSpec) :
    Json.readWith (decode room) s.toText =
      if s.nesting ≤ room then .ok s else .error .malformed := by
  rw [Json.readWith, toText, Json.scan_compact]
  simp only [decode_reading, if_true]
  by_cases h : s.nesting ≤ room
  · simp only [if_pos h]
  · simp only [if_neg h]

theorem nesting_lt_of_ofText {text : String} {s : ElementSpec} (h : ofText text = .ok s) :
    s.nesting < 128 := by
  rw [ofText, Json.readWith] at h
  refine Nat.lt_succ_of_le (nesting_le_of_decode (Json.scan text).value ?_)
  cases hs : decode Reading.maxNesting (Json.scan text).value with
  | error e =>
    rw [hs] at h
    cases h
  | ok t =>
    simp only [hs] at h
    split at h
    · cases h
      exact hs
    · cases h

theorem ofText_toText (s : ElementSpec) :
    ofText s.toText = if s.nesting < 128 then .ok s else .error .malformed := by
  have hlimit : s.nesting ≤ Reading.maxNesting ↔ s.nesting < 128 := Nat.lt_succ_iff.symm
  rw [ofText, readWith_toText]
  by_cases h : s.nesting < 128
  · rw [if_pos h, if_pos (hlimit.2 h)]
    rfl
  · rw [if_neg h, if_neg fun hle => h (hlimit.1 hle)]
    rfl

/-- The levels of arrays and objects decide whether a description can be read back from its text,
and every description that is read from some text can. -/
theorem kept_text_round_trip :
    (∀ (room : Nat) (s : ElementSpec), Json.readWith (decode room) s.toText =
        if s.nesting ≤ room then .ok s else .error .malformed) ∧
      (∀ s : ElementSpec,
        ofText s.toText = if s.nesting < 128 then .ok s else .error .malformed) ∧
      ∀ (text : String) (s : ElementSpec), ofText text = .ok s →
        s.nesting < 128 ∧ ofText s.toText = .ok s := by
  refine ⟨readWith_toText, ofText_toText, fun text s h => ?_⟩
  have hs := nesting_lt_of_ofText h
  exact ⟨hs, by rw [ofText_toText, if_pos hs]⟩

/-- A description inside `n` elements. -/
def wrapped (s : ElementSpec) : Nat → ElementSpec
  | 0 => s
  | n + 1 => { name := "div", children := [wrapped s n] }

theorem nesting_wrapped (s : ElementSpec) (n : Nat) :
    (wrapped s n).nesting = s.nesting + 2 * n := by
  induction n with
  | zero => rfl
  | succ n ih =>
    have hstep : (wrapped s (n + 1)).nesting = 1 + max 0 (max (1 + (wrapped s n).nesting) 0) := rfl
    omega

/-- An array with a key twice and with an unknown field below it. -/
def arrayText : String :=
  "[\"html\", \x7b\"lang\": \"nl\", \"lang\": \"en\"\x7d, "
    ++ "[\x7b\"id\": [true], \"name\": \"p\"\x7d]]"

/-- What `arrayText` says. -/
def arraySpec : ElementSpec :=
  { name := "html", attributes := .ofList [("lang", "en")], children := [{ name := "p" }] }

theorem kept_text_round_trip_limits :
    ofText (wrapped { name := "p" } 63).toText = .ok (wrapped { name := "p" } 63) ∧
      ofText (wrapped { name := "p", attributes := .ofList [("id", "x")] } 63).toText =
        .error .malformed ∧
      ofText arrayText = .ok arraySpec ∧ ofText arraySpec.toText = .ok arraySpec := by
  have hread : ofText arrayText = .ok arraySpec := by
    have hsome : (ofText arrayText).toOption = some arraySpec := by decide +kernel
    cases hok : ofText arrayText with
    | error e =>
      rw [hok] at hsome
      cases hsome
    | ok s =>
      rw [hok] at hsome
      cases hsome
      rfl
  have hp : nesting { name := "p" } = 1 := rfl
  have hid : nesting { name := "p", attributes := .ofList [("id", "x")] } = 2 := rfl
  refine ⟨?_, ?_, hread, (kept_text_round_trip.2.2 arrayText arraySpec hread).2⟩
  · rw [kept_text_round_trip.2.1, nesting_wrapped, hp]
    rfl
  · rw [kept_text_round_trip.2.1, nesting_wrapped, hid]
    rfl

end StructureLint.ElementSpec
