import StructureLint.Proofs.Json.Strings
/-!
# A written value is read back

What the reader makes of the text of a value is `reading`. It reads this text to its end and no
further, whatever follows that may stand after a value (`scanValue_chars`), within a number of
steps that the length of the text bounds. So the text of a value is read as this value and as
nothing else (`scan_compact`).
-/

namespace StructureLint.Json

mutual

/-- What the text of a value is read as. -/
def reading : Json → Reading
  | .null => .null
  | .boolean b => .boolean b
  | .integer i => .number (Numeral.read ⟨i < 0, Nat.toDigits 10 i.natAbs, none, none⟩)
  | .string s => .string (some s)
  | .array items => .array (readings items) true
  | .object members => .object (memberReadings members) true

/-- What the texts of several values are read as. -/
def readings : List Json → List Reading
  | [] => []
  | j :: js => reading j :: readings js

/-- What the texts of several members are read as. -/
def memberReadings : List (String × Json) → List (Option String × Reading)
  | [] => []
  | (key, j) :: ms => (some key, reading j) :: memberReadings ms

end

theorem named_memberReadings (ms : List (String × Json)) :
    Reading.named (memberReadings ms) = ms.map fun m => (m.1, reading m.2) := by
  induction ms with
  | nil => rfl
  | cons m ms ih => rw [memberReadings, Reading.named, ih, List.map_cons]

theorem complete_memberReadings (ms : List (String × Json)) :
    Reading.complete (memberReadings ms) true = true := by
  induction ms with
  | nil => rfl
  | cons m ms ih =>
    rw [memberReadings]
    simpa [Reading.complete] using ih

/-- The text has ended, or goes on as it may after a value. -/
def Closes (rest : List Char) : Prop :=
  ∀ c ∈ rest.head?, c = ',' ∨ c = ']' ∨ c = '}'

theorem closes_nil : Closes [] := by
  simp [Closes]

theorem closes_cons {c : Char} {cs : List Char} :
    Closes (c :: cs) ↔ c = ',' ∨ c = ']' ∨ c = '}' := by
  simp [Closes]

theorem skipBlanks_cons {c : Char} (h : isBlank c = false) (cs : List Char) :
    skipBlanks (c :: cs) = c :: cs := by
  simp [skipBlanks, h]

/-! ## Whole numbers -/

theorem digits_append {ds rest : List Char} (hds : ∀ d ∈ ds, d.isDigit = true)
    (hrest : Closes rest) : digits (ds ++ rest) = (ds, rest) := by
  have hend : rest.takeWhile Char.isDigit = [] ∧ rest.dropWhile Char.isDigit = rest := by
    match rest, hrest with
    | [], _ => exact ⟨rfl, rfl⟩
    | c :: rest, hrest =>
      have hc : c.isDigit = false := by
        rcases closes_cons.1 hrest with rfl | rfl | rfl <;> rfl
      simp [hc]
  rw [digits, List.takeWhile_append_of_pos hds, List.dropWhile_append_of_pos hds, hend.1, hend.2,
    List.append_nil]

theorem isDigit_of_mem {n : Nat} {d : Char} (h : d ∈ Nat.toDigits 10 n) : d.isDigit = true :=
  Nat.isDigit_of_mem_toDigits (by decide) (by decide) h

/-- Only zero itself begins with a zero. -/
theorem toDigits_leading {n : Nat} {ds : List Char} (h : Nat.toDigits 10 n = '0' :: ds) :
    ds = [] := by
  induction n using Nat.strongRecOn generalizing ds with
  | _ n ih =>
    rw [Nat.toDigits_eq_if (by decide)] at h
    split at h
    · exact (List.cons.inj h).2.symm
    · rename_i hn
      obtain ⟨d, es, hd⟩ := List.exists_cons_of_ne_nil (Nat.toDigits_ne_nil (n := n / 10) (b := 10))
      rw [hd, List.cons_append] at h
      obtain ⟨rfl, -⟩ := List.cons.inj h
      have hes := ih (n / 10) (by omega) hd
      subst hes
      have hzero := congrArg (Nat.ofDigitChars 10 · 0) hd
      rw [Nat.ofDigitChars_ten_toDigits] at hzero
      have : n / 10 = 0 := hzero
      omega

theorem scanUnsigned_toDigits (negative : Bool) (n : Nat) {rest : List Char}
    (hrest : Closes rest) :
    scanUnsigned negative (Nat.toDigits 10 n ++ rest) =
      some (⟨negative, Nat.toDigits 10 n, none, none⟩, rest) := by
  have hfraction : scanFraction rest = some (none, rest) := by
    match rest, hrest with
    | [], _ => rfl
    | c :: rest, hrest => rcases closes_cons.1 hrest with rfl | rfl | rfl <;> rfl
  have hexponent : scanExponent rest = some (none, rest) := by
    match rest, hrest with
    | [], _ => rfl
    | c :: rest, hrest => rcases closes_cons.1 hrest with rfl | rfl | rfl <;> rfl
  rw [scanUnsigned, digits_append (fun d => isDigit_of_mem) hrest]
  split
  · rename_i h
    exact absurd (Prod.mk.inj h).1 Nat.toDigits_ne_nil
  · rename_i h
    cases toDigits_leading (Prod.mk.inj h).1
  · rename_i h
    obtain ⟨rfl, rfl⟩ := Prod.mk.inj h
    rw [hfraction]
    show (scanExponent rest).bind _ = _
    rw [hexponent]
    rfl

theorem scanNumber_integer (i : Int) {rest : List Char} (hrest : Closes rest) :
    scanNumber ((toString i).toList ++ rest) =
      some (⟨i < 0, Nat.toDigits 10 i.natAbs, none, none⟩, rest) := by
  cases i with
  | ofNat n =>
    have htext : (toString (Int.ofNat n)).toList = Nat.toDigits 10 n := by
      show (toString n).toList = _
      simp
    have hminus : ∀ cs, Nat.toDigits 10 n ++ rest ≠ '-' :: cs := by
      intro cs hcs
      obtain ⟨d, ds, hd⟩ := List.exists_cons_of_ne_nil (Nat.toDigits_ne_nil (n := n) (b := 10))
      rw [hd] at hcs
      have hdigit := isDigit_of_mem (n := n) (d := d) (by simp [hd])
      rw [(List.cons.inj hcs).1] at hdigit
      cases hdigit
    rw [htext, scanNumber]
    · exact scanUnsigned_toDigits false n hrest
    · exact hminus
  | negSucc n =>
    have htext : (toString (Int.negSucc n)).toList = '-' :: Nat.toDigits 10 (n + 1) := by
      show ("-" ++ toString (n + 1)).toList = _
      simp
    have hnegative : decide (Int.negSucc n < 0) = true := decide_eq_true (Int.negSucc_lt_zero n)
    rw [htext, List.cons_append, scanNumber, hnegative]
    exact scanUnsigned_toDigits true (n + 1) hrest

/-- A number begins with a digit or a sign. -/
theorem toString_head (i : Int) :
    ∃ c cs, (toString i).toList = c :: cs ∧ (c = '-' ∨ c.isDigit = true) := by
  cases i with
  | ofNat n =>
    obtain ⟨d, ds, hd⟩ := List.exists_cons_of_ne_nil (Nat.toDigits_ne_nil (n := n) (b := 10))
    refine ⟨d, ds, ?_, .inr (isDigit_of_mem (n := n) (by simp [hd]))⟩
    show (toString n).toList = _
    simpa using hd
  | negSucc n =>
    refine ⟨'-', Nat.toDigits 10 (n + 1), ?_, .inl rfl⟩
    show ("-" ++ toString (n + 1)).toList = _
    simp

/-- So it begins neither with a blank nor as another value does. -/
theorem ne_of_numeral {c : Char} (hc : c = '-' ∨ c.isDigit = true) :
    ∀ d ∈ [' ', '\t', '\n', '\r', '"', '[', ']', '{', 'n', 't', 'f'], c ≠ d := by
  have hall : [' ', '\t', '\n', '\r', '"', '[', ']', '{', 'n', 't', 'f'].all
      (fun d => d != '-' && !d.isDigit) = true := by decide
  rintro d hd rfl
  obtain ⟨hsign, hdigit⟩ : c ≠ '-' ∧ c.isDigit = false := by
    simpa using List.all_eq_true.1 hall c hd
  rcases hc with hc | hc
  · exact hsign hc
  · rw [hdigit] at hc
    cases hc

theorem isBlank_of_numeral {c : Char} (hc : c = '-' ∨ c.isDigit = true) : isBlank c = false := by
  have hne := ne_of_numeral hc
  simp [isBlank, hne ' ', hne '\t', hne '\n', hne '\r']

/-! ## What follows what -/

section

variable {steps : Nat} {c : Char} {cs more rest : List Char} {v : Reading} {vs : List Reading}
  {ps : List StringPart} {key : String} {ms : List (Option String × Reading)}

theorem scanValue_number {n : Numeral} (hc : c = '-' ∨ c.isDigit = true)
    (h : scanNumber (c :: cs) = some (n, rest)) :
    scanValue (steps + 1) (c :: cs) = (.number n.read, some rest) := by
  have hne := ne_of_numeral hc
  rw [scanValue, skipBlanks_cons (isBlank_of_numeral hc)]
  split <;> rename_i he
  · cases he
  · exact absurd (List.cons.inj he).1 (hne '"' (by simp))
  · exact absurd (List.cons.inj he).1 (hne '[' (by simp))
  · exact absurd (List.cons.inj he).1 (hne '{' (by simp))
  · exact absurd (List.cons.inj he).1 (hne 'n' (by simp))
  · exact absurd (List.cons.inj he).1 (hne 't' (by simp))
  · exact absurd (List.cons.inj he).1 (hne 'f' (by simp))
  · rw [h]

theorem scanValue_string (h : scanString cs = some (ps, rest)) :
    scanValue (steps + 1) ('"' :: cs) = (.string (textOf? ps), some rest) := by
  rw [scanValue, skipBlanks_cons (by decide)]
  simp only [h]

theorem scanValue_items (hblank : isBlank c = false) (hclose : c ≠ ']')
    (h : scanItems steps (c :: cs) = (vs, some rest)) :
    scanValue (steps + 1) ('[' :: c :: cs) = (.array vs true, some rest) := by
  rw [scanValue, skipBlanks_cons (by decide)]
  simp only [skipBlanks_cons hblank]
  split
  · rename_i hcs
    exact absurd (List.cons.inj hcs).1 hclose
  · rw [h]
    rfl

theorem scanValue_members (h : scanMembers steps ('"' :: cs) = (ms, some rest)) :
    scanValue (steps + 1) ('{' :: '"' :: cs) = (.object ms true, some rest) := by
  rw [scanValue, skipBlanks_cons (by decide)]
  simp only [skipBlanks_cons (show isBlank '"' = false by decide)]
  split
  · rename_i hcs
    cases hcs
  · rw [h]
    rfl

theorem scanItems_last (h : scanValue steps cs = (v, some (']' :: rest))) :
    scanItems (steps + 1) cs = ([v], some rest) := by
  rw [scanItems, h]
  simp only [skipBlanks_cons (show isBlank ']' = false by decide)]

theorem scanItems_more (h : scanValue steps cs = (v, some (',' :: more)))
    (hmore : scanItems steps more = (vs, some rest)) :
    scanItems (steps + 1) cs = (v :: vs, some rest) := by
  rw [scanItems, h]
  simp only [skipBlanks_cons (show isBlank ',' = false by decide), hmore]

theorem scanMembers_last (hkey : scanString cs = some (ps, ':' :: more))
    (hv : scanValue steps more = (v, some ('}' :: rest))) :
    scanMembers (steps + 1) ('"' :: cs) = ([(textOf? ps, v)], some rest) := by
  rw [scanMembers, skipBlanks_cons (by decide)]
  simp only [hkey, skipBlanks_cons (show isBlank ':' = false by decide), hv,
    skipBlanks_cons (show isBlank '}' = false by decide)]

theorem scanMembers_more {after : List Char} (hkey : scanString cs = some (ps, ':' :: more))
    (hv : scanValue steps more = (v, some (',' :: after)))
    (hafter : scanMembers steps after = (ms, some rest)) :
    scanMembers (steps + 1) ('"' :: cs) = ((textOf? ps, v) :: ms, some rest) := by
  rw [scanMembers, skipBlanks_cons (by decide)]
  simp only [hkey, skipBlanks_cons (show isBlank ':' = false by decide), hv,
    skipBlanks_cons (show isBlank ',' = false by decide), hafter]

end

/-! ## Values -/

theorem chars_head (j : Json) : ∃ c cs, chars j = c :: cs ∧ isBlank c = false ∧ c ≠ ']' := by
  cases j with
  | null => exact ⟨_, _, rfl, rfl, by decide⟩
  | boolean b => cases b <;> exact ⟨_, _, rfl, rfl, by decide⟩
  | integer i =>
    obtain ⟨c, cs, hcs, hc⟩ := toString_head i
    exact ⟨c, cs, hcs, isBlank_of_numeral hc, ne_of_numeral hc ']' (by simp)⟩
  | string s => exact ⟨_, _, rfl, rfl, by decide⟩
  | array items => exact ⟨'[', _, by rw [chars], rfl, by decide⟩
  | object members => exact ⟨'{', _, by rw [chars], rfl, by decide⟩

theorem itemChars_cons (j k : Json) (ks : List Json) :
    itemChars (j :: k :: ks) = chars j ++ ',' :: itemChars (k :: ks) := by
  rw [itemChars]

theorem itemChars_head (j : Json) (js : List Json) :
    ∃ c cs, itemChars (j :: js) = c :: cs ∧ isBlank c = false ∧ c ≠ ']' := by
  obtain ⟨c, cs, hcs, hblank, hclose⟩ := chars_head j
  cases js with
  | nil => exact ⟨c, cs, by rw [itemChars, hcs], hblank, hclose⟩
  | cons k ks => exact ⟨c, _, by rw [itemChars_cons, hcs, List.cons_append], hblank, hclose⟩

theorem memberChars_singleton (key : String) (j : Json) :
    memberChars [(key, j)] = '"' :: (key.toList.flatMap escape ++ '"' :: ':' :: chars j) := by
  simp [memberChars, quote]

theorem memberChars_cons (key : String) (j : Json) (m : String × Json) (ms : List (String × Json)) :
    memberChars ((key, j) :: m :: ms) =
      '"' :: (key.toList.flatMap escape ++
        '"' :: ':' :: (chars j ++ ',' :: memberChars (m :: ms))) := by
  obtain ⟨k, v⟩ := m
  simp [memberChars, quote]

theorem memberChars_head (m : String × Json) (ms : List (String × Json)) :
    ∃ cs, memberChars (m :: ms) = '"' :: cs := by
  obtain ⟨key, j⟩ := m
  cases ms with
  | nil => exact ⟨_, memberChars_singleton key j⟩
  | cons m ms => exact ⟨_, memberChars_cons key j m ms⟩

-- A list of items or members takes one step more than its parts, so in each of the three the
-- length of the text is bound enough.
mutual

/-- The reader takes the text of a value off the front, and no more. -/
theorem scanValue_chars : ∀ (j : Json) (steps : Nat) (rest : List Char), Closes rest →
    (chars j).length ≤ steps → scanValue steps (chars j ++ rest) = (reading j, some rest)
  | j, 0, _, _, hlen => by
    obtain ⟨c, cs, hcs, -⟩ := chars_head j
    rw [hcs] at hlen
    cases hlen
  | .null, steps + 1, _, _, _ => rfl
  | .boolean true, steps + 1, _, _, _ => rfl
  | .boolean false, steps + 1, _, _, _ => rfl
  | .integer i, steps + 1, rest, hrest, _ => by
    obtain ⟨c, cs, hcs, hc⟩ := toString_head i
    have hscan := scanNumber_integer i hrest
    show scanValue (steps + 1) ((toString i).toList ++ rest) = _
    rw [hcs, List.cons_append] at hscan ⊢
    rw [scanValue_number hc hscan, reading]
  | .string s, steps + 1, rest, _, _ => by
    show scanValue (steps + 1) ('"' :: (s.toList.flatMap escape ++ ['"']) ++ rest) = _
    rw [List.cons_append, List.append_assoc, List.singleton_append,
      scanValue_string (scanString_quoted s.toList rest), textOf?_parts, reading]
  | .array [], steps + 1, _, _, _ => by
    rw [chars, itemChars, reading, readings]
    rfl
  | .array (j :: js), steps + 1, rest, _, hlen => by
    rw [chars, List.length_cons, List.length_append, List.length_singleton] at hlen
    have hitems := scanItems_chars j js steps rest (by omega)
    obtain ⟨c, cs, hcs, hblank, hclose⟩ := itemChars_head j js
    rw [hcs, List.cons_append] at hitems
    rw [chars, reading, hcs, List.cons_append, List.append_assoc, List.cons_append,
      List.singleton_append]
    exact scanValue_items hblank hclose hitems
  | .object [], steps + 1, _, _, _ => by
    rw [chars, memberChars, reading, memberReadings]
    rfl
  | .object (m :: ms), steps + 1, rest, _, hlen => by
    rw [chars, List.length_cons, List.length_append, List.length_singleton] at hlen
    have hmembers := scanMembers_chars m ms steps rest (by omega)
    obtain ⟨cs, hcs⟩ := memberChars_head m ms
    rw [hcs, List.cons_append] at hmembers
    rw [chars, reading, hcs, List.cons_append, List.append_assoc, List.cons_append,
      List.singleton_append]
    exact scanValue_members hmembers

theorem scanItems_chars : ∀ (j : Json) (js : List Json) (steps : Nat) (rest : List Char),
    (itemChars (j :: js)).length < steps →
    scanItems steps (itemChars (j :: js) ++ ']' :: rest) = (readings (j :: js), some rest)
  | _, _, 0, _, hlen => by cases hlen
  | j, [], steps + 1, rest, hlen => by
    rw [itemChars] at hlen ⊢
    rw [readings, readings]
    exact scanItems_last (scanValue_chars j steps _ (closes_cons.2 (by simp)) (by omega))
  | j, k :: ks, steps + 1, rest, hlen => by
    rw [itemChars_cons] at hlen ⊢
    rw [List.length_append, List.length_cons] at hlen
    rw [readings, List.append_assoc]
    exact scanItems_more (scanValue_chars j steps _ (closes_cons.2 (by simp)) (by omega))
      (scanItems_chars k ks steps rest (by omega))

theorem scanMembers_chars : ∀ (m : String × Json) (ms : List (String × Json)) (steps : Nat)
    (rest : List Char), (memberChars (m :: ms)).length < steps →
    scanMembers steps (memberChars (m :: ms) ++ '}' :: rest) =
      (memberReadings (m :: ms), some rest)
  | _, _, 0, _, hlen => by cases hlen
  | (key, j), [], steps + 1, rest, hlen => by
    rw [memberChars_singleton] at hlen ⊢
    simp only [List.length_cons, List.length_append] at hlen
    have hkey := scanString_quoted key.toList (':' :: (chars j ++ '}' :: rest))
    have hv := scanValue_chars j steps ('}' :: rest) (closes_cons.2 (by simp)) (by omega)
    have hscan := scanMembers_last hkey hv
    rw [textOf?_parts] at hscan
    rw [memberReadings, memberReadings]
    simpa using hscan
  | (key, j), m :: ms, steps + 1, rest, hlen => by
    rw [memberChars_cons] at hlen ⊢
    simp only [List.length_cons, List.length_append] at hlen
    have hkey := scanString_quoted key.toList
      (':' :: (chars j ++ ',' :: (memberChars (m :: ms) ++ '}' :: rest)))
    have hv := scanValue_chars j steps (',' :: (memberChars (m :: ms) ++ '}' :: rest))
      (closes_cons.2 (by simp)) (by omega)
    have hscan := scanMembers_more hkey hv (scanMembers_chars m ms steps rest (by omega))
    rw [textOf?_parts] at hscan
    rw [memberReadings]
    simpa using hscan

end

/-- The text of a value is read as this value, and nothing is left of it. -/
theorem scan_compact (j : Json) : scan j.compact = { value := reading j, ended := true } := by
  have hscan := scanValue_chars j (2 * (chars j).length + 2) [] closes_nil (by omega)
  rw [List.append_nil] at hscan
  rw [scan, compact, String.toList_ofList, hscan]
  rfl

end StructureLint.Json
