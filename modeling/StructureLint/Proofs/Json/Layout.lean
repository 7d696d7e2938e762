import StructureLint.Proofs.Json.Written
/-!
# Different values have different texts

`Layout.text` writes a value with blanks wherever a layout puts them; the text without blanks and
the indented one are two of its cases. Whatever the layout, a text says which value it is of and
where this value ends (`Layout.text_inj`), so no two values are written alike (`compact_inj`,
`pretty_inj`).
-/

namespace StructureLint.Json

/-- Where blanks stand: before each item and the end at a level of nesting, and after colons. -/
structure Layout where
  line : Nat → List Char
  gap : List Char
  isBlank_line : ∀ n, ∀ c ∈ line n, isBlank c = true

namespace Layout

/-- No blanks at all. -/
def dense : Layout :=
  ⟨fun _ => [], [], by simp⟩

/-- One item or member to a line. -/
def indented : Layout :=
  ⟨newline, [' '], by
    intro n c hc
    simp only [newline, List.mem_cons, List.mem_replicate] at hc
    rcases hc with rfl | ⟨-, rfl⟩ <;> rfl⟩

mutual

/-- The text of a value that begins at a level of nesting. -/
def text (l : Layout) (n : Nat) : Json → List Char
  | .array [] => ['[', ']']
  | .object [] => ['{', '}']
  | .array (j :: js) =>
    '[' :: (l.line (n + 1) ++ (l.text (n + 1) j ++ (l.items (n + 1) js ++ (l.line n ++ [']']))))
  | .object ((key, j) :: ms) =>
    '{' :: (l.line (n + 1) ++ (quote key ++ ':' :: (l.gap ++ (l.text (n + 1) j
      ++ (l.members (n + 1) ms ++ (l.line n ++ ['}']))))))
  | j => scalar j

/-- The further items of an array. -/
def items (l : Layout) (n : Nat) : List Json → List Char
  | [] => []
  | j :: js => ',' :: (l.line n ++ (l.text n j ++ l.items n js))

/-- The further members of an object. -/
def members (l : Layout) (n : Nat) : List (String × Json) → List Char
  | [] => []
  | (key, j) :: ms =>
    ',' :: (l.line n ++ (quote key ++ ':' :: (l.gap ++ (l.text n j ++ l.members n ms))))

end

/-! ## The two layouts in use -/

mutual

theorem text_indented : ∀ (n : Nat) (j : Json), indented.text n j = prettyChars n j
  | n, .null => rfl
  | n, .boolean b => rfl
  | n, .integer i => rfl
  | n, .string s => rfl
  | n, .array [] => by rw [text, prettyChars]
  | n, .object [] => by rw [text, prettyChars]
  | n, .array (j :: js) => by
    rw [text, prettyChars, text_indented (n + 1) j, items_indented (n + 1) js]
    simp [indented]
  | n, .object ((key, j) :: ms) => by
    rw [text, prettyChars, text_indented (n + 1) j, members_indented (n + 1) ms]
    simp [indented]

theorem items_indented : ∀ (n : Nat) (js : List Json), indented.items n js = prettyItems n js
  | n, [] => by rw [items, prettyItems]
  | n, j :: js => by
    rw [items, prettyItems, text_indented n j, items_indented n js]
    simp [indented]

theorem members_indented : ∀ (n : Nat) (ms : List (String × Json)),
    indented.members n ms = prettyMembers n ms
  | n, [] => by rw [members, prettyMembers]
  | n, (key, j) :: ms => by
    rw [members, prettyMembers, text_indented n j, members_indented n ms]
    simp [indented]

end

mutual

theorem text_dense : ∀ (n : Nat) (j : Json), dense.text n j = chars j
  | n, .null => rfl
  | n, .boolean b => rfl
  | n, .integer i => rfl
  | n, .string s => rfl
  | n, .array [] => by rw [text, chars, itemChars, List.nil_append]
  | n, .object [] => by rw [text, chars, memberChars, List.nil_append]
  | n, .array (j :: js) => by
    have hitems := items_dense (n + 1) (j :: js) (by simp)
    rw [items] at hitems
    rw [text, chars, ← (List.cons.inj hitems).2]
    simp [dense]
  | n, .object ((key, j) :: ms) => by
    have hmembers := members_dense (n + 1) ((key, j) :: ms) (by simp)
    rw [members] at hmembers
    rw [text, chars, ← (List.cons.inj hmembers).2]
    simp [dense]

theorem items_dense : ∀ (n : Nat) (js : List Json), js ≠ [] →
    dense.items n js = ',' :: itemChars js
  | n, [], h => absurd rfl h
  | n, [j], _ => by
    rw [items, items, itemChars, text_dense n j]
    simp [dense]
  | n, j :: k :: ks, _ => by
    rw [items, itemChars, text_dense n j, items_dense n (k :: ks) (by simp)]
    simp [dense]

theorem members_dense : ∀ (n : Nat) (ms : List (String × Json)), ms ≠ [] →
    dense.members n ms = ',' :: memberChars ms
  | n, [], h => absurd rfl h
  | n, [(key, j)], _ => by
    rw [members, members, memberChars, text_dense n j]
    simp [dense]
  | n, (key, j) :: m :: ms, _ => by
    rw [members, memberChars, text_dense n j, members_dense n (m :: ms) (by simp)]
    simp [dense]

end

end Layout

/-! ## Where a part of a text ends -/

/-- The characters of whole numbers. -/
def inNumeral (c : Char) : Bool :=
  c == '-' || c.isDigit

/-- The text does not go on with a number. -/
def Ends (r : List Char) : Prop :=
  ∀ c ∈ r.head?, inNumeral c = false

/-- The text goes on neither with a number nor after a comma. -/
def Stops (r : List Char) : Prop :=
  ∀ c ∈ r.head?, inNumeral c = false ∧ c ≠ ','

theorem Stops.ends {r : List Char} (h : Stops r) : Ends r :=
  fun c hc => (h c hc).1

theorem Stops.ne_comma {r cs : List Char} (h : Stops r) : r ≠ ',' :: cs := by
  rintro rfl
  exact (h ',' rfl).2 rfl

theorem ends_comma (r : List Char) : Ends (',' :: r) := by
  intro c hc
  cases hc
  rfl

theorem inNumeral_of_isBlank {c : Char} (h : isBlank c = true) : inNumeral c = false ∧ c ≠ ',' := by
  simp only [isBlank, Bool.or_eq_true, beq_iff_eq] at h
  rcases h with ((rfl | rfl) | rfl) | rfl <;> decide

theorem inNumeral_toString (i : Int) : ∀ c ∈ (toString i).toList, inNumeral c = true := by
  intro c hc
  cases i with
  | ofNat n =>
    have hdigit : c ∈ Nat.toDigits 10 n := by simpa using (show c ∈ (toString n).toList from hc)
    simp [inNumeral, isDigit_of_mem hdigit]
  | negSucc n =>
    have hmem : c ∈ ("-" ++ toString (n + 1)).toList := hc
    rw [String.toList_append, List.mem_append] at hmem
    rcases hmem with hsign | hdigit
    · have hc : c = '-' := by simpa using hsign
      simp [inNumeral, hc]
    · have hdigit : c ∈ Nat.toDigits 10 (n + 1) := by simpa using hdigit
      simp [inNumeral, isDigit_of_mem hdigit]

theorem toString_inj {i k : Int} (h : toString i = toString k) : i = k := by
  have hi := scanNumber_integer i closes_nil
  have hk := scanNumber_integer k closes_nil
  rw [h, hk] at hi
  simp only [Option.some.injEq, Prod.mk.injEq, Numeral.mk.injEq, decide_eq_decide] at hi
  have habs := congrArg (Nat.ofDigitChars 10 · 0) hi.1.2.1
  simp only [Nat.ofDigitChars_ten_toDigits] at habs
  omega

theorem takeWhile_numeral (i : Int) {r : List Char} (h : Ends r) :
    ((toString i).toList ++ r).takeWhile inNumeral = (toString i).toList := by
  rw [List.takeWhile_append_of_pos (inNumeral_toString i)]
  cases r with
  | nil => simp
  | cons c r => simp [h c rfl]

theorem numeral_inj {i k : Int} {r r' : List Char} (hr : Ends r) (hr' : Ends r')
    (h : (toString i).toList ++ r = (toString k).toList ++ r') : i = k ∧ r = r' := by
  have htext := congrArg (List.takeWhile inNumeral) h
  rw [takeWhile_numeral i hr, takeWhile_numeral k hr'] at htext
  refine ⟨toString_inj (String.toList_inj.1 htext), ?_⟩
  rw [htext] at h
  exact List.append_cancel_left h

/-- A string ends at its own closing quotation mark, so its text is determined. -/
theorem quote_inj {s t : String} {r r' : List Char} (h : quote s ++ r = quote t ++ r') :
    s = t ∧ r = r' := by
  have hinside : s.toList.flatMap escape ++ '"' :: r = t.toList.flatMap escape ++ '"' :: r' := by
    simpa [quote] using h
  have hscan := congrArg scanString hinside
  rw [scanString_quoted, scanString_quoted] at hscan
  obtain ⟨hparts, hrest⟩ := Prod.mk.inj (Option.some.inj hscan)
  have htext := congrArg textOf? hparts
  rw [textOf?_parts, textOf?_parts] at htext
  exact ⟨Option.some.inj htext, hrest⟩

/-! ## Kinds of values -/

inductive Kind where
  | null
  | boolean
  | integer
  | string
  | array
  | object

def kind : Json → Kind
  | .null => .null
  | .boolean _ => .boolean
  | .integer _ => .integer
  | .string _ => .string
  | .array _ => .array
  | .object _ => .object

/-- The kind of the values that begin with a character. -/
def kindOf? (c : Char) : Option Kind :=
  if inNumeral c then some .integer
  else if c = 'n' then some .null
  else if c = 't' ∨ c = 'f' then some .boolean
  else if c = '"' then some .string
  else if c = '[' then some .array
  else if c = '{' then some .object
  else none

namespace Layout

variable {l : Layout}

theorem text_head (l : Layout) (n : Nat) (j : Json) :
    ∃ c cs, l.text n j = c :: cs ∧ kindOf? c = some (kind j) := by
  cases j with
  | null => exact ⟨'n', _, rfl, rfl⟩
  | boolean b => cases b <;> exact ⟨_, _, rfl, rfl⟩
  | integer i =>
    obtain ⟨c, cs, hcs, -⟩ := toString_head i
    have hc : inNumeral c = true := inNumeral_toString i c (hcs ▸ List.mem_cons_self)
    exact ⟨c, cs, hcs, by simp [kindOf?, hc, kind]⟩
  | string s => exact ⟨'"', _, rfl, rfl⟩
  | array js => cases js <;> exact ⟨'[', _, by rw [text], rfl⟩
  | object ms => cases ms <;> exact ⟨'{', _, by rw [text], rfl⟩

theorem kind_eq {n : Nat} {j k : Json} {r r' : List Char}
    (h : l.text n j ++ r = l.text n k ++ r') : kind j = kind k := by
  obtain ⟨c, cs, hcs, hc⟩ := l.text_head n j
  obtain ⟨d, ds, hds, hd⟩ := l.text_head n k
  rw [hcs, hds] at h
  have hcd : c = d := (List.cons.inj h).1
  rw [hcd, hd] at hc
  exact (Option.some.inj hc).symm

theorem line_ne (l : Layout) (n : Nat) {c : Char} {cs r : List Char} (hc : isBlank c = false)
    (hr : r.head? ≠ some c) : l.line n ++ r ≠ c :: cs := by
  intro h
  cases hline : l.line n with
  | nil =>
    rw [hline, List.nil_append] at h
    simp [h] at hr
  | cons b bs =>
    have hb := l.isBlank_line n b (by simp [hline])
    rw [hline] at h
    rw [(List.cons.inj h).1, hc] at hb
    cases hb

theorem stops_line (l : Layout) (n : Nat) {r : List Char} (hr : Stops r) :
    Stops (l.line n ++ r) := by
  intro c hc
  cases hline : l.line n with
  | nil =>
    rw [hline, List.nil_append] at hc
    exact hr c hc
  | cons b bs =>
    rw [hline] at hc
    cases hc
    exact inNumeral_of_isBlank (l.isBlank_line n c (by simp [hline]))

theorem ends_items (n : Nat) (js : List Json) {r : List Char} (hr : Stops r) :
    Ends (l.items n js ++ r) := by
  cases js with
  | nil =>
    rw [items]
    exact hr.ends
  | cons j js =>
    rw [items]
    exact ends_comma _

theorem ends_members (n : Nat) (ms : List (String × Json)) {r : List Char} (hr : Stops r) :
    Ends (l.members n ms ++ r) := by
  cases ms with
  | nil =>
    rw [members]
    exact hr.ends
  | cons m ms =>
    obtain ⟨key, j⟩ := m
    rw [members]
    exact ends_comma _

/-- Nothing that goes on with a list stands before its end. -/
theorem stops_end {c : Char} (hc : inNumeral c = false ∧ c ≠ ',') (n : Nat) (r : List Char) :
    Stops (l.line n ++ c :: r) := by
  apply stops_line
  intro d hd
  cases hd
  exact hc

theorem stops_bracket (n : Nat) (r : List Char) : Stops (l.line n ++ ']' :: r) :=
  stops_end (by decide) n r

theorem stops_brace (n : Nat) (r : List Char) : Stops (l.line n ++ '}' :: r) :=
  stops_end (by decide) n r

/-- An array with items in it does not end at once. -/
theorem item_ne_bracket {n m : Nat} {j : Json} {r cs : List Char} :
    l.line n ++ (l.text m j ++ r) ≠ ']' :: cs := by
  apply l.line_ne n rfl
  obtain ⟨c, ds, hds, hc⟩ := l.text_head m j
  rw [hds]
  rintro hhead
  cases hhead
  cases hc

theorem member_ne_brace {n : Nat} {key : String} {r cs : List Char} :
    l.line n ++ (quote key ++ r) ≠ '}' :: cs := by
  apply l.line_ne n rfl
  rintro hhead
  cases hhead

-- The induction is on the value or list that the first text is of. What follows it may be any
-- text that does not go on with it, and is the same on both sides in the end.
mutual

theorem text_inj : ∀ (j k : Json) (n : Nat) (r r' : List Char), Ends r → Ends r' →
    l.text n j ++ r = l.text n k ++ r' → j = k ∧ r = r'
  | .null, k, n, r, r', hr, hr', h => by
    have hkind := kind_eq h
    cases k <;> cases hkind
    exact ⟨rfl, List.append_cancel_left h⟩
  | .boolean b, k, n, r, r', hr, hr', h => by
    have hkind := kind_eq h
    cases k <;> cases hkind
    rename_i c
    cases b <;> cases c <;> simp [text, scalar] at h
    · exact ⟨rfl, h⟩
    · exact ⟨rfl, h⟩
  | .integer i, k, n, r, r', hr, hr', h => by
    have hkind := kind_eq h
    cases k <;> cases hkind
    obtain ⟨rfl, rfl⟩ := numeral_inj hr hr' h
    exact ⟨rfl, rfl⟩
  | .string s, k, n, r, r', hr, hr', h => by
    have hkind := kind_eq h
    cases k <;> cases hkind
    obtain ⟨rfl, rfl⟩ := quote_inj h
    exact ⟨rfl, rfl⟩
  | .array js, k, n, r, r', hr, hr', h => by
    have hkind := kind_eq h
    cases k <;> cases hkind
    rename_i ks
    rcases js with - | ⟨j, js⟩ <;> rcases ks with - | ⟨k, ks⟩ <;>
      simp only [text, List.cons_append, List.append_assoc, List.cons.injEq, true_and,
        List.nil_append, List.append_cancel_left_eq] at h
    · exact ⟨rfl, h⟩
    · exact absurd h.symm item_ne_bracket
    · exact absurd h item_ne_bracket
    · obtain ⟨rfl, hitems⟩ := text_inj j k (n + 1) _ _ (ends_items _ js (stops_bracket n r))
        (ends_items _ ks (stops_bracket n r')) h
      obtain ⟨rfl, hend⟩ := items_inj js ks (n + 1) _ _ (stops_bracket n r) (stops_bracket n r')
        hitems
      exact ⟨rfl, (List.cons.inj (List.append_cancel_left hend)).2⟩
  | .object ms, k, n, r, r', hr, hr', h => by
    have hkind := kind_eq h
    cases k <;> cases hkind
    rename_i ns
    rcases ms with - | ⟨⟨key, j⟩, ms⟩ <;> rcases ns with - | ⟨⟨name, k⟩, ns⟩ <;>
      simp only [text, List.cons_append, List.append_assoc, List.cons.injEq, true_and,
        List.nil_append, List.append_cancel_left_eq] at h
    · exact ⟨rfl, h⟩
    · exact absurd h.symm member_ne_brace
    · exact absurd h member_ne_brace
    · obtain ⟨rfl, hvalue⟩ := quote_inj h
      simp only [List.cons.injEq, true_and, List.append_cancel_left_eq] at hvalue
      obtain ⟨rfl, hmembers⟩ := text_inj j k (n + 1) _ _ (ends_members _ ms (stops_brace n r))
        (ends_members _ ns (stops_brace n r')) hvalue
      obtain ⟨rfl, hend⟩ := members_inj ms ns (n + 1) _ _ (stops_brace n r) (stops_brace n r')
        hmembers
      exact ⟨rfl, (List.cons.inj (List.append_cancel_left hend)).2⟩

theorem items_inj : ∀ (js ks : List Json) (n : Nat) (r r' : List Char), Stops r → Stops r' →
    l.items n js ++ r = l.items n ks ++ r' → js = ks ∧ r = r'
  | [], [], n, r, r', _, _, h => by
    rw [items] at h
    exact ⟨rfl, h⟩
  | [], k :: ks, n, r, r', hr, _, h => by
    rw [items, items] at h
    exact absurd h hr.ne_comma
  | j :: js, [], n, r, r', _, hr', h => by
    rw [items, items] at h
    exact absurd h.symm hr'.ne_comma
  | j :: js, k :: ks, n, r, r', hr, hr', h => by
    simp only [items, List.cons_append, List.append_assoc, List.cons.injEq, true_and,
      List.append_cancel_left_eq] at h
    obtain ⟨rfl, hrest⟩ := text_inj j k n _ _ (ends_items n js hr) (ends_items n ks hr') h
    obtain ⟨rfl, rfl⟩ := items_inj js ks n _ _ hr hr' hrest
    exact ⟨rfl, rfl⟩

theorem members_inj : ∀ (ms ns : List (String × Json)) (n : Nat) (r r' : List Char),
    Stops r → Stops r' → l.members n ms ++ r = l.members n ns ++ r' → ms = ns ∧ r = r'
  | [], [], n, r, r', _, _, h => by
    rw [members] at h
    exact ⟨rfl, h⟩
  | [], (key, k) :: ns, n, r, r', hr, _, h => by
    rw [members, members] at h
    exact absurd h hr.ne_comma
  | (key, j) :: ms, [], n, r, r', _, hr', h => by
    rw [members, members] at h
    exact absurd h.symm hr'.ne_comma
  | (key, j) :: ms, (name, k) :: ns, n, r, r', hr, hr', h => by
    simp only [members, List.cons_append, List.append_assoc, List.cons.injEq, true_and,
      List.append_cancel_left_eq] at h
    obtain ⟨rfl, hvalue⟩ := quote_inj h
    simp only [List.cons.injEq, true_and, List.append_cancel_left_eq] at hvalue
    obtain ⟨rfl, hrest⟩ := text_inj j k n _ _ (ends_members n ms hr) (ends_members n ns hr') hvalue
    obtain ⟨rfl, rfl⟩ := members_inj ms ns n _ _ hr hr' hrest
    exact ⟨rfl, rfl⟩

end

theorem ends_nil : Ends [] := by
  intro c hc
  cases hc

theorem text_injective (l : Layout) (n : Nat) : Function.Injective (l.text n) := by
  intro j k h
  have happend : l.text n j ++ [] = l.text n k ++ [] := by rw [h]
  exact (text_inj j k n [] [] ends_nil ends_nil happend).1

end Layout

/-- Values with the same text on one line are equal. -/
theorem compact_inj {j k : Json} : j.compact = k.compact ↔ j = k := by
  refine ⟨fun h => ?_, congrArg compact⟩
  apply Layout.text_injective .dense 0
  rw [Layout.text_dense, Layout.text_dense]
  exact String.ofList_injective h

/-- Values with the same indented text are equal. -/
theorem pretty_inj {j k : Json} : j.pretty = k.pretty ↔ j = k := by
  refine ⟨fun h => ?_, congrArg pretty⟩
  apply Layout.text_injective .indented 0
  rw [Layout.text_indented, Layout.text_indented]
  exact String.ofList_injective h

end StructureLint.Json
