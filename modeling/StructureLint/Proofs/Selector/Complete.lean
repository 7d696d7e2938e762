import StructureLint.Selector.Grammar
/-!
# What the grammar derives is read

A reading function that is given a text of the grammar reads all of it, and with the meaning that
the grammar gives it. Reading takes the longest match, so each lemma says what must not follow the
text (`Halts`). Three classes of characters are told apart for this: blanks, the characters of
names and the marks with which a condition begins. The last lemma is about whole texts:
`list_complete`.
-/

namespace StructureLint.Selector

open Grammar

/-! ## Classes of characters -/

/-- The code points of blanks. -/
def blankCodes : List Nat :=
  [9, 10, 11, 12, 13, 0x20, 0x85, 0xA0, 0x1680, 0x2000, 0x2001, 0x2002, 0x2003, 0x2004, 0x2005,
   0x2006, 0x2007, 0x2008, 0x2009, 0x200A, 0x2028, 0x2029, 0x202F, 0x205F, 0x3000]

theorem toNat_mem_blankCodes {c : Char} (h : Text.isBlank c = true) : c.toNat ∈ blankCodes := by
  simp only [Text.isBlank, Bool.or_eq_true, Bool.and_eq_true, decide_eq_true_eq, beq_iff_eq] at h
  simp only [blankCodes, List.mem_cons, List.not_mem_nil, or_false]
  omega

theorem startsCompound_blankCodes :
    ∀ n ∈ blankCodes, startsCompound (Char.ofNat n) = false := by
  decide +kernel

/-- No blank can begin a compound, so none is a character of names either. -/
theorem startsCompound_of_isBlank {c : Char} (h : Text.isBlank c = true) :
    startsCompound c = false := by
  simpa using startsCompound_blankCodes c.toNat (toNat_mem_blankCodes h)

theorem startsCompound_of_isNameChar {c : Char} (h : isNameChar c = true) :
    startsCompound c = true := by
  simp [startsCompound, h]

theorem isNameChar_of_startsCompound {c : Char} (h : startsCompound c = false) :
    isNameChar c = false := by
  simp only [startsCompound, Bool.or_eq_false_iff] at h
  exact h.1.1.1.1

theorem isNameChar_of_isBlank {c : Char} (h : Text.isBlank c = true) : isNameChar c = false :=
  isNameChar_of_startsCompound (startsCompound_of_isBlank h)

theorem isBlank_of_startsCompound {c : Char} (h : startsCompound c = true) :
    Text.isBlank c = false := by
  cases hb : Text.isBlank c with
  | false => rfl
  | true => rw [startsCompound_of_isBlank hb] at h; cases h

/-! ## Where a run of characters ends -/

/-- The text has ended, or its next character does not belong to the class. -/
def Halts (p : Char → Bool) (cs : List Char) : Prop :=
  ∀ c ∈ cs.head?, p c = false

theorem halts_nil (p : Char → Bool) : Halts p [] := by
  simp [Halts]

theorem halts_cons {p : Char → Bool} {c : Char} {cs : List Char} :
    Halts p (c :: cs) ↔ p c = false := by
  simp [Halts]

theorem takeWhile_append {p : Char → Bool} {w rest : List Char} (hw : ∀ c ∈ w, p c = true)
    (hr : Halts p rest) : (w ++ rest).takeWhile p = w := by
  rw [List.takeWhile_append_of_pos hw]
  match rest, hr with
  | [], _ => simp
  | c :: _, hr => simp [halts_cons.1 hr]

theorem dropWhile_append {p : Char → Bool} {w rest : List Char} (hw : ∀ c ∈ w, p c = true)
    (hr : Halts p rest) : (w ++ rest).dropWhile p = rest := by
  rw [List.dropWhile_append_of_pos hw]
  match rest, hr with
  | [], _ => simp
  | c :: _, hr => simp [halts_cons.1 hr]

theorem nameAt_append {n rest : List Char} (hn : ∀ c ∈ n, isNameChar c = true)
    (hr : Halts isNameChar rest) : nameAt (n ++ rest) = n :=
  takeWhile_append hn hr

theorem afterName_append {n rest : List Char} (hn : ∀ c ∈ n, isNameChar c = true)
    (hr : Halts isNameChar rest) : afterName (n ++ rest) = rest :=
  dropWhile_append hn hr

theorem nameAt_of_halts {cs : List Char} (h : Halts isNameChar cs) : nameAt cs = [] :=
  nameAt_append (n := []) (by simp) h

theorem afterName_of_halts {cs : List Char} (h : Halts isNameChar cs) : afterName cs = cs :=
  afterName_append (n := []) (by simp) h

theorem skipBlanks_append {a rest : List Char} (ha : Blanks a) (hr : Halts Text.isBlank rest) :
    Text.skipBlanks (a ++ rest) = rest :=
  dropWhile_append ha hr

theorem skipBlanks_blanks {a : List Char} (ha : Blanks a) : Text.skipBlanks a = [] := by
  simpa using skipBlanks_append ha (halts_nil _)

/-- Blanks halt every class that has no blank in it. -/
theorem halts_blanks {p : Char → Bool} (hp : ∀ c, Text.isBlank c = true → p c = false)
    {a rest : List Char} (ha : Blanks a) (hr : Halts p rest) : Halts p (a ++ rest) := by
  match a, ha with
  | [], _ => exact hr
  | c :: _, ha => exact halts_cons.2 (hp c (ha c (by simp)))

/-! ## Conditions -/

theorem quoted_complete {mark : Char} {w : List Char} (h : mark ∉ w) (rest : List Char) :
    quoted mark (w ++ mark :: rest) = .ok (String.ofList w, rest) := by
  have hw : ∀ c ∈ w, (c != mark) = true := fun c hc => by
    simpa using fun he : c = mark => h (he ▸ hc)
  have hr : Halts (· != mark) (mark :: rest) := by simp [halts_cons]
  simp only [quoted, takeWhile_append hw hr, dropWhile_append hw hr]

/-- A text that begins with no quotation mark is read as a plain value. -/
theorem value_plain {x : Char} {cs : List Char} (h : x ≠ '"') (h' : x ≠ '\'') :
    value (x :: cs) = .ok (String.ofList (nameAt (x :: cs)), afterName (x :: cs)) := by
  unfold value
  split
  · contradiction
  · rename_i he
    cases he
    exact absurd rfl h
  · rename_i he
    cases he
    exact absurd rfl h'
  · rfl

/-- A value with something in it is read to its end, whatever blanks stand before it. -/
theorem value_of_ne_nil {c t rest : List Char} {v : String} (hc : Blanks c) (ht : Value t v)
    (hne : t ≠ []) (hr : Halts isNameChar rest) :
    value (Text.skipBlanks (c ++ (t ++ rest))) = .ok (v, rest) := by
  cases ht with
  | @double w hw =>
    rw [List.cons_append, skipBlanks_append hc (halts_cons.2 (by decide))]
    simpa [value] using quoted_complete hw rest
  | @single w hw =>
    rw [List.cons_append, skipBlanks_append hc (halts_cons.2 (by decide))]
    simpa [value] using quoted_complete hw rest
  | plain ht =>
    obtain ⟨x, xs, rfl⟩ := List.exists_cons_of_ne_nil hne
    have hx : isNameChar x = true := ht x (by simp)
    have hb := isBlank_of_startsCompound (startsCompound_of_isNameChar hx)
    rw [List.cons_append, skipBlanks_append hc (halts_cons.2 hb),
      value_plain (by rintro rfl; revert hx; decide) (by rintro rfl; revert hx; decide),
      ← List.cons_append, nameAt_append ht hr, afterName_append ht hr]

/-- Blanks before an empty value cannot be told from those after it, so some of the latter may
have been skipped already. -/
theorem value_complete {c t d : List Char} {v : String} (hc : Blanks c) (ht : Value t v)
    (hd : Blanks d) (rest : List Char) :
    ∃ d', Blanks d' ∧
      value (Text.skipBlanks (c ++ (t ++ (d ++ ']' :: rest)))) = .ok (v, d' ++ ']' :: rest) := by
  have hclose : Halts isNameChar (']' :: rest) := halts_cons.2 (by decide)
  by_cases hne : t = []
  · subst hne
    cases ht
    have hcd : Blanks (c ++ d) := fun x hx => (List.mem_append.1 hx).elim (hc x) (hd x)
    refine ⟨[], by simp [Blanks], ?_⟩
    rw [List.nil_append, ← List.append_assoc, skipBlanks_append hcd (halts_cons.2 (by decide)),
      value_plain (by decide) (by decide), nameAt_of_halts hclose, afterName_of_halts hclose]
    rfl
  · have hend := halts_blanks (fun _ => isNameChar_of_isBlank) hd hclose
    exact ⟨d, hd, value_of_ne_nil hc ht hne hend⟩

theorem name_start {n : List Char} (hn : Name n) : ∃ x r, n = x :: r ∧ isNameChar x = true := by
  obtain ⟨x, r, rfl⟩ := List.exists_cons_of_ne_nil hn.1
  exact ⟨x, r, rfl, hn.2 x (by simp)⟩

theorem halts_blank_name {n : List Char} (hn : Name n) (rest : List Char) :
    Halts Text.isBlank (n ++ rest) := by
  obtain ⟨x, r, rfl, hx⟩ := name_start hn
  exact halts_cons.2 (isBlank_of_startsCompound (startsCompound_of_isNameChar hx))

/-- Inside brackets, the name is found and what follows it, with the blanks skipped. -/
theorem bracket_name {a n b : List Char} (ha : Blanks a) (hn : Name n) (hb : Blanks b)
    (rest : List Char) (hblank : Halts Text.isBlank rest) (hname : Halts isNameChar rest) :
    nameAt (Text.skipBlanks (a ++ (n ++ (b ++ rest)))) = n ∧
      Text.skipBlanks (afterName (Text.skipBlanks (a ++ (n ++ (b ++ rest))))) = rest := by
  have hend : Halts isNameChar (b ++ rest) := halts_blanks (fun _ => isNameChar_of_isBlank) hb hname
  rw [skipBlanks_append ha (halts_blank_name hn _), nameAt_append hn.2 hend,
    afterName_append hn.2 hend, skipBlanks_append hb hblank]
  exact ⟨rfl, rfl⟩

theorem bracket_hasAttribute {a n b : List Char} (ha : Blanks a) (hn : Name n) (hb : Blanks b)
    (rest : List Char) :
    bracket (a ++ (n ++ (b ++ ']' :: rest))) = .ok (.hasAttribute (String.ofList n), rest) := by
  obtain ⟨hat, hafter⟩ := bracket_name ha hn hb (']' :: rest)
    (halts_cons.2 (by decide)) (halts_cons.2 (by decide))
  simp only [bracket, hat, hafter]
  split
  · exact absurd rfl hn.1
  · rfl

theorem bracket_attributeEquals {a n b c t d : List Char} {v : String} (ha : Blanks a)
    (hn : Name n) (hb : Blanks b) (hc : Blanks c) (ht : Value t v) (hd : Blanks d)
    (rest : List Char) :
    bracket (a ++ (n ++ (b ++ '=' :: (c ++ (t ++ (d ++ ']' :: rest))))))
      = .ok (.attributeEquals (String.ofList n) v, rest) := by
  obtain ⟨hat, hafter⟩ := bracket_name ha hn hb ('=' :: (c ++ (t ++ (d ++ ']' :: rest))))
    (halts_cons.2 (by decide)) (halts_cons.2 (by decide))
  obtain ⟨d', hd', hv⟩ := value_complete hc ht hd rest
  simp only [bracket, hat, hafter, hv, skipBlanks_append hd'
    (halts_cons.2 (show Text.isBlank ']' = false by decide))]
  split
  · exact absurd rfl hn.1
  · rfl

theorem marked_complete {n rest : List Char} (hn : Name n) (hr : Halts isNameChar rest)
    (mark : Char) (make : String → Condition) :
    marked mark make (n ++ rest) = .ok (make (String.ofList n), rest) := by
  simp only [marked, nameAt_append hn.2 hr, afterName_append hn.2 hr]
  split
  · exact absurd rfl hn.1
  · rfl

theorem condition_complete {t rest : List Char} {c : Condition} (h : IsCondition t c)
    (hr : Halts isNameChar rest) : condition (t ++ rest) = .ok (some (c, rest)) := by
  cases h with
  | id hn => simp [condition, marked_complete hn hr, Except.map]
  | className hn => simp [condition, marked_complete hn hr, Except.map]
  | hasAttribute ha hn hb =>
    simp [condition, bracket_hasAttribute ha hn hb rest, Except.map]
  | attributeEquals ha hn hb hc ht hd =>
    simp [condition, bracket_attributeEquals ha hn hb hc ht hd rest, Except.map]

/-- No condition begins where no compound could. -/
theorem condition_of_halts {rest : List Char} (h : Halts startsCompound rest) :
    condition rest = .ok none := by
  unfold condition
  split
  · exact absurd (halts_cons.1 h) (by decide)
  · exact absurd (halts_cons.1 h) (by decide)
  · exact absurd (halts_cons.1 h) (by decide)
  · rfl

theorem conditions_nil {cs : List Char} (h : condition cs = .ok none) :
    conditions cs = .ok ([], cs) := by
  rw [conditions]
  split <;> simp_all

theorem conditions_cons {cs rest rest' : List Char} {c : Condition} {more : List Condition}
    (h : condition cs = .ok (some (c, rest))) (hr : conditions rest = .ok (more, rest')) :
    conditions cs = .ok (c :: more, rest') := by
  rw [conditions]
  split <;> simp_all

/-- The characters with which a condition begins. -/
def IsMark (x : Char) : Prop :=
  startsCompound x = true ∧ isNameChar x = false ∧ x ≠ '*'

theorem isConditions_mark {t : List Char} {c : Condition} {cs : List Condition}
    (h : IsConditions t (c :: cs)) : ∃ x r, t = x :: r ∧ IsMark x := by
  cases h with
  | cons h _ =>
    unfold IsMark
    cases h <;> exact ⟨_, _, rfl, by decide⟩

theorem halts_name_conditions {t rest : List Char} {cs : List Condition} (h : IsConditions t cs)
    (hr : Halts isNameChar rest) : Halts isNameChar (t ++ rest) := by
  cases cs with
  | nil => cases h; exact hr
  | cons c cs =>
    obtain ⟨x, r, rfl, hx⟩ := isConditions_mark h
    exact halts_cons.2 hx.2.1

theorem halts_name {rest : List Char} (h : Halts startsCompound rest) : Halts isNameChar rest :=
  fun c hc => isNameChar_of_startsCompound (h c hc)

theorem conditions_complete {t rest : List Char} {cs : List Condition} (h : IsConditions t cs)
    (hr : Halts startsCompound rest) : conditions (t ++ rest) = .ok (cs, rest) := by
  induction h with
  | nil => exact conditions_nil (condition_of_halts hr)
  | cons h hmore ih =>
    rw [List.append_assoc]
    exact conditions_cons (condition_complete h (halts_name_conditions hmore (halts_name hr))) ih

/-! ## Alternatives -/

theorem subject_name {n rest : List Char} (hn : Name n) (hr : Halts isNameChar rest) :
    subject (n ++ rest) = (true, some (String.ofList n), rest) := by
  unfold subject
  split
  · rename_i he
    obtain ⟨x, r, rfl, hx⟩ := name_start hn
    cases he
    exact absurd hx (by decide)
  · simp only [nameAt_append hn.2 hr, afterName_append hn.2 hr]
    split
    · exact absurd rfl hn.1
    · rfl

theorem subject_missing {x : Char} {cs : List Char} (hx : IsMark x) :
    subject (x :: cs) = (false, none, x :: cs) := by
  have hhalts : Halts isNameChar (x :: cs) := halts_cons.2 hx.2.1
  unfold subject
  split
  · rename_i he
    cases he
    exact absurd rfl hx.2.2
  · simp only [nameAt_of_halts hhalts]

theorem compound_complete {t rest : List Char} {c : Compound} (h : IsCompound t c)
    (hr : Halts startsCompound rest) : compound (t ++ rest) = .ok (c, rest) := by
  cases h with
  | universal h =>
    simp [compound, subject, conditions_complete h hr]
  | named hn h =>
    rw [List.append_assoc, compound,
      subject_name hn (halts_name_conditions h (halts_name hr))]
    simp [conditions_complete h hr]
  | conditional h =>
    have hread := conditions_complete h hr
    obtain ⟨x, r, rfl, hx⟩ := isConditions_mark h
    rw [List.cons_append] at hread ⊢
    rw [compound, subject_missing hx]
    simp [hread]

theorem isCompound_start {t : List Char} {c : Compound} (h : IsCompound t c) :
    ∃ x r, t = x :: r ∧ startsCompound x = true := by
  cases h with
  | universal => exact ⟨_, _, rfl, by decide⟩
  | named hn =>
    obtain ⟨x, r, rfl, hx⟩ := name_start hn
    exact ⟨x, _, rfl, startsCompound_of_isNameChar hx⟩
  | conditional h =>
    obtain ⟨x, r, rfl, hx⟩ := isConditions_mark h
    exact ⟨x, r, rfl, hx.1⟩

theorem halts_blank_compound {t rest : List Char} {c : Compound} (h : IsCompound t c) :
    Halts Text.isBlank (t ++ rest) := by
  obtain ⟨x, r, rfl, hx⟩ := isCompound_start h
  exact halts_cons.2 (isBlank_of_startsCompound hx)

theorem list_last {cs rest : List Char} {c : Compound}
    (h : compound (Text.skipBlanks cs) = .ok (c, rest)) (hr : Text.skipBlanks rest = []) :
    list cs = .ok [c] := by
  rw [list]
  split
  · simp_all
  · rename_i heq
    cases h.symm.trans heq
    split <;> simp_all

theorem list_cons {cs rest rest' : List Char} {c : Compound} {more : List Compound}
    (h : compound (Text.skipBlanks cs) = .ok (c, rest)) (hr : Text.skipBlanks rest = ',' :: rest')
    (hmore : list rest' = .ok more) : list cs = .ok (c :: more) := by
  rw [list]
  split
  · simp_all
  · rename_i heq
    cases h.symm.trans heq
    split
    · simp_all
    · rename_i heq'
      cases hr.symm.trans heq'
      simp [hmore]
    · simp_all

/-- A list of alternatives is read to its end, and as the grammar has it. -/
theorem list_complete {cs : List Char} {found : List Compound} (h : IsList cs found) :
    list cs = .ok found := by
  -- A compound takes the longest match, so the blanks after it stay; they are skipped apart.
  have first : ∀ {a t rest : List Char} {c : Compound}, Blanks a → IsCompound t c →
      Halts startsCompound rest →
      compound (Text.skipBlanks (a ++ (t ++ rest))) = .ok (c, rest) := by
    intro a t rest c ha h hr
    rw [skipBlanks_append ha (halts_blank_compound h)]
    exact compound_complete h hr
  induction h with
  | @last a t b c ha h hb =>
    rw [List.append_assoc]
    refine list_last (first ha h ?_) (skipBlanks_blanks hb)
    simpa using halts_blanks (fun _ => startsCompound_of_isBlank) hb (halts_nil _)
  | @cons a t b r c more ha h hb _ ih =>
    rw [List.append_assoc, List.append_assoc]
    refine list_cons (first ha h ?_) (skipBlanks_append hb (halts_cons.2 (by decide))) ih
    exact halts_blanks (fun _ => startsCompound_of_isBlank) hb (halts_cons.2 (by decide))

end StructureLint.Selector
