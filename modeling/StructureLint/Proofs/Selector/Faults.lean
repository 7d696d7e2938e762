import Mathlib.Data.List.TakeWhile
import StructureLint.Proofs.Selector.Lookahead
/-!
# Where the text of a selector goes wrong

A fault is noticed at the first character that no selector could have there: up to it the text can
be completed to a selector, and nothing that comes after it makes up for it. The one exception is a
mark `#` or `.` without a name, at which the mark itself is named. A text that ends too early can be
completed as a whole. `Blames` says this of a reading function; it is shown first inside brackets
(`bracket_blames`) and carried outwards by one lemma (`Blames.lift`), up to whole texts
(`errors_point`).
-/

namespace StructureLint.Selector

open Grammar

/-- How the fault that a reading function has with a text is to be understood, given which texts it
can be completed to. -/
inductive Blames {α : Type} (completes : List Char → Prop)
    (read : List Char → Except Fault α) : List Char → Fault → Prop
  | empty {cs : List Char} : Blames completes read cs .empty
  /-- There should be more of the text. -/
  | unterminated {cs more : List Char} (hviable : completes (cs ++ more)) :
      Blames completes read cs .unterminated
  /-- Up to the character the text can go on, but not with this character. -/
  | combinator {before more after : List Char} {x : Char} (hviable : completes (before ++ more))
      (hdecided : ∀ other, read (before ++ x :: other) = .error (.combinator (x :: other))) :
      Blames completes read (before ++ x :: after) (.combinator (x :: after))
  | unexpected {before more after : List Char} {x : Char} (hviable : completes (before ++ more))
      (hdecided : ∀ other, read (before ++ x :: other) = .error (.unexpected x (x :: other))) :
      Blames completes read (before ++ x :: after) (.unexpected x (x :: after))
  /-- The mark may stand there, but wants a name after it. -/
  | nameless {before after : List Char} {x : Char} (hx : x = '#' ∨ x = '.')
      (hafter : Halts isNameChar after) (hname : ∀ n, Name n → completes (before ++ x :: n)) :
      Blames completes read (before ++ x :: after) (.unexpected x (x :: after))

/-- A fault stays what it is when more is read in front of the text. -/
theorem Blames.lift {α β : Type} {completes completes' : List Char → Prop}
    {read : List Char → Except Fault α} {read' : List Char → Except Fault β} {u cs : List Char}
    {f : Fault} (h : Blames completes read cs f)
    (hcompletes : ∀ v, completes v → completes' (u ++ v))
    (hread : ∀ v f, SameStart cs v → read v = .error f → read' (u ++ v) = .error f) :
    Blames completes' read' (u ++ cs) f := by
  have hsame : ∀ (before after other : List Char) (x : Char),
      SameStart (before ++ x :: after) (before ++ x :: other) := by
    intro before after other x
    exact SameStart.append (r := x :: after) (s := x :: other) rfl before
  cases h with
  | empty => exact .empty
  | unterminated hviable =>
    have hviable := hcompletes _ hviable
    rw [← List.append_assoc] at hviable
    exact .unterminated hviable
  | combinator hviable hdecided =>
    have hviable := hcompletes _ hviable
    rw [← List.append_assoc] at hviable ⊢
    refine .combinator hviable fun other => ?_
    rw [List.append_assoc]
    exact hread _ _ (hsame ..) (hdecided other)
  | unexpected hviable hdecided =>
    have hviable := hcompletes _ hviable
    rw [← List.append_assoc] at hviable ⊢
    refine .unexpected hviable fun other => ?_
    rw [List.append_assoc]
    exact hread _ _ (hsame ..) (hdecided other)
  | nameless hx hafter hname =>
    rw [← List.append_assoc]
    refine .nameless hx hafter fun n hn => ?_
    rw [List.append_assoc]
    exact hcompletes _ (hname n hn)

/-! ## Inside brackets -/

theorem name_letter : Name ['a'] :=
  ⟨by decide, List.all_eq_true.1 (by decide)⟩

theorem blanks_nil : Blanks [] := by
  simp [Blanks]

/-- Where a character is stray, reading has come as far as to that character. -/
theorem blames_stray {α : Type} {completes : List Char → Prop}
    {read : List Char → Except Fault α} {u more rest : List Char}
    (hviable : completes (u ++ more))
    (hstray : ∀ other, SameStart rest other → read (u ++ other) = .error (stray other)) :
    Blames completes read (u ++ rest) (stray rest) := by
  cases rest with
  | nil =>
    rw [List.append_nil]
    exact .unterminated hviable
  | cons x after => exact .unexpected hviable fun other => hstray (x :: other) rfl

theorem quoted_error {mark : Char} {cs : List Char} {f : Fault}
    (h : quoted mark cs = .error f) : f = .unterminated ∧ mark ∉ cs := by
  unfold quoted at h
  split at h
  · rename_i hd
    cases h
    refine ⟨rfl, fun hmem => ?_⟩
    simpa using List.dropWhile_eq_nil_iff.1 hd mark hmem
  · cases h

/-- A value is refused only where it has no end. -/
theorem value_error {cs : List Char} {f : Fault} (h : value cs = .error f) :
    f = .unterminated ∧ ∃ more v, Value (cs ++ more) v := by
  unfold value at h
  split at h
  · cases h
    exact ⟨rfl, [], _, .plain (v := []) (by simp)⟩
  · obtain ⟨rfl, hmark⟩ := quoted_error h
    exact ⟨rfl, ['"'], _, .double hmark⟩
  · obtain ⟨rfl, hmark⟩ := quoted_error h
    exact ⟨rfl, ['\''], _, .single hmark⟩
  · cases h

/-- The name inside brackets and the blanks around it. -/
theorem bracket_name_ahead {cs : List Char} (h : nameAt (Text.skipBlanks cs) ≠ []) :
    ∃ a n b, Blanks a ∧ Name n ∧ Blanks b ∧
      cs = a ++ n ++ b ++ Text.skipBlanks (afterName (Text.skipBlanks cs)) ∧
      ∀ other, SameStart (Text.skipBlanks (afterName (Text.skipBlanks cs))) other →
        nameAt (Text.skipBlanks (a ++ n ++ b ++ other)) = n ∧
          Text.skipBlanks (afterName (Text.skipBlanks (a ++ n ++ b ++ other))) = other := by
  obtain ⟨a, ha, hcs, hbody⟩ := skipBlanks_ahead cs
  have hname := nameAt_append_afterName (Text.skipBlanks cs)
  obtain ⟨b, hb, hafter, hrest⟩ := skipBlanks_ahead (afterName (Text.skipBlanks cs))
  refine ⟨a, _, b, ha, name_nameAt h, hb, ?_, ?_⟩
  · rw [List.append_assoc, List.append_assoc, ← hafter, hname, ← hcs]
  · intro other hother
    have hend : SameStart (afterName (Text.skipBlanks cs)) (b ++ other) := by
      rw [hafter]
      exact hother.append b
    have hstart : SameStart (Text.skipBlanks cs) (nameAt (Text.skipBlanks cs) ++ (b ++ other)) := by
      have := hend.append (nameAt (Text.skipBlanks cs))
      rwa [hname] at this
    rw [List.append_assoc, List.append_assoc, hbody _ hstart, (name_ahead hend).1,
      (name_ahead hend).2, hrest other hother]
    exact ⟨rfl, rfl⟩

/-- What may follow an opening bracket up to its closing one. -/
def Bracketed (t : List Char) : Prop :=
  ∃ c, IsCondition ('[' :: t) c

theorem bracket_of_stray_name {cs : List Char} (h : nameAt (Text.skipBlanks cs) = []) :
    bracket cs = .error (stray (Text.skipBlanks cs)) := by
  simp only [bracket, h]

theorem bracket_of_stray_close {cs after : List Char} (hname : nameAt (Text.skipBlanks cs) ≠ [])
    (hafter : Text.skipBlanks (afterName (Text.skipBlanks cs)) = after)
    (hclose : ∀ r, after ≠ ']' :: r) (hequals : ∀ r, after ≠ '=' :: r) :
    bracket cs = .error (stray after) := by
  simp only [bracket, hafter]

theorem bracket_of_stray_value {cs r r' : List Char} {v : String}
    (hname : nameAt (Text.skipBlanks cs) ≠ [])
    (hafter : Text.skipBlanks (afterName (Text.skipBlanks cs)) = '=' :: r)
    (hv : value (Text.skipBlanks r) = .ok (v, r')) (hclose : ∀ s, Text.skipBlanks r' ≠ ']' :: s) :
    bracket cs = .error (stray (Text.skipBlanks r')) := by
  simp only [bracket, hafter, hv]

theorem SameStart.ne_cons {x : Char} {r s : List Char} (h : SameStart r s)
    (hr : ∀ t, r ≠ x :: t) (t : List Char) : s ≠ x :: t := by
  rintro rfl
  obtain ⟨r', rfl⟩ := SameStart.exists_cons h.symm
  exact hr r' rfl

/-- No name stands where one should. -/
theorem blames_stray_name {cs : List Char} (hnone : nameAt (Text.skipBlanks cs) = []) :
    Blames Bracketed bracket cs (stray (Text.skipBlanks cs)) := by
  obtain ⟨a, ha, hcs, hbody⟩ := skipBlanks_ahead cs
  have hhalts : Halts isNameChar (Text.skipBlanks cs) := halts_of_nameAt hnone
  have hviable : Bracketed (a ++ ['a', ']']) :=
    ⟨_, by simpa using IsCondition.hasAttribute ha name_letter blanks_nil⟩
  have hstray : ∀ other, SameStart (Text.skipBlanks cs) other →
      bracket (a ++ other) = .error (stray other) := by
    intro other hother
    have hskip := hbody other hother
    have hname : nameAt (Text.skipBlanks (a ++ other)) = [] := by
      rw [hskip]
      exact nameAt_of_halts (hother.halts hhalts)
    rw [bracket_of_stray_name hname, hskip]
  have hblames := blames_stray hviable hstray
  rwa [← hcs] at hblames

/-- Neither the end of the brackets nor a value follows the name. -/
theorem blames_stray_close {cs after : List Char} (hname : nameAt (Text.skipBlanks cs) ≠ [])
    (hafter : Text.skipBlanks (afterName (Text.skipBlanks cs)) = after)
    (hclose : ∀ r, after ≠ ']' :: r) (hequals : ∀ r, after ≠ '=' :: r) :
    Blames Bracketed bracket cs (stray after) := by
  obtain ⟨a, n, b, ha, hn, hb, hcs, hahead⟩ := bracket_name_ahead hname
  rw [hafter] at hcs hahead
  have hviable : Bracketed (a ++ n ++ b ++ [']']) :=
    ⟨_, by simpa using IsCondition.hasAttribute ha hn hb⟩
  have hstray : ∀ other, SameStart after other →
      bracket (a ++ n ++ b ++ other) = .error (stray other) := by
    intro other hother
    obtain ⟨hfound, hrest⟩ := hahead other hother
    exact bracket_of_stray_close (by rw [hfound]; exact hn.1) hrest (hother.ne_cons hclose)
      (hother.ne_cons hequals)
  rw [hcs]
  exact blames_stray hviable hstray

/-- The end of the brackets does not follow the value. -/
theorem blames_stray_value {cs r r' : List Char} {v : String}
    (hname : nameAt (Text.skipBlanks cs) ≠ [])
    (hafter : Text.skipBlanks (afterName (Text.skipBlanks cs)) = '=' :: r)
    (hv : value (Text.skipBlanks r) = .ok (v, r')) (hclose : ∀ s, Text.skipBlanks r' ≠ ']' :: s) :
    Blames Bracketed bracket cs (stray (Text.skipBlanks r')) := by
  obtain ⟨a, n, b, ha, hn, hb, hcs, hahead⟩ := bracket_name_ahead hname
  rw [hafter] at hcs hahead
  obtain ⟨c, hc, hr, hvalue⟩ := skipBlanks_ahead r
  obtain ⟨t, ht, htr, hread⟩ := value_ahead hv
  obtain ⟨d, hd, hdr, hlast⟩ := skipBlanks_ahead r'
  have hviable : Bracketed (a ++ n ++ b ++ '=' :: (c ++ t ++ d) ++ [']']) :=
    ⟨_, by simpa using IsCondition.attributeEquals ha hn hb hc ht hd⟩
  have hstray : ∀ other, SameStart (Text.skipBlanks r') other →
      bracket (a ++ n ++ b ++ '=' :: (c ++ t ++ d) ++ other) = .error (stray other) := by
    intro other hother
    have hd' : SameStart r' (d ++ other) := by
      rw [hdr]
      exact hother.append d
    have ht' : SameStart (Text.skipBlanks r) (t ++ (d ++ other)) := by
      rw [htr]
      exact hd'.append t
    have hskip : Text.skipBlanks (d ++ other) = other := hlast other hother
    obtain ⟨hfound, hrest⟩ := hahead ('=' :: (c ++ (t ++ (d ++ other)))) rfl
    have hbracket := bracket_of_stray_value (by rw [hfound]; exact hn.1) hrest
      (by rw [hvalue _ ht', hread _ hd']) (by rw [hskip]; exact hother.ne_cons hclose)
    rw [hskip] at hbracket
    simpa using hbracket
  have hsplit : cs = a ++ n ++ b ++ '=' :: (c ++ t ++ d) ++ Text.skipBlanks r' := by
    have hr' : r = c ++ (t ++ (d ++ Text.skipBlanks r')) := by rw [← hdr, ← htr, ← hr]
    rw [hcs]
    simpa using hr'
  have hblames := blames_stray hviable hstray
  rwa [← hsplit] at hblames

/-- The value has no end. -/
theorem blames_open_value {cs r : List Char} {f : Fault}
    (hname : nameAt (Text.skipBlanks cs) ≠ [])
    (hafter : Text.skipBlanks (afterName (Text.skipBlanks cs)) = '=' :: r)
    (hv : value (Text.skipBlanks r) = .error f) : Blames Bracketed bracket cs f := by
  obtain ⟨a, n, b, ha, hn, hb, hcs, -⟩ := bracket_name_ahead hname
  rw [hafter] at hcs
  obtain ⟨c, hc, hr, -⟩ := skipBlanks_ahead r
  obtain ⟨rfl, more, v, ht⟩ := value_error hv
  have hviable : Bracketed (cs ++ (more ++ [']'])) := by
    refine ⟨.attributeEquals (String.ofList n) v, ?_⟩
    rw [hcs, hr]
    simpa using IsCondition.attributeEquals ha hn hb hc ht blanks_nil
  exact .unterminated hviable

theorem bracket_blames {cs : List Char} {f : Fault} (h : bracket cs = .error f) :
    Blames Bracketed bracket cs f := by
  by_cases hname : nameAt (Text.skipBlanks cs) = []
  · cases (bracket_of_stray_name hname).symm.trans h
    exact blames_stray_name hname
  -- What follows the name decides: the end of the brackets, a value or something stray.
  simp only [bracket] at h
  split at h
  · cases h
  · rename_i hafter
    split at h
    · rename_i hv
      cases h
      exact blames_open_value hname hafter hv
    · rename_i hv
      split at h
      · cases h
      · rename_i hclose
        cases h
        exact blames_stray_value hname hafter hv hclose
  · rename_i hclose hequals
    cases h
    exact blames_stray_close hname rfl hclose hequals

/-! ## Conditions and alternatives -/

theorem marked_blames {mark : Char} {make : String → Condition} {cs : List Char} {f : Fault}
    (h : marked mark make cs = .error f) :
    f = .unexpected mark (mark :: cs) ∧ Halts isNameChar cs := by
  unfold marked at h
  split at h
  · rename_i hnone
    cases h
    exact ⟨rfl, halts_of_nameAt hnone⟩
  · cases h

theorem error_of_map_some {α : Type} {x : Except Fault α} {f : Fault}
    (h : x.map some = .error f) : x = .error f := by
  cases x with
  | error e =>
    cases h
    rfl
  | ok a => cases h

theorem condition_blames {cs : List Char} {f : Fault} (h : condition cs = .error f) :
    Blames (fun t => ∃ c, IsCondition t c) condition cs f := by
  unfold condition at h
  split at h
  · obtain ⟨rfl, hafter⟩ := marked_blames (error_of_map_some h)
    rw [← List.nil_append ('#' :: _)]
    exact .nameless (.inl rfl) hafter fun n hn => ⟨_, .id hn⟩
  · obtain ⟨rfl, hafter⟩ := marked_blames (error_of_map_some h)
    rw [← List.nil_append ('.' :: _)]
    exact .nameless (.inr rfl) hafter fun n hn => ⟨_, .className hn⟩
  · refine (bracket_blames (error_of_map_some h)).lift (u := ['[']) (fun _ hv => hv) ?_
    intro v f _ hv
    simp [condition, hv, Except.map]
  · cases h

theorem conditions_of_error {cs : List Char} {f : Fault} (h : condition cs = .error f) :
    conditions cs = .error f := by
  rw [conditions]
  split <;> simp_all

theorem conditions_of_more_error {cs rest : List Char} {c : Condition} {f : Fault}
    (h : condition cs = .ok (some (c, rest))) (hmore : conditions rest = .error f) :
    conditions cs = .error f := by
  rw [conditions]
  split <;> simp_all

theorem conditions_blames {cs : List Char} {f : Fault} (h : conditions cs = .error f) :
    Blames (fun t => ∃ c more, IsConditions t (c :: more)) conditions cs f := by
  fun_induction conditions cs generalizing f with
  | case1 cs f' hc =>
    cases h
    refine (condition_blames hc).lift (u := []) ?_ fun v f _ hv => conditions_of_error hv
    rintro v ⟨c, hv⟩
    exact ⟨c, [], by simpa using IsConditions.cons hv .nil⟩
  | case2 => cases h
  | case3 cs c rest hc _ f' _ ih =>
    cases h
    obtain ⟨t, ht, rfl, hahead⟩ := condition_ahead hc
    refine (ih ‹_›).lift ?_ fun v f hstart hv => conditions_of_more_error (hahead v hstart) hv
    rintro v ⟨d, more, hv⟩
    exact ⟨c, d :: more, .cons ht hv⟩
  | case4 => cases h

theorem compound_blames {cs : List Char} {f : Fault} (h : compound cs = .error f) :
    Blames (fun t => ∃ c, IsCompound t c) compound cs f := by
  rcases hs : subject cs with ⟨named, localName, rest⟩
  simp only [compound, hs] at h
  split at h
  · rename_i f' hc
    cases h
    obtain ⟨s, rfl, hcompound, hsubject⟩ := subject_ahead hs
    refine (conditions_blames hc).lift ?_ ?_
    · rintro v ⟨c, more, hv⟩
      exact ⟨_, hcompound v (c :: more) hv (by simp)⟩
    · intro v f hstart hv
      simp only [compound, hsubject v hstart, hv]
  · split at h
    · cases h
    · cases h
      exact .empty

/-! ## Whole texts -/

theorem list_of_error {cs : List Char} {f : Fault}
    (h : compound (Text.skipBlanks cs) = .error f) : list cs = .error f := by
  rw [list]
  split <;> simp_all

theorem list_of_misplaced {cs rest after : List Char} {c : Compound} {x : Char}
    (h : compound (Text.skipBlanks cs) = .ok (c, rest)) (hr : Text.skipBlanks rest = x :: after)
    (hx : x ≠ ',') : list cs = .error (misplaced x after) := by
  rw [list]
  split
  · simp_all
  · rename_i heq
    cases h.symm.trans heq
    split
    · simp_all
    · rename_i heq'
      cases hr.symm.trans heq'
      exact absurd rfl hx
    · rename_i heq'
      cases hr.symm.trans heq'
      rfl

theorem list_of_more_error {cs rest rest' : List Char} {c : Compound} {f : Fault}
    (h : compound (Text.skipBlanks cs) = .ok (c, rest)) (hr : Text.skipBlanks rest = ',' :: rest')
    (hmore : list rest' = .error f) : list cs = .error f := by
  rw [list]
  split
  · simp_all
  · rename_i heq
    cases h.symm.trans heq
    split
    · simp_all
    · rename_i heq'
      cases hr.symm.trans heq'
      simp [hmore]
    · simp_all

/-- An alternative, the blanks around it and how far reading it looks ahead. -/
theorem alternative_ahead {cs rest : List Char} {c : Compound}
    (h : compound (Text.skipBlanks cs) = .ok (c, rest)) :
    ∃ a t b, Blanks a ∧ IsCompound t c ∧ Blanks b ∧
      cs = a ++ t ++ b ++ Text.skipBlanks rest ∧
      ∀ other, SameStart (Text.skipBlanks rest) other →
        compound (Text.skipBlanks (a ++ t ++ b ++ other)) = .ok (c, b ++ other) ∧
          Text.skipBlanks (b ++ other) = other := by
  obtain ⟨a, ha, hcs, hfirst⟩ := skipBlanks_ahead cs
  obtain ⟨t, ht, htr, hcompound⟩ := compound_ahead h
  obtain ⟨b, hb, hbr, hlast⟩ := skipBlanks_ahead rest
  refine ⟨a, t, b, ha, ht, hb, ?_, ?_⟩
  · rw [List.append_assoc, List.append_assoc, ← hbr, ← htr, ← hcs]
  · intro other hother
    have hb' : SameStart rest (b ++ other) := by
      rw [hbr]
      exact hother.append b
    have ht' : SameStart (Text.skipBlanks cs) (t ++ (b ++ other)) := by
      rw [htr]
      exact hb'.append t
    rw [List.append_assoc, List.append_assoc, hfirst _ ht', hcompound _ hb']
    exact ⟨rfl, hlast other hother⟩

theorem list_blames {cs : List Char} {f : Fault} (h : list cs = .error f) :
    Blames (fun t => ∃ found, IsList t found) list cs f := by
  fun_induction list cs generalizing f with
  | case1 cs f' hc =>
    cases h
    obtain ⟨a, ha, hcs, hfirst⟩ := skipBlanks_ahead cs
    rw [hcs]
    refine (compound_blames hc).lift ?_ ?_
    · rintro v ⟨c, hv⟩
      exact ⟨_, by simpa using IsList.last ha hv blanks_nil⟩
    · intro v f hstart hv
      exact list_of_error (by rwa [hfirst v hstart])
  | case2 => cases h
  | case3 cs c rest hc rest' hb _ f' _ ih =>
    cases h
    obtain ⟨a, t, b, ha, ht, hb', hcs, hahead⟩ := alternative_ahead hc
    rw [hb] at hcs hahead
    have hsplit : cs = (a ++ t ++ b ++ [',']) ++ rest' := by
      rw [hcs]
      simp
    rw [hsplit]
    refine (ih ‹_›).lift ?_ ?_
    · rintro v ⟨found, hv⟩
      exact ⟨_, by simpa using IsList.cons ha ht hb' hv⟩
    · intro v f _ hv
      obtain ⟨hcompound, hskip⟩ := hahead (',' :: v) rfl
      rw [List.append_assoc, List.singleton_append]
      exact list_of_more_error hcompound hskip hv
  | case4 => cases h
  | case5 cs c rest hc x rest' hcomma hb =>
    cases h
    obtain ⟨a, t, b, ha, ht, hb', hcs, hahead⟩ := alternative_ahead hc
    rw [hb] at hcs hahead
    have hx : x ≠ ',' := hcomma
    have hviable : ∃ found, IsList (a ++ t ++ b ++ []) found :=
      ⟨_, by simpa using IsList.last ha ht hb'⟩
    have hdecided : ∀ other, list (a ++ t ++ b ++ x :: other) = .error (misplaced x other) :=
      fun other => list_of_misplaced (hahead (x :: other) rfl).1 (hahead (x :: other) rfl).2 hx
    rw [hcs]
    unfold misplaced at hdecided ⊢
    split
    · rename_i hkind
      exact .combinator hviable fun other => by rw [hdecided, if_pos hkind]
    · rename_i hkind
      exact .unexpected hviable fun other => by rw [hdecided, if_neg hkind]

/-! ## Errors -/

theorem byteLength_eq (cs : List Char) : byteLength cs = (String.ofList cs).utf8ByteSize := by
  induction cs with
  | nil => rfl
  | cons c cs ih =>
    rw [← List.singleton_append, String.ofList_append, String.utf8ByteSize_append, ← ih,
      ← String.singleton_eq_ofList, String.utf8ByteSize_singleton]
    rfl

/-- The place where `after` is left of a text is found behind what comes before it. -/
theorem byteLength_append_sub (before after : List Char) :
    byteLength (before ++ after) - byteLength after = (String.ofList before).utf8ByteSize := by
  rw [byteLength_eq, byteLength_eq, String.ofList_append, String.utf8ByteSize_append,
    Nat.add_sub_cancel]

theorem parse_eq_error_iff {source : String} {e : SelectorError} :
    parse source = .error e ↔ ∃ f, list source.toList = .error f ∧ f.locate source = e := by
  unfold parse
  cases list source.toList <;> simp

/-- The text can be completed to a selector. -/
def Viable (text : String) : Prop :=
  ∃ more s, parse (text ++ more) = .ok s

/-- Every text that begins so is refused at the character, with an error of this kind. -/
def RefusedAt (before : String) (x : Char) (error : String → Nat → SelectorError) : Prop :=
  ∀ after, parse (before ++ String.singleton x ++ after) =
    .error (error (before ++ String.singleton x ++ after) before.utf8ByteSize)

/-- The character is a mark that begins a condition, with no name after it: whatever name stood
there, the text would be a selector. -/
def LacksName (before : String) (found : Char) (after : String) : Prop :=
  (found = '#' ∨ found = '.') ∧ Halts isNameChar after.toList ∧
    ∀ n : String, Name n.toList → ∃ s, parse (before ++ String.singleton found ++ n) = .ok s

theorem viable_of_isList {text more : List Char} (h : ∃ found, IsList (text ++ more) found) :
    Viable (String.ofList text) := by
  obtain ⟨found, h⟩ := h
  exact ⟨String.ofList more, _, parse_of_isList (by simpa using h)⟩

theorem refusedAt_of_list {before : List Char} {x : Char} {fault : List Char → Fault}
    {error : String → Nat → SelectorError}
    (hdecided : ∀ other, list (before ++ x :: other) = .error (fault (x :: other)))
    (hlocate : ∀ text rest,
      (fault rest).locate text = error text (byteLength text.toList - byteLength rest)) :
    RefusedAt (String.ofList before) x error := by
  intro after
  have htext : (String.ofList before ++ String.singleton x ++ after).toList =
      before ++ x :: after.toList := by simp
  refine parse_eq_error_iff.2 ⟨_, by rw [htext]; exact hdecided after.toList, ?_⟩
  rw [hlocate, htext, byteLength_append_sub]

theorem lacksName_of_isList {before after : List Char} {x : Char} (hx : x = '#' ∨ x = '.')
    (hafter : Halts isNameChar after)
    (hname : ∀ n, Name n → ∃ found, IsList (before ++ x :: n) found) :
    LacksName (String.ofList before) x (String.ofList after) := by
  refine ⟨hx, by simpa using hafter, fun n hn => ?_⟩
  obtain ⟨found, hlist⟩ := hname n.toList hn
  exact ⟨_, parse_of_isList (by simpa using hlist)⟩

theorem eq_of_toList_eq {source : String} {before after : List Char} {x : Char}
    (h : source.toList = before ++ x :: after) :
    source = String.ofList before ++ String.singleton x ++ String.ofList after := by
  rw [← String.toList_inj, h]
  simp

/-- An error is about the character at its byte offset: the text before it can be completed to a
selector, and every text that agrees up to it is refused alike, unless it is a mark that wants a
name. -/
theorem errors_point (source : String) :
    (∀ text position, parse source = .error (.unsupportedCombinator text position) →
      text = source ∧ ∃ before x after, source = before ++ String.singleton x ++ after ∧
        position = before.utf8ByteSize ∧ Viable before ∧
        RefusedAt before x .unsupportedCombinator) ∧
    (∀ text found position, parse source = .error (.unexpected text found position) →
      text = source ∧ ∃ before after, source = before ++ String.singleton found ++ after ∧
        position = before.utf8ByteSize ∧ Viable before ∧
        (¬ LacksName before found after → RefusedAt before found (.unexpected · found ·))) ∧
    ∀ text, parse source = .error (.unterminated text) → text = source ∧ Viable source := by
  -- The position that a fault is given is the number of bytes before the rest it has kept.
  have hplace : ∀ {before after : List Char}, source.toList = before ++ after →
      byteLength source.toList - byteLength after = (String.ofList before).utf8ByteSize :=
    fun h => by rw [h, byteLength_append_sub]
  refine ⟨fun text position h => ?_, fun text found position h => ?_, fun text h => ?_⟩
  · obtain ⟨f, hlist, hlocate⟩ := parse_eq_error_iff.1 h
    generalize hcs : source.toList = cs at hlist
    cases list_blames hlist with
    | @combinator before more after x hviable hdecided =>
      cases hlocate
      exact ⟨rfl, _, x, _, eq_of_toList_eq hcs, hplace hcs, viable_of_isList hviable,
        refusedAt_of_list hdecided fun _ _ => rfl⟩
    | empty | unterminated | unexpected | nameless => cases hlocate
  · obtain ⟨f, hlist, hlocate⟩ := parse_eq_error_iff.1 h
    generalize hcs : source.toList = cs at hlist
    cases list_blames hlist with
    | unexpected hviable hdecided =>
      cases hlocate
      exact ⟨rfl, _, _, eq_of_toList_eq hcs, hplace hcs, viable_of_isList hviable,
        fun _ => refusedAt_of_list hdecided fun _ _ => rfl⟩
    | nameless hx hafter hname =>
      cases hlocate
      exact ⟨rfl, _, _, eq_of_toList_eq hcs, hplace hcs,
        viable_of_isList (hname ['a'] name_letter),
        fun hnot => absurd (lacksName_of_isList hx hafter hname) hnot⟩
    | empty | unterminated | combinator => cases hlocate
  · obtain ⟨f, hlist, hlocate⟩ := parse_eq_error_iff.1 h
    generalize hcs : source.toList = cs at hlist
    cases list_blames hlist with
    | unterminated hviable =>
      cases hlocate
      rw [← hcs] at hviable
      exact ⟨rfl, by simpa using viable_of_isList hviable⟩
    | empty | combinator | unexpected | nameless => cases hlocate

/-- A character of two bytes before the place, a mark without a name and a value without an end. -/
theorem errors_point_samples :
    parse "é[a=b c]" = .error (.unexpected "é[a=b c]" 'c' 7) ∧
      (∃ before after, "é[a=b c]" = before ++ String.singleton 'c' ++ after ∧
        before.utf8ByteSize = 7 ∧ Viable before) ∧
      parse "é *" = .error (.unsupportedCombinator "é *" 3) ∧
      (∃ before x after, "é *" = before ++ String.singleton x ++ after ∧
        before.utf8ByteSize = 3 ∧ RefusedAt before x .unsupportedCombinator) ∧
      parse "[a='é" = .error (.unterminated "[a='é") ∧ Viable "[a='é" := by
  have hunexpected : parse "é[a=b c]" = .error (.unexpected "é[a=b c]" 'c' 7) := by decide +kernel
  have hcombinator : parse "é *" = .error (.unsupportedCombinator "é *" 3) := by decide +kernel
  have hunterminated : parse "[a='é" = .error (.unterminated "[a='é") := by decide +kernel
  obtain ⟨-, before, after, hsource, hposition, hviable, -⟩ :=
    (errors_point "é[a=b c]").2.1 _ _ _ hunexpected
  obtain ⟨-, before', x, after', hsource', hposition', -, hrefused⟩ :=
    (errors_point "é *").1 _ _ hcombinator
  exact ⟨hunexpected, ⟨before, after, hsource, hposition.symm, hviable⟩, hcombinator,
    ⟨before', x, after', hsource', hposition'.symm, hrefused⟩, hunterminated,
    ((errors_point "[a='é").2.2 _ hunterminated).2⟩

end StructureLint.Selector
