import StructureLint.Proofs.Selector.Parse
/-!
# Reading looks one character ahead

What a reading function takes off the front of a text depends on the text after it only through the
first character there: with anything else in its place that begins alike (`SameStart`), the same is
read and what was put there is left. There is one lemma for each reading function, up to
`compound_ahead`. They say more than those of `Sound`, from which the part of the text that was read
is known, but not where reading it had to stop.
-/

namespace StructureLint.Selector

open Grammar

/-- Two texts have the same first character, or are both at their end. -/
def SameStart (r s : List Char) : Prop :=
  r.head? = s.head?

theorem SameStart.append {r s : List Char} (h : SameStart r s) (t : List Char) :
    SameStart (t ++ r) (t ++ s) := by
  cases t with
  | nil => exact h
  | cons => rfl

theorem SameStart.halts {r s : List Char} {p : Char → Bool} (h : SameStart r s)
    (hr : Halts p r) : Halts p s := by
  unfold Halts at *
  rwa [← show r.head? = s.head? from h]

theorem SameStart.exists_cons {x : Char} {r s : List Char} (h : SameStart (x :: r) s) :
    ∃ s', s = x :: s' := by
  cases s with
  | nil => cases h
  | cons y s' =>
    cases h
    exact ⟨s', rfl⟩

/-! ## Runs of characters -/

theorem halts_afterName (cs : List Char) : Halts isNameChar (afterName cs) := by
  intro c hc
  have := List.head?_dropWhile_not isNameChar cs
  rw [show (cs.dropWhile isNameChar).head? = some c from hc] at this
  simpa using this

theorem halts_of_nameAt {cs : List Char} (h : nameAt cs = []) : Halts isNameChar cs := by
  have hafter := halts_afterName cs
  rwa [← List.nil_append (afterName cs), ← h, nameAt_append_afterName] at hafter

theorem skipBlanks_ahead (cs : List Char) :
    ∃ a, Blanks a ∧ cs = a ++ Text.skipBlanks cs ∧
      ∀ other, SameStart (Text.skipBlanks cs) other → Text.skipBlanks (a ++ other) = other := by
  obtain ⟨a, ha, hcs⟩ := blanks_skipped cs
  exact ⟨a, ha, hcs, fun other h => skipBlanks_append ha (h.halts (halts_skipBlanks cs))⟩

theorem name_ahead {cs other : List Char} (h : SameStart (afterName cs) other) :
    nameAt (nameAt cs ++ other) = nameAt cs ∧ afterName (nameAt cs ++ other) = other := by
  have hend := h.halts (halts_afterName cs)
  exact ⟨nameAt_append (isNameChar_nameAt cs) hend, afterName_append (isNameChar_nameAt cs) hend⟩

/-! ## Conditions -/

theorem value_ahead {cs rest : List Char} {v : String} (h : value cs = .ok (v, rest)) :
    ∃ t, Value t v ∧ cs = t ++ rest ∧
      ∀ other, SameStart rest other → value (t ++ other) = .ok (v, other) := by
  unfold value at h
  split at h
  · cases h
  · obtain ⟨w, hw, rfl, rfl⟩ := quoted_sound h
    exact ⟨_, .double hw, by simp, fun other _ => by simpa [value] using quoted_complete hw other⟩
  · obtain ⟨w, hw, rfl, rfl⟩ := quoted_sound h
    exact ⟨_, .single hw, by simp, fun other _ => by simpa [value] using quoted_complete hw other⟩
  · rename_i hne hdouble hsingle
    cases h
    refine ⟨_, .plain (isNameChar_nameAt cs), (nameAt_append_afterName cs).symm, ?_⟩
    intro other hother
    obtain ⟨hname, hafter⟩ := name_ahead hother
    -- The text begins as before, so with no quotation mark.
    obtain ⟨x, xs, rfl⟩ := List.exists_cons_of_ne_nil hne
    have hstart := hother.append (nameAt (x :: xs))
    rw [nameAt_append_afterName] at hstart
    obtain ⟨ys, hys⟩ := hstart.exists_cons
    rw [hys] at hname hafter ⊢
    rw [value_plain (fun he => hdouble xs (by rw [he])) (fun he => hsingle xs (by rw [he])), hname,
      hafter]

theorem marked_ahead {mark : Char} {make : String → Condition} {cs rest : List Char}
    {c : Condition} (h : marked mark make cs = .ok (c, rest)) :
    ∃ n, Name n ∧ c = make (String.ofList n) ∧ cs = n ++ rest ∧
      ∀ other, SameStart rest other → marked mark make (n ++ other) = .ok (c, other) := by
  unfold marked at h
  split at h
  · cases h
  · rename_i hne
    cases h
    have hn : Name (nameAt cs) := name_nameAt fun he => hne he
    exact ⟨_, hn, rfl, (nameAt_append_afterName cs).symm, fun other hother =>
      marked_complete hn (hother.halts (halts_afterName cs)) mark make⟩

/-- The closing bracket ends a condition, whatever comes after it. -/
theorem bracket_ahead {cs rest : List Char} {c : Condition} (h : bracket cs = .ok (c, rest)) :
    ∃ t, IsCondition ('[' :: t) c ∧ cs = t ++ rest ∧
      ∀ other, bracket (t ++ other) = .ok (c, other) := by
  obtain ⟨t, ht, rfl⟩ := bracket_sound h
  refine ⟨t, ht, rfl, fun other => ?_⟩
  generalize hu : '[' :: t = u at ht
  cases ht with
  | id => exact absurd (List.cons.inj hu).1 (by decide)
  | className => exact absurd (List.cons.inj hu).1 (by decide)
  | hasAttribute ha hn hb =>
    rw [(List.cons.inj hu).2]
    simpa using bracket_hasAttribute ha hn hb other
  | attributeEquals ha hn hb hc hv hd =>
    rw [(List.cons.inj hu).2]
    simpa using bracket_attributeEquals ha hn hb hc hv hd other

theorem condition_ahead {cs rest : List Char} {c : Condition}
    (h : condition cs = .ok (some (c, rest))) :
    ∃ t, IsCondition t c ∧ cs = t ++ rest ∧
      ∀ other, SameStart rest other → condition (t ++ other) = .ok (some (c, other)) := by
  unfold condition at h
  split at h
  · obtain ⟨n, hn, rfl, rfl, hahead⟩ := marked_ahead (ok_of_map_some h)
    exact ⟨_, .id hn, rfl, fun other hother => by simp [condition, hahead other hother, Except.map]⟩
  · obtain ⟨n, hn, rfl, rfl, hahead⟩ := marked_ahead (ok_of_map_some h)
    exact ⟨_, .className hn, rfl, fun other hother => by
      simp [condition, hahead other hother, Except.map]⟩
  · obtain ⟨t, ht, rfl, hahead⟩ := bracket_ahead (ok_of_map_some h)
    exact ⟨_, ht, rfl, fun other _ => by simp [condition, hahead other, Except.map]⟩
  · cases h

/-- The first character tells whether a condition begins. -/
theorem condition_none_ahead {cs other : List Char} (h : condition cs = .ok none)
    (hother : SameStart cs other) : condition other = .ok none := by
  have hmark : ∀ x ∈ other.head?, x ≠ '#' ∧ x ≠ '.' ∧ x ≠ '[' := by
    rw [← show cs.head? = other.head? from hother]
    intro x hx
    obtain ⟨r, rfl⟩ := List.head?_eq_some_iff.1 hx
    refine ⟨?_, ?_, ?_⟩
    · rintro rfl
      cases hm : marked '#' .id r <;> simp [condition, hm, Except.map] at h
    · rintro rfl
      cases hm : marked '.' .className r <;> simp [condition, hm, Except.map] at h
    · rintro rfl
      cases hm : bracket r <;> simp [condition, hm, Except.map] at h
  unfold condition
  split
  · exact absurd rfl (hmark '#' rfl).1
  · exact absurd rfl (hmark '.' rfl).2.1
  · exact absurd rfl (hmark '[' rfl).2.2
  · rfl

theorem conditions_ahead {cs rest : List Char} {found : List Condition}
    (h : conditions cs = .ok (found, rest)) :
    ∃ t, IsConditions t found ∧ cs = t ++ rest ∧
      ∀ other, SameStart rest other → conditions (t ++ other) = .ok (found, other) := by
  fun_induction conditions cs generalizing found rest with
  | case1 => cases h
  | case2 cs hnone =>
    cases h
    exact ⟨[], .nil, rfl, fun other hother => conditions_nil (condition_none_ahead hnone hother)⟩
  | case3 => cases h
  | case4 cs c rest' hc _ more rest'' _ ih =>
    cases h
    obtain ⟨t, ht, rfl, hcondition⟩ := condition_ahead hc
    obtain ⟨u, hu, rfl, hmore⟩ := ih ‹_›
    refine ⟨_, .cons ht hu, by simp, fun other hother => ?_⟩
    rw [List.append_assoc]
    exact conditions_cons (hcondition _ (hother.append u)) (hmore other hother)

/-! ## Alternatives -/

theorem subject_ahead {cs rest : List Char} {named : Bool} {localName : Option String}
    (h : subject cs = (named, localName, rest)) :
    ∃ s, cs = s ++ rest ∧
      (∀ t found, IsConditions t found → named = true ∨ found ≠ [] →
        IsCompound (s ++ t) ⟨localName, found⟩) ∧
      ∀ other, SameStart rest other → subject (s ++ other) = (named, localName, other) := by
  unfold subject at h
  split at h
  · cases h
    exact ⟨['*'], rfl, fun _ _ ht _ => .universal ht, fun _ _ => rfl⟩
  · rename_i hstar
    split at h
    · rename_i hnone
      cases h
      refine ⟨[], rfl, ?_, ?_⟩
      · intro t found ht hfound
        match found, ht with
        | [], _ => simp at hfound
        | _ :: _, ht => exact .conditional ht
      · intro other hother
        rw [List.nil_append]
        unfold subject
        split
        · obtain ⟨r, rfl⟩ := SameStart.exists_cons hother.symm
          exact absurd rfl (hstar r)
        · rw [nameAt_of_halts (hother.halts (halts_of_nameAt hnone))]
    · rename_i hne
      cases h
      have hn : Name (nameAt cs) := name_nameAt fun he => hne he
      exact ⟨_, (nameAt_append_afterName cs).symm, fun _ _ ht _ => .named hn ht,
        fun other hother => subject_name hn (hother.halts (halts_afterName cs))⟩

theorem compound_ahead {cs rest : List Char} {c : Compound} (h : compound cs = .ok (c, rest)) :
    ∃ t, IsCompound t c ∧ cs = t ++ rest ∧
      ∀ other, SameStart rest other → compound (t ++ other) = .ok (c, other) := by
  rcases hs : subject cs with ⟨named, localName, r⟩
  obtain ⟨s, rfl, hcompound, hsubject⟩ := subject_ahead hs
  simp only [compound, hs] at h
  split at h
  · cases h
  · rename_i found r' hc
    obtain ⟨t, ht, rfl, hconditions⟩ := conditions_ahead hc
    split at h
    · rename_i hsome
      cases h
      have hfound : named = true ∨ found ≠ [] := by simpa using hsome
      refine ⟨_, hcompound t found ht hfound, by simp, fun other hother => ?_⟩
      simp only [compound, List.append_assoc, hsubject _ (hother.append t), hconditions _ hother,
        hsome, if_true]
    · cases h

end StructureLint.Selector
