import StructureLint.Selector.Grammar
/-!
# What is read follows the grammar

Where a reading function succeeds, the text is a part that the grammar derives, with the meaning
that was read, followed by what is left. There is one lemma for each reading function, and none of
them looks into the function that another is about. The last one is about whole texts: `list_sound`.
-/

namespace StructureLint.Selector

open Grammar

/-! ## Runs of characters -/

theorem blanks_skipped (cs : List Char) : ∃ a, Blanks a ∧ cs = a ++ Text.skipBlanks cs :=
  ⟨cs.takeWhile Text.isBlank, List.all_eq_true.1 List.all_takeWhile,
    List.takeWhile_append_dropWhile.symm⟩

theorem nameAt_append_afterName (cs : List Char) : nameAt cs ++ afterName cs = cs :=
  List.takeWhile_append_dropWhile

theorem isNameChar_nameAt (cs : List Char) : ∀ c ∈ nameAt cs, isNameChar c = true :=
  List.all_eq_true.1 List.all_takeWhile

theorem name_nameAt {cs : List Char} (h : nameAt cs ≠ []) : Name (nameAt cs) :=
  ⟨h, isNameChar_nameAt cs⟩

/-! ## Conditions -/

theorem quoted_sound {mark : Char} {cs rest : List Char} {v : String}
    (h : quoted mark cs = .ok (v, rest)) :
    ∃ w, mark ∉ w ∧ v = String.ofList w ∧ cs = w ++ mark :: rest := by
  have hcs := List.takeWhile_append_dropWhile (p := (· != mark)) (l := cs)
  unfold quoted at h
  split at h
  · cases h
  · rename_i d r hd
    cases h
    have hm : d = mark := by
      have := List.head?_dropWhile_not (· != mark) cs
      simpa [hd] using this
    refine ⟨cs.takeWhile (· != mark), fun hmem => ?_, rfl, ?_⟩
    · simpa using List.all_eq_true.1 List.all_takeWhile mark hmem
    · rw [hd, hm] at hcs
      exact hcs.symm

theorem value_sound {cs rest : List Char} {v : String} (h : value cs = .ok (v, rest)) :
    ∃ t, Value t v ∧ cs = t ++ rest := by
  unfold value at h
  split at h
  · cases h
  · obtain ⟨w, hw, rfl, rfl⟩ := quoted_sound h
    exact ⟨_, .double hw, by simp⟩
  · obtain ⟨w, hw, rfl, rfl⟩ := quoted_sound h
    exact ⟨_, .single hw, by simp⟩
  · cases h
    exact ⟨_, .plain (isNameChar_nameAt _), (nameAt_append_afterName _).symm⟩

theorem bracket_sound {cs rest : List Char} {c : Condition} (h : bracket cs = .ok (c, rest)) :
    ∃ t, IsCondition ('[' :: t) c ∧ cs = t ++ rest := by
  obtain ⟨a, ha, hcs⟩ := blanks_skipped cs
  simp only [bracket] at h
  -- The texts that are cut off one after another are named; their concatenation is the text.
  generalize Text.skipBlanks cs = body at h hcs
  obtain ⟨b, hb, hafter⟩ := blanks_skipped (afterName body)
  have hname := nameAt_append_afterName body
  split at h
  · cases h
  · rename_i hne
    have hn := name_nameAt fun he => hne he
    generalize nameAt body = n at h hn hname
    split at h
    · rename_i hclose
      cases h
      refine ⟨_, .hasAttribute ha hn hb, ?_⟩
      rw [hcs, ← hname, hafter, hclose]
      simp
    · rename_i r heq
      split at h
      · cases h
      · rename_i v r' hv
        obtain ⟨x, hx, hxr⟩ := blanks_skipped r
        obtain ⟨t, ht, htr⟩ := value_sound hv
        obtain ⟨d, hd, hdr⟩ := blanks_skipped r'
        split at h
        · rename_i hclose
          cases h
          refine ⟨_, .attributeEquals ha hn hb hx ht hd, ?_⟩
          rw [hcs, ← hname, hafter, heq, hxr, htr, hdr, hclose]
          simp
        · cases h
    · cases h

theorem marked_sound {mark : Char} {make : String → Condition} {cs rest : List Char}
    {c : Condition} (h : marked mark make cs = .ok (c, rest)) :
    ∃ n, Name n ∧ c = make (String.ofList n) ∧ cs = n ++ rest := by
  unfold marked at h
  split at h
  · cases h
  · rename_i hne
    cases h
    exact ⟨_, name_nameAt fun he => hne he, rfl, (nameAt_append_afterName cs).symm⟩

theorem condition_sound {cs rest : List Char} {c : Condition}
    (h : condition cs = .ok (some (c, rest))) : ∃ t, IsCondition t c ∧ cs = t ++ rest := by
  unfold condition at h
  split at h
  · obtain ⟨n, hn, rfl, rfl⟩ := marked_sound (ok_of_map_some h)
    exact ⟨_, .id hn, rfl⟩
  · obtain ⟨n, hn, rfl, rfl⟩ := marked_sound (ok_of_map_some h)
    exact ⟨_, .className hn, rfl⟩
  · obtain ⟨t, ht, rfl⟩ := bracket_sound (ok_of_map_some h)
    exact ⟨_, ht, rfl⟩
  · cases h

theorem conditions_sound {cs rest : List Char} {found : List Condition}
    (h : conditions cs = .ok (found, rest)) : ∃ t, IsConditions t found ∧ cs = t ++ rest := by
  fun_induction conditions cs generalizing found rest with
  | case1 => cases h
  | case2 =>
    cases h
    exact ⟨[], .nil, rfl⟩
  | case3 => cases h
  | case4 cs c rest' hc _ more rest'' _ ih =>
    cases h
    obtain ⟨t, ht, rfl⟩ := condition_sound hc
    obtain ⟨u, hu, rfl⟩ := ih ‹_›
    exact ⟨_, .cons ht hu, by simp⟩

/-! ## Alternatives -/

/-- The subject of a compound is `*`, a name or missing; its text is what it leaves unread. -/
theorem subject_sound {cs rest : List Char} {named : Bool} {localName : Option String}
    (h : subject cs = (named, localName, rest)) :
    (named = true ∧ localName = none ∧ cs = '*' :: rest) ∨
    (∃ n, Name n ∧ named = true ∧ localName = some (String.ofList n) ∧ cs = n ++ rest) ∨
    (named = false ∧ localName = none ∧ cs = rest) := by
  unfold subject at h
  split at h
  · cases h
    exact .inl ⟨rfl, rfl, rfl⟩
  · split at h
    · cases h
      exact .inr (.inr ⟨rfl, rfl, rfl⟩)
    · rename_i hne
      cases h
      exact .inr (.inl ⟨_, name_nameAt fun he => hne he, rfl, rfl,
        (nameAt_append_afterName cs).symm⟩)

theorem compound_sound {cs rest : List Char} {c : Compound} (h : compound cs = .ok (c, rest)) :
    ∃ t, IsCompound t c ∧ cs = t ++ rest := by
  rcases hs : subject cs with ⟨named, localName, r⟩
  simp only [compound, hs] at h
  split at h
  · cases h
  · rename_i found r' hc
    obtain ⟨t, ht, rfl⟩ := conditions_sound hc
    split at h
    · rename_i hsome
      cases h
      obtain ⟨rfl, rfl, rfl⟩ | ⟨n, hn, rfl, rfl, rfl⟩ | ⟨rfl, rfl, rfl⟩ := subject_sound hs
      · exact ⟨_, .universal ht, rfl⟩
      · exact ⟨_, .named hn ht, by simp⟩
      · match found, ht with
        | [], _ => simp at hsome
        | _ :: _, ht => exact ⟨_, .conditional ht, rfl⟩
    · cases h

/-- A text that is read to its end is a list of alternatives, and those are what was read. -/
theorem list_sound {cs : List Char} {found : List Compound} (h : list cs = .ok found) :
    IsList cs found := by
  fun_induction list cs generalizing found with
  | case1 => cases h
  | case2 cs c rest hc hb =>
    cases h
    obtain ⟨a, ha, hcs⟩ := blanks_skipped cs
    obtain ⟨t, ht, htr⟩ := compound_sound hc
    obtain ⟨b, hb', hbr⟩ := blanks_skipped rest
    rw [hcs, htr, hbr, hb]
    simpa using IsList.last ha ht hb'
  | case3 => cases h
  | case4 cs c rest hc rest' hb _ more _ ih =>
    cases h
    obtain ⟨a, ha, hcs⟩ := blanks_skipped cs
    obtain ⟨t, ht, htr⟩ := compound_sound hc
    obtain ⟨b, hb', hbr⟩ := blanks_skipped rest
    rw [hcs, htr, hbr, hb]
    simpa using IsList.cons ha ht hb' (ih ‹_›)
  | case5 => cases h

end StructureLint.Selector
