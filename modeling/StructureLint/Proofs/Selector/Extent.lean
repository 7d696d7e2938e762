import Mathlib.Data.List.Basic
import StructureLint.Proofs.Selector.Faults
/-!
# How far an alternative goes

An alternative is missing where no character begins one, and only there; any other fault lies inside
it (`compound_error_cases`). Reading it goes as far as the next character belongs to it
(`Continues`): there it stops, and nowhere else (`compound_stop`, `compound_of_stop`).
-/

namespace StructureLint.Selector

open Grammar

/-! ## Faults inside an alternative -/

/-- The faults that an alternative can have once it has begun. -/
def Fault.IsInner : Fault → Prop
  | .unexpected .. => True
  | .unterminated => True
  | .empty => False
  | .combinator _ => False

theorem isInner_stray (cs : List Char) : (stray cs).IsInner := by
  cases cs <;> trivial

theorem bracket_isInner {cs : List Char} {f : Fault} (h : bracket cs = .error f) : f.IsInner := by
  simp only [bracket] at h
  split at h
  · cases h
    exact isInner_stray _
  · split at h
    · cases h
    · split at h
      · rename_i hv
        cases h
        rw [(value_error hv).1]
        trivial
      · split at h
        · cases h
        · cases h
          exact isInner_stray _
    · cases h
      exact isInner_stray _

theorem marked_isInner {mark : Char} {make : String → Condition} {cs : List Char} {f : Fault}
    (h : marked mark make cs = .error f) : f.IsInner := by
  rw [(marked_blames h).1]
  trivial

theorem condition_isInner {cs : List Char} {f : Fault} (h : condition cs = .error f) :
    f.IsInner := by
  unfold condition at h
  split at h
  · exact marked_isInner (error_of_map_some h)
  · exact marked_isInner (error_of_map_some h)
  · exact bracket_isInner (error_of_map_some h)
  · cases h

theorem conditions_isInner {cs : List Char} {f : Fault} (h : conditions cs = .error f) :
    f.IsInner := by
  fun_induction conditions cs generalizing f with
  | case1 cs f' hc =>
    cases h
    exact condition_isInner hc
  | case2 => cases h
  | case3 cs c rest hc _ f' _ ih =>
    cases h
    exact ih ‹_›
  | case4 => cases h

/-! ## Where an alternative begins -/

theorem not_isMark_of_condition {x : Char} {cs : List Char} (h : condition (x :: cs) = .ok none) :
    ¬ IsMark x := by
  rintro ⟨hstart, hname, hstar⟩
  simp only [startsCompound, hname, Bool.false_or, Bool.or_eq_true, beq_iff_eq] at hstart
  rcases hstart with ((hx | rfl) | rfl) | rfl
  · exact hstar hx
  · cases hm : marked '#' .id cs <;> simp [condition, hm, Except.map] at h
  · cases hm : marked '.' .className cs <;> simp [condition, hm, Except.map] at h
  · cases hm : bracket cs <;> simp [condition, hm, Except.map] at h

theorem condition_of_not_isMark {cs : List Char} (h : ∀ x ∈ cs.head?, ¬ IsMark x) :
    condition cs = .ok none := by
  unfold condition
  split
  · exact absurd (by unfold IsMark; decide) (h '#' rfl)
  · exact absurd (by unfold IsMark; decide) (h '.' rfl)
  · exact absurd (by unfold IsMark; decide) (h '[' rfl)
  · rfl

/-- Reading conditions stops only where none begins. -/
theorem condition_rest {cs rest : List Char} {found : List Condition}
    (h : conditions cs = .ok (found, rest)) : condition rest = .ok none := by
  fun_induction conditions cs generalizing found rest with
  | case1 => cases h
  | case2 cs hnone =>
    cases h
    exact hnone
  | case3 => cases h
  | case4 cs c rest' hc _ more rest'' _ ih =>
    cases h
    exact ih ‹_›

theorem compound_rest {cs rest : List Char} {c : Compound} (h : compound cs = .ok (c, rest)) :
    condition rest = .ok none := by
  rcases hs : subject cs with ⟨named, localName, r⟩
  simp only [compound, hs] at h
  split at h
  · cases h
  · rename_i hc
    split at h
    · cases h
      exact condition_rest hc
    · cases h

theorem compound_of_halts {cs : List Char} (h : Halts startsCompound cs) :
    compound cs = .error .empty := by
  have hsubject : subject cs = (false, none, cs) := by
    unfold subject
    split
    · exact absurd (halts_cons.1 h) (by decide)
    · rw [nameAt_of_halts (halts_name h)]
  simp [compound, hsubject, conditions_nil (condition_of_halts h)]

theorem subject_of_unnamed {cs rest : List Char} {localName : Option String}
    (h : subject cs = (false, localName, rest)) :
    rest = cs ∧ Halts isNameChar cs ∧ ∀ r, cs ≠ '*' :: r := by
  unfold subject at h
  split at h
  · cases h
  · rename_i hstar
    split at h
    · rename_i hnone
      cases h
      exact ⟨rfl, halts_of_nameAt hnone, fun r hr => hstar r hr⟩
    · cases h

theorem condition_of_conditions_nil {cs rest : List Char} (h : conditions cs = .ok ([], rest)) :
    condition cs = .ok none := by
  rw [conditions] at h
  split at h
  · cases h
  · rename_i hnone
    exact hnone
  · split at h <;> cases h

/-- Where a compound can begin it is not missing, though it may have a fault. -/
theorem compound_error_cases {cs : List Char} {f : Fault} (h : compound cs = .error f) :
    f.IsInner ∨ f = .empty ∧ Halts startsCompound cs := by
  rcases hs : subject cs with ⟨named, localName, r⟩
  simp only [compound, hs] at h
  split at h
  · rename_i hc
    cases h
    exact .inl (conditions_isInner hc)
  · rename_i found rest hc
    split at h
    · cases h
    · rename_i hnone
      cases h
      simp only [Bool.or_eq_true, Bool.not_eq_true', List.isEmpty_eq_false_iff, not_or,
        Bool.not_eq_true, not_not] at hnone
      obtain ⟨rfl, rfl⟩ := hnone
      obtain ⟨rfl, hname, hstar⟩ := subject_of_unnamed hs
      have hcondition := condition_of_conditions_nil hc
      refine .inr ⟨rfl, fun x hx => ?_⟩
      obtain ⟨after, rfl⟩ := List.head?_eq_some_iff.1 hx
      -- The first character begins neither a name nor a condition, and it is no `*`.
      cases hstart : startsCompound x with
      | false => rfl
      | true =>
        have hne : x ≠ '*' := fun he => hstar after (he ▸ rfl)
        exact absurd ⟨hstart, halts_cons.1 hname, hne⟩ (not_isMark_of_condition hcondition)

theorem compound_eq_empty_iff {cs : List Char} :
    compound cs = .error .empty ↔ Halts startsCompound cs := by
  refine ⟨fun h => ?_, compound_of_halts⟩
  rcases compound_error_cases h with hinner | ⟨-, hhalts⟩
  · exact hinner.elim
  · exact hhalts

/-! ## Where an alternative ends -/

/-- The character belongs to the compound with which the text ends: it begins a condition, or goes
on with a name. -/
def Continues (before : List Char) (x : Char) : Prop :=
  ∃ y ∈ before.getLast?, Text.isBlank y = false ∧
    (IsMark x ∨ isNameChar x = true ∧ isNameChar y = true)

/-- A name at the end of the first text does not go on in the second. -/
def Apart (t rest : List Char) : Prop :=
  ∀ y ∈ t.getLast?, isNameChar y = true → Halts isNameChar rest

theorem Apart.right {t u rest : List Char} (h : Apart (t ++ u) rest) : Apart u rest := by
  intro y hy
  refine h y ?_
  rw [List.getLast?_append, Option.mem_def.1 hy]
  rfl

theorem Apart.left {t rest : List Char} (h : Apart (t ++ []) rest) : Apart t rest := by
  rwa [List.append_nil] at h

theorem Apart.halts_name {n rest : List Char} (h : Apart n rest) (hn : Name n) :
    Halts isNameChar rest :=
  h _ (List.getLast?_eq_getLast_of_ne_nil hn.1) (hn.2 _ (List.getLast_mem hn.1))

theorem condition_apart {t rest : List Char} {c : Condition} (h : IsCondition t c)
    (hr : Apart t rest) : condition (t ++ rest) = .ok (some (c, rest)) := by
  cases h with
  | @id n hn =>
    exact condition_complete (.id hn) ((Apart.right (t := ['#']) hr).halts_name hn)
  | @className n hn =>
    exact condition_complete (.className hn) ((Apart.right (t := ['.']) hr).halts_name hn)
  | hasAttribute ha hn hb =>
    simp [condition, bracket_hasAttribute ha hn hb rest, Except.map]
  | attributeEquals ha hn hb hc ht hd =>
    simp [condition, bracket_attributeEquals ha hn hb hc ht hd rest, Except.map]

theorem conditions_apart {t rest : List Char} {cs : List Condition} (h : IsConditions t cs)
    (hr : Apart t rest) (hnone : condition rest = .ok none) :
    conditions (t ++ rest) = .ok (cs, rest) := by
  induction h with
  | nil => exact conditions_nil hnone
  | @cons t r c cs h hmore ih =>
    have hfirst : Apart t (r ++ rest) := by
      cases cs with
      | nil =>
        cases hmore
        exact hr.left
      | cons d ds =>
        obtain ⟨x, s, rfl, hx⟩ := isConditions_mark hmore
        exact fun _ _ _ => halts_cons.2 hx.2.1
    rw [List.append_assoc]
    exact conditions_cons (condition_apart h hfirst) (ih hr.right)

theorem compound_apart {t rest : List Char} {c : Compound} (h : IsCompound t c)
    (hr : Apart t rest) (hnone : condition rest = .ok none) :
    compound (t ++ rest) = .ok (c, rest) := by
  cases h with
  | @universal u _ h =>
    simp [compound, subject, conditions_apart h (Apart.right (t := ['*']) hr) hnone]
  | @named n u cs hn h =>
    have hname : Halts isNameChar (u ++ rest) := by
      cases cs with
      | nil =>
        cases h
        exact hr.left.halts_name hn
      | cons d ds =>
        obtain ⟨x, s, rfl, hx⟩ := isConditions_mark h
        exact halts_cons.2 hx.2.1
    rw [List.append_assoc, compound, subject_name hn hname]
    simp [conditions_apart h hr.right hnone]
  | conditional h =>
    have hread := conditions_apart h hr hnone
    obtain ⟨x, r, rfl, hx⟩ := isConditions_mark h
    rw [List.cons_append] at hread ⊢
    rw [compound, subject_missing hx]
    simp [hread]

theorem name_concat {n : List Char} {x : Char} (hn : ∀ c ∈ n, isNameChar c = true)
    (hx : isNameChar x = true) : Name (n ++ [x]) := by
  refine ⟨by simp, fun c hc => ?_⟩
  rcases List.mem_append.1 hc with hc | hc
  · exact hn c hc
  · cases List.mem_singleton.1 hc
    exact hx

/-- The text ends with a name, which may be longer by any character of names. -/
def EndsOpen (derived : List Char → Prop) (t : List Char) : Prop :=
  ∃ y ∈ t.getLast?, isNameChar y = true ∧ ∀ x, isNameChar x = true → derived (t ++ [x])

theorem EndsOpen.prepend {derived derived' : List Char → Prop} {t : List Char}
    (h : EndsOpen derived t) (u : List Char) (hu : ∀ v, derived v → derived' (u ++ v)) :
    EndsOpen derived' (u ++ t) := by
  obtain ⟨y, hy, hname, hmore⟩ := h
  refine ⟨y, ?_, hname, fun x hx => ?_⟩
  · rw [List.getLast?_append, Option.mem_def.1 hy]
    rfl
  · rw [List.append_assoc]
    exact hu _ (hmore x hx)

theorem endsOpen_name {n : List Char} (hn : Name n) : EndsOpen Name n :=
  ⟨n.getLast hn.1, List.getLast?_eq_getLast_of_ne_nil hn.1, hn.2 _ (List.getLast_mem hn.1),
    fun _ hx => name_concat hn.2 hx⟩

/-- A condition ends with a name or with its closing bracket. -/
theorem condition_last {t : List Char} {c : Condition} (h : IsCondition t c) :
    EndsOpen (fun t => ∃ c, IsCondition t c) t ∨ t.getLast? = some ']' := by
  cases h with
  | id hn => exact .inl ((endsOpen_name hn).prepend ['#'] fun _ hv => ⟨_, .id hv⟩)
  | className hn => exact .inl ((endsOpen_name hn).prepend ['.'] fun _ hv => ⟨_, .className hv⟩)
  | hasAttribute =>
    refine .inr ?_
    rw [← List.cons_append, List.getLast?_concat]
  | attributeEquals =>
    refine .inr ?_
    simp [List.getLast?_cons, List.getLast?_append]

theorem conditions_last {t : List Char} {c : Condition} {cs : List Condition}
    (h : IsConditions t (c :: cs)) :
    EndsOpen (fun t => ∃ d ds, IsConditions t (d :: ds)) t ∨ t.getLast? = some ']' := by
  induction cs generalizing t c with
  | nil =>
    cases h with
    | @cons t r _ _ h hr =>
      cases hr
      rw [List.append_nil]
      refine (condition_last h).imp_left fun hopen => ?_
      refine hopen.prepend [] ?_
      rintro v ⟨d, hv⟩
      exact ⟨d, [], by simpa using IsConditions.cons hv .nil⟩
  | cons d ds ih =>
    cases h with
    | @cons t r _ _ h hr =>
      rcases ih hr with hopen | hclose
      · refine .inl (hopen.prepend t ?_)
        rintro v ⟨e, es, hv⟩
        exact ⟨c, e :: es, .cons h hv⟩
      · refine .inr ?_
        rw [List.getLast?_append, hclose]
        rfl

/-- A compound ends with a name, with a closing bracket or with `*`. -/
theorem compound_last {t : List Char} {c : Compound} (h : IsCompound t c) :
    EndsOpen (fun t => ∃ c, IsCompound t c) t ∨
      ∃ y ∈ t.getLast?, isNameChar y = false ∧ Text.isBlank y = false := by
  have hbracket : isNameChar ']' = false ∧ Text.isBlank ']' = false := by decide
  cases h with
  | @universal u cs h =>
    cases cs with
    | nil =>
      cases h
      exact .inr ⟨'*', rfl, by decide⟩
    | cons c cs =>
      rcases conditions_last h with hopen | hclose
      · refine .inl (hopen.prepend ['*'] ?_)
        rintro v ⟨d, ds, hv⟩
        exact ⟨_, .universal hv⟩
      · refine .inr ⟨']', ?_, hbracket⟩
        simp [List.getLast?_cons, hclose]
  | @named n u cs hn h =>
    cases cs with
    | nil =>
      cases h
      refine .inl ?_
      rw [List.append_nil]
      refine (endsOpen_name hn).prepend [] fun v hv => ⟨⟨some (String.ofList v), []⟩, ?_⟩
      simpa using IsCompound.named hv .nil
    | cons c cs =>
      rcases conditions_last h with hopen | hclose
      · refine .inl (hopen.prepend n ?_)
        rintro v ⟨d, ds, hv⟩
        exact ⟨_, .named hn hv⟩
      · refine .inr ⟨']', ?_, hbracket⟩
        simp [List.getLast?_append, hclose]
  | conditional h =>
    refine (conditions_last h).imp (fun hopen => hopen.prepend [] ?_) fun hclose =>
      ⟨']', hclose, hbracket⟩
    rintro v ⟨d, ds, hv⟩
    exact ⟨_, .conditional hv⟩

theorem not_isBlank_compound {t : List Char} {c : Compound} (h : IsCompound t c) :
    ∃ y ∈ t.getLast?, Text.isBlank y = false := by
  obtain ⟨y, hy, hname, -⟩ | ⟨y, hy, -, hblank⟩ := compound_last h
  · exact ⟨y, hy, isBlank_of_startsCompound (startsCompound_of_isNameChar hname)⟩
  · exact ⟨y, hy, hblank⟩

/-- Reading an alternative goes as far as characters belong to it. -/
theorem compound_stop {cs rest : List Char} {c : Compound} (h : compound cs = .ok (c, rest)) :
    ∃ t, IsCompound t c ∧ cs = t ++ rest ∧ ∀ x ∈ rest.head?, ¬ Continues t x := by
  obtain ⟨t, ht, rfl, hahead⟩ := compound_ahead h
  refine ⟨t, ht, rfl, fun x hx hmore => ?_⟩
  obtain ⟨after, rfl⟩ := List.head?_eq_some_iff.1 hx
  obtain ⟨y, hy, -, hmark | ⟨hxname, hyname⟩⟩ := hmore
  · exact not_isMark_of_condition (compound_rest h) hmark
  · obtain ⟨z, hz, -, hlonger⟩ | ⟨z, hz, hzname, -⟩ := compound_last ht
    · -- With one more character of the name, all of the text is a compound.
      obtain ⟨d, hd⟩ := hlonger x hxname
      have hread := compound_complete hd (halts_nil _)
      rw [List.append_nil, hahead [x] rfl] at hread
      cases hread
    · cases hy.symm.trans hz
      rw [hyname] at hzname
      cases hzname

theorem compound_of_stop {t rest : List Char} {c : Compound} (h : IsCompound t c)
    (hrest : ∀ x ∈ rest.head?, ¬ Continues t x) : compound (t ++ rest) = .ok (c, rest) := by
  obtain ⟨y, hy, hblank⟩ := not_isBlank_compound h
  refine compound_apart h ?_ (condition_of_not_isMark fun x hx hmark => ?_)
  · intro z hz hname x hx
    cases hy.symm.trans hz
    cases hxname : isNameChar x with
    | false => rfl
    | true => exact absurd ⟨y, hy, hblank, .inr ⟨hxname, hname⟩⟩ (hrest x hx)
  · exact hrest x hx ⟨y, hy, hblank, .inl hmark⟩

end StructureLint.Selector
