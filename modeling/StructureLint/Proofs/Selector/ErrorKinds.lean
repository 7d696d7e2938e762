import StructureLint.Proofs.Selector.Composition
import StructureLint.Proofs.Selector.Extent
/-!
# Which error a place in the text has

Reading a list stops in an alternative that is refused, or behind one, at a character that is no
comma (`Stops`, `list_eq_error_iff`). The place decides which error it is. A text is called empty
wherever an alternative should begin and no character for it is there, whatever stands there
instead, a combinator as well. A combinator is found only behind an alternative: at a mark such as
`>`, and wherever something begins a compound that cannot belong to the one before it, with blanks
between the two or without (`error_kinds`).
-/

namespace StructureLint.Selector

open Grammar

/-! ## Where a list stops -/

/-- After this text an alternative should begin: it is blank, but for alternatives and a comma that
may come first. -/
inductive BeforeItem : List Char → Prop
  | first {a : List Char} (ha : Blanks a) : BeforeItem a
  | next {t a : List Char} {found : List Compound} (ht : IsList t found) (ha : Blanks a) :
      BeforeItem (t ++ ',' :: a)

/-- Where reading a list stops, and with which fault: in an alternative that is refused, or behind
one, at a character that neither belongs to it nor is a comma. -/
inductive Stops : List Char → Fault → Prop
  | within {before after : List Char} {f : Fault} (hbefore : BeforeItem before)
      (hblank : Halts Text.isBlank after) (hfault : compound after = .error f) :
      Stops (before ++ after) f
  | behind {before after : List Char} {found : List Compound} {x : Char}
      (hbefore : IsList before found) (hmore : ¬ Continues before x)
      (hblank : Text.isBlank x = false) (hcomma : x ≠ ',') :
      Stops (before ++ x :: after) (misplaced x after)

theorem isList_ne_nil {t : List Char} {found : List Compound} (h : IsList t found) : t ≠ [] := by
  cases h with
  | last _ h _ =>
    obtain ⟨x, r, rfl, -⟩ := isCompound_start h
    simp
  | cons => simp

theorem continues_append {u t : List Char} (ht : t ≠ []) {x : Char} :
    Continues (u ++ t) x ↔ Continues t x := by
  have hlast := List.getLast?_eq_getLast_of_ne_nil ht
  unfold Continues
  rw [List.getLast?_append, hlast]
  rfl

/-- After blanks no character belongs to what is before them. -/
theorem continues_blanks {t b : List Char} (hb : Blanks b) {x : Char} (h : Continues (t ++ b) x) :
    b = [] := by
  rcases List.eq_nil_or_concat b with hnil | ⟨b₀, y, rfl⟩
  · exact hnil
  · obtain ⟨z, hz, hblank, -⟩ := h
    rw [List.concat_eq_append, ← List.append_assoc, List.getLast?_concat] at hz
    cases hz
    rw [hb y (by simp)] at hblank
    cases hblank

theorem Stops.prepend {t cs : List Char} {found : List Compound} {f : Fault} (h : Stops cs f)
    (ht : IsList t found) : Stops (t ++ ',' :: cs) f := by
  cases h with
  | @within before after _ hbefore hblank hfault =>
    rw [← List.cons_append, ← List.append_assoc]
    refine .within ?_ hblank hfault
    cases hbefore with
    | first ha => exact .next ht ha
    | next hu ha =>
      rw [← List.cons_append, ← List.append_assoc]
      exact .next (isList_append ht hu) ha
  | @behind before after found' x hbefore hmore hblank hcomma =>
    rw [← List.cons_append, ← List.append_assoc]
    refine .behind (isList_append ht hbefore) ?_ hblank hcomma
    rwa [← List.singleton_append, ← List.append_assoc, continues_append (isList_ne_nil hbefore)]

theorem stops_of_list {cs : List Char} {f : Fault} (h : list cs = .error f) : Stops cs f := by
  fun_induction list cs generalizing f with
  | case1 cs f' hc =>
    cases h
    obtain ⟨a, ha, hcs⟩ := blanks_skipped cs
    rw [hcs]
    exact .within (.first ha) (halts_skipBlanks cs) hc
  | case2 => cases h
  | case3 cs c rest hc rest' hb _ f' _ ih =>
    cases h
    obtain ⟨a, t, b, ha, ht, hb', hcs, -⟩ := alternative_ahead hc
    rw [hcs, hb]
    exact (ih ‹_›).prepend (.last ha ht hb')
  | case4 => cases h
  | case5 cs c rest hc x rest' hcomma hb =>
    cases h
    obtain ⟨a, ha, hcs⟩ := blanks_skipped cs
    obtain ⟨t, ht, htr, hstop⟩ := compound_stop hc
    obtain ⟨b, hb', hbr⟩ := blanks_skipped rest
    have hblank : Text.isBlank x = false := halts_cons.1 (hb ▸ halts_skipBlanks rest)
    have hmore : ¬ Continues (a ++ t ++ b) x := by
      intro h
      cases continues_blanks hb' h
      obtain ⟨y, hy, -⟩ := not_isBlank_compound ht
      rw [List.append_nil, continues_append (by rintro rfl; cases hy)] at h
      exact hstop x (by rw [hbr, hb]; rfl) h
    rw [hcs, htr, hbr, hb]
    simpa using Stops.behind (.last ha ht hb') hmore hblank hcomma

theorem list_of_isList_error {t cs : List Char} {found : List Compound} {f : Fault}
    (ht : IsList t found) (h : list cs = .error f) : list (t ++ ',' :: cs) = .error f := by
  have hcomma : Halts startsCompound (',' :: cs) := halts_cons.2 (by decide)
  have hstart : ∀ {b : List Char}, Blanks b → ∀ rest : List Char,
      Halts startsCompound (b ++ ',' :: rest) := fun hb rest =>
    halts_blanks (fun _ => startsCompound_of_isBlank) hb (halts_cons.2 (by decide))
  induction ht with
  | @last a t b c ha ht hb =>
    rw [List.append_assoc, List.append_assoc]
    have hcompound :
        compound (Text.skipBlanks (a ++ (t ++ (b ++ ',' :: cs)))) = .ok (c, b ++ ',' :: cs) := by
      rw [skipBlanks_append ha (halts_blank_compound ht), compound_complete ht (hstart hb cs)]
    exact list_of_more_error hcompound (skipBlanks_append hb (halts_cons.2 (by decide))) h
  | @cons a t b r c more ha ht hb _ ih =>
    rw [List.append_assoc, List.append_assoc, List.append_assoc, List.cons_append]
    have hcompound : compound (Text.skipBlanks (a ++ (t ++ (b ++ ',' :: (r ++ ',' :: cs))))) =
        .ok (c, b ++ ',' :: (r ++ ',' :: cs)) := by
      rw [skipBlanks_append ha (halts_blank_compound ht), compound_complete ht (hstart hb _)]
    exact list_of_more_error hcompound (skipBlanks_append hb (halts_cons.2 (by decide))) ih

theorem list_of_behind {before after : List Char} {found : List Compound} {x : Char}
    (hbefore : IsList before found) (hmore : ¬ Continues before x)
    (hblank : Text.isBlank x = false) (hcomma : x ≠ ',') :
    list (before ++ x :: after) = .error (misplaced x after) := by
  induction hbefore with
  | @last a t b c ha ht hb =>
    rw [List.append_assoc, List.append_assoc]
    have hstop : ∀ y ∈ (b ++ x :: after).head?, ¬ Continues t y := by
      intro y hy h
      cases b with
      | nil =>
        cases hy
        obtain ⟨z, r, rfl, -⟩ := isCompound_start ht
        rw [List.append_nil, continues_append (by simp)] at hmore
        exact hmore h
      | cons z b =>
        cases hy
        -- A blank belongs to no compound.
        obtain ⟨w, hw, hwblank, hmark | ⟨hname, -⟩⟩ := h
        · have hstart := hmark.1
          rw [startsCompound_of_isBlank (hb y (by simp))] at hstart
          cases hstart
        · rw [isNameChar_of_isBlank (hb y (by simp))] at hname
          cases hname
    have hcompound : compound (Text.skipBlanks (a ++ (t ++ (b ++ x :: after)))) =
        .ok (c, b ++ x :: after) := by
      rw [skipBlanks_append ha (halts_blank_compound ht)]
      exact compound_of_stop ht hstop
    exact list_of_misplaced hcompound (skipBlanks_append hb (halts_cons.2 hblank)) hcomma
  | @cons a t b r c more ha ht hb hr ih =>
    rw [List.append_assoc, List.append_assoc, List.append_assoc, List.cons_append]
    have hcompound : compound (Text.skipBlanks (a ++ (t ++ (b ++ ',' :: (r ++ x :: after))))) =
        .ok (c, b ++ ',' :: (r ++ x :: after)) := by
      rw [skipBlanks_append ha (halts_blank_compound ht)]
      exact compound_complete ht
        (halts_blanks (fun _ => startsCompound_of_isBlank) hb (halts_cons.2 (by decide)))
    refine list_of_more_error hcompound (skipBlanks_append hb (halts_cons.2 (by decide))) (ih ?_)
    rwa [← List.singleton_append, ← List.append_assoc, continues_append (isList_ne_nil hr)] at hmore

theorem list_eq_error_iff {cs : List Char} {f : Fault} : list cs = .error f ↔ Stops cs f := by
  refine ⟨stops_of_list, fun h => ?_⟩
  cases h with
  | @within before after _ hbefore hblank hfault =>
    have hitem : ∀ {a : List Char}, Blanks a → list (a ++ after) = .error f := fun ha =>
      list_of_error (by rwa [skipBlanks_append ha hblank])
    cases hbefore with
    | first ha => exact hitem ha
    | next ht ha =>
      rw [List.append_assoc, List.cons_append]
      exact list_of_isList_error ht (hitem ha)
  | behind hbefore hmore hblank hcomma => exact list_of_behind hbefore hmore hblank hcomma

theorem list_eq_empty_iff {cs : List Char} :
    list cs = .error .empty ↔ ∃ before after, cs = before ++ after ∧ BeforeItem before ∧
      ∀ x ∈ after.head?, Text.isBlank x = false ∧ startsCompound x = false := by
  rw [list_eq_error_iff]
  constructor
  · intro h
    generalize hf : Fault.empty = f at h
    cases h with
    | @within before after _ hbefore hblank hfault =>
      subst hf
      have hstart := compound_eq_empty_iff.1 hfault
      exact ⟨before, after, rfl, hbefore, fun x hx => ⟨hblank x hx, hstart x hx⟩⟩
    | behind =>
      unfold misplaced at hf
      split at hf <;> cases hf
  · rintro ⟨before, after, rfl, hbefore, hafter⟩
    exact .within hbefore (fun x hx => (hafter x hx).1)
      (compound_of_halts fun x hx => (hafter x hx).2)

theorem list_eq_combinator_iff {cs rest : List Char} :
    list cs = .error (.combinator rest) ↔ ∃ before x after found, cs = before ++ x :: after ∧
      rest = x :: after ∧ IsList before found ∧ ¬ Continues before x ∧
        (isCombinator x = true ∨ startsCompound x = true) := by
  rw [list_eq_error_iff]
  constructor
  · intro h
    generalize hf : Fault.combinator rest = f at h
    cases h with
    | within _ _ hfault =>
      subst hf
      rcases compound_error_cases hfault with hinner | ⟨hempty, -⟩
      · exact hinner.elim
      · cases hempty
    | @behind before after found x hbefore hmore hblank hcomma =>
      unfold misplaced at hf
      split at hf
      · rename_i hkind
        cases hf
        exact ⟨before, x, after, found, rfl, rfl, hbefore, hmore, by simpa using hkind⟩
      · cases hf
  · rintro ⟨before, x, after, found, rfl, rfl, hbefore, hmore, hkind⟩
    have hblank : Text.isBlank x = false := by
      rcases hkind with hx | hx
      · simp only [isCombinator, Bool.or_eq_true, beq_iff_eq] at hx
        rcases hx with (rfl | rfl) | rfl <;> decide
      · exact isBlank_of_startsCompound hx
    have hcomma : x ≠ ',' := by
      rintro rfl
      revert hkind
      decide
    have hstops : Stops (before ++ x :: after) (misplaced x after) :=
      .behind hbefore hmore hblank hcomma
    rwa [misplaced, if_pos (by simpa using hkind)] at hstops

/-- What begins a compound, but does not belong to the one before it, follows a blank or is `*` or
a name, and no name ends right before it. -/
theorem not_continues_iff {before : List Char} (hne : before ≠ []) {x : Char} :
    ¬ Continues before x ∧ (isCombinator x = true ∨ startsCompound x = true) ↔
      isCombinator x = true ∨ startsCompound x = true ∧ ∃ front y, before = front ++ [y] ∧
        (Text.isBlank y = true ∨ x = '*' ∨ isNameChar x = true ∧ isNameChar y = false) := by
  obtain ⟨front, y, rfl⟩ : ∃ front y, before = front ++ [y] :=
    ⟨_, _, (List.dropLast_append_getLast hne).symm⟩
  have hcontinues : Continues (front ++ [y]) x ↔ Text.isBlank y = false ∧
      (IsMark x ∨ isNameChar x = true ∧ isNameChar y = true) := by
    simp [Continues]
  have hcombinator : isCombinator x = true → startsCompound x = false ∧ isNameChar x = false := by
    intro hx
    simp only [isCombinator, Bool.or_eq_true, beq_iff_eq] at hx
    rcases hx with (rfl | rfl) | rfl <;> decide
  have hstar : x = '*' → isNameChar x = false := by
    rintro rfl
    decide
  have hlast : ∀ {P : Char → Prop}, (∃ front' y', front ++ [y] = front' ++ [y'] ∧ P y') ↔ P y := by
    intro P
    constructor
    · rintro ⟨front', y', hsplit, hy⟩
      rwa [(List.append_inj' hsplit rfl).2 |> List.cons.inj |>.1]
    · exact fun hy => ⟨front, y, rfl, hy⟩
  rw [hcontinues, hlast, IsMark]
  grind

/-! ## Errors -/

/-- After this text an alternative should begin: there is nothing but blanks, or a selector, a
comma and blanks. -/
def ExpectsItem (before : String) : Prop :=
  ∃ front blanks, before = front ++ blanks ∧ Blanks blanks.toList ∧
    (front = "" ∨ ∃ t s, front = t ++ "," ∧ parse t = .ok s)

theorem expectsItem_iff {before : String} : ExpectsItem before ↔ BeforeItem before.toList := by
  constructor
  · rintro ⟨front, blanks, rfl, hblanks, rfl | ⟨t, s, rfl, ht⟩⟩
    · simpa using BeforeItem.first hblanks
    · simpa using BeforeItem.next (of_parse_eq_ok ht).1 hblanks
  · intro h
    generalize hcs : before.toList = cs at h
    cases h with
    | first ha => exact ⟨"", before, by simp, hcs ▸ ha, .inl rfl⟩
    | @next t a found ht ha =>
      refine ⟨String.ofList t ++ ",", String.ofList a, ?_, by simpa using ha,
        .inr ⟨_, _, rfl, parse_of_isList (by simpa using ht)⟩⟩
      rw [← String.toList_inj, hcs]
      simp

theorem locate_eq_empty_iff {source text : String} {f : Fault} :
    f.locate source = .empty text ↔ f = .empty ∧ text = source := by
  cases f <;> simp [Fault.locate, eq_comm]

theorem locate_eq_combinator_iff {source text : String} {f : Fault} {position : Nat} :
    f.locate source = .unsupportedCombinator text position ↔
      text = source ∧ ∃ rest, f = .combinator rest ∧
        position = byteLength source.toList - byteLength rest := by
  cases f <;> simp [Fault.locate, eq_comm]

/-- A text is refused as empty just where an alternative should begin and nothing begins one. It is
refused for a combinator just at a character behind a selector that is the mark of one or begins a
compound of its own. -/
theorem error_kinds (source : String) :
    (∀ text, parse source = .error (.empty text) ↔ text = source ∧
      ∃ before after, source = before ++ after ∧ ExpectsItem before ∧
        ∀ x ∈ after.toList.head?, Text.isBlank x = false ∧ startsCompound x = false) ∧
    (∀ text position, parse source = .error (.unsupportedCombinator text position) ↔
      text = source ∧ ∃ before x after, source = before ++ String.singleton x ++ after ∧
        position = before.utf8ByteSize ∧ (∃ s, parse before = .ok s) ∧
        (x ∈ ['>', '+', '~'] ∨ startsCompound x = true ∧ ∃ front y,
          before = front ++ String.singleton y ∧ (Text.isBlank y = true ∨ x = '*' ∨
            isNameChar x = true ∧ isNameChar y = false))) := by
  have hmark : ∀ x, x ∈ ['>', '+', '~'] ↔ isCombinator x = true := by
    intro x
    simp [isCombinator, or_assoc]
  refine ⟨fun text => ?_, fun text position => ?_⟩
  · simp only [parse_eq_error_iff, locate_eq_empty_iff]
    constructor
    · rintro ⟨_, h, rfl, rfl⟩
      obtain ⟨before, after, hcs, hbefore, hafter⟩ := list_eq_empty_iff.1 h
      refine ⟨rfl, String.ofList before, String.ofList after, ?_, ?_, by simpa using hafter⟩
      · rw [← String.toList_inj, hcs]
        simp
      · simpa [expectsItem_iff] using hbefore
    · rintro ⟨rfl, before, after, rfl, hbefore, hafter⟩
      exact ⟨_, list_eq_empty_iff.2 ⟨before.toList, after.toList, by simp,
        expectsItem_iff.1 hbefore, hafter⟩, rfl, rfl⟩
  · simp only [parse_eq_error_iff, locate_eq_combinator_iff, hmark]
    constructor
    · rintro ⟨_, h, rfl, rest, rfl, hposition⟩
      obtain ⟨before, x, after, found, hcs, rfl, hbefore, hkind⟩ := list_eq_combinator_iff.1 h
      refine ⟨rfl, String.ofList before, x, String.ofList after, eq_of_toList_eq hcs, ?_,
        ⟨_, parse_of_isList (by simpa using hbefore)⟩, ?_⟩
      · rw [hposition, hcs, byteLength_append_sub]
      · refine ((not_continues_iff (isList_ne_nil hbefore)).1 hkind).imp_right ?_
        rintro ⟨hstart, front, y, rfl, hy⟩
        refine ⟨hstart, String.ofList front, y, ?_, hy⟩
        rw [← String.toList_inj]
        simp
    · rintro ⟨rfl, before, x, after, rfl, rfl, ⟨s, hs⟩, hkind⟩
      have hbefore := (of_parse_eq_ok hs).1
      refine ⟨.combinator (x :: after.toList), list_eq_combinator_iff.2 ⟨before.toList, x,
        after.toList, s.alternatives, by simp, rfl, hbefore, ?_⟩, rfl, _, rfl, ?_⟩
      · refine (not_continues_iff (isList_ne_nil hbefore)).2 (hkind.imp_right ?_)
        rintro ⟨hstart, front, y, rfl, hy⟩
        exact ⟨hstart, front.toList, y, by simp, hy⟩
      · have hsplit : (before ++ String.singleton x ++ after).toList =
            before.toList ++ x :: after.toList := by simp
        rw [hsplit, byteLength_append_sub, String.ofList_toList]

/-- A combinator without an alternative before it, and a name that goes on from `*` and one that
does not. -/
theorem error_kinds_samples :
    parse "a ,> b" = .error (.empty "a ,> b") ∧
      parse "* a" = .error (.unsupportedCombinator "* a" 2) ∧
      parse "*é" = .error (.unsupportedCombinator "*é" 1) ∧
      ∃ s, parse "aé" = .ok s ∧ ∀ text position,
        parse "aé" ≠ .error (.unsupportedCombinator text position) := by
  have hletter : parse "a " = .ok ⟨"a", [⟨some "a", []⟩]⟩ := by decide +kernel
  have hstar : parse "*" = .ok ⟨"*", [⟨none, []⟩]⟩ := by decide +kernel
  have hspace : parse "* " = .ok ⟨"*", [⟨none, []⟩]⟩ := by decide +kernel
  have hlong : parse "aé" = .ok ⟨"aé", [⟨some "aé", []⟩]⟩ := by decide +kernel
  refine ⟨?_, ?_, ?_, _, hlong, fun text position h => by cases hlong.symm.trans h⟩
  · refine ((error_kinds "a ,> b").1 _).2 ⟨rfl, "a ,", "> b", rfl,
      ⟨"a ,", "", rfl, by simp [Blanks], .inr ⟨"a ", _, rfl, hletter⟩⟩, ?_⟩
    rintro x ⟨⟩
    decide
  · exact ((error_kinds "* a").2 _ _).2 ⟨rfl, "* ", 'a', "", rfl, rfl, ⟨_, hspace⟩,
      .inr ⟨by decide, "*", ' ', rfl, .inl (by decide)⟩⟩
  · exact ((error_kinds "*é").2 _ _).2 ⟨rfl, "*", 'é', "", rfl, rfl, ⟨_, hstar⟩,
      .inr ⟨by decide, "", '*', rfl, .inr (.inr (by decide))⟩⟩

/-- Not every text refused as empty lacks an alternative between commas: it may begin with a
combinator or a stray character. And what is taken for a combinator need not be a mark, nor stand
behind a blank. -/
theorem error_kinds_blurred :
    (parse "> a" = .error (.empty "> a") ∧ ¬ ∃ before after, "> a" = before ++ after ∧
      ExpectsItem before ∧ (after = "" ∨ after.toList.head? = some ',')) ∧
    parse "> a" ≠ .error (.unsupportedCombinator "> a" 0) ∧
    (ExpectsItem "a, " ∧ parse "a, !" ≠ .error (.unexpected "a, !" '!' 3)) ∧
    parse "*a" = .error (.unsupportedCombinator "*a" 1) ∧
      ¬ ∃ before x after, "*a" = before ++ String.singleton x ++ after ∧ before.utf8ByteSize = 1 ∧
        (x ∈ ['>', '+', '~'] ∨ ∃ front y, before = front ++ String.singleton y ∧
          Text.isBlank y = true) := by
  have hmark : parse "> a" = .error (.empty "> a") := by decide +kernel
  have hstray : parse "a, !" = .error (.empty "a, !") := by decide +kernel
  have hletter : parse "a" = .ok ⟨"a", [⟨some "a", []⟩]⟩ := by decide +kernel
  refine ⟨⟨hmark, ?_⟩, ?_, ⟨?_, ?_⟩, by decide +kernel, ?_⟩
  · rintro ⟨before, after, hsource, hexpects, hafter⟩
    have hchars : ['>', ' ', 'a'] = before.toList ++ after.toList := by
      simpa using congrArg String.toList hsource
    obtain ⟨front, blanks, rfl, hblanks, rfl | ⟨t, s, rfl, -⟩⟩ := hexpects
    · cases hb : blanks.toList with
      | nil =>
        rw [String.toList_append, hb] at hchars
        rcases hafter with rfl | hafter
        · cases hchars
        · rw [show after.toList = ['>', ' ', 'a'] from hchars.symm] at hafter
          cases hafter
      | cons x xs =>
        rw [String.toList_append, hb] at hchars
        have hx : '>' = x := (List.cons.inj hchars).1
        exact absurd (hblanks x (by simp [hb])) (by rw [← hx]; decide)
    · have hcomma : ',' ∈ ['>', ' ', 'a'] := by
        rw [hchars]
        simp
      exact absurd hcomma (by decide)
  · rw [hmark]
    simp
  · exact ⟨"a,", " ", rfl, by simp [Blanks]; decide, .inr ⟨"a", _, rfl, hletter⟩⟩
  · rw [hstray]
    simp
  · rintro ⟨before, x, after, hsource, hsize, hkind⟩
    have hchars : ['*', 'a'] = before.toList ++ x :: after.toList := by
      simpa using congrArg String.toList hsource
    -- One byte before the character is the first character of the two.
    have hbefore : before.toList = ['*'] := by
      cases hb : before.toList with
      | nil =>
        rw [String.toList_eq_nil_iff.1 hb] at hsize
        cases hsize
      | cons c cs =>
        rw [hb] at hchars
        have hlength := congrArg List.length hchars
        simp only [List.length_cons, List.length_append, List.length_nil] at hlength
        have hcs : cs = [] := List.length_eq_zero_iff.1 (by omega)
        rw [hcs, (List.cons.inj hchars).1]
    rw [hbefore] at hchars
    have hx : 'a' = x := (List.cons.inj (List.cons.inj hchars).2).1
    rcases hkind with hkind | ⟨front, y, rfl, hblank⟩
    · exact absurd hkind (by rw [← hx]; decide)
    · have hy : '*' = y := by
        have hlast := congrArg List.getLast? hbefore
        simpa using hlast.symm
      rw [← hy] at hblank
      revert hblank
      decide

end StructureLint.Selector
