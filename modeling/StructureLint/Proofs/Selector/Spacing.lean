import StructureLint.Proofs.Selector.ErrorKinds
import StructureLint.Proofs.Selector.LetterCase
/-!
# Blanks that say nothing

Blanks may stand at either end of a selector, beside a comma between two alternatives, and inside
square brackets except within a name or a quoted value: there is a `Seam`. `Spaced` relates a text
to one that has more blanks at its seams, while both are read from the left. Each part of the
grammar is followed through such a pair of texts; what it says stays the same, and blanks in front
of it become part of those that the grammar allows there (`isList_spaced`).

The text that a selector keeps has lost blanks at its ends only, which belong to no alternative
(`isList_trimmed`). So it is read as the same selector.
-/

namespace StructureLint.Selector

open Grammar

/-! ## Seams -/

/-- The place behind the front of a selector. -/
def placeAfter (x : List Char) : Place :=
  x.foldl Place.after .outside

/-- Between the front of a selector and the rest of it, blanks say nothing. -/
def Seam (x s : List Char) : Prop :=
  match placeAfter x with
  | .outside | .marked => x = [] ∨ s = [] ∨ x.getLast? = some ',' ∨ s.head? = some ','
  | .bracketed => ¬ ∃ c ∈ x.getLast?, ∃ d ∈ s.head?, isNameChar c = true ∧ isNameChar d = true
  | .quoted _ => False

/-- The second text is the first with some blanks put in at one seam. -/
def Inserted (source source' : String) : Prop :=
  ∃ x s w, source.toList = x ++ s ∧ Seam x s ∧ Blanks w ∧ source'.toList = x ++ (w ++ s)

/-- Behind the front `x`, the second text is the first with more blanks at the seams. -/
inductive Spaced : List Char → List Char → List Char → Prop
  | nil (x : List Char) : Spaced x [] []
  | same {x s t : List Char} {c : Char} (h : Spaced (x ++ [c]) s t) : Spaced x (c :: s) (c :: t)
  | blank {x s t : List Char} {b : Char} (hx : Seam x s) (hb : Text.isBlank b = true)
      (h : Spaced x s t) : Spaced x s (b :: t)

variable {x s t : List Char} {c d : Char}

theorem placeAfter_concat (x : List Char) (c : Char) :
    placeAfter (x ++ [c]) = (placeAfter x).after c := by
  simp [placeAfter]

/-- A run of characters that do not change the place. -/
theorem placeAfter_run {p : Place} {w : List Char} (hx : placeAfter x = p)
    (hw : ∀ c ∈ w, p.after c = p) : placeAfter (x ++ w) = p := by
  induction w generalizing x with
  | nil => simpa using hx
  | cons c w ih =>
    rw [List.append_cons]
    refine ih ?_ fun d hd => hw d (by simp [hd])
    rw [placeAfter_concat, hx, hw c (by simp)]

theorem Spaced.refl (x s : List Char) : Spaced x s s := by
  induction s generalizing x with
  | nil => exact .nil x
  | cons c s ih => exact .same (ih _)

theorem spaced_insert {w : List Char} (hx : Seam (x ++ s) t) (hw : Blanks w) :
    Spaced x (s ++ t) (s ++ (w ++ t)) := by
  induction s generalizing x with
  | nil =>
    rw [List.append_nil] at hx
    induction w with
    | nil => exact .refl x t
    | cons b w ih => exact .blank hx (hw b (by simp)) (ih fun d hd => hw d (by simp [hd]))
  | cons c s ih => exact .same (ih (by simpa using hx))

/-! ## One character after another -/

theorem blanks_cons {b : Char} {w : List Char} (hb : Text.isBlank b = true) (hw : Blanks w) :
    Blanks (b :: w) := by
  simpa [Blanks, hb] using hw

theorem blanks_append {a b : List Char} (ha : Blanks a) (hb : Blanks b) : Blanks (a ++ b) :=
  fun c hc => (List.mem_append.1 hc).elim (ha c) (hb c)

theorem Spaced.blanks_of_nil (h : Spaced x [] t) : Blanks t := by
  generalize hs : ([] : List Char) = s at h
  induction h with
  | nil => exact blanks_nil
  | same => cases hs
  | blank _ hb _ ih => exact blanks_cons hb (ih hs)

/-- The next character comes, behind blanks if there is a seam before it. -/
theorem Spaced.cons (h : Spaced x (c :: s) t) :
    ∃ w t', t = w ++ c :: t' ∧ Blanks w ∧ (w = [] ∨ Seam x (c :: s)) ∧ Spaced (x ++ [c]) s t' := by
  generalize hs : c :: s = u at h
  induction h with
  | nil => cases hs
  | same h =>
    cases hs
    exact ⟨[], _, rfl, blanks_nil, .inl rfl, h⟩
  | blank hx hb _ ih =>
    subst hs
    obtain ⟨w, t', rfl, hw, -, h'⟩ := ih rfl
    exact ⟨_ :: w, t', rfl, blanks_cons hb hw, .inr hx, h'⟩

theorem Spaced.cons_of_not_seam (h : Spaced x (c :: s) t) (hx : ¬ Seam x (c :: s)) :
    ∃ t', t = c :: t' ∧ Spaced (x ++ [c]) s t' := by
  obtain ⟨w, t', rfl, -, hw, h'⟩ := h.cons
  cases hw.resolve_right hx
  exact ⟨t', rfl, h'⟩

/-- Blanks stay blanks, wherever they stand. -/
theorem Spaced.blanks {a : List Char} (ha : Blanks a) (h : Spaced x (a ++ s) t) :
    ∃ a' t', t = a' ++ t' ∧ Blanks a' ∧ Spaced (x ++ a) s t' := by
  induction a generalizing x t with
  | nil => exact ⟨[], t, rfl, ha, by simpa using h⟩
  | cons b a ih =>
    obtain ⟨w, t₁, rfl, hw, -, h₁⟩ := h.cons
    obtain ⟨a', t', rfl, ha', h'⟩ := ih (fun c hc => ha c (by simp [hc])) h₁
    exact ⟨w ++ b :: a', t', by simp, blanks_append hw (blanks_cons (ha b (by simp)) ha'),
      by simpa using h'⟩

/-- Text without a seam stays as it is. -/
theorem Spaced.kept {w : List Char} (h : Spaced x (w ++ s) t)
    (hw : ∀ u d v, w = u ++ d :: v → ¬ Seam (x ++ u) (d :: (v ++ s))) :
    ∃ t', t = w ++ t' ∧ Spaced (x ++ w) s t' := by
  induction w generalizing x t with
  | nil => exact ⟨t, rfl, by simpa using h⟩
  | cons d w ih =>
    obtain ⟨t₁, rfl, h₁⟩ := h.cons_of_not_seam (by simpa using hw [] d w rfl)
    obtain ⟨t', rfl, h'⟩ := ih h₁ fun u e v hu => by simpa using hw (d :: u) e v (by simp [hu])
    exact ⟨t', rfl, by simpa using h'⟩

/-! ## Inside brackets -/

/-- Inside brackets the text stays together, with more blanks at most in front of it, and it leads
to no other place. -/
def Token (u : List Char) : Prop :=
  ∀ x s t, placeAfter x = .bracketed → Spaced x (u ++ s) t →
    placeAfter (x ++ u) = .bracketed ∧
      ∃ w t', t = w ++ (u ++ t') ∧ Blanks w ∧ Spaced (x ++ u) s t'

theorem placeAfter_brackets {w : List Char} (hx : placeAfter x = .bracketed)
    (hw : ∀ c ∈ w, Text.isBlank c = true ∨ isNameChar c = true) :
    placeAfter (x ++ w) = .bracketed :=
  placeAfter_run hx fun c hc => after_bracketed (hw c hc)

theorem token_name {n : List Char} (hn : ∀ c ∈ n, isNameChar c = true) : Token n := by
  intro x s t hx h
  refine ⟨placeAfter_brackets hx fun c hc => .inr (hn c hc), ?_⟩
  cases n with
  | nil => exact ⟨[], t, rfl, blanks_nil, by simpa using h⟩
  | cons c n =>
    obtain ⟨w, t₁, rfl, hw, -, h₁⟩ := h.cons
    -- From the second character on there is one of a name on either side.
    obtain ⟨t', rfl, h'⟩ := h₁.kept fun u d v hu hseam => by
      have hmem : ∀ e ∈ c :: u, isNameChar e = true := fun e he =>
        hn e (by rw [hu, ← List.cons_append]; exact List.mem_append_left _ he)
      have hplace : placeAfter (x ++ [c] ++ u) = .bracketed := by
        simpa using placeAfter_brackets hx fun e he => .inr (hmem e he)
      have hlast : (x ++ [c] ++ u).getLast? = some ((c :: u).getLast (by simp)) := by
        rw [← List.append_cons, List.getLast?_append, List.getLast?_eq_getLast_of_ne_nil (by simp)]
        rfl
      rw [Seam, hplace] at hseam
      exact hseam ⟨_, hlast, d, rfl, hmem _ (List.getLast_mem _), hn d (by simp [hu])⟩
    exact ⟨w, t', by simp, hw, by simpa using h'⟩

theorem token_quoted {mark : Char} {v : List Char} (hm : mark = '"' ∨ mark = '\'')
    (hv : mark ∉ v) : Token (mark :: (v ++ [mark])) := by
  intro x s t hx h
  have hopen : placeAfter (x ++ [mark]) = .quoted mark := by
    rw [placeAfter_concat, hx]
    rcases hm with rfl | rfl <;> rfl
  have hquoted : ∀ u, mark ∉ u → placeAfter (x ++ [mark] ++ u) = .quoted mark := fun u hu =>
    placeAfter_run hopen fun c hc => if_neg (ne_of_mem_of_not_mem hc hu)
  have hclose : placeAfter (x ++ [mark] ++ v ++ [mark]) = .bracketed := by
    rw [placeAfter_concat, hquoted v hv]
    simp [Place.after]
  -- Between the quotation marks there is no seam, and none before the closing one.
  have hno : ∀ u r, mark ∉ u → ¬ Seam (x ++ [mark] ++ u) r := fun u r hu hseam => by
    rwa [Seam, hquoted u hu] at hseam
  obtain ⟨w, t₁, rfl, hw, -, h₁⟩ := h.cons
  obtain ⟨t₂, rfl, h₂⟩ := Spaced.kept (w := v) (by simpa using h₁) fun u d r hu =>
    hno u _ fun hmem => hv (by simp [hu, hmem])
  obtain ⟨t', rfl, h'⟩ := h₂.cons_of_not_seam (hno v _ hv)
  exact ⟨by simpa using hclose, w, t', by simp, hw, by simpa using h'⟩

theorem token_value {u : List Char} {v : String} (hv : Value u v) : Token u := by
  cases hv with
  | double hv => exact token_quoted (.inl rfl) hv
  | single hv => exact token_quoted (.inr rfl) hv
  | plain hv => exact token_name hv

/-- A token with blanks around it, and the character that follows. -/
theorem Token.padded {a u b : List Char} (hu : Token u) (ha : Blanks a) (hb : Blanks b)
    (hx : placeAfter x = .bracketed) (h : Spaced x (a ++ u ++ b ++ c :: s) t) :
    placeAfter (x ++ (a ++ u ++ b)) = .bracketed ∧
      ∃ a' b' t', t = a' ++ u ++ b' ++ c :: t' ∧ Blanks a' ∧ Blanks b' ∧
        Spaced (x ++ (a ++ u ++ b) ++ [c]) s t' := by
  obtain ⟨a', t₁, rfl, ha', h₁⟩ := Spaced.blanks ha (by simpa using h)
  obtain ⟨hplace, w, t₂, rfl, hw, h₂⟩ :=
    hu _ _ _ (placeAfter_brackets hx fun e he => .inl (ha e he)) h₁
  obtain ⟨b', t₃, rfl, hb', h₃⟩ := h₂.blanks hb
  obtain ⟨w', t', rfl, hw', -, h'⟩ := h₃.cons
  refine ⟨?_, a' ++ w, b' ++ w', t', by simp, blanks_append ha' hw, blanks_append hb' hw', ?_⟩
  · simpa using placeAfter_brackets hplace fun e he => .inl (hb e he)
  · simpa using h'

/-! ## Outside brackets -/

/-- The front ends within an alternative and outside brackets. -/
structure Inside (x : List Char) : Prop where
  place : placeAfter x = .outside ∨ placeAfter x = .marked
  last : ∃ c ∈ x.getLast?, c ≠ ','

theorem Inside.not_seam (hx : Inside x) (hc : c ≠ ',') : ¬ Seam x (c :: s) := by
  obtain ⟨d, hd, hne⟩ := hx.last
  have hnil : x ≠ [] := by rintro rfl; cases hd
  rcases hx.place with hplace | hplace <;>
    simp [Seam, hplace, hnil, Option.mem_def.1 hd, hne, hc]

theorem Inside.cons (hx : Inside x) (hc : c ≠ ',') (h : Spaced x (c :: s) t) :
    ∃ t', t = c :: t' ∧ Spaced (x ++ [c]) s t' :=
  h.cons_of_not_seam (hx.not_seam hc)

theorem inside_concat (h : placeAfter (x ++ [c]) = .outside ∨ placeAfter (x ++ [c]) = .marked)
    (hc : c ≠ ',') : Inside (x ++ [c]) :=
  ⟨h, c, by simp, hc⟩

theorem ne_comma_of_isNameChar (hc : isNameChar c = true) : c ≠ ',' := by
  rintro rfl
  exact absurd hc (by decide)

theorem Inside.after_name (hx : Inside x) (hc : isNameChar c = true) : Inside (x ++ [c]) := by
  refine inside_concat ?_ (ne_comma_of_isNameChar hc)
  rw [placeAfter_concat]
  rcases hx.place with hplace | hplace
  · exact .inl (by rw [hplace, Place.after, opened_plain (.inr hc)])
  · exact .inr (by rw [hplace, Place.after, if_pos hc])

theorem Inside.name {n : List Char} (hx : Inside x) (hn : ∀ c ∈ n, isNameChar c = true)
    (h : Spaced x (n ++ s) t) : Inside (x ++ n) ∧ ∃ t', t = n ++ t' ∧ Spaced (x ++ n) s t' := by
  induction n generalizing x t with
  | nil => exact ⟨by simpa using hx, t, rfl, by simpa using h⟩
  | cons c n ih =>
    have hc : isNameChar c = true := hn c (by simp)
    obtain ⟨t₁, rfl, h₁⟩ := hx.cons (ne_comma_of_isNameChar hc) h
    obtain ⟨hplace, t', rfl, h'⟩ := ih (hx.after_name hc) (fun d hd => hn d (by simp [hd])) h₁
    exact ⟨by simpa using hplace, t', rfl, by simpa using h'⟩

/-- The place between two parts of an alternative goes on alike after a mark. -/
theorem placeAfter_opened (hx : placeAfter x = .outside ∨ placeAfter x = .marked)
    (hc : isNameChar c = false) : placeAfter (x ++ [c]) = Place.opened c := by
  rw [placeAfter_concat]
  rcases hx with hx | hx <;> simp [hx, Place.after, hc]

/-- A condition whose first character has been read. -/
theorem condition_spaced {v : List Char} {k : Condition} (hu : IsCondition (c :: v) k)
    (hx : placeAfter x = .outside ∨ placeAfter x = .marked) (h : Spaced (x ++ [c]) (v ++ s) t) :
    Inside (x ++ [c] ++ v) ∧
      ∃ v' t', t = v' ++ t' ∧ IsCondition (c :: v') k ∧ Spaced (x ++ [c] ++ v) s t' := by
  cases hu with
  | id hn =>
    have hmark : Inside (x ++ ['#']) :=
      inside_concat (.inr (placeAfter_opened hx (by decide))) (by decide)
    obtain ⟨hinside, t', rfl, h'⟩ := hmark.name hn.2 h
    exact ⟨hinside, _, t', rfl, .id hn, h'⟩
  | className hn =>
    have hmark : Inside (x ++ ['.']) :=
      inside_concat (.inr (placeAfter_opened hx (by decide))) (by decide)
    obtain ⟨hinside, t', rfl, h'⟩ := hmark.name hn.2 h
    exact ⟨hinside, _, t', rfl, .className hn, h'⟩
  | @hasAttribute a n b ha hn hb =>
    have hopen : placeAfter (x ++ ['[']) = .bracketed := placeAfter_opened hx (by decide)
    obtain ⟨hplace, a', b', t', rfl, ha', hb', h'⟩ :=
      (token_name hn.2).padded ha hb hopen (by simpa using h)
    rw [← List.append_assoc]
    refine ⟨inside_concat (.inl ?_) (by decide), a' ++ n ++ b' ++ [']'], t', by simp,
      .hasAttribute ha' hn hb', h'⟩
    rw [placeAfter_concat, hplace]
    rfl
  | @attributeEquals a n b c u d v ha hn hb hc hv hd =>
    have hopen : placeAfter (x ++ ['[']) = .bracketed := placeAfter_opened hx (by decide)
    obtain ⟨hplace, a', b', t₁, rfl, ha', hb', h₁⟩ :=
      (token_name hn.2).padded ha hb hopen (by simpa using h)
    have hequals : placeAfter (x ++ ['['] ++ (a ++ n ++ b) ++ ['=']) = .bracketed := by
      rw [placeAfter_concat, hplace]
      rfl
    obtain ⟨hplace', c', d', t', rfl, hc', hd', h'⟩ :=
      (token_value hv).padded hc hd hequals (by simpa using h₁)
    have hclose : Inside (x ++ ['['] ++ (a ++ n ++ b) ++ ['='] ++ (c ++ u ++ d) ++ [']']) := by
      refine inside_concat (.inl ?_) (by decide)
      rw [placeAfter_concat, hplace']
      rfl
    exact ⟨by simpa using hclose, a' ++ n ++ b' ++ '=' :: (c' ++ u ++ d' ++ [']']), t', by simp,
      .attributeEquals ha' hn hb' hc' hv hd', by simpa using h'⟩

theorem condition_start {u : List Char} {k : Condition} (hu : IsCondition u k) :
    ∃ c v, u = c :: v ∧ c ≠ ',' := by
  cases hu <;> exact ⟨_, _, rfl, by decide⟩

theorem conditions_spaced {u : List Char} {ks : List Condition} (hu : IsConditions u ks)
    (hx : Inside x) (h : Spaced x (u ++ s) t) :
    Inside (x ++ u) ∧ ∃ u' t', t = u' ++ t' ∧ IsConditions u' ks ∧ Spaced (x ++ u) s t' := by
  induction hu generalizing x t with
  | nil => exact ⟨by simpa using hx, [], t, rfl, .nil, by simpa using h⟩
  | cons hk _ ih =>
    obtain ⟨c, v, rfl, hc⟩ := condition_start hk
    obtain ⟨t₁, rfl, h₁⟩ := hx.cons hc (by simpa using h)
    obtain ⟨hinside, v', t₂, rfl, hk', h₂⟩ := condition_spaced hk hx.place (by simpa using h₁)
    obtain ⟨hinside', u', t', rfl, hu', h'⟩ := ih hinside h₂
    exact ⟨by simpa using hinside', c :: v' ++ u', t', by simp, .cons hk' hu', by simpa using h'⟩

/-! ## Alternatives -/

theorem compound_spaced {u : List Char} {k : Compound} (hu : IsCompound u k)
    (hx : placeAfter x = .outside) (h : Spaced x (u ++ s) t) :
    Inside (x ++ u) ∧
      ∃ w u' t', t = w ++ u' ++ t' ∧ Blanks w ∧ IsCompound u' k ∧ Spaced (x ++ u) s t' := by
  cases hu with
  | @universal u ks hks =>
    obtain ⟨w, t₁, rfl, hw, -, h₁⟩ := h.cons
    have hstar : Inside (x ++ ['*']) :=
      inside_concat (.inl (placeAfter_opened (.inl hx) (by decide))) (by decide)
    obtain ⟨hinside, u', t', rfl, hu', h'⟩ := conditions_spaced hks hstar h₁
    exact ⟨by simpa using hinside, w, '*' :: u', t', by simp, hw, .universal hu', by simpa using h'⟩
  | @named n u ks hn hks =>
    obtain ⟨c, n, rfl, hc⟩ := name_start hn
    obtain ⟨w, t₁, rfl, hw, -, h₁⟩ := Spaced.cons (by simpa using h)
    have hname : Inside (x ++ [c]) := by
      refine inside_concat (.inl ?_) (ne_comma_of_isNameChar hc)
      rw [placeAfter_concat, hx, Place.after, opened_plain (.inr hc)]
    obtain ⟨hinside, t₂, rfl, h₂⟩ := hname.name (fun d hd => hn.2 d (by simp [hd])) h₁
    obtain ⟨hinside', u', t', rfl, hu', h'⟩ := conditions_spaced hks hinside h₂
    exact ⟨by simpa using hinside', w, c :: n ++ u', t', by simp, hw, .named hn hu',
      by simpa using h'⟩
  | conditional hks =>
    cases hks with
    | cons hk hks =>
      obtain ⟨c, v, rfl, hc⟩ := condition_start hk
      obtain ⟨w, t₁, rfl, hw, -, h₁⟩ := Spaced.cons (by simpa using h)
      obtain ⟨hinside, v', t₂, rfl, hk', h₂⟩ := condition_spaced hk (.inl hx) h₁
      obtain ⟨hinside', u', t', rfl, hu', h'⟩ := conditions_spaced hks hinside h₂
      exact ⟨by simpa using hinside', w, c :: v' ++ u', t', by simp, hw,
        .conditional (.cons hk' hu'), by simpa using h'⟩

theorem placeAfter_blanks {b : List Char} (hb : Blanks b) (hx : placeAfter x = .outside) :
    placeAfter (x ++ b) = .outside :=
  placeAfter_run hx fun c hc => opened_plain (.inl (hb c hc))

/-- Behind an alternative and blanks, a comma leads outside. -/
theorem Inside.comma {b : List Char} (hx : Inside x) (hb : Blanks b) :
    placeAfter (x ++ b ++ [',']) = .outside := by
  refine placeAfter_opened ?_ (by decide)
  cases b with
  | nil => simpa using hx.place
  | cons c b =>
    refine .inl ?_
    rw [List.append_cons]
    refine placeAfter_blanks (fun d hd => hb d (by simp [hd])) ?_
    have hc : Text.isBlank c = true := hb c (by simp)
    rw [placeAfter_opened hx.place (isNameChar_of_isBlank hc), opened_plain (.inl hc)]

theorem isList_spaced {u : List Char} {ks : List Compound} (hu : IsList u ks)
    (hx : placeAfter x = .outside) (h : Spaced x u t) : IsList t ks := by
  induction hu generalizing x t with
  | last ha hk hb =>
    obtain ⟨a', t₁, rfl, ha', h₁⟩ := Spaced.blanks ha (by simpa using h)
    obtain ⟨-, w, u', t₂, rfl, hw, hk', h₂⟩ := compound_spaced hk (placeAfter_blanks ha hx) h₁
    obtain ⟨b', t₃, rfl, hb', h₃⟩ := Spaced.blanks (s := []) hb (by simpa using h₂)
    simpa using IsList.last (blanks_append ha' hw) hk' (blanks_append hb' h₃.blanks_of_nil)
  | cons ha hk hb _ ih =>
    obtain ⟨a', t₁, rfl, ha', h₁⟩ := Spaced.blanks ha (by simpa using h)
    obtain ⟨hinside, w, u', t₂, rfl, hw, hk', h₂⟩ :=
      compound_spaced hk (placeAfter_blanks ha hx) h₁
    obtain ⟨b', t₃, rfl, hb', h₃⟩ := h₂.blanks hb
    obtain ⟨w', t', rfl, hw', -, h'⟩ := h₃.cons
    have hrest := ih (hinside.comma hb) h'
    simpa using IsList.cons (blanks_append ha' hw) hk' (blanks_append hb' hw') hrest

/-! ## Blanks at the ends -/

theorem isList_blanks_append {a cs : List Char} {ks : List Compound} (ha : Blanks a)
    (h : IsList cs ks) : IsList (a ++ cs) ks := by
  cases h with
  | last ha' hk hb => simpa using IsList.last (blanks_append ha ha') hk hb
  | cons ha' hk hb hr => simpa using IsList.cons (blanks_append ha ha') hk hb hr

theorem isList_append_blanks {cs b : List Char} {ks : List Compound} (h : IsList cs ks)
    (hb : Blanks b) : IsList (cs ++ b) ks := by
  induction h with
  | last ha hk hb' => simpa using IsList.last ha hk (blanks_append hb' hb)
  | cons ha hk hb' _ ih => simpa using IsList.cons ha hk hb' ih

/-- No blank that belongs to an alternative is at an end of the text. -/
theorem isList_trimmed {cs : List Char} {ks : List Compound} (h : IsList cs ks) :
    ∃ m, IsTrimOf cs m ∧ IsList m ks := by
  have hends : ∀ {t : List Char} {k : Compound}, IsCompound t k →
      Halts Text.isBlank t.reverse := by
    intro t k hk c hc
    obtain ⟨d, hd, hblank⟩ := not_isBlank_compound hk
    rw [List.head?_reverse] at hc
    cases hc.symm.trans hd
    exact hblank
  induction h with
  | @last a t b k ha hk hb =>
    have hstart : Halts Text.isBlank (t ++ []) := halts_blank_compound hk
    exact ⟨t, ⟨a, b, ha, hb, rfl, by simpa using hstart, hends hk⟩,
      by simpa using IsList.last blanks_nil hk blanks_nil⟩
  | @cons a t b r k ks ha hk hb hr ih =>
    obtain ⟨m, ⟨a', b', ha', hb', rfl, -, hm⟩, hlist⟩ := ih
    have hne : m.reverse ≠ [] := by simpa using isList_ne_nil hlist
    have hlist' : IsList (a' ++ m) ks := isList_blanks_append ha' hlist
    have hstart : Halts Text.isBlank (t ++ (b ++ ',' :: (a' ++ m))) := halts_blank_compound hk
    refine ⟨t ++ b ++ ',' :: (a' ++ m), ⟨a, b', ha, hb', by simp, by simpa using hstart, ?_⟩,
      by simpa using IsList.cons blanks_nil hk hb hlist'⟩
    simpa using halts_append hm hne (b := a'.reverse ++ ',' :: (b.reverse ++ t.reverse))

theorem isTrimOf_surrounded {a cs b m : List Char} (ha : Blanks a) (h : IsTrimOf cs m)
    (hb : Blanks b) : IsTrimOf (a ++ cs ++ b) m := by
  obtain ⟨a', b', ha', hb', rfl, hm, hm'⟩ := h
  exact ⟨a ++ a', b' ++ b, blanks_append ha ha', blanks_append hb' hb, by simp, hm, hm'⟩

/-! ## Selectors and their texts -/

theorem parse_inserted {source source' : String} {s : Selector} (h : parse source = .ok s)
    (hw : Inserted source source') :
    ∃ s', parse source' = .ok s' ∧ s'.alternatives = s.alternatives := by
  obtain ⟨x, r, w, hsource, hx, hw, hsource'⟩ := hw
  have hspaced : Spaced [] source.toList source'.toList := by
    rw [hsource, hsource']
    exact spaced_insert hx hw
  exact ⟨_, parse_of_isList (isList_spaced (of_parse_eq_ok h).1 rfl hspaced), rfl⟩

/-- The text that a selector keeps is read as this selector, and so is the text it was read from
with more blanks around it. Blanks at any seams leave the alternatives, and so what is found, as
they are. -/
theorem selector_normal_form {source : String} {s : Selector} (h : parse source = .ok s) :
    parse s.source = .ok s ∧
    (∀ a b : String, Blanks a.toList → Blanks b.toList → parse (a ++ source ++ b) = .ok s) ∧
    ∀ source', Relation.ReflTransGen Inserted source source' →
      ∃ s', parse source' = .ok s' ∧ s'.alternatives = s.alternatives ∧
        (∀ doc n, s'.matchesNode doc n = s.matchesNode doc n) ∧
        ∀ doc : Document, doc.select s' = doc.select s := by
  obtain ⟨hlist, htrim⟩ := ((parse_eq_ok_iff source).2 s).1 h
  refine ⟨?_, fun a b ha hb => ?_, fun source' hinserted => ?_⟩
  · obtain ⟨m, hm, hlist'⟩ := isList_trimmed hlist
    have hsource : s.source.toList = m := (trimChars_of_isTrimOf htrim).symm.trans
      (trimChars_of_isTrimOf hm)
    obtain ⟨-, -, -, -, -, hstart, hend⟩ := htrim
    refine ((parse_eq_ok_iff s.source).2 s).2 ⟨hsource ▸ hlist', isTrimOf_self hstart hend⟩
  · refine ((parse_eq_ok_iff _).2 s).2 ⟨?_, ?_⟩
    · simpa using isList_append_blanks (isList_blanks_append ha hlist) hb
    · simpa using isTrimOf_surrounded ha htrim hb
  · have halternatives : ∃ s', parse source' = .ok s' ∧ s'.alternatives = s.alternatives := by
      induction hinserted with
      | refl => exact ⟨s, h, rfl⟩
      | tail _ hstep ih =>
        obtain ⟨s₁, hs₁, heq₁⟩ := ih
        obtain ⟨s', hs', heq'⟩ := parse_inserted hs₁ hstep
        exact ⟨s', hs', heq'.trans heq₁⟩
    obtain ⟨s', hs', heq⟩ := halternatives
    have hmatches : ∀ doc n, s'.matchesNode doc n = s.matchesNode doc n := fun doc n => by
      rw [matchesNode, matchesNode, heq]
    exact ⟨s', hs', heq, hmatches, fun doc => by simp only [Document.select, hmatches]⟩

/-- Blanks and the comma between the quotation marks belong to the value. -/
theorem selector_normal_form_quoted :
    ∃ s, parse " [a='x , y'],b.c" = .ok s ∧ s.source = "[a='x , y'],b.c" ∧
      s.alternatives = [⟨none, [.attributeEquals "a" "x , y"]⟩, ⟨some "b", [.className "c"]⟩] ∧
      parse s.source = .ok s ∧ parse "\n [a='x , y'],b.c\t" = .ok s ∧
      ∃ s', parse " [a ='x , y'], \tb.c" = .ok s' ∧ s'.alternatives = s.alternatives := by
  have hparse : parse " [a='x , y'],b.c" = .ok ⟨"[a='x , y'],b.c",
      [⟨none, [.attributeEquals "a" "x , y"]⟩, ⟨some "b", [.className "c"]⟩]⟩ := by decide +kernel
  obtain ⟨hself, haround, hinserted⟩ := selector_normal_form hparse
  have hequals : Inserted " [a='x , y'],b.c" " [a ='x , y'],b.c" := by
    refine ⟨" [a".toList, "='x , y'],b.c".toList, [' '], by decide, ?_, by simp [Blanks]; rfl,
      by decide⟩
    rintro ⟨c, -, d, ⟨⟩, -, hd⟩
    exact absurd hd (by decide)
  have hcomma : Inserted " [a ='x , y'],b.c" " [a ='x , y'], \tb.c" :=
    ⟨" [a ='x , y'],".toList, "b.c".toList, [' ', '\t'], by decide, .inr (.inr (.inl (by decide))),
      by simp [Blanks]; decide, by decide⟩
  obtain ⟨s', hs', heq, -⟩ := hinserted _ (.tail (.single hequals) hcomma)
  have hblanks : Blanks "\n".toList ∧ Blanks "\t".toList := by simp [Blanks]; decide
  exact ⟨_, hparse, rfl, rfl, hself, haround "\n" "\t" hblanks.1 hblanks.2, s', hs', heq⟩

end StructureLint.Selector
