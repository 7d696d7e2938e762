import Mathlib.Data.List.Forall2
import StructureLint.Proofs.Selector.Parse
/-!
# The case of letters in a selector

Names of elements may be written in either case, nothing else in a selector may. `Place` tells where
in a selector a character stands while the text is read from the left, and `Recased` relates two
texts that differ in the case of ASCII letters of names of elements only. Each part of the grammar
is followed through such a pair of texts: conditions are the same in both (`conditions_recased`),
and the names asked for are equal once folded (`name_recased`). So both texts are selectors or
neither is, and their alternatives are `Alike` (`isList_recased`, `parse_recased`).
-/

namespace StructureLint

/-- Two alternatives with the same conditions, and with names that are equal once folded. -/
structure Compound.Alike (c d : Compound) : Prop where
  names : c.localName.map Text.foldCase = d.localName.map Text.foldCase
  conditions : c.conditions = d.conditions

namespace Selector

open Grammar

/-- Where a character of a selector stands. -/
inductive Place where
  /-- In the name of an element, or between two parts. -/
  | outside
  /-- In the name that follows `#` or `.`. -/
  | marked
  /-- Between square brackets. -/
  | bracketed
  /-- Between two of these quotation marks, inside square brackets. -/
  | quoted (mark : Char)

namespace Place

/-- The place after a character that stands outside. -/
def opened (c : Char) : Place :=
  if c = '#' ∨ c = '.' then .marked else if c = '[' then .bracketed else .outside

/-- The place after one more character. -/
def after : Place → Char → Place
  | .outside, c => opened c
  | .marked, c => if isNameChar c then .marked else opened c
  | .bracketed, c =>
    if c = ']' then .outside else if c = '"' ∨ c = '\'' then .quoted c else .bracketed
  | .quoted mark, c => if c = mark then .bracketed else .quoted mark

end Place

/-- From a place on, two texts differ at most in the case of ASCII letters that stand outside. -/
inductive Recased : Place → List Char → List Char → Prop
  | nil (p : Place) : Recased p [] []
  | same {p : Place} {c : Char} {s t : List Char} (h : Recased (p.after c) s t) :
      Recased p (c :: s) (c :: t)
  | letter {c d : Char} {s t : List Char} (hc : c.isAlpha = true) (hcd : c.toLower = d.toLower)
      (h : Recased .outside s t) : Recased .outside (c :: s) (d :: t)

/-- Two texts that differ at most in the case of ASCII letters in names of elements. -/
def SameUpToNames (source source' : String) : Prop :=
  Recased .outside source.toList source'.toList

/-! ## Characters -/

theorem isAlpha_iff {c : Char} : c.isAlpha = true ↔
    (65 ≤ c.toNat ∧ c.toNat ≤ 90) ∨ (97 ≤ c.toNat ∧ c.toNat ≤ 122) := by
  show (decide (65 ≤ c.val ∧ c.val ≤ 90) || decide (97 ≤ c.val) && decide (c.val ≤ 122)) = true ↔ _
  simp only [Bool.or_eq_true, Bool.and_eq_true, decide_eq_true_eq, UInt32.le_iff_toNat_le]
  rfl

/-- Capital letters become small ones, and every other character is left alone. -/
theorem toLower_cases (c : Char) :
    ((65 ≤ c.toNat ∧ c.toNat ≤ 90) ∧ c.toLower.toNat = c.toNat + 32) ∨
      (¬ (65 ≤ c.toNat ∧ c.toNat ≤ 90) ∧ c.toLower = c) := by
  unfold Char.toLower
  split
  · rename_i h
    have hc : 65 ≤ c.toNat ∧ c.toNat ≤ 90 :=
      ⟨UInt32.le_iff_toNat_le.1 h.1, UInt32.le_iff_toNat_le.1 h.2⟩
    have hsum : (c.val + 32).toNat = (c.toNat + 32) % 4294967296 := UInt32.toNat_add ..
    exact .inl ⟨hc, hsum.trans (Nat.mod_eq_of_lt (by omega))⟩
  · rename_i h
    exact .inr ⟨fun hc => h ⟨UInt32.le_iff_toNat_le.2 hc.1, UInt32.le_iff_toNat_le.2 hc.2⟩, rfl⟩

theorem isAlpha_of_toLower_eq {c d : Char} (h : c.toLower = d.toLower) : c.isAlpha = d.isAlpha := by
  have hsame : c.toLower.toNat = d.toLower.toNat := congrArg Char.toNat h
  rw [Bool.eq_iff_iff, isAlpha_iff, isAlpha_iff]
  rcases toLower_cases c with ⟨hc, hlower⟩ | ⟨hc, hlower⟩ <;>
    rcases toLower_cases d with ⟨hd, hlower'⟩ | ⟨hd, hlower'⟩ <;>
    rw [hlower, hlower'] at hsame <;> omega

theorem isNameChar_of_isAlpha {c : Char} (h : c.isAlpha = true) : isNameChar c = true := by
  have : c.isAlphanum = true := Bool.or_eq_true_iff.2 (.inl h)
  simp [isNameChar, Text.isAlphanumeric_of_isAlphanum this]

theorem isAlpha_of_isNameChar {c : Char} (h : isNameChar c = false) : c.isAlpha = false :=
  Bool.eq_false_iff.2 fun hc => by simp [isNameChar_of_isAlpha hc] at h

/-- Blanks and the characters of names open nothing. -/
theorem opened_plain {c : Char} (h : Text.isBlank c = true ∨ isNameChar c = true) :
    Place.opened c = .outside := by
  have h1 : ¬ (c = '#' ∨ c = '.') := by rintro (rfl | rfl) <;> exact absurd h (by decide)
  have h2 : c ≠ '[' := by rintro rfl; exact absurd h (by decide)
  rw [Place.opened, if_neg h1, if_neg h2]

theorem after_bracketed {c : Char} (h : Text.isBlank c = true ∨ isNameChar c = true) :
    Place.bracketed.after c = .bracketed := by
  have h1 : c ≠ ']' := by rintro rfl; exact absurd h (by decide)
  have h2 : ¬ (c = '"' ∨ c = '\'') := by rintro (rfl | rfl) <;> exact absurd h (by decide)
  simp only [Place.after, if_neg h1, if_neg h2]

/-! ## Text that stays as it is -/

theorem Recased.refl (p : Place) (s : List Char) : Recased p s s := by
  induction s generalizing p with
  | nil => exact .nil p
  | cons c s ih => exact .same (ih _)

theorem Recased.symm {p : Place} {s t : List Char} (h : Recased p s t) : Recased p t s := by
  induction h with
  | nil p => exact .nil p
  | same _ ih => exact .same ih
  | letter hc hcd _ ih => exact .letter (isAlpha_of_toLower_eq hcd ▸ hc) hcd.symm ih

theorem Recased.cons {p : Place} {c : Char} {s t : List Char} (h : Recased p (c :: s) t)
    (hc : p = .outside → c.isAlpha = false) : ∃ t', t = c :: t' ∧ Recased (p.after c) s t' := by
  cases h with
  | same h => exact ⟨_, rfl, h⟩
  | letter hc' => simp [hc rfl] at hc'

/-- A run of characters that do not change the place. -/
theorem Recased.run {p : Place} {w s t : List Char} (h : Recased p (w ++ s) t)
    (hp : ∀ c ∈ w, p.after c = p) (hw : p = .outside → ∀ c ∈ w, c.isAlpha = false) :
    ∃ t', t = w ++ t' ∧ Recased p s t' := by
  induction w generalizing t with
  | nil => exact ⟨t, rfl, h⟩
  | cons c w ih =>
    obtain ⟨t₁, rfl, h₁⟩ := h.cons fun he => hw he c (by simp)
    rw [hp c (by simp)] at h₁
    obtain ⟨t', rfl, h'⟩ := ih h₁ (fun d hd => hp d (by simp [hd]))
      fun he d hd => hw he d (by simp [hd])
    exact ⟨t', rfl, h'⟩

theorem Recased.blanks {a s t : List Char} (ha : Blanks a) (h : Recased .outside (a ++ s) t) :
    ∃ t', t = a ++ t' ∧ Recased .outside s t' :=
  h.run (fun c hc => opened_plain (.inl (ha c hc))) fun _ c hc =>
    isAlpha_of_isNameChar (isNameChar_of_isBlank (ha c hc))

theorem Recased.inBrackets {w s t : List Char} (h : Recased .bracketed (w ++ s) t)
    (hw : ∀ c ∈ w, Text.isBlank c = true ∨ isNameChar c = true) :
    ∃ t', t = w ++ t' ∧ Recased .bracketed s t' :=
  h.run (fun c hc => after_bracketed (hw c hc)) (by simp)

theorem Recased.inQuotes {mark : Char} {v s t : List Char}
    (h : Recased (.quoted mark) (v ++ s) t) (hv : mark ∉ v) :
    ∃ t', t = v ++ t' ∧ Recased (.quoted mark) s t' :=
  h.run (fun c hc => if_neg (ne_of_mem_of_not_mem hc hv)) (by simp)

/-! ## Conditions -/

/-- From a place between two parts on, two texts differ as `Recased` says. A name after a mark has
no end of its own, so that the place may still be behind the mark. -/
def Between (s t : List Char) : Prop :=
  Recased .outside s t ∨ Recased .marked s t

/-- Both places go on alike after a character that is not one of a name. -/
theorem Between.cons {c : Char} {s t : List Char} (h : Between (c :: s) t)
    (hc : isNameChar c = false) : ∃ t', t = c :: t' ∧ Recased (Place.opened c) s t' := by
  rcases h with h | h
  · exact h.cons fun _ => isAlpha_of_isNameChar hc
  · obtain ⟨t', rfl, h'⟩ := h.cons (by simp)
    exact ⟨t', rfl, by simpa [Place.after, hc] using h'⟩

theorem Between.eq_nil {t : List Char} (h : Between [] t) : t = [] := by
  rcases h with h | h <;> cases h <;> rfl

theorem Between.blanks {b s t : List Char} (hb : Blanks b) (h : Between (b ++ s) t) :
    ∃ t', t = b ++ t' ∧ Between s t' := by
  cases b with
  | nil => exact ⟨t, rfl, h⟩
  | cons c b =>
    obtain ⟨t₁, rfl, h₁⟩ := h.cons (isNameChar_of_isBlank (hb c (by simp)))
    rw [opened_plain (.inl (hb c (by simp)))] at h₁
    obtain ⟨t', rfl, h'⟩ := h₁.blanks fun d hd => hb d (by simp [hd])
    exact ⟨t', rfl, .inl h'⟩

theorem marked_recased {x : Char} {n s t : List Char} (hx : x = '#' ∨ x = '.') (hn : Name n)
    (h : Between (x :: (n ++ s)) t) : ∃ t', t = x :: (n ++ t') ∧ Between s t' := by
  have hname : isNameChar x = false := by rcases hx with rfl | rfl <;> decide
  obtain ⟨t₁, rfl, h₁⟩ := h.cons hname
  rw [Place.opened, if_pos hx] at h₁
  obtain ⟨t', rfl, h'⟩ := h₁.run (fun c hc => by simp [Place.after, hn.2 c hc]) (by simp)
  exact ⟨t', rfl, .inr h'⟩

theorem value_recased {u s t : List Char} {v : String} (hv : Value u v)
    (h : Recased .bracketed (u ++ s) t) : ∃ t', t = u ++ t' ∧ Recased .bracketed s t' := by
  cases hv with
  | plain hv => exact h.inBrackets fun c hc => .inr (hv c hc)
  | double hv | single hv =>
    obtain ⟨t₁, rfl, h₁⟩ := h.cons (by simp)
    obtain ⟨t₂, rfl, h₂⟩ := Recased.inQuotes (by simpa [Place.after] using h₁) hv
    obtain ⟨t', rfl, h'⟩ := h₂.cons (by simp)
    exact ⟨t', by simp, by simpa [Place.after] using h'⟩

/-- The name at the front of the brackets, with the blanks around it. -/
theorem attribute_recased {a n b s t : List Char} (ha : Blanks a) (hn : Name n) (hb : Blanks b)
    (h : Between ('[' :: (a ++ (n ++ (b ++ s)))) t) :
    ∃ t', t = '[' :: (a ++ (n ++ (b ++ t'))) ∧ Recased .bracketed s t' := by
  obtain ⟨t₀, rfl, h₀⟩ := h.cons (by decide)
  obtain ⟨t₁, rfl, h₁⟩ := Recased.inBrackets (by simpa [Place.opened] using h₀) fun c hc =>
    .inl (ha c hc)
  obtain ⟨t₂, rfl, h₂⟩ := h₁.inBrackets fun c hc => .inr (hn.2 c hc)
  obtain ⟨t', rfl, h'⟩ := h₂.inBrackets fun c hc => .inl (hb c hc)
  exact ⟨t', rfl, h'⟩

theorem close_recased {s t : List Char} (h : Recased .bracketed (']' :: s) t) :
    ∃ t', t = ']' :: t' ∧ Between s t' := by
  obtain ⟨t', rfl, h'⟩ := h.cons (by simp)
  exact ⟨t', rfl, .inl (by simpa [Place.after] using h')⟩

theorem condition_recased {u s t : List Char} {c : Condition} (hu : IsCondition u c)
    (h : Between (u ++ s) t) : ∃ t', t = u ++ t' ∧ Between s t' := by
  cases hu with
  | id hn => exact marked_recased (.inl rfl) hn h
  | className hn => exact marked_recased (.inr rfl) hn h
  | hasAttribute ha hn hb =>
    obtain ⟨t₁, rfl, h₁⟩ := attribute_recased ha hn hb (by simpa using h)
    obtain ⟨t', rfl, h'⟩ := close_recased h₁
    exact ⟨t', by simp, h'⟩
  | attributeEquals ha hn hb hc hv hd =>
    obtain ⟨t₁, rfl, h₁⟩ := attribute_recased ha hn hb (by simpa using h)
    obtain ⟨t₂, rfl, h₂⟩ := h₁.cons (by simp)
    obtain ⟨t₃, rfl, h₃⟩ := Recased.inBrackets (by simpa [Place.after] using h₂) fun c hc' =>
      .inl (hc c hc')
    obtain ⟨t₄, rfl, h₄⟩ := value_recased hv h₃
    obtain ⟨t₅, rfl, h₅⟩ := h₄.inBrackets fun c hc => .inl (hd c hc)
    obtain ⟨t', rfl, h'⟩ := close_recased h₅
    exact ⟨t', by simp, h'⟩

theorem conditions_recased {u s t : List Char} {cs : List Condition} (hu : IsConditions u cs)
    (h : Between (u ++ s) t) : ∃ t', t = u ++ t' ∧ Between s t' := by
  induction hu generalizing t with
  | nil => exact ⟨t, rfl, h⟩
  | cons hc _ ih =>
    obtain ⟨t₁, rfl, h₁⟩ := condition_recased hc (by simpa using h)
    obtain ⟨t', rfl, h'⟩ := ih h₁
    exact ⟨t', by simp, h'⟩

/-! ## Names and alternatives -/

theorem name_recased {n s t : List Char} (hn : ∀ c ∈ n, isNameChar c = true)
    (h : Recased .outside (n ++ s) t) :
    ∃ n' t', t = n' ++ t' ∧ (∀ c ∈ n', isNameChar c = true) ∧
      n.map Char.toLower = n'.map Char.toLower ∧ Recased .outside s t' := by
  induction n generalizing t with
  | nil => exact ⟨[], t, rfl, by simp, rfl, h⟩
  | cons c n ih =>
    -- Either way one more character of a name has been read, and the text goes on outside.
    obtain ⟨d, t₁, rfl, hd, hcd, h₁⟩ : ∃ d t₁, t = d :: t₁ ∧ isNameChar d = true ∧
        c.toLower = d.toLower ∧ Recased .outside (n ++ s) t₁ := by
      cases h with
      | same h =>
        have hc : isNameChar c = true := hn c (by simp)
        exact ⟨c, _, rfl, hc, rfl, by rwa [Place.after, opened_plain (.inr hc)] at h⟩
      | letter hc hcd h =>
        exact ⟨_, _, rfl, isNameChar_of_isAlpha (isAlpha_of_toLower_eq hcd ▸ hc), hcd, h⟩
    obtain ⟨n', t', rfl, hn', hmap, h'⟩ := ih (fun e he => hn e (by simp [he])) h₁
    exact ⟨d :: n', t', rfl, by simpa [hd] using hn', by simp [hcd, hmap], h'⟩

theorem foldCase_ofList {n n' : List Char} (h : n.map Char.toLower = n'.map Char.toLower) :
    Text.foldCase (String.ofList n) = Text.foldCase (String.ofList n') := by
  apply String.toList_inj.1
  simpa [Text.foldCase] using h

theorem compound_recased {u s t : List Char} {c : Compound} (hu : IsCompound u c)
    (h : Recased .outside (u ++ s) t) :
    ∃ u' c' t', t = u' ++ t' ∧ IsCompound u' c' ∧ c.Alike c' ∧ Between s t' := by
  cases hu with
  | universal hc =>
    obtain ⟨t₁, rfl, h₁⟩ := h.cons fun _ => by decide
    obtain ⟨t', rfl, h'⟩ := conditions_recased hc
      (.inl (by simpa [Place.after, Place.opened] using h₁))
    exact ⟨_, _, t', rfl, .universal hc, ⟨rfl, rfl⟩, h'⟩
  | named hn hc =>
    obtain ⟨n', t₁, rfl, hn', hmap, h₁⟩ := name_recased hn.2 (by simpa using h)
    obtain ⟨t', rfl, h'⟩ := conditions_recased hc (.inl h₁)
    have hne : n' ≠ [] := fun he => hn.1 (by simpa [he] using hmap)
    exact ⟨_, _, t', by simp, .named ⟨hne, hn'⟩ hc,
      ⟨by simp [foldCase_ofList hmap], rfl⟩, h'⟩
  | conditional hc =>
    obtain ⟨t', rfl, h'⟩ := conditions_recased hc (.inl h)
    exact ⟨_, _, t', rfl, .conditional hc, ⟨rfl, rfl⟩, h'⟩

theorem isList_recased {u t : List Char} {as : List Compound} (hu : IsList u as)
    (h : Recased .outside u t) : ∃ bs, IsList t bs ∧ List.Forall₂ Compound.Alike as bs := by
  induction hu generalizing t with
  | last ha hc hb =>
    obtain ⟨t₁, rfl, h₁⟩ := Recased.blanks ha (by simpa using h)
    obtain ⟨u', d, t₂, rfl, hd, hcd, h₂⟩ := compound_recased hc h₁
    obtain ⟨t₃, rfl, h₃⟩ := Between.blanks (s := []) hb (by simpa using h₂)
    cases h₃.eq_nil
    exact ⟨[d], by simpa using IsList.last ha hd hb, .cons hcd .nil⟩
  | cons ha hc hb _ ih =>
    obtain ⟨t₁, rfl, h₁⟩ := Recased.blanks ha (by simpa using h)
    obtain ⟨u', d, t₂, rfl, hd, hcd, h₂⟩ := compound_recased hc h₁
    obtain ⟨t₃, rfl, h₃⟩ := h₂.blanks hb
    obtain ⟨t₄, rfl, h₄⟩ := h₃.cons (by decide)
    obtain ⟨bs, hbs, hall⟩ := ih (by simpa [Place.opened] using h₄)
    exact ⟨d :: bs, by simpa using IsList.cons ha hd hb hbs, .cons hcd hall⟩

/-- A text that is a selector stays one when letters of its names change case. -/
theorem parse_recased {source source' : String} {s : Selector} (h : SameUpToNames source source')
    (hs : parse source = .ok s) :
    ∃ s', parse source' = .ok s' ∧ List.Forall₂ Compound.Alike s.alternatives s'.alternatives := by
  obtain ⟨bs, hbs, hall⟩ := isList_recased (of_parse_eq_ok hs).1 h
  exact ⟨_, parse_of_isList hbs, hall⟩

end Selector

end StructureLint
