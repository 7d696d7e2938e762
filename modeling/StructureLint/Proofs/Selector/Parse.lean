import StructureLint.Proofs.Selector.Complete
import StructureLint.Proofs.Selector.Sound
/-!
# Selectors are the texts of the grammar

Reading and the grammar agree on every text, in which texts are selectors and in what these say
(`parse_eq_ok_iff`). A selector also keeps its text, without the blanks around it; `IsTrimOf` says
what that is without cutting anything off, and `trim_eq_iff` that `Text.trim` finds it.
-/

namespace StructureLint.Selector

open Grammar

/-! ## Trimmed texts -/

/-- The first text is the second with blanks around it, and the second neither begins nor ends
with one. -/
def IsTrimOf (cs t : List Char) : Prop :=
  ∃ a b, Blanks a ∧ Blanks b ∧ cs = a ++ t ++ b ∧
    Halts Text.isBlank t ∧ Halts Text.isBlank t.reverse

theorem halts_skipBlanks (cs : List Char) : Halts Text.isBlank (Text.skipBlanks cs) := by
  intro c hc
  have := List.head?_dropWhile_not Text.isBlank cs
  rw [show (cs.dropWhile Text.isBlank).head? = some c from hc] at this
  simpa using this

theorem blanks_reverse {a : List Char} (h : Blanks a) : Blanks a.reverse :=
  fun c hc => h c (List.mem_reverse.1 hc)

theorem halts_append {p : Char → Bool} {t b : List Char} (h : Halts p t) (hne : t ≠ []) :
    Halts p (t ++ b) := by
  match t, hne with
  | c :: _, _ => exact halts_cons.2 (halts_cons.1 h)

theorem isTrimOf_trimChars (cs : List Char) : IsTrimOf cs (Text.trimChars cs) := by
  obtain ⟨a, ha, hcs⟩ := blanks_skipped cs
  obtain ⟨b, hb, hrev⟩ := blanks_skipped (Text.skipBlanks cs).reverse
  have hbody : Text.skipBlanks cs = Text.trimChars cs ++ b.reverse := by
    simpa [Text.trimChars] using congrArg List.reverse hrev
  refine ⟨a, b.reverse, ha, blanks_reverse hb, ?_, ?_, ?_⟩
  · rw [List.append_assoc, ← hbody, ← hcs]
  · intro c hc
    refine halts_skipBlanks cs c ?_
    rw [hbody, List.head?_append, Option.mem_def.1 hc]
    rfl
  · rw [Text.trimChars, List.reverse_reverse]
    exact halts_skipBlanks _

theorem trimChars_of_isTrimOf {cs t : List Char} (h : IsTrimOf cs t) : Text.trimChars cs = t := by
  obtain ⟨a, b, ha, hb, rfl, ht, ht'⟩ := h
  match t, ht, ht' with
  | [], _, _ =>
    have hab : Blanks (a ++ b) := fun c hc => (List.mem_append.1 hc).elim (ha c) (hb c)
    simp [Text.trimChars, skipBlanks_blanks hab, skipBlanks_blanks (a := []) (by simp [Blanks])]
  | c :: t, ht, ht' =>
    rw [Text.trimChars, List.append_assoc, skipBlanks_append ha (halts_append ht (by simp)),
      List.reverse_append, skipBlanks_append (blanks_reverse hb) ht', List.reverse_reverse]

theorem trim_eq_iff {s t : String} : Text.trim s = t ↔ IsTrimOf s.toList t.toList := by
  constructor
  · rintro rfl
    simpa [Text.trim] using isTrimOf_trimChars s.toList
  · intro h
    simp [Text.trim, trimChars_of_isTrimOf h]

/-! ## Reading and the grammar -/

theorem parse_of_isList {source : String} {found : List Compound}
    (h : IsList source.toList found) : parse source = .ok ⟨Text.trim source, found⟩ := by
  rw [parse, list_complete h]

theorem of_parse_eq_ok {source : String} {s : Selector} (h : parse source = .ok s) :
    IsList source.toList s.alternatives ∧ s.source = Text.trim source := by
  rw [parse] at h
  split at h
  · cases h
  · rename_i hl
    cases h
    exact ⟨list_sound hl, rfl⟩

theorem isTrimOf_self {cs : List Char} (h : Halts Text.isBlank cs)
    (h' : Halts Text.isBlank cs.reverse) : IsTrimOf cs cs :=
  ⟨[], [], by simp [Blanks], by simp [Blanks], by simp, h, h'⟩

/-- A name by itself is a selector. -/
theorem parse_of_name {source : String} (h : Name source.toList) :
    parse source = .ok ⟨source, [⟨some source, []⟩]⟩ := by
  have hn : Name source.toList.reverse := ⟨by simpa using h.1, fun c hc => h.2 c (by simpa using hc)⟩
  have hl : IsList source.toList [⟨some source, []⟩] := by
    have hc : IsCompound source.toList ⟨some source, []⟩ := by
      simpa using IsCompound.named h .nil
    simpa using IsList.last (a := []) (b := []) (by simp [Blanks]) hc (by simp [Blanks])
  have ht : Text.trim source = source :=
    trim_eq_iff.2 (isTrimOf_self (by simpa using halts_blank_name h [])
      (by simpa using halts_blank_name hn []))
  rw [parse_of_isList hl, ht]

/-- The selectors are exactly the texts that the grammar derives. The alternatives of a selector
are those of the derivation, and its text is the one given without the blanks around it. -/
theorem parse_eq_ok_iff (source : String) :
    ((∃ s, parse source = .ok s) ↔ ∃ found, IsList source.toList found) ∧
      ∀ s, parse source = .ok s ↔
        IsList source.toList s.alternatives ∧ IsTrimOf source.toList s.source.toList := by
  refine ⟨⟨?_, ?_⟩, fun s => ⟨fun h => ?_, ?_⟩⟩
  · rintro ⟨s, h⟩
    exact ⟨s.alternatives, (of_parse_eq_ok h).1⟩
  · rintro ⟨found, h⟩
    exact ⟨_, parse_of_isList h⟩
  · obtain ⟨hl, ht⟩ := of_parse_eq_ok h
    exact ⟨hl, trim_eq_iff.1 ht.symm⟩
  · rintro ⟨hl, ht⟩
    rw [parse_of_isList hl, trim_eq_iff.2 ht]

end StructureLint.Selector
