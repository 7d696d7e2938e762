import StructureLint.Json.Basic
import StructureLint.Json.Reading
/-!
# Strings are read back

What is written for a character is read as one part of a string (`scanString_escape`), and the
parts of a text make up this text (`textOf?_parts`). So a string is read back whatever characters
it has, and reading stops at the quotation mark that ends it (`scanString_quoted`).
-/

namespace StructureLint.Json

/-- The part of a string as which a character is written: a control character that no letter stands
for by its number, every other one as itself. -/
def partOf (c : Char) : StringPart :=
  if c.toNat < 0x20 ∧ c ∉ ['\x08', '\x0c', '\n', '\r', '\t'] then .unit c.toNat else .char c

/-! ## Characters -/

theorem scanString_letter {c d : Char} (hc : c ≠ 'u') (hd : unescape? c = some d)
    (cs : List Char) : scanString ('\\' :: c :: cs) = prepend (.char d) (scanString cs) := by
  rw [scanString]
  · rw [hd]
  · exact fun _ _ _ _ _ hu _ => hc hu

theorem scanString_unit {a b c d : Char} {n : Nat} (h : hex4? a b c d = some n) (cs : List Char) :
    scanString ('\\' :: 'u' :: a :: b :: c :: d :: cs) = prepend (.unit n) (scanString cs) := by
  rw [scanString, h]

theorem scanString_plain {c : Char} (hquote : c ≠ '"') (hslash : c ≠ '\\')
    (hcontrol : ¬ c.toNat < 0x20) (cs : List Char) :
    scanString (c :: cs) = prepend (.char c) (scanString cs) := by
  rw [scanString]
  · simp [hcontrol, hslash]
  · exact hquote
  · exact fun _ _ _ _ _ h _ => hslash h
  · exact fun _ _ h _ => hslash h

theorem hex4?_digitChar {n : Nat} (h : n < 0x20) :
    hex4? '0' '0' (Nat.digitChar (n / 16)) (Nat.digitChar (n % 16)) = some n := by
  have hall : ∀ n < 0x20,
      hex4? '0' '0' (Nat.digitChar (n / 16)) (Nat.digitChar (n % 16)) = some n := by decide
  exact hall n h

theorem scanString_escape (c : Char) (cs : List Char) :
    scanString (escape c ++ cs) = prepend (partOf c) (scanString cs) := by
  by_cases hletter : c ∈ ['"', '\\', '\x08', '\x0c', '\n', '\r', '\t']
  · simp only [List.mem_cons, List.not_mem_nil, or_false] at hletter
    rcases hletter with rfl | rfl | rfl | rfl | rfl | rfl | rfl <;>
      exact scanString_letter (by decide) rfl cs
  · simp only [List.mem_cons, List.not_mem_nil, or_false, not_or] at hletter
    obtain ⟨hquote, hslash, hb, hf, hn, hr, ht⟩ := hletter
    by_cases hcontrol : c.toNat < 0x20
    · have hescape : escape c = ['\\', 'u', '0', '0', Nat.digitChar (c.toNat / 16),
          Nat.digitChar (c.toNat % 16)] := by
        simp [escape, hquote, hslash, hb, hf, hn, hr, ht, hcontrol]
      have hpart : partOf c = .unit c.toNat := by
        simp [partOf, hcontrol, hb, hf, hn, hr, ht]
      rw [hescape, hpart]
      exact scanString_unit (hex4?_digitChar hcontrol) cs
    · have hescape : escape c = [c] := by
        simp [escape, hquote, hslash, hb, hf, hn, hr, ht, hcontrol]
      have hpart : partOf c = .char c := by
        simp [partOf, hcontrol]
      rw [hescape, hpart]
      exact scanString_plain hquote hslash hcontrol cs

/-! ## Texts -/

/-- Reading stops at the closing quotation mark: within the text there is none that is not
escaped. -/
theorem scanString_quoted (cs rest : List Char) :
    scanString (cs.flatMap escape ++ '"' :: rest) = some (cs.map partOf, rest) := by
  induction cs with
  | nil => rfl
  | cons c cs ih =>
    rw [List.flatMap_cons, List.append_assoc, scanString_escape, ih]
    rfl

theorem joinParts_parts (cs : List Char) : joinParts (cs.map partOf) = some cs := by
  induction cs with
  | nil => rfl
  | cons c cs ih =>
    rw [List.map_cons, partOf]
    split
    · -- A control character is no half of a pair of units.
      rename_i hcontrol
      have hlow : isLowSurrogate c.toNat = false := by simp [isLowSurrogate]; omega
      have hhigh : isHighSurrogate c.toNat = false := by simp [isHighSurrogate]; omega
      unfold joinParts
      simp [hlow, hhigh, ih]
    · rw [joinParts, ih]
      rfl

theorem textOf?_parts (s : String) : textOf? (s.toList.map partOf) = some s := by
  rw [textOf?, joinParts_parts]
  simp

end StructureLint.Json
