import Mathlib.Tactic.SplitIfs
/-!
# The order of texts is the order of their bytes

Texts are compared character by character, and characters by their code points. In UTF-8 the
encoding of a larger character is larger, and does not go on from that of a smaller one
(`encodeChar_lex`). So it makes no difference to compare the bytes instead (`lt_iff_bytes_lex`).
-/

namespace StructureLint.Text

/-- The bytes of a text in UTF-8. -/
def bytes (s : String) : List UInt8 :=
  s.toUTF8.data.toList

theorem bytes_ofList (cs : List Char) :
    bytes (String.ofList cs) = cs.flatMap String.utf8EncodeChar := by
  simp [bytes, List.utf8Encode]

theorem code_lt (c : Char) : c.val.toNat < 0x110000 := by
  rcases c.valid with h | ⟨-, h⟩
  · exact Nat.lt_trans h (by decide)
  · exact h

/-- Whatever follows, the encoding of the smaller character comes first. -/
theorem encodeChar_lex {c d : Char} (h : c < d) (s t : List UInt8) :
    List.Lex (· < ·) (String.utf8EncodeChar c ++ s) (String.utf8EncodeChar d ++ t) := by
  have hlt : c.val.toNat < d.val.toNat := h
  have hd := code_lt d
  simp only [String.utf8EncodeChar]
  generalize c.val.toNat = m at *
  generalize d.val.toNat = n at *
  have hfirst : n / 262144 ≤ 4 := by omega
  -- Of two encodings with different lengths the longer one has the larger first byte.
  split_ifs <;>
    simp only [List.cons_append, List.nil_append, List.cons_lex_cons_iff, UInt8.lt_iff_toNat_lt,
      ← UInt8.toNat_inj, UInt8.toNat_ofNat'] <;>
    simp (disch := omega) only [Nat.mod_eq_of_lt] <;>
    omega

theorem flatMap_encode_lex {cs ds : List Char} (h : List.Lex (· < ·) cs ds) :
    List.Lex (· < ·) (cs.flatMap String.utf8EncodeChar) (ds.flatMap String.utf8EncodeChar) := by
  induction h with
  | @nil d ds =>
    obtain ⟨b, bs, hb⟩ := List.exists_cons_of_ne_nil (String.utf8EncodeChar_ne_nil (c := d))
    rw [List.flatMap_cons, hb]
    exact .nil
  | cons _ ih =>
    rw [List.flatMap_cons, List.flatMap_cons]
    exact List.append_left_lt ih
  | rel h =>
    rw [List.flatMap_cons, List.flatMap_cons]
    exact encodeChar_lex h _ _

theorem bytes_lex_of_lt {a b : String} (h : a < b) : List.Lex (· < ·) (bytes a) (bytes b) := by
  have h : List.Lex (· < ·) a.toList b.toList := h
  rw [← String.ofList_toList (s := a), ← String.ofList_toList (s := b), bytes_ofList, bytes_ofList]
  exact flatMap_encode_lex h

/-- Texts are ordered as their bytes are. -/
theorem lt_iff_bytes_lex {a b : String} : a < b ↔ List.Lex (· < ·) (bytes a) (bytes b) := by
  refine ⟨bytes_lex_of_lt, fun h => Decidable.by_contra fun hge => ?_⟩
  rcases Decidable.em (b < a) with hgt | hle
  · exact List.lex_asymm (r := fun x y : UInt8 => x < y) UInt8.lt_asymm h (bytes_lex_of_lt hgt)
  · have heq : a = b := String.le_antisymm (String.not_lt.1 hle) (String.not_lt.1 hge)
    exact List.lex_irrefl UInt8.lt_irrefl (bytes b) (heq ▸ h)

end StructureLint.Text
