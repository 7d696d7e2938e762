import StructureLint.Files.Basic
/-!
# Files to which others are added

Where nothing is taken away or replaced (`Grows`), a path that leads to something leads there still
(`Grows.resolve`), and reading a file gives what it gave before, be it only an error (`Grows.read`).
What was missing may be there afterwards.

A text written where nothing was makes the files grow (`grows_put`).
-/

namespace StructureLint.Files

variable {fs fs' fs'' : Files} {place : Place} {entry : Entry} {path : String}

theorem at?_put (p : Place) :
    (fs.put place entry).at? p =
      if p ≠ [] ∧ key p = key place then some entry else fs.at? p := by
  unfold at?
  cases p with
  | nil => simp
  | cons c cs =>
    rw [entry_put]
    simp [eq_comm]

/-- Everything that is there stays there, and the program works in the same directory. -/
structure Grows (fs fs' : Files) : Prop where
  working : fs'.working = fs.working
  kept : ∀ place entry, fs.at? place = some entry → fs'.at? place = some entry

namespace Grows

theorem refl (fs : Files) : Grows fs fs :=
  ⟨rfl, fun _ _ h => h⟩

theorem trans (h : Grows fs fs') (h' : Grows fs' fs'') : Grows fs fs'' :=
  ⟨h'.working.trans h.working, fun place entry he => h'.kept place entry (h.kept place entry he)⟩

theorem follow (h : Grows fs fs') {directory : Place} {cs : List String}
    (hfound : fs.follow directory cs = .ok (.found place entry)) :
    fs'.follow directory cs = .ok (.found place entry) := by
  induction cs generalizing directory with
  | nil => exact hfound
  | cons c cs ih =>
    simp only [Files.follow] at hfound ⊢
    split at hfound
    · rw [if_pos ‹_›]
      exact ih hfound
    rw [if_neg ‹_›]
    split at hfound
    · rw [if_pos ‹_›]
      exact ih hfound
    rw [if_neg ‹_›]
    split at hfound
    · cases hfound
    rw [if_neg ‹_›]
    cases he : fs.at? (directory ++ [c]) with
    | none =>
      rw [he] at hfound
      dsimp only at hfound
      split at hfound <;> cases hfound
    | some e =>
      rw [he] at hfound
      rw [h.kept _ _ he]
      cases e with
      | directory => exact ih hfound
      | file content rights => exact hfound

theorem resolve (h : Grows fs fs') (hfound : fs.resolve path = .ok (.found place entry)) :
    fs'.resolve path = .ok (.found place entry) := by
  unfold Files.resolve at hfound ⊢
  split at hfound
  · cases hfound
  split at hfound
  · cases hfound
  rw [if_neg ‹_›, if_neg ‹_›, h.working]
  exact h.follow hfound

end Grows

theorem isFile_iff : fs.isFile path = true ↔
    ∃ place content rights, fs.resolve path = .ok (.found place (.file content rights)) := by
  unfold isFile
  split <;> simp_all

theorem Grows.isFile (h : Grows fs fs') (hfile : fs.isFile path = true) :
    fs'.isFile path = true := by
  obtain ⟨place, content, rights, hfound⟩ := isFile_iff.1 hfile
  exact isFile_iff.2 ⟨place, content, rights, h.resolve hfound⟩

/-- Whether a file may be read does not change either. -/
theorem Grows.read (h : Grows fs fs') (hfile : fs.isFile path = true) :
    fs'.read path = fs.read path := by
  obtain ⟨place, content, rights, hfound⟩ := isFile_iff.1 hfile
  rw [Files.read, Files.read, hfound, h.resolve hfound]

/-- Nothing is replaced by what is put at a place where nothing was. -/
theorem grows_put (hplace : place ≠ []) (hvacant : fs.at? place = none) :
    Grows fs (fs.put place entry) := by
  refine ⟨rfl, fun p e he => ?_⟩
  rw [at?_put, if_neg, he]
  rintro ⟨hp, hkey⟩
  -- Both places have the same key, so that nothing is at this one either.
  have hsame : fs.at? p = fs.at? place := by simp [at?, hp, hplace, hkey]
  rw [hsame, hvacant] at he
  cases he

end StructureLint.Files
