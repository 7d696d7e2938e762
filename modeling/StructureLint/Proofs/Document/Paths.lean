import Mathlib.Data.List.Basic
import StructureLint.Document.Path
/-!
# What a path says

A step of a path names one child: the only one of its name, or one of several by its place among
them (`child?`). So the steps of a path can be walked down from the root (`locate?`). The step that
the library writes for a child leads to this child (`child?_segment`).

The text of a path gives the steps back as long as no name has a colon, which begins a place, or an
angle bracket, which stands between two steps (`segments_of_elementPath`).
-/

namespace StructureLint.Document

variable {doc : Document}

/-! ## Walking a path -/

/-- The child that a step names: the only one of the name, or the one at the place given among two
or more of them. -/
def child? (doc : Document) (p : NodeId) (s : Segment) : Option NodeId :=
  let same := doc.namedChildren p s.name
  match s.place with
  | none => if same.length = 1 then same.head? else none
  | some k => if 1 ≤ k ∧ 2 ≤ same.length then same[k - 1]? else none

/-- The element to which a path leads. Its first step names the root. -/
def locate? (doc : Document) : List Segment → Option NodeId
  | [] => none
  | s :: ss => if s = ⟨doc.shownName doc.root, none⟩ then ss.foldlM doc.child? doc.root else none

theorem locate?_append {ss : List Segment} (hss : ss ≠ []) (s : Segment) :
    doc.locate? (ss ++ [s]) = (doc.locate? ss).bind fun p => doc.child? p s := by
  obtain ⟨u, us, rfl⟩ := List.exists_cons_of_ne_nil hss
  rw [List.cons_append, locate?, locate?]
  split
  · rw [List.foldlM_append]
    cases us.foldlM doc.child? doc.root <;> simp
  · rfl

theorem mem_namedChildren {p c : NodeId} {name : String} :
    c ∈ doc.namedChildren p name ↔ c ∈ doc.children p ∧ doc.localName c = some name := by
  simp [namedChildren]

theorem segment_name (n : NodeId) : (doc.segment n).name = doc.shownName n := by
  rw [segment]
  cases doc.parent n with
  | none => rfl
  | some p =>
    dsimp only
    split <;> rfl

theorem segment_of_root {n : NodeId} (h : doc.parent n = none) :
    doc.segment n = ⟨doc.shownName n, none⟩ := by
  simp [segment, h]

/-- The step written for a child leads to it. -/
theorem child?_segment {p c : NodeId} {name : String} (hp : doc.parent c = some p)
    (hc : c ∈ doc.children p) (hname : doc.localName c = some name) :
    doc.child? p (doc.segment c) = some c := by
  have hmem : c ∈ doc.namedChildren p name := mem_namedChildren.2 ⟨hc, hname⟩
  have hshown : doc.shownName c = name := by simp [shownName, hname]
  by_cases hlen : 1 < (doc.namedChildren p name).length
  · have hsegment : doc.segment c = ⟨name, some ((doc.namedChildren p name).idxOf c + 1)⟩ := by
      simp [segment, hp, hshown, hlen, hmem]
    rw [hsegment]
    simp only [child?]
    rw [if_pos ⟨Nat.succ_pos _, hlen⟩, Nat.add_sub_cancel, List.getElem?_idxOf hmem]
  · have hsegment : doc.segment c = ⟨name, none⟩ := by
      simp [segment, hp, hshown, hlen]
    obtain ⟨d, hd⟩ := List.length_eq_one_iff.1
      (Nat.le_antisymm (Nat.le_of_not_lt hlen) (List.length_pos_of_mem hmem))
    rw [hd, List.mem_singleton] at hmem
    rw [hsegment, hmem]
    simp [child?, hd]

/-! ## The text of a path -/

/-- A name that keeps apart from the marks of a path. -/
def Plain (name : String) : Prop :=
  ':' ∉ name.toList ∧ '>' ∉ name.toList

instance : DecidablePred Plain := fun _ => inferInstanceAs (Decidable (_ ∧ _))

theorem append_cons_inj {α : Type} {a : α} {xs ys rest rest' : List α} (hx : a ∉ xs) (hy : a ∉ ys)
    (h : xs ++ a :: rest = ys ++ a :: rest') : xs = ys ∧ rest = rest' := by
  induction xs generalizing ys with
  | nil =>
    cases ys with
    | nil => exact ⟨rfl, (List.cons.inj h).2⟩
    | cons y ys => exact absurd (List.mem_cons.2 (.inl (List.cons.inj h).1)) hy
  | cons x xs ih =>
    cases ys with
    | nil => exact absurd (List.mem_cons.2 (.inl (List.cons.inj h).1.symm)) hx
    | cons y ys =>
      rw [List.cons_append, List.cons_append, List.cons.injEq] at h
      obtain ⟨rfl, h⟩ := h
      obtain ⟨rfl, hrest⟩ := ih (fun hm => hx (List.mem_cons_of_mem _ hm))
        (fun hm => hy (List.mem_cons_of_mem _ hm)) h
      exact ⟨rfl, hrest⟩

namespace Segment

variable {name name' : String} {s s' : Segment}

theorem toList_display_place (name : String) (k : Nat) :
    (Segment.mk name (some k)).display.toList =
      name.toList ++ ':' :: ("nth-of-type(".toList ++ (Nat.toDigits 10 k ++ [')'])) := by
  simp [display]

theorem gt_notMem_display (h : Plain s.name) : '>' ∉ s.display.toList := by
  obtain ⟨name, place⟩ := s
  cases place with
  | none => exact h.2
  | some k =>
    have hdigits : '>' ∉ Nat.toDigits 10 k := fun hm =>
      absurd (Nat.isDigit_of_mem_toDigits (by decide) (by decide) hm) (by decide)
    rw [toList_display_place]
    simp [h.2, hdigits]

theorem display_place_ne (h' : Plain name') (k : Nat) :
    (Segment.mk name (some k)).display ≠ (Segment.mk name' none).display := by
  intro heq
  have hlist := congrArg String.toList heq
  rw [toList_display_place] at hlist
  refine h'.1 ?_
  rw [← show (Segment.mk name' none).display = name' from rfl, ← hlist]
  simp

theorem display_inj (h : Plain s.name) (h' : Plain s'.name) (heq : s.display = s'.display) :
    s = s' := by
  obtain ⟨name, place⟩ := s
  obtain ⟨name', place'⟩ := s'
  cases place with
  | none =>
    cases place' with
    | none => exact congrArg (Segment.mk · none) heq
    | some k => exact absurd heq.symm (display_place_ne h k)
  | some k =>
    cases place' with
    | none => exact absurd heq (display_place_ne h' k)
    | some k' =>
      have hlist := congrArg String.toList heq
      rw [toList_display_place, toList_display_place] at hlist
      obtain ⟨hname, hrest⟩ := append_cons_inj h.1 h'.1 hlist
      have hdigits := (List.append_inj' (List.append_inj hrest rfl).2 rfl).1
      have hk := congrArg (Nat.ofDigitChars 10 · 0) hdigits
      simp only [Nat.ofDigitChars_ten_toDigits] at hk
      obtain rfl : name = name' := String.toList_inj.1 hname
      rw [hk]

end Segment

/-- Each step but the last is followed by a blank and an angle bracket. -/
theorem toList_path (x x' : String) (rest : List String) :
    (" > ".intercalate (x :: x' :: rest)).toList =
      (x.toList ++ [' ']) ++ '>' :: ' ' :: (" > ".intercalate (x' :: rest)).toList := by
  simp

theorem gt_mem_path (x x' : String) (rest : List String) :
    '>' ∈ (" > ".intercalate (x :: x' :: rest)).toList := by
  simp

/-- The texts of two lists of steps differ if the lists do, where all names are plain. -/
theorem path_inj {ss ss' : List Segment} (h : ∀ s ∈ ss, Plain s.name)
    (h' : ∀ s ∈ ss', Plain s.name) (hne : ss ≠ []) (hne' : ss' ≠ [])
    (heq : " > ".intercalate (ss.map Segment.display) =
      " > ".intercalate (ss'.map Segment.display)) : ss = ss' := by
  induction ss generalizing ss' with
  | nil => exact absurd rfl hne
  | cons s ss ih =>
    -- A step has no angle bracket in its text, so the first one of a path ends its first step.
    obtain ⟨s', ss', rfl⟩ := List.exists_cons_of_ne_nil hne'
    have hs := h s (by simp)
    have hs' := h' s' (by simp)
    have hgt := Segment.gt_notMem_display hs
    have hgt' := Segment.gt_notMem_display hs'
    cases ss with
    | nil =>
      cases ss' with
      | nil =>
        simp only [List.map_cons, List.map_nil, String.intercalate_singleton] at heq
        rw [Segment.display_inj hs hs' heq]
      | cons u' us' =>
        refine absurd (gt_mem_path s'.display u'.display (us'.map Segment.display)) ?_
        rw [← List.map_cons, ← List.map_cons, ← heq]
        simpa using hgt
    | cons u us =>
      cases ss' with
      | nil =>
        refine absurd (gt_mem_path s.display u.display (us.map Segment.display)) ?_
        rw [← List.map_cons, ← List.map_cons, heq]
        simpa using hgt'
      | cons u' us' =>
        have hlist := congrArg String.toList heq
        simp only [List.map_cons, toList_path] at hlist
        obtain ⟨hhead, hrest⟩ := append_cons_inj (by simpa using hgt) (by simpa using hgt') hlist
        have hhead := String.toList_inj.1 (List.append_inj' hhead rfl).1
        have hrest := String.toList_inj.1 (List.cons.inj hrest).2
        have htail : u :: us = u' :: us' :=
          ih (fun z hz => h z (List.mem_cons_of_mem _ hz))
            (fun z hz => h' z (List.mem_cons_of_mem _ hz)) (by simp) (by simp) hrest
        rw [Segment.display_inj hs hs' hhead, htail]

theorem segments_ne_nil (n : NodeId) : doc.segments n ≠ [] := by
  rw [segments, ancestry]
  cases doc.parent n <;> simp

/-- Where all names are plain, the text of a path gives its steps back. -/
theorem segments_of_elementPath {a b : NodeId} (ha : ∀ s ∈ doc.segments a, Plain s.name)
    (hb : ∀ s ∈ doc.segments b, Plain s.name) (h : doc.elementPath a = doc.elementPath b) :
    doc.segments a = doc.segments b :=
  path_inj ha hb (segments_ne_nil a) (segments_ne_nil b) h

end StructureLint.Document
