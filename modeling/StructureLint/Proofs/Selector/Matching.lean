import StructureLint.ElementTree.Basic
import StructureLint.Proofs.Selector.LetterCase
/-!
# What a selector depends on

A compound asks for a name up to the case of ASCII letters, and its conditions ask for ids, classes
and attributes as they are written. So documents that are the same up to the case of letters in
names (`Document.SameUpToNames`) are selected from alike (`select_eq`), while two conditions that
are met by the same elements everywhere are the same condition (`holds_iff_spelledOut`), and two
names are told apart by some document unless they are equal once folded (`admits_iff_foldCase`).
-/

namespace StructureLint

theorem foldCase_foldCase (s : String) : Text.foldCase (Text.foldCase s) = Text.foldCase s := by
  have hchar : ∀ c : Char, c.toLower.toLower = c.toLower := fun c => by
    rcases Selector.toLower_cases c.toLower with ⟨hcapital, -⟩ | ⟨-, hlower⟩
    · -- What becomes of a capital letter is no capital letter.
      rcases Selector.toLower_cases c with ⟨hc, hlower⟩ | ⟨hc, hlower⟩
      · omega
      · exact absurd (hlower ▸ hcapital) hc
    · exact hlower
  apply String.toList_inj.1
  simp [Text.foldCase, Function.comp_def, hchar]

/-- Names that are equal once folded, where there are names. -/
theorem folded_cases {a b : Option String} (h : a.map Text.foldCase = b.map Text.foldCase) :
    (a = none ∧ b = none) ∨
      ∃ s t, a = some s ∧ b = some t ∧ Text.foldCase s = Text.foldCase t := by
  match a, b with
  | none, none => exact .inl ⟨rfl, rfl⟩
  | some _, none | none, some _ => simp at h
  | some s, some t => exact .inr ⟨s, t, rfl, rfl, by simpa using h⟩

/-- Two documents with the same links and attributes, and with names that are equal once folded. -/
structure Document.SameUpToNames (doc doc' : Document) : Prop where
  root : doc.root = doc'.root
  localName : ∀ n, (doc.localName n).map Text.foldCase = (doc'.localName n).map Text.foldCase
  attr : doc.attr = doc'.attr
  parent : doc.parent = doc'.parent
  firstElementChild : doc.firstElementChild = doc'.firstElementChild
  nextElementSibling : doc.nextElementSibling = doc'.nextElementSibling
  size : doc.size = doc'.size
  children : doc.children = doc'.children

/-! ## Trees with other names -/

namespace ElementTree

/-- The tree with another name for each element. -/
def mapNames (t : ElementTree) (f : String → String) : ElementTree :=
  ⟨t.elements.map fun e => { e with localName := f e.localName }⟩

theorem get?_mapNames (t : ElementTree) (f : String → String) (n : NodeId) :
    (t.mapNames f).get? n = (t.get? n).map fun e => { e with localName := f e.localName } := by
  simp [mapNames, get?]

theorem nextSibling_mapNames (t : ElementTree) (f : String → String) (n : NodeId) :
    (t.mapNames f).nextSibling n = t.nextSibling n := by
  simp only [nextSibling, get?_mapNames]
  cases t.get? n with
  | none => rfl
  | some e =>
    cases hp : e.parent with
    | none => simp [hp]
    | some p => cases h : t.get? p <;> simp [hp, h]

/-- Names that are equal once folded make a document that is the same up to names. -/
theorem sameUpToNames_mapNames (t : ElementTree) {f : String → String}
    (hf : ∀ name, Text.foldCase (f name) = Text.foldCase name) :
    t.toDocument.SameUpToNames (t.mapNames f).toDocument where
  root := rfl
  localName n := by cases h : t.get? n <;> simp [toDocument, get?_mapNames, h, hf]
  attr := by funext n; cases h : t.get? n <;> simp [toDocument, get?_mapNames, h]
  parent := by funext n; cases h : t.get? n <;> simp [toDocument, get?_mapNames, h]
  firstElementChild := by funext n; cases h : t.get? n <;> simp [toDocument, get?_mapNames, h]
  nextElementSibling := by funext n; simp [toDocument, nextSibling_mapNames]
  size := by simp [toDocument, size, mapNames]
  children := by funext n; cases h : t.get? n <;> simp [toDocument, get?_mapNames, h]

end ElementTree

/-! ## Selecting from documents that are the same up to names -/

section SameUpToNames

variable {doc doc' : Document}

theorem walk_congr (h : doc.children = doc'.children) (steps : Nat) (stack : List NodeId) :
    doc.walk steps stack = doc'.walk steps stack := by
  induction steps generalizing stack with
  | zero => cases stack <;> rfl
  | succ steps ih =>
    match stack with
    | [] => simp
    | n :: stack => rw [Document.walk_succ, Document.walk_succ, h, ih]

theorem Document.SameUpToNames.descendants_eq (h : doc.SameUpToNames doc') :
    doc.descendants = doc'.descendants := by
  unfold descendants walkBound
  rw [walk_congr h.children, h.root, h.size]

theorem holds_congr (h : doc.attr = doc'.attr) (c : Condition) (n : NodeId) :
    c.holds doc n = c.holds doc' n := by
  cases c <;> simp [Condition.holds, h]

theorem admits_congr {c d : Compound} {name name' : String} (h : c.Alike d)
    (hname : Text.foldCase name = Text.foldCase name') : c.admits name = d.admits name' := by
  unfold Compound.admits
  rcases folded_cases h.names with ⟨hn, hn'⟩ | ⟨expected, expected', hn, hn', hfold⟩
  · rw [hn, hn']
  · simp only [hn, hn', Text.sameFolded, hfold, hname]

namespace Document.SameUpToNames

theorem compound_matches_eq (h : doc.SameUpToNames doc') {c d : Compound} (hcd : c.Alike d)
    (n : NodeId) : c.matchesNode doc n = d.matchesNode doc' n := by
  unfold Compound.matchesNode
  rcases folded_cases (h.localName n) with ⟨hn, hn'⟩ | ⟨name, name', hn, hn', hfold⟩
  · rw [hn, hn']
  · simp only [hn, hn', admits_congr hcd hfold, hcd.conditions, holds_congr h.attr]

theorem any_matches_eq (h : doc.SameUpToNames doc') {as bs : List Compound}
    (hs : List.Forall₂ Compound.Alike as bs) (n : NodeId) :
    as.any (·.matchesNode doc n) = bs.any (·.matchesNode doc' n) := by
  induction hs with
  | nil => rfl
  | cons hcd _ ih => rw [List.any_cons, List.any_cons, ih, h.compound_matches_eq hcd n]

theorem select_eq (h : doc.SameUpToNames doc') {s s' : Selector}
    (hs : List.Forall₂ Compound.Alike s.alternatives s'.alternatives) :
    doc.select s = doc'.select s' := by
  unfold select
  rw [h.descendants_eq]
  exact List.filter_congr fun n _ => h.any_matches_eq hs n

end Document.SameUpToNames

end SameUpToNames

/-! ## Telling names and conditions apart -/

/-- A document of one element with one attribute. -/
def soleElement (name key value : String) : Document :=
  (ElementTree.single name (KeyMap.ofList [(key, value)])).toDocument

theorem localName_soleElement (name key value : String) :
    (soleElement name key value).localName ⟨0⟩ = some name := rfl

theorem attr_soleElement (name key value k : String) :
    (soleElement name key value).attr ⟨0⟩ k =
      if key = k then some value else none := by
  change (KeyMap.ofList [(key, value)]).get? k = _
  simp [KeyMap.ofList, KeyMap.get?_insert]

/-- Two names are asked for alike just when they are equal once folded. -/
theorem admits_iff_foldCase (n n' : String) :
    (∀ doc e, Compound.matchesNode ⟨some n, []⟩ doc e = Compound.matchesNode ⟨some n', []⟩ doc e) ↔
      Text.foldCase n = Text.foldCase n' := by
  constructor
  · intro h
    have hn := h (soleElement n "" "") ⟨0⟩
    have hsame : Text.sameFolded n' n = true := by
      simpa [Compound.matchesNode, localName_soleElement, Compound.admits, Text.sameFolded_refl]
        using hn.symm
    exact (Text.sameFolded_iff.1 hsame).symm
  · intro h doc e
    unfold Compound.matchesNode
    cases doc.localName e with
    | none => rfl
    | some name => simp [Compound.admits, Text.sameFolded, h]

namespace Condition

/-- The condition with `#` spelled out as the attribute that it stands for. -/
def spelledOut : Condition → Condition
  | .id value => .attributeEquals "id" value
  | .className word => .className word
  | .hasAttribute name => .hasAttribute name
  | .attributeEquals name value => .attributeEquals name value

theorem holds_spelledOut (c : Condition) (doc : Document) (n : NodeId) :
    c.spelledOut.holds doc n = c.holds doc n := by
  cases c <;> rfl

end Condition

theorem foldr_consWord {w : List Char} (h : ∀ c ∈ w, Text.isAsciiBlank c = false) :
    w.foldr Text.consWord [[]] = [w] := by
  induction w with
  | nil => rfl
  | cons c w ih =>
    rw [List.foldr_cons, ih fun d hd => h d (by simp [hd])]
    simp [Text.consWord, h c (by simp)]

namespace Selector

open Grammar

theorem isAsciiBlank_of_isNameChar {c : Char} (h : isNameChar c = true) :
    Text.isAsciiBlank c = false := by
  refine Bool.eq_false_iff.2 fun hb => ?_
  simp only [Text.isAsciiBlank, Bool.or_eq_true, beq_iff_eq] at hb
  rcases hb with (((rfl | rfl) | rfl) | rfl) | rfl <;> exact absurd h (by decide)

/-- A name is its only word, also with a blank in front of it. -/
theorem words_name {n : List Char} (hn : Name n) :
    Text.words (String.ofList n) = [String.ofList n] ∧
      Text.words (String.ofList (' ' :: n)) = [String.ofList n] := by
  have hfold := foldr_consWord fun c hc => isAsciiBlank_of_isNameChar (hn.2 c hc)
  constructor
  · simp [Text.words, hfold, hn.1]
  · simp [Text.words, hfold, hn.1, Text.consWord, Text.isAsciiBlank]

/-- Whether a document of one element with this attribute meets a condition. -/
def MetBy (c : Condition) (key value : String) : Prop :=
  c.holds (soleElement "" key value) ⟨0⟩ = true

theorem metBy_attributeEquals {name expected key value : String} :
    MetBy (.attributeEquals name expected) key value ↔ key = name ∧ value = expected := by
  simp [MetBy, Condition.holds, attr_soleElement]

theorem metBy_hasAttribute {name key value : String} :
    MetBy (.hasAttribute name) key value ↔ key = name := by
  simp [MetBy, Condition.holds, attr_soleElement]

theorem metBy_className {word key value : String} :
    MetBy (.className word) key value ↔ key = "class" ∧ word ∈ Text.words value := by
  simp only [MetBy, Condition.holds, attr_soleElement]
  by_cases hk : key = "class" <;> simp [hk]

/-- A condition that can be written, spelled out, is of one of three kinds. -/
theorem spelledOut_cases {t : List Char} {c : Condition} (h : IsCondition t c) :
    (∃ name value, c.spelledOut = .attributeEquals name value) ∨
      (∃ name, c.spelledOut = .hasAttribute name) ∨
      ∃ n, Name n ∧ c.spelledOut = .className (String.ofList n) := by
  cases h with
  | id _ => exact .inl ⟨_, _, rfl⟩
  | className hn => exact .inr (.inr ⟨_, hn, rfl⟩)
  | hasAttribute _ _ _ => exact .inr (.inl ⟨_, rfl⟩)
  | attributeEquals _ _ _ _ _ _ => exact .inl ⟨_, _, rfl⟩

theorem append_ne_self (s : String) : s ++ "a" ≠ s := fun h => by
  simpa using congrArg String.length h

theorem hasAttribute_differs_attributeEquals {name name' value : String}
    (h : ∀ k v, MetBy (.hasAttribute name) k v ↔ MetBy (.attributeEquals name' value) k v) :
    False := by
  simp only [metBy_hasAttribute, metBy_attributeEquals] at h
  exact append_ne_self value ((h name _).1 rfl).2

theorem hasAttribute_differs_className {name word : String}
    (h : ∀ k v, MetBy (.hasAttribute name) k v ↔ MetBy (.className word) k v) : False := by
  simp only [metBy_hasAttribute, metBy_className] at h
  have : word ∈ Text.words "" := ((h name "").1 rfl).2
  simp [Text.words] at this

theorem attributeEquals_differs_className {name value : String} {n : List Char} (hn : Name n)
    (h : ∀ k v, MetBy (.attributeEquals name value) k v ↔
      MetBy (.className (String.ofList n)) k v) : False := by
  simp only [metBy_attributeEquals, metBy_className] at h
  obtain ⟨hplain, hspaced⟩ := words_name hn
  have h1 := ((h "class" _).2 ⟨rfl, hplain ▸ List.mem_singleton_self _⟩).2
  have h2 := ((h "class" _).2 ⟨rfl, hspaced ▸ List.mem_singleton_self _⟩).2
  have := String.ofList_injective (h2.trans h1.symm)
  simp at this

/-- Of the conditions that can be written, two are met by the same elements of all documents just
when they are equal once `#` is spelled out. -/
theorem holds_iff_spelledOut {t t' : List Char} {c c' : Condition} (ht : IsCondition t c)
    (ht' : IsCondition t' c') :
    (∀ doc n, c.holds doc n = c'.holds doc n) ↔ c.spelledOut = c'.spelledOut := by
  constructor
  · intro h
    have hmet : ∀ k v, MetBy c.spelledOut k v ↔ MetBy c'.spelledOut k v := fun k v => by
      rw [MetBy, MetBy, c.holds_spelledOut, c'.holds_spelledOut, h]
    rcases spelledOut_cases ht with ⟨a, v, hc⟩ | ⟨a, hc⟩ | ⟨n, hn, hc⟩ <;>
      rcases spelledOut_cases ht' with ⟨a', v', hc'⟩ | ⟨a', hc'⟩ | ⟨n', hn', hc'⟩ <;>
      rw [hc, hc'] at hmet ⊢
    · obtain ⟨rfl, rfl⟩ := metBy_attributeEquals.1 ((hmet a v).1 (by simp [metBy_attributeEquals]))
      rfl
    · exact (hasAttribute_differs_attributeEquals fun k v => (hmet k v).symm).elim
    · exact (attributeEquals_differs_className hn' hmet).elim
    · exact (hasAttribute_differs_attributeEquals hmet).elim
    · rw [metBy_hasAttribute.1 ((hmet a "").1 (metBy_hasAttribute.2 rfl))]
    · exact (hasAttribute_differs_className hmet).elim
    · exact (attributeEquals_differs_className hn fun k v => (hmet k v).symm).elim
    · exact (hasAttribute_differs_className fun k v => (hmet k v).symm).elim
    · have hword := (hmet "class" (String.ofList n)).1
        (metBy_className.2 ⟨rfl, by simp [(words_name hn).1]⟩)
      have hsame := (metBy_className.1 hword).2
      rw [(words_name hn).1, List.mem_singleton] at hsame
      rw [hsame]
  · intro h doc n
    rw [← c.holds_spelledOut, h, c'.holds_spelledOut]

end Selector

end StructureLint
