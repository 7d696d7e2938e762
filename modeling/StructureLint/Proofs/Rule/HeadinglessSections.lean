import StructureLint.Proofs.ElementTree.Description
import StructureLint.Proofs.Linter.Localization
/-!
# The sections that are reported

For the tree of a description the rule on headings can be read off the description: the positions
of its elements in pre-order are the ids, and an element offends if it is a section whose first
child is not a heading (`ElementSpec.Headingless`). `reports_headingless` says that these elements
are reported and no others, and that what is below an element is judged as it would be in a
document of its own.

The proof goes over the descriptions of the elements of a linked tree (`Linked.describe`). The test
of the rule is a test of the description (`hasNoHeading_iff`), and the elements of a description are
the descriptions of the elements (`elements_describe`).
-/

namespace StructureLint

namespace ElementSpec

mutual

/-- An element and all below it, in pre-order. -/
def elements : ElementSpec → List ElementSpec
  | ⟨name, attributes, children⟩ => ⟨name, attributes, children⟩ :: elementsAll children

/-- The elements of descriptions next to each other. -/
def elementsAll : List ElementSpec → List ElementSpec
  | [] => []
  | s :: ss => s.elements ++ elementsAll ss

end

/-- The name of a heading: `h` in either case and a digit from 1 to 6. -/
def HeadingName (name : String) : Prop :=
  ∃ h level, name.toList = [h, level] ∧ h ∈ ['h', 'H'] ∧
    level ∈ ['1', '2', '3', '4', '5', '6']

/-- A section, in letters of any case, that has no children or begins with another element than a
heading. -/
structure Headingless (s : ElementSpec) : Prop where
  isSection : Text.foldCase s.name = "section"
  firstChild : ∀ c ∈ s.children.head?, ¬ HeadingName c.name

/-! ## Elements and their positions -/

theorem elements_eq (s : ElementSpec) : s.elements = s :: elementsAll s.children := by
  obtain ⟨name, attributes, children⟩ := s
  rw [elements]

theorem elementsAll_eq_flatMap (ss : List ElementSpec) : elementsAll ss = ss.flatMap elements := by
  induction ss with
  | nil => rw [elementsAll, List.flatMap_nil]
  | cons s ss ih => rw [elementsAll, ih, List.flatMap_cons]

mutual

theorem length_elements : ∀ s : ElementSpec, s.elements.length = s.size
  | ⟨name, attributes, children⟩ => by
    rw [elements, List.length_cons, length_elementsAll children, size, Nat.add_comm]

theorem length_elementsAll : ∀ ss : List ElementSpec, (elementsAll ss).length = sizes ss
  | [] => rfl
  | s :: ss => by
    rw [elementsAll, List.length_append, length_elements s, length_elementsAll ss, sizes]

end

open ElementTree (HasAt)

mutual

/-- What is below an element is listed from its own position on. -/
theorem hasAt_elements : ∀ (s : ElementSpec) (i : Nat) {e : ElementSpec},
    s.elements[i]? = some e → HasAt s.elements i e.elements
  | ⟨name, attributes, children⟩, 0, e, h => by
    rw [elements, List.getElem?_cons_zero] at h
    cases h
    exact HasAt.all _
  | ⟨name, attributes, children⟩, i + 1, e, h => by
    rw [elements, List.getElem?_cons_succ] at h
    have hat := hasAt_elementsAll children i h
    intro j a ha
    rw [elements, Nat.add_right_comm, List.getElem?_cons_succ]
    exact hat j a ha

theorem hasAt_elementsAll : ∀ (ss : List ElementSpec) (i : Nat) {e : ElementSpec},
    (elementsAll ss)[i]? = some e → HasAt (elementsAll ss) i e.elements
  | [], i, e, h => by cases h
  | s :: ss, i, e, h => by
    rw [elementsAll] at h ⊢
    intro j a ha
    rcases Nat.lt_or_ge i s.elements.length with hi | hi
    · rw [List.getElem?_append_left hi] at h
      have hat := hasAt_elements s i h j a ha
      rw [List.getElem?_append_left (List.getElem?_eq_some_iff.1 hat).1, hat]
    · rw [List.getElem?_append_right hi] at h
      have hat := hasAt_elementsAll ss _ h j a ha
      rw [List.getElem?_append_right (Nat.le_add_right_of_le hi), Nat.sub_add_comm hi, hat]

end

/-- The element at a position below another one is found in that one, counted from there. -/
theorem getElem?_elements_add {s e : ElementSpec} {i j : Nat} (h : s.elements[i]? = some e)
    (hj : j < e.size) : s.elements[i + j]? = e.elements[j]? := by
  rw [← length_elements] at hj
  rw [List.getElem?_eq_getElem hj]
  exact hasAt_elements s i h j _ (List.getElem?_eq_getElem hj)

end ElementSpec

/-! ## The test on a description -/

theorem level_iff {c : Char} :
    ('1' ≤ c ∧ c ≤ '6') ↔ c ∈ ['1', '2', '3', '4', '5', '6'] := by
  constructor
  · rintro ⟨hlow, hhigh⟩
    have hlow : 49 ≤ c.toNat := hlow
    have hhigh : c.toNat ≤ 54 := hhigh
    have hcode : c.toNat = 49 ∨ c.toNat = 50 ∨ c.toNat = 51 ∨ c.toNat = 52 ∨ c.toNat = 53 ∨
        c.toNat = 54 := by omega
    rw [← Char.ofNat_toNat c]
    rcases hcode with h | h | h | h | h | h <;> rw [h] <;> decide
  · intro h
    simp only [List.mem_cons, List.not_mem_nil, or_false] at h
    rcases h with rfl | rfl | rfl | rfl | rfl | rfl <;> decide

theorem isHeading_iff_headingName (name : String) :
    Document.isHeading name = true ↔ ElementSpec.HeadingName name := by
  unfold Document.isHeading ElementSpec.HeadingName
  match name.toList with
  | [] | [_] | _ :: _ :: _ :: _ => simp
  | [h, level] =>
    simp only [Bool.and_eq_true, Bool.or_eq_true, beq_iff_eq, decide_eq_true_eq, and_assoc,
      level_iff]
    simp

namespace ElementTree

variable {t : ElementTree}

namespace Linked

/-- The description of an element of the tree has its name. -/
theorem localName_eq (h : Linked t) {n : NodeId} (hn : n.index < t.size) :
    t.toDocument.localName n = some (h.describe n).name := by
  have he : t.get? n = some t.elements[n.index] := Array.getElem?_eq_getElem hn
  rw [h.describe_of_get? he]
  simp [toDocument, he]

theorem children_describe (h : Linked t) (n : NodeId) :
    (h.describe n).children = (t.toDocument.children n).map h.describe := by
  rw [describe]
  simp

theorem hasNoHeading_iff (h : Linked t) (n : NodeId) : t.toDocument.hasNoHeading n = true ↔
    ∀ c ∈ (h.describe n).children.head?, ¬ ElementSpec.HeadingName c.name := by
  rw [Document.hasNoHeading, firstElementChild_eq, h.children_describe, List.head?_map]
  cases hc : t.toDocument.children n with
  | nil => simp
  | cons c cs =>
    have hmem : c ∈ t.toDocument.children n := by simp [hc]
    simp [h.localName_eq (h.lt_size_of_mem_children hmem), ← isHeading_iff_headingName]

/-- The elements of the description are described by what the pre-order lists. -/
theorem elements_describe (h : Linked t) (n : NodeId) :
    (h.describe n).elements = (h.preorder n).map h.describe := by
  induction n using h.induction_up with
  | _ n ih =>
    rw [ElementSpec.elements_eq, ElementSpec.elementsAll_eq_flatMap, h.children_describe,
      h.listsPreorder n, List.map_cons, List.flatMap_map, List.map_flatMap, List.flatMap_def,
      List.flatMap_def, List.map_congr_left ih]

end Linked

theorem elements_eq_describe (s : ElementSpec) :
    s.elements = (List.range s.size).map fun i => (linked_ofSpec s).describe ⟨i⟩ := by
  obtain ⟨hdescribe, hpreorder⟩ := describe_ofSpec s
  have helements := (linked_ofSpec s).elements_describe root
  rw [hdescribe, hpreorder, List.map_map] at helements
  exact helements

end ElementTree

namespace HeadinglessSections

open ElementTree

/-- The selector of the rule asks for the name and nothing else. -/
theorem sections_eq (doc : Document) :
    sections doc = .ok (doc.descendants.filter fun n =>
      (doc.localName n).any (Text.foldCase · == "section")) := by
  have hfold : Text.foldCase "section" = "section" := by decide +kernel
  rw [sections, Document.query, parse_section]
  refine congrArg Except.ok (List.filter_congr fun n _ => ?_)
  cases hn : doc.localName n with
  | none => simp [Selector.matchesNode, Compound.matchesNode, hn]
  | some name =>
    simp [Selector.matchesNode, Compound.matchesNode, Compound.admits, hn, Text.sameFolded, hfold,
      BEq.comm]

/-- The elements that offend in the tree of a description. -/
theorem offenders_ofSpec (s : ElementSpec) :
    ∃ found, offenders (ofSpec s).toDocument = .ok found ∧
      found.Pairwise (·.index < ·.index) ∧
      ∀ n, n ∈ found ↔ ∃ e, s.elements[n.index]? = some e ∧ e.Headingless := by
  have hl := linked_ofSpec s
  have hfound := sections_eq (ofSpec s).toDocument
  refine ⟨_, by rw [offenders, hfound]; rfl, ?_, fun n => ?_⟩
  · refine ((List.Pairwise.filter _ ?_).filter _)
    rw [descendants_ofSpec, List.pairwise_map]
    exact List.pairwise_lt_range
  · rw [List.mem_filter, List.mem_filter, hl.hasNoHeading_iff, hl.descendants_eq,
      hl.mem_preorder_root, size_ofSpec]
    have hget : s.elements[n.index]? =
        if n.index < s.size then some (hl.describe n) else none := by
      rw [elements_eq_describe, List.getElem?_map]
      split <;> simp [*]
    rw [hget]
    constructor
    · rintro ⟨⟨hn, hname⟩, hfirst⟩
      rw [hl.localName_eq (by rwa [size_ofSpec])] at hname
      refine ⟨_, if_pos hn, ?_, hfirst⟩
      simpa using hname
    · rintro ⟨e, he, hsection, hfirst⟩
      split at he
      · cases he
        rename_i hn
        refine ⟨⟨hn, ?_⟩, hfirst⟩
        rw [hl.localName_eq (by rwa [size_ofSpec])]
        simpa using hsection
      · cases he

/-! ## What the rule says -/

theorem ofOffenders_of_either {catalog : Catalog} {ctx : RunContext}
    (h : catalog.contains ctx.lang = true ∨ catalog.contains ctx.defaultLang = true)
    (name : String) (found : List NodeId) :
    ∃ messages, catalog.getOr? ctx.lang ctx.defaultLang = some messages ∧
      Verdict.ofOffenders name catalog ctx found = .ok (Finding.of? name found messages) := by
  obtain ⟨messages, hresolve, hmessages⟩ :
      ∃ m, ctx.localize catalog = .ok m ∧ catalog.getOr? ctx.lang ctx.defaultLang = some m := by
    rcases h with h | h
    · obtain ⟨m, hm⟩ := Option.isSome_iff_exists.1 h
      exact ⟨m, by rw [RunContext.localize, Catalog.resolve, Catalog.get?, hm],
        (if_pos h).trans hm⟩
    · exact Catalog.resolve_of_contains h ctx.lang
  refine ⟨messages, hmessages, ?_⟩
  unfold Verdict.ofOffenders
  cases found with
  | nil => rfl
  | cons n ns => simp [hresolve]

/-- The rule reports the element of this id in the tree of a description. -/
def Reports (catalog : Catalog) (ctx : RunContext) (s : ElementSpec) (n : NodeId) : Prop :=
  ∃ f, (rule catalog).evaluate ctx (ofSpec s).toDocument = .ok (some f) ∧ n ∈ f.offendingElements

theorem evaluate_ofSpec {catalog : Catalog} {ctx : RunContext}
    (h : catalog.contains ctx.lang = true ∨ catalog.contains ctx.defaultLang = true)
    (s : ElementSpec) :
    ∃ found messages, catalog.getOr? ctx.lang ctx.defaultLang = some messages ∧
      (rule catalog).evaluate ctx (ofSpec s).toDocument =
        .ok (Finding.of? "no-headingless-sections" found messages) ∧
      found.Pairwise (·.index < ·.index) ∧
      ∀ n, n ∈ found ↔ ∃ e, s.elements[n.index]? = some e ∧ e.Headingless := by
  obtain ⟨found, hoffenders, hsorted, hmem⟩ := offenders_ofSpec s
  obtain ⟨messages, hmessages, hverdict⟩ := ofOffenders_of_either h name found
  refine ⟨found, messages, hmessages, ?_, hsorted, hmem⟩
  show evaluate catalog ctx _ = _
  rw [evaluate, hoffenders]
  exact hverdict

theorem reports_iff {catalog : Catalog} {ctx : RunContext}
    (h : catalog.contains ctx.lang = true ∨ catalog.contains ctx.defaultLang = true)
    {s : ElementSpec} {n : NodeId} :
    Reports catalog ctx s n ↔ ∃ e, s.elements[n.index]? = some e ∧ e.Headingless := by
  obtain ⟨found, messages, -, hverdict, -, hmem⟩ := evaluate_ofSpec h s
  rw [← hmem, Reports, hverdict, Finding.of?]
  constructor
  · rintro ⟨f, hf, hn⟩
    split at hf
    · cases hf
    · cases hf
      exact hn
  · intro hn
    rw [dif_neg (List.ne_nil_of_mem hn)]
    exact ⟨_, rfl, hn⟩

/-- In the tree of a description the rule reports exactly the sections that do not begin with a
heading, in increasing order, in the language asked for or the default one. Below an element it
reports as in a document of its own. -/
theorem reports_headingless (s : ElementSpec) {catalog : Catalog} {ctx : RunContext}
    (h : catalog.contains ctx.lang = true ∨ catalog.contains ctx.defaultLang = true) :
    (∃ found messages, catalog.getOr? ctx.lang ctx.defaultLang = some messages ∧
      (rule catalog).evaluate ctx (ofSpec s).toDocument =
        .ok (Finding.of? "no-headingless-sections" found messages) ∧
      found.Pairwise (·.index < ·.index) ∧
      ∀ n, n ∈ found ↔ ∃ e, s.elements[n.index]? = some e ∧ e.Headingless) ∧
    ((rule catalog).evaluate ctx (ofSpec s).toDocument = .ok none ↔
      ∀ e ∈ s.elements, ¬ e.Headingless) ∧
    ∀ i e, s.elements[i]? = some e → ∀ j < e.size,
      (Reports catalog ctx s ⟨i + j⟩ ↔ Reports catalog ctx e ⟨j⟩) := by
  obtain ⟨found, messages, hmessages, hverdict, hsorted, hmem⟩ := evaluate_ofSpec h s
  refine ⟨⟨found, messages, hmessages, hverdict, hsorted, hmem⟩, ?_, fun i e he j hj => ?_⟩
  · have hnone : Finding.of? "no-headingless-sections" found messages = none ↔ found = [] := by
      unfold Finding.of?
      split <;> simp [*]
    rw [hverdict, Except.ok.injEq, hnone, List.eq_nil_iff_forall_not_mem]
    constructor
    · intro hempty e he hoffends
      obtain ⟨i, hi⟩ := List.mem_iff_getElem?.1 he
      exact hempty ⟨i⟩ ((hmem ⟨i⟩).2 ⟨e, hi, hoffends⟩)
    · intro hall n hn
      obtain ⟨e, he, hoffends⟩ := (hmem n).1 hn
      exact hall e (List.mem_of_getElem? he) hoffends
  · rw [reports_iff h, reports_iff h, ElementSpec.getElem?_elements_add he hj]

/-- A section that begins with a heading, and in it one that begins with a paragraph and one that
is empty. -/
def nestedSections : ElementSpec :=
  { name := "body"
    children := [{ name := "SECTION"
                   children := [{ name := "H2" },
                     { name := "section", children := [{ name := "p" }, { name := "Section" }] }] }] }

theorem reports_headingless_nested :
    (HeadinglessSections.messages.contains "fr" = true ∨
      HeadinglessSections.messages.contains "en" = true) ∧
      nestedSections.elements[3]? =
        some { name := "section", children := [{ name := "p" }, { name := "Section" }] } ∧
      (∃ found messages, HeadinglessSections.messages.getOr? "fr" "en" = some messages ∧
        (rule HeadinglessSections.messages).evaluate { lang := "fr" }
          (ofSpec nestedSections).toDocument =
            .ok (Finding.of? "no-headingless-sections" found messages) ∧
        ⟨3⟩ ∈ found ∧ ⟨1⟩ ∉ found) ∧
      (Reports HeadinglessSections.messages { lang := "fr" } nestedSections ⟨3 + 2⟩ ↔
        Reports HeadinglessSections.messages { lang := "fr" }
          { name := "section", children := [{ name := "p" }, { name := "Section" }] } ⟨2⟩) := by
  let ctx : RunContext := { lang := "fr" }
  have hcatalog : HeadinglessSections.messages.contains ctx.lang = true ∨
      HeadinglessSections.messages.contains ctx.defaultLang = true := .inr (by decide +kernel)
  obtain ⟨⟨found, messages, hmessages, hverdict, -, hmem⟩, -, hbelow⟩ :=
    reports_headingless nestedSections hcatalog
  refine ⟨hcatalog, rfl, ⟨found, messages, hmessages, hverdict, ?_, ?_⟩, hbelow 3 _ rfl 2 ?_⟩
  · refine (hmem ⟨3⟩).2 ⟨_, rfl, by decide +kernel, ?_⟩
    rintro c hc ⟨h, level, hname, -, -⟩
    cases hc
    cases hname
  · intro hn
    obtain ⟨e, he, -, hfirst⟩ := (hmem ⟨1⟩).1 hn
    cases he
    exact hfirst _ rfl ⟨'H', '2', rfl, by decide, by decide⟩
  · decide

end HeadinglessSections

end StructureLint
