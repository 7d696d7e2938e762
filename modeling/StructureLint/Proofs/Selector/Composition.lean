import StructureLint.Proofs.ElementTree.DocumentOrder
import StructureLint.Proofs.Selector.Parse
/-!
# Selectors put together

Texts of selectors compose. A comma between two of them gives a selector for what either of them
finds; a compound followed at once by one that begins with a condition asks for what both ask for
(`texts_compose`). Either way it is enough to put derivations of the grammar together, since reading
follows the grammar.
-/

namespace StructureLint.Selector

open Grammar

/-! ## Derivations -/

theorem isList_append {s t : List Char} {as bs : List Compound} (hs : IsList s as)
    (ht : IsList t bs) : IsList (s ++ ',' :: t) (as ++ bs) := by
  induction hs with
  | last ha h hb => exact .cons ha h hb ht
  | cons ha h hb _ ih =>
    rw [List.append_assoc, List.cons_append]
    exact .cons ha h hb ih

theorem isConditions_append {s t : List Char} {cs ds : List Condition} (hs : IsConditions s cs)
    (ht : IsConditions t ds) : IsConditions (s ++ t) (cs ++ ds) := by
  induction hs with
  | nil => exact ht
  | cons h _ ih =>
    rw [List.append_assoc]
    exact .cons h ih

theorem isCompound_append {s t : List Char} {c : Compound} {ds : List Condition}
    (hs : IsCompound s c) (ht : IsConditions t ds) :
    IsCompound (s ++ t) ⟨c.localName, c.conditions ++ ds⟩ := by
  cases hs with
  | universal h => exact .universal (isConditions_append h ht)
  | named hn h =>
    rw [List.append_assoc]
    exact .named hn (isConditions_append h ht)
  | conditional h => exact .conditional (isConditions_append h ht)

theorem isList_single {cs : List Char} {c : Compound} (h : IsList cs [c]) :
    ∃ a t b, Blanks a ∧ IsCompound t c ∧ Blanks b ∧ cs = a ++ t ++ b := by
  cases h with
  | last ha h hb => exact ⟨_, _, _, ha, h, hb, rfl⟩
  | cons _ _ _ hr => cases hr

theorem isConditions_of_mark {x : Char} {r : List Char} {c : Compound} (hx : IsMark x)
    (h : IsCompound (x :: r) c) : c.localName = none ∧ IsConditions (x :: r) c.conditions := by
  generalize hcs : x :: r = cs at h
  cases h with
  | universal h => exact absurd (List.cons.inj hcs).1 hx.2.2
  | named hn h =>
    obtain ⟨y, s, rfl, hy⟩ := name_start hn
    have hname := hx.2.1
    rw [(List.cons.inj hcs).1, hy] at hname
    cases hname
  | conditional h => exact ⟨rfl, h⟩

/-- A compound that no blank follows takes the conditions that come next to its own. -/
theorem isList_attach {s t : List Char} {c d : Compound} (hs : IsList s [c]) (ht : IsList t [d])
    (hend : ∀ x ∈ s.getLast?, Text.isBlank x = false) (hmark : ∃ x ∈ t.head?, IsMark x) :
    IsList (s ++ t) [⟨c.localName, c.conditions ++ d.conditions⟩] ∧ d.localName = none := by
  obtain ⟨a, u, b, ha, hu, hb, rfl⟩ := isList_single hs
  obtain ⟨a', v, b', ha', hv, hb', rfl⟩ := isList_single ht
  have hb : b = [] := by
    rcases List.eq_nil_or_concat b with hnil | ⟨b₀, x, rfl⟩
    · exact hnil
    · have hblank := hb x (by simp)
      rw [hend x (by simp)] at hblank
      cases hblank
  obtain ⟨x, hx, hxmark⟩ := hmark
  have ha' : a' = [] := by
    rcases a' with - | ⟨y, a'⟩
    · rfl
    · cases hx
      have hblank := isBlank_of_startsCompound hxmark.1
      rw [ha' x (by simp)] at hblank
      cases hblank
  subst hb ha'
  obtain ⟨y, r, rfl, -⟩ := isCompound_start hv
  cases hx
  obtain ⟨hname, hconditions⟩ := isConditions_of_mark hxmark hv
  refine ⟨?_, hname⟩
  have hlist := IsList.last ha (isCompound_append hu hconditions) hb'
  simpa using hlist

/-! ## Matching -/

theorem matchesNode_append {u : Selector} {as bs : List Compound} (h : u.alternatives = as ++ bs)
    (doc : Document) (n : NodeId) : u.matchesNode doc n = true ↔
      as.any (·.matchesNode doc n) = true ∨ bs.any (·.matchesNode doc n) = true := by
  rw [matchesNode, h, List.any_append, Bool.or_eq_true]

theorem matchesNode_single {u : Selector} {c : Compound} (h : u.alternatives = [c])
    (doc : Document) (n : NodeId) : u.matchesNode doc n = c.matchesNode doc n := by
  simp [matchesNode, h]

/-- Without a name of its own, a compound adds nothing but its conditions. -/
theorem matchesNode_attach {c d : Compound} (h : d.localName = none) (doc : Document)
    (n : NodeId) : Compound.matchesNode ⟨c.localName, c.conditions ++ d.conditions⟩ doc n = true ↔
      c.matchesNode doc n = true ∧ d.matchesNode doc n = true := by
  unfold Compound.matchesNode
  cases doc.localName n with
  | none => simp
  | some name =>
    simp only [Compound.admits, h, List.all_append, Bool.and_eq_true, true_and]
    exact and_assoc.symm

theorem matchesNode_of_nameless (s : Selector) {doc : Document} {n : NodeId}
    (h : doc.localName n = none) : s.matchesNode doc n = false := by
  simp [matchesNode, Compound.matchesNode, h]

/-- What two selections from a list have found, in the order of the list. -/
structure Merges (order xs ys found : List NodeId) : Prop where
  sublist : found.Sublist order
  nodup : found.Nodup
  left : xs.Sublist found
  right : ys.Sublist found
  mem_iff : ∀ n, n ∈ found ↔ n ∈ xs ∨ n ∈ ys

theorem merges_select {u a b : Selector} {doc : Document} (hnodup : doc.descendants.Nodup)
    (h : ∀ n, u.matchesNode doc n = true ↔
      a.matchesNode doc n = true ∨ b.matchesNode doc n = true) :
    Merges doc.descendants (doc.select a) (doc.select b) (doc.select u) where
  sublist := List.filter_sublist
  nodup := hnodup.sublist List.filter_sublist
  left := List.monotone_filter_right _ fun n hn => (h n).2 (.inl hn)
  right := List.monotone_filter_right _ fun n hn => (h n).2 (.inr hn)
  mem_iff n := by simp [Document.select, h, and_or_left]

/-! ## Texts -/

/-- Two texts with a comma between them find what either finds. Two texts of one alternative each,
the second made of conditions, find side by side what both find. An element without a name matches
nothing. -/
theorem texts_compose :
    (∀ (s t : String) (a b : Selector), parse s = .ok a → parse t = .ok b →
      ∃ u, parse (s ++ "," ++ t) = .ok u ∧ u.alternatives = a.alternatives ++ b.alternatives ∧
        (∀ doc n, u.matchesNode doc n = true ↔
          a.matchesNode doc n = true ∨ b.matchesNode doc n = true) ∧
        ∀ tree : ElementTree, tree.Reachable → Merges tree.toDocument.descendants
          (tree.toDocument.select a) (tree.toDocument.select b) (tree.toDocument.select u)) ∧
    (∀ (s t : String) (a b : Selector), parse s = .ok a → parse t = .ok b →
      a.alternatives.length = 1 → b.alternatives.length = 1 →
      (∀ x ∈ s.toList.getLast?, Text.isBlank x = false) →
      (∃ x ∈ t.toList.head?, x ∈ ['#', '.', '[']) →
      ∃ u, parse (s ++ t) = .ok u ∧ ∀ doc n, u.matchesNode doc n = true ↔
        a.matchesNode doc n = true ∧ b.matchesNode doc n = true) ∧
    (∀ (s : Selector) (doc : Document) (n : NodeId), doc.localName n = none →
      s.matchesNode doc n = false) ∧
    ∀ (s : Selector) (tree : ElementTree) (n : NodeId), tree.has n = false →
      s.matchesNode tree.toDocument n = false := by
  refine ⟨?_, ?_, fun s _ _ => s.matchesNode_of_nameless, ?_⟩
  · intro s t a b ha hb
    have hlist : IsList (s ++ "," ++ t).toList (a.alternatives ++ b.alternatives) := by
      simpa using isList_append (of_parse_eq_ok ha).1 (of_parse_eq_ok hb).1
    have hmatch : ∀ doc n, matchesNode ⟨Text.trim (s ++ "," ++ t), a.alternatives ++ b.alternatives⟩
        doc n = true ↔ a.matchesNode doc n = true ∨ b.matchesNode doc n = true :=
      matchesNode_append rfl
    refine ⟨_, parse_of_isList hlist, rfl, hmatch, ?_⟩
    intro tree htree
    have hlinked := ElementTree.reachable_linked htree
    apply merges_select _ (hmatch _)
    rw [hlinked.descendants_eq]
    exact hlinked.nodup_preorder_root
  · intro s t a b ha hb hlena hlenb hend hstart
    obtain ⟨c, hc⟩ := List.length_eq_one_iff.1 hlena
    obtain ⟨d, hd⟩ := List.length_eq_one_iff.1 hlenb
    have hmark : ∃ x ∈ t.toList.head?, IsMark x := by
      obtain ⟨x, hx, hmem⟩ := hstart
      refine ⟨x, hx, ?_⟩
      simp only [List.mem_cons, List.not_mem_nil, or_false] at hmem
      rcases hmem with rfl | rfl | rfl <;> unfold IsMark <;> decide
    obtain ⟨hlist, hname⟩ := isList_attach (hc ▸ (of_parse_eq_ok ha).1)
      (hd ▸ (of_parse_eq_ok hb).1) hend hmark
    refine ⟨_, parse_of_isList (by simpa using hlist), fun doc n => ?_⟩
    rw [matchesNode_single rfl, matchesNode_single hc, matchesNode_single hd]
    exact matchesNode_attach hname doc n
  · intro s tree n hn
    apply matchesNode_of_nameless
    have hsize : tree.size ≤ n.index := by simpa [ElementTree.has] using hn
    simp [ElementTree.toDocument, ElementTree.get?_of_size_le hsize]

/-- A name and a condition, next to each other and with a comma between them. -/
theorem texts_compose_sectionTop :
    (∃ u, parse "section,#top" = .ok u ∧
      u.alternatives = [⟨some "section", []⟩, ⟨none, [.id "top"]⟩] ∧
      Merges [⟨0⟩] [⟨0⟩] [] ((ElementTree.single "section" ∅).toDocument.select u)) ∧
    (∃ u, parse "section#top" = .ok u ∧ ∀ doc n, u.matchesNode doc n = true ↔
      matchesNode ⟨"section", [⟨some "section", []⟩]⟩ doc n = true ∧
        matchesNode ⟨"#top", [⟨none, [.id "top"]⟩]⟩ doc n = true) ∧
    matchesNode ⟨"*", [⟨none, []⟩]⟩ (ElementTree.single "section" ∅).toDocument ⟨1⟩ = false := by
  have hname : parse "section" = .ok ⟨"section", [⟨some "section", []⟩]⟩ :=
    parse_of_name ⟨by decide, List.all_eq_true.1 (by decide)⟩
  have hid : parse "#top" = .ok ⟨"#top", [⟨none, [.id "top"]⟩]⟩ := by
    have htop : Name ['t', 'o', 'p'] := ⟨by decide, List.all_eq_true.1 (by decide)⟩
    have hlist : IsList "#top".toList [⟨none, [.id "top"]⟩] :=
      .last (a := []) (b := []) (by simp [Blanks]) (.conditional (.cons (.id htop) .nil))
        (by simp [Blanks])
    exact parse_of_isList hlist
  obtain ⟨hlist, hattach, -, hforeign⟩ := texts_compose
  obtain ⟨u, hu, halternatives, hmatch, hmerge⟩ := hlist _ _ _ _ hname hid
  have hreach : (ElementTree.single "section" ∅).Reachable := ⟨"section", [], rfl⟩
  have hsection : (ElementTree.single "section" ∅).toDocument.select
      ⟨"section", [⟨some "section", []⟩]⟩ = [⟨0⟩] := by decide +kernel
  have htop : (ElementTree.single "section" ∅).toDocument.select
      ⟨"#top", [⟨none, [.id "top"]⟩]⟩ = [] := by decide +kernel
  have hmerges := hmerge _ hreach
  rw [hsection, htop] at hmerges
  have hlast : "section".toList.getLast? = some 'n' := by decide
  have hend : ∀ x ∈ "section".toList.getLast?, Text.isBlank x = false := by
    rw [hlast]
    rintro _ ⟨⟩
    decide
  exact ⟨⟨u, hu, halternatives, hmerges⟩,
    hattach _ _ _ _ hname hid rfl rfl hend ⟨'#', rfl, by decide⟩, hforeign _ _ _ rfl⟩

end StructureLint.Selector
