import StructureLint.Proofs.CommandLine.Status
import StructureLint.Proofs.Document.Paths
import StructureLint.Proofs.Rule.HeadinglessSections
/-!
# The lines of the compact form

In the compact form every offending element and every execution error is printed with a line break
after it. Names of elements are printed as they are, and a name may contain line breaks: each of
them, in the name of an offending element or of an element that it is in, makes a further line
(`Report.Tidy.lineBreaks_present`). Nothing else that is printed has line breaks.

So there is one line to a problem just when the names on the way to the offending elements are free
of line breaks (`compact_line_per_problem`), which they need not be
(`compact_line_per_problem_torn`).
-/

namespace StructureLint

/-- The number of line breaks in a text. -/
def lineBreaks (s : String) : Nat :=
  s.toList.count '\n'

/-- The number of line breaks in some texts together. -/
def lineBreaksIn (ls : List String) : Nat :=
  (ls.map lineBreaks).foldr (· + ·) 0

/-! ## Texts that are put together -/

theorem lineBreaks_append (s t : String) : lineBreaks (s ++ t) = lineBreaks s + lineBreaks t := by
  simp [lineBreaks]

theorem lineBreaks_eq_zero_iff {s : String} : lineBreaks s = 0 ↔ '\n' ∉ s.toList :=
  List.count_eq_zero

theorem lineBreaksIn_cons (s : String) (ls : List String) :
    lineBreaksIn (s :: ls) = lineBreaks s + lineBreaksIn ls := rfl

theorem lineBreaksIn_append (ls ls' : List String) :
    lineBreaksIn (ls ++ ls') = lineBreaksIn ls + lineBreaksIn ls' := by
  induction ls with
  | nil => exact (Nat.zero_add _).symm
  | cons s ls ih => rw [List.cons_append, lineBreaksIn_cons, lineBreaksIn_cons, ih, Nat.add_assoc]

theorem lineBreaksIn_eq_zero_iff {ls : List String} :
    lineBreaksIn ls = 0 ↔ ∀ s ∈ ls, lineBreaks s = 0 := by
  induction ls with
  | nil => simp [lineBreaksIn]
  | cons s ls ih => rw [lineBreaksIn_cons, Nat.add_eq_zero_iff, ih, List.forall_mem_cons]

theorem lineBreaksIn_congr {ls ls' : List String} (h : ls.map lineBreaks = ls'.map lineBreaks) :
    lineBreaksIn ls = lineBreaksIn ls' := by
  rw [lineBreaksIn, h, lineBreaksIn]

theorem lineBreaks_intercalate {separator : String} (h : lineBreaks separator = 0)
    (parts : List String) : lineBreaks (separator.intercalate parts) = lineBreaksIn parts := by
  induction parts with
  | nil => rfl
  | cons s parts ih =>
    cases parts with
    | nil => simp [lineBreaksIn]
    | cons t parts =>
      rw [String.intercalate_cons_cons, lineBreaks_append, lineBreaks_append, ih, h, Nat.add_zero,
        ← lineBreaksIn_cons]

theorem lineBreaks_natural (k : Nat) : lineBreaks (toString k) = 0 := by
  rw [lineBreaks_eq_zero_iff]
  intro h
  have hdigit := Nat.isDigit_of_mem_toDigits (b := 10) (n := k) (by decide) (by decide)
    (by simpa using h)
  exact absurd hdigit (by decide)

theorem Report.unlines_cons (s : String) (ls : List String) :
    unlines (s :: ls) = s ++ "\n" ++ unlines ls := by
  simp [unlines, String.join_cons]

theorem Report.lineBreaks_unlines (ls : List String) :
    lineBreaks (unlines ls) = ls.length + lineBreaksIn ls := by
  induction ls with
  | nil => rfl
  | cons s ls ih =>
    have hbreak : lineBreaks "\n" = 1 := by decide
    rw [unlines_cons, lineBreaks_append, lineBreaks_append, ih, hbreak, lineBreaksIn_cons,
      List.length_cons]
    omega

/-- Lines without line breaks are found again at the line breaks of the text. -/
theorem Report.splitOn_unlines {ls : List String} (h : ∀ s ∈ ls, lineBreaks s = 0) :
    (unlines ls).toList.splitOn '\n' = ls.map String.toList ++ [[]] := by
  induction ls with
  | nil => rfl
  | cons s ls ih =>
    have hs : '\n' ∉ s.toList := lineBreaks_eq_zero_iff.1 (h s (by simp))
    have htext : (unlines (s :: ls)).toList = s.toList ++ '\n' :: (unlines ls).toList := by
      simp [unlines_cons]
    rw [htext, List.splitOn_append_cons_self_of_not_mem hs, ih fun t ht => h t (by simp [ht])]
    rfl

/-! ## Paths -/

namespace Document

variable {doc : Document} {n : NodeId}

/-- No name on the way to an element has a line break. -/
def OneLine (doc : Document) (n : NodeId) : Prop :=
  ∀ s ∈ doc.segments n, '\n' ∉ s.name.toList

theorem Segment.lineBreaks_display (s : Segment) : lineBreaks s.display = lineBreaks s.name := by
  obtain ⟨name, place⟩ := s
  cases place with
  | none => rfl
  | some k =>
    have hopen : lineBreaks ":nth-of-type(" = 0 := by decide
    have hclose : lineBreaks ")" = 0 := by decide
    simp only [display, lineBreaks_append, lineBreaks_natural, hopen, hclose, Nat.add_zero]

/-- Only names bring line breaks into a path. -/
theorem lineBreaks_elementPath (doc : Document) (n : NodeId) :
    lineBreaks (doc.elementPath n) = lineBreaksIn ((doc.segments n).map (·.name)) := by
  rw [elementPath, lineBreaks_intercalate (by decide)]
  apply lineBreaksIn_congr
  rw [List.map_map, List.map_map]
  apply List.map_congr_left
  intro s _
  rw [Function.comp_apply, Function.comp_apply, Segment.lineBreaks_display]

theorem lineBreaks_elementPath_eq_zero_iff :
    lineBreaks (doc.elementPath n) = 0 ↔ doc.OneLine n := by
  rw [lineBreaks_elementPath, lineBreaksIn_eq_zero_iff, List.forall_mem_map]
  exact forall₂_congr fun s _ => lineBreaks_eq_zero_iff

end Document

/-! ## Reports -/

namespace Report

variable {r : Report} {doc : Document}

/-- The paths of the offending elements, in the order of the report. -/
def offendingPaths (r : Report) (doc : Document) : List String :=
  r.findings.flatMap fun f => f.offendingElements.map doc.elementPath

/-- Whatever is printed of a report in the compact form, apart from paths, is free of line
breaks. -/
structure Tidy (r : Report) : Prop where
  rule : ∀ f ∈ r.findings, lineBreaks f.rule = 0
  description : ∀ f ∈ r.findings, lineBreaks f.messages.description = 0
  error : ∀ e ∈ r.errors, lineBreaks e.display = 0

theorem length_compactLines (r : Report) (doc : Document) :
    (r.compactLines doc).length = r.totalOccurrences + r.errors.length := by
  have htotal (fs : List Finding) :
      (fs.flatMap fun f => f.offendingElements.map (problemLine doc f)).length =
        fs.foldr (·.occurrences + ·) 0 := by
    induction fs with
    | nil => rfl
    | cons f fs ih =>
      rw [List.flatMap_cons, List.length_append, List.length_map, ih]
      rfl
  rw [compactLines, List.length_append, List.length_map, htotal]
  rfl

theorem Tidy.lineBreaks_problemLine (h : r.Tidy) {f : Finding} (hf : f ∈ r.findings) (n : NodeId) :
    lineBreaks (problemLine doc f n) = lineBreaks (doc.elementPath n) := by
  have hopen : lineBreaks ": [" = 0 := by decide
  have hclose : lineBreaks "] " = 0 := by decide
  simp only [problemLine, lineBreaks_append, h.rule f hf, h.description f hf, hopen, hclose,
    Nat.add_zero]

theorem Tidy.lineBreaks_error (h : r.Tidy) {e : ExecutionError} (he : e ∈ r.errors) :
    lineBreaks ("error: " ++ e.display) = 0 := by
  have herror : lineBreaks "error: " = 0 := by decide
  rw [lineBreaks_append, herror, h.error e he]

theorem Tidy.lineBreaksIn_compactLines (h : r.Tidy) (doc : Document) :
    lineBreaksIn (r.compactLines doc) = lineBreaksIn (r.offendingPaths doc) := by
  have hfindings : lineBreaksIn
      (r.findings.flatMap fun f => f.offendingElements.map (problemLine doc f)) =
        lineBreaksIn (r.offendingPaths doc) := by
    apply lineBreaksIn_congr
    rw [offendingPaths, List.map_flatMap, List.map_flatMap]
    apply List.flatMap_congr
    intro f hf
    rw [List.map_map, List.map_map]
    apply List.map_congr_left
    intro n _
    rw [Function.comp_apply, Function.comp_apply, h.lineBreaks_problemLine hf]
  have herrors : lineBreaksIn (r.errors.map fun e => "error: " ++ e.display) = 0 := by
    rw [lineBreaksIn_eq_zero_iff, List.forall_mem_map]
    exact fun e he => h.lineBreaks_error he
  rw [compactLines, lineBreaksIn_append, hfindings, herrors, Nat.add_zero]

/-- The compact form has one line break to a problem and those in the paths. -/
theorem Tidy.lineBreaks_present (h : r.Tidy) (doc : Document) :
    lineBreaks (r.present doc .compact) =
      r.totalOccurrences + r.errors.length + lineBreaksIn (r.offendingPaths doc) := by
  rw [present, lines, lineBreaks_unlines, length_compactLines, h.lineBreaksIn_compactLines]

theorem lineBreaksIn_offendingPaths_eq_zero_iff : lineBreaksIn (r.offendingPaths doc) = 0 ↔
    ∀ f ∈ r.findings, ∀ n ∈ f.offendingElements, doc.OneLine n := by
  rw [lineBreaksIn_eq_zero_iff, offendingPaths]
  simp only [List.forall_mem_flatMap, List.forall_mem_map,
    Document.lineBreaks_elementPath_eq_zero_iff]

theorem Tidy.splitOn_present (h : r.Tidy)
    (hnames : ∀ f ∈ r.findings, ∀ n ∈ f.offendingElements, doc.OneLine n) :
    (r.present doc .compact).toList.splitOn '\n' =
      (r.compactLines doc).map String.toList ++ [[]] := by
  rw [present, lines]
  apply splitOn_unlines
  rw [← lineBreaksIn_eq_zero_iff, h.lineBreaksIn_compactLines]
  exact lineBreaksIn_offendingPaths_eq_zero_iff.2 hnames

end Report

/-! ## Built-in rules -/

theorem lineBreaks_name_of_builtIn {r : Rule} (h : r ∈ Rule.builtIn) : lineBreaks r.name = 0 := by
  cases List.mem_singleton.1 h
  decide

theorem lineBreaks_description_of_builtIn {r : Rule} (h : r ∈ Rule.builtIn) {lang : String}
    {m : Messages} (hm : r.catalog.get? lang = some m) : lineBreaks m.description = 0 := by
  cases List.mem_singleton.1 h
  have hall : ∀ e ∈ HeadinglessSections.messages.languages.entries,
      lineBreaks e.2.description = 0 := by decide +kernel
  exact hall _ (KeyMap.mem_entries_iff.2 hm)

/-- A rule with a result can only be too late. -/
theorem Rule.budgetExceeded_of_outcome {r : Rule} {ctx : RunContext} {doc : Document}
    {budget : Option Nat} {elapsed : Nat} {found : Option Finding} {e : ExecutionError}
    (heval : r.evaluate ctx doc = .ok found) (h : r.outcome ctx doc budget elapsed = .error e) :
    ∃ took limit, e = ⟨r.name, .budgetExceeded took limit⟩ := by
  unfold outcome at h
  rw [heval] at h
  cases budget with
  | none => cases h
  | some limit =>
    simp only at h
    split at h
    · cases h
      exact ⟨_, _, rfl⟩
    · cases h

theorem ExecutionError.display_budgetExceeded (name : String) (took limit : Nat) :
    (ExecutionError.mk name (.budgetExceeded took limit)).display =
      "rule `" ++ name ++ "` " ++
        ("exceeded budget: " ++ toString took ++ "ms > " ++ toString limit ++ "ms") := rfl

theorem ExecutionError.lineBreaks_budgetExceeded {name : String} (h : lineBreaks name = 0)
    (took limit : Nat) :
    lineBreaks (ExecutionError.mk name (.budgetExceeded took limit)).display = 0 := by
  have hrule : lineBreaks "rule `" = 0 := by decide
  have hmark : lineBreaks "` " = 0 := by decide
  have hexceeded : lineBreaks "exceeded budget: " = 0 := by decide
  have hmore : lineBreaks "ms > " = 0 := by decide
  have hunit : lineBreaks "ms" = 0 := by decide
  simp only [display_budgetExceeded, lineBreaks_append, lineBreaks_natural, h, hrule, hmark,
    hexceeded, hmore, hunit]

theorem Linter.tidy_run {l : Linter} (hl : Registered l) (hrules : ∀ r ∈ l.rules, r ∈ Rule.builtIn)
    (doc : Document) (ctx : RunContext) (given : Conditions) : (l.run doc ctx given).Tidy := by
  have hs : ∀ r ∈ l.rules, r.Searches doc := fun r hr =>
    CommandLine.searches_of_builtIn (hrules r hr) doc
  constructor
  · intro f hf
    obtain ⟨r, hr, hname, -⟩ := messages_of_mem_findings hl hs hf
    rw [hname]
    exact lineBreaks_name_of_builtIn (hrules r hr)
  · intro f hf
    obtain ⟨r, hr, -, hmessages⟩ := messages_of_mem_findings hl hs hf
    rw [Catalog.getOr?] at hmessages
    split at hmessages
    · exact lineBreaks_description_of_builtIn (hrules r hr) hmessages
    · exact lineBreaks_description_of_builtIn (hrules r hr) hmessages
  · -- A rule that only looks for elements has a result, so it can only have been too late.
    intro e he
    obtain ⟨r, hr, hout⟩ := mem_errors_iff.1 he
    have hmem : r ∈ l.rules := (mem_active_iff.1 hr).1
    obtain ⟨offenders, hsearch⟩ := (hs r hmem).evaluate_eq
    obtain ⟨found, hfound, -⟩ :=
      ofOffenders_of_contains (l.contextFor ctx) (hl.has_default r hmem) r.name offenders
    obtain ⟨took, limit, rfl⟩ :=
      Rule.budgetExceeded_of_outcome ((hsearch _).trans hfound) hout
    exact ExecutionError.lineBreaks_budgetExceeded (lineBreaks_name_of_builtIn (hrules r hmem))
      took limit

/-! ## Names in a description -/

theorem ElementTree.exists_name_of_localName {spec : ElementSpec} {n : NodeId} {name : String}
    (h : (ofSpec spec).toDocument.localName n = some name) :
    ∃ e ∈ spec.elements, e.name = name := by
  have hl := linked_ofSpec spec
  have hn : n.index < (ofSpec spec).size := by
    by_contra hout
    have hmissing : (ofSpec spec).get? n = none := Array.getElem?_eq_none (Nat.le_of_not_lt hout)
    simp [toDocument, hmissing] at h
  rw [hl.localName_eq hn] at h
  refine ⟨hl.describe n, ?_, Option.some.inj h⟩
  rw [elements_eq_describe]
  exact List.mem_map.2 ⟨n.index, List.mem_range.2 (by rwa [size_ofSpec] at hn), rfl⟩

theorem ElementTree.oneLine_of_names {spec : ElementSpec}
    (h : ∀ e ∈ spec.elements, '\n' ∉ e.name.toList) (n : NodeId) :
    (ofSpec spec).toDocument.OneLine n := by
  intro s hs
  obtain ⟨m, -, rfl⟩ := List.mem_map.1 (List.mem_reverse.1 hs)
  rw [Document.segment_name, Document.shownName]
  cases hname : (ofSpec spec).toDocument.localName m with
  | none => decide
  | some name =>
    obtain ⟨e, he, rfl⟩ := exists_name_of_localName hname
    exact h e he

namespace CommandLine

variable {fs : Files} {environment : Environment} {given : Conditions} {args : List String}
  {i : Invocation} {path : String} {format : Format} {named lang rules : Option String}
  {c : Checked}

/-! ## Checks -/

/-- A text is made up of the problems of a report, in the order of the report and each with a line
break after it. There are as many lines as problems, and one more for each line break in a path. -/
structure CompactForm (report : Report) (doc : Document) (output : String)
    (problems : List String) : Prop where
  output_eq : output = Report.unlines problems
  problems_eq : problems =
    (report.findings.flatMap fun f => f.offendingElements.map fun n =>
      doc.elementPath n ++ ": [" ++ f.rule ++ "] " ++ f.messages.description) ++
    report.errors.map fun e => "error: " ++ e.display
  length_eq : problems.length = report.totalOccurrences + report.errors.length
  lines_eq : lineBreaks output = problems.length + lineBreaksIn (report.offendingPaths doc)

theorem compactForm_present {report : Report} (h : report.Tidy) (doc : Document) :
    CompactForm report doc (report.present doc .compact) (report.compactLines doc) := by
  have hlength := report.length_compactLines doc
  refine ⟨rfl, rfl, hlength, ?_⟩
  rw [hlength, h.lineBreaks_present]

theorem tidy_check (hc : (check fs environment named path lang rules given).result = .ok c) :
    c.report.Tidy := by
  obtain ⟨config, spec, l, h, rfl⟩ := result_check_iff_prepared.1 hc
  obtain ⟨rfl, hreg⟩ := Linter.build_eq_ok_iff.1 h.registered
  exact Linter.tidy_run hreg (fun r => mem_builtIn_of_selectRules) _ _ _

theorem document_check (hc : (check fs environment named path lang rules given).result = .ok c)
    {spec : ElementSpec} (hspec : Describes fs path spec) :
    c.document = (ElementTree.ofSpec spec).toDocument := by
  obtain ⟨config, spec', l, h, rfl⟩ := result_check_iff_prepared.1 hc
  obtain ⟨-, rfl, -⟩ := h.unique ⟨h.loaded, hspec, h.registered⟩
  rfl

theorem output_check (hi : parse environment args = .ok i)
    (hcheck : i.command = .check path format lang rules)
    (hc : (check fs environment i.config path lang rules given).result = .ok c) :
    (run fs environment given args).output = c.report.present c.document format := by
  rw [run_eq_conclude fs given hi hcheck, conclude, hc]

/-- In the compact form a check prints one line for every offending element and every execution
error just when no name on the way to an offending element has a line break; otherwise it prints
more. -/
theorem compact_line_per_problem (hi : parse environment args = .ok i)
    (hcheck : i.command = .check path .compact lang rules)
    (hc : (check fs environment i.config path lang rules given).result = .ok c) :
    ∃ problems, CompactForm c.report c.document (run fs environment given args).output problems ∧
      (lineBreaks (run fs environment given args).output =
          c.report.totalOccurrences + c.report.errors.length ↔
        ∀ f ∈ c.report.findings, ∀ n ∈ f.offendingElements, ∀ s ∈ c.document.segments n,
          '\n' ∉ s.name.toList) ∧
      ∀ spec, Describes fs path spec → (∀ e ∈ spec.elements, '\n' ∉ e.name.toList) →
        (run fs environment given args).output.toList.splitOn '\n' =
          problems.map String.toList ++ [[]] := by
  have htidy : c.report.Tidy := tidy_check hc
  rw [output_check hi hcheck hc]
  refine ⟨_, compactForm_present htidy c.document, ?_, fun spec hspec hnames => ?_⟩
  · rw [htidy.lineBreaks_present, Nat.add_eq_left]
    exact Report.lineBreaksIn_offendingPaths_eq_zero_iff
  · apply htidy.splitOn_present
    rw [document_check hc hspec]
    exact fun _ _ n _ => ElementTree.oneLine_of_names hnames n

theorem compact_line_per_problem_section :
    ∃ c problems,
      (check sectionAlone {} none "plain.json" none none { elapsed := fun _ => 0 }).result = .ok c ∧
      c.report.totalOccurrences = 1 ∧
      CompactForm c.report c.document (run sectionAlone {} { elapsed := fun _ => 0 }
        ["check", "--format=compact", "plain.json"]).output problems ∧
      problems.length = 1 := by
  have hi : parse {} ["check", "--format=compact", "plain.json"] =
      .ok ⟨false, none, .check "plain.json" .compact none none⟩ := by decide +kernel
  have hlook : ((check sectionAlone {} none "plain.json" none none
      { elapsed := fun _ => 0 }).result.toOption.map fun c =>
        (c.report.totalOccurrences, c.report.errors)) = some (1, []) := by decide +kernel
  obtain ⟨c, hc, hcounts⟩ := exists_of_map_result hlook
  obtain ⟨htotal, herrors⟩ := Prod.mk.inj hcounts
  obtain ⟨problems, hform, -⟩ := compact_line_per_problem hi rfl hc
  refine ⟨c, problems, hc, htotal, hform, ?_⟩
  rw [hform.length_eq, htotal, herrors]
  rfl

/-- A section in an element whose name has a line break. -/
def tornName : Files :=
  ({} : Files).withFile ["doc.json"]
    "\x7b\"name\":\"a\\nb\",\"children\":[\x7b\"name\":\"section\"\x7d]\x7d".toUTF8

/-- One problem may take two lines. -/
theorem compact_line_per_problem_torn :
    ∃ c, (check tornName {} none "doc.json" none none { elapsed := fun _ => 0 }).result = .ok c ∧
      c.report.totalOccurrences + c.report.errors.length = 1 ∧
      (run tornName {} { elapsed := fun _ => 0 } ["check", "doc.json", "--format", "compact"]).output
        = "a\nb > section: [no-headingless-sections] " ++
          "All sections must start with a `h2-6` element.\n" ∧
      lineBreaks (run tornName {} { elapsed := fun _ => 0 }
        ["check", "doc.json", "--format", "compact"]).output = 2 := by
  have hlook : ((check tornName {} none "doc.json" none none
      { elapsed := fun _ => 0 }).result.toOption.map fun c =>
        c.report.totalOccurrences + c.report.errors.length) = some 1 := by decide +kernel
  obtain ⟨c, hc, hproblems⟩ := exists_of_map_result hlook
  have houtput : (run tornName {} { elapsed := fun _ => 0 }
      ["check", "doc.json", "--format", "compact"]).output =
        "a\nb > section: [no-headingless-sections] " ++
          "All sections must start with a `h2-6` element.\n" := by decide +kernel
  refine ⟨c, hc, hproblems, houtput, ?_⟩
  rw [houtput]
  decide +kernel

end CommandLine

end StructureLint
