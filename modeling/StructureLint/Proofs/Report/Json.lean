import Mathlib.Data.Int.CharZero
import Mathlib.Data.List.Forall2
import StructureLint.Proofs.Json.Layout
import StructureLint.Report
/-!
# What the JSON form of a report says

The members of a finding have different keys, whatever further texts its messages have, and say
what `Finding.Tells` lists. Nothing that is written is ambiguous: two reports have the same text
just when they agree in all that is written (`Report.Agrees`), that is in everything but further
texts under keys that a finding uses itself (`Report.toJson_tells`).
-/

namespace StructureLint

namespace Finding

variable {f g : Finding}

/-! ## One finding -/

/-- The members that say where to look for more, if there is anything to say. -/
def helpMembers (f : Finding) : List (String × Json) :=
  f.messages.help.toList.map fun h => ("help", .string h)

/-- The members for the further texts under keys that are not in use otherwise. -/
def extraMembers (f : Finding) : List (String × Json) :=
  (f.messages.extra.entries.filter fun e => e.1 ∉ reservedKeys).map fun e => (e.1, .string e.2)

/-- All members of a finding. -/
def members (f : Finding) : List (String × Json) :=
  [("name", .string f.rule), ("occurrences", .integer f.occurrences),
    ("offendingElements", .array (f.offendingElements.map fun n => .integer n.index)),
    ("description", .string f.messages.description), ("howToFix", .string f.messages.howToFix)]
  ++ f.helpMembers ++ f.extraMembers

theorem toJson_eq (f : Finding) : f.toJson = .object f.members := rfl

theorem mem_helpMembers {m : String × Json} :
    m ∈ f.helpMembers ↔ m.1 = "help" ∧ ∃ h, f.messages.help = some h ∧ m.2 = .string h := by
  obtain ⟨key, v⟩ := m
  cases hh : f.messages.help <;> simp [helpMembers, hh]

theorem mem_extraMembers {m : String × Json} :
    m ∈ f.extraMembers ↔ m.1 ∉ reservedKeys ∧
      ∃ text, f.messages.extra.get? m.1 = some text ∧ m.2 = .string text := by
  obtain ⟨key, v⟩ := m
  simp only [extraMembers, List.mem_map, List.mem_filter, decide_eq_true_eq, Prod.mk.injEq]
  constructor
  · rintro ⟨⟨k, text⟩, ⟨hmem, hkey⟩, rfl, rfl⟩
    exact ⟨hkey, text, KeyMap.mem_entries_iff.1 hmem, rfl⟩
  · rintro ⟨hkey, text, hget, rfl⟩
    exact ⟨(key, text), ⟨KeyMap.mem_entries_iff.2 hget, hkey⟩, rfl, rfl⟩

theorem keys_nodup (f : Finding) : (f.members.map (·.1)).Nodup := by
  have hfixed : (["name", "occurrences", "offendingElements", "description", "howToFix"]
      ++ f.helpMembers.map (·.1)).Sublist reservedKeys := by
    cases hh : f.messages.help with
    | none => simp [helpMembers, hh, reservedKeys]
    | some h => simp [helpMembers, hh, reservedKeys]
  have hextra : (f.extraMembers.map (·.1)).Nodup := by
    have hkeys : f.extraMembers.map (·.1) =
        (f.messages.extra.entries.filter fun e => e.1 ∉ reservedKeys).map (·.1) := by
      simp [extraMembers]
    rw [hkeys]
    refine List.Nodup.sublist (List.filter_sublist.map _) ?_
    exact f.messages.extra.keys_sorted.imp fun h => (by rintro rfl; exact String.lt_irrefl _ h)
  have hmap : f.members.map (·.1) = ["name", "occurrences", "offendingElements", "description",
      "howToFix"] ++ f.helpMembers.map (·.1) ++ f.extraMembers.map (·.1) := by
    simp [members]
  rw [hmap]
  refine List.nodup_append.2 ⟨List.Nodup.sublist hfixed (by decide), hextra, ?_⟩
  rintro key hkey _ hmem rfl
  obtain ⟨m, hm, rfl⟩ := List.mem_map.1 hmem
  exact (mem_extraMembers.1 hm).1 (hfixed.subset hkey)

/-- What an object tells that is to be the JSON form of a finding. -/
structure Tells (f : Finding) (members : List (String × Json)) : Prop where
  keys_nodup : (members.map (·.1)).Nodup
  name : ("name", .string f.rule) ∈ members
  /-- The elements are listed, and counted as often as they are listed. -/
  elements : ∃ items, ("offendingElements", .array items) ∈ members ∧
    ("occurrences", .integer items.length) ∈ members ∧
    items = f.offendingElements.map fun n => .integer n.index
  description : ("description", .string f.messages.description) ∈ members
  howToFix : ("howToFix", .string f.messages.howToFix) ∈ members
  help_iff : ∀ v, ("help", v) ∈ members ↔ ∃ h, f.messages.help = some h ∧ v = .string h
  extra_iff : ∀ key v, key ∉ reservedKeys →
    ((key, v) ∈ members ↔ ∃ text, f.messages.extra.get? key = some text ∧ v = .string text)

theorem tells_members (f : Finding) : f.Tells f.members := by
  have hmem : ∀ m, m ∈ f.members ↔ m = ("name", .string f.rule) ∨
      m = ("occurrences", .integer f.occurrences) ∨
      m = ("offendingElements", .array (f.offendingElements.map fun n => .integer n.index)) ∨
      m = ("description", .string f.messages.description) ∨
      m = ("howToFix", .string f.messages.howToFix) ∨ m ∈ f.helpMembers ∨ m ∈ f.extraMembers := by
    intro m
    simp [members]
  constructor
  case keys_nodup => exact f.keys_nodup
  case name => simp [hmem]
  case elements => exact ⟨_, by simp [hmem], by simp [hmem, occurrences], rfl⟩
  case description => simp [hmem]
  case howToFix => simp [hmem]
  case help_iff =>
    intro v
    simp [hmem, mem_helpMembers, mem_extraMembers, reservedKeys]
  case extra_iff =>
    intro key v hkey
    have hne : ∀ k ∈ reservedKeys, key ≠ k := by
      rintro k hk rfl
      exact hkey hk
    simp only [reservedKeys, List.mem_cons, List.not_mem_nil, or_false, forall_eq_or_imp,
      forall_eq] at hne
    simp [hmem, mem_helpMembers, mem_extraMembers, hne, hkey]

/-! ## Two findings -/

/-- Two findings agree in all that is written of them. -/
structure Agrees (f g : Finding) : Prop where
  rule : f.rule = g.rule
  offendingElements : f.offendingElements = g.offendingElements
  description : f.messages.description = g.messages.description
  howToFix : f.messages.howToFix = g.messages.howToFix
  help : f.messages.help = g.messages.help
  extra : ∀ key, key ∉ reservedKeys → f.messages.extra.get? key = g.messages.extra.get? key

theorem extraMembers_eq_iff : f.extraMembers = g.extraMembers ↔
    ∀ key, key ∉ reservedKeys → f.messages.extra.get? key = g.messages.extra.get? key := by
  have hinj : Function.Injective fun e : String × String => (e.1, Json.string e.2) := by
    rintro ⟨k, s⟩ ⟨k', s'⟩ h
    simpa using h
  rw [extraMembers, extraMembers, hinj.list_map.eq_iff,
    KeyMap.filter_entries_eq_iff fun key => decide (key ∉ reservedKeys)]
  simp

/-- A finding without help cannot be taken for one with help: the key is not free for further
texts. -/
theorem helpMembers_append_eq_iff :
    f.helpMembers ++ f.extraMembers = g.helpMembers ++ g.extraMembers ↔
      f.messages.help = g.messages.help ∧ f.extraMembers = g.extraMembers := by
  have hfree : ∀ {f : Finding} {v ms}, f.extraMembers ≠ ("help", v) :: ms := by
    intro f v ms h
    have hmem : ("help", v) ∈ f.extraMembers := h ▸ List.mem_cons_self
    exact (mem_extraMembers.1 hmem).1 (by simp [reservedKeys])
  cases hf : f.messages.help <;> cases hg : g.messages.help <;> simp [helpMembers, hf, hg]
  · exact hfree
  · exact fun h => hfree h.symm

theorem toJson_eq_iff : f.toJson = g.toJson ↔ f.Agrees g := by
  have hids : Function.Injective fun n : NodeId => Json.integer n.index := by
    rintro ⟨n⟩ ⟨m⟩ h
    exact congrArg NodeId.mk (Int.ofNat.inj (Json.integer.inj h))
  rw [toJson_eq, toJson_eq, Json.object.injEq, members, members, List.append_assoc,
    List.append_assoc]
  simp only [List.cons_append, List.nil_append, List.cons.injEq, Prod.mk.injEq, true_and,
    Json.string.injEq, Json.array.injEq, hids.list_map.eq_iff, helpMembers_append_eq_iff,
    extraMembers_eq_iff]
  constructor
  · rintro ⟨hrule, -, helements, hdescription, hfix, hhelp, hextra⟩
    exact ⟨hrule, helements, hdescription, hfix, hhelp, hextra⟩
  · intro h
    exact ⟨h.rule, by rw [occurrences, occurrences, h.offendingElements], h.offendingElements,
      h.description, h.howToFix, h.help, h.extra⟩

end Finding

/-! ## Reports -/

theorem ExecutionFailure.toJson_inj {c d : ExecutionFailure} : c.toJson = d.toJson ↔ c = d := by
  cases c <;> cases d <;> simp [toJson]

theorem ExecutionError.toJson_injective : Function.Injective ExecutionError.toJson := by
  rintro ⟨rule, cause⟩ ⟨rule', cause'⟩ h
  simpa [toJson, ExecutionFailure.toJson_inj] using h

namespace Report

variable {r s : Report}

/-- Two reports agree in all that is written of them. -/
structure Agrees (r s : Report) : Prop where
  rulesRun : r.rulesRun = s.rulesRun
  errors : r.errors = s.errors
  findings : List.Forall₂ Finding.Agrees r.findings s.findings

theorem findings_toJson_eq_iff {fs gs : List Finding} :
    fs.map Finding.toJson = gs.map Finding.toJson ↔ List.Forall₂ Finding.Agrees fs gs := by
  induction fs generalizing gs with
  | nil => cases gs <;> simp
  | cons f fs ih =>
    cases gs with
    | nil => simp
    | cons g gs => simp [ih, Finding.toJson_eq_iff]

/-- The members for the errors, if there are any. -/
def errorMembers (r : Report) : List (String × Json) :=
  if r.errors.isEmpty then [] else [("errors", .array (r.errors.map ExecutionError.toJson))]

theorem errorMembers_append_eq_iff :
    r.errorMembers ++ [("rulesRun", .integer r.rulesRun)] =
      s.errorMembers ++ [("rulesRun", .integer s.rulesRun)] ↔
    r.errors = s.errors ∧ r.rulesRun = s.rulesRun := by
  rw [← ExecutionError.toJson_injective.list_map.eq_iff (a := r.errors)]
  cases hr : r.errors <;> cases hs : s.errors <;> simp [errorMembers, hr, hs]

theorem toJson_eq_iff : r.toJson = s.toJson ↔ r.Agrees s := by
  have hmembers : ∀ r : Report, r.toJson = .object (("findings", .array (r.findings.map
      Finding.toJson)) :: (r.errorMembers ++ [("rulesRun", .integer r.rulesRun)])) := fun _ => rfl
  rw [hmembers, hmembers, Json.object.injEq, List.cons.injEq, Prod.mk.injEq, Json.array.injEq,
    findings_toJson_eq_iff, errorMembers_append_eq_iff]
  constructor
  · rintro ⟨⟨-, hfindings⟩, herrors, hrun⟩
    exact ⟨hrun, herrors, hfindings⟩
  · intro h
    exact ⟨⟨rfl, h.findings⟩, h.errors, h.rulesRun⟩

/-- The JSON form of a finding tells all there is to tell, under distinct keys. Reports have the
same text, on one line or indented, just when they agree but for further texts under keys that a
finding uses itself. -/
theorem toJson_tells (f : Finding) (r s : Report) :
    (∃ members, f.toJson = .object members ∧ f.Tells members) ∧
    (∃ members, r.toJson = .object members ∧
      ("findings", .array (r.findings.map Finding.toJson)) ∈ members) ∧
    (r.toJson.compact = s.toJson.compact ↔ r.Agrees s) ∧
    (r.toJson.pretty = s.toJson.pretty ↔ r.Agrees s) := by
  refine ⟨⟨f.members, rfl, f.tells_members⟩, ⟨_, rfl, List.mem_cons_self⟩, ?_, ?_⟩
  · rw [Json.compact_inj, toJson_eq_iff]
  · rw [Json.pretty_inj, toJson_eq_iff]

end Report

end StructureLint
