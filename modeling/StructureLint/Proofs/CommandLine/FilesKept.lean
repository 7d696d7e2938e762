import StructureLint.Proofs.CommandLine.Status
import StructureLint.Proofs.Files.Beside
import StructureLint.Proofs.Files.Growth
/-!
# What runs leave of the files

Only `init` writes, and only to one place, the `doclint.toml` of the working directory
(`files_of_not_init`, `at?_outcome`). Unless it is forced it writes there only if nothing is there
(`writeStarter_of_present`), so that the files grow (`grows_outcome`), over any number of runs
(`grows_filesAfter`). A configuration that was once there is therefore there for all later checks of
documents beside it.
-/

namespace StructureLint.CommandLine

/-- One run of the program. -/
structure Call where
  environment : Environment
  given : Conditions
  args : List String

/-- What the run leaves of the files it finds. -/
def Call.outcome (c : Call) (fs : Files) : Outcome :=
  run fs c.environment c.given c.args

/-- The command that the arguments ask for, if they ask for one. -/
def Call.command? (c : Call) : Option Command :=
  match parse c.environment c.args with
  | .ok i => some i.command
  | .error _ => none

/-- The files after several runs in one directory. -/
def filesAfter (fs : Files) (calls : List Call) : Files :=
  calls.foldl (fun fs c => (c.outcome fs).files) fs

/-- The place at which `init` writes. -/
def starterPlace (fs : Files) : Place :=
  fs.working ++ [starterPath]

/-- Where a check first looks for a configuration. -/
def besidePath (document : String) : String :=
  Path.join (directoryOf document) "doclint.toml"

/-! ## One run -/

variable {fs : Files} {c : Call} {force : Bool}

theorem files_conclude {α : Type} (fs : Files) (verbose : Bool) (x : Logged α) (status : α → Nat)
    (output : α → String) : (conclude fs verbose x status output).files = fs := by
  unfold conclude
  split <;> rfl

theorem log_conclude {α : Type} (fs : Files) (verbose : Bool) (x : Logged α) (status : α → Nat)
    (output : α → String) :
    (conclude fs verbose x status output).log = x.log.filter (·.isShown verbose) := by
  unfold conclude
  split <;> rfl

theorem files_of_not_init (h : ∀ force, c.command? ≠ some (.init force)) :
    (c.outcome fs).files = fs := by
  unfold Call.command? at h
  unfold Call.outcome run
  split at h
  · rename_i i hi
    rw [hi]
    dsimp only [perform]
    split
    · exact files_conclude ..
    · exact files_conclude ..
    · rename_i force hinit
      exact absurd (congrArg some hinit) (h force)
  · rename_i e he
    rw [he]
    cases e <;> rfl

theorem exists_invocation {command : Command} (h : c.command? = some command) :
    ∃ i, parse c.environment c.args = .ok i ∧ i.command = command := by
  unfold Call.command? at h
  split at h
  · exact ⟨_, ‹_›, Option.some.inj h⟩
  · cases h

theorem outcome_of_written {after : Files} (h : c.command? = some (.init force))
    (hw : writeStarter fs force = .ok after) : c.outcome fs =
      { files := after, status := 0, output := Report.unlines starterNotice } := by
  obtain ⟨i, hi, hinit⟩ := exists_invocation h
  simp only [Call.outcome, run, hi, perform, hinit, hw]

theorem outcome_of_not_written {failure : Failure} (h : c.command? = some (.init force))
    (hw : writeStarter fs force = .error failure) : c.outcome fs =
      { files := fs, status := 1, error := failure.report } := by
  obtain ⟨i, hi, hinit⟩ := exists_invocation h
  simp only [Call.outcome, run, hi, perform, hinit, hw]

theorem plain_starterPath : Path.Plain starterPath :=
  ⟨by decide, by decide⟩

theorem resolve_starter (fs : Files) :
    fs.resolve starterPath = .ok (fs.target (starterPlace fs)) := by
  have hname : Path.components starterPath = [starterPath] := by decide +kernel
  have hsize : starterPath.utf8ByteSize = 12 := by decide +kernel
  have hrelative : starterPath.isEmpty = false ∧ Path.isAbsolute starterPath = false := by
    decide +kernel
  have hfollow : fs.resolve starterPath = fs.follow fs.working [starterPath] := by
    simp [Files.resolve, hname, hsize, hrelative, Files.maxPathSize]
  rw [hfollow, Files.follow_name plain_starterPath (by decide) (by rw [hsize]; decide)]
  rfl

theorem writeStarter_of_vacant (h : fs.at? (starterPlace fs) = none) (force : Bool) :
    writeStarter fs force = .ok (fs.put (starterPlace fs) (.file starterText.toUTF8 {})) := by
  simp [writeStarter, Files.isPresent, Files.writeText, resolve_starter, Files.target, h]

/-- What is there is replaced only by a forced `init`, and only if it is a file that may be
written. -/
theorem writeStarter_of_present {entry : Entry} (h : fs.at? (starterPlace fs) = some entry)
    (force : Bool) : (∃ failure, writeStarter fs force = .error failure) ∨ force = true ∧
      ∃ rights, writeStarter fs force =
        .ok (fs.put (starterPlace fs) (.file starterText.toUTF8 rights)) := by
  cases force with
  | false =>
    exact .inl ⟨.alreadyThere, by simp [writeStarter, Files.isPresent, resolve_starter,
      Files.target, h]⟩
  | true =>
    cases entry with
    | directory =>
      exact .inl ⟨.unwritable .isDirectory, by simp [writeStarter, Files.writeText,
        resolve_starter, Files.target, h]⟩
    | file content rights =>
      cases hwritable : rights.writable with
      | false =>
        exact .inl ⟨.unwritable .permissionDenied, by simp [writeStarter, Files.writeText,
          resolve_starter, Files.target, h, hwritable]⟩
      | true =>
        exact .inr ⟨rfl, rights, by simp [writeStarter, Files.writeText, resolve_starter,
          Files.target, h, hwritable]⟩

theorem starterPlace_ne_nil (fs : Files) : starterPlace fs ≠ [] := by
  simp [starterPlace]

/-- Where nothing was, `init` makes a file that holds the configuration to start with. -/
theorem at?_starter_of_vacant (h : c.command? = some (.init force))
    (hvacant : fs.at? (starterPlace fs) = none) :
    (c.outcome fs).files.at? (starterPlace fs) = some (.file starterText.toUTF8 {}) := by
  rw [outcome_of_written h (writeStarter_of_vacant hvacant force)]
  dsimp only
  rw [Files.at?_put, if_pos ⟨starterPlace_ne_nil fs, rfl⟩]

/-! ## One run after another -/

/-- A run leaves the files as they are, or it is an `init` that writes to its place, which is forced
or finds nothing there. -/
theorem files_outcome_cases (fs : Files) (c : Call) : (c.outcome fs).files = fs ∨
    (∃ force, c.command? = some (.init force) ∧
      (force = true ∨ fs.at? (starterPlace fs) = none)) ∧
      ∃ rights, (c.outcome fs).files =
        fs.put (starterPlace fs) (.file starterText.toUTF8 rights) := by
  by_cases hinit : ∃ force, c.command? = some (.init force)
  · obtain ⟨force, hforce⟩ := hinit
    cases hplace : fs.at? (starterPlace fs) with
    | none =>
      rw [outcome_of_written hforce (writeStarter_of_vacant hplace force)]
      exact .inr ⟨⟨force, hforce, .inr rfl⟩, {}, rfl⟩
    | some entry =>
      obtain ⟨failure, hw⟩ | ⟨rfl, rights, hw⟩ := writeStarter_of_present hplace force
      · rw [outcome_of_not_written hforce hw]
        exact .inl rfl
      · rw [outcome_of_written hforce hw]
        exact .inr ⟨⟨true, hforce, .inl rfl⟩, rights, rfl⟩
  · exact .inl (files_of_not_init fun force hforce => hinit ⟨force, hforce⟩)

theorem at?_outcome (fs : Files) (c : Call) : (c.outcome fs).files.working = fs.working ∧
    ∀ place, Files.key place ≠ Files.key (starterPlace fs) →
      (c.outcome fs).files.at? place = fs.at? place := by
  rcases files_outcome_cases fs c with h | ⟨-, rights, h⟩ <;> rw [h]
  · exact ⟨rfl, fun _ _ => rfl⟩
  · refine ⟨rfl, fun place hplace => ?_⟩
    rw [Files.at?_put, if_neg fun h => hplace h.2]

theorem grows_outcome (h : c.command? ≠ some (.init true)) (fs : Files) :
    fs.Grows (c.outcome fs).files := by
  obtain heq | ⟨⟨force, hforce, hvacant⟩, rights, heq⟩ := files_outcome_cases fs c <;> rw [heq]
  · exact .refl fs
  · refine Files.grows_put (starterPlace_ne_nil fs) (hvacant.resolve_left ?_)
    rintro rfl
    exact h hforce

theorem at?_filesAfter (fs : Files) (calls : List Call) :
    (filesAfter fs calls).working = fs.working ∧
      ∀ place, Files.key place ≠ Files.key (starterPlace fs) →
        (filesAfter fs calls).at? place = fs.at? place := by
  induction calls generalizing fs with
  | nil => exact ⟨rfl, fun _ _ => rfl⟩
  | cons c calls ih =>
    obtain ⟨hworking, hplaces⟩ := at?_outcome fs c
    obtain ⟨hworking', hplaces'⟩ := ih (c.outcome fs).files
    have hstarter : starterPlace (c.outcome fs).files = starterPlace fs := by
      rw [starterPlace, hworking, starterPlace]
    rw [hstarter] at hplaces'
    exact ⟨hworking'.trans hworking, fun place hplace =>
      (hplaces' place hplace).trans (hplaces place hplace)⟩

theorem grows_filesAfter {calls : List Call} (h : ∀ c ∈ calls, c.command? ≠ some (.init true))
    (fs : Files) : fs.Grows (filesAfter fs calls) := by
  induction calls generalizing fs with
  | nil => exact .refl fs
  | cons c calls ih =>
    exact (grows_outcome (h c (by simp)) fs).trans (ih (fun d hd => h d (by simp [hd])) _)

theorem filesAfter_append (fs : Files) (before later : List Call) :
    filesAfter fs (before ++ later) = filesAfter (filesAfter fs before) later :=
  List.foldl_append

/-! ## Later checks -/

theorem ofFile_eq_of_read {fs fs' : Files} {path : String} (h : fs'.read path = fs.read path) :
    Config.ofFile fs' path = Config.ofFile fs path := by
  rw [Config.ofFile, Config.ofFile, Files.readText, Files.readText, h]

theorem loadConfig_beside {document : String} (h : fs.isFile (besidePath document) = true)
    (environment : Environment) :
    loadConfig fs environment (directoryOf document) none =
      ⟨(ConfigOrigin.beside (besidePath document)).log,
        (Config.ofFile fs (besidePath document)).mapError .config⟩ := by
  have hfind : findConfig fs environment (directoryOf document) none =
      .beside (besidePath document) := by
    have hpaths : (localPaths (directoryOf document)).find? fs.isFile =
        some (besidePath document) :=
      List.find?_cons_of_pos h
    rw [findConfig, hpaths]
  have hload : (ConfigOrigin.beside (besidePath document)).load fs =
      Config.ofFile fs (besidePath document) := rfl
  simp only [loadConfig, hfind, hload]
  cases Config.ofFile fs (besidePath document) <;> rfl

/-- The configuration in the directory of a document is found on the path beside it, unless this is
too long. -/
theorem resolve_besidePath {document : String} {place : Place} {entry : Entry}
    (hdocument : fs.filePlace? document = some place)
    (hconfig : fs.at? (place.dropLast ++ ["doclint.toml"]) = some entry)
    (hsize : (besidePath document).utf8ByteSize ≤ Files.maxPathSize) :
    fs.resolve (besidePath document) =
      .ok (.found (place.dropLast ++ ["doclint.toml"]) entry) := by
  obtain ⟨content, rights, hfound⟩ := Files.filePlace?_eq_some_iff.1 hdocument
  obtain ⟨parent, hparent, hsibling⟩ := Files.resolve_join_parent hfound
  have hpath : besidePath document = Path.join parent "doclint.toml" := by
    rw [besidePath, directoryOf, hparent]
    rfl
  rw [hpath] at hsize ⊢
  rw [hsibling "doclint.toml" plain_starterPath (by decide) (by decide +kernel) hsize,
    Files.target, hconfig]

theorem mem_log_bind {α β : Type} {x : Logged α} (f : α → Logged β) {line : LogLine}
    (h : line ∈ x.log) : line ∈ (x >>= f).log := by
  show line ∈ (Logged.bind x f).log
  unfold Logged.bind
  split
  · exact h
  · exact List.mem_append_left _ h

theorem mem_log_check {environment : Environment} {named lang rules : Option String}
    {document : String} {given : Conditions} {line : LogLine}
    (h : line ∈ (loadConfig fs environment (directoryOf document) named).log) :
    line ∈ (check fs environment named document lang rules given).log :=
  mem_log_bind _ h

/-- Only `init` writes, only to its place, and over something only if it is forced. As long as it is
not, all that was there stays, and a later check of a document beside a configuration loads it as it
was. -/
theorem files_undamaged (fs : Files) :
    (∀ c : Call, (∀ force, c.command? ≠ some (.init force)) → (c.outcome fs).files = fs) ∧
    (∀ c : Call, c.command? = some (.init false) → fs.at? (starterPlace fs) ≠ none →
      (c.outcome fs).status = 1 ∧ (c.outcome fs).files = fs) ∧
    (∀ calls, (filesAfter fs calls).working = fs.working ∧
      ∀ place, Files.key place ≠ Files.key (starterPlace fs) →
        (filesAfter fs calls).at? place = fs.at? place) ∧
    ∀ before later, (∀ c ∈ later, c.command? ≠ some (.init true)) →
      (∀ place entry, (filesAfter fs before).at? place = some entry →
        (filesAfter fs (before ++ later)).at? place = some entry) ∧
      ∀ (c : Call) (i : Invocation) (document : String) format lang rules,
        parse c.environment c.args = .ok i → i.command = .check document format lang rules →
        i.config = none → (filesAfter fs before).isFile (besidePath document) = true →
        (filesAfter fs (before ++ later)).read (besidePath document) =
          (filesAfter fs before).read (besidePath document) ∧
        .info ("Using config: " ++ besidePath document) ∈
          (c.outcome (filesAfter fs (before ++ later))).log ∧
        (loadConfig (filesAfter fs (before ++ later)) c.environment (directoryOf document)
          i.config).result =
          (Config.ofFile (filesAfter fs before) (besidePath document)).mapError .config := by
  refine ⟨fun c => files_of_not_init, fun c hc hplace => ?_, at?_filesAfter fs,
    fun before later hlater => ?_⟩
  · obtain ⟨entry, hentry⟩ := Option.ne_none_iff_exists'.1 hplace
    obtain ⟨failure, hw⟩ | ⟨htrue, -⟩ := writeStarter_of_present hentry false
    · rw [outcome_of_not_written hc hw]
      exact ⟨rfl, rfl⟩
    · cases htrue
  · have hgrows := grows_filesAfter hlater (filesAfter fs before)
    rw [← filesAfter_append] at hgrows
    refine ⟨hgrows.kept, fun c i document format lang rules hi hcheck hnone hfile => ?_⟩
    have hread := hgrows.read hfile
    have hload := loadConfig_beside (hgrows.isFile hfile) c.environment
    refine ⟨hread, ?_, by rw [hnone, hload, ofFile_eq_of_read hread]⟩
    have hline : .info ("Using config: " ++ besidePath document) ∈
        (loadConfig (filesAfter fs (before ++ later)) c.environment (directoryOf document)
          i.config).log := by
      rw [hnone, hload]
      simp [ConfigOrigin.log]
    rw [Call.outcome, run_eq_conclude _ _ hi hcheck, log_conclude]
    exact List.mem_filter.2 ⟨mem_log_check hline, by simp [LogLine.isShown, LogLine.info]⟩

/-- A run without variables and without delay. -/
def plainCall (args : List String) : Call :=
  ⟨{}, { elapsed := fun _ => 0 }, args⟩

/-- A run of each kind; the arguments of the last one are wrong. -/
def unforced : List Call :=
  [plainCall ["init"], plainCall ["check", "plain.json"], plainCall ["list-rules"],
    plainCall ["init", "-x"]]

/-- The first `init` writes, the second one fails, and the check uses what was written. -/
theorem files_undamaged_section :
    (filesAfter sectionAlone [plainCall ["init"]]).at? ["doclint.toml"] =
      some (.file starterText.toUTF8 {}) ∧
    ((plainCall ["init"]).outcome (filesAfter sectionAlone [plainCall ["init"]])).status = 1 ∧
    ((plainCall ["check", "./plain.json"]).outcome sectionAlone).files = sectionAlone ∧
    (filesAfter sectionAlone ([plainCall ["init"]] ++ unforced)).at? ["doclint.toml"] =
      some (.file starterText.toUTF8 {}) ∧
    .info "Using config: ./doclint.toml" ∈ ((plainCall ["check", "./plain.json"]).outcome
      (filesAfter sectionAlone ([plainCall ["init"]] ++ unforced))).log := by
  have hinit : (plainCall ["init"]).command? = some (.init false) := by decide +kernel
  have hwritten : (filesAfter sectionAlone [plainCall ["init"]]).at? ["doclint.toml"] =
      some (.file starterText.toUTF8 {}) := at?_starter_of_vacant hinit (by decide +kernel)
  have hfile : (filesAfter sectionAlone [plainCall ["init"]]).isFile
      (besidePath "./plain.json") = true := by
    have hdocument : (filesAfter sectionAlone [plainCall ["init"]]).filePlace? "./plain.json" =
        some ["plain.json"] := by decide +kernel
    exact Files.isFile_iff.2
      ⟨_, _, _, resolve_besidePath hdocument hwritten (by decide +kernel)⟩
  have hcheck : parse {} ["check", "./plain.json"] =
      .ok ⟨false, none, .check "./plain.json" .text none none⟩ := by decide +kernel
  have hcommand : (plainCall ["check", "./plain.json"]).command? =
      some (.check "./plain.json" .text none none) := by decide +kernel
  obtain ⟨-, hrefused, -⟩ := files_undamaged (filesAfter sectionAlone [plainCall ["init"]])
  obtain ⟨hother, -, -, hlater⟩ := files_undamaged sectionAlone
  obtain ⟨hkept, hconfig⟩ := hlater [plainCall ["init"]] unforced (by decide +kernel)
  obtain ⟨-, hused, -⟩ := hconfig (plainCall ["check", "./plain.json"]) _ "./plain.json" _ _ _
    hcheck rfl rfl hfile
  have hpresent : (filesAfter sectionAlone [plainCall ["init"]]).at?
      (starterPlace (filesAfter sectionAlone [plainCall ["init"]])) ≠ none := by
    rw [show starterPlace _ = ["doclint.toml"] by decide +kernel, hwritten]
    exact Option.some_ne_none _
  have hunchanged : ((plainCall ["check", "./plain.json"]).outcome sectionAlone).files =
      sectionAlone := hother _ fun force h => by rw [hcommand] at h; cases h
  exact ⟨hwritten, (hrefused _ hinit hpresent).1, hunchanged, hkept _ _ hwritten, hused⟩

end StructureLint.CommandLine
