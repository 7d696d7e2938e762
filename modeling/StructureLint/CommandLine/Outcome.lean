import StructureLint.CommandLine.ConfigLookup
import StructureLint.Linter.Log
/-!
# How a command ends

A command ends with a result or with a failure, and logs lines on the way (`Logged`). A failure is
reported with its causes (`Failure.report`).
-/

namespace StructureLint.CommandLine

/-- Why the file of a document is refused. -/
inductive DocumentError where
  | unreadable (cause : FileError)
  | refused (cause : ReadError)
deriving DecidableEq, Repr

/-- Why a command fails. -/
inductive Failure where
  /-- The configuration cannot be read. -/
  | config (cause : ConfigError)
  /-- The document cannot be read. -/
  | document (path : String) (cause : DocumentError)
  /-- The rules selected cannot be registered. -/
  | registration (cause : RegistryError)
  /-- There is a configuration already. -/
  | alreadyThere
  /-- The configuration cannot be written. -/
  | unwritable (cause : FileError)
deriving DecidableEq, Repr

namespace Failure

/-- A cause after a mark; what follows a line break in it begins `width` blanks further in. -/
def indented (mark : String) (width : Nat) (cause : String) : String :=
  mark ++ String.ofList (cause.toList.flatMap fun c =>
    if c = '\n' then c :: List.replicate width ' ' else [c])

/-- The causes of an error, numbered if there are several. -/
def causeLines : List String → List String
  | [] => []
  | [cause] => [indented "    " 4 cause]
  | causes => causes.zipIdx.map fun c => indented ("    " ++ toString c.2 ++ ": ") 7 c.1

/-- An error with its causes. -/
def withCauses (headline : String) (causes : List String) : String :=
  "\n".intercalate
    (("Error: " ++ headline)
      :: (if causes.isEmpty then [] else "" :: "Caused by:" :: causeLines causes))

/-- What is reported about a failure. -/
def report : Failure → String
  | .config cause =>
    withCauses "Failed to load config"
      (cause.message :: match cause with
        | .unreadable _ e => [e.message]
        | .refused _ => [])
  | .document path (.unreadable e) => withCauses ("Failed to read document: " ++ path) [e.message]
  | .document path (.refused e) => withCauses ("Invalid document: " ++ path) [e.message]
  | .registration cause => withCauses "Failed to register rules" [cause.message]
  | .alreadyThere =>
    withCauses "Configuration file already exists at doclint.toml. Use --force to overwrite." []
  | .unwritable e => withCauses e.message []

end Failure

/-- A result or a failure, with the lines logged until then. -/
structure Logged (α : Type) where
  log : List LogLine
  result : Except Failure α

namespace Logged

variable {α β : Type}

/-- A result without log lines. -/
def pure (a : α) : Logged α := ⟨[], .ok a⟩

/-- Goes on with a result; a failure ends the command. -/
def bind (x : Logged α) (f : α → Logged β) : Logged β :=
  match x.result with
  | .error e => ⟨x.log, .error e⟩
  | .ok a =>
    let y := f a
    ⟨x.log ++ y.log, y.result⟩

instance : Monad Logged where
  pure := pure
  bind := bind

/-- Logs lines. -/
def note (log : List LogLine) : Logged Unit := ⟨log, .ok ()⟩

/-- A result, or the failure that an error is. -/
def lift {ε : Type} (failure : ε → Failure) : Except ε α → Logged α
  | .error e => ⟨[], .error (failure e)⟩
  | .ok a => ⟨[], .ok a⟩

end Logged

namespace Logged

variable {α β : Type}

@[simp]
theorem result_pure (a : α) : (Pure.pure a : Logged α).result = .ok a := rfl

@[simp]
theorem result_note (log : List LogLine) : (note log).result = .ok () := rfl

@[simp]
theorem result_lift {ε : Type} (failure : ε → Failure) (x : Except ε α) :
    (lift failure x).result = x.mapError failure := by
  cases x <;> rfl

/-- A command goes on exactly where what comes before has a result. -/
@[simp]
theorem result_bind (x : Logged α) (f : α → Logged β) :
    (x >>= f).result = x.result.bind fun a => (f a).result := by
  simp only [Bind.bind, bind]
  cases x.result <;> rfl

end Logged

/-- Finds and reads the configuration for a document in a directory. -/
def loadConfig (fs : Files) (environment : Environment) (directory : String)
    (named : Option String) : Logged Config := do
  let origin := findConfig fs environment directory named
  Logged.note origin.log
  Logged.lift .config (origin.load fs)

end StructureLint.CommandLine
