import StructureLint.CommandLine.Run
/-!
# The program

Finds the files that a command may look at, runs it, and writes back what it changed.
-/

namespace StructureLint.CommandLine

/-- The number of the user of a process, in what the system tells of the process. -/
def userId? (status : String) : Option String :=
  (status.splitOn "\n").findSome? fun line =>
    match line.splitOn "\t" with
    | "Uid:" :: id :: _ => some id
    | _ => none

/-- The home directory of a user in the list of users. -/
def homeOf? (users id : String) : Option String :=
  (users.splitOn "\n").findSome? fun line =>
    match line.splitOn ":" with
    | _ :: _ :: i :: _ :: _ :: home :: _ => if i = id then some home else none
    | _ => none

/-- The home directory: the one that `HOME` names, or else the one in the list of users. -/
def readHome : IO (Option String) := do
  let named := (← IO.getEnv "HOME").filter (!·.isEmpty)
  if named.isSome then return named
  try
    let users ← IO.FS.readFile "/etc/passwd"
    return (userId? (← IO.FS.readFile "/proc/self/status")).bind (homeOf? users)
  catch _ => return none

/-- The variables of the environment that matter, and the home directory. -/
def readEnvironment : IO Environment := do
  let values ← ["DOCLINT_CONFIG_DIR", langVariable].foldlM
    (fun values name => do
      match ← IO.getEnv name with
      | none => return values
      | some value => return KeyMap.insert values name value)
    (∅ : KeyMap String)
  return { values, home := ← readHome }

/-- What can be read from a file, if anything. -/
def readAll? (path : String) : IO (Option ByteArray) := do
  try
    return some (← (← IO.FS.Handle.mk path .read).readBinToEnd)
  catch _ => return none

/-- Whether a file that is there can be opened to be written. -/
def isWritable (path : String) : IO Bool := do
  try
    discard (IO.FS.Handle.mk path .append)
    return true
  catch _ => return false

/-- Adds what is at a path. -/
def addPath (fs : Files) (path : String) : IO Files := do
  let place := Files.placeOf fs.working path
  try
    let found ← ((← IO.currentDir) / path).metadata
    if found.type == .dir then return fs.withDirectory place
    else
      let content ← readAll? path
      return fs.withFile place (content.getD .empty)
        { readable := content.isSome, writable := ← isWritable path }
  catch _ => return fs

/-- The paths on the way to a path, and the path itself. -/
def waysTo (path : String) : List String :=
  let start := if Path.isAbsolute path then "/" else ""
  let components := Path.components path
  (List.range components.length).map fun n =>
    start ++ "/".intercalate (components.take (n + 1))

/-- The files that a command may look at. -/
def readFiles (paths : List String) : IO Files := do
  let working := Path.components (← IO.currentDir).toString
  (paths.flatMap waysTo).foldlM addPath (({ working } : Files).withDirectory working)

/-- The times that the built-in rules take for a document. -/
def measureRules (fs : Files) (path : String) : IO Conditions := do
  match readDocument fs path with
  | .error _ => return { elapsed := fun _ => 0 }
  | .ok tree =>
    let doc := tree.toDocument
    let times ← Rule.builtIn.mapM fun r => do
      let start ← IO.monoNanosNow
      let verdict ← IO.lazyPure fun _ => r.evaluate (.forDocument doc) doc
      let stop ← IO.monoNanosNow
      return (r.name, if verdict.toOption.isSome then stop - start else 0)
    return { elapsed := fun name => (times.lookup name).getD 0 }

/-- The times that a command is told its rules take. -/
def conditionsOf (fs : Files) (i : Invocation) : IO Conditions :=
  match i.command with
  | .check path .. => measureRules fs path
  | _ => return { elapsed := fun _ => 0 }

/-- What a file holds, also one that may not be read. -/
def contentAt? (fs : Files) (path : String) : Option ByteArray :=
  match fs.resolve path with
  | .ok (.found _ (.file content _)) => some content
  | _ => none

/-- Writes back the files that have changed. -/
def writeChanges (before after : Files) (paths : List String) : IO Unit :=
  paths.forM fun path => do
    match contentAt? after path with
    | none => return
    | some content =>
      if contentAt? before path != some content then IO.FS.writeBinFile path content

end StructureLint.CommandLine

open StructureLint.CommandLine

def main (args : List String) : IO UInt32 := do
  let environment ← readEnvironment
  let invocation := (parse environment args).toOption
  let paths := (invocation.map (consulted environment)).getD []
  let fs ← readFiles paths
  let given ← (invocation.map (conditionsOf fs)).getD (return { elapsed := fun _ => 0 })
  let outcome := run fs environment given args
  writeChanges fs outcome.files paths
  for line in outcome.log do
    IO.eprintln line.display
  IO.print outcome.output
  if !outcome.error.isEmpty then
    IO.eprintln outcome.error
  if outcome.status == 2 then
    IO.eprint usageText
  return UInt32.ofNat outcome.status
