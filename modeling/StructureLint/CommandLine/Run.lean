import StructureLint.CommandLine.Linting
import StructureLint.CommandLine.RuleListing
import StructureLint.CommandLine.StarterConfig
/-!
# Running the program

`run` takes files, an environment and arguments, and gives the files afterwards, the exit status
and everything that is printed. A document with findings, or a failure, has the status 1; wrong
arguments have the status 2.
-/

namespace StructureLint.CommandLine

/-- What a run of the program leaves. -/
structure Outcome where
  files : Files
  status : Nat
  /-- What is printed. -/
  output : String := ""
  /-- The lines logged, as far as they are wanted. -/
  log : List LogLine := []
  /-- What is reported about a failure. -/
  error : String := ""

/-- The name and version of the program. -/
def versionText : String := "doclint 0.1.0"

/-- How the program is used. -/
def usageText : String :=
  Report.unlines
    ["Usage: doclint [options] check [-f <format>] [-l <lang>] [--rules <names>] <document>",
     "       doclint [options] list-rules [-l <lang>]",
     "       doclint [options] init [--force]",
     "",
     "A format is text, json or compact.",
     "",
     "Options:",
     "  -v, --verbose        log more",
     "  -c, --config <path>  read the configuration from this file",
     "  -h, --help           print this text",
     "  -V, --version        print the version"]

/-- The outcome of a command with a status and an output for its result. -/
def conclude {α : Type} (fs : Files) (verbose : Bool) (x : Logged α) (status : α → Nat)
    (output : α → String) : Outcome :=
  let log := x.log.filter (·.isShown verbose)
  match x.result with
  | .error failure => { files := fs, status := 1, log, error := failure.report }
  | .ok a => { files := fs, status := status a, output := output a, log }

/-- Carries out a command. -/
def perform (fs : Files) (environment : Environment) (given : Conditions) (i : Invocation) :
    Outcome :=
  match i.command with
  | .check document format lang rules =>
    conclude fs i.verbose (check fs environment i.config document lang rules given)
      (fun c => if c.report.isClean then 0 else 1) (fun c => c.report.present c.document format)
  | .listRules lang =>
    conclude fs i.verbose (listRules fs environment i.config lang) (fun _ => 0) Report.unlines
  | .init force =>
    match writeStarter fs force with
    | .error failure => { files := fs, status := 1, error := failure.report }
    | .ok after => { files := after, status := 0, output := Report.unlines starterNotice }

/-- Runs the program. -/
def run (fs : Files) (environment : Environment) (given : Conditions) (args : List String) :
    Outcome :=
  match parse environment args with
  | .ok i => perform fs environment given i
  | .error .version => { files := fs, status := 0, output := versionText ++ "\n" }
  | .error .help => { files := fs, status := 0, output := usageText }
  | .error .misuse => { files := fs, status := 2 }

/-- The paths of all files that a command may look at. -/
def consulted (environment : Environment) (i : Invocation) : List String :=
  let configs (directory : String) :=
    i.config.toList ++ localPaths directory ++ (globalPath? environment).toList
  match i.command with
  | .check document .. => document :: configs (directoryOf document)
  | .listRules _ => configs "."
  | .init _ => [starterPath]

end StructureLint.CommandLine
