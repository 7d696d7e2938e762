import StructureLint.CommandLine.Outcome
import StructureLint.ElementSpec.Json
import StructureLint.ElementTree.Nested
import StructureLint.Rule.HeadinglessSections
/-!
# Linting a document

The command `check`: reads the configuration and the document, selects and registers the rules,
runs them and prints the report.
-/

namespace StructureLint.CommandLine

/-- Reads a document from a file. -/
def readDocument (fs : Files) (path : String) : Except DocumentError ElementTree :=
  match fs.readText path with
  | .error e => .error (.unreadable e)
  | .ok text =>
    match ElementSpec.ofText text with
    | .error e => .error (.refused e)
    | .ok spec => .ok (.ofSpec spec)

/-- Reads a document and logs its size. -/
def loadDocument (fs : Files) (path : String) : Logged ElementTree := do
  let tree ← Logged.lift (.document path) (readDocument fs path)
  Logged.note [.debug ("Loaded document with " ++ toString tree.size ++ " element(s)")]
  return tree

/-- The names in a filter: what stands between commas, without blanks around it, unless nothing
is left. -/
def namesIn (filter : String) : List String :=
  ((filter.toList.splitOn ',').map fun cs => String.ofList (Text.trimChars cs)).filter
    (!·.isEmpty)

/-- The rules that a filter selects, in the order of the filter; without one, all rules. -/
def selectRules : Option String → List Rule
  | none => Rule.builtIn
  | some filter => (namesIn filter).filterMap Rule.builtIn?

/-- A warning for each name in a filter that no rule has. -/
def selectionLog : Option String → List LogLine
  | none => []
  | some filter =>
    ((namesIn filter).filter fun name => (Rule.builtIn? name).isNone).map fun name =>
      .warn ("Unknown rule: " ++ name)

/-- The linter with the rules selected. -/
def buildLinter (config : Config) (rules : List Rule) : Logged Linter := do
  Logged.note (({ config } : Linter).registrationLog rules)
  Logged.lift .registration (Linter.build config rules)

/-- The language asked for: by an option, or else by the configuration. -/
def requestedLang (option : Option String) (config : Config) : Option String :=
  option.or config.lang

/-- The context of a run. Where no language is asked for, the document tells. -/
def contextFor (path : String) (doc : Document) (config : Config) (lang : Option String) :
    RunContext :=
  let ctx : RunContext :=
    match requestedLang lang config with
    | some lang => { lang }
    | none => .forDocument doc
  (ctx.withDefaultLang config.defaultLang).withMetadata "source" path

/-- A report and the document it is about. -/
structure Checked where
  report : Report
  document : Document

/-- Lints the document at a path. -/
def check (fs : Files) (environment : Environment) (named : Option String) (path : String)
    (lang rules : Option String) (given : Conditions) : Logged Checked := do
  let config ← loadConfig fs environment (directoryOf path) named
  let tree ← loadDocument fs path
  let doc := tree.toDocument
  Logged.note (selectionLog rules)
  let linter ← buildLinter config (selectRules rules)
  let ctx := contextFor path doc config lang
  Logged.note
    [.info ("Linting " ++ path ++ " with " ++ toString linter.ruleCount ++ " rule(s)")]
  Logged.note (linter.runLog doc ctx given)
  return ⟨linter.run doc ctx given, doc⟩

end StructureLint.CommandLine
