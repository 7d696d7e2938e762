import StructureLint.Config
import StructureLint.Linter.Pool
import StructureLint.Report
import StructureLint.Rule.Basic
/-!
# The linter

A linter holds a configuration and the rules registered with it, no two of one name and each with
messages in the configured default language (`register`). A run evaluates the rules that are
enabled against one document and collects what they say in a report (`run`). It never fails: a rule
that breaks down or takes too long is noted in the report, and the others are evaluated as if it
were not there.

The time that a rule takes is not for the library to know; a run is given it (`Conditions`).
-/

namespace StructureLint

/-- Why a rule is not registered. -/
inductive RegistryError where
  /-- Another rule of this name is registered. -/
  | duplicate (name : String)
  /-- The catalog of the rule lacks the configured default language. -/
  | configuration (e : ConfigurationError)
deriving DecidableEq, Repr

namespace RegistryError

/-- The wording of the error. -/
def message : RegistryError → String
  | .duplicate name => "rule `" ++ name ++ "` is already registered"
  | .configuration e => e.message

/-- The identifier under which a second rule of one name is reported. -/
def duplicateCode : String := "doclint::duplicate_rule"

/-- Advice on a second rule of one name. -/
def duplicateHelp : String :=
  "rule names must be unique; the first registration stays active"

end RegistryError

/-- Rules and the configuration under which they run. -/
structure Linter where
  config : Config := {}
  /-- The rules, in the order of registration. -/
  rules : List Rule := []

/-- What a run cannot know by itself. -/
structure Conditions where
  /-- The time that the rule of a name takes, in nanoseconds. -/
  elapsed : String → Nat
  /-- The order in which a number of rules finish that are evaluated side by side. -/
  finishing : (n : Nat) → Pool.Order n := Pool.Order.listed

/-- What became of one rule: what it says about the document, or why it has no result. -/
abbrev Outcome := Except ExecutionError (Option Finding)

/-- What becomes of a rule that takes a time, under a limit in nanoseconds if there is one. -/
def Rule.outcome (r : Rule) (ctx : RunContext) (doc : Document) (budget : Option Nat)
    (elapsed : Nat) : Outcome :=
  match r.evaluate ctx doc with
  | .error (.failed e) => .error ⟨r.name, .failed e.message⟩
  | .error (.panicked p) => .error ⟨r.name, .panicked p.message⟩
  | .ok finding =>
    match budget with
    | none => .ok finding
    | some limit =>
      if limit < elapsed then
        .error ⟨r.name, .budgetExceeded (elapsed / 1000000) (limit / 1000000)⟩
      else .ok finding

/-- Adds what became of one rule to a report. -/
def Report.add (r : Report) : Outcome → Report
  | .ok none => { r with rulesRun := r.rulesRun + 1 }
  | .ok (some f) => { r with findings := r.findings ++ [f], rulesRun := r.rulesRun + 1 }
  | .error e => { r with errors := r.errors ++ [e], rulesRun := r.rulesRun + 1 }

/-- The report of what became of the rules, in order. -/
def Report.ofOutcomes (outcomes : List Outcome) : Report :=
  outcomes.foldl Report.add {}

namespace Linter

/-- The names of the rules, in the order of registration. -/
def ruleNames (l : Linter) : List String :=
  l.rules.map (·.name)

/-- The number of rules. -/
def ruleCount (l : Linter) : Nat :=
  l.rules.length

/-- Whether a rule of the name is registered. -/
def hasRule (l : Linter) (name : String) : Bool :=
  l.rules.any (·.name == name)

/-- Adds a rule at the end. Its name must be new, and its catalog must define the configured
default language. -/
def register (l : Linter) (r : Rule) : Except RegistryError Linter :=
  if l.hasRule r.name then .error (.duplicate r.name)
  else
    match r.catalog.validate l.config.defaultLang with
    | .error e => .error (.configuration (e.forRule r.name))
    | .ok () => .ok { l with rules := l.rules ++ [r] }

/-- Adds rules one after another, unless one is refused. -/
def registerAll (l : Linter) : List Rule → Except RegistryError Linter
  | [] => .ok l
  | r :: rs =>
    match l.register r with
    | .error e => .error e
    | .ok l => l.registerAll rs

/-- The linter with a configuration and rules, unless a rule is refused. -/
def build (config : Config) (rules : List Rule) : Except RegistryError Linter :=
  registerAll { config } rules

/-- The rules that are enabled, in the order of registration. -/
def active (l : Linter) : List Rule :=
  l.rules.filter fun r => l.config.isRuleEnabled r.name

/-- The context in which rules are evaluated: they fall back on the configured default language,
which their catalogs are known to define. -/
def contextFor (l : Linter) (ctx : RunContext) : RunContext :=
  ctx.withDefaultLang l.config.defaultLang

/-- What became of the enabled rules, in the order of registration. -/
def outcomes (l : Linter) (doc : Document) (ctx : RunContext) (given : Conditions) :
    List Outcome :=
  let outcome (r : Rule) : Outcome :=
    r.outcome (l.contextFor ctx) doc l.config.ruleBudget (given.elapsed r.name)
  if l.config.parallel then Pool.collect outcome l.active (given.finishing l.active.length)
  else l.active.map outcome

/-- Evaluates the enabled rules against a document. -/
def run (l : Linter) (doc : Document) (ctx : RunContext) (given : Conditions) : Report :=
  Report.ofOutcomes (l.outcomes doc ctx given)

end Linter

end StructureLint
