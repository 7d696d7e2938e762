import StructureLint.Finding
import StructureLint.RunContext
import StructureLint.Selector.Reader
/-!
# Rules

A rule looks at a document and either has nothing to say, or reports a finding, or breaks down.
Rules report through `Rule.findingFor`, which puts the messages of their catalog in the language of
the run to the offending elements.
-/

namespace StructureLint

/-- An error that a rule reports. -/
inductive RuleError where
  /-- The catalog of the rule lacks the default language. -/
  | configuration (e : ConfigurationError)
  /-- A selector that the rule uses is refused. -/
  | selector (e : SelectorError)
  | other (message : String)
deriving DecidableEq, Repr

/-- What a rule leaves that breaks off: a text, or nothing that can be shown. -/
inductive Panic where
  | text (message : String)
  | unprintable
deriving DecidableEq, Repr

/-- How a rule can fail to have a result. -/
inductive Breakdown where
  | failed (e : RuleError)
  | panicked (p : Panic)
deriving DecidableEq, Repr

namespace RuleError

/-- The wording of the error. -/
def message : RuleError → String
  | .configuration e => e.message
  | .selector e => e.message
  | .other message => message

end RuleError

namespace Panic

/-- The text shown for a rule that broke off. -/
def message : Panic → String
  | .text message => message
  | .unprintable => "non-string panic payload"

end Panic

/-- What a rule says about a document: nothing, or a finding, unless it breaks down. -/
abbrev Verdict := Except Breakdown (Option Finding)

/-- A check of the structure of documents. -/
structure Rule where
  name : String
  /-- A brief summary in no particular language. -/
  description : String := ""
  catalog : Catalog
  evaluate : RunContext → Document → Verdict
  /-- What the rule notes in the log while it is evaluated. -/
  remarks : RunContext → Document → List String := fun _ _ => []

/-- What a rule of this name and catalog says about these offending elements. -/
def Verdict.ofOffenders (name : String) (catalog : Catalog) (ctx : RunContext)
    (offenders : List NodeId) : Verdict :=
  if offenders.isEmpty then .ok none
  else
    match ctx.localize catalog with
    | .error e => .error (.failed (.configuration (e.forRule name)))
    | .ok messages => .ok (Finding.of? name offenders messages)

namespace Rule

/-- What the rule says about these offending elements. -/
def findingFor (r : Rule) (ctx : RunContext) (offenders : List NodeId) : Verdict :=
  Verdict.ofOffenders r.name r.catalog ctx offenders

end Rule

end StructureLint
