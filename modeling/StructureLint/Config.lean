import StructureLint.Catalog
/-!
# Configuration

What a run of the linter can be told: whether to run at all, the language of the messages, the
language that every rule must have messages in, whether rules are evaluated side by side, how long
a rule may take, and which rules are switched off.
-/

namespace StructureLint

/-- What is configured for one rule. -/
structure RuleConfig where
  enabled : Option Bool := none
deriving DecidableEq, Repr

/-- The configuration of a linter. -/
structure Config where
  /-- When false, no rule runs. -/
  enabled : Bool := true
  /-- The language of the messages, if one is asked for. -/
  lang : Option String := none
  /-- The language that every catalog must define. -/
  defaultLang : String := defaultLanguage
  /-- Whether rules are evaluated side by side. -/
  parallel : Bool := false
  /-- How long a rule may take, in milliseconds. -/
  ruleBudgetMs : Option Nat := none
  /-- What is configured for each rule. -/
  rules : KeyMap RuleConfig := ∅
deriving DecidableEq, Repr

namespace Config

instance : Inhabited Config := ⟨{}⟩

/-- Whether a rule is to run. -/
def isRuleEnabled (c : Config) (rule : String) : Bool :=
  c.enabled &&
    match c.rules.get? rule with
    | none => true
    | some r => r.enabled.getD true

/-- A number of milliseconds in nanoseconds. -/
def nanoseconds (ms : Nat) : Nat := ms * 1000000

/-- How long a rule may take, in nanoseconds. -/
def ruleBudget (c : Config) : Option Nat :=
  c.ruleBudgetMs.map nanoseconds

end Config

end StructureLint
