import StructureLint.Linter.Basic
/-!
# A linter as it is shown to a programmer

One line with the names of the rules and the whole configuration.
-/

namespace StructureLint

/-- An optional value as it is shown to a programmer. -/
def inspectOption {α : Type} (inspect : α → String) : Option α → String
  | none => "None"
  | some a => "Some(" ++ inspect a ++ ")"

/-- Entries between braces. -/
def inspectMap (entries : List (String × String)) : String :=
  "\x7b" ++ ", ".intercalate (entries.map fun e => Text.quoted e.1 ++ ": " ++ e.2) ++ "\x7d"

/-- The name of a record and its fields between braces. -/
def inspectRecord (name : String) (fields : List (String × String)) : String :=
  name ++ " \x7b " ++ ", ".intercalate (fields.map fun f => f.1 ++ ": " ++ f.2) ++ " \x7d"

/-- Items between square brackets. -/
def inspectList (items : List String) : String :=
  "[" ++ ", ".intercalate items ++ "]"

/-- The configuration of one rule. -/
def RuleConfig.inspect (r : RuleConfig) : String :=
  inspectRecord "RuleConfig" [("enabled", inspectOption toString r.enabled)]

/-- A configuration. -/
def Config.inspect (c : Config) : String :=
  inspectRecord "Config"
    [("enabled", toString c.enabled),
     ("lang", inspectOption Text.quoted c.lang),
     ("default_lang", Text.quoted c.defaultLang),
     ("parallel", toString c.parallel),
     ("rule_budget_ms", inspectOption toString c.ruleBudgetMs),
     ("rules", inspectMap (c.rules.entries.map fun e => (e.1, e.2.inspect)))]

/-- A linter. -/
def Linter.inspect (l : Linter) : String :=
  inspectRecord "Linter"
    [("rules", inspectList (l.ruleNames.map Text.quoted)), ("config", l.config.inspect)]

end StructureLint
