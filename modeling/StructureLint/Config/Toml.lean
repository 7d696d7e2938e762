import StructureLint.Config
import StructureLint.Toml.Reader
/-!
# Reading configurations from TOML

A configuration is a document with no keys but those of `Config`; a table under `rules` configures
the rule of its key and has no key but `enabled`. Instead of such a table there may be an array,
whose first item is the value of `enabled`.
-/

namespace StructureLint

open Toml (Value)

namespace RuleConfig

/-- Reads the keys of the configuration of one rule. -/
def decodeEntries (r : RuleConfig) : List (String × Value) → Except ReadError RuleConfig
  | [] => .ok r
  | (key, v) :: es =>
    if key = "enabled" then
      match v.asBoolean with
      | .error e => .error e
      | .ok b => decodeEntries { r with enabled := some b } es
    else .error (.misfit (.unknownField key ["enabled"]))

/-- Reads the configuration of one rule. -/
def decode (v : Value) : Except ReadError RuleConfig :=
  match v with
  | .array [] => .ok {}
  | .array (item :: _) => item.asBoolean.map fun b => { enabled := some b }
  | v =>
    match v.entries? with
    | none => .error (v.refuse .ruleConfig)
    | some entries => decodeEntries {} entries

end RuleConfig

namespace Config

/-- The keys of a configuration. -/
def fields : List String :=
  ["enabled", "lang", "default_lang", "parallel", "rule_budget_ms", "rules"]

/-- Reads a whole number that is not negative. -/
def decodeUnsigned (v : Value) : Except ReadError Nat :=
  match v with
  | .integer i =>
    if i < 0 then .error (.misfit (.wrongValue v.found .unsigned)) else .ok i.toNat
  | v => .error (v.refuse .unsigned)

/-- Reads the configurations of rules. -/
def decodeRules (v : Value) : Except ReadError (KeyMap RuleConfig) :=
  match v.entries? with
  | none => .error (v.refuse .map)
  | some entries =>
    entries.foldlM (fun m e => (RuleConfig.decode e.2).map (m.insert e.1)) ∅

/-- Reads one key of a configuration. -/
def decodeEntry (c : Config) (key : String) (v : Value) : Except ReadError Config :=
  if key = "enabled" then v.asBoolean.map fun b => { c with enabled := b }
  else if key = "lang" then v.asString.map fun s => { c with lang := some s }
  else if key = "default_lang" then v.asString.map fun s => { c with defaultLang := s }
  else if key = "parallel" then v.asBoolean.map fun b => { c with parallel := b }
  else if key = "rule_budget_ms" then
    (decodeUnsigned v).map fun n => { c with ruleBudgetMs := some n }
  else if key = "rules" then (decodeRules v).map fun rules => { c with rules }
  else .error (.misfit (.unknownField key fields))

/-- Reads a configuration from the keys of a document. -/
def decode (entries : List (String × Value)) : Except ReadError Config :=
  entries.foldlM (fun c e => c.decodeEntry e.1 e.2) {}

/-- Reads a configuration from a TOML text. -/
def parse (text : String) : Except ReadError Config :=
  (Toml.parse text).bind decode

end Config

end StructureLint
