import StructureLint.CommandLine.Outcome
import StructureLint.Rule.HeadinglessSections
/-!
# Listing the rules

The command `list-rules`: a table of the built-in rules with the languages of their messages.
-/

namespace StructureLint.CommandLine

/-- A text with blanks after it, to a number of characters at least. -/
def padded (length : Nat) (s : String) : String :=
  s ++ String.ofList (List.replicate (length - s.length) ' ')

/-- One line of the table. -/
def tableLine (name languages description : String) : String :=
  padded 28 name ++ " " ++ padded 12 languages ++ " " ++ description

/-- The language of the descriptions: asked for by an option, or by the configuration, or else
the one that every rule has. -/
def listingLang (option : Option String) (config : Config) : String :=
  (option.or config.lang).getD config.defaultLang

/-- What a rule requires, in a language or in the configured default language; failing both, its
own summary. -/
def describe (r : Rule) (lang defaultLang : String) : String :=
  match r.catalog.resolve lang defaultLang with
  | .ok messages => messages.description
  | .error _ => r.description

/-- The line about a rule. -/
def ruleLine (lang defaultLang : String) (r : Rule) : String :=
  tableLine r.name (",".intercalate r.catalog.codes) (describe r lang defaultLang)

/-- The lines of the listing. -/
def listing (config : Config) (lang : Option String) : List String :=
  ["Available rules:", "", tableLine "Name" "Languages" "Description",
    String.ofList (List.replicate 80 '-')]
  ++ Rule.builtIn.map (ruleLine (listingLang lang config) config.defaultLang)
  ++ ["", "Disable a rule in doclint.toml:", "  [rules.no-headingless-sections]",
    "  enabled = false", "", "Use --rules to run specific rules, e.g.:",
    "  doclint check --rules no-headingless-sections index.json"]

/-- Lists the rules. -/
def listRules (fs : Files) (environment : Environment) (named lang : Option String) :
    Logged (List String) := do
  let config ← loadConfig fs environment "." named
  return listing config lang

end StructureLint.CommandLine
