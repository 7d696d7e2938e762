import StructureLint.CommandLine.Outcome
/-!
# A configuration to start with

The command `init`: writes `doclint.toml` to the working directory. What is there already is only
replaced if asked for.
-/

namespace StructureLint.CommandLine

/-- The path of the configuration that is written. -/
def starterPath : String := "doclint.toml"

/-- The configuration to start with. -/
def starterText : String :=
  Report.unlines
    ["# doclint configuration",
     "",
     "# Master switch for all rules",
     "enabled = true",
     "",
     "# Message language; when unset the document's <html lang> is used",
     "# lang = \"nl\"",
     "",
     "# Language every rule's messages must provide",
     "default_lang = \"en\"",
     "",
     "# Evaluate rules on a thread pool",
     "parallel = false",
     "",
     "# Per-rule wall-clock budget in milliseconds",
     "# rule_budget_ms = 250",
     "",
     "[rules.no-headingless-sections]",
     "enabled = true"]

/-- What is said after writing. -/
def starterNotice : List String :=
  ["Created doclint.toml", "", "Next steps:", "  1. Edit doclint.toml to configure rules",
    "  2. Run: doclint check <document.json>"]

/-- Writes the configuration; the result is what the files are afterwards. -/
def writeStarter (fs : Files) (force : Bool) : Except Failure Files :=
  if fs.isPresent starterPath && !force then .error .alreadyThere
  else
    match fs.writeText starterPath starterText with
    | .error e => .error (.unwritable e)
    | .ok fs => .ok fs

end StructureLint.CommandLine
