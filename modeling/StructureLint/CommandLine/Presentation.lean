import StructureLint.Report
import StructureLint.Text.Wrapped
/-!
# Presenting a report

A report is printed as text for people, as JSON, or with one line to a problem. The text is made of
diagnostics for a screen of 80 columns: a finding is shown as a warning with advice, an execution
error under its identifier.
-/

namespace StructureLint

/-- How a report is printed. -/
inductive Format where
  | text
  | json
  | compact
deriving DecidableEq, Repr

/-- The name of a format. -/
def Format.name : Format → String
  | .text => "text"
  | .json => "json"
  | .compact => "compact"

/-- The format of a name. -/
def Format.ofName? (name : String) : Option Format :=
  [Format.text, .json, .compact].find? (·.name == name)

/-- The warning about a finding, and its advice. -/
def Finding.diagnostic (f : Finding) : List String :=
  Text.wrapped 74 "  ⚠ " "  │ " f.display ++ Text.wrapped 68 "  help: " "        " f.advice

/-- The identifier of an execution error and the error. -/
def ExecutionError.diagnostic (e : ExecutionError) : List String :=
  [ExecutionError.code, ""] ++ Text.wrapped 74 "  × " "  │ " e.display

namespace Report

/-- The lines about one finding: the diagnostic, and where the offending elements are. -/
def findingLines (doc : Document) (f : Finding) : List String :=
  f.diagnostic ++ [""] ++ (f.offendingElements.map fun n => "    at " ++ doc.elementPath n) ++ [""]

/-- The colour of the summary: red for errors, yellow for findings, green for none. -/
def summaryColour (r : Report) : String :=
  if r.hasErrors then "\x1b[31m" else if r.findings.isEmpty then "\x1b[32m" else "\x1b[33m"

/-- The lines for people. -/
def textLines (r : Report) (doc : Document) : List String :=
  r.findings.flatMap (findingLines doc) ++ (r.errors.flatMap fun e => e.diagnostic ++ [""])
    ++ [r.summaryColour ++ r.summary ++ "\x1b[0m"]

/-- The line about one offending element. -/
def problemLine (doc : Document) (f : Finding) (n : NodeId) : String :=
  doc.elementPath n ++ ": [" ++ f.rule ++ "] " ++ f.messages.description

/-- One line for each offending element and for each execution error. -/
def compactLines (r : Report) (doc : Document) : List String :=
  (r.findings.flatMap fun f => f.offendingElements.map (problemLine doc f))
    ++ r.errors.map fun e => "error: " ++ e.display

/-- The lines of a report in a format. -/
def lines (r : Report) (doc : Document) : Format → List String
  | .text => r.textLines doc
  | .json => [r.toJson.pretty]
  | .compact => r.compactLines doc

/-- Lines with their ends. -/
def unlines (ls : List String) : String :=
  String.join (ls.map (· ++ "\n"))

/-- A report as it is printed. -/
def present (r : Report) (doc : Document) (format : Format) : String :=
  unlines (r.lines doc format)

end Report

end StructureLint
