import StructureLint.Finding
/-!
# Reports

The result of one run: the findings, the rules that could not be evaluated and why, each in the
order of registration, and the number of rules that ran.
-/

namespace StructureLint

/-- Why a rule has no result. -/
inductive ExecutionFailure where
  /-- The rule reported an error. -/
  | failed (message : String)
  /-- The rule broke off. -/
  | panicked (message : String)
  /-- The rule finished, but took longer than it may. Both times are in milliseconds. -/
  | budgetExceeded (elapsed budget : Nat)
deriving DecidableEq, Repr

/-- A rule that has no result. -/
structure ExecutionError where
  rule : String
  cause : ExecutionFailure
deriving DecidableEq, Repr

/-- The result of one run. -/
structure Report where
  findings : List Finding := []
  errors : List ExecutionError := []
  rulesRun : Nat := 0
deriving DecidableEq

namespace ExecutionFailure

/-- The wording of a failure. -/
def display : ExecutionFailure → String
  | .failed message => "failed: " ++ message
  | .panicked message => "panicked: " ++ message
  | .budgetExceeded elapsed budget =>
    "exceeded budget: " ++ toString elapsed ++ "ms > " ++ toString budget ++ "ms"

/-- A failure as JSON. -/
def toJson : ExecutionFailure → Json
  | .failed message => .object [("kind", .string "failed"), ("message", .string message)]
  | .panicked message => .object [("kind", .string "panicked"), ("message", .string message)]
  | .budgetExceeded elapsed budget =>
    .object [("kind", .string "budget_exceeded"), ("elapsed_ms", .integer elapsed),
      ("budget_ms", .integer budget)]

end ExecutionFailure

namespace ExecutionError

/-- The identifier under which the error is reported. -/
def code : String := "doclint::rule_execution"

/-- The wording of the error. -/
def display (e : ExecutionError) : String :=
  "rule `" ++ e.rule ++ "` " ++ e.cause.display

/-- The error as JSON. -/
def toJson (e : ExecutionError) : Json :=
  .object [("rule", .string e.rule), ("cause", e.cause.toJson)]

end ExecutionError

namespace Report

/-- No rule was broken and every rule has a result. -/
def isClean (r : Report) : Bool :=
  r.findings.isEmpty && r.errors.isEmpty

/-- Some rule has no result. -/
def hasErrors (r : Report) : Bool :=
  !r.errors.isEmpty

/-- The number of offending elements of all findings together. -/
def totalOccurrences (r : Report) : Nat :=
  r.findings.foldr (·.occurrences + ·) 0

/-- The finding of a rule. -/
def finding? (r : Report) (rule : String) : Option Finding :=
  r.findings.find? (·.rule == rule)

/-- Two reports one after the other. -/
def append (r s : Report) : Report :=
  ⟨r.findings ++ s.findings, r.errors ++ s.errors, r.rulesRun + s.rulesRun⟩

instance : Append Report := ⟨append⟩

/-- A report as JSON; the errors are left out if there are none. -/
def toJson (r : Report) : Json :=
  .object
    (("findings", .array (r.findings.map Finding.toJson))
      :: ((if r.errors.isEmpty then []
          else [("errors", .array (r.errors.map ExecutionError.toJson))])
        ++ [("rulesRun", .integer r.rulesRun)]))

/-- The numbers of a report in one line. -/
def summary (r : Report) : String :=
  "Found " ++ toString r.findings.length ++ " finding(s) with " ++ toString r.totalOccurrences
    ++ " occurrence(s), " ++ toString r.errors.length ++ " rule error(s) from "
    ++ toString r.rulesRun ++ " rule(s)"

/-- A report in several lines. -/
def formatText (r : Report) (doc : Document) : String :=
  String.join
    ((r.findings.map fun f => f.format doc ++ "\n")
    ++ (r.errors.map fun e => "error: " ++ e.display ++ "\n\n")
    ++ [r.summary ++ "\n"])

end Report

end StructureLint
