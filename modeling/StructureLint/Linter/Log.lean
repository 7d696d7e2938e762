import StructureLint.Linter.Basic
import StructureLint.Log
/-!
# What a linter logs

Registering rules and running them is logged line by line. The lines of a run stand in the order of
registration, as they do when rules are evaluated one after another. Times are given in words
(`displayElapsed`).
-/

namespace StructureLint

/-- The decimal digits of a number with zeros in front, `width` of them. -/
def paddedDigits (width n : Nat) : List Char :=
  let digits := Nat.toDigits 10 n
  List.replicate (width - digits.length) '0' ++ digits

/-- A number of nanoseconds in the unit of `10 ^ places` nanoseconds. A fraction is written as long
as it must be. -/
def inUnit (places : Nat) (unit : String) (ns : Nat) : String :=
  let whole := ns / Nat.pow 10 places
  let digits := paddedDigits places (ns % Nat.pow 10 places)
  let fraction := (digits.reverse.dropWhile (· == '0')).reverse
  toString whole ++ (if fraction.isEmpty then "" else "." ++ String.ofList fraction) ++ unit

/-- A number of nanoseconds in the largest unit that it reaches. -/
def displayElapsed (ns : Nat) : String :=
  if 1000000000 ≤ ns then inUnit 9 "s" ns
  else if 1000000 ≤ ns then inUnit 6 "ms" ns
  else if 1000 ≤ ns then inUnit 3 "µs" ns
  else inUnit 0 "ns" ns

namespace Linter

/-- The lines about registering rules one after another, up to the first that is refused. -/
def registrationLog (l : Linter) : List Rule → List LogLine
  | [] => []
  | r :: rs =>
    match l.register r with
    | .error _ => []
    | .ok l => .debug ("Registered rule: " ++ r.name) :: l.registrationLog rs

/-- The lines about evaluating one rule. Only a rule with a result is said to have finished. -/
def evaluationLog (l : Linter) (doc : Document) (ctx : RunContext) (given : Conditions)
    (r : Rule) : List LogLine :=
  let inside := l.contextFor ctx
  let elapsed := given.elapsed r.name
  [.debug ("Evaluating rule: " ++ r.name)] ++ (r.remarks inside doc).map .debug
    ++ match r.outcome inside doc l.config.ruleBudget elapsed with
      | .error _ => []
      | .ok finding =>
        [.debug ("Rule " ++ r.name ++ " finished in " ++ displayElapsed elapsed ++ ": "
          ++ toString ((finding.map Finding.occurrences).getD 0) ++ " occurrence(s)")]

/-- The lines about a run. -/
def runLog (l : Linter) (doc : Document) (ctx : RunContext) (given : Conditions) :
    List LogLine :=
  let report := l.run doc ctx given
  (if (l.contextFor ctx).defaultLang == ctx.defaultLang then []
    else [.debug ("Using configured default language " ++ l.config.defaultLang ++ " instead of "
      ++ ctx.defaultLang)])
  ++ ((l.rules.filter fun r => !l.config.isRuleEnabled r.name).map fun r =>
    .debug ("Skipping disabled rule: " ++ r.name))
  ++ [.info ("Running " ++ toString l.active.length ++ " rule(s) (lang: " ++ ctx.lang
    ++ ", parallel: " ++ toString l.config.parallel ++ ")")]
  ++ l.active.flatMap (l.evaluationLog doc ctx given)
  ++ (report.errors.map fun e => .warn e.display)
  ++ [.info ("Lint complete: " ++ toString report.findings.length ++ " finding(s), "
    ++ toString report.totalOccurrences ++ " occurrence(s), " ++ toString report.errors.length
    ++ " rule error(s)")]

end Linter

end StructureLint
