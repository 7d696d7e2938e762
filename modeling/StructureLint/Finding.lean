import StructureLint.Document.Path
import StructureLint.Messages
/-!
# Findings

A finding is what a rule has to say about a document that breaks it: which elements offend, and the
messages in one language. There is always at least one offending element.
-/

namespace StructureLint

/-- The offending elements that a rule found, with its messages. -/
structure Finding where
  rule : String
  /-- The offending elements, in the order in which they were reported. -/
  offendingElements : List NodeId
  messages : Messages
  offending_ne_nil : offendingElements ≠ []
deriving DecidableEq

namespace Finding

/-- A finding about these elements; none if there are none. -/
def of? (rule : String) (offenders : List NodeId) (messages : Messages) : Option Finding :=
  if h : offenders = [] then none else some ⟨rule, offenders, messages, h⟩

/-- The number of offending elements. -/
def occurrences (f : Finding) : Nat :=
  f.offendingElements.length

theorem occurrences_pos (f : Finding) : 0 < f.occurrences :=
  List.length_pos_iff.2 f.offending_ne_nil

/-- The keys that the JSON form of every finding uses itself. -/
def reservedKeys : List String :=
  ["name", "occurrences", "offendingElements", "description", "howToFix", "help"]

/-- A finding as JSON. Further texts under a reserved key are left out, so no key occurs twice. -/
def toJson (f : Finding) : Json :=
  .object
    ([("name", .string f.rule), ("occurrences", .integer f.occurrences),
      ("offendingElements", .array (f.offendingElements.map fun n => .integer n.index)),
      ("description", .string f.messages.description), ("howToFix", .string f.messages.howToFix)]
    ++ (f.messages.help.toList.map fun h => ("help", .string h))
    ++ ((f.messages.extra.entries.filter fun e => e.1 ∉ reservedKeys).map fun e =>
      (e.1, .string e.2)))

/-- How often the rule is broken, in words. -/
def countText (f : Finding) : String :=
  "(" ++ toString f.occurrences ++ " occurrence(s))"

/-- A finding in one line. -/
def display (f : Finding) : String :=
  "[" ++ f.rule ++ "] " ++ f.messages.description ++ " " ++ f.countText

/-- The advice that goes with a finding: how to comply and, on a line of its own, the help. -/
def advice (f : Finding) : String :=
  match f.messages.help with
  | none => f.messages.howToFix
  | some help => f.messages.howToFix ++ "\n" ++ help

/-- A finding in several lines, with the paths of the offending elements. -/
def format (f : Finding) (doc : Document) : String :=
  String.join
    ([f.rule ++ " " ++ f.countText ++ "\n", "  " ++ f.messages.description ++ "\n"]
    ++ (f.offendingElements.map fun n => "  - " ++ doc.elementPath n ++ "\n")
    ++ ["  = fix: " ++ f.messages.howToFix ++ "\n"]
    ++ (f.messages.help.toList.map fun h => "  = help: " ++ h ++ "\n"))

end Finding

end StructureLint
