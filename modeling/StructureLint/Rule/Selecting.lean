import StructureLint.Rule.Basic
/-!
# Rules that select elements

Most rules select elements and report those for which some test fails. Such a rule is declared by
its selector and its test.
-/

namespace StructureLint

/-- A test of one element that tells whether the element offends. It may break off. -/
abbrev Violation := Document → NodeId → Except Panic Bool

/-- A rule declared by a selector and a test of the elements selected. -/
structure SelectingRule where
  name : String
  description : String := ""
  selector : Selector
  violation : Violation
  catalog : Catalog

namespace SelectingRule

/-- Declares a rule, unless its selector is refused. -/
def declare (name selector : String) (violation : Violation) (catalog : Catalog) :
    Except SelectorError SelectingRule :=
  (Selector.parse selector).map fun selector => { name, selector, violation, catalog }

/-- The elements for which the test tells that they offend, in order, unless it breaks off. -/
def offendersAmong (violation : Violation) (doc : Document) :
    List NodeId → Except Panic (List NodeId)
  | [] => .ok []
  | n :: ns =>
    match violation doc n with
    | .error p => .error p
    | .ok offends =>
      match offendersAmong violation doc ns with
      | .error p => .error p
      | .ok rest => .ok (if offends then n :: rest else rest)

/-- Selects and tests. -/
def evaluate (r : SelectingRule) (ctx : RunContext) (doc : Document) : Verdict :=
  match offendersAmong r.violation doc (doc.select r.selector) with
  | .error p => .error (.panicked p)
  | .ok offenders => Verdict.ofOffenders r.name r.catalog ctx offenders

/-- The declaration as a rule. -/
def toRule (r : SelectingRule) : Rule where
  name := r.name
  description := r.description
  catalog := r.catalog
  evaluate := r.evaluate

/-- The rule in short, as it is shown to a programmer. -/
def inspect (r : SelectingRule) : String :=
  "SelectorRule \x7b name: " ++ Text.quoted r.name ++ ", selector: "
    ++ Text.quoted r.selector.source ++ ", .. \x7d"

end SelectingRule

end StructureLint
