import StructureLint.Rule.Basic
/-!
# Sections begin with a heading

A section without a heading does not show up in the outline of a document, and screen readers
cannot announce it. The rule reports every `section` whose first child is not a heading `h1` to
`h6`, also those without children; names are compared without regard to case. No other rule is
built in.
-/

namespace StructureLint

namespace Document

/-- A heading: `h` in either case and a digit from 1 to 6. -/
def isHeading (name : String) : Bool :=
  match name.toList with
  | [h, level] => (h == 'h' || h == 'H') && '1' ≤ level && level ≤ '6'
  | _ => false

/-- Whether the first child of an element is missing, has no name, or is no heading. -/
def hasNoHeading (doc : Document) (n : NodeId) : Bool :=
  match (doc.firstElementChild n).bind doc.localName with
  | none => true
  | some name => !isHeading name

end Document

namespace HeadinglessSections

/-- The name of the rule. -/
def name : String := "no-headingless-sections"

/-- The messages that come with the rule. -/
def messages : Catalog :=
  Catalog.ofList
    [("en",
      { description := "All sections must start with a `h2-6` element."
        howToFix := "Add a `h2-6` to the offending section or use a `<div>`."
        help := some "See developer console." }),
     ("nl",
      { description := "Alle secties moeten beginnen met een `h2-6` element."
        howToFix := "Voeg een `h2-6` toe aan de conflicterende sectie of gebruik een `<div>`."
        help := some "Zie de developer console." }),
     ("zh",
      { description := "所有章节（section）都必须以 `h2-6` 元素开头。"
        howToFix := "将 `h2-6` 添加到有问题的章节或使用 `<div>`。" })]

/-- The sections of a document. -/
def sections (doc : Document) : Except SelectorError (List NodeId) :=
  doc.query "section"

/-- The sections without a heading. -/
def offenders (doc : Document) : Except SelectorError (List NodeId) :=
  (sections doc).map (·.filter doc.hasNoHeading)

/-- Reports the sections without a heading. -/
def evaluate (catalog : Catalog) (ctx : RunContext) (doc : Document) : Verdict :=
  match offenders doc with
  | .error e => .error (.failed (.selector e))
  | .ok found => Verdict.ofOffenders name catalog ctx found

/-- How many sections were found, and how many of them offend. -/
def remarks (_ : RunContext) (doc : Document) : List String :=
  match sections doc, offenders doc with
  | .ok all, .ok found =>
    [name ++ ": " ++ toString found.length ++ " of " ++ toString all.length
      ++ " section(s) lack a heading"]
  | _, _ => []

/-- The rule, with the messages of a catalog. -/
def rule (catalog : Catalog) : Rule where
  name := name
  description := "Requires every section to start with a heading element"
  catalog := catalog
  evaluate := evaluate catalog
  remarks := remarks

end HeadinglessSections

namespace Rule

/-- All built-in rules, in their usual order. -/
def builtIn : List Rule :=
  [HeadinglessSections.rule HeadinglessSections.messages]

/-- The built-in rule of a name. -/
def builtIn? (name : String) : Option Rule :=
  builtIn.find? (·.name == name)

end Rule

end StructureLint
