/-!
# What can be wrong with the text of a selector

The causes for which a selector is refused, with their wording.
-/

namespace StructureLint

/-- Why the text of a selector is refused. Positions are byte offsets into the UTF-8 text. -/
inductive SelectorError where
  /-- An alternative is missing. -/
  | empty (selector : String)
  /-- Two compounds are combined other than by a comma. -/
  | unsupportedCombinator (selector : String) (position : Nat)
  /-- A character stands where it may not. -/
  | unexpected (selector : String) (found : Char) (position : Nat)
  /-- The text ends inside square brackets. -/
  | unterminated (selector : String)
deriving DecidableEq, Repr

namespace SelectorError

/-- The wording of the error. -/
def message : SelectorError → String
  | .empty selector => "empty selector in `" ++ selector ++ "`"
  | .unsupportedCombinator selector position =>
    "combinators are not supported (`" ++ selector ++ "` at byte " ++ toString position ++ ")"
  | .unexpected selector found position =>
    "unexpected `" ++ String.singleton found ++ "` in `" ++ selector ++ "` at byte "
      ++ toString position
  | .unterminated selector => "unterminated attribute selector in `" ++ selector ++ "`"

/-- The identifier under which the error is reported. -/
def code : SelectorError → String
  | .empty _ => "doclint::selector::empty"
  | .unsupportedCombinator .. => "doclint::selector::combinator"
  | .unexpected .. => "doclint::selector::unexpected"
  | .unterminated _ => "doclint::selector::unterminated"

/-- Advice on how to avoid the error. -/
def help : SelectorError → Option String
  | .unsupportedCombinator .. =>
    some "query the outer element and walk children with the node interface"
  | _ => none

end SelectorError

end StructureLint
