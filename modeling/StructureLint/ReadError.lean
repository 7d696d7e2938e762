import StructureLint.Text.Quoted
/-!
# What can be wrong with data that is read

Texts in the formats TOML and JSON are read into values of the library. A text is refused because
it breaks the rules of its format, or because what it says does not fit the value wanted
(`ReadError`).
-/

namespace StructureLint

/-- What stands where something else is wanted. -/
inductive Found where
  | null
  | boolean (value : Bool)
  | integer (value : Int)
  /-- A number with a fraction or an exponent, as it is shown. -/
  | decimal (shown : String)
  | string (text : String)
  | sequence
  | map
deriving DecidableEq, Repr

/-- What is wanted. -/
inductive Wanted where
  | string
  | boolean
  /-- A whole number from 0 to 2^64 - 1. -/
  | unsigned
  | sequence
  | map
  | config
  | ruleConfig
  | messages
  | element
deriving DecidableEq, Repr

/-- How data that is well-formed can fail to fit the value wanted. -/
inductive Misfit where
  | unknownField (name : String) (known : List String)
  | missingField (name : String)
  | duplicateField (name : String)
  | wrongType (found : Found) (wanted : Wanted)
  | wrongValue (found : Found) (wanted : Wanted)
  /-- A sequence of this length stands for a structure with more mandatory fields. -/
  | wrongLength (length : Nat) (wanted : Wanted) (fields : Nat)
  /-- A sequence of this length stands for a structure with fewer fields. -/
  | surplus (length : Nat)
deriving DecidableEq, Repr

/-- Why a text is refused. -/
inductive ReadError where
  /-- The text breaks the rules of its format. -/
  | malformed
  /-- The text is well-formed as far as it was read, but does not fit. -/
  | misfit (cause : Misfit)
deriving DecidableEq, Repr

namespace Found

/-- The wording of what was found. -/
def display : Found → String
  | .null => "null"
  | .boolean value => "boolean `" ++ toString value ++ "`"
  | .integer value => "integer `" ++ toString value ++ "`"
  | .decimal shown => "floating point `" ++ shown ++ "`"
  | .string text => "string " ++ Text.quoted text
  | .sequence => "sequence"
  | .map => "map"

end Found

namespace Wanted

/-- The wording of what is wanted. -/
def display : Wanted → String
  | .string => "a string"
  | .boolean => "a boolean"
  | .unsigned => "u64"
  | .sequence => "a sequence"
  | .map => "a map"
  | .config => "struct Config"
  | .ruleConfig => "struct RuleConfig"
  | .messages => "struct Messages"
  | .element => "struct ElementSpec"

end Wanted

namespace Misfit

/-- A name between back quotes. -/
def named (name : String) : String :=
  "`" ++ name ++ "`"

/-- The wording of a list of known fields. -/
def expected : List String → String
  | [name] => "expected " ++ named name
  | names => "expected one of " ++ ", ".intercalate (names.map named)

/-- The wording of the failure. -/
def message : Misfit → String
  | .unknownField name known => "unknown field " ++ named name ++ ", " ++ expected known
  | .missingField name => "missing field " ++ named name
  | .duplicateField name => "duplicate field " ++ named name
  | .wrongType found wanted =>
    "invalid type: " ++ found.display ++ ", expected " ++ wanted.display
  | .wrongValue found wanted =>
    "invalid value: " ++ found.display ++ ", expected " ++ wanted.display
  | .wrongLength length wanted fields =>
    "invalid length " ++ toString length ++ ", expected " ++ wanted.display ++ " with "
      ++ toString fields ++ " elements"
  | .surplus length =>
    "invalid length " ++ toString length ++ ", expected fewer elements in array"

end Misfit

namespace ReadError

/-- Refuses a value of another type than wanted. -/
def wrongType (found : Found) (wanted : Wanted) : ReadError :=
  .misfit (.wrongType found wanted)

/-- The wording of the error. -/
def message : ReadError → String
  | .malformed => "malformed text"
  | .misfit cause => cause.message

end ReadError

end StructureLint
