import StructureLint.ReadError
/-!
# TOML values

The data of a TOML text: the entries of a table stand in the order in which they were added to it.
-/

namespace StructureLint.Toml

/-- A TOML value. -/
inductive Value where
  | string (text : String)
  | integer (value : Int)
  /-- A number with a fraction or an exponent, as it is shown. -/
  | decimal (shown : String)
  | boolean (value : Bool)
  /-- A date, a time of day, or both, as it is shown. -/
  | dateTime (shown : String)
  | array (items : List Value)
  | table (entries : List (String × Value))
deriving Repr, Inhabited

namespace Value

/-- The key under which a date or time is found when it is looked at as a table. -/
def dateTimeKey : String := "$__toml_private_datetime"

/-- The entries of a table. A date or time is a table with a single entry. -/
def entries? : Value → Option (List (String × Value))
  | .table entries => some entries
  | .dateTime shown => some [(dateTimeKey, .string shown)]
  | _ => none

/-- What the value is, where something else is wanted. -/
def found : Value → Found
  | .string text => .string text
  | .integer value => .integer value
  | .decimal shown => .decimal shown
  | .boolean value => .boolean value
  | .dateTime _ => .map
  | .array _ => .sequence
  | .table _ => .map

/-- The error of a value that is not what is wanted. -/
def refuse (v : Value) (wanted : Wanted) : ReadError :=
  .wrongType v.found wanted

/-- The text of a string. -/
def asString : Value → Except ReadError String
  | .string text => .ok text
  | v => .error (v.refuse .string)

/-- The value of a boolean. -/
def asBoolean : Value → Except ReadError Bool
  | .boolean value => .ok value
  | v => .error (v.refuse .boolean)

end Value

end StructureLint.Toml
