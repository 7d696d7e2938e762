import StructureLint.Json.Basic
import StructureLint.KeyMap
import StructureLint.ReadError
/-!
# Messages of a rule

The text of one rule in one language: what the rule requires, how to comply, perhaps where to look
for more, and any further texts under keys of their own.

`Messages.ofFields` is the common part of reading a message set from TOML and from JSON. Each
field is looked at twice: as soon as its value begins, which decides about the known fields, and
once it has been read to its end, which decides about the further ones.
-/

namespace StructureLint

/-- The text of one rule in one language. -/
structure Messages where
  /-- What the rule requires. -/
  description : String
  /-- How to make a document comply. -/
  howToFix : String
  /-- Where to look for more. -/
  help : Option String := none
  /-- Further texts. -/
  extra : KeyMap String := ∅
deriving DecidableEq, Repr

namespace Messages

/-- The same messages with a help text. -/
def withHelp (m : Messages) (help : String) : Messages :=
  { m with help := some help }

/-- The same messages with a further text, which replaces an earlier one under its key. -/
def withField (m : Messages) (key value : String) : Messages :=
  { m with extra := m.extra.insert key value }

/-- The members of a message set as JSON: the fields first, then the further texts, also those
whose key is the name of a field. -/
def toJson (m : Messages) : Json :=
  .object ([("description", .string m.description), ("howToFix", .string m.howToFix)]
    ++ (m.help.toList.map fun h => ("help", .string h))
    ++ (m.extra.entries.map fun e => (e.1, .string e.2)))

/-! ## Reading -/

/-- What a value is to a message set. -/
inductive Content where
  | text (s : String)
  | null
  | other (found : Found)
deriving DecidableEq, Repr

/-- The value of a field, as it shows when it begins and when it has been read to its end. -/
structure FieldValue where
  atFirst : Except ReadError Content
  inFull : Except ReadError Content

/-- The text that a value must be. -/
def Content.asText : Content → Except ReadError String
  | .text s => .ok s
  | .null => .error (.wrongType .null .string)
  | .other found => .error (.wrongType found .string)

/-- The text that a value must be unless it is null. -/
def Content.asOptionalText : Content → Except ReadError (Option String)
  | .null => .ok none
  | c => c.asText.map some

/-- The fields of a message set. -/
inductive Field where
  | description
  | howToFix
  | help
deriving DecidableEq, Repr

/-- The field that a key names. Advice goes by either of two keys. -/
def Field.ofKey? (key : String) : Option Field :=
  if key = "description" then some .description
  else if key = "howToFix" ∨ key = "how_to_fix" then some .howToFix
  else if key = "help" then some .help
  else none

/-- The name under which a field is missed or found twice. -/
def Field.name : Field → String
  | .description => "description"
  | .howToFix => "howToFix"
  | .help => "help"

/-- The fields that have been read, and the further ones in the order of the text. -/
structure Draft where
  description : Option String := none
  howToFix : Option String := none
  help : Option (Option String) := none
  others : List (String × Content) := []

/-- Whether a field has been read. -/
def Draft.hasField (d : Draft) : Field → Bool
  | .description => d.description.isSome
  | .howToFix => d.howToFix.isSome
  | .help => d.help.isSome

/-- Adds one field. A field must not be read twice; the further ones may. -/
def Draft.add (d : Draft) (key : String) (v : FieldValue) : Except ReadError Draft :=
  match Field.ofKey? key with
  | none => do
    let c ← v.inFull
    return { d with others := d.others ++ [(key, c)] }
  | some field =>
    if d.hasField field then .error (.misfit (.duplicateField field.name))
    else
      match field with
      | .description => do
        let s ← (← v.atFirst).asText
        return { d with description := some s }
      | .howToFix => do
        let s ← (← v.atFirst).asText
        return { d with howToFix := some s }
      | .help => do
        let s ← (← v.atFirst).asOptionalText
        return { d with help := some s }

/-- The further texts, of which the last one counts for a key. -/
def collectExtra (others : List (String × Content)) : Except ReadError (KeyMap String) :=
  others.foldlM (fun m e => do return m.insert e.1 (← e.2.asText)) ∅

/-- The message set that the fields make up, once all have been read. -/
def Draft.finish (d : Draft) : Except ReadError Messages :=
  match d.description, d.howToFix with
  | none, _ => .error (.misfit (.missingField Field.description.name))
  | _, none => .error (.misfit (.missingField Field.howToFix.name))
  | some description, some howToFix => do
    let extra ← collectExtra d.others
    return { description, howToFix, help := d.help.getD none, extra }

/-- Reads a message set from its fields. If they are not `complete`, the text has a fault in or
after the last one. -/
def ofFields (fields : List (String × FieldValue)) (complete : Bool) :
    Except ReadError Messages := do
  let d ← fields.foldlM (fun d e => d.add e.1 e.2) ({} : Draft)
  if complete then d.finish else .error .malformed

end Messages

end StructureLint
