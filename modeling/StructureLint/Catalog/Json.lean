import StructureLint.Catalog
import StructureLint.Json.Reading
/-!
# Reading catalogs from JSON

A catalog is an object with a member for each language, whose value is a message set. The last
value of a repeated language or further text counts.
-/

namespace StructureLint

open Json (Reading)

namespace Messages

/-- What a JSON value is to a message set; none if that is a fault of the text. -/
def contentOf? : Reading → Option Content
  | .string (some text) => some (.text text)
  | .null => some .null
  | v => v.found?.map .other

/-- A JSON value as the value of a field, with `room` levels of arrays and objects left. -/
def fieldValue (room : Nat) (v : Reading) : FieldValue :=
  let content : Except ReadError Content :=
    match contentOf? v with
    | none => .error .malformed
    | some c => .ok c
  { atFirst := content
    inFull := if v.keepable room then content else .error .malformed }

/-- Reads a message set from JSON. -/
def decodeJson (room : Nat) : Reading → Except ReadError Messages
  | .object members closed =>
    if room = 0 then .error .malformed
    else
      ofFields ((Reading.named members).map fun m => (m.1, fieldValue (room - 1) m.2))
        (Reading.complete members closed)
  | v => .error (v.refuse .messages)

end Messages

namespace Catalog

/-- Reads the message sets of several languages. -/
def decodeLanguages (room : Nat) (c : Catalog) :
    List (String × Reading) → Except ReadError Catalog
  | [] => .ok c
  | (lang, v) :: ms =>
    match Messages.decodeJson room v with
    | .error e => .error e
    | .ok messages => decodeLanguages room (c.language lang messages) ms

/-- Reads a catalog from a JSON value. -/
def decodeJson (room : Nat) : Reading → Except ReadError Catalog
  | .object members closed =>
    if room = 0 then .error .malformed
    else
      match decodeLanguages (room - 1) empty (Reading.named members) with
      | .error e => .error e
      | .ok c => if Reading.complete members closed then .ok c else .error .malformed
  | v => .error (v.refuse .map)

/-- Reads a catalog from a JSON text. -/
def ofJson (text : String) : Except ReadError Catalog :=
  Json.readWith (decodeJson Reading.maxNesting) text

end Catalog

end StructureLint
