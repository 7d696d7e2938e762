import StructureLint.ElementSpec
import StructureLint.Json.Basic
import StructureLint.Json.Reading
/-!
# Descriptions of documents as JSON

An element is written as an object with its name, and with its attributes and children if it has
any (`toJson`). It is read from such an object, whose unknown fields are passed over, or from an
array of the three fields in this order, of which the last two may be missing (`decode`).

Reading and writing meet at a limit: a text may have no more than `Json.Reading.maxNesting` levels
of arrays and objects, and `nesting` counts those that a description needs.
-/

namespace StructureLint.ElementSpec

mutual

/-- An element as JSON. -/
def toJson : ElementSpec → Json
  | ⟨name, attributes, children⟩ =>
    .object (("name", .string name)
      :: ((if attributes.isEmpty then []
          else [("attributes", .object (attributes.entries.map fun e => (e.1, .string e.2)))])
        ++ (if children.isEmpty then [] else [("children", .array (allToJson children))])))

/-- Several elements as JSON. -/
def allToJson : List ElementSpec → List Json
  | [] => []
  | s :: ss => toJson s :: allToJson ss

end

/-- The text in which a description is kept. -/
def toText (s : ElementSpec) : String :=
  s.toJson.compact

mutual

/-- The number of levels of arrays and objects in the text of a description. -/
def nesting : ElementSpec → Nat
  | ⟨_, attributes, children⟩ =>
    1 + max (if attributes.isEmpty then 0 else 1) (nestings children)

/-- The number of levels in the text of the children, with their array. -/
def nestings : List ElementSpec → Nat
  | [] => 0
  | s :: ss => max (1 + s.nesting) (nestings ss)

end

open StructureLint.Json (Reading)

/-- The entries of a map of texts, up to its end. -/
def decodeEntries (m : KeyMap String) :
    List (String × Reading) → Except ReadError (KeyMap String)
  | [] => .ok m
  | (key, v) :: es =>
    match v.asString with
    | .error e => .error e
    | .ok s => decodeEntries (m.insert key s) es

/-- A map of texts, with `room` levels of arrays and objects left. The last of several values of a
key counts. -/
def decodeAttributes (room : Nat) : Reading → Except ReadError (KeyMap String)
  | .object members closed =>
    if room = 0 then .error .malformed
    else
      match decodeEntries ∅ (Reading.named members) with
      | .error e => .error e
      | .ok m => if Reading.complete members closed then .ok m else .error .malformed
  | v => .error (v.refuse .map)

/-- The fields of an element that have been read. -/
structure Draft where
  name : Option String := none
  attributes : Option (KeyMap String) := none
  children : Option (List ElementSpec) := none

/-- The element that the fields make up, once all have been read. -/
def Draft.finish (d : Draft) : Except ReadError ElementSpec :=
  match d.name with
  | none => .error (.misfit (.missingField "name"))
  | some name => .ok ⟨name, d.attributes.getD ∅, d.children.getD []⟩

/-- Refuses a field that is given twice. -/
def once {α : Type} (field : String) : Option α → Except ReadError Unit
  | none => .ok ()
  | some _ => .error (.misfit (.duplicateField field))

/-- A sequence that has ended although something more is wanted, or a text with a fault. -/
def short {α : Type} (closed : Bool) (a : Except ReadError α) : Except ReadError α :=
  if closed then a else .error .malformed

mutual

/-- An element, with `room` levels of arrays and objects left. -/
def decode (room : Nat) : Reading → Except ReadError ElementSpec
  | .object members closed =>
    if room = 0 then .error .malformed
    else
      match decodeFields (room - 1) {} members with
      | .error e => .error e
      | .ok d => if closed then d.finish else .error .malformed
  | .array [] closed =>
    if room = 0 then .error .malformed
    else short closed (.error (.misfit (.wrongLength 0 .element 3)))
  | .array (v :: vs) closed =>
    if room = 0 then .error .malformed
    else
      match v.asString with
      | .error e => .error e
      | .ok name =>
        match vs with
        | [] => short closed (.ok ⟨name, ∅, []⟩)
        | w :: ws =>
          match decodeAttributes (room - 1) w with
          | .error e => .error e
          | .ok attributes =>
            match ws with
            | [] => short closed (.ok ⟨name, attributes, []⟩)
            | x :: xs =>
              match decodeChildren (room - 1) x with
              | .error e => .error e
              | .ok children =>
                if xs.isEmpty then short closed (.ok ⟨name, attributes, children⟩)
                else .error (.misfit (.surplus (vs.length + 1)))
  | v => .error (v.refuse .element)

/-- The fields of an element, in the order of the text. Unknown fields need only be sound. -/
def decodeFields (room : Nat) (d : Draft) :
    List (Option String × Reading) → Except ReadError Draft
  | [] => .ok d
  | (none, _) :: _ => .error .malformed
  | (some key, v) :: ms =>
    if key = "name" then
      match once key d.name with
      | .error e => .error e
      | .ok () =>
        match v.asString with
        | .error e => .error e
        | .ok name => decodeFields room { d with name := some name } ms
    else if key = "attributes" then
      match once key d.attributes with
      | .error e => .error e
      | .ok () =>
        match decodeAttributes room v with
        | .error e => .error e
        | .ok attributes => decodeFields room { d with attributes := some attributes } ms
    else if key = "children" then
      match once key d.children with
      | .error e => .error e
      | .ok () =>
        match decodeChildren room v with
        | .error e => .error e
        | .ok children => decodeFields room { d with children := some children } ms
    else if v.sound then decodeFields room d ms
    else .error .malformed

/-- An array of elements, with `room` levels of arrays and objects left. -/
def decodeChildren (room : Nat) : Reading → Except ReadError (List ElementSpec)
  | .array items closed =>
    if room = 0 then .error .malformed
    else
      match decodeItems (room - 1) items with
      | .error e => .error e
      | .ok specs => if closed then .ok specs else .error .malformed
  | v => .error (v.refuse .sequence)

/-- The items of an array of elements. -/
def decodeItems (room : Nat) : List Reading → Except ReadError (List ElementSpec)
  | [] => .ok []
  | v :: vs =>
    match decode room v with
    | .error e => .error e
    | .ok s =>
      match decodeItems room vs with
      | .error e => .error e
      | .ok ss => .ok (s :: ss)

end

/-- How an error counts in a text: an array is over after the last field, so that anything more is
a fault of the text. -/
def errorInText : ReadError → ReadError
  | .misfit (.surplus _) => .malformed
  | e => e

/-- Reads the description of a document from JSON. -/
def ofText (text : String) : Except ReadError ElementSpec :=
  (Json.readWith (decode Reading.maxNesting) text).mapError errorInText

end StructureLint.ElementSpec
