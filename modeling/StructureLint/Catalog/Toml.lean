import StructureLint.Catalog
import StructureLint.Toml.Reader
/-!
# Reading catalogs from TOML

A catalog is a document with a table for each language.
-/

namespace StructureLint

namespace Messages

/-- What a TOML value is to a message set. -/
def contentOf : Toml.Value → Content
  | .string text => .text text
  | v => .other v.found

/-- Reads a message set from a TOML table. -/
def decodeToml (v : Toml.Value) : Except ReadError Messages :=
  match v.entries? with
  | none => .error (v.refuse .messages)
  | some entries =>
    ofFields (entries.map fun e => (e.1, ⟨.ok (contentOf e.2), .ok (contentOf e.2)⟩)) true

end Messages

namespace Catalog

/-- Reads a catalog from the tables of a document. -/
def decodeToml (entries : List (String × Toml.Value)) : Except ReadError Catalog :=
  entries.foldlM (fun c e => (Messages.decodeToml e.2).map (c.language e.1)) empty

/-- Reads a catalog from a TOML text. -/
def ofToml (text : String) : Except ReadError Catalog :=
  (Toml.parse text).bind decodeToml

end Catalog

end StructureLint
