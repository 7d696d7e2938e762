import StructureLint.Messages
/-!
# Catalogs of messages

A catalog has one message set for each language it defines. A language is looked up exactly; where
it is missing, the default language takes its place (`resolve`). `validate` checks that the
default language is there, after which looking up any language succeeds.
-/

namespace StructureLint

/-- The language that catalogs define unless another is configured. -/
def defaultLanguage : String := "en"

/-- The messages of one rule by language. -/
structure Catalog where
  languages : KeyMap Messages
deriving DecidableEq, Repr

/-- A catalog does not define the default language. -/
structure ConfigurationError where
  /-- The rule that the catalog belongs to, if it is known. -/
  rule : Option String
  defaultLang : String
  /-- The languages that the catalog defines. -/
  available : String
deriving DecidableEq, Repr

namespace ConfigurationError

/-- The same error with the rule it belongs to. -/
def forRule (e : ConfigurationError) (rule : String) : ConfigurationError :=
  { e with rule := some rule }

/-- The wording of the error. -/
def message (e : ConfigurationError) : String :=
  "message catalog"
    ++ (match e.rule with
      | none => ""
      | some r => " of rule `" ++ r ++ "`")
    ++ " has no entry for default language `" ++ e.defaultLang ++ "` (available: " ++ e.available
    ++ ")"

/-- The identifier under which the error is reported. -/
def code : String := "doclint::configuration"

/-- Advice on how to avoid the error. -/
def help (e : ConfigurationError) : String :=
  "add a `" ++ e.defaultLang ++ "` message set to the catalog"

end ConfigurationError

namespace Catalog

/-- The catalog without languages. -/
def empty : Catalog := ⟨∅⟩

instance : Inhabited Catalog := ⟨empty⟩

/-- Adds the messages of a language, replacing earlier ones. -/
def language (c : Catalog) (lang : String) (messages : Messages) : Catalog :=
  ⟨c.languages.insert lang messages⟩

/-- The catalog of the message sets given, of which the last one counts for a language. -/
def ofList (sets : List (String × Messages)) : Catalog :=
  sets.foldl (fun c e => c.language e.1 e.2) empty

/-- The messages of exactly this language. -/
def get? (c : Catalog) (lang : String) : Option Messages :=
  c.languages.get? lang

/-- Whether the catalog defines exactly this language. -/
def contains (c : Catalog) (lang : String) : Bool :=
  c.languages.contains lang

/-- The languages defined, in increasing order. -/
def codes (c : Catalog) : List String :=
  c.languages.keys

/-- The languages defined, as an error lists them. -/
def available (c : Catalog) : String :=
  ", ".intercalate c.codes

/-- Checks that the default language is defined. -/
def validate (c : Catalog) (defaultLang : String) : Except ConfigurationError Unit :=
  if c.contains defaultLang then .ok ()
  else .error { rule := none, defaultLang, available := c.available }

/-- The messages of the language requested, or else those of the default language. -/
def resolve (c : Catalog) (requested defaultLang : String) : Except ConfigurationError Messages :=
  match c.get? requested with
  | some messages => .ok messages
  | none =>
    match c.get? defaultLang with
    | some messages => .ok messages
    | none => .error { rule := none, defaultLang, available := c.available }

/-- A catalog as JSON: an object with one member for each language. -/
def toJson (c : Catalog) : Json :=
  .object (c.languages.entries.map fun e => (e.1, e.2.toJson))

end Catalog

end StructureLint
