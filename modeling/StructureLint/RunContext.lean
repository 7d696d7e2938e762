import StructureLint.Catalog
import StructureLint.Document.Basic
import StructureLint.Text.Blank
/-!
# Context of a run

What all rules of one run share: the language asked for, the language that takes its place where a
catalog lacks it, and free-form metadata.
-/

namespace StructureLint

/-- What all rules of one run share. -/
structure RunContext where
  /-- The language of the messages. -/
  lang : String
  /-- The language used where a catalog lacks `lang`. -/
  defaultLang : String := defaultLanguage
  /-- Free-form data, such as the path of the document. -/
  metadata : KeyMap String := ∅
deriving DecidableEq, Repr

namespace RunContext

instance : Inhabited RunContext := ⟨{ lang := defaultLanguage }⟩

/-- The language a document says it is in: the attribute `lang` of its root, without blanks around
it, or the default language if there is nothing else. -/
def documentLanguage (doc : Document) : String :=
  match doc.attr doc.root "lang" with
  | none => defaultLanguage
  | some value =>
    let lang := Text.trim value
    if lang.isEmpty then defaultLanguage else lang

/-- A context that asks for the language of the document. -/
def forDocument (doc : Document) : RunContext :=
  { lang := documentLanguage doc }

/-- The same context with another language to fall back on. -/
def withDefaultLang (ctx : RunContext) (lang : String) : RunContext :=
  { ctx with defaultLang := lang }

/-- The same context with one more entry of metadata. -/
def withMetadata (ctx : RunContext) (key value : String) : RunContext :=
  { ctx with metadata := ctx.metadata.insert key value }

/-- The messages of a catalog in the language of the run. -/
def localize (ctx : RunContext) (catalog : Catalog) : Except ConfigurationError Messages :=
  catalog.resolve ctx.lang ctx.defaultLang

end RunContext

end StructureLint
