import StructureLint.Config.Toml
import StructureLint.Files.Basic
/-!
# Configuration files
-/

namespace StructureLint

/-- Why a configuration file is refused. -/
inductive ConfigError where
  | unreadable (path : String) (cause : FileError)
  | refused (cause : ReadError)
deriving DecidableEq, Repr

namespace ConfigError

/-- The wording of the error. -/
def message : ConfigError → String
  | .unreadable path cause => "Failed to read config file " ++ path ++ ": " ++ cause.message
  | .refused cause => "Failed to parse config: " ++ cause.message

/-- The identifier under which the error is reported. -/
def code : ConfigError → String
  | .unreadable .. => "doclint::config::io"
  | .refused _ => "doclint::config::parse"

end ConfigError

/-- Reads a configuration from a file. -/
def Config.ofFile (fs : Files) (path : String) : Except ConfigError Config :=
  match fs.readText path with
  | .error e => .error (.unreadable path e)
  | .ok text =>
    match Config.parse text with
    | .error e => .error (.refused e)
    | .ok config => .ok config

end StructureLint
