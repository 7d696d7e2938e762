import StructureLint.CommandLine.Arguments
import StructureLint.Config.File
import StructureLint.Log
/-!
# Where the configuration comes from

The file named on the command line, or else the first of these that is a file: `doclint.toml` and
`.doclint.toml` beside the document, `config.toml` in the global directory. If there is none, the
configuration is the default one.

A file that was chosen is not passed over when it cannot be read.
-/

namespace StructureLint.CommandLine

/-- Where the configuration comes from. -/
inductive ConfigOrigin where
  /-- Named on the command line; the file may not be there. -/
  | named (path : String)
  /-- Found beside the document. -/
  | beside (path : String)
  /-- Found in the global directory. -/
  | «global» (path : String)
  | builtIn
deriving DecidableEq, Repr

namespace ConfigOrigin

/-- The path of the file, if there is one. -/
def path? : ConfigOrigin → Option String
  | .named path => some path
  | .beside path => some path
  | .global path => some path
  | .builtIn => none

/-- The lines about the choice. -/
def log : ConfigOrigin → List LogLine
  | .named path => [.info ("Using config: " ++ path)]
  | .beside path =>
    [.debug ("Found local config: " ++ path), .info ("Using config: " ++ path)]
  | .global path =>
    [.debug ("Found global config: " ++ path), .info ("Using config: " ++ path)]
  | .builtIn => []

/-- Reads the configuration. -/
def load (fs : Files) (origin : ConfigOrigin) : Except ConfigError Config :=
  match origin.path? with
  | none => .ok {}
  | some path => Config.ofFile fs path

end ConfigOrigin

/-- The names of configurations beside a document, the first one first. -/
def localNames : List String :=
  ["doclint.toml", ".doclint.toml"]

/-- The paths of configurations in the directory of a document. -/
def localPaths (directory : String) : List String :=
  localNames.map (Path.join directory)

/-- The path of the global configuration: in the directory that `DOCLINT_CONFIG_DIR` names, or in
`.doclint` in the home directory. -/
def globalPath? (environment : Environment) : Option String :=
  let directory :=
    (environment.get? "DOCLINT_CONFIG_DIR").or
      (environment.home.map fun home => Path.join home ".doclint")
  directory.map fun directory => Path.join directory "config.toml"

/-- The configuration for a document in a directory. -/
def findConfig (fs : Files) (environment : Environment) (directory : String) :
    Option String → ConfigOrigin
  | some path => .named path
  | none =>
    match (localPaths directory).find? fs.isFile with
    | some path => .beside path
    | none =>
      match (globalPath? environment).filter fs.isFile with
      | some path => .global path
      | none => .builtIn

/-- The directory of a document; the root lies in none, so the working directory takes its
place. -/
def directoryOf (document : String) : String :=
  (Path.parent? document).getD "."

end StructureLint.CommandLine
