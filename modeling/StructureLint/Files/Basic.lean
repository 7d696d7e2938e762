import StructureLint.Files.Path
import StructureLint.KeyMap
/-!
# Files and directories

`Files` holds what a program finds under the root: files with their bytes and with what may be done
with them, directories, which may always be entered and added to, and the directory in which it
works. A path is resolved component by component (`resolve`), from the root or from the working
directory.

Writing replaces the content of a file, or adds a file to a directory (`writeText`); no other file
changes.
-/

namespace StructureLint

/-- Why a file cannot be read or written. -/
inductive FileError where
  /-- There is nothing at the path. -/
  | notFound
  /-- A component of the path before the last one is a file. -/
  | notDirectory
  /-- The path leads to a directory. -/
  | isDirectory
  /-- The path, or a component of it that is looked for in a directory, is too long. -/
  | nameTooLong
  /-- The file is there, but may not be read or written. -/
  | permissionDenied
  /-- The bytes of the file are not UTF-8. -/
  | notUtf8
deriving DecidableEq, Repr

/-- The wording of the error. -/
def FileError.message : FileError → String
  | .notFound => "No such file or directory (os error 2)"
  | .notDirectory => "Not a directory (os error 20)"
  | .isDirectory => "Is a directory (os error 21)"
  | .nameTooLong => "File name too long (os error 36)"
  | .permissionDenied => "Permission denied (os error 13)"
  | .notUtf8 => "stream did not contain valid UTF-8"

/-- What may be done with a file. -/
structure Rights where
  readable : Bool := true
  writable : Bool := true
deriving DecidableEq, Repr

/-- What is found at a path. -/
inductive Entry where
  | file (content : ByteArray) (rights : Rights)
  | directory

/-- The place of a file or directory: the names on the way down from the root. -/
abbrev Place := List String

/-- Files and directories, and the directory in which a program works. -/
structure Files where
  /-- Everything below the root, by the names on the way down between slashes. -/
  entries : KeyMap Entry := ∅
  working : Place := []

namespace Files

/-- The key of a place. -/
def key (place : Place) : String :=
  "/".intercalate place

/-- What is at a place. The root is a directory. -/
def at? (fs : Files) (place : Place) : Option Entry :=
  if place.isEmpty then some .directory else fs.entries.get? (key place)

/-- Where a path leads. -/
inductive Target where
  | found (place : Place) (entry : Entry)
  /-- Nothing is there, but the directory is in which it would be. -/
  | vacant (place : Place)

/-- The largest number of bytes of a name in a directory. -/
def maxNameSize : Nat := 255

/-- The largest number of bytes of a path. -/
def maxPathSize : Nat := 4095

/-- Follows components from a directory. -/
def follow (fs : Files) (directory : Place) : List String → Except FileError Target
  | [] => .ok (.found directory .directory)
  | c :: cs =>
    if c = "." then fs.follow directory cs
    else if c = ".." then fs.follow directory.dropLast cs
    else if maxNameSize < c.utf8ByteSize then .error .nameTooLong
    else
      let place := directory ++ [c]
      match fs.at? place with
      | none => if cs.isEmpty then .ok (.vacant place) else .error .notFound
      | some .directory => fs.follow place cs
      | some (.file content rights) =>
        if cs.isEmpty then .ok (.found place (.file content rights)) else .error .notDirectory

/-- Where a path leads from the root or from the working directory. The empty path leads
nowhere. -/
def resolve (fs : Files) (path : String) : Except FileError Target :=
  if path.isEmpty then .error .notFound
  else if maxPathSize < path.utf8ByteSize then .error .nameTooLong
  else fs.follow (if Path.isAbsolute path then [] else fs.working) (Path.components path)

/-- Whether something is at a path. -/
def isPresent (fs : Files) (path : String) : Bool :=
  match fs.resolve path with
  | .ok (.found ..) => true
  | _ => false

/-- Whether a file is at a path, be it one that may be read or not. -/
def isFile (fs : Files) (path : String) : Bool :=
  match fs.resolve path with
  | .ok (.found _ (.file ..)) => true
  | _ => false

/-- The bytes of a file, if it may be read. -/
def read (fs : Files) (path : String) : Except FileError ByteArray :=
  match fs.resolve path with
  | .error e => .error e
  | .ok (.vacant _) => .error .notFound
  | .ok (.found _ .directory) => .error .isDirectory
  | .ok (.found _ (.file content rights)) =>
    if rights.readable then .ok content else .error .permissionDenied

/-- The text of a file. -/
def readText (fs : Files) (path : String) : Except FileError String :=
  match fs.read path with
  | .error e => .error e
  | .ok content =>
    match String.fromUTF8? content with
    | none => .error .notUtf8
    | some text => .ok text

/-- Puts something at a place. -/
def put (fs : Files) (place : Place) (entry : Entry) : Files :=
  { fs with entries := fs.entries.insert (key place) entry }

/-- What is put at a place is found there, and what has another key stays as it was. -/
theorem entry_put (fs : Files) (place : Place) (entry : Entry) (k : String) :
    (fs.put place entry).entries.get? k
      = if key place = k then some entry else fs.entries.get? k :=
  KeyMap.get?_insert ..

/-- Writes a text to a file, which is replaced if it may be written, or added. -/
def writeText (fs : Files) (path text : String) : Except FileError Files :=
  match fs.resolve path with
  | .error e => .error e
  | .ok (.found _ .directory) => .error .isDirectory
  | .ok (.found place (.file _ rights)) =>
    if rights.writable then .ok (fs.put place (.file text.toUTF8 rights))
    else .error .permissionDenied
  | .ok (.vacant place) => .ok (fs.put place (.file text.toUTF8 {}))

/-- Makes directories from a place downwards. -/
def makeDirectories (fs : Files) (above : Place) : List String → Files
  | [] => fs
  | c :: cs =>
    let place := above ++ [c]
    let fs := if (fs.at? place).isSome then fs else fs.put place .directory
    fs.makeDirectories place cs

/-- Makes a directory and those it is in. -/
def withDirectory (fs : Files) (place : Place) : Files :=
  fs.makeDirectories [] place

/-- Makes a file and the directories it is in. -/
def withFile (fs : Files) (place : Place) (content : ByteArray) (rights : Rights := {}) : Files :=
  (fs.withDirectory place.dropLast).put place (.file content rights)

/-- The place that a path names, if every component of it that is left by `..` is a directory. -/
def placeOf (working : Place) (path : String) : Place :=
  (Path.components path).foldl
    (fun place c => if c = "." then place else if c = ".." then place.dropLast else place ++ [c])
    (if Path.isAbsolute path then [] else working)

end Files

end StructureLint
