/-!
# Paths

A path is a text whose components stand between slashes. `parent?` gives the path of the directory
that a path lies in as far as its text tells, and `join` the path of something in a directory.
-/

namespace StructureLint.Path

/-- A component that leads nowhere: an empty one, or `.`. -/
def isVoid (component : List Char) : Bool :=
  component.isEmpty || component == ['.']

/-- The components of a path that lead somewhere. A path that ends in a slash or in `.` ends in the
component `.`, as only a directory can be meant. -/
def components (path : String) : List String :=
  let all := path.toList.splitOn '/'
  let named := all.filter (!isVoid ·)
  let last := all.getLast?.getD []
  (if isVoid last then named ++ [['.']] else named).map String.ofList

/-- A path that does not depend on the working directory. -/
def isAbsolute (path : String) : Bool :=
  path.toList.head? == some '/'

/-- Splits the slash of an absolute path, or a `.` that is the first component, off the front. -/
def splitRoot : List Char → List Char × List Char
  | '/' :: cs => (['/'], cs)
  | ['.'] => (['.'], [])
  | '.' :: '/' :: cs => (['.'], '/' :: cs)
  | cs => ([], cs)

/-- The path without its last component. A path of one component lies in the working directory,
whose path is empty; the root lies in no directory. -/
def parent? (path : String) : Option String :=
  let (root, body) := splitRoot path.toList
  match (body.splitOn '/').reverse.dropWhile isVoid with
  | [] => if root == ['.'] then some "" else none
  | _ :: before =>
    let kept := (before.dropWhile isVoid).reverse
    some (String.ofList (root ++ List.intercalate ['/'] kept))

/-- The path of something in a directory. -/
def join (directory name : String) : String :=
  if isAbsolute name || directory.isEmpty then name
  else if directory.toList.getLast? == some '/' then directory ++ name
  else directory ++ "/" ++ name

end StructureLint.Path
