import StructureLint.Toml.Value
/-!
# Putting a TOML document together

A document is a sequence of headers and assignments. `Assembly` holds the tables gathered so far
and the section that the last header opened. It refuses what would define something twice: a table
can be opened by one header only, and a table made by the points of a key can be extended only by
further keys of the same section.
-/

namespace StructureLint.Toml

/-- How a table came to be. -/
inductive Origin where
  /-- It was opened by a header of its own. -/
  | header
  /-- A longer header mentioned it. -/
  | implied
  /-- It is the part of a key before a point. -/
  | dotted
deriving DecidableEq, Repr

/-- What a key of a table stands for. -/
inductive Item where
  | value (v : Value)
  | table (origin : Origin) (entries : List (String × Item))
  /-- Tables under a header in double brackets, in order. -/
  | tables (elements : List (List (String × Item)))
deriving Repr, Inhabited

/-- The entries of a table, in the order in which their keys came up. -/
abbrev Entries := List (String × Item)

/-- The item of a key. -/
def find? (key : String) : Entries → Option Item
  | [] => none
  | e :: es => if e.1 = key then some e.2 else find? key es

/-- Puts an item under a key, in the place of an earlier one or at the end. -/
def put (key : String) (item : Item) : Entries → Entries
  | [] => [(key, item)]
  | e :: es => if e.1 = key then (key, item) :: es else e :: put key item es

/-- The entries without a key. -/
def remove (key : String) (es : Entries) : Entries :=
  es.filter (·.1 ≠ key)

/-- Changes the last element of a list. -/
def changeLast {α : Type} (f : α → Option α) : List α → Option (List α)
  | [] => none
  | [a] => (f a).map ([·])
  | a :: b :: as => (changeLast f (b :: as)).map (a :: ·)

/-- Changes the table that a header path leads to. Tables on the way are made where they are
missing; of several tables under one key the last one is meant. -/
def descend (f : Entries → Option Entries) : List String → Entries → Option Entries
  | [], es => f es
  | key :: keys, es =>
    match find? key es with
    | none => (descend f keys []).map fun sub => put key (.table .implied sub) es
    | some (.value _) => none
    | some (.table origin sub) =>
      (descend f keys sub).map fun sub => put key (.table origin sub) es
    | some (.tables elements) =>
      (changeLast (descend f keys) elements).map fun elements => put key (.tables elements) es

/-- Assigns a value to a key with points, within one section. -/
def assign (key : String) (v : Value) : List String → Entries → Option Entries
  | [], es =>
    match find? key es with
    | none => some (put key (.value v) es)
    | some _ => none
  | part :: parts, es =>
    match find? part es with
    | none => (assign key v parts []).map fun sub => put part (.table .dotted sub) es
    | some (.value _) => none
    | some (.table .header _) => none
    | some (.table .implied sub) =>
      if parts.isEmpty then none
      else (assign key v parts sub).map fun sub => put part (.table .implied sub) es
    | some (.table .dotted sub) =>
      (assign key v parts sub).map fun sub => put part (.table .dotted sub) es
    | some (.tables elements) =>
      if parts.isEmpty then none
      else
        (changeLast (assign key v parts) elements).map fun elements =>
          put part (.tables elements) es

mutual

/-- An item as a value. -/
def Item.toValue : Item → Value
  | .value v => v
  | .table _ entries => .table (entriesToValues entries)
  | .tables elements => .array (elementsToValues elements)

/-- Entries as entries with values. -/
def entriesToValues : Entries → List (String × Value)
  | [] => []
  | (key, item) :: es => (key, item.toValue) :: entriesToValues es

/-- Tables as values. -/
def elementsToValues : List Entries → List Value
  | [] => []
  | es :: rest => .table (entriesToValues es) :: elementsToValues rest

end

/-- The section to which assignments go. -/
inductive Section where
  /-- Before the first header. -/
  | top
  /-- After a header: the keys before the last one, the last one, and whether the header is in
  double brackets. -/
  | headed (parents : List String) (key : String) (repeated : Bool)
deriving DecidableEq, Repr

/-- A document that is being put together. The entries of the open section are not yet among
`closed`. -/
structure Assembly where
  closed : Entries := []
  openSection : Section := .top
  current : Entries := []

namespace Assembly

/-- Adds the open section to the closed ones. -/
def close (a : Assembly) : Option Entries :=
  match a.openSection with
  | .top => some a.current
  | .headed parents key repeated =>
    descend (fun es =>
      match repeated, find? key es with
      | false, none => some (put key (.table .header a.current) es)
      | true, some (.tables elements) =>
        some (put key (.tables (elements ++ [a.current])) es)
      | _, _ => none) parents a.closed

/-- Finds the table that a header of single brackets opens: one that is not there, or that only
longer headers have mentioned, which is taken out to be put back at the end. -/
def withdraw (key : String) (es : Entries) : Option (Entries × Entries) :=
  match find? key es with
  | none => some ([], es)
  | some (.table .implied sub) => some (sub, remove key es)
  | some _ => none

/-- Opens a section under a header of single brackets. -/
def openTable (a : Assembly) (parents : List String) (key : String) : Option Assembly := do
  let closed ← a.close
  let found ← entriesAt parents closed
  let (current, _) ← withdraw key found
  let closed ← descend (fun es => (withdraw key es).map (·.2)) parents closed
  return { closed, openSection := .headed parents key false, current }
where
  /-- The entries of the table that a header path leads to, none of them if it is missing. -/
  entriesAt : List String → Entries → Option Entries
    | [], es => some es
    | key :: keys, es =>
      match find? key es with
      | none => some []
      | some (.value _) => none
      | some (.table _ sub) => entriesAt keys sub
      | some (.tables elements) =>
        match elements.getLast? with
        | none => none
        | some sub => entriesAt keys sub

/-- Opens a section under a header of double brackets. -/
def openElement (a : Assembly) (parents : List String) (key : String) : Option Assembly := do
  let closed ← a.close
  let closed ← descend (fun es =>
    match find? key es with
    | none => some (put key (.tables []) es)
    | some (.tables _) => some es
    | some _ => none) parents closed
  return { closed, openSection := .headed parents key true, current := [] }

/-- Assigns a value within the open section. -/
def assign (a : Assembly) (parts : List String) (key : String) (v : Value) : Option Assembly :=
  (Toml.assign key v parts a.current).map fun current => { a with current }

end Assembly

end StructureLint.Toml
