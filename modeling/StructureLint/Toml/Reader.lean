import StructureLint.Toml.DateTime
import StructureLint.Toml.Number
import StructureLint.Toml.Section
/-!
# Reading TOML documents

`parse` reads a whole text into the entries of its top table. A text that breaks any rule of TOML,
also by defining something twice, has none.
-/

namespace StructureLint.Toml

/-- Splits a key at its last point. -/
def splitLast : List String → Option (List String × String)
  | [] => none
  | [key] => some ([], key)
  | part :: parts => (splitLast parts).map fun r => (part :: r.1, r.2)

/-- Takes a word off the front. -/
def word? (word : List Char) (v : Value) (cs : List Char) : Option (Value × List Char) :=
  (Json.dropWord? word cs).map fun rest => (v, rest)

/-- Reads a date, a time or a number. -/
def numeric? (cs : List Char) : Option (Value × List Char) :=
  (dateTime? cs).or ((decimalNumber? cs).or (integer? cs))

mutual

/-- Reads a value that may hold `room` more levels of arrays and tables. -/
def value? : Nat → Nat → List Char → Option (Value × List Char)
  | 0, _, _ => none
  | steps + 1, room, cs =>
    match cs with
    | [] => none
    | '"' :: _ => (string? cs).map fun r => (.string r.1, r.2)
    | '\'' :: _ => (string? cs).map fun r => (.string r.1, r.2)
    | '[' :: cs =>
      if room = 0 then none
      else (items? steps (room - 1) cs).map fun r => (.array r.1, r.2)
    | '{' :: cs =>
      if room = 0 then none
      else
        match skipBlanks cs with
        | '}' :: rest => some (.table [], rest)
        | cs => (pairs? steps (room - 1) [] cs).map fun r => (.table (entriesToValues r.1), r.2)
    | 't' :: cs => word? ['r', 'u', 'e'] (.boolean true) cs
    | 'f' :: cs => word? ['a', 'l', 's', 'e'] (.boolean false) cs
    | cs => numeric? cs

/-- Reads the items of an array, which may stand on several lines and end with a comma. -/
def items? : Nat → Nat → List Char → Option (List Value × List Char)
  | 0, _, _ => none
  | steps + 1, room, cs =>
    match skipLines cs.length cs with
    | ']' :: rest => some ([], rest)
    | cs => do
      let (v, rest) ← value? steps room cs
      match skipLines rest.length rest with
      | ',' :: rest => do
        let (vs, rest) ← items? steps room rest
        return (v :: vs, rest)
      | ']' :: rest => return ([v], rest)
      | _ => none

/-- Reads the assignments of a table within a line, adding them to those read before. -/
def pairs? : Nat → Nat → Entries → List Char → Option (Entries × List Char)
  | 0, _, _, _ => none
  | steps + 1, room, es, cs => do
    let (parts, rest) ← key? cs
    let (parts, key) ← splitLast parts
    match rest with
    | '=' :: rest => do
      let (v, rest) ← value? steps room (skipBlanks rest)
      let es ← assign key v parts es
      match skipBlanks rest with
      | ',' :: rest => pairs? steps room es rest
      | '}' :: rest => return (es, rest)
      | _ => none
    | _ => none

end

/-- Reads an assignment on a line of its own. -/
def assignment? (a : Assembly) (cs : List Char) : Option (Assembly × List Char) := do
  let (parts, rest) ← key? cs
  let (parts, key) ← splitLast parts
  match rest with
  | '=' :: rest => do
    let (v, rest) ← value? (2 * rest.length + 2) maxDepth (skipBlanks rest)
    let a ← a.assign parts key v
    let rest ← endOfLine? rest
    return (a, rest)
  | _ => none

/-- Reads a header after its first bracket. -/
def header? (a : Assembly) : List Char → Option (Assembly × List Char)
  | '[' :: cs => do
    let (parts, rest) ← key? cs
    let (parents, key) ← splitLast parts
    match rest with
    | ']' :: ']' :: rest => do
      let a ← a.openElement parents key
      let rest ← endOfLine? rest
      return (a, rest)
    | _ => none
  | cs => do
    let (parts, rest) ← key? cs
    let (parents, key) ← splitLast parts
    match rest with
    | ']' :: rest => do
      let a ← a.openTable parents key
      let rest ← endOfLine? rest
      return (a, rest)
    | _ => none

/-- Reads a document line by line. -/
def lines? : Nat → Assembly → List Char → Option Assembly
  | 0, _, _ => none
  | steps + 1, a, cs =>
    match skipBlanks cs with
    | [] => some a
    | '[' :: cs => do
      let (a, rest) ← header? a cs
      lines? steps a rest
    | cs =>
      match endOfLine? cs with
      | some rest => lines? steps a rest
      | none => do
        let (a, rest) ← assignment? a cs
        lines? steps a rest

/-- A text without the mark of its byte order. -/
def dropByteOrderMark : List Char → List Char
  | '\uFEFF' :: cs => cs
  | cs => cs

/-- Reads a document into the entries of its top table. -/
def parse (text : String) : Except ReadError (List (String × Value)) :=
  let cs := dropByteOrderMark text.toList
  match (lines? (cs.length + 1) {} cs).bind (·.close) with
  | none => .error .malformed
  | some entries => .ok (entriesToValues entries)

end StructureLint.Toml
