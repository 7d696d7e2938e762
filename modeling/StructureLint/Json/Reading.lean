import StructureLint.Json.Number
import StructureLint.ReadError
/-!
# Reading JSON texts

A text is read from the front into a `Reading`, also when it breaks the rules of JSON: everything
before the first fault is kept, the fault itself is marked. So data that does not fit and data that
is malformed can be told apart by what comes first in the text.

`Reading.sound` says that a value has no fault in it.

A string writes 16-bit units, of which two halves of a pair stand for one character. A string with
a half alone keeps the rules of JSON, but is no text (`Reading.string none`): it may stand where
nothing is wanted of it, and is a fault where its text is wanted.
-/

namespace StructureLint.Json

/-- A JSON value as it was read, up to the first fault of the text. -/
inductive Reading where
  | null
  | boolean (value : Bool)
  | number (value : Number)
  /-- A string and its text. Without a text it has half of a pair of 16-bit units. -/
  | string (text : Option String)
  /-- The items of an array. If it is not closed, the text has a fault in or after the last one. -/
  | array (items : List Reading) (closed : Bool)
  /-- The members of an object, in the order of the text; a name can be a string without a text.
  If the object is not closed, the text has a fault in or after the last member. -/
  | object (members : List (Option String × Reading)) (closed : Bool)
  /-- The text has a fault before a value is complete. -/
  | malformed
deriving Repr, Inhabited

/-! ## From texts to readings -/

/-- The blanks of JSON. -/
def isBlank (c : Char) : Bool :=
  c == ' ' || c == '\t' || c == '\n' || c == '\r'

/-- What is left after the blanks at the front. -/
def skipBlanks (cs : List Char) : List Char :=
  cs.dropWhile isBlank

/-- The value of a hexadecimal digit. -/
def hexValue? (c : Char) : Option Nat :=
  if c.isDigit then some (c.toNat - '0'.toNat)
  else if 'a' ≤ c ∧ c ≤ 'f' then some (c.toNat - 'a'.toNat + 10)
  else if 'A' ≤ c ∧ c ≤ 'F' then some (c.toNat - 'A'.toNat + 10)
  else none

/-- The number that four hexadecimal digits write. -/
def hex4? (a b c d : Char) : Option Nat := do
  let a ← hexValue? a
  let b ← hexValue? b
  let c ← hexValue? c
  let d ← hexValue? d
  return ((a * 16 + b) * 16 + c) * 16 + d

/-- The character that a letter after a backslash stands for. -/
def unescape? (c : Char) : Option Char :=
  if c == '"' || c == '\\' || c == '/' then some c
  else if c == 'b' then some '\x08'
  else if c == 'f' then some '\x0c'
  else if c == 'n' then some '\n'
  else if c == 'r' then some '\r'
  else if c == 't' then some '\t'
  else none

/-- The first half of a pair of 16-bit units that stands for one character. -/
def isHighSurrogate (n : Nat) : Bool :=
  0xD800 ≤ n && n < 0xDC00

/-- The second half of a pair of 16-bit units that stands for one character. -/
def isLowSurrogate (n : Nat) : Bool :=
  0xDC00 ≤ n && n < 0xE000

/-- A part of a string: a character, or a 16-bit unit that is written by its number. -/
inductive StringPart where
  | char (c : Char)
  | unit (n : Nat)
deriving DecidableEq, Repr

/-- The text that parts make up; none if half of a pair stands alone. -/
def joinParts : List StringPart → Option (List Char)
  | [] => some []
  | .char c :: ps => (joinParts ps).map (c :: ·)
  | .unit n :: ps =>
    if isLowSurrogate n then none
    else if isHighSurrogate n then
      match ps with
      | .unit m :: ps =>
        if isLowSurrogate m then
          (joinParts ps).map (Char.ofNat (0x10000 + (n - 0xD800) * 0x400 + (m - 0xDC00)) :: ·)
        else none
      | _ => none
    else (joinParts ps).map (Char.ofNat n :: ·)

/-- Puts a part in front of a string that was read. -/
def prepend (p : StringPart) :
    Option (List StringPart × List Char) → Option (List StringPart × List Char) :=
  Option.map fun r => (p :: r.1, r.2)

/-- Reads a string after its opening quotation mark. None if it is malformed: it has no end, or
holds a control character or an unknown escape. -/
def scanString : List Char → Option (List StringPart × List Char)
  | [] => none
  | '"' :: rest => some ([], rest)
  | '\\' :: 'u' :: a :: b :: c :: d :: rest =>
    match hex4? a b c d with
    | none => none
    | some n => prepend (.unit n) (scanString rest)
  | '\\' :: c :: rest =>
    match unescape? c with
    | none => none
    | some c => prepend (.char c) (scanString rest)
  | c :: rest =>
    if c.toNat < 0x20 || c == '\\' then none else prepend (.char c) (scanString rest)

/-- The text of a string, if it has one. -/
def textOf? (ps : List StringPart) : Option String :=
  (joinParts ps).map String.ofList

/-- Takes the digits off the front. -/
def digits (cs : List Char) : List Char × List Char :=
  (cs.takeWhile Char.isDigit, cs.dropWhile Char.isDigit)

/-- Reads the digits after a point, if there is one; there must be one digit at least. -/
def scanFraction : List Char → Option (Option (List Char) × List Char)
  | '.' :: cs =>
    match digits cs with
    | ([], _) => none
    | (ds, rest) => some (some ds, rest)
  | cs => some (none, cs)

/-- Reads the digits of an exponent after its letter and sign; there must be one at least. -/
def scanExponentDigits (negative : Bool) (cs : List Char) :
    Option (Option (Bool × List Char) × List Char) :=
  match digits cs with
  | ([], _) => none
  | (ds, rest) => some (some (negative, ds), rest)

/-- Reads an exponent, if there is one. -/
def scanExponent : List Char → Option (Option (Bool × List Char) × List Char)
  | [] => some (none, [])
  | c :: cs =>
    if c == 'e' || c == 'E' then
      match cs with
      | '-' :: cs => scanExponentDigits true cs
      | '+' :: cs => scanExponentDigits false cs
      | cs => scanExponentDigits false cs
    else some (none, c :: cs)

/-- Reads a number without its sign. A zero may be followed by no further digit. -/
def scanUnsigned (negative : Bool) (cs : List Char) : Option (Numeral × List Char) :=
  match digits cs with
  | ([], _) => none
  | ('0' :: _ :: _, _) => none
  | (whole, rest) => do
    let (fraction, rest) ← scanFraction rest
    let (exponent, rest) ← scanExponent rest
    return (⟨negative, whole, fraction, exponent⟩, rest)

/-- Reads a number. -/
def scanNumber : List Char → Option (Numeral × List Char)
  | '-' :: cs => scanUnsigned true cs
  | cs => scanUnsigned false cs

/-- Takes a word off the front, if it stands there. -/
def dropWord? : List Char → List Char → Option (List Char)
  | [], cs => some cs
  | _ :: _, [] => none
  | w :: ws, c :: cs => if w = c then dropWord? ws cs else none

/-- What a value that stands at the front of the text begins with, and what is left of the text
after it; nothing is left after a fault. -/
abbrev Scanned (α : Type) := α × Option (List Char)

/-- A value that is a word. -/
def scanWord (word : List Char) (value : Reading) (cs : List Char) : Scanned Reading :=
  match dropWord? word cs with
  | none => (.malformed, none)
  | some rest => (value, some rest)

mutual

/-- Reads a value. The number of steps exceeds the length of the text twice. -/
def scanValue : Nat → List Char → Scanned Reading
  | 0, _ => (.malformed, none)
  | steps + 1, cs =>
    match skipBlanks cs with
    | [] => (.malformed, none)
    | '"' :: cs =>
      match scanString cs with
      | none => (.malformed, none)
      | some (s, rest) => (.string (textOf? s), some rest)
    | '[' :: cs =>
      match skipBlanks cs with
      | ']' :: rest => (.array [] true, some rest)
      | cs =>
        let (items, rest) := scanItems steps cs
        (.array items rest.isSome, rest)
    | '{' :: cs =>
      match skipBlanks cs with
      | '}' :: rest => (.object [] true, some rest)
      | cs =>
        let (members, rest) := scanMembers steps cs
        (.object members rest.isSome, rest)
    | 'n' :: cs => scanWord ['u', 'l', 'l'] .null cs
    | 't' :: cs => scanWord ['r', 'u', 'e'] (.boolean true) cs
    | 'f' :: cs => scanWord ['a', 'l', 's', 'e'] (.boolean false) cs
    | cs =>
      match scanNumber cs with
      | none => (.malformed, none)
      | some (n, rest) => (.number n.read, some rest)

/-- Reads the items of an array up to its end. -/
def scanItems : Nat → List Char → Scanned (List Reading)
  | 0, _ => ([], none)
  | steps + 1, cs =>
    match scanValue steps cs with
    | (v, none) => ([v], none)
    | (v, some rest) =>
      match skipBlanks rest with
      | ']' :: rest => ([v], some rest)
      | ',' :: rest =>
        let (vs, rest) := scanItems steps rest
        (v :: vs, rest)
      | _ => ([v], none)

/-- Reads the members of an object up to its end. A key without a value has a malformed one. -/
def scanMembers : Nat → List Char → Scanned (List (Option String × Reading))
  | 0, _ => ([], none)
  | steps + 1, cs =>
    match skipBlanks cs with
    | '"' :: cs =>
      match scanString cs with
      | none => ([], none)
      | some (key, rest) =>
        let key := textOf? key
        match skipBlanks rest with
        | ':' :: rest =>
          match scanValue steps rest with
          | (v, none) => ([(key, v)], none)
          | (v, some rest) =>
            match skipBlanks rest with
            | '}' :: rest => ([(key, v)], some rest)
            | ',' :: rest =>
              let (ms, rest) := scanMembers steps rest
              ((key, v) :: ms, rest)
            | _ => ([(key, v)], none)
        | _ => ([(key, .malformed)], none)
    | _ => ([], none)

end

/-- A text as it was read. -/
structure Scan where
  value : Reading
  /-- Whether nothing but blanks follows the value. -/
  ended : Bool

/-- Reads a text, which should hold one value. -/
def scan (text : String) : Scan :=
  let cs := text.toList
  let (value, rest) := scanValue (2 * cs.length + 2) cs
  { value, ended := rest.any fun cs => (skipBlanks cs).isEmpty }

/-! ## Faults and limits -/

namespace Reading

mutual

/-- Whether the text of a value has no fault. -/
def sound : Reading → Bool
  | .array items closed => allSound items && closed
  | .object members closed => membersSound members && closed
  | .malformed => false
  | _ => true

/-- Whether the texts of several values have no fault. -/
def allSound : List Reading → Bool
  | [] => true
  | v :: vs => v.sound && allSound vs

/-- Whether the values of several members have no fault. -/
def membersSound : List (Option String × Reading) → Bool
  | [] => true
  | (_, v) :: ms => v.sound && membersSound ms

end

mutual

/-- Whether a value can be kept to be looked at later: its text has no fault, its numbers are
finite, its strings and names are texts, and it has at most `room` levels of arrays and objects. -/
def keepable : Nat → Reading → Bool
  | 0, .array .. => false
  | 0, .object .. => false
  | room + 1, .array items closed => allKeepable room items && closed
  | room + 1, .object members closed => membersKeepable room members && closed
  | _, .number .outOfRange => false
  | _, .string none => false
  | _, .malformed => false
  | _, _ => true

/-- Whether several values can be kept. -/
def allKeepable (room : Nat) : List Reading → Bool
  | [] => true
  | v :: vs => v.keepable room && allKeepable room vs

/-- Whether the values of several members can be kept. -/
def membersKeepable (room : Nat) : List (Option String × Reading) → Bool
  | [] => true
  | (key, v) :: ms => key.isSome && v.keepable room && membersKeepable room ms

end

/-- How many levels of arrays and objects a text may have where its data is wanted. -/
def maxNesting : Nat := 127

/-- What stands here in place of something else; none if that is a fault of the text. Arrays and
objects are known by their opening bracket. -/
def found? : Reading → Option Found
  | .null => some .null
  | .boolean value => some (.boolean value)
  | .number (.integer value) => some (.integer value)
  | .number (.decimal shown) => some (.decimal shown)
  | .number .outOfRange => none
  | .string text => text.map .string
  | .array .. => some .sequence
  | .object .. => some .map
  | .malformed => none

/-- The error of a value that is not what is wanted. -/
def refuse (v : Reading) (wanted : Wanted) : ReadError :=
  match v.found? with
  | none => .malformed
  | some found => .wrongType found wanted

/-- The text of a string. -/
def asString : Reading → Except ReadError String
  | .string (some text) => .ok text
  | v => .error (v.refuse .string)

/-- The members before the first whose name is no text. -/
def named : List (Option String × Reading) → List (String × Reading)
  | (some key, v) :: ms => (key, v) :: named ms
  | _ => []

/-- Whether all members have a text for a name and the object is closed. -/
def complete (members : List (Option String × Reading)) (closed : Bool) : Bool :=
  members.all (·.1.isSome) && closed

end Reading

/-- Reads a text into a value of the library: the value must be there in full and nothing may
follow it. Of several errors the first in the text counts. -/
def readWith {α : Type} (decode : Reading → Except ReadError α) (text : String) :
    Except ReadError α :=
  let s := scan text
  match decode s.value with
  | .error e => .error e
  | .ok a => if s.ended then .ok a else .error .malformed

end StructureLint.Json
