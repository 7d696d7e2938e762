import StructureLint.Json.Reading
/-!
# Blanks, strings and keys of TOML

Each function takes what it is named for off the front of a text and returns what is left, or none
where the rules of TOML forbid what stands there.
-/

namespace StructureLint.Toml

/-- A space or a tab. -/
def isBlank (c : Char) : Bool :=
  c == ' ' || c == '\t'

/-- What is left after spaces and tabs. -/
def skipBlanks (cs : List Char) : List Char :=
  cs.dropWhile isBlank

/-- Takes the end of a line off the front. -/
def newline? : List Char → Option (List Char)
  | '\n' :: cs => some cs
  | '\r' :: '\n' :: cs => some cs
  | _ => none

/-- Tab, or a character beyond ASCII, or one of ASCII that is no control character. -/
def isPlain (c : Char) : Bool :=
  c == '\t' || (0x20 ≤ c.toNat && c.toNat ≠ 0x7F)

/-- What is left after a comment, if one begins here; it goes to the end of the line. -/
def skipComment : List Char → List Char
  | '#' :: cs => cs.dropWhile isPlain
  | cs => cs

/-- Takes blanks, an optional comment and the end of the line, or of the text, off the front. -/
def endOfLine? (cs : List Char) : Option (List Char) :=
  match skipComment (skipBlanks cs) with
  | [] => some []
  | cs => newline? cs

/-- What is left after blanks, ends of lines, and comments that end with their line. -/
def skipLines : Nat → List Char → List Char
  | 0, cs => cs
  | steps + 1, cs =>
    let cs := skipBlanks cs
    match newline? cs with
    | some cs => skipLines steps cs
    | none =>
      match cs with
      | '#' :: rest =>
        match newline? (rest.dropWhile isPlain) with
        | some cs => skipLines steps cs
        | none => cs
      | _ => cs

/-! ## Strings -/

/-- Puts characters in front of a string that was read. -/
def prepend (cs : List Char) :
    Option (List Char × List Char) → Option (List Char × List Char) :=
  Option.map fun r => (cs ++ r.1, r.2)

/-- The number that hexadecimal digits write. -/
def hexNumber? (ds : List Char) : Option Nat :=
  ds.foldlM (fun n d => (Json.hexValue? d).map (n * 16 + ·)) 0

/-- The character of a code point. -/
def charOf? (n : Nat) : Option Char :=
  if n.isValidChar then some (Char.ofNat n) else none

/-- The character that a letter after a backslash stands for. -/
def unescape? (c : Char) : Option Char :=
  if c == '"' || c == '\\' then some c
  else if c == 'b' then some '\x08'
  else if c == 't' then some '\t'
  else if c == 'n' then some '\n'
  else if c == 'f' then some '\x0c'
  else if c == 'r' then some '\r'
  else none

/-- Reads a string after its opening quotation mark, with escapes. -/
def basicString : List Char → Option (List Char × List Char)
  | [] => none
  | '"' :: rest => some ([], rest)
  | '\\' :: 'u' :: a :: b :: c :: d :: rest => do
    let u ← hexNumber? [a, b, c, d] >>= charOf?
    prepend [u] (basicString rest)
  | '\\' :: 'U' :: a :: b :: c :: d :: e :: f :: g :: h :: rest => do
    let u ← hexNumber? [a, b, c, d, e, f, g, h] >>= charOf?
    prepend [u] (basicString rest)
  | '\\' :: c :: rest => do
    let u ← unescape? c
    prepend [u] (basicString rest)
  | c :: rest => if isPlain c && c != '\\' then prepend [c] (basicString rest) else none

/-- Reads a string between apostrophes after the opening one; it has no escapes. -/
def literalString (cs : List Char) : Option (List Char × List Char) :=
  let isBody (c : Char) := isPlain c && c != '\''
  match cs.dropWhile isBody with
  | '\'' :: rest => some (cs.takeWhile isBody, rest)
  | _ => none

/-- Whether a line ends here, after blanks. -/
def lineEnds (cs : List Char) : Bool :=
  (newline? (skipBlanks cs)).isSome

/-- What is left after the last of three marks that close a string of several lines. One or two
further marks belong to the string. -/
def closing (mark : Char) : List Char → List Char × List Char
  | c :: d :: rest =>
    if c = mark then
      if d = mark then ([mark, mark], rest) else ([mark], d :: rest)
    else ([], c :: d :: rest)
  | [c] => if c = mark then ([mark], []) else ([], [c])
  | [] => ([], [])

/-- Reads a string of several lines after its opening marks. `gap` tells that a backslash at the
end of a line has been read, and that blanks and ends of lines are passed over. -/
def basicLines (gap : Bool) : List Char → Option (List Char × List Char)
  | [] => none
  | '"' :: '"' :: '"' :: rest => some (closing '"' rest)
  | '\\' :: 'u' :: a :: b :: c :: d :: rest => do
    let u ← hexNumber? [a, b, c, d] >>= charOf?
    prepend [u] (basicLines false rest)
  | '\\' :: 'U' :: a :: b :: c :: d :: e :: f :: g :: h :: rest => do
    let u ← hexNumber? [a, b, c, d, e, f, g, h] >>= charOf?
    prepend [u] (basicLines false rest)
  | '\r' :: '\n' :: rest =>
    if gap then basicLines true rest else prepend ['\n'] (basicLines false rest)
  | '\n' :: rest => if gap then basicLines true rest else prepend ['\n'] (basicLines false rest)
  | '\\' :: c :: rest =>
    if lineEnds (c :: rest) then
      if c == '\r' || c == '\n' || isBlank c then basicLines true rest else none
    else do
      let u ← unescape? c
      prepend [u] (basicLines false rest)
  | c :: rest =>
    if gap && isBlank c then basicLines true rest
    else if isPlain c && c != '\\' then prepend [c] (basicLines false rest)
    else none

/-- Reads a string of several lines between apostrophes after the opening marks. -/
def literalLines : List Char → Option (List Char × List Char)
  | [] => none
  | '\'' :: '\'' :: '\'' :: rest => some (closing '\'' rest)
  | '\r' :: '\n' :: rest => prepend ['\n'] (literalLines rest)
  | c :: rest => if isPlain c || c == '\n' then prepend [c] (literalLines rest) else none

/-- What is left after an end of line that directly follows the opening marks. -/
def dropFirstNewline (cs : List Char) : List Char :=
  (newline? cs).getD cs

/-- Reads a string of any kind. -/
def string? : List Char → Option (String × List Char)
  | '"' :: '"' :: '"' :: cs => (basicLines false (dropFirstNewline cs)).map fun r =>
    (String.ofList r.1, r.2)
  | '"' :: cs => (basicString cs).map fun r => (String.ofList r.1, r.2)
  | '\'' :: '\'' :: '\'' :: cs => (literalLines (dropFirstNewline cs)).map fun r =>
    (String.ofList r.1, r.2)
  | '\'' :: cs => (literalString cs).map fun r => (String.ofList r.1, r.2)
  | _ => none

/-! ## Keys -/

/-- The characters of a key that is not quoted. -/
def isKeyChar (c : Char) : Bool :=
  c.isAlphanum || c == '-' || c == '_'

/-- Reads one part of a key: plain, or a string on one line. -/
def keyPart? : List Char → Option (String × List Char)
  | '"' :: cs => (basicString cs).map fun r => (String.ofList r.1, r.2)
  | '\'' :: cs => (literalString cs).map fun r => (String.ofList r.1, r.2)
  | cs =>
    match cs.takeWhile isKeyChar with
    | [] => none
    | part => some (String.ofList part, cs.dropWhile isKeyChar)

/-- Reads the parts of a key between points. -/
def keyParts? : Nat → List Char → Option (List String × List Char)
  | 0, _ => none
  | steps + 1, cs => do
    let (part, rest) ← keyPart? (skipBlanks cs)
    match skipBlanks rest with
    | '.' :: rest => do
      let (parts, rest) ← keyParts? steps rest
      return (part :: parts, rest)
    | rest => return ([part], rest)

/-- The most levels that arrays, tables inside a line, and the parts of a key may have. -/
def maxDepth : Nat := 79

/-- Reads a key with the blanks around it. -/
def key? (cs : List Char) : Option (List String × List Char) := do
  let (parts, rest) ← keyParts? (cs.length + 1) cs
  if parts.length ≤ maxDepth then return (parts, rest) else none

end StructureLint.Toml
