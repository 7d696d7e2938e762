/-!
# JSON values and their text

`Json` is the data that the library writes as JSON; members of an object are kept in the order
given. `compact` writes it without blanks, `pretty` with one item to a line.
-/

namespace StructureLint

/-- A JSON value whose numbers are whole. -/
inductive Json where
  | null
  | boolean (value : Bool)
  | integer (value : Int)
  | string (text : String)
  | array (items : List Json)
  | object (members : List (String × Json))
deriving Repr, Inhabited

namespace Json

/-- One character inside a JSON string: quotation marks, backslashes and control characters are
escaped, all else stands for itself. -/
def escape (c : Char) : List Char :=
  if c == '"' then ['\\', '"']
  else if c == '\\' then ['\\', '\\']
  else if c == '\x08' then ['\\', 'b']
  else if c == '\x0c' then ['\\', 'f']
  else if c == '\n' then ['\\', 'n']
  else if c == '\r' then ['\\', 'r']
  else if c == '\t' then ['\\', 't']
  else if c.toNat < 0x20 then
    ['\\', 'u', '0', '0', Nat.digitChar (c.toNat / 16), Nat.digitChar (c.toNat % 16)]
  else [c]

/-- A text as a JSON string. -/
def quote (s : String) : List Char :=
  '"' :: (s.toList.flatMap escape ++ ['"'])

/-- A value that holds no others. -/
def scalar : Json → List Char
  | .null => ['n', 'u', 'l', 'l']
  | .boolean true => ['t', 'r', 'u', 'e']
  | .boolean false => ['f', 'a', 'l', 's', 'e']
  | .integer i => (toString i).toList
  | .string s => quote s
  | _ => []

mutual

/-- The text of a value, without blanks. -/
def chars : Json → List Char
  | .array items => '[' :: (itemChars items ++ [']'])
  | .object members => '{' :: (memberChars members ++ ['}'])
  | j => scalar j

/-- The items of an array, between commas. -/
def itemChars : List Json → List Char
  | [] => []
  | [j] => chars j
  | j :: k :: js => chars j ++ ',' :: itemChars (k :: js)

/-- The members of an object, between commas. -/
def memberChars : List (String × Json) → List Char
  | [] => []
  | [(key, j)] => quote key ++ ':' :: chars j
  | (key, j) :: m :: ms => quote key ++ ':' :: (chars j ++ ',' :: memberChars (m :: ms))

end

/-- The text of a value on one line, without blanks. -/
def compact (j : Json) : String :=
  String.ofList j.chars

/-- The beginning of a line at a level of nesting, two blanks for each. -/
def newline (level : Nat) : List Char :=
  '\n' :: List.replicate (2 * level) ' '

mutual

/-- The text of a value with one item or member to a line, beginning at a level of nesting. -/
def prettyChars (level : Nat) : Json → List Char
  | .array [] => ['[', ']']
  | .object [] => ['{', '}']
  | .array (j :: js) =>
    '[' :: (newline (level + 1) ++ prettyChars (level + 1) j ++ prettyItems (level + 1) js
      ++ newline level ++ [']'])
  | .object ((key, j) :: ms) =>
    '{' :: (newline (level + 1) ++ quote key ++ ':' :: ' ' :: prettyChars (level + 1) j
      ++ prettyMembers (level + 1) ms ++ newline level ++ ['}'])
  | j => scalar j

/-- The further items of an array. -/
def prettyItems (level : Nat) : List Json → List Char
  | [] => []
  | j :: js => ',' :: (newline level ++ prettyChars level j ++ prettyItems level js)

/-- The further members of an object. -/
def prettyMembers (level : Nat) : List (String × Json) → List Char
  | [] => []
  | (key, j) :: ms =>
    ',' :: (newline level ++ quote key ++ ':' :: ' ' :: prettyChars level j
      ++ prettyMembers level ms)

end

/-- The text of a value, indented by two blanks for each level. -/
def pretty (j : Json) : String :=
  String.ofList (j.prettyChars 0)

end Json

end StructureLint
