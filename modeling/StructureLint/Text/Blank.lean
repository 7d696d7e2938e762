/-!
# Blanks

White space in the sense of Unicode (`isBlank`), and cutting it off both ends of a text (`trim`).
Separators of a class attribute are the narrower ASCII set (`isAsciiBlank`, `words`).
-/

namespace StructureLint.Text

/-- The characters with the Unicode property White_Space. -/
def isBlank (c : Char) : Bool :=
  let n := c.toNat
  (9 ≤ n && n ≤ 13) || n == 0x20 || n == 0x85 || n == 0xA0 || n == 0x1680
    || (0x2000 ≤ n && n ≤ 0x200A) || n == 0x2028 || n == 0x2029 || n == 0x202F || n == 0x205F
    || n == 0x3000

/-- What is left of a text after the blanks it begins with. -/
def skipBlanks (cs : List Char) : List Char :=
  cs.dropWhile isBlank

theorem length_skipBlanks_le (cs : List Char) : (skipBlanks cs).length ≤ cs.length :=
  (List.dropWhile_sublist _).length_le

/-- Cuts the blanks off both ends. -/
def trimChars (cs : List Char) : List Char :=
  (skipBlanks (skipBlanks cs).reverse).reverse

/-- Cuts the blanks off both ends of a text. -/
def trim (s : String) : String :=
  String.ofList (trimChars s.toList)

/-- Space, tab, line feed, form feed and carriage return. -/
def isAsciiBlank (c : Char) : Bool :=
  c == ' ' || c == '\t' || c == '\n' || c == '\x0c' || c == '\r'

/-- Adds one character in front of a list of words, where a blank ends the word before it. -/
def consWord (c : Char) : List (List Char) → List (List Char)
  | [] => if isAsciiBlank c then [] else [[c]]
  | w :: ws => if isAsciiBlank c then [] :: w :: ws else (c :: w) :: ws

/-- The words of a text: its longest runs without an ASCII blank, in order. -/
def words (s : String) : List String :=
  ((s.toList.foldr consWord [[]]).filter (!·.isEmpty)).map String.ofList

end StructureLint.Text
