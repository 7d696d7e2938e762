import StructureLint.Text.Alphanumeric
/-!
# Breaking text into lines

A text is broken at blanks into lines that fit a number of columns on a screen. Ideographs and
other wide characters take two columns.
-/

namespace StructureLint.Text

/-- The characters that take two columns: East Asian wide and full-width forms, and emoji. -/
def wideRanges : List (Nat × Nat) :=
  [(0x1100, 0x115F), (0x2E80, 0x303E), (0x3041, 0x33FF), (0x3400, 0x4DBF), (0x4E00, 0xA4CF),
   (0xA960, 0xA97C), (0xAC00, 0xD7A3), (0xF900, 0xFAFF), (0xFE30, 0xFE6F), (0xFF01, 0xFF60),
   (0xFFE0, 0xFFE6), (0x1F300, 0x1F64F), (0x1F680, 0x1F6FF), (0x1F900, 0x1F9FF),
   (0x20000, 0x3FFFD)]

/-- The number of columns of a character. -/
def columns (c : Char) : Nat :=
  if inRanges wideRanges c.toNat then 2 else 1

/-- The number of columns of a text. -/
def width (cs : List Char) : Nat :=
  cs.foldr (columns · + ·) 0

/-- Puts words on a line that has begun, and on further lines as soon as one does not fit. -/
def fill (limit : Nat) (line : List Char) : List (List Char) → List (List Char)
  | [] => [line]
  | w :: ws =>
    let longer := line ++ ' ' :: w
    if width longer ≤ limit then fill limit longer ws else line :: fill limit w ws

/-- The lines of one paragraph. A word that does not fit any line has one of its own. -/
def fillParagraph (limit : Nat) (cs : List Char) : List (List Char) :=
  match cs.splitOn ' ' with
  | [] => [[]]
  | w :: ws => fill limit w ws

/-- The lines of a text, with a mark in front of the first one and another in front of all that
follow. Line breaks of the text are kept. -/
def wrapped (limit : Nat) (first following : String) (s : String) : List String :=
  match ((s.toList.splitOn '\n').flatMap (fillParagraph limit)).map String.ofList with
  | [] => []
  | l :: ls => (first ++ l) :: ls.map (following ++ ·)

end StructureLint.Text
