/-!
# Log lines

A log line is written with its severity in front (`LogLine.display`). Control characters that steer
a terminal are written as escapes, so that no text in a line can act on the terminal.
-/

namespace StructureLint

/-- How much a log line matters. -/
inductive Severity where
  | debug
  | info
  | warn
deriving DecidableEq, Repr

/-- One line of a log. -/
structure LogLine where
  severity : Severity
  text : String
deriving DecidableEq, Repr

/-- The name of a severity. -/
def Severity.name : Severity → String
  | .debug => "DEBUG"
  | .info => "INFO"
  | .warn => "WARN"

namespace LogLine

/-- A line for those who look for a fault. -/
def debug (text : String) : LogLine := ⟨.debug, text⟩

/-- A line about what happens. -/
def info (text : String) : LogLine := ⟨.info, text⟩

/-- A line about what should be looked at. -/
def warn (text : String) : LogLine := ⟨.warn, text⟩

/-- A character as it is written in a line. -/
def escape (c : Char) : List Char :=
  if c == '\x1b' then ['\\', 'x', '1', 'b']
  else if c == '\x07' then ['\\', 'x', '0', '7']
  else if c == '\x08' then ['\\', 'x', '0', '8']
  else if c == '\x0c' then ['\\', 'x', '0', 'c']
  else if c == '\x7f' then ['\\', 'x', '7', 'f']
  else if 0x80 ≤ c.toNat && c.toNat < 0xA0 then
    '\\' :: 'u' :: '{' :: (Nat.toDigits 16 c.toNat ++ ['}'])
  else [c]

/-- The line as it is written. -/
def display (l : LogLine) : String :=
  l.severity.name ++ " " ++ String.ofList (l.text.toList.flatMap escape)

/-- Whether a line is written, where lines for those who look for a fault may be left out. -/
def isShown (verbose : Bool) (l : LogLine) : Bool :=
  verbose || l.severity != .debug

end LogLine

end StructureLint
