import StructureLint.Toml.Text
import StructureLint.Toml.Value
/-!
# Dates and times of TOML

A date, a time of day, or a date with a time and perhaps an offset from universal time. Only dates
of the calendar are accepted, and fractions of a second are kept to nine digits.
-/

namespace StructureLint.Toml

/-- Reads exactly that many digits. -/
def digits? (count : Nat) (cs : List Char) : Option (List Char × List Char) :=
  let ds := cs.take count
  if ds.length = count ∧ ds.all Char.isDigit then some (ds, cs.drop count) else none

/-- Reads a number of two digits between two bounds. -/
def twoDigits? (least most : Nat) (cs : List Char) : Option (List Char × List Char) := do
  let (ds, rest) ← digits? 2 cs
  let n := valueOf ds
  if least ≤ n ∧ n ≤ most then return (ds, rest) else none
where
  valueOf (ds : List Char) : Nat := ds.foldl (fun n d => n * 10 + (d.toNat - '0'.toNat)) 0

/-- Takes one character off the front. -/
def expect? (c : Char) : List Char → Option (List Char)
  | d :: cs => if d = c then some cs else none
  | [] => none

/-- The number of days of a month. -/
def daysIn (year month : Nat) : Nat :=
  if month = 2 then
    if year % 4 = 0 ∧ (year % 100 ≠ 0 ∨ year % 400 = 0) then 29 else 28
  else if month = 4 ∨ month = 6 ∨ month = 9 ∨ month = 11 then 30
  else 31

/-- Reads a date. -/
def date? (cs : List Char) : Option (List Char × List Char) := do
  let (year, cs) ← digits? 4 cs
  let cs ← expect? '-' cs
  let (month, cs) ← twoDigits? 1 12 cs
  let cs ← expect? '-' cs
  let (day, cs) ← twoDigits? 1 31 cs
  let value := twoDigits?.valueOf
  if value day ≤ daysIn (value year) (value month) then
    return (year ++ '-' :: month ++ '-' :: day, cs)
  else none

/-- Reads a fraction of a second, if there is one, and keeps nine digits without final zeros. -/
def secondFraction? : List Char → Option (List Char × List Char)
  | '.' :: cs =>
    match cs.takeWhile Char.isDigit with
    | [] => none
    | ds =>
      let kept := ((ds.take 9).reverse.dropWhile (· == '0')).reverse
      some (if kept.isEmpty then [] else '.' :: kept, cs.dropWhile Char.isDigit)
  | cs => some ([], cs)

/-- Reads a time of day. -/
def time? (cs : List Char) : Option (List Char × List Char) := do
  let (hour, cs) ← twoDigits? 0 23 cs
  let cs ← expect? ':' cs
  let (minute, cs) ← twoDigits? 0 59 cs
  let cs ← expect? ':' cs
  let (second, cs) ← twoDigits? 0 60 cs
  let (fraction, cs) ← secondFraction? cs
  return (hour ++ ':' :: minute ++ ':' :: second ++ fraction, cs)

/-- Reads an offset from universal time, if there is one. -/
def offset? : List Char → Option (List Char × List Char)
  | [] => some ([], [])
  | c :: cs =>
    if c == 'Z' || c == 'z' then some (['Z'], cs)
    else if c == '+' || c == '-' then do
      let (hour, cs) ← twoDigits? 0 23 cs
      let cs ← expect? ':' cs
      let (minute, cs) ← twoDigits? 0 59 cs
      let zero := (hour ++ minute).all (· == '0')
      return ((if zero then '+' else c) :: (hour ++ ':' :: minute), cs)
    else some ([], c :: cs)

/-- Reads the time that follows a date after a letter or a space, with its offset. -/
def timeAfterDate? : List Char → Option (List Char × List Char)
  | c :: cs =>
    if c == 'T' || c == 't' || c == ' ' then do
      let (time, cs) ← time? cs
      let (offset, cs) ← offset? cs
      return (time ++ offset, cs)
    else none
  | [] => none

/-- Reads a date, a time, or both. -/
def dateTime? (cs : List Char) : Option (Value × List Char) :=
  match date? cs with
  | some (date, rest) =>
    match timeAfterDate? rest with
    | some (time, rest) => some (.dateTime (String.ofList (date ++ 'T' :: time)), rest)
    | none => some (.dateTime (String.ofList date), rest)
  | none => (time? cs).map fun r => (.dateTime (String.ofList r.1), r.2)

end StructureLint.Toml
