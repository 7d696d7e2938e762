import StructureLint.Decimal.Layout
import StructureLint.Toml.Text
import StructureLint.Toml.Value
/-!
# Numbers of TOML

Whole numbers in base ten, sixteen, eight and two, which must fit 64 bits with a sign, and numbers
with a fraction or an exponent, which are rounded to the nearest 64-bit floating point number.
Digits may be grouped by underscores between them.
-/

namespace StructureLint.Toml

/-- Reads digits that may be grouped: an underscore stands between two digits. -/
def grouped (isDigit : Char → Bool) : List Char → Option (List Char × List Char)
  | [] => none
  | [c] => if isDigit c then some ([c], []) else none
  | c :: d :: cs =>
    if !isDigit c then none
    else if d == '_' then prepend [c] (grouped isDigit cs)
    else if isDigit d then prepend [c] (grouped isDigit (d :: cs))
    else some ([c], d :: cs)

/-- Whether a whole number fits 64 bits with a sign. -/
def fits (n : Int) : Bool :=
  -Nat.pow 2 63 ≤ n && n < Nat.pow 2 63

/-- The value of digits in some base. -/
def valueIn (base : Nat) (ds : List Char) : Nat :=
  ds.foldl (fun n d => n * base + (Json.hexValue? d).getD 0) 0

/-- Reads a sign; there need not be one. -/
def sign : List Char → Bool × List Char
  | '-' :: cs => (true, cs)
  | '+' :: cs => (false, cs)
  | cs => (false, cs)

/-- Reads the digits of a whole number in base ten; no further digit follows a zero. -/
def wholeDigits : List Char → Option (List Char × List Char)
  | '0' :: cs => some (['0'], cs)
  | cs => grouped Char.isDigit cs

/-- A number with a sign, if it fits. -/
def signed? (negative : Bool) (n : Nat) : Option Value :=
  let i : Int := if negative then -n else n
  if fits i then some (.integer i) else none

/-- Reads digits in a base other than ten. -/
def inBase (base : Nat) (isDigit : Char → Bool) (cs : List Char) :
    Option (Value × List Char) := do
  let (ds, rest) ← grouped isDigit cs
  let v ← signed? false (valueIn base ds)
  return (v, rest)

/-- Reads a whole number. -/
def integer? : List Char → Option (Value × List Char)
  | '0' :: 'x' :: cs => inBase 16 (fun c => (Json.hexValue? c).isSome) cs
  | '0' :: 'o' :: cs => inBase 8 (fun c => '0' ≤ c && c ≤ '7') cs
  | '0' :: 'b' :: cs => inBase 2 (fun c => c == '0' || c == '1') cs
  | cs => do
    let (negative, cs) := sign cs
    let (ds, rest) ← wholeDigits cs
    let v ← signed? negative (valueIn 10 ds)
    return (v, rest)

/-- A finite or infinite number as a value; one too large is refused, but not its negative. -/
def decimal? (negative : Bool) (x : Float) : Option Value :=
  if x.isInf && !negative then none
  else some (.decimal (Decimal.Layout.positional.display (if negative then -x else x)))

/-- Reads the digits after a point, if there is a point. -/
def fraction? : List Char → Option (Option (List Char) × List Char)
  | '.' :: cs => (grouped Char.isDigit cs).map fun r => (some r.1, r.2)
  | cs => some (none, cs)

/-- Reads an exponent with its sign, if there is one. -/
def exponent? : List Char → Option (Option Int × List Char)
  | [] => some (none, [])
  | c :: cs =>
    if c == 'e' || c == 'E' then do
      let (negative, cs) := sign cs
      let (ds, rest) ← grouped Char.isDigit cs
      let e : Int := valueIn 10 ds
      return (some (if negative then -e else e), rest)
    else some (none, c :: cs)

/-- The number nearest to `digits * 10 ^ exponent`, which is 0 or infinite where the exponent is
far from what 64 bits can hold. -/
def nearest (digits : Nat) (exponent : Int) : Float :=
  let magnitude := exponent + Decimal.digitCount digits
  if digits == 0 || magnitude < -400 then 0
  else if 400 < magnitude then Float.ofScientific 1 false 400
  else if exponent < 0 then Float.ofScientific digits true (-exponent).toNat
  else Float.ofScientific digits false exponent.toNat

/-- Reads a word that stands for a number that is none, or for an infinite one. -/
def special? (negative : Bool) : List Char → Option (Value × List Char)
  | 'i' :: 'n' :: 'f' :: cs => some (.decimal (if negative then "-inf" else "inf"), cs)
  | 'n' :: 'a' :: 'n' :: cs => some (.decimal "NaN", cs)
  | _ => none

/-- Reads a number with a fraction, an exponent, or both, or one that is a word. -/
def decimalNumber? (cs : List Char) : Option (Value × List Char) :=
  let (negative, cs) := sign cs
  match special? negative cs with
  | some r => some r
  | none => do
    let (whole, rest) ← wholeDigits cs
    let (fraction, rest) ← fraction? rest
    let (exponent, rest) ← exponent? rest
    match fraction, exponent with
    | none, none => none
    | _, _ =>
      let fraction := fraction.getD []
      let v ← decimal? negative
        (nearest (valueIn 10 (whole ++ fraction)) (exponent.getD 0 - fraction.length))
      return (v, rest)

end StructureLint.Toml
