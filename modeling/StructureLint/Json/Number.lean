import StructureLint.Decimal.Layout
/-!
# Numbers in JSON texts

A number is first split into its digits (`Numeral`) and then read (`Numeral.read`). Whole numbers
that fit 64 bits, signed or unsigned, are integers. All others are rounded to 64-bit floating point
by a fast method: digits are collected as long as they fit 64 bits unsigned, and the result is
multiplied with or divided by a power of ten once, or divided step by step by `10 ^ 308`. The
result can differ in its last digit from the nearest one. The library only shows such numbers in
diagnostics, so they are kept as they are shown.
-/

namespace StructureLint.Json

/-- The digits of a number as they stand in a text. -/
structure Numeral where
  negative : Bool
  whole : List Char
  /-- The digits after the point, if there is a point. -/
  fraction : Option (List Char)
  /-- Whether the exponent is negative, and its digits. -/
  exponent : Option (Bool × List Char)
deriving DecidableEq, Repr

/-- A number that was read. -/
inductive Number where
  | integer (value : Int)
  /-- A number rounded to 64-bit floating point, as it is shown. -/
  | decimal (shown : String)
  /-- A number larger than every finite one. -/
  | outOfRange
deriving DecidableEq, Repr

/-- The value of a digit. -/
def digitValue (c : Char) : Nat :=
  c.toNat - '0'.toNat

/-- The largest number of 64 bits. -/
def maxUnsigned : Nat := UInt64.size - 1

/-- Collects digits as long as the number fits 64 bits, and returns it with what is left. -/
def collect (significand : Nat) : List Char → Nat × List Char
  | [] => (significand, [])
  | d :: ds =>
    let next := significand * 10 + digitValue d
    if next ≤ maxUnsigned then collect next ds else (significand, d :: ds)

/-- Divides by `10 ^ exponent`, at most `10 ^ 308` at a time. -/
def scaleDown (x : Float) (exponent : Nat) : Float :=
  if exponent ≤ 308 then x / Float.ofScientific 1 false exponent
  else if x == 0 then x
  else scaleDown (x / Float.ofScientific 1 false 308) (exponent - 308)
termination_by exponent

/-- A finite number as it is shown. -/
def shown (negative : Bool) (x : Float) : Number :=
  .decimal (Decimal.Layout.compact.display (if negative then -x else x))

/-- The number `significand * 10 ^ exponent`. -/
def scale (negative : Bool) (significand : Nat) (exponent : Int) : Number :=
  let x := Float.ofNat significand
  if exponent < 0 then shown negative (scaleDown x (-exponent).toNat)
  else if exponent ≤ 308 then
    let y := x * Float.ofScientific 1 false exponent.toNat
    if y.isInf then .outOfRange else shown negative y
  else if significand == 0 then shown negative x
  else .outOfRange

/-- The largest exponent that is taken at its value. -/
def maxExponent : Nat := Nat.pow 2 31 - 1

/-- Keeps a sum of exponents within 32 bits. -/
def clampExponent (e : Int) : Int :=
  max (-Nat.pow 2 31) (min e (Nat.pow 2 31 - 1))

/-- The value of digits in base ten. -/
def decimalValue (ds : List Char) : Nat :=
  ds.foldl (fun n d => n * 10 + digitValue d) 0

/-- Applies the exponent of a numeral. -/
def withExponent (negative : Bool) (significand : Nat) (start : Int) :
    Option (Bool × List Char) → Number
  | none => scale negative significand start
  | some (negativeExponent, ds) =>
    let e := decimalValue ds
    if maxExponent < e then
      if significand == 0 || negativeExponent then shown negative 0 else .outOfRange
    else if negativeExponent then scale negative significand (clampExponent (start - e))
    else scale negative significand (clampExponent (start + e))

namespace Numeral

/-- The number that a numeral stands for. -/
def read (n : Numeral) : Number :=
  let (significand, dropped) := collect 0 n.whole
  match n.fraction, n.exponent, dropped with
  | none, none, [] =>
    if !n.negative then .integer significand
    else if significand == 0 || Nat.pow 2 63 < significand then shown true (Float.ofNat significand)
    else .integer (-significand)
  | none, exponent, dropped => withExponent n.negative significand dropped.length exponent
  | some fraction, exponent, dropped =>
    let (full, unused) := collect significand fraction
    let taken : Int := fraction.length - unused.length
    withExponent n.negative full (dropped.length - taken) exponent

end Numeral

end StructureLint.Json
