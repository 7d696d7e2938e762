import StructureLint.Decimal.Shortest
/-!
# Writing decimals

A decimal is written positionally or with an exponent. A `Layout` says for which magnitudes it is
positional and how the last digit is chosen; a positional decimal always has a point and a digit
after it, and an exponent always has a sign unless it is zero.
-/

namespace StructureLint.Decimal

/-- How decimals are written. -/
structure Layout where
  /-- Positional are decimals whose point stands at a place after this one, counted from the first
  digit; without it, all that are small enough for `most`. -/
  least : Option Int
  /-- Positional are decimals whose point stands at this place or before it; without it, all that
  are large enough for `least`. -/
  most : Option Int
  /-- Which of two equally near decimals is written. -/
  tie : Tie

/-- Every decimal is written positionally; of two equally near ones the larger one. -/
def Layout.positional : Layout := ⟨none, none, .larger⟩

/-- From a hundred-thousandth to below ten to the sixteenth, decimals are written positionally; of
two equally near ones the even one is written. -/
def Layout.compact : Layout := ⟨some (-5), some 16, .even⟩

/-- Whether a decimal whose point stands after `point` digits is written positionally. -/
def Layout.covers (l : Layout) (point : Int) : Bool :=
  l.least.all (· < point) && l.most.all (point ≤ ·)

/-- That many zeros. -/
def zeros (n : Nat) : List Char :=
  List.replicate n '0'

/-- The digits with the point after `point` of them, filled up with zeros. -/
def placePoint (digits : List Char) (point : Int) : List Char :=
  if point ≤ 0 then '0' :: '.' :: (zeros (-point).toNat ++ digits)
  else
    let whole := point.toNat
    if digits.length ≤ whole then digits ++ zeros (whole - digits.length) ++ ['.', '0']
    else digits.take whole ++ '.' :: digits.drop whole

/-- An exponent with its sign. -/
def signed (exponent : Int) : List Char :=
  if 0 < exponent then '+' :: (toString exponent).toList else (toString exponent).toList

/-- The first digit, a point and the others if there are any, and the exponent. -/
def scientific (digits : List Char) (exponent : Int) : List Char :=
  let mantissa :=
    match digits with
    | d :: e :: ds => d :: '.' :: e :: ds
    | ds => ds
  mantissa ++ 'e' :: signed exponent

/-- The text of the decimal `digits * 10 ^ exponent`. -/
def Layout.write (l : Layout) (digits : Nat) (exponent : Int) : List Char :=
  if digits == 0 then ['0', '.', '0']
  else
    let ds := Nat.toDigits 10 digits
    let point := ds.length + exponent
    if l.covers point then placePoint ds point else scientific ds (point - 1)

/-- The text of a 64-bit number in the fewest digits. -/
def Layout.display (l : Layout) (x : Float) : String :=
  if x.isNaN then "NaN"
  else
    let bits := x.toBits
    let body :=
      if x.isInf then ['i', 'n', 'f']
      else
        let (digits, exponent) := shortest l.tie (bits &&& 0x7FFFFFFFFFFFFFFF)
        l.write digits exponent
    String.ofList (if bits >>> 63 == 1 then '-' :: body else body)

end StructureLint.Decimal
