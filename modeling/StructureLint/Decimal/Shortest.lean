/-!
# The fewest digits of a binary number

A number `significand * 2 ^ exponent` of 64-bit floating point stands for all numbers nearer to it
than to its neighbours. `shortest` finds the decimal with the fewest digits among those, and of the
decimals with that many digits the nearest; a `Tie` settles which one that is if two are equally
near. The grid of decimals with a given number of digits has a member in the interval exactly if
one of the two members next to the number lies in it (`Interval.onGrid`), so only those two are
tried.
-/

namespace StructureLint.Decimal

/-- Which of two neighbours on a grid is taken if both are equally near. -/
inductive Tie where
  /-- The one whose last digit is even. -/
  | even
  /-- The larger one. -/
  | larger
deriving DecidableEq, Repr

/-- Whether the smaller of two equally near neighbours is taken, whose digits are `below`. -/
def Tie.takesSmaller : Tie → Nat → Bool
  | .even, below => below % 2 == 0
  | .larger, _ => false

/-- A positive binary number with the numbers that round to it: those between `low` and `high`,
all three counted in units of `unit / denominator`. The ends belong to them if `closed`. -/
structure Interval where
  low : Nat
  value : Nat
  high : Nat
  closed : Bool
  denominator : Nat
deriving Repr

/-- The numbers that round to `significand * 2 ^ exponent`. The gap to the neighbour below is half
as wide where a power of two begins. -/
def Interval.around (significand : Nat) (exponent : Int) (narrow : Bool) : Interval :=
  let unit := Nat.pow 2 (exponent - 2).toNat
  { low := (4 * significand - if narrow then 1 else 2) * unit
    value := 4 * significand * unit
    high := (4 * significand + 2) * unit
    closed := significand % 2 == 0
    denominator := Nat.pow 2 (2 - exponent).toNat }

/-- Whether the decimal `digits * 10 ^ exponent` rounds to the number. -/
def Interval.holds (i : Interval) (digits : Nat) (exponent : Int) : Bool :=
  let decimal := digits * Nat.pow 10 exponent.toNat * i.denominator
  let scale := Nat.pow 10 (-exponent).toNat
  if i.closed then i.low * scale ≤ decimal && decimal ≤ i.high * scale
  else i.low * scale < decimal && decimal < i.high * scale

/-- The decimal nearest to the number among those that are multiples of `10 ^ exponent` and round
to it. -/
def Interval.onGrid (i : Interval) (tie : Tie) (exponent : Int) : Option Nat :=
  let step := Nat.pow 10 exponent.toNat * i.denominator
  let scaled := i.value * Nat.pow 10 (-exponent).toNat
  let below := scaled / step
  let above := below + 1
  let toBelow := scaled - below * step
  let toAbove := above * step - scaled
  let preferBelow := toBelow < toAbove || (toBelow == toAbove && tie.takesSmaller below)
  match i.holds below exponent, i.holds above exponent with
  | true, true => some (if preferBelow then below else above)
  | true, false => some below
  | false, true => some above
  | false, false => none

/-- The number of digits of a natural number. -/
def digitCount (n : Nat) : Nat :=
  (Nat.toDigits 10 n).length

/-- The exponent of the first digit of the number. No 64-bit number is as small as `10 ^ -340`. -/
def Interval.magnitude (i : Interval) : Int :=
  (digitCount (i.value * Nat.pow 10 340 / i.denominator) : Int) - 341

/-- Takes the zeros off the end of a decimal. -/
def dropZeros : Nat → Nat → Int → Nat × Int
  | 0, digits, exponent => (digits, exponent)
  | steps + 1, digits, exponent =>
    if digits % 10 == 0 then dropZeros steps (digits / 10) (exponent + 1) else (digits, exponent)

/-- The shortest decimal that rounds to the number, as digits and exponent. Seventeen digits are
always enough. -/
def Interval.shortest (i : Interval) (tie : Tie) : Nat × Int :=
  let grid := (List.range 17).findSome? fun (more : Nat) =>
    let exponent := i.magnitude - (more : Int)
    (i.onGrid tie exponent).map fun digits => (digits, exponent)
  match grid with
  | none => (0, 0)
  | some (digits, exponent) => dropZeros 20 digits exponent

/-- The digits and the exponent of a positive number given by its 64 bits. -/
def shortest (tie : Tie) (bits : UInt64) : Nat × Int :=
  let fraction : Nat := bits.toNat % Nat.pow 2 52
  let biased : Nat := bits.toNat / Nat.pow 2 52 % Nat.pow 2 11
  if biased == 0 then (Interval.around fraction (-1074) false).shortest tie
  else (Interval.around (Nat.pow 2 52 + fraction) ((biased : Int) - 1075)
    (fraction == 0 && 1 < biased)).shortest tie

end StructureLint.Decimal
