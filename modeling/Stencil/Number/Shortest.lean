import Stencil.Number.Binary

/-!
# Shortest digits

A double stands for every real number that rounds to it. Among the decimals in that interval those
with the fewest digits are the shortest ones, and the one nearest to the double is chosen.

* `Digits`: a decimal fraction with its point
* `Interval`: a double and the bounds of its interval, over a common unit
* `hit?`: the best decimal of a given number of digits, if one lies in the interval
* `shortest`: the digits of the double
-/

namespace Stencil.Number

/-- The number `0.d₁d₂… * 10 ^ point`, with digits in decimal. -/
structure Digits where
  digits : List Char
  point : Int
  deriving DecidableEq, Repr

/-- A positive rational `middle / unit` and the bounds of the interval around it, which belong to
the interval if `closed`. -/
structure Interval where
  low : Nat
  middle : Nat
  high : Nat
  unit : Nat
  closed : Bool
  deriving DecidableEq, Repr

/-- The reals that round to `m * 2 ^ e`: half way to the neighbour on each side, where the neighbour
below a power of two is only half as far away. Ties go to the even significand. -/
def interval (m : Nat) (e : Int) : Interval :=
  let scale := if 2 ≤ e then Nat.pow 2 (e - 2).toNat else 1
  let unit := if 2 ≤ e then 1 else Nat.pow 2 (2 - e).toNat
  let gap := if m = leadingBit ∧ leastExponent < e then 1 else 2
  { low := (4 * m - gap) * scale
    middle := 4 * m * scale
    high := (4 * m + 2) * scale
    unit := unit
    closed := m % 2 = 0 }

/-- The interval over a finer unit, or over a coarser one: all of it times `10 ^ shift`. -/
def Interval.shift (i : Interval) (shift : Int) : Interval :=
  let up := Nat.pow 10 shift.toNat
  { i with
    low := i.low * up
    middle := i.middle * up
    high := i.high * up
    unit := i.unit * Nat.pow 10 (-shift).toNat }

/-- Does the whole number lie in the interval? -/
def Interval.holds (i : Interval) (n : Nat) : Bool :=
  if i.closed then decide (i.low ≤ n * i.unit ∧ n * i.unit ≤ i.high)
  else decide (i.low < n * i.unit ∧ n * i.unit < i.high)

/-- The whole number in the interval that is nearest to its middle, if there is one next to the
middle. A tie goes up. -/
def Interval.nearest? (i : Interval) : Option Nat :=
  let below := i.middle / i.unit
  let rest := i.middle % i.unit
  match i.holds below, i.holds (below + 1) with
  | true, true => some (if 2 * rest < i.unit then below else below + 1)
  | true, false => some below
  | false, true => some (below + 1)
  | false, false => none

/-- The position of the point: the middle is below `10 ^ point` and not below a tenth of it. -/
def Interval.point (i : Interval) : Int :=
  if i.unit ≤ i.middle then ((Nat.toDigits 10 (i.middle / i.unit)).length : Int)
  else
    let above := (i.unit + i.middle - 1) / i.middle
    1 - ((Nat.toDigits 10 (above - 1)).length : Int)

/-- The best decimal with `count` digits after the point's position, if one lies in the interval. -/
def hit? (i : Interval) (point : Int) (count : Nat) : Option Nat :=
  (i.shift (count - point)).nearest?

/-- The first number of digits, counting up from `count`, at which a decimal lies in the
interval. -/
def search? (i : Interval) (point : Int) : Nat → Nat → Option (Nat × Nat)
  | 0, _ => none
  | tries + 1, count =>
    match hit? i point count with
    | some n => some (count, n)
    | none => search? i point tries (count + 1)

/-- Without zeros at the end. -/
def dropTrailingZeros (digits : List Char) : List Char :=
  (digits.reverse.dropWhile (· == '0')).reverse

/-- The number of digits that is always enough to tell a double from all others. -/
def enoughDigits : Nat := 17

/-- The shortest digits of the positive double `m * 2 ^ e`. -/
def shortest (m : Nat) (e : Int) : Digits :=
  let i := interval m e
  let point := i.point
  let (count, n) := (search? i point enoughDigits 1).getD (0, 0)
  let digits := Nat.toDigits 10 n
  { digits := dropTrailingZeros digits
    point := point + ((digits.length : Int) - count) }

end Stencil.Number
