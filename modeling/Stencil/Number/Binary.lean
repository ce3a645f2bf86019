/-!
# The parts of a double

A finite double is a whole number times a power of two. Taken apart, its digits, its whole part and
its remainder can be computed exactly.

* `Parts`, `parts`: sign, significand and exponent of a double
* `whole?`, `safeWhole?`: the value of a double without a fraction
* `trunc`, `lesser`, `greater`, `toWord`: dropping a fraction, and conversion within bounds
* `toIndex`: an index in a sequence
* `ofParts`: the double with given parts
* `remainder`: the remainder of the division that rounds toward zero
-/

namespace Stencil.Number

/-- What a double is. -/
inductive Parts where
  /-- No number. -/
  | nan
  /-- An infinity. -/
  | infinite (negative : Bool)
  /-- `significand * 2 ^ exponent`, negated if `negative`. -/
  | finite (negative : Bool) (significand : Nat) (exponent : Int)
  deriving DecidableEq, Repr

/-- The least exponent, that of the subnormal numbers. -/
def leastExponent : Int := -1074

/-- The leading bit of a normal significand, which is not stored: `2 ^ 52`. -/
def leadingBit : Nat := 0x10000000000000

/-- The bit of the sign: `2 ^ 63`. -/
def signBit : Nat := 0x8000000000000000

/-- Takes a double apart. -/
def parts (x : Float) : Parts :=
  let bits := x.toBits.toNat
  let negative := signBit ≤ bits
  let field : Nat := bits / leadingBit % 2048
  let fraction : Nat := bits % leadingBit
  if field = 2047 then
    if fraction = 0 then .infinite negative else .nan
  else if field = 0 then .finite negative fraction leastExponent
  else .finite negative (fraction + leadingBit) ((field : Int) - 1075)

/-- No number. -/
def nan : Float :=
  Float.ofBits 0x7FF8000000000000

/-- The positive infinity. -/
def infinity : Float :=
  Float.ofBits 0x7FF0000000000000

/-- A number or its negative. -/
def withSign (negative : Bool) (x : Float) : Float :=
  if negative then -x else x

/-! ## Whole parts -/

/-- `m * 2 ^ e`, rounded down. -/
def scaleDown (m : Nat) (e : Int) : Nat :=
  if 0 ≤ e then m * Nat.pow 2 e.toNat else m / Nat.pow 2 (-e).toNat

/-- A whole number with a sign. -/
def signed (negative : Bool) (n : Nat) : Int :=
  if negative then -(n : Int) else n

/-- The value of a finite double without a fraction. -/
def whole? (x : Float) : Option Int :=
  match parts x with
  | .finite negative m e =>
    if 0 ≤ e ∨ m % Nat.pow 2 (-e).toNat = 0 then some (signed negative (scaleDown m e)) else none
  | _ => none

/-- The first whole number that not every double near it can express: `2 ^ 53`. -/
def exactBound : Nat := 0x20000000000000

/-- The value of a whole double below `2 ^ 53` in absolute value. -/
def safeWhole? (x : Float) : Option Int :=
  (whole? x).filter fun n => decide (n.natAbs < exactBound)

/-- Is it the negative zero? -/
def isNegativeZero (x : Float) : Bool :=
  parts x == .finite true 0 leastExponent

/-! ## Bounds -/

/-- The least number that does not fit into an unsigned word: `2 ^ 64`. -/
def wordBound : Nat := 0x10000000000000000

/-- The number without its fraction. It keeps its sign, also if it becomes a zero. -/
def trunc (x : Float) : Float :=
  match parts x with
  | .finite negative m e =>
    if 0 ≤ e then x else withSign negative (Float.ofNat (scaleDown m e))
  | _ => x

/-- The lesser one of two numbers. What is no number is passed over. -/
def lesser (x y : Float) : Float :=
  if x.isNaN then y else if y < x then y else x

/-- The greater one of two numbers. What is no number is passed over. -/
def greater (x y : Float) : Float :=
  if x.isNaN then y else if x < y then y else x

/-- The unsigned word nearest to a number, toward zero: what is no number is zero, and what is out
of bounds is the least word or the greatest one. -/
def toWord (x : Float) : Nat :=
  match parts x with
  | .nan => 0
  | .infinite negative => if negative then 0 else wordBound - 1
  | .finite negative m e => if negative then 0 else min (scaleDown m e) (wordBound - 1)

/-- The index in a sequence that a number without a fraction stands for: a negative one counts from
the end, and all are brought into the bounds. It stays a double until it is a word. -/
def toIndex (n : Float) (length : Nat) : Nat :=
  if n < 0 then toWord (greater (Float.ofNat length + n) 0)
  else toWord (lesser n (Float.ofNat length))

/-! ## Remainder -/

/-- The double `m * 2 ^ e`, for a significand below `2 ^ 53` and an exponent in range. -/
def ofParts (negative : Bool) (m : Nat) (e : Int) : Float :=
  let shift := min (52 - m.log2) (e - leastExponent).toNat
  let significand := m * Nat.pow 2 shift
  let exponent := e - shift
  let bits :=
    if significand < leadingBit then significand
    else (exponent + 1075).toNat * leadingBit + (significand - leadingBit)
  withSign negative (Float.ofBits (UInt64.ofNat bits))

/-- The remainder of the division of `x` by `y` that rounds toward zero. It has the sign of `x` and
is exact. -/
def remainder (x y : Float) : Float :=
  match parts x, parts y with
  | .finite negative m e, .finite _ n f =>
    if n = 0 then nan
    else
      let low := min e f
      ofParts negative (m * Nat.pow 2 (e - low).toNat % (n * Nat.pow 2 (f - low).toNat)) low
  | .finite .., .infinite _ => x
  | _, _ => nan

end Stencil.Number
