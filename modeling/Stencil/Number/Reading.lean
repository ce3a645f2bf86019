import Stencil.Number.Binary
import Stencil.Text.Blank

/-!
# Numbers read from text

* `decimal?`: a decimal literal with optional sign, fraction and exponent, as the nearest double
* `radix?`, `digitValue?`, `wholeNumber?`: whole numbers in base two, eight or sixteen
* `ofText`: the number that a text stands for, which is no number for most texts
-/

namespace Stencil.Number

open Stencil.Text

/-- A digit from zero to nine. -/
def isDigit (c : Char) : Bool :=
  '0' ≤ c && c ≤ '9'

/-- The value of a digit or of a letter taken as a digit. -/
def letterValue? (c : Char) : Option Nat :=
  if isDigit c then some (c.toNat - '0'.toNat)
  else if 'a' ≤ c && c ≤ 'z' then some (c.toNat - 'a'.toNat + 10)
  else if 'A' ≤ c && c ≤ 'Z' then some (c.toNat - 'A'.toNat + 10)
  else none

/-- The value of a digit in a base. -/
def digitValue? (base : Nat) (c : Char) : Option Nat :=
  (letterValue? c).filter (· < base)

/-- The number that a sequence of decimal digits stands for. -/
def ofDigits (digits : List Char) : Nat :=
  digits.foldl (fun n c => 10 * n + (c.toNat - '0'.toNat)) 0

/-- The number that one or more digits in a base stand for. -/
def wholeNumber? (base : Nat) (digits : List Char) : Option Nat :=
  if digits.isEmpty then none
  else (digits.mapM (digitValue? base)).map fun values => values.foldl (fun n d => base * n + d) 0

/-- The base that the letter after a leading zero announces. -/
def radix? : Char → Option Nat
  | 'b' | 'B' => some 2
  | 'o' | 'O' => some 8
  | 'x' | 'X' => some 16
  | _ => none

/-! ## Decimal literals -/

/-- A decimal literal: `mantissa * 10 ^ exponent`, negated if `negative`. -/
structure Decimal where
  negative : Bool
  mantissa : Nat
  exponent : Int
  deriving DecidableEq, Repr

/-- A leading sign, and what follows it. -/
def splitSign : List Char → Bool × List Char
  | '-' :: rest => (true, rest)
  | '+' :: rest => (false, rest)
  | s => (false, s)

/-- The exponent at the end of a literal: nothing, or the letter, an optional sign and digits. -/
def exponent? : List Char → Option Int
  | [] => some 0
  | c :: rest =>
    if c = 'e' ∨ c = 'E' then
      let (negative, digits) := splitSign rest
      if digits.isEmpty || !digits.all isDigit then none
      else some (signed negative (ofDigits digits))
    else none

/-- The digits after the point, if there is a point, and what follows them. -/
def splitFraction : List Char → List Char × List Char
  | '.' :: rest => rest.span isDigit
  | s => ([], s)

/-- The decimal literal that a text is. There is a digit before the exponent, on either side of the
point. -/
def literal? (s : List Char) : Option Decimal :=
  let (negative, s) := splitSign s
  let (whole, s) := s.span isDigit
  let (fraction, s) := splitFraction s
  if whole.isEmpty && fraction.isEmpty then none
  else (exponent? s).map fun exponent =>
    { negative := negative
      mantissa := ofDigits (whole ++ fraction)
      exponent := exponent - fraction.length }

/-- The power of ten at which every positive double is exceeded. -/
def overflowPower : Int := 310

/-- The power of ten below which every number rounds to zero. -/
def underflowPower : Int := -330

/-- The double nearest to a decimal. -/
def Decimal.toFloat (d : Decimal) : Float :=
  let magnitude := (Nat.toDigits 10 d.mantissa).length + d.exponent
  withSign d.negative <|
    if d.mantissa = 0 ∨ magnitude < underflowPower then 0
    else if overflowPower < magnitude then infinity
    else Float.ofScientific d.mantissa (d.exponent < 0) d.exponent.natAbs

/-- The double nearest to a decimal literal. -/
def decimal? (s : List Char) : Option Float :=
  (literal? s).map Decimal.toFloat

/-! ## Texts -/

/-- A whole number in a base, with an optional plus sign, that fits into an unsigned word. -/
def word? (base : Nat) (s : List Char) : Option Nat :=
  let digits := match s with
    | '+' :: rest => rest
    | s => s
  (wholeNumber? base digits).filter (· < wordBound)

/-- The number that a text without blanks around it stands for. -/
def ofTrimmed (s : List Char) : Float :=
  match s with
  | [] => 0
  | '0' :: c :: rest =>
    match radix? c with
    | some base => ((word? base rest).map Float.ofNat).getD nan
    | none => (decimal? s).getD nan
  | _ =>
    if s = "Infinity".toList ∨ s = "+Infinity".toList then infinity
    else if s = "-Infinity".toList then -infinity
    else (decimal? s).getD nan

/-- The number that a text stands for. Blanks around it do not count, and an empty text is zero. -/
def ofText (s : List Char) : Float :=
  ofTrimmed (trim s)

end Stencil.Number
