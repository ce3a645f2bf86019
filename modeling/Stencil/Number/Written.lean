import Stencil.Number.Binary
import Stencil.Number.Shortest

/-!
# Numbers as text

* `Layout`: what a way of writing numbers decides
* `plain`: the layout of numbers in templates
* `Layout.write`: the text of a double
-/

namespace Stencil.Number

/-- The decisions of a way of writing numbers. -/
structure Layout where
  /-- The least position of the point that is written without an exponent. -/
  firstPoint : Int
  /-- The greatest position of the point that is written without an exponent. -/
  lastPoint : Int
  /-- What stands before an exponent that is not negative. -/
  exponentSign : List Char
  /-- The text of a zero of either sign. -/
  zero : List Char
  /-- The text of the positive infinity. -/
  infinity : List Char
  /-- The text of what is no number. -/
  nan : List Char
  deriving DecidableEq, Repr

/-- Numbers from `1e-6` up to but not including `1e+21` are written without an exponent, an exponent
has a sign, and both zeros are written alike. -/
def plain : Layout where
  firstPoint := -5
  lastPoint := 21
  exponentSign := ['+']
  zero := ['0']
  infinity := "Infinity".toList
  nan := "NaN".toList

/-- Digits with a point among them, with zeros filled in on either side. -/
def positional (d : Digits) : List Char :=
  if d.point ≤ 0 then
    '0' :: '.' :: List.replicate (-d.point).toNat '0' ++ d.digits
  else if d.digits.length ≤ d.point.toNat then
    d.digits ++ List.replicate (d.point.toNat - d.digits.length) '0'
  else d.digits.take d.point.toNat ++ '.' :: d.digits.drop d.point.toNat

/-- One digit before the point, the others after it, and the power of ten. -/
def scientific (layout : Layout) (d : Digits) : List Char :=
  let exponent := d.point - 1
  let mantissa := match d.digits with
    | [] => []
    | [c] => [c]
    | c :: rest => c :: '.' :: rest
  let sign := if exponent < 0 then ['-'] else layout.exponentSign
  mantissa ++ 'e' :: sign ++ Nat.toDigits 10 exponent.natAbs

/-- The text of a double. -/
def Layout.write (layout : Layout) (x : Float) : List Char :=
  match parts x with
  | .nan => layout.nan
  | .infinite negative => (if negative then ['-'] else []) ++ layout.infinity
  | .finite negative m e =>
    if m = 0 then layout.zero
    else
      let d := shortest m e
      (if negative then ['-'] else []) ++
        (if layout.firstPoint ≤ d.point ∧ d.point ≤ layout.lastPoint then positional d
         else scientific layout d)

/-- The text of a number in a template. -/
def text (x : Float) : String :=
  String.ofList (plain.write x)

end Stencil.Number
