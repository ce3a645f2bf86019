import Stencil.Text.Units
import Stencil.Value.Arith

/-!
# Comparing values

* `Value.strictEq`: the same kind and the same value; arrays, objects and functions by identity
* `Value.sameItem`: the same, but what is no number equals itself
* `Value.looseEq`: values of different kinds are compared as numbers or texts
* `Value.lessThan?`: the order, where there is one
* `Value.alike`: arrays and objects compared item by item
* `CompareOp.apply`: the operators that compare
-/

namespace Stencil

namespace Value

/-- Two values are strictly equal if they are of one kind and equal numbers, equal texts, or the
very same array, object or function. -/
def strictEq : Value → Value → Bool
  | undefined, undefined => true
  | null, null => true
  | bool a, bool b => a == b
  | number x, number y => x == y
  | string s, string t => s == t
  | array i _, array j _ => i == j
  | object i _, object j _ => i == j
  | function f, function g => f == g
  | _, _ => false

/-- Is the value what a computation without a result gives? -/
def isNaN : Value → Bool
  | number x => x.isNaN
  | _ => false

/-- Strictly equal, or both no number. -/
def sameItem (a b : Value) : Bool :=
  (a.isNaN && b.isNaN) || strictEq a b

/-- A truth value as a number, and any other value as it is. -/
def numbered : Value → Value
  | bool b => number (if b then 1 else 0)
  | v => v

/-- Equality of numbers and texts: a text next to a number counts as a number. -/
def simpleEq : Value → Value → Bool
  | number x, number y => x == y
  | string s, string t => s == t
  | number x, string t => x == Number.ofText t.toList
  | string s, number y => Number.ofText s.toList == y
  | _, _ => false

/-- Loose equality. Nothing equals only nothing, values of one kind are compared strictly, two
compound values of different kinds differ, and all others are compared as numbers or texts. -/
def looseEq (a b : Value) : Bool :=
  if a.isNullish || b.isNullish then a.isNullish && b.isNullish
  else if a.kind == b.kind then strictEq a b
  else if a.isCompound && b.isCompound then false
  else simpleEq a.numbered.primitive b.numbered.primitive

/-- Is the first value less than the second one? There is no answer if one of them is no number. Two
texts are compared by their UTF-16 units. -/
def lessThan? (a b : Value) : Option Bool :=
  match a.primitive, b.primitive with
  | string s, string t => some (Text.before s.toList t.toList)
  | a, b =>
    if a.toNumber.isNaN || b.toNumber.isNaN then none else some (decide (a.toNumber < b.toNumber))

mutual

/-- Equality item by item. Functions are compared by identity. -/
def alike : Value → Value → Bool
  | array _ items, array _ others => alikeItems items others
  | object _ entries, object _ others => alikeFields entries others
  | a, b => strictEq a b

/-- Are there as many items on both sides, and are they alike? -/
def alikeItems : List Value → List Value → Bool
  | [], [] => true
  | a :: items, b :: others => alike a b && alikeItems items others
  | _, _ => false

/-- Are there the same names on both sides, with values that are alike? -/
def alikeFields : List (String × Value) → List (String × Value) → Bool
  | [], [] => true
  | (k, a) :: entries, (l, b) :: others => k == l && alike a b && alikeFields entries others
  | _, _ => false

end

end Value

/-- Compares two values. -/
def CompareOp.apply (op : CompareOp) (a b : Value) : Bool :=
  match op with
  | .eq => a.looseEq b
  | .ne => !a.looseEq b
  | .strictEq => a.strictEq b
  | .strictNe => !a.strictEq b
  | .lt => a.lessThan? b == some true
  | .gt => b.lessThan? a == some true
  | .le => b.lessThan? a == some false
  | .ge => a.lessThan? b == some false

end Stencil
