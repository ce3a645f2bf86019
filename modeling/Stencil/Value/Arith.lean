import Stencil.Expr
import Stencil.Number.Reading
import Stencil.Value.Text

/-!
# Values as numbers

* `Value.primitive`: arrays, objects and functions as texts
* `Value.toNumber`: the number that a value stands for
* `ArithOp.apply`: the operators that compute
-/

namespace Stencil

namespace Value

/-- Is the value made up of other values, or a function? -/
def isCompound : Value → Bool
  | array .. | object .. | function _ => true
  | _ => false

/-- Arrays, objects and functions take part in computations as their texts. -/
def primitive (v : Value) : Value :=
  if v.isCompound then string v.text else v

/-- The number that a value stands for. -/
def toNumber : Value → Float
  | undefined => Number.nan
  | null => 0
  | bool b => if b then 1 else 0
  | number x => x
  | string s => Number.ofText s.toList
  | v => Number.ofText v.chars

/-- Is the value a text? -/
def isString (v : Value) : Bool :=
  v.kind == .string

/-- The sum of two values: the texts joined if one of them is a text, and otherwise the numbers
added. -/
def add (a b : Value) : Value :=
  if a.primitive.isString || b.primitive.isString then
    string (String.ofList (a.primitive.chars ++ b.primitive.chars))
  else number (a.primitive.toNumber + b.primitive.toNumber)

/-- The value with the opposite sign. -/
def negate (v : Value) : Value :=
  number (-v.toNumber)

end Value

/-- Computes with two values. -/
def ArithOp.apply (op : ArithOp) (a b : Value) : Value :=
  match op with
  | .add => a.add b
  | .sub => .number (a.toNumber - b.toNumber)
  | .mul => .number (a.toNumber * b.toNumber)
  | .div => .number (a.toNumber / b.toNumber)
  | .rem => .number (Number.remainder a.toNumber b.toNumber)

end Stencil
