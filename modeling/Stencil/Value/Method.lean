import Stencil.Text.Blank
import Stencil.Text.Casing
import Stencil.Value.Compare
import Stencil.Value.Property

/-!
# Built-in methods

* `relativeIndex`, `sliceBounds`, `window`: the part of a sequence that `slice` takes
* `indexIn?`: where one sequence occurs in another
* `Value.join`: the texts of items with a separator between them
* `Value.method?`: the result of a built-in method
-/

namespace Stencil

/-! ## Parts of sequences -/

/-- The index that an argument stands for in a sequence of a given length. A negative one counts
from the end, what is no number is zero, and all are brought into the bounds. A missing argument
stands for `missing`. -/
def relativeIndex (v : Value) (length missing : Nat) : Nat :=
  if v.isUndefined then missing
  else
    let x := v.toNumber
    Number.toIndex (if x.isNaN then 0 else Number.trunc x) length

/-- The indexes between which two arguments take a part of a sequence of a given length. The second
one is not before the first one. -/
def sliceBounds (length : Nat) (start stop : Value) : Nat × Nat :=
  let first := relativeIndex start length 0
  (first, max (relativeIndex stop length length) first)

/-- The items from one index up to another one, both of which are arguments. -/
def window {α : Type} (items : List α) (start stop : Value) : List α :=
  let bounds := sliceBounds items.length start stop
  (items.take bounds.2).drop bounds.1

/-! ## Positions -/

/-- The first position at which a sequence occurs in another one. -/
def indexIn? {α : Type} [BEq α] (needle : List α) : List α → Option Nat
  | [] => if needle.isEmpty then some 0 else none
  | x :: xs =>
    if needle.isPrefixOf (x :: xs) then some 0 else (indexIn? needle xs).map (· + 1)

/-- The number for a position, or minus one. -/
def positionValue (position : Option Nat) : Value :=
  match position with
  | some n => .ofNat n
  | none => .number (-1)

/-! ## Joining -/

namespace Value

/-- The texts of items, the first of which has an index, one after the other. Before each item but
the one with index zero stands a separator. Items that are nothing are empty. -/
def joinFrom (separator : List Char) : (index : Nat) → List Value → List Char
  | _, [] => []
  | index, v :: rest =>
    (if 0 < index then separator else []) ++ (if v.isNullish then [] else v.chars) ++
      joinFrom separator (index + 1) rest

/-- The texts of items with the text of a separator between them. A missing separator stands for a
comma. -/
def join (items : List Value) (separator : Value) : List Char :=
  joinFrom (if separator.isUndefined then [','] else separator.chars) 0 items

end Value

/-! ## Methods -/

/-- An argument of a call. A missing one is `undefined`. -/
def argument (arguments : List Value) (i : Nat) : Value :=
  arguments[i]?.getD .undefined

namespace Value

/-- The methods of texts. -/
def stringMethod? (s : List Char) (name : String) (arguments : List Value) : Option Value :=
  let needle := (argument arguments 0).chars
  match name with
  | "toUpperCase" => some (string (String.ofList (Text.toUpper s)))
  | "toLowerCase" => some (string (String.ofList (Text.toLower s)))
  | "trim" => some (string (String.ofList (Text.trim s)))
  | "toString" => some (string (String.ofList s))
  | "includes" => some (bool (indexIn? needle s).isSome)
  | "startsWith" => some (bool (needle.isPrefixOf s))
  | "endsWith" => some (bool (needle.isSuffixOf s))
  | "indexOf" => some (positionValue (indexIn? (Text.encode needle) (Text.encode s)))
  | "slice" =>
    some (string (String.ofList
      (Text.decode (window (Text.encode s) (argument arguments 0) (argument arguments 1)))))
  | _ => none

/-- The methods of arrays. A part of an array is a new array. -/
def arrayMethod? (fresh : Ref) (items : List Value) (name : String) (arguments : List Value) :
    Option Value :=
  let needle := argument arguments 0
  match name with
  | "join" => some (string (String.ofList (join items needle)))
  | "toString" => some (string (String.ofList (join items undefined)))
  | "includes" => some (bool (items.any fun v => sameItem v needle))
  | "indexOf" => some (positionValue (items.findIdx? fun v => strictEq v needle))
  | "slice" => some (array fresh (window items (argument arguments 0) (argument arguments 1)))
  | _ => none

/-- The result of a built-in method of a value, if the value has a method of that name. An array
that the method makes has the identity given. -/
def method? (fresh : Ref) (v : Value) (name : String) (arguments : List Value) : Option Value :=
  match v with
  | string s => stringMethod? s.toList name arguments
  | array _ items => arrayMethod? fresh items name arguments
  | bool _ | number _ => if name = "toString" then some (string v.text) else none
  | _ => none

end Value

end Stencil
