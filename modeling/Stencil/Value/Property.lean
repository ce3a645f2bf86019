import Stencil.Error
import Stencil.Fields
import Stencil.Number.Reading
import Stencil.Text.Units
import Stencil.Value.Text

/-!
# Properties and items

* `index?`: the index that a name stands for
* `Value.property`: the property of a value under a name
* `Value.values`, `Value.keys`: what loops go through
-/

namespace Stencil

/-- The decimal name of an index. -/
def indexName (n : Nat) : String :=
  String.ofList (Nat.toDigits 10 n)

/-- The index that a name stands for: only the plain decimal form without leading zeros does. -/
def index? (name : String) : Option Nat :=
  if name.toList.all Number.isDigit && indexName (Number.ofDigits name.toList) == name then
    some (Number.ofDigits name.toList)
  else none

/-- The name of the property that holds the length. -/
def lengthName : String := "length"

namespace Value

/-- A whole number. -/
def ofNat (n : Nat) : Value :=
  number (Float.ofNat n)

/-- The text of one UTF-16 unit. -/
def ofUnit (u : Nat) : Value :=
  string (String.ofList (Text.decode [u]))

/-- The property of a value under a name. Texts and arrays have a length and items by index; what is
not there is `undefined`; nothing has no properties at all. -/
def property (v : Value) (name : String) : Except Error Value :=
  match v with
  | undefined | null => .error (.propertyOfNothing v.text name)
  | string s =>
    let units := Text.encode s.toList
    if name = lengthName then .ok (ofNat units.length)
    else .ok (((index? name).bind fun i => units[i]?.map ofUnit).getD undefined)
  | array _ items =>
    if name = lengthName then .ok (ofNat items.length)
    else .ok (((index? name).bind fun i => items[i]?).getD undefined)
  | object _ entries => .ok ((Fields.get? name entries).getD undefined)
  | _ => .ok undefined

/-- The values that a loop goes through: the items of an array or the characters of a text. -/
def values : Value → Except Error (List Value)
  | array _ items => .ok items
  | string s => .ok (s.toList.map fun c => string (String.ofList [c]))
  | v => .error (.notIterable v.kind)

/-- The keys that a loop goes through: names, or the indexes of items or of UTF-16 units. -/
def keys : Value → List Value
  | object _ entries => (Fields.names entries).map string
  | array _ items => (List.range items.length).map fun i => string (indexName i)
  | string s => (List.range (Text.unitLength s.toList)).map fun i => string (indexName i)
  | _ => []

end Value

end Stencil
