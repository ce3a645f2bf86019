import Stencil.Error
import Stencil.Fields
import Stencil.Number.Binary

/-!
# Plain data

What values and the outside world exchange: data without `undefined`, functions and identities. They
come from a library that is not part of the engine, so what the library does is a parameter.

* `Data`: plain data, over the numbers of a library
* `Serializer`, `Value.serialize`: a value handed over, part by part
* `DataLibrary`: a library of plain data
* `Value.ofData`: plain data as a value, with new identities
* `Value.reread?`, `Value.reread`: a value made plain data and read again
* `DataLibrary.exact`: a library that keeps the numbers that it is given
-/

namespace Stencil

/-- Plain data, over some numbers. -/
inductive Data (ν : Type) where
  | null
  | bool (b : Bool)
  | number (n : ν)
  | string (s : String)
  | array (items : List (Data ν))
  | object (entries : List (String × Data ν))
  deriving Inhabited

/-! ## Values handed over -/

/-- What takes a value, part by part. Each part is made something or fails with a reason. The parts
of an array and of an object are made something first. -/
structure Serializer (α : Type) where
  unit : Except String α
  bool : Bool → Except String α
  int : Int → Except String α
  float : Float → Except String α
  string : String → Except String α
  items : List α → Except String α
  entries : List (String × α) → Except String α

namespace Value

variable {α : Type} (S : Serializer α)

/-- A number is handed over as a whole number if it is a small one, and as a double if not. -/
def serializeNumber (x : Float) : Except String α :=
  match Number.safeWhole? x with
  | some n => S.int n
  | none => S.float x

mutual

/-- Hands over a value. What has no counterpart in plain data is handed over as nothing. -/
def serialize : Value → Except String α
  | undefined | null | function _ => S.unit
  | bool b => S.bool b
  | number x => serializeNumber S x
  | string s => S.string s
  | array _ items => do S.items (← serializeItems items)
  | object _ entries => do S.entries (← serializeFields entries)

/-- Hands over items, in order. -/
def serializeItems : List Value → Except String (List α)
  | [] => .ok []
  | v :: rest => do return (← serialize v) :: (← serializeItems rest)

/-- Hands over entries, in order. -/
def serializeFields : List (String × Value) → Except String (List (String × α))
  | [] => .ok []
  | (name, v) :: rest => do return (name, ← serialize v) :: (← serializeFields rest)

end

end Value

/-! ## Libraries -/

/-- What a library of plain data does. -/
structure DataLibrary where
  /-- Its numbers. -/
  Number : Type
  /-- Makes plain data of the parts of a value. -/
  serializer : Serializer (Data Number)
  /-- The double that a number is. -/
  toFloat? : Number → Option Float
  /-- The name that a key is made, or the reason why it is none. -/
  nameOfKey : Data Number → Except String String

namespace Value

variable (L : DataLibrary)

mutual

/-- Plain data as a value. Arrays and objects get identities counted up from a number; the first
number that is still free comes with the result. -/
def ofData (next : Nat) : Data L.Number → Value × Nat
  | .null => (null, next)
  | .bool b => (bool b, next)
  | .number n => (number ((L.toFloat? n).getD Number.nan), next)
  | .string s => (string s, next)
  | .array items =>
    let (items, free) := ofItems (next + 1) items
    (array (.given next) items, free)
  | .object entries =>
    let (entries, free) := ofFields (next + 1) entries
    (object (.given next) (Fields.ofList entries), free)

/-- Items of plain data as values. -/
def ofItems (next : Nat) : List (Data L.Number) → List Value × Nat
  | [] => ([], next)
  | d :: rest =>
    let (v, free) := ofData next d
    let (values, free) := ofItems free rest
    (v :: values, free)

/-- Entries of plain data as entries of values. -/
def ofFields (next : Nat) : List (String × Data L.Number) → List (String × Value) × Nat
  | [] => ([], next)
  | (name, d) :: rest =>
    let (v, free) := ofData next d
    let (entries, free) := ofFields free rest
    ((name, v) :: entries, free)

end

/-- The value of what a library made of something. -/
def ofSerialized (next : Nat) (made : Except String (Data L.Number)) : Except Error Value × Nat :=
  match made with
  | .ok d =>
    let (v, free) := ofData L next d
    (.ok v, free)
  | .error reason => (.error (.unconvertible reason), next)

/-- A value made plain data and read again, with identities counted up from a number. -/
def reread? (next : Nat) (v : Value) : Except Error Value :=
  (ofSerialized L next (v.serialize L.serializer)).1

/-- A value made plain data and read again. It is `undefined` if that fails. -/
def reread (next : Nat) (v : Value) : Value :=
  match reread? L next v with
  | .ok w => w
  | .error _ => undefined

end Value

/-! ## An exact library -/

namespace DataLibrary

/-- Numbers as they are given: whole ones and doubles. -/
inductive Exact where
  | int (n : Int)
  | float (x : Float)

/-- Makes plain data of a double, and nothing of one that is not finite. -/
def Exact.ofFloat (x : Float) : Data Exact :=
  if x.isFinite then .number (.float x) else .null

/-- A library that keeps numbers as they are given, with the names of an object in order. Texts,
whole numbers and truth values are keys. -/
def exact : DataLibrary where
  Number := Exact
  serializer :=
    { unit := .ok .null
      bool := fun b => .ok (.bool b)
      int := fun n => .ok (.number (.int n))
      float := fun x => .ok (Exact.ofFloat x)
      string := fun s => .ok (.string s)
      items := fun items => .ok (.array items)
      entries := fun entries => .ok (.object (Fields.ofList entries)) }
  toFloat?
    | .int n => some (Float.ofInt n)
    | .float x => some x
  nameOfKey
    | .string s => .ok s
    | .number (.int n) => .ok (toString n)
    | .bool b => .ok (if b then "true" else "false")
    | _ => .error "key must be a string"

end DataLibrary

end Stencil
