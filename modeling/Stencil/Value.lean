import Stencil.Number.Binary

/-!
# Values

The values that templates compute with.

* `Ref`: the identity of an array or an object
* `Function`: something that a template can call
* `Value`: the values; `Kind` and `typeName` sort them
* `isTrue`, `isNullish`, `isCallable`: what conditions and operators ask
-/

namespace Stencil

/-- The identity of an array or an object. Two of them are strictly equal if they are the same one,
not if they hold the same items. -/
inductive Ref where
  /-- The object that holds the context of a run. -/
  | scope
  /-- Given from outside, by number. -/
  | given (n : Nat)
  /-- Made during a run, by number. -/
  | made (n : Nat)
  deriving DecidableEq, Repr

/-- Something that a template can call. -/
inductive Function where
  /-- Escapes a text for HTML. -/
  | escaper
  /-- A function of the host program, told apart from all others by its number. -/
  | host (id : Nat) (name : String)
  deriving DecidableEq, Repr

/-- The name under which templates find the escaper. -/
def escaperName : String := "escapeHTML"

/-- The name that a function shows. -/
def Function.name : Function → String
  | .escaper => escaperName
  | .host _ name => name

/-- A value of a template. -/
inductive Value where
  | undefined
  | null
  | bool (b : Bool)
  | number (x : Float)
  | string (s : String)
  | array (id : Ref) (items : List Value)
  | object (id : Ref) (entries : List (String × Value))
  | function (f : Function)

/-- The kinds of values. -/
inductive Kind where
  | undefined | null | bool | number | string | array | object | function
  deriving DecidableEq, Repr

/-- The word for a kind in messages. -/
def Kind.name : Kind → String
  | undefined => "undefined"
  | null => "null"
  | bool => "bool"
  | number => "number"
  | string => "string"
  | array => "array"
  | object => "object"
  | function => "function"

namespace Value

instance : Inhabited Value := ⟨undefined⟩

/-- The kind of a value. -/
def kind : Value → Kind
  | undefined => .undefined
  | null => .null
  | bool _ => .bool
  | number _ => .number
  | string _ => .string
  | array .. => .array
  | object .. => .object
  | function _ => .function

/-- What `typeof` answers. -/
def typeName : Value → String
  | undefined => "undefined"
  | bool _ => "boolean"
  | number _ => "number"
  | string _ => "string"
  | null | array .. | object .. => "object"
  | function _ => "function"

/-- Does the value count as true in a condition? Nothing, zero, what is no number, and the empty
text do not. -/
def isTrue : Value → Bool
  | undefined | null => false
  | bool b => b
  | number x => x != 0 && !x.isNaN
  | string s => s != ""
  | array .. | object .. | function _ => true

/-- Is the value `undefined`? -/
def isUndefined (v : Value) : Bool :=
  v.kind == .undefined

/-- Is the value `null` or `undefined`? -/
def isNullish (v : Value) : Bool :=
  v.kind == .undefined || v.kind == .null

/-- Can the value be called? -/
def isCallable (v : Value) : Bool :=
  v.kind == .function

end Value

end Stencil
