import Stencil.Error
import Stencil.Fields
import Stencil.Value.Data
import Stencil.Value.Text

/-!
# Contexts

The named values that a template is rendered with.

* `Context`: named values, with the names in order
* `insert`, `erase`, `get?`, `extend`, `ofList`: the operations on them
* `Context.ofSerialized`, `Context.ofPairs`: a context from plain data
-/

namespace Stencil

/-- Named values. -/
structure Context where
  entries : List (String × Value) := []

namespace Context

/-- No values. -/
def empty : Context := {}

/-- The value under a name. -/
def get? (c : Context) (name : String) : Option Value :=
  Fields.get? name c.entries

/-- Puts a value under a name, in the place of any value that was there. -/
def insert (c : Context) (name : String) (v : Value) : Context :=
  { entries := Fields.insert name v c.entries }

/-- Removes the value under a name. -/
def erase (c : Context) (name : String) : Context :=
  { entries := Fields.erase name c.entries }

/-- Puts in entries one after the other. -/
def extend (c : Context) (entries : List (String × Value)) : Context :=
  { entries := Fields.insertAll entries c.entries }

/-- The context of some entries. Of two entries with one name the later one counts. -/
def ofList (entries : List (String × Value)) : Context :=
  empty.extend entries

/-- The number of values. -/
def size (c : Context) : Nat :=
  c.entries.length

/-- The context as an object. -/
def toValue (c : Context) : Value :=
  .object .scope c.entries

/-- The debug text of a context. -/
def debug (c : Context) : String :=
  Value.debugEntries c.entries

/-- The context that a value is: an object's entries, or no values for nothing. -/
def ofValue (v : Value) : Except Error Context :=
  match v with
  | .object _ entries => .ok { entries := entries }
  | .null | .undefined => .ok empty
  | v => .error (.contextNotMap v.kind)

section

variable (L : DataLibrary)

/-- The context of what a library made of something. The identities of its values are counted up
from a number; the first number that is still free comes with the result. -/
def ofSerialized (next : Nat) (made : Except String (Data L.Number)) : Except Error Context × Nat :=
  let (v, free) := Value.ofSerialized L next made
  (v >>= ofValue, free)

/-- The context that pairs of keys and plain data are. -/
def ofPairs (next : Nat) (pairs : List (Data L.Number × Data L.Number)) :
    Except Error Context × Nat :=
  ofSerialized L next do
    L.serializer.entries (← pairs.mapM fun (key, d) => do return (← L.nameOfKey key, d))

end

end Context

end Stencil
