import Stencil.Context
import Stencil.Run.Sink
import Stencil.Step

/-!
# The state of a run

* `Host`: what the functions of the host program do
* `Scene`: what does not change during a run
* `State`: what changes: the locals, the output, the fuel that was used
* `Halt`, `Action`: why a run stops, and what a part of a run does
* `lookup?`, `load`, `declare`, `assign`: variables
* `spend`, `write`, `writeAll`, `record`, `freshRef`: fuel, output, new arrays
-/

namespace Stencil

/-- What a function of the host program does with some arguments: it gives a value or fails. A new
array that it makes has the identity given. What it gives depends on nothing else: a function keeps
no state, neither during a run nor from one run to the next. -/
abbrev Host := Function → List Value → Ref → Except Error Value

namespace Run

/-- What does not change during a run. -/
structure Scene where
  context : Context
  host : Host
  /-- How much fuel there is, if it is limited. -/
  fuel : Option Int
  /-- How many rounds of one loop are run at most. -/
  rounds : Nat

/-- A variable of the template itself. -/
structure Local where
  value : Value
  /-- Can it not be assigned to? -/
  constant : Bool

/-- What changes during a run. -/
structure State (σ : Type) where
  /-- The variables that the template made. -/
  locals : List (String × Local) := []
  /-- Where the output goes. -/
  sink : σ
  /-- The units of fuel that were used. -/
  spent : Nat := 0
  /-- The number of arrays that were made. -/
  made : Nat := 0
  /-- The calls of functions with their arguments, newest first. -/
  calls : List (Function × List Value) := []
  /-- The values that were emitted, newest first. -/
  emitted : List Value := []

/-- Why a run stops before its end. -/
inductive Halt where
  | error (e : Error)
  /-- A loop went through all the rounds it may. -/
  | unfinished
  deriving DecidableEq

/-- The reason to stop with its error replaced. -/
def Halt.mapError (f : Error → Error) : Halt → Halt
  | error e => error (f e)
  | unfinished => unfinished

/-- What a part of a run does: it gives a result or stops the run, and it changes the state. -/
abbrev Action (σ : Type) (α : Type) := ExceptT Halt (StateM (State σ)) α

variable {σ : Type}

/-- Stops the run. -/
def fail {α : Type} (e : Error) : Action σ α :=
  throw (.error e)

/-- Goes on with a result or stops the run. -/
def ofExcept {α : Type} (result : Except Error α) : Action σ α :=
  match result with
  | .ok a => pure a
  | .error e => fail e

/-! ## Variables -/

/-- The values of names that are always there. -/
def constant? (name : String) : Option Value :=
  if name = "undefined" then some .undefined
  else if name = "NaN" then some (.number Number.nan)
  else if name = "Infinity" then some (.number Number.infinity)
  else none

/-- The value of a variable: of the template's own one, or else the context's, or else of a name
that is always there. -/
def lookup? (scene : Scene) (locals : List (String × Local)) (name : String) : Option Value :=
  match Fields.get? name locals with
  | some l => some l.value
  | none =>
    match scene.context.get? name with
    | some v => some v
    | none => constant? name

/-- The value of a variable. It must have one. -/
def load (scene : Scene) (name : String) : Action σ Value := do
  match lookup? scene (← get).locals name with
  | some v => pure v
  | none => fail (.unbound name)

/-- Declares a variable. One that is declared again with `var` and without a value stays as it
is. -/
def declare (kind : DeclareKind) (name : String) (value : Option Value) : Action σ Unit :=
  modify fun s =>
    if value.isNone && kind == .var && Fields.contains name s.locals then s
    else
      { s with
        locals := Fields.insert name ⟨value.getD .undefined, kind == .const⟩ s.locals }

/-- Assigns to a variable of the template, which need not be there yet. A constant cannot be
assigned to. -/
def assign (name : String) (value : Value) : Action σ Unit := do
  match Fields.get? name (← get).locals with
  | some ⟨_, true⟩ => fail (.constant name)
  | _ => modify fun s => { s with locals := Fields.insert name ⟨value, false⟩ s.locals }

/-! ## Fuel, output and arrays -/

/-- Uses a unit of fuel. The last unit cannot be used. -/
def spend (scene : Scene) : Action σ Unit := do
  let before := (← get).spent
  modify fun s => { s with spent := s.spent + 1 }
  match scene.fuel with
  | none => pure ()
  | some fuel => if fuel - before ≤ 1 then fail .outOfFuel else pure ()

/-- Writes a text. -/
def write [Sink σ] (origin : Origin) (text : String) : Action σ Unit := do
  let s ← get
  let (sink, taken) := Sink.put s.sink ⟨origin, text⟩
  set { s with sink := sink }
  ofExcept (taken.mapError .ofFormat)

/-- Writes some texts, one after the other. -/
def writeAll [Sink σ] (origin : Origin) : List String → Action σ Unit
  | [] => pure ()
  | text :: rest => do
    write origin text
    writeAll origin rest

/-- Notes that a value is emitted. -/
def record (v : Value) : Action σ Unit :=
  modify fun s => { s with emitted := v :: s.emitted }

/-- The identity of a new array. -/
def freshRef : Action σ Ref := do
  let n := (← get).made
  modify fun s => { s with made := s.made + 1 }
  return .made n

end Run

end Stencil
