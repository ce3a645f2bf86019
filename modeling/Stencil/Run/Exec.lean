import Stencil.Run.Eval
import Stencil.Stmt

/-!
# Running statements

* `repeatWhile`: rounds of a loop as long as a test holds
* `exec`, `execAll`: what statements do
* `run`: a whole run
-/

namespace Stencil.Run

variable {σ : Type}

/-- Runs a body as long as a test holds, but only a number of rounds. -/
def repeatWhile (test : Action σ Bool) (body : Action σ Unit) : (rounds : Nat) → Action σ Unit
  | 0 => throw .unfinished
  | rounds + 1 => do
    if ← test then
      body
      repeatWhile test body rounds

/-- Runs a body once for each value. -/
def forEach (body : Value → Action σ Unit) : List Value → Action σ Unit
  | [] => pure ()
  | v :: rest => do
    body v
    forEach body rest

/-- Declares variables, each after its value was computed. -/
def declareAll (scene : Scene) (kind : DeclareKind) : List (String × Option Expr) → Action σ Unit
  | [] => pure ()
  | (name, none) :: rest => do
    declare kind name none
    declareAll scene kind rest
  | (name, some e) :: rest => do
    let v ← eval scene e
    declare kind name (some v)
    declareAll scene kind rest

/-- Does what comes before the first round of a loop. -/
def prepare (scene : Scene) : Option ForInit → Action σ Unit
  | none => pure ()
  | some (.declare kind items) => declareAll scene kind items
  | some (.expr e) => do
    let _ ← eval scene e

/-- Does a loop go on? Without a test it always does. -/
def goesOn (scene : Scene) : Option Expr → Action σ Bool
  | none => pure true
  | some test => holds scene test

/-- Evaluates an expression, if there is one, for its effect. -/
def perform (scene : Scene) : Option Expr → Action σ Unit
  | none => pure ()
  | some e => do
    let _ ← eval scene e

/-- Gives the variable of a loop its next value. -/
def bindLoop (binding : Binding) (v : Value) : Action σ Unit :=
  match binding.kind with
  | some kind => declare kind binding.name (some v)
  | none => assign binding.name v

/-- What a loop goes through. -/
def loopItems (kind : EachKind) (subject : Value) : Except Error (List Value) :=
  match kind with
  | .values => subject.values
  | .keys => .ok subject.keys

/-- Writes the value of an expression, escaped. Nothing is written for nothing. -/
def emit [Sink σ] (v : Value) : Action σ Unit := do
  record v
  if v.isNullish then pure () else writeAll .value (escapeValue v).pieces

mutual

/-- Runs a statement. It uses a unit of fuel, and so does each round of a loop. -/
def exec [Sink σ] (scene : Scene) : Stmt → Action σ Unit
  | .raw text => do
    spend scene
    write .literal text
  | .emit e => do
    spend scene
    emit (← eval scene e)
  | .cond branches otherwise => do
    spend scene
    execBranches scene branches (execAll scene otherwise)
  | .whileLoop test body => do
    spend scene
    repeatWhile (holds scene test) (do spend scene; execAll scene body) scene.rounds
  | .forLoop init test update body => do
    spend scene
    prepare scene init
    repeatWhile (goesOn scene test)
      (do spend scene; execAll scene body; perform scene update) scene.rounds
  | .forEach binding kind subject body => do
    spend scene
    let items ← ofExcept (loopItems kind (← eval scene subject))
    forEach (fun v => do spend scene; bindLoop binding v; execAll scene body) items
termination_by structural s => s

/-- Runs statements in order. -/
def execAll [Sink σ] (scene : Scene) : List Stmt → Action σ Unit
  | [] => pure ()
  | s :: rest => do
    exec scene s
    execAll scene rest
termination_by structural s => s

/-- Runs the body of the first branch whose test holds, or else something else. -/
def execBranches [Sink σ] (scene : Scene) : List Branch → Action σ Unit → Action σ Unit
  | [], otherwise => otherwise
  | (test, body) :: rest, otherwise => do
    if ← holds scene test then execAll scene body else execBranches scene rest otherwise
termination_by structural s => s

end

/-- A whole run, which writes to a sink: its outcome and the state at its end. -/
def run [Sink σ] (scene : Scene) (body : List Stmt) (sink : σ) : Except Halt Unit × State σ :=
  (execAll scene body).run.run { sink := sink }

end Stencil.Run
