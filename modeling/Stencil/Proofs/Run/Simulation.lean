import Stencil.Proofs.Run.Execution
import Stencil.Proofs.Run.Quiet

/-!
# Relating two runs

Two runs of the same statements in scenes that differ only in their limits, perhaps to different
places, are related if their actions are: fuel, output, actions in order, and loops.

* `Run.Simulation`: a relation between actions that statements keep
* `Run.repeatWhile_related`, `Run.emit_related`: loops and emitted values in a relation that actions
  in order keep
* `Run.Simulation.execAll`: the main statement
-/

namespace Stencil

namespace Run

variable {σ σ' : Type} {scene scene' : Scene}

theorem record_alike {host : Host} (v : Value) :
    Alike host (record v : Action σ Unit) (record v : Action σ' Unit) :=
  .modify (fun _ _ => rfl) (fun _ => rfl) (fun _ => rfl) fun _ => List.suffix_cons _ _

/-! ## Relations that statements keep -/

/-- A relation between the actions of two runs in scenes that differ only in their limits. It is
kept by statements whose literal texts are all of one kind. -/
structure Simulation [Sink σ] [Sink σ'] (scene scene' : Scene) (Literal : String → Prop)
    (R : ∀ {α : Type}, Action σ α → Action σ' α → Prop) : Prop where
  agrees : scene.Agrees scene'
  alike : ∀ {α : Type} {act : Action σ α} {act' : Action σ' α},
    Alike scene.host act act' → R act act'
  spend : R (Run.spend scene) (Run.spend scene')
  literal : ∀ text, Literal text → R (write .literal text) (write .literal text)
  emit : ∀ v, R (Run.emit v) (Run.emit v)
  bind : ∀ {α β : Type} {act : Action σ α} {act' : Action σ' α} {f : α → Action σ β}
    {f' : α → Action σ' β}, R act act' → (∀ a, R (f a) (f' a)) → R (act >>= f) (act' >>= f')
  loop : ∀ {test : Action σ Bool} {test' : Action σ' Bool} {body : Action σ Unit}
    {body' : Action σ' Unit}, Alike scene.host test test' → R body body' →
    R (repeatWhile test (do Run.spend scene; body) scene.rounds)
      (repeatWhile test' (do Run.spend scene'; body') scene'.rounds)

section

variable (host : Host) {R : ∀ {α : Type}, Action σ α → Action σ' α → Prop}
  (alike : ∀ {α : Type} {act : Action σ α} {act' : Action σ' α}, Alike host act act' → R act act')
  (bind : ∀ {α β : Type} {act : Action σ α} {act' : Action σ' α} {f : α → Action σ β}
    {f' : α → Action σ' β}, R act act' → (∀ a, R (f a) (f' a)) → R (act >>= f) (act' >>= f'))

include alike bind

/-- Loops with as many rounds are related if what they do is. -/
theorem repeatWhile_related
    (unfinished : R (throw .unfinished : Action σ Unit) (throw .unfinished : Action σ' Unit))
    {test : Action σ Bool} {test' : Action σ' Bool} (htest : Alike host test test')
    (body : Action σ Unit) (body' : Action σ' Unit) (hbody : R body body') (rounds : Nat) :
    R (repeatWhile test body rounds) (repeatWhile test' body' rounds) := by
  induction rounds with
  | zero => exact unfinished
  | succ rounds ih =>
    refine bind (alike htest) fun holds => ?_
    cases holds with
    | false => exact alike (.pure ())
    | true => exact bind hbody fun _ => ih

variable [Sink σ] [Sink σ']

theorem writeAll_related {origin : Origin}
    (write : ∀ text, R (write origin text) (Run.write origin text)) (texts : List String) :
    R (writeAll origin texts) (writeAll origin texts) := by
  induction texts with
  | nil => exact alike (.pure ())
  | cons text rest ih => exact bind (write text) fun _ => ih

/-- Values are emitted in a relation that all written texts keep. -/
theorem emit_related (write : ∀ text, R (write .value text) (Run.write .value text)) (v : Value) :
    R (emit v) (emit v) := by
  refine bind (alike (record_alike v)) fun _ => ?_
  split
  · exact alike (.pure ())
  · exact writeAll_related host alike bind write _

end

namespace Simulation

variable [Sink σ] [Sink σ'] {Literal : String → Prop}
  {R : ∀ {α : Type}, Action σ α → Action σ' α → Prop}

/-- A simulation is a relation that statements keep, with their own literal texts. -/
theorem execution (h : Simulation scene scene' Literal R) :
    Execution scene scene' (fun _ => True) Literal id (Alike scene.host) R where
  evaluation := evaluation_alike h.agrees
  declare kind name v _ := .declare kind name v
  rebind name v _ := .assign name v
  items _ _ := .ofExcept fun _ => raisable_of_loopItems
  evaluated := h.alike
  spend := h.spend
  literal := h.literal
  emit := h.emit
  bind := h.bind
  loop := h.loop

/-- Statements keep the relation. -/
theorem execAll (h : Simulation scene scene' Literal R) (body : List Stmt)
    (hliteral : ∀ text ∈ Stmt.literalsOfAll body, Literal text) :
    R (execAll scene body) (execAll scene' body) :=
  h.execution.execAll_self (fun _ _ => trivial) hliteral

end Simulation

end Run

end Stencil
