import Stencil.Proofs.Run.Evaluation
import Stencil.Run.Exec

/-!
# What expressions leave alone

Evaluating an expression uses no fuel, writes nothing and runs no loop. Neither the limits on a run
nor the place that its output goes to matter to it, and it fails for few reasons.

* `Run.Action.result`, `Run.result_bind`: the outcome of an action from a state, and the state after
  it
* `Run.Quiet`: the action leaves fuel and output alone
* `Run.Alike`: two quiet actions do the same, wherever the output goes to
* `Run.Scene.Agrees`: two scenes differ only in their limits
* `Run.eval_alike`: the main statement
-/

namespace Stencil.Run

variable {σ σ' α β : Type}

/-! ## Results of actions -/

/-- The outcome of an action from a state, and the state after it. -/
def Action.result (act : Action σ α) (s : State σ) : Except Halt α × State σ :=
  act.run.run s

theorem result_bind_ok {act : Action σ α} {s s' : State σ} {a : α}
    (h : Action.result act s = (.ok a, s')) (f : α → Action σ β) :
    Action.result (act >>= f) s = Action.result (f a) s' := by
  rw [Action.result] at h
  rw [Action.result, ExceptT.run_bind, StateT.run_bind, h]
  rfl

theorem result_bind_error {act : Action σ α} {s s' : State σ} {halt : Halt}
    (h : Action.result act s = (.error halt, s')) (f : α → Action σ β) :
    Action.result (act >>= f) s = (.error halt, s') := by
  rw [Action.result] at h
  rw [Action.result, ExceptT.run_bind, StateT.run_bind, h]
  rfl

/-- Two actions in order: the second one starts where the first one ended, or the run stops
there. -/
theorem result_bind (act : Action σ α) (f : α → Action σ β) (s : State σ) :
    (∃ a s', Action.result act s = (.ok a, s') ∧
      Action.result (act >>= f) s = Action.result (f a) s') ∨
    (∃ halt s', Action.result act s = (.error halt, s') ∧
      Action.result (act >>= f) s = (.error halt, s')) := by
  cases hact : Action.result act s with
  | mk outcome s' =>
    cases outcome with
    | ok a => exact .inl ⟨a, s', rfl, result_bind_ok hact f⟩
    | error halt => exact .inr ⟨halt, s', rfl, result_bind_error hact f⟩

/-- What two actions keep is kept by both in order. -/
theorem kept_bind {I : State σ → Prop} {act : Action σ α} {f : α → Action σ β}
    (h : ∀ s, I s → I (Action.result act s).2) (hf : ∀ a s, I s → I (Action.result (f a) s).2) :
    ∀ s, I s → I (Action.result (act >>= f) s).2 := by
  intro s hs
  have hact := h s hs
  rcases result_bind act f s with ⟨a, s', heq, hbind⟩ | ⟨halt, s', heq, hbind⟩
  · rw [heq] at hact
    rw [hbind]
    exact hf a s' hact
  · rw [heq] at hact
    rw [hbind]
    exact hact

/-! ## What evaluation fails for -/

/-- Why evaluating an expression or beginning a loop may fail: for a reason of its own, or because a
function of the host fails. -/
inductive Raisable (host : Host) : Error → Prop where
  | unbound (name : String) : Raisable host (.unbound name)
  | constant (name : String) : Raisable host (.constant name)
  | property (text name : String) : Raisable host (.propertyOfNothing text name)
  | iteration (kind : Kind) : Raisable host (.notIterable kind)
  | call (callee : String) : Raisable host (.notCallable callee)
  | host {f : Function} {arguments : List Value} {fresh : Ref} {e : Error}
      (h : host f arguments fresh = .error e) : Raisable host e

theorem raisable_of_property {host : Host} {v : Value} {name : String} {e : Error}
    (h : v.property name = .error e) : Raisable host e := by
  cases v with
  | undefined | null =>
    cases h
    exact .property _ _
  | string s =>
    simp only [Value.property] at h
    split at h <;> cases h
  | array id items =>
    simp only [Value.property] at h
    split at h <;> cases h
  | bool _ | number _ | object _ _ | function _ => cases h

theorem raisable_of_loopItems {host : Host} {kind : EachKind} {v : Value} {e : Error}
    (h : loopItems kind v = .error e) : Raisable host e := by
  cases kind with
  | keys => cases h
  | values =>
    cases v with
    | string s => cases h
    | array id items => cases h
    | undefined | null | bool _ | number _ | object _ _ | function _ =>
      cases h
      exact .iteration _

theorem raisable_of_call {host : Host} {f : Function} {arguments : List Value} {fresh : Ref}
    {e : Error} (h : f.call host arguments fresh = .error e) : Raisable host e := by
  cases f with
  | escaper => cases h
  | host id name => exact .host h

/-! ## Quiet actions -/

/-- The state after an action has the output and the fuel of the one before, and the action did not
run out of rounds. Of the values that were emitted none is forgotten. -/
structure Untouched (host : Host) (s : State σ) (result : Except Halt α × State σ) : Prop where
  sink : result.2.sink = s.sink
  spent : result.2.spent = s.spent
  emitted : s.emitted <:+ result.2.emitted
  raised : ∀ halt, result.1 = .error halt → ∃ e, halt = .error e ∧ Raisable host e

/-- The action uses no fuel, writes nothing and runs no loop. -/
def Quiet (host : Host) (act : Action σ α) : Prop :=
  ∀ s, Untouched host s (Action.result act s)

theorem Untouched.ok {host : Host} {s s' : State σ} (a : α) (sink : s'.sink = s.sink)
    (spent : s'.spent = s.spent) (emitted : s.emitted <:+ s'.emitted) :
    Untouched host s (.ok a, s') :=
  ⟨sink, spent, emitted, by rintro halt ⟨⟩⟩

theorem Quiet.finished {host : Host} {act : Action σ α} (h : Quiet host act) (s : State σ) :
    (Action.result act s).1 ≠ .error .unfinished := by
  intro hunfinished
  obtain ⟨e, he, -⟩ := (h s).raised _ hunfinished
  cases he

/-! ## Actions that do the same -/

/-- The state with its output going to another place. -/
def State.withSink (s : State σ) (sink : σ') : State σ' :=
  { s with sink := sink }

/-- The second result is the first one with the output going to another place, and the output is
untouched. -/
structure Matched (host : Host) (s : State σ) (sink : σ') (result : Except Halt α × State σ)
    (result' : Except Halt α × State σ') : Prop where
  same : result' = (result.1, result.2.withSink sink)
  untouched : Untouched host s result

/-- The actions are quiet, and they do the same wherever the output goes to. -/
def Alike (host : Host) (act : Action σ α) (act' : Action σ' α) : Prop :=
  ∀ s sink, Matched host s sink (Action.result act s) (Action.result act' (s.withSink sink))

variable {host : Host}

theorem Alike.quiet {act act' : Action σ α} (h : Alike host act act') : Quiet host act :=
  fun s => (h s s.sink).untouched

/-- If the output goes to the same kind of place, then the actions are the same one. -/
theorem Alike.eq {act act' : Action σ α} (h : Alike host act act') : act = act' := by
  funext s
  have hmatched := h s s.sink
  have hsink : (Action.result act s).2.withSink s.sink = (Action.result act s).2 := by
    rw [← hmatched.untouched.sink]
    rfl
  have hsame := hmatched.same
  rw [hsink] at hsame
  exact hsame.symm

theorem Alike.pure (a : α) : Alike host (pure a : Action σ α) (pure a : Action σ' α) :=
  fun _ _ => ⟨rfl, .ok a rfl rfl (List.suffix_refl _)⟩

theorem Alike.fail {e : Error} (h : Raisable host e) :
    Alike host (fail e : Action σ α) (fail e : Action σ' α) := by
  refine fun s sink => ⟨rfl, rfl, rfl, List.suffix_refl _, ?_⟩
  rintro halt ⟨⟩
  exact ⟨e, rfl, h⟩

theorem Alike.bind {act : Action σ α} {act' : Action σ' α} {f : α → Action σ β}
    {f' : α → Action σ' β} (h : Alike host act act') (hf : ∀ a, Alike host (f a) (f' a)) :
    Alike host (act >>= f) (act' >>= f') := by
  intro s sink
  have hact := h s sink
  rcases result_bind act f s with ⟨a, s₁, heq, hbind⟩ | ⟨halt, s₁, heq, hbind⟩
  · rw [heq] at hact
    have hfa := hf a s₁ sink
    rw [hbind, result_bind_ok hact.same f']
    exact ⟨hfa.same, hfa.untouched.sink.trans hact.untouched.sink,
      hfa.untouched.spent.trans hact.untouched.spent,
      hact.untouched.emitted.trans hfa.untouched.emitted, hfa.untouched.raised⟩
  · rw [heq] at hact
    rw [hbind, result_bind_error hact.same f']
    refine ⟨rfl, hact.untouched.sink, hact.untouched.spent, hact.untouched.emitted, ?_⟩
    rintro halt' ⟨⟩
    exact hact.untouched.raised halt rfl

/-- What is done with a state may depend on all of it but the place that the output goes to. -/
theorem Alike.get_bind {f : State σ → Action σ β} {f' : State σ' → Action σ' β}
    (h : ∀ s sink, Alike host (f s) (f' (s.withSink sink))) :
    Alike host (get >>= f) (get >>= f') :=
  fun s sink => h s sink s sink

theorem Alike.modify {f : State σ → State σ} {f' : State σ' → State σ'}
    (hsame : ∀ s sink, f' (s.withSink sink) = (f s).withSink sink)
    (hsink : ∀ s, (f s).sink = s.sink) (hspent : ∀ s, (f s).spent = s.spent)
    (hemitted : ∀ s, s.emitted <:+ (f s).emitted) :
    Alike host (modify f : Action σ Unit) (modify f' : Action σ' Unit) :=
  fun s sink => ⟨congrArg (Prod.mk (Except.ok ())) (hsame s sink),
    .ok () (hsink s) (hspent s) (hemitted s)⟩

theorem Alike.ofExcept {result : Except Error α} (h : ∀ e, result = .error e → Raisable host e) :
    Alike host (ofExcept result : Action σ α) (ofExcept result : Action σ' α) := by
  cases result with
  | ok a => exact .pure a
  | error e => exact .fail (h e rfl)

theorem Alike.declare (kind : DeclareKind) (name : String) (value : Option Value) :
    Alike host (declare kind name value : Action σ Unit)
      (declare kind name value : Action σ' Unit) := by
  refine .modify (fun s sink => ?_) (fun s => ?_) (fun s => ?_) fun s => ?_
  · rw [State.withSink]
    split <;> rfl
  · split <;> rfl
  · split <;> rfl
  · split <;> exact List.suffix_refl _

theorem Alike.assign (name : String) (value : Value) :
    Alike host (assign name value : Action σ Unit) (assign name value : Action σ' Unit) := by
  refine .get_bind fun s sink => ?_
  dsimp only [State.withSink]
  split
  · exact .fail (.constant name)
  · exact .modify (fun _ _ => rfl) (fun _ => rfl) (fun _ => rfl) fun _ => List.suffix_refl _

theorem Alike.freshRef : Alike host (freshRef : Action σ Ref) (freshRef : Action σ' Ref) :=
  fun s _ => ⟨rfl, .ok (Ref.made s.made) rfl rfl (List.suffix_refl _)⟩

theorem Alike.invoke {scene scene' : Scene} (h : scene.host = scene'.host) (f : Function)
    (arguments : List Value) :
    Alike scene.host (invoke scene f arguments : Action σ Value)
      (invoke scene' f arguments : Action σ' Value) := by
  unfold Run.invoke
  rw [← h]
  refine .bind (.modify (fun _ _ => rfl) (fun _ => rfl) (fun _ => rfl)
    fun _ => List.suffix_refl _) fun _ => ?_
  exact Alike.freshRef.bind fun _ => .ofExcept fun _ => raisable_of_call

/-! ## Scenes that differ in their limits -/

/-- The two scenes differ at most in their limits. -/
structure Scene.Agrees (scene scene' : Scene) : Prop where
  context : scene.context = scene'.context
  host : scene.host = scene'.host

variable {scene scene' : Scene}

theorem lookup?_eq (h : scene.Agrees scene') : lookup? scene = lookup? scene' := by
  funext locals name
  rw [lookup?, lookup?, h.context]

theorem load_alike (h : scene.Agrees scene') (name : String) :
    Alike scene.host (load scene name : Action σ Value) (load scene' name : Action σ' Value) := by
  unfold load
  rw [← lookup?_eq h]
  refine .get_bind fun s sink => ?_
  dsimp only [State.withSink]
  split
  · exact .pure _
  · exact .fail (.unbound name)

theorem typeOf_alike (h : scene.Agrees scene') (name : String) :
    Alike scene.host (eval scene (.unary .typeOf (.var name)) : Action σ Value)
      (eval scene' (.unary .typeOf (.var name)) : Action σ' Value) := by
  rw [eval, eval, ← lookup?_eq h]
  exact .get_bind fun s sink => .pure _

/-! ## Expressions -/

/-- Scenes that differ only in their limits do the same with every variable. -/
theorem evaluation_alike (h : scene.Agrees scene') :
    Evaluation (σ := σ) scene scene' (fun _ => True)
      fun act (act' : Action σ' _) => Alike scene.host act act' where
  pure := Alike.pure
  bind h hf := h.bind hf
  context _ := h.context
  load name _ := load_alike h name
  typeOf name _ := typeOf_alike h name
  assign name v _ := .assign name v
  property _ _ := .ofExcept fun _ => raisable_of_property
  notCallable _ := .fail (.call _)
  freshRef := .freshRef
  invoke := .invoke h.host

/-- Expressions are evaluated alike in scenes that differ only in their limits, and quietly. -/
theorem eval_alike (h : scene.Agrees scene') (e : Expr) :
    Alike scene.host (eval scene e : Action σ Value) (eval scene' e : Action σ' Value) :=
  (evaluation_alike h).eval fun _ _ => trivial

end Stencil.Run
