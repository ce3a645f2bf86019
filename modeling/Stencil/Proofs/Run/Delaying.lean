import Stencil.Proofs.Run.Fuel

/-!
# Fuel that was used before

An action that starts after more fuel was used does the same, unless there is a limit and the fuel
runs out earlier. So does an action that uses fuel of its own.

* `Run.State.later`: the state after some more units of fuel were used
* `Run.Delayed`: one result is the other one after more fuel, or a lack of fuel
* `Run.Delays`: one action does what the other one does, after more fuel
* `Run.execution_delays`: the main statement
-/

namespace Stencil.Run

variable {σ α β : Type} {scene : Scene}

/-! ## Results after more fuel -/

/-- The state after some more units of fuel were used. -/
def State.later (s : State σ) (units : Nat) : State σ :=
  { s with spent := s.spent + units }

theorem State.later_later (s : State σ) (units units' : Nat) :
    (s.later units).later units' = s.later (units + units') :=
  congrArg (fun spent => { s with spent := spent }) (Nat.add_assoc s.spent units units')

/-- The second result is the first one after more fuel was used, or there was a limit that did not
suffice. -/
def Delayed (scene : Scene) (first second : Except Halt α × State σ) : Prop :=
  (∃ units, second = (first.1, first.2.later units)) ∨
    scene.fuel.isSome ∧ second.1 = .error (.error .outOfFuel)

section

variable {first second third : Except Halt α × State σ}

theorem Delayed.trans (h : Delayed scene first second) (h' : Delayed scene second third) :
    Delayed scene first third := by
  rcases h' with ⟨units', rfl⟩ | hfuel'
  · rcases h with ⟨units, rfl⟩ | hfuel
    · exact .inl ⟨units + units', by rw [← State.later_later]⟩
    · exact .inr hfuel
  · exact .inr hfuel'

/-- Without a limit the outcome is the same, and so is the state but for the fuel that was used. -/
theorem Delayed.of_unlimited (h : Delayed scene first second) (hfuel : scene.fuel = none) :
    ∃ units, second = (first.1, first.2.later units) :=
  h.resolve_right fun hlimited => by
    rw [hfuel] at hlimited
    cases hlimited.1

/-- A result other than a lack of fuel is the same, but for the fuel that was used. -/
theorem Delayed.of_ne (h : Delayed scene first second)
    (hother : second.1 ≠ .error (.error .outOfFuel)) :
    ∃ units, second = (first.1, first.2.later units) :=
  h.resolve_right fun hlimited => hother hlimited.2

end

/-! ## Actions after more fuel -/

/-- The second action does what the first one does, also if it starts after more fuel was used. But
with a limit it may run out of fuel earlier. -/
def Delays (scene : Scene) (act act' : Action σ α) : Prop :=
  ∀ s units, Delayed scene (Action.result act s) (Action.result act' (s.later units))

theorem Delays.trans {act act' act'' : Action σ α} (h : Delays scene act act')
    (h' : Delays scene act' act'') : Delays scene act act'' :=
  fun s units => (h s units).trans (h' (s.later units) 0)

theorem Delays.pure (a : α) : Delays scene (pure a : Action σ α) (pure a) :=
  fun _ units => .inl ⟨units, rfl⟩

theorem Delays.fail (e : Error) : Delays scene (fail e : Action σ α) (fail e) :=
  fun _ units => .inl ⟨units, rfl⟩

theorem Delays.bind {act act' : Action σ α} {f f' : α → Action σ β} (h : Delays scene act act')
    (hf : ∀ a, Delays scene (f a) (f' a)) : Delays scene (act >>= f) (act' >>= f') := by
  intro s units
  rcases h s units with ⟨units', hsame⟩ | ⟨hlimited, hfuel⟩
  · rcases result_bind act f s with ⟨a, s₁, heq, hbind⟩ | ⟨halt, s₁, heq, hbind⟩
    · rw [heq] at hsame
      rw [hbind, result_bind_ok hsame]
      exact hf a s₁ units'
    · rw [heq] at hsame
      rw [hbind, result_bind_error hsame]
      exact .inl ⟨units', rfl⟩
  · rw [result_bind_error (Prod.ext hfuel rfl)]
    exact .inr ⟨hlimited, rfl⟩

theorem Delays.get_bind {f f' : State σ → Action σ α}
    (h : ∀ s units, Delays scene (f s) (f' (s.later units))) :
    Delays scene (get >>= f) (get >>= f') :=
  fun s units => h s units s units

theorem Delays.modify {f : State σ → State σ}
    (h : ∀ s units, f (s.later units) = (f s).later units) :
    Delays scene (modify f : Action σ Unit) (modify f) :=
  fun s units => .inl ⟨units, congrArg (Prod.mk (Except.ok ())) (h s units)⟩

theorem Delays.ofExcept (result : Except Error α) :
    Delays scene (ofExcept result : Action σ α) (ofExcept result) := by
  cases result with
  | ok a => exact .pure a
  | error e => exact .fail e

theorem Delays.repeatWhile {test test' : Action σ Bool} {body body' : Action σ Unit}
    (htest : Delays scene test test') (hbody : Delays scene body body') (rounds : Nat) :
    Delays scene (repeatWhile test body rounds) (repeatWhile test' body' rounds) := by
  induction rounds with
  | zero => exact fun _ units => .inl ⟨units, rfl⟩
  | succ rounds ih =>
    refine htest.bind fun holds => ?_
    split
    · exact hbody.bind fun _ => ih
    · exact .pure ()

/-! ## Variables -/

theorem load_delays (name : String) :
    Delays scene (load scene name : Action σ Value) (load scene name) := by
  refine .get_bind fun s units => ?_
  dsimp only [State.later]
  split
  · exact .pure _
  · exact .fail _

theorem declare_delays (kind : DeclareKind) (name : String) (value : Option Value) :
    Delays scene (declare kind name value : Action σ Unit) (declare kind name value) := by
  refine .modify fun s units => ?_
  dsimp only [State.later]
  split <;> rfl

theorem assign_delays (name : String) (value : Value) :
    Delays scene (assign name value : Action σ Unit) (assign name value) := by
  refine .get_bind fun s units => ?_
  dsimp only [State.later]
  split
  · exact .fail _
  · exact .modify fun _ _ => rfl

theorem freshRef_delays : Delays scene (freshRef : Action σ Ref) freshRef := by
  refine .get_bind fun s _ => Delays.bind ?_ fun _ => .pure _
  exact .modify fun _ _ => rfl

theorem invoke_delays (f : Function) (arguments : List Value) :
    Delays scene (invoke scene f arguments : Action σ Value) (invoke scene f arguments) := by
  refine Delays.bind ?_ fun _ => freshRef_delays.bind fun _ => .ofExcept _
  exact .modify fun _ _ => rfl

theorem evaluation_delays :
    Evaluation (σ := σ) scene scene (fun _ => True) fun act act' => Delays scene act act' where
  pure := .pure
  bind h hf := h.bind hf
  context _ := rfl
  load name _ := load_delays name
  typeOf name _ := by
    rw [eval]
    exact .get_bind fun _ _ => .pure _
  assign name v _ := assign_delays name v
  property _ _ := .ofExcept _
  notCallable _ := .fail _
  freshRef := freshRef_delays
  invoke := invoke_delays

/-! ## Fuel and output -/

/-- Fuel that has run out stays so. -/
theorem exhausted_of_le {spent spent' : Nat} (hle : spent ≤ spent')
    (h : scene.exhausted spent = true) : scene.exhausted spent' = true := by
  unfold Scene.exhausted at h ⊢
  split
  · rename_i hfuel
    rw [hfuel] at h
    cases h
  · rename_i fuel hfuel
    rw [hfuel] at h
    have hspent := of_decide_eq_true h
    exact decide_eq_true (by omega)

/-- Using a unit leads to the state after more fuel, or the fuel runs out. -/
theorem result_spend_cases (scene : Scene) (s : State σ) :
    Action.result (spend scene) s = (.ok (), s.later 1) ∧ scene.exhausted s.spent = false ∨
      Action.result (spend scene) s = (.error (.error .outOfFuel), s.later 1) ∧
        scene.exhausted s.spent = true := by
  rw [result_spend]
  cases hexhausted : scene.exhausted s.spent with
  | true => exact .inr ⟨rfl, rfl⟩
  | false => exact .inl ⟨rfl, rfl⟩

theorem spend_delays : Delays scene (spend scene : Action σ Unit) (spend scene) := by
  intro s units
  have hstate : (s.later units).later 1 = (s.later 1).later units := by
    rw [State.later_later, State.later_later, Nat.add_comm]
  rcases result_spend_cases scene (s.later units) with
    ⟨hresult', hlater⟩ | ⟨hresult', hlater⟩
  · rcases result_spend_cases scene s with ⟨hresult, -⟩ | ⟨-, hnow⟩
    · rw [hresult, hresult', hstate]
      exact .inl ⟨units, rfl⟩
    · cases hlater.symm.trans (exhausted_of_le (Nat.le_add_right _ _) hnow)
  · rw [hresult']
    exact .inr ⟨isSome_fuel_of_exhausted hlater, rfl⟩

/-- A unit of fuel that is used first is a delay. -/
theorem Delays.spend_first {act act' : Action σ α} (h : Delays scene act act') :
    Delays scene act (do spend scene; act') := by
  intro s units
  rcases result_spend_cases scene (s.later units) with
    ⟨hresult, -⟩ | ⟨hresult, hexhausted⟩
  · rw [result_bind_ok hresult, State.later_later]
    exact h s (units + 1)
  · rw [result_bind_error hresult]
    exact .inr ⟨isSome_fuel_of_exhausted hexhausted, rfl⟩

variable [Sink σ]

theorem write_delays (origin : Origin) (text : String) :
    Delays scene (write origin text : Action σ Unit) (write origin text) := by
  intro s units
  rw [result_write, result_write]
  exact .inl ⟨units, rfl⟩

theorem writeAll_delays (origin : Origin) (texts : List String) :
    Delays scene (writeAll origin texts : Action σ Unit) (writeAll origin texts) := by
  induction texts with
  | nil => exact .pure ()
  | cons text rest ih => exact (write_delays origin text).bind fun _ => ih

theorem emit_delays (v : Value) : Delays scene (emit v : Action σ Unit) (emit v) := by
  refine Delays.bind ?_ fun _ => ?_
  · exact .modify fun _ _ => rfl
  split
  · exact .pure ()
  · exact writeAll_delays _ _

/-! ## Statements -/

/-- Statements are delayed by the fuel that was used before, and do the same. -/
theorem execution_delays :
    Execution (σ := σ) scene scene (fun _ => True) (fun _ => True) id
      (fun act act' => Delays scene act act') fun act act' => Delays scene act act' where
  evaluation := evaluation_delays
  declare kind name v _ := declare_delays kind name v
  rebind name v _ := assign_delays name v
  items _ _ := .ofExcept _
  evaluated h := h
  spend := spend_delays
  literal text _ := write_delays .literal text
  emit := emit_delays
  bind h hf := h.bind hf
  loop htest hbody := htest.repeatWhile (spend_delays.bind fun _ => hbody) _

theorem execAll_delays (body : List Stmt) :
    Delays scene (execAll scene body : Action σ Unit) (execAll scene body) :=
  execution_delays.execAll_self (fun _ _ => trivial) fun _ _ => trivial

/-- Choices that differ only in what comes after the first branch. -/
theorem execBranches_cons_delays (b : Branch) {rest rest' : List Branch}
    {otherwise otherwise' : Action σ Unit}
    (h : Delays scene (execBranches scene rest otherwise)
      (execBranches scene rest' otherwise')) :
    Delays scene (execBranches scene (b :: rest) otherwise)
      (execBranches scene (b :: rest') otherwise') := by
  rw [execBranches, execBranches]
  refine (execution_delays.holds fun _ _ => trivial).bind fun holds => ?_
  split
  · exact execAll_delays b.2
  · exact h

theorem execBranches_delays (branches : List Branch) {otherwise : Action σ Unit}
    (h : Delays scene otherwise otherwise) :
    Delays scene (execBranches scene branches otherwise)
      (execBranches scene branches otherwise) := by
  induction branches with
  | nil =>
    rw [execBranches]
    exact h
  | cons b rest ih => exact execBranches_cons_delays b ih

end Stencil.Run
