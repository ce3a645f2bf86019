import Stencil.Proofs.Run.Simulation

/-!
# More rounds

A run that comes to an end is the same if its loops may go through more rounds. The number of rounds
only makes runs definite that would never end.

* `Run.Refines`: the second action is the first one, unless that runs out of rounds
* `Run.run_of_rounds_le`: the main statement
-/

namespace Stencil.Run

variable {σ α β : Type}

/-- The second action does what the first one does, unless that runs out of rounds. -/
def Refines (act act' : Action σ α) : Prop :=
  ∀ s, (Action.result act s).1 ≠ .error .unfinished → Action.result act' s = Action.result act s

theorem Refines.refl (act : Action σ α) : Refines act act :=
  fun _ _ => rfl

theorem Refines.bind {act act' : Action σ α} {f f' : α → Action σ β} (h : Refines act act')
    (hf : ∀ a, Refines (f a) (f' a)) : Refines (act >>= f) (act' >>= f') := by
  intro s hfinished
  rcases result_bind act f s with ⟨a, s', heq, hbind⟩ | ⟨halt, s', heq, hbind⟩
  · have hact : Action.result act' s = (.ok a, s') := by
      rw [h s (by rw [heq]; rintro ⟨⟩), heq]
    rw [hbind] at hfinished ⊢
    rw [result_bind_ok hact f']
    exact hf a s' hfinished
  · rw [hbind] at hfinished ⊢
    have hact : Action.result act' s = (.error halt, s') := by
      rw [h s (by rw [heq]; rintro ⟨⟩; exact hfinished rfl), heq]
    exact result_bind_error hact f'

theorem Refines.repeatWhile {test : Action σ Bool} {body body' : Action σ Unit}
    (h : Refines body body') {rounds rounds' : Nat} (hle : rounds ≤ rounds') :
    Refines (repeatWhile test body rounds) (repeatWhile test body' rounds') := by
  induction rounds generalizing rounds' with
  | zero =>
    intro s hfinished
    exact absurd rfl hfinished
  | succ rounds ih =>
    obtain ⟨more, rfl⟩ := Nat.exists_eq_add_of_lt hle
    rw [Run.repeatWhile, Run.repeatWhile]
    refine (Refines.refl test).bind fun holds => ?_
    cases holds with
    | false => exact .refl _
    | true => exact h.bind fun _ => ih (Nat.le_add_right rounds more)

/-- Statements are refined by more rounds. -/
theorem simulation_refines [Sink σ] {scene : Scene} {rounds : Nat} (hle : scene.rounds ≤ rounds) :
    Simulation (σ := σ) scene { scene with rounds := rounds } (fun _ => True) Refines where
  agrees := ⟨rfl, rfl⟩
  alike h := h.eq ▸ .refl _
  spend := .refl _
  literal _ _ := .refl _
  emit _ := .refl _
  bind h hf := h.bind hf
  loop htest hbody :=
    htest.eq ▸ Refines.repeatWhile ((Refines.refl _).bind fun _ => hbody) hle

/-- **More rounds change nothing.** A run that does not run out of rounds is the same with more of
them. -/
theorem run_of_rounds_le [Sink σ] {scene : Scene} {rounds : Nat} (hle : scene.rounds ≤ rounds)
    {body : List Stmt} {sink : σ} (hfinished : (run scene body sink).1 ≠ .error .unfinished) :
    run { scene with rounds := rounds } body sink = run scene body sink :=
  (simulation_refines hle).execAll body (fun _ _ => trivial) { sink := sink } hfinished

end Stencil.Run
