import Stencil.Proofs.Run.Writing

/-!
# What runs use

A run only adds to the fuel that was used and to the output, and every round of a loop uses fuel.

* `GrowingSink`: a sink that keeps what it took
* `Run.Advances`: an action uses fuel and extends the output, and has used a number of units if it
  runs out of rounds
* `Run.simulation_advances`: the main statement
-/

namespace Stencil

/-! ## Output that grows -/

/-- A sink that keeps what it took. -/
class GrowingSink (σ : Type) extends Sink σ where
  /-- The bytes that were taken. -/
  output : σ → List UInt8
  output_put : ∀ (s : σ) (chunk : Chunk), output s <+: output (put s chunk).1

instance : GrowingSink Buffer where
  output b := b.text.toUTF8.data.toList
  output_put b chunk := by
    show _ <+: (b.text ++ chunk.text).toByteArray.data.toList
    rw [String.toByteArray_append, ByteArray.data_append, Array.toList_append]
    exact List.prefix_append _ _

instance : GrowingSink WrappedWriter where
  output w := w.writer.taken.data.toList
  output_put w chunk := by
    rw [WrappedWriter.writer_put, Writer.taken_fill]
    exact List.prefix_append _ _

namespace Run

variable {σ α β : Type}

/-! ## Single actions -/

/-- Is the next unit of fuel the last one, which cannot be used? -/
def Scene.exhausted (scene : Scene) (spent : Nat) : Bool :=
  match scene.fuel with
  | none => false
  | some fuel => fuel - spent ≤ 1

/-- Without a limit fuel is never used up. -/
theorem isSome_fuel_of_exhausted {scene : Scene} {spent : Nat} (h : scene.exhausted spent = true) :
    scene.fuel.isSome := by
  cases hfuel : scene.fuel with
  | none =>
    rw [Scene.exhausted, hfuel] at h
    cases h
  | some fuel => rfl

theorem result_spend (scene : Scene) (s : State σ) :
    Action.result (spend scene) s =
      (if scene.exhausted s.spent then .error (.error .outOfFuel) else .ok (),
        { s with spent := s.spent + 1 }) := by
  have hstep : Action.result (spend scene) s =
      Action.result (match scene.fuel with
        | none => pure ()
        | some fuel => if fuel - s.spent ≤ 1 then fail .outOfFuel else pure ())
        { s with spent := s.spent + 1 } := rfl
  rw [hstep, Scene.exhausted]
  cases scene.fuel with
  | none => rfl
  | some fuel =>
    by_cases hle : fuel - s.spent ≤ 1
    · simp only [hle, decide_true, if_true]
      rfl
    · simp only [hle, decide_false, if_false, Bool.false_eq_true]
      rfl

/-- How a run goes on after a chunk: if it was refused then the run stops. -/
def answered (taken : Except FormatError Unit) : Except Halt Unit :=
  taken.mapError fun e => .error (.ofFormat e)

theorem answered_ne_unfinished (taken : Except FormatError Unit) :
    answered taken ≠ .error .unfinished := by
  cases taken <;> rintro ⟨⟩

theorem result_write [Sink σ] (origin : Origin) (text : String) (s : State σ) :
    Action.result (write origin text) s =
      (answered (Sink.put s.sink ⟨origin, text⟩).2,
        { s with sink := (Sink.put s.sink ⟨origin, text⟩).1 }) := by
  have hstep : Action.result (write origin text) s =
      Action.result (ofExcept ((Sink.put s.sink ⟨origin, text⟩).2.mapError Error.ofFormat))
        { s with sink := (Sink.put s.sink ⟨origin, text⟩).1 } := rfl
  rw [hstep]
  cases (Sink.put s.sink ⟨origin, text⟩).2 <;> rfl

variable [GrowingSink σ]

/-- The bytes that were written. -/
def State.output (s : State σ) : List UInt8 :=
  GrowingSink.output s.sink

/-! ## What actions use -/

/-- What an action leads to from a state, if it takes a number of units of fuel to run out of
rounds. -/
structure Advanced (units : Nat) (s : State σ) (result : Except Halt α × State σ) : Prop where
  spent : s.spent ≤ result.2.spent
  output : s.output <+: result.2.output
  unfinished : result.1 = .error .unfinished → s.spent + units ≤ result.2.spent

/-- The action uses fuel and extends the output. If it runs out of rounds it has used a number of
units. -/
def Advances (units : Nat) (act : Action σ α) : Prop :=
  ∀ s, Advanced units s (Action.result act s)

theorem Advances.of_le {units units' : Nat} {act : Action σ α} (h : Advances units act)
    (hle : units' ≤ units) : Advances units' act :=
  fun s => ⟨(h s).spent, (h s).output, fun hunfinished => by
    have := (h s).unfinished hunfinished
    omega⟩

theorem Quiet.advances {host : Host} {act : Action σ α} (h : Quiet host act) (units : Nat) :
    Advances units act := by
  intro s
  have houtput : (Action.result act s).2.output = s.output :=
    congrArg GrowingSink.output (h s).sink
  refine ⟨Nat.le_of_eq (h s).spent.symm, ?_, fun hunfinished => absurd hunfinished (h.finished s)⟩
  simp only [houtput, List.prefix_refl]

theorem Advances.pure (a : α) (units : Nat) : Advances units (pure a : Action σ α) :=
  fun _ => ⟨Nat.le_refl _, List.prefix_refl _, by rintro ⟨⟩⟩

theorem unfinished_advances : Advances 0 (throw .unfinished : Action σ α) :=
  fun _ => ⟨Nat.le_refl _, List.prefix_refl _, fun _ => Nat.le_refl _⟩

/-- The first action may make up for units that the second one does not use. -/
theorem Advances.bind_of_charge {units units' : Nat} {act : Action σ α} {f : α → Action σ β}
    (h : Advances units act) (hf : ∀ a, Advances units' (f a))
    (hcharge : ∀ s a s', Action.result act s = (.ok a, s') → s.spent + units ≤ s'.spent + units') :
    Advances units (act >>= f) := by
  intro s
  have hact := h s
  rcases result_bind act f s with ⟨a, s', heq, hbind⟩ | ⟨halt, s', heq, hbind⟩
  · rw [heq] at hact
    have hfa := hf a s'
    rw [hbind]
    refine ⟨Nat.le_trans hact.spent hfa.spent, hact.output.trans hfa.output, fun hunfinished => ?_⟩
    exact Nat.le_trans (hcharge s a s' heq) (hfa.unfinished hunfinished)
  · rw [heq] at hact
    rw [hbind]
    refine ⟨hact.spent, hact.output, ?_⟩
    rintro ⟨⟩
    exact hact.unfinished rfl

theorem Advances.bind {units : Nat} {act : Action σ α} {f : α → Action σ β}
    (h : Advances units act) (hf : ∀ a, Advances units (f a)) : Advances units (act >>= f) := by
  refine h.bind_of_charge hf fun s a s' heq => ?_
  have hspent := (h s).spent
  rw [heq] at hspent
  exact Nat.add_le_add_right hspent units

theorem spend_advances (scene : Scene) (units : Nat) :
    Advances units (spend scene : Action σ Unit) := by
  intro s
  rw [result_spend]
  refine ⟨Nat.le_succ _, List.prefix_refl _, fun hunfinished => ?_⟩
  dsimp only at hunfinished
  split at hunfinished <;> cases hunfinished

theorem write_advances (origin : Origin) (text : String) (units : Nat) :
    Advances units (write origin text : Action σ Unit) := by
  intro s
  rw [result_write]
  exact ⟨Nat.le_refl _, GrowingSink.output_put _ _, fun hunfinished =>
    absurd hunfinished (answered_ne_unfinished _)⟩

/-! ## Loops use fuel -/

/-- A round of a loop that comes to its end has used a unit. -/
theorem round_charges {scene : Scene} {body : Action σ Unit} {units : Nat}
    (hbody : Advances units body) {s s' : State σ} {a : Unit}
    (h : Action.result (do spend scene; body) s = (.ok a, s')) : s.spent + 1 ≤ s'.spent := by
  rcases result_bind (spend scene) (fun _ => body) s with ⟨_, s₁, heq, hbind⟩ | ⟨_, _, _, hbind⟩
  · rw [hbind] at h
    rw [result_spend] at heq
    obtain ⟨-, rfl⟩ := Prod.mk.inj heq
    have hspent := (hbody { s with spent := s.spent + 1 }).spent
    rwa [h] at hspent
  · rw [hbind] at h
    cases h

theorem repeatWhile_advances {scene : Scene} {test : Action σ Bool} {body : Action σ Unit}
    {units rounds : Nat} (htest : Quiet scene.host test) (hbody : Advances units body)
    (hle : rounds ≤ units) : Advances rounds (repeatWhile test (do spend scene; body) rounds) := by
  induction rounds with
  | zero => exact unfinished_advances
  | succ rounds ih =>
    rw [repeatWhile]
    refine (htest.advances _).bind fun holds => ?_
    cases holds with
    | false => exact .pure () _
    | true =>
      have hround : Advances (rounds + 1) (do spend scene; body : Action σ Unit) :=
        (spend_advances scene _).bind fun _ => hbody.of_le hle
      refine hround.bind_of_charge (fun _ => ih (by omega)) fun s a s' heq => ?_
      have hcharge := round_charges hbody heq
      omega

/-- Statements use fuel and extend the output, and use a unit for each round of a loop that does not
end. -/
theorem simulation_advances (scene : Scene) :
    Simulation (σ := σ) scene scene (fun _ => True) fun act (_ : Action σ _) =>
      Advances scene.rounds act where
  agrees := ⟨rfl, rfl⟩
  alike h := h.quiet.advances _
  spend := spend_advances scene _
  literal text _ := write_advances .literal text _
  emit := emit_related scene.host (fun h => h.quiet.advances _) (fun h hf => h.bind hf)
    fun text => write_advances .value text _
  bind h hf := h.bind hf
  loop htest hbody := repeatWhile_advances htest.quiet hbody (Nat.le_refl _)

end Run

end Stencil
