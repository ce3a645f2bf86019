import Stencil.Proofs.Relabelling
import Stencil.Proofs.Run.Fuel

/-!
# Output, chunk by chunk

A run hands chunks to its sink and never looks at what the sink holds. So whatever turns one sink
into another one, chunk by chunk, turns the one run into the other. The literal texts of a template
only pass through.

* `Journal`: a sink that keeps every chunk
* `Viewing`: one sink is a view of another one, perhaps with other literal texts
* `Run.run_viewed`: a run into a view is the view of the run
* `Run.literals_inert`: the main statement
-/

namespace Stencil

/-! ## Sinks -/

/-- Every chunk that was written, in order. -/
structure Journal where
  chunks : List Chunk := []
  deriving DecidableEq, Repr

instance : Sink Journal where
  put j chunk := ({ chunks := j.chunks ++ [chunk] }, .ok ())

/-- The chunk with its text replaced if it is a literal one. -/
def Chunk.mapLiteral (f : String → String) (chunk : Chunk) : Chunk :=
  match chunk.origin with
  | .literal => { chunk with text := f chunk.text }
  | .value => chunk

/-- The journal with every literal text replaced. -/
def Journal.mapLiterals (f : String → String) (j : Journal) : Journal :=
  { chunks := j.chunks.map (Chunk.mapLiteral f) }

/-- The text that the chunks make up. -/
def Journal.buffer (j : Journal) : Buffer :=
  { text := String.join (j.chunks.map Chunk.text) }

/-- A chunk does the same to a sink and to its view. In the view another text may stand in the place
of a literal one. -/
structure Viewing {σ σ' : Type} [Sink σ] [Sink σ'] (f : String → String) (view : σ → σ') :
    Prop where
  literal : ∀ s text, Sink.put (view s) ⟨.literal, f text⟩ =
    (view (Sink.put s ⟨.literal, text⟩).1, (Sink.put s ⟨.literal, text⟩).2)
  value : ∀ s text, Sink.put (view s) ⟨.value, text⟩ =
    (view (Sink.put s ⟨.value, text⟩).1, (Sink.put s ⟨.value, text⟩).2)

theorem viewing_mapLiterals (f : String → String) : Viewing f (Journal.mapLiterals f) := by
  refine ⟨fun j text => ?_, fun j text => ?_⟩ <;>
    simp [Sink.put, Journal.mapLiterals, Chunk.mapLiteral]

theorem viewing_buffer : Viewing id Journal.buffer := by
  refine ⟨fun j text => ?_, fun j text => ?_⟩ <;>
    simp [Sink.put, Journal.buffer, String.join_append]

namespace Run

variable {σ σ' α β : Type}

/-! ## Views of runs -/

/-- The state with its output viewed in another way. -/
def State.viewed (view : σ → σ') (s : State σ) : State σ' :=
  s.withSink (view s.sink)

/-- The second action does to the view of a state what the first one does to the state. -/
def Viewed (view : σ → σ') (act : Action σ α) (act' : Action σ' α) : Prop :=
  ∀ s, Action.result act' (s.viewed view) =
    ((Action.result act s).1, (Action.result act s).2.viewed view)

variable {view : σ → σ'}

theorem Alike.viewed {host : Host} {act : Action σ α} {act' : Action σ' α}
    (h : Alike host act act') (view : σ → σ') : Viewed view act act' := by
  intro s
  have hmatched := h s (view s.sink)
  rw [State.viewed, hmatched.same, State.viewed, hmatched.untouched.sink]

theorem Viewed.bind {act : Action σ α} {act' : Action σ' α} {f : α → Action σ β}
    {f' : α → Action σ' β} (h : Viewed view act act') (hf : ∀ a, Viewed view (f a) (f' a)) :
    Viewed view (act >>= f) (act' >>= f') := by
  intro s
  have hact := h s
  rcases result_bind act f s with ⟨a, s₁, heq, hbind⟩ | ⟨halt, s₁, heq, hbind⟩
  · rw [heq] at hact
    rw [result_bind_ok hact, hbind]
    exact hf a s₁
  · rw [heq] at hact
    rw [result_bind_error hact, hbind]

theorem spend_viewed (scene : Scene) (view : σ → σ') :
    Viewed view (spend scene) (spend scene) := by
  intro s
  rw [result_spend, result_spend]
  rfl

theorem unfinished_viewed (view : σ → σ') :
    Viewed view (throw .unfinished : Action σ α) (throw .unfinished) :=
  fun _ => rfl

variable [Sink σ] [Sink σ']

theorem write_viewed {origin : Origin} {text text' : String}
    (h : ∀ s, Sink.put (view s) ⟨origin, text'⟩ =
      (view (Sink.put s ⟨origin, text⟩).1, (Sink.put s ⟨origin, text⟩).2)) :
    Viewed view (write origin text) (write origin text') := by
  intro s
  have hput : Sink.put (s.viewed view).sink ⟨origin, text'⟩ = _ := h s.sink
  rw [result_write, result_write, hput]
  rfl

/-- Statements look at their output no more than expressions do. -/
theorem execution_viewed {f : String → String} (h : Viewing f view) (scene : Scene) :
    Execution scene scene (fun _ => True) (fun _ => True) f
      (fun act (act' : Action σ' _) => Alike scene.host act act')
      fun act (act' : Action σ' _) => Viewed view act act' where
  evaluation := evaluation_alike ⟨rfl, rfl⟩
  declare kind name v _ := .declare kind name v
  rebind name v _ := .assign name v
  items _ _ := .ofExcept fun _ => raisable_of_loopItems
  evaluated halike := halike.viewed view
  spend := spend_viewed scene view
  literal text _ := write_viewed fun s => h.literal s text
  emit := emit_related scene.host (fun halike => halike.viewed view) (fun hact hf => hact.bind hf)
    fun text => write_viewed fun s => h.value s text
  bind hact hf := hact.bind hf
  loop htest hbody :=
    repeatWhile_related scene.host (fun halike => halike.viewed view)
      (fun hact hf => hact.bind hf) (unfinished_viewed view) htest _ _
      ((spend_viewed scene view).bind fun _ => hbody) scene.rounds

/-- A run with other literal texts into the view of a sink is the view of the run. -/
theorem run_viewed {f : String → String} (h : Viewing f view) (scene : Scene) (body : List Stmt)
    (sink : σ) :
    run scene (Stmt.mapLiteralsOfAll f body) (view sink) =
      ((run scene body sink).1, (run scene body sink).2.viewed view) :=
  (execution_viewed h scene).execAll (fun _ _ => trivial) (fun _ _ => trivial) { sink := sink }

/-- **Literal texts are inert.** Steps with other literal texts are built into the same statements
with these texts, or are rejected for the same reason. A run of statements with other literal texts
has the same outcome, the same variables and the same use of fuel, and it writes the same chunks but
for the literal ones. The text that a run writes is made up of its chunks. -/
theorem literals_inert (f : String → String) :
    (∀ steps, build (steps.map (Step.mapLiteral f)) =
      (build steps).map (Stmt.mapLiteralsOfAll f)) ∧
    ∀ scene body,
      (run scene (Stmt.mapLiteralsOfAll f body) ({} : Journal) =
        ((run scene body ({} : Journal)).1,
          (run scene body ({} : Journal)).2.viewed (Journal.mapLiterals f))) ∧
      run scene body ({} : Buffer) =
        ((run scene body ({} : Journal)).1,
          (run scene body ({} : Journal)).2.viewed Journal.buffer) := by
  refine ⟨build_mapLiterals f, fun scene body => ⟨?relabelled, ?joined⟩⟩
  case relabelled => exact run_viewed (viewing_mapLiterals f) scene body {}
  case joined =>
    have hjoined := run_viewed viewing_buffer scene body ({} : Journal)
    rwa [Stmt.mapLiteralsOfAll_id] at hjoined

end Run

end Stencil
