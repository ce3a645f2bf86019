import Stencil.Engine
import Stencil.Proofs.Run.Fuel

/-!
# Output to a writer

A run that writes to a place with limited room is the run into a text, cut off where the room is
used up. It does not matter in which pieces the output comes.

* `Run.Streams`: what an action writes to a text, another one writes to a writer
* `Run.run_raised`: why a run into a text may stop
* `Template.renderTo_streams`: the main statement
-/

namespace Stencil

/-! ## Streaming -/

namespace Run

variable {α β : Type}

/-- The bytes that were written. -/
def State.bytes (s : State Buffer) : ByteArray :=
  s.sink.text.toUTF8

/-- The second result is the first one with its output going to the writer. If the output does not
fit, the run ends where there is no more room: with an error that gives no reason, while the
wrapper keeps the writer's one. -/
structure Streamed (w : Writer) (result : Except Halt α × State Buffer)
    (result' : Except Halt α × State WrappedWriter) : Prop where
  fits : result.2.bytes.size ≤ w.room →
    result' = (result.1, result.2.withSink { writer := w.fill result.2.bytes })
  cut : w.room < result.2.bytes.size →
    result'.1 = .error (.error .formatting) ∧
      result'.2.sink = { writer := w.fill result.2.bytes, failure? := some w.reason }

/-- What the first action writes to a text the second one writes to the writer, as long as there is
room. -/
structure Streams (w : Writer) (act : Action Buffer α) (act' : Action WrappedWriter α) : Prop where
  advances : Advances 0 act
  streamed : ∀ s : State Buffer, s.bytes.size ≤ w.room →
    Streamed w (Action.result act s)
      (Action.result act' (s.withSink { writer := w.fill s.bytes }))

variable {w : Writer}

theorem exists_bytes_append {s s' : State Buffer} (h : s.output <+: s'.output) :
    ∃ more, s'.bytes = s.bytes ++ more := by
  obtain ⟨more, hmore⟩ := h
  refine ⟨⟨more.toArray⟩, ByteArray.ext (Array.toList_inj.1 ?_)⟩
  rw [ByteArray.data_append, Array.toList_append]
  exact hmore.symm

/-- Two actions stream if they do the same and write nothing. -/
theorem Streams.of_sink_eq {act : Action Buffer α} {act' : Action WrappedWriter α}
    (h : Advances 0 act)
    (hsame : ∀ s sink, Action.result act' (s.withSink sink) =
      ((Action.result act s).1, (Action.result act s).2.withSink sink))
    (hsink : ∀ s, (Action.result act s).2.sink = s.sink) : Streams w act act' := by
  refine ⟨h, fun s hroom => ?_⟩
  have hbytes : (Action.result act s).2.bytes = s.bytes := congrArg (·.text.toUTF8) (hsink s)
  refine ⟨fun _ => ?_, fun hlt => absurd hroom ?_⟩
  · rw [hsame, hbytes]
  · rw [← hbytes]
    exact Nat.not_le_of_lt hlt

theorem Alike.streams {host : Host} {act : Action Buffer α} {act' : Action WrappedWriter α}
    (h : Alike host act act') : Streams w act act' := by
  have hquiet : Quiet host act := fun s => (h s { writer := w }).untouched
  exact .of_sink_eq (hquiet.advances 0) (fun s sink => (h s sink).same) fun s => (hquiet s).sink

theorem spend_streams (scene : Scene) :
    Streams w (spend scene : Action Buffer Unit) (spend scene) := by
  refine .of_sink_eq (spend_advances scene 0) (fun s sink => ?_) fun s => ?_
  · rw [result_spend, result_spend]
    rfl
  · rw [result_spend]

theorem write_streams (origin : Origin) (text : String) :
    Streams w (write origin text : Action Buffer Unit) (write origin text) := by
  refine ⟨write_advances origin text 0, fun s hroom => ?_⟩
  have hbytes : (Action.result (write origin text) s).2.bytes = s.bytes ++ text.toUTF8 := by
    rw [result_write]
    exact String.toByteArray_append
  have hsize : (s.bytes ++ text.toUTF8).size = s.bytes.size + text.toUTF8.size :=
    ByteArray.size_append
  have hfill : (w.fill s.bytes).fill text.toUTF8 = w.fill (s.bytes ++ text.toUTF8) :=
    Writer.fill_fill ..
  refine ⟨fun hle => ?_, fun hlt => ?_⟩
  · rw [hbytes] at hle ⊢
    have hput := WrappedWriter.put_of_le { writer := w.fill s.bytes } ⟨origin, text⟩
      (show text.toUTF8.size ≤ w.room - s.bytes.size by omega)
    rw [result_write, result_write, State.withSink, hput]
    dsimp only
    rw [hfill]
    rfl
  · rw [hbytes] at hlt ⊢
    have hput := WrappedWriter.put_of_lt { writer := w.fill s.bytes } ⟨origin, text⟩
      (show w.room - s.bytes.size < text.toUTF8.size by omega)
    rw [result_write, State.withSink, hput]
    dsimp only
    rw [hfill]
    exact ⟨rfl, rfl⟩

theorem Streams.bind {act : Action Buffer α} {act' : Action WrappedWriter α}
    {f : α → Action Buffer β} {f' : α → Action WrappedWriter β} (h : Streams w act act')
    (hf : ∀ a, Streams w (f a) (f' a)) :
    Streams w (act >>= f) (act' >>= f') := by
  refine ⟨h.advances.bind fun a => (hf a).advances, fun s hroom => ?_⟩
  have hact := h.streamed s hroom
  rcases result_bind act f s with ⟨a, s₁, heq, hbind⟩ | ⟨halt, s₁, heq, hbind⟩
  · rw [heq] at hact
    rw [hbind]
    by_cases hfirst : s₁.bytes.size ≤ w.room
    · rw [result_bind_ok (hact.fits hfirst) f']
      exact (hf a).streamed s₁ hfirst
    -- there is no more room after the first action, so the second one is not started
    · obtain ⟨hfull, hsink⟩ := hact.cut (Nat.lt_of_not_le hfirst)
      obtain ⟨more, hmore⟩ := exists_bytes_append ((hf a).advances s₁).output
      rw [result_bind_error (Prod.ext hfull rfl) f']
      refine ⟨fun hle => ?_, fun _ => ⟨rfl, ?_⟩⟩
      · rw [hmore, ByteArray.size_append] at hle
        omega
      · rw [hsink, hmore, Writer.fill_append_of_lt (Nat.lt_of_not_le hfirst)]
  · rw [heq] at hact
    rw [hbind]
    by_cases hfirst : s₁.bytes.size ≤ w.room
    · rw [result_bind_error (hact.fits hfirst) f']
      exact ⟨fun _ => rfl, fun hlt => absurd hfirst (Nat.not_le_of_lt hlt)⟩
    · obtain ⟨hfull, hsink⟩ := hact.cut (Nat.lt_of_not_le hfirst)
      rw [result_bind_error (Prod.ext hfull rfl) f']
      exact ⟨fun hle => absurd hle hfirst, fun _ => ⟨rfl, hsink⟩⟩

/-- Statements write the same to a text and to a writer. -/
theorem simulation_streams (scene : Scene) (w : Writer) :
    Simulation scene scene (fun _ => True) (Streams w) where
  agrees := ⟨rfl, rfl⟩
  alike h := h.streams
  spend := spend_streams scene
  literal text _ := write_streams .literal text
  emit := emit_related scene.host (fun h => h.streams) (fun h hf => h.bind hf)
    (write_streams .value)
  bind h hf := h.bind hf
  loop htest hbody :=
    repeatWhile_related scene.host (fun h => h.streams) (fun h hf => h.bind hf)
      (.of_sink_eq unfinished_advances (fun _ _ => rfl) fun _ => rfl) htest _ _
      ((spend_streams scene).bind fun _ => hbody) _

/-- A run into a writer is the run into a text, cut off where the room is used up. -/
theorem run_streamed (scene : Scene) (body : List Stmt) (w : Writer) :
    Streamed w (run scene body ({} : Buffer))
      (run scene body ({ writer := w } : WrappedWriter)) := by
  have hstreams := (simulation_streams scene w).execAll body fun _ _ => trivial
  have hstreamed := hstreams.streamed { sink := {} } (Nat.zero_le _)
  have hempty : w.fill (State.bytes { sink := ({} : Buffer) }) = w :=
    w.fill_of_size_eq_zero ByteArray.size_empty
  rw [hempty] at hstreamed
  exact hstreamed

/-! ## Reasons to stop -/

/-- The action stops the run only for a lack of fuel, or for a reason to stop evaluating. -/
def Raises (host : Host) (act : Action Buffer α) : Prop :=
  ∀ s e, (Action.result act s).1 = .error (.error e) → e = .outOfFuel ∨ Raisable host e

theorem Raises.bind {host : Host} {act : Action Buffer α} {f : α → Action Buffer β}
    (h : Raises host act) (hf : ∀ a, Raises host (f a)) : Raises host (act >>= f) := by
  intro s e herror
  rcases result_bind act f s with ⟨a, s', heq, hbind⟩ | ⟨halt, s', heq, hbind⟩
  · rw [hbind] at herror
    exact hf a s' e herror
  · rw [hbind] at herror
    cases herror
    exact h s e (congrArg Prod.fst heq)

theorem Quiet.raises {host : Host} {act : Action Buffer α} (h : Quiet host act) :
    Raises host act := by
  intro s e herror
  obtain ⟨e', he, hraisable⟩ := (h s).raised _ herror
  cases he
  exact .inr hraisable

theorem spend_raises (scene : Scene) : Raises scene.host (spend scene) := by
  intro s e herror
  rw [result_spend] at herror
  dsimp only at herror
  split at herror
  · cases herror
    exact .inl rfl
  · cases herror

theorem write_raises {host : Host} (origin : Origin) (text : String) :
    Raises host (write origin text) := by
  intro s e herror
  rw [result_write] at herror
  cases herror

/-- Statements stop a run into a text only for a lack of fuel, or for a reason to stop
evaluating. -/
theorem simulation_raises (scene : Scene) :
    Simulation (σ := Buffer) scene scene (fun _ => True)
      fun act (_ : Action Buffer _) => Raises scene.host act where
  agrees := ⟨rfl, rfl⟩
  alike h := h.quiet.raises
  spend := spend_raises scene
  literal text _ := write_raises .literal text
  emit := emit_related scene.host (fun h => h.quiet.raises) (fun h hf => h.bind hf)
    (write_raises .value)
  bind h hf := h.bind hf
  loop {_ _ _ body'} htest hbody :=
    repeatWhile_related scene.host (fun h => h.quiet.raises) (fun h hf => h.bind hf)
      (fun _ _ herror => nomatch herror) htest _ body'
      ((spend_raises scene).bind fun _ => hbody) _

/-- Why a run into a text may stop. -/
theorem run_raised {scene : Scene} {body : List Stmt} {e : Error}
    (h : (run scene body ({} : Buffer)).1 = .error (.error e)) :
    e = .outOfFuel ∨ Raisable scene.host e :=
  (simulation_raises scene).execAll body (fun _ _ => trivial) { sink := {} } e h

theorem source?_of_raisable {host : Host} {e : Error}
    (hhost : ∀ f arguments fresh e, host f arguments fresh = .error e → e.source? = none)
    (h : Raisable host e) : e.source? = none := by
  cases h with
  | unbound | constant | property | iteration | call => rfl
  | host hcall => exact hhost _ _ _ _ hcall

end Run

/-! ## Templates -/

namespace Template

theorem run_streamed (t : Template) (host : Host) (rounds : Nat) (c : Context) (w : Writer) :
    Run.Streamed w (t.run host rounds c ({} : Buffer))
      (t.run host rounds c ({ writer := w } : WrappedWriter)) :=
  Run.run_streamed _ t.body w

/-- Without a failure of the writer no error is replaced. -/
theorem mapError_replaceError (w : Writer) (outcome : Except Run.Halt Unit) :
    outcome.mapError (Run.Halt.mapError (WrappedWriter.replaceError { writer := w })) =
      outcome := by
  rcases outcome with (e | _) | _ <;> rfl

/-- **Streaming is a truncated rendering.** A writer gets the output of the rendering, as much of it
as there is room for. If all of it fits then the template ends in the same way, and no error has a
source unless a function of the host gave it one. If not then it ends with a failure to write, whose
source is the writer's reason. -/
theorem renderTo_streams {t : Template} {host : Host} {rounds : Nat} {c : Context}
    {outcome : Except Run.Halt Unit} {s : Run.State Buffer}
    (h : t.run host rounds c.withEscaper ({} : Buffer) = (outcome, s)) (limit : Nat)
    (reason : String) :
    (∃ w : Writer, w.taken.data.toList = s.output.take limit ∧
      (s.output.length ≤ limit →
        t.renderTo host rounds c { room := limit, reason := reason } =
          (outcome, w, c.withEscaper)) ∧
      (limit < s.output.length → ∃ e,
        t.renderTo host rounds c { room := limit, reason := reason } =
          (.error (.error e), w, c.withEscaper) ∧
        e.kind = .output ∧ e.source? = some reason)) ∧
    (outcome = .ok () → t.render host rounds c = (.ok s.sink.text, c.withEscaper)) ∧
    ((∀ f arguments fresh e, host f arguments fresh = .error e → e.source? = none) →
      ∀ e, outcome = .error (.error e) → e.source? = none) := by
  have hstreamed := t.run_streamed host rounds c.withEscaper { room := limit, reason := reason }
  rw [h] at hstreamed
  refine ⟨⟨Writer.fill { room := limit, reason := reason } s.bytes, ?taken, ?fits, ?cut⟩,
    ?render, ?source⟩
  case taken => exact Writer.taken_fill { room := limit, reason := reason } s.bytes
  case fits =>
    intro hle
    simp only [renderTo, hstreamed.fits hle, Run.State.withSink, mapError_replaceError]
  case cut =>
    intro hlt
    obtain ⟨hfull, hsink⟩ := hstreamed.cut hlt
    -- the run ends with an error that gives no reason, and the wrapper puts its own in its place
    refine ⟨.output reason, ?_, rfl, rfl⟩
    simp only [renderTo, hfull, hsink]
    rfl
  case render =>
    rintro rfl
    rw [render, h]
    rfl
  case source =>
    rintro hhost e rfl
    rcases Run.run_raised (congrArg Prod.fst h) with rfl | hraisable
    · rfl
    · exact Run.source?_of_raisable hhost hraisable

/-- A list of two texts, the second of which has one letter of two bytes. -/
def letters : Template where
  source := ""
  environment := {}
  body := [.emit (.list [.const (.string "a"), .const (.string "é")])]

/-- There is room for the comma between the texts, and for half of the letter after it. -/
theorem renderTo_streams_letters :
    ∃ w e, letters.renderTo (fun _ _ _ => .ok .undefined) 0 {} { room := 3, reason := "full" } =
        (.error (.error e), w, Context.withEscaper {}) ∧
      w.taken.data.toList = [0x61, 0x2c, 0xc3] ∧ e.source? = some "full" := by
  have hrun : letters.run (fun _ _ _ => .ok .undefined) 0 (Context.withEscaper {}) ({} : Buffer) =
      (.ok (),
        { sink := ⟨"a,é"⟩
          spent := 1
          made := 1
          emitted := [.array (.made 0) [.string "a", .string "é"]] }) := by
    rfl
  have houtput : "a,é".toUTF8.data.toList = [0x61, 0x2c, 0xc3, 0xa9] := by decide +kernel
  obtain ⟨⟨w, htaken, -, hcut⟩, -⟩ := renderTo_streams hrun 3 "full"
  have hlong : 3 < "a,é".toUTF8.data.toList.length := by
    rw [houtput]
    decide
  obtain ⟨e, hrender, -, hsource⟩ := hcut hlong
  exact ⟨w, e, hrender, htaken.trans (congrArg (List.take 3) houtput), hsource⟩

end Template

end Stencil
