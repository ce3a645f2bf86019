import Stencil.Proofs.Escaping
import Stencil.Proofs.Run.Fuel

/-!
# Markup in the output

A run without literal texts writes no markup, as long as no array and no function is emitted.

* `Run.State.Contained`: nothing but what was emitted may have brought markup into the output
* `Run.simulation_contains`: statements keep it so
* `Run.run_inert`: the main statement
-/

namespace Stencil.Run

variable {α β : Type}

/-! ## Contained states -/

/-- There is no markup in the output, unless an array or a function was emitted. -/
def State.Contained (s : State Buffer) : Prop :=
  (∀ v ∈ s.emitted, v.Escapable) → Html.Inert s.sink.text.toList

/-- From a contained state the action leads to a contained state. -/
def Contains (act : Action Buffer α) : Prop :=
  ∀ s, s.Contained → (Action.result act s).2.Contained

theorem Contains.bind {act : Action Buffer α} {f : α → Action Buffer β} (h : Contains act)
    (hf : ∀ a, Contains (f a)) : Contains (act >>= f) :=
  kept_bind h hf

theorem Quiet.contains {host : Host} {act : Action Buffer α} (h : Quiet host act) :
    Contains act := by
  intro s hs hemitted
  rw [(h s).sink]
  exact hs fun v hv => hemitted v ((h s).emitted.mem hv)

theorem spend_contains (scene : Scene) : Contains (spend scene) := by
  intro s hs
  rw [result_spend]
  exact hs

/-! ## What is written -/

theorem result_write_buffer (origin : Origin) (text : String) (s : State Buffer) :
    Action.result (write origin text) s = (.ok (), { s with sink := ⟨s.sink.text ++ text⟩ }) :=
  result_write origin text s

theorem result_writeAll_buffer (origin : Origin) (texts : List String) (s : State Buffer) :
    Action.result (writeAll origin texts) s =
      (.ok (),
        { s with sink := ⟨s.sink.text ++ String.ofList (texts.flatMap String.toList)⟩ }) := by
  induction texts generalizing s with
  | nil =>
    rw [List.flatMap_nil, String.ofList_nil, String.append_empty]
    rfl
  | cons text rest ih =>
    rw [writeAll, result_bind_ok (result_write_buffer origin text s), ih, List.flatMap_cons,
      String.ofList_append, String.ofList_toList, String.append_assoc]

/-- The pieces of a value make up what is written for it. -/
theorem result_emit_buffer (v : Value) (s : State Buffer) :
    Action.result (emit v) s =
      (.ok (),
        { s with sink := ⟨s.sink.text ++ v.written⟩, emitted := v :: s.emitted }) := by
  have hrecord : Action.result (record v) s = (.ok (), { s with emitted := v :: s.emitted }) := rfl
  rw [emit, result_bind_ok hrecord, Value.written]
  split
  · rw [String.append_empty]
    rfl
  · rw [result_writeAll_buffer, Value.flatMap_pieces.1]
    rfl

theorem State.Contained.append {s : State Buffer} (h : s.Contained) {text : String}
    (htext : (∀ v ∈ s.emitted, v.Escapable) → Html.Inert text.toList) :
    State.Contained { s with sink := ⟨s.sink.text ++ text⟩ } := by
  intro hemitted
  rw [String.toList_append]
  exact (h hemitted).append (htext hemitted)

theorem write_contains (origin : Origin) {text : String} (h : Html.Inert text.toList) :
    Contains (write origin text) := by
  intro s hs
  rw [result_write_buffer]
  exact hs.append fun _ => h

theorem emit_contains (v : Value) : Contains (emit v) := by
  intro s hs
  rw [result_emit_buffer]
  have hrecorded : State.Contained { s with emitted := v :: s.emitted } :=
    fun hemitted => hs (List.forall_mem_cons.1 hemitted).2
  exact hrecorded.append fun hemitted => Value.written_inert (List.forall_mem_cons.1 hemitted).1

/-! ## Runs -/

/-- Statements whose literal texts hold no markup lead from contained states to contained states. -/
theorem simulation_contains (scene : Scene) :
    Simulation (σ := Buffer) scene scene (fun text => Html.Inert text.toList)
      fun act (_ : Action Buffer _) => Contains act where
  agrees := ⟨rfl, rfl⟩
  alike h := h.quiet.contains
  spend := spend_contains scene
  literal _ hinert := write_contains .literal hinert
  emit := emit_contains
  bind h hf := h.bind hf
  loop {_ _ _ body'} htest hbody :=
    repeatWhile_related scene.host (fun h => h.quiet.contains) (fun h hf => h.bind hf)
      (fun _ hs => hs) htest _ body' ((spend_contains scene).bind fun _ => hbody) _

/-- **Only arrays and functions get markup past the escaper.** If there are no literal texts, and
all the values that are emitted are escaped or plain, then there is no markup in the output, also if
the run stops before its end. -/
theorem run_inert {scene : Scene} {body : List Stmt} (hliteral : Stmt.literalsOfAll body = [])
    (hemitted : ∀ v ∈ (run scene body ({} : Buffer)).2.emitted, v.Escapable) :
    Html.Inert (run scene body ({} : Buffer)).2.sink.text.toList := by
  have hcontained : State.Contained { sink := ({} : Buffer) } :=
    fun _ => Html.Plain.inert (by decide)
  have hliterals : ∀ text ∈ Stmt.literalsOfAll body, Html.Inert text.toList := by
    rw [hliteral]
    rintro _ ⟨⟩
  exact (simulation_contains scene).execAll body hliterals { sink := {} } hcontained hemitted

/-- A loop that emits two texts. -/
def emitTwo : List Stmt :=
  [.forEach ⟨some .var, "x"⟩ .values
    (.list [.const (.string "<b>"), .const (.string "a&b")]) [.emit (.var "x")]]

/-- Five units of fuel, which are used up before the second text is emitted. -/
def fiveUnits : Scene :=
  { context := {}, host := fun _ _ _ => .ok .undefined, fuel := some 5, rounds := 0 }

theorem run_inert_emitTwo :
    (run fiveUnits emitTwo ({} : Buffer)).1 = .error (.error .outOfFuel) ∧
      (run fiveUnits emitTwo ({} : Buffer)).2.sink.text = "&#60;b&#62;" ∧
      Html.Inert (run fiveUnits emitTwo ({} : Buffer)).2.sink.text.toList := by
  have hemitted : (run fiveUnits emitTwo ({} : Buffer)).2.emitted = [.string "<b>"] := rfl
  refine ⟨rfl, by rfl, run_inert rfl ?_⟩
  rw [hemitted]
  decide

/-- An array brings markup in. -/
example :
    (run { context := {}, host := fun _ _ _ => .ok .undefined, fuel := none, rounds := 0 }
      [.emit (.list [.const (.string "<b>")])] ({} : Buffer)).2.sink.text = "<b>" := by
  rfl

end Stencil.Run
