import Stencil.Proofs.Reading.Standalone
import Stencil.Proofs.Rejecting
import Stencil.Proofs.Run.Emission
import Stencil.Proofs.Stretches

/-!
# Why a run fails

Each stage has errors of its own. A source is rejected for what is malformed or for an escape. A run
into a text stops for an invalid operation, for a lack of fuel if there is a limit, or at a variable
that is mentioned and has no value anywhere.

* `Run.Stops`: an action stops the run only for some reasons
* `Run.Failure`: the reasons for which statements stop a run into a text
* `Environment.errors_of_stages`: the main statement
-/

namespace Stencil

namespace Run

variable {α β : Type} {P : Error → Prop}

/-! ## Reasons to stop -/

/-- The action stops the run only for reasons with the property. -/
def Stops (P : Error → Prop) (act : Action Buffer α) : Prop :=
  ∀ s e, (Action.result act s).1 = .error (.error e) → P e

theorem Stops.pure (a : α) : Stops P (pure a) := by
  rintro s e ⟨⟩

theorem Stops.fail {e : Error} (h : P e) : Stops P (fail e : Action Buffer α) := by
  rintro s e ⟨⟩
  exact h

theorem Stops.bind {act : Action Buffer α} {f : α → Action Buffer β} (h : Stops P act)
    (hf : ∀ a, Stops P (f a)) : Stops P (act >>= f) := by
  intro s e herror
  rcases result_bind act f s with ⟨a, s', heq, hbind⟩ | ⟨halt, s', heq, hbind⟩
  · rw [hbind] at herror
    exact hf a s' e herror
  · rw [hbind] at herror
    cases herror
    exact h s e (congrArg Prod.fst heq)

theorem Stops.get_bind {f : State Buffer → Action Buffer α} (h : ∀ s, Stops P (f s)) :
    Stops P (get >>= f) :=
  fun s => h s s

theorem Stops.modify (f : State Buffer → State Buffer) :
    Stops P (modify f : Action Buffer Unit) := by
  rintro s e ⟨⟩

theorem Stops.ofExcept {result : Except Error α} (h : ∀ e, result = .error e → P e) :
    Stops P (ofExcept result : Action Buffer α) := by
  cases result with
  | ok a => exact .pure a
  | error e => exact .fail (h e rfl)

theorem Stops.repeatWhile {test : Action Buffer Bool} {body : Action Buffer Unit}
    (htest : Stops P test) (hbody : Stops P body) (rounds : Nat) :
    Stops P (repeatWhile test body rounds) := by
  induction rounds with
  | zero => rintro s e ⟨⟩
  | succ rounds ih =>
    refine htest.bind fun holds => ?_
    split
    · exact hbody.bind fun _ => ih
    · exact .pure ()

/-! ## The reasons of statements -/

/-- The variable is mentioned, but it is no value of the context and no name that is always
there. -/
structure Unbound (scene : Scene) (mentioned : List Reference) (name : String) : Prop where
  mentioned : .reads name ∈ mentioned
  context : scene.context.get? name = none
  constant : constant? name = none

/-- Why statements that refer to some things stop a run into a text. -/
inductive Failure (scene : Scene) (mentioned : List Reference) : Error → Prop
  | operation {e : Error} : e.kind = .operation → Failure scene mentioned e
  | fuel : scene.fuel.isSome → Failure scene mentioned .outOfFuel
  | unbound {name : String} : Unbound scene mentioned name → Failure scene mentioned (.unbound name)

theorem kind_of_property {v : Value} {name : String} {e : Error} (h : v.property name = .error e) :
    e.kind = .operation := by
  cases v with
  | undefined | null => cases h; rfl
  | string s => simp only [Value.property] at h; split at h <;> cases h
  | array id items => simp only [Value.property] at h; split at h <;> cases h
  | bool _ | number _ | object _ _ | function _ => cases h

theorem kind_of_loopItems {kind : EachKind} {v : Value} {e : Error}
    (h : loopItems kind v = .error e) : e.kind = .operation := by
  cases kind with
  | keys => cases h
  | values => cases v <;> cases h <;> rfl

variable {scene : Scene} {mentioned : List Reference}

/-- Only a variable that was not found stops at its name. -/
theorem load_stops {name : String} (hmentioned : .reads name ∈ mentioned) :
    Stops (Failure scene mentioned) (load scene name) := by
  refine .get_bind fun s => ?_
  split
  · exact .pure _
  · rename_i hnone
    refine .fail (.unbound ⟨hmentioned, ?_, ?_⟩)
    all_goals
      unfold lookup? at hnone
      split at hnone
      · cases hnone
      · split at hnone
        · cases hnone
        · assumption

theorem assign_stops (name : String) (v : Value) :
    Stops (Failure scene mentioned) (assign name v) := by
  refine .get_bind fun s => ?_
  split
  · exact .fail (.operation rfl)
  · exact .modify _

theorem spend_stops : Stops (Failure scene mentioned) (spend scene) := by
  intro s e herror
  rw [result_spend] at herror
  by_cases hexhausted : scene.exhausted s.spent = true
  · rw [if_pos hexhausted] at herror
    cases herror
    exact .fuel (isSome_fuel_of_exhausted hexhausted)
  · rw [if_neg hexhausted] at herror
    cases herror

section

variable (hhost : ∀ f arguments fresh e, scene.host f arguments fresh = .error e →
  e.kind = .operation)
include hhost

theorem invoke_stops (f : Function) (arguments : List Value) :
    Stops (Failure scene mentioned) (invoke scene f arguments) := by
  refine (Stops.modify _).bind fun _ => Stops.bind ?_ fun fresh => .ofExcept fun e he => ?_
  · exact .get_bind fun _ => (Stops.modify _).bind fun _ => .pure _
  · cases f with
    | escaper => cases he
    | host id name => exact .operation (hhost _ _ _ _ he)

/-- Expressions stop a run for the reasons given. -/
theorem evaluation_stops :
    Evaluation scene scene (· ∈ mentioned) fun act (_ : Action Buffer _) =>
      Stops (Failure scene mentioned) act where
  pure := .pure
  bind h hf := h.bind hf
  context _ := rfl
  load _ := load_stops
  typeOf name _ := by
    rw [eval]
    exact .get_bind fun _ => .pure _
  assign name v _ := assign_stops name v
  property _ _ := .ofExcept fun _ he => .operation (kind_of_property he)
  notCallable _ := .fail (.operation rfl)
  freshRef := .get_bind fun _ => (Stops.modify _).bind fun _ => .pure _
  invoke := invoke_stops hhost

/-- Statements stop a run into a text for the reasons given. Nothing that is written does. -/
theorem execution_stops :
    Execution scene scene (· ∈ mentioned) (fun _ => True) id
      (fun act (_ : Action Buffer _) => Stops (Failure scene mentioned) act)
      fun act (_ : Action Buffer _) => Stops (Failure scene mentioned) act where
  evaluation := evaluation_stops hhost
  declare _ _ _ _ := .modify _
  rebind name v _ := assign_stops name v
  items _ _ := .ofExcept fun _ he => .operation (kind_of_loopItems he)
  evaluated h := h
  spend := spend_stops
  literal text _ s e herror := by
    rw [result_write_buffer] at herror
    cases herror
  emit v s e herror := by
    rw [result_emit_buffer] at herror
    cases herror
  bind h hf := h.bind hf
  loop htest hbody := htest.repeatWhile (spend_stops.bind fun _ => hbody) _

/-- Why a run into a text stops. -/
theorem run_stops {body : List Stmt} {e : Error}
    (h : (run scene body ({} : Buffer)).1 = .error (.error e)) :
    Failure scene (Stmt.referencesOfAll body) e :=
  (execution_stops hhost).execAll (fun _ hr => hr) (fun _ _ => trivial) { sink := {} } e h

end

end Run

/-! ## Both stages -/

theorem not_mem_of_constant? {name : String} (h : Run.constant? name = none) :
    name ∉ ["undefined", "NaN", "Infinity"] := by
  unfold Run.constant? at h
  split at h
  · cases h
  split at h
  · cases h
  split at h
  · cases h
  simp [*]

theorem Environment.fuel_of_units {env : Environment} (h : env.units.isSome) : env.fuel.isSome := by
  rwa [units, Option.isSome_map] at h

theorem Environment.environment_of_compile {env : Environment} {source : String} {t : Template}
    (h : env.compile source = .ok t) : t.environment = env := by
  obtain ⟨body, -, ht⟩ := Except.bind_eq_ok_iff.1 h
  cases ht
  rfl

/-- **Errors belong to their stage.** A source is rejected because it is malformed, or for an escape
in a quoted text with a backslash in it. A run into a text with functions that fail only for invalid
operations fails for an invalid operation, for a lack of fuel if there is a limit, or because a
variable that the template mentions is not in the context with the escaper, and is no constant. -/
theorem Environment.errors_of_stages (env : Environment) (source : String) (host : Host)
    (hhost : ∀ f arguments fresh e, host f arguments fresh = .error e → e.kind = .operation) :
    (∀ e, env.compile source = .error e →
      e.kind = .malformed ∨ e.kind = .escape ∧ ∃ interior body,
        .fragment interior ∈ Source.segments (Source.normalizeString source).toList ∧
          Lexer.Quotes interior body ∧ '\\' ∈ body) ∧
    ∀ t, env.compile source = .ok t → ∀ rounds c e,
      (t.render host rounds c).1 = .error (.error e) →
        e.kind = .operation ∨ e.kind = .fuel ∧ env.fuel.isSome ∨
          ∃ name, e = .unbound name ∧ .reads name ∈ Stmt.referencesOfAll t.body ∧
            c.withEscaper.get? name = none ∧ name ∉ ["undefined", "NaN", "Infinity"] := by
  refine ⟨fun e he => ?rejected, fun t ht rounds c e he => ?stopped⟩
  case rejected =>
    refine (env.compile_rejects source e he).imp_right ?_
    rintro ⟨interior, body, hinterior, hquotes, hbad⟩
    exact ⟨hbad.kind, interior, body, hinterior, hquotes, hbad.backslash⟩
  case stopped =>
    have hrun : (t.run host rounds c.withEscaper ({} : Buffer)).1 = .error (.error e) := by
      unfold Template.render at he
      cases hrun : (t.run host rounds c.withEscaper ({} : Buffer)).1 with
      | ok a => simp only [hrun, Except.map] at he; cases he
      | error halt => simp only [hrun, Except.map] at he; cases he; rfl
    have hfailure : Run.Failure ⟨c.withEscaper, host, t.environment.units, rounds⟩
        (Stmt.referencesOfAll t.body) e := Run.run_stops hhost hrun
    cases hfailure with
    | operation hkind => exact .inl hkind
    | fuel hfuel =>
      refine .inr (.inl ⟨rfl, ?_⟩)
      rw [← env.environment_of_compile ht]
      exact Environment.fuel_of_units hfuel
    | @unbound name hunbound =>
      exact .inr (.inr ⟨name, rfl, hunbound.mentioned, hunbound.context,
        not_mem_of_constant? hunbound.constant⟩)

/-- A host whose functions all fail. -/
def failingHost : Host :=
  fun _ _ _ => .error (.host .operation none)

/-- An operator that asks for no value, and an update that does. -/
theorem compile_typeOfUpdate :
    ({} : Environment).compile "<% typeof y %><% y++ %>" =
      .ok { source := "<% typeof y %><% y++ %>", environment := {},
            body := [.emit (.unary .typeOf (.var "y")), .emit (.update "y" .up .after)] } := by
  have htypeOf : Lexer.tokens "typeof y".toList = .ok [.name "typeof", .name "y"] := by
    decide +kernel
  have hupdate : Lexer.tokens "y++".toList = .ok [.name "y", .mark .increment] := by
    decide +kernel
  have hvar : Derives 9 (.var "y") [.name "y"] := .leaf (.var (by decide))
  have hreadTypeOf : Reader.standalone [.name "typeof", .name "y"] =
      .ok (.unary .typeOf (.var "y")) :=
    (Reader.standalone_of_derives
      ((@Derives.unary .typeOf _ _ (hvar.of_le (by decide))).of_le (Nat.zero_le 7))).2 (by decide)
  have hreadUpdate : Reader.standalone [.name "y", .mark .increment] =
      .ok (.update "y" .up .after) :=
    (Reader.standalone_of_derives
      ((@Derives.after "y" .up _ hvar).of_le (Nat.zero_le 8))).2 (by decide)
  have hvalid := List.forall_mem_cons.2
    ⟨Source.Stretch.valid_of_interior ⟨by decide, by decide, rfl⟩
        (Step.ofInterior_expr htypeOf rfl hreadTypeOf),
      List.forall_mem_singleton.2 (Source.Stretch.valid_of_interior ⟨by decide, by decide, rfl⟩
        (Step.ofInterior_expr hupdate rfl hreadUpdate))⟩
  have htext : String.ofList (List.flatMap Source.Stretch.text
      [⟨[], "typeof y".toList, .expr (.unary .typeOf (.var "y"))⟩,
        ⟨[], "y++".toList, .expr (.update "y" .up .after)⟩]) = "<% typeof y %><% y++ %>" := by
    rw [← String.toList_inj, String.toList_ofList]
    rfl
  have hcompile := Environment.compile_stretches {} hvalid rfl
  rwa [htext] at hcompile

theorem compile_badEscape :
    ({} : Environment).compile "<% '\\x' %>" = .error .escape := by
  have hnormal : Source.normalizeString "<% '\\x' %>" = "<% '\\x' %>" := by
    rw [← String.toList_inj, Source.toList_normalizeString]
    decide +kernel
  have hsegments : Source.segments "<% '\\x' %>".toList = [.fragment "'\\x'".toList] := by
    decide +kernel
  have htokens : Lexer.tokens "'\\x'".toList = .error .escape := by decide +kernel
  rw [Environment.compile, hnormal, statements, Step.ofSource, hsegments, List.mapM_cons,
    Step.ofSegment, Step.ofInterior, htokens]
  rfl

/-- The update of a variable that is not there stops the run, though its type was asked for before.
An escape that is cut off is found before anything is run. -/
theorem errors_of_stages_update :
    (∃ t, ({} : Environment).compile "<% typeof y %><% y++ %>" = .ok t ∧
      (t.render failingHost 0 {}).1 = .error (.error (.unbound "y")) ∧
      .reads "y" ∈ Stmt.referencesOfAll t.body ∧
      Context.get? (Context.withEscaper {}) "y" = none) ∧
    ∃ e, ({} : Environment).compile "<% '\\x' %>" = .error e ∧ e.kind = .escape ∧
      ∃ interior body, .fragment interior ∈
          Source.segments (Source.normalizeString "<% '\\x' %>").toList ∧
        Lexer.Quotes interior body ∧ '\\' ∈ body := by
  have hhost : ∀ f arguments fresh e, failingHost f arguments fresh = .error e →
      e.kind = .operation := by
    rintro f arguments fresh e ⟨⟩
    rfl
  obtain ⟨-, hstopped⟩ :=
    Environment.errors_of_stages {} "<% typeof y %><% y++ %>" failingHost hhost
  obtain ⟨hrejected, -⟩ := Environment.errors_of_stages {} "<% '\\x' %>" failingHost hhost
  constructor
  · refine ⟨_, compile_typeOfUpdate, rfl, ?_⟩
    rcases hstopped _ compile_typeOfUpdate 0 {} _ rfl with hkind | ⟨hkind, -⟩ |
      ⟨name, hname, hmentioned, hcontext, -⟩
    · cases hkind
    · cases hkind
    · cases hname
      exact ⟨hmentioned, hcontext⟩
  · rcases hrejected _ compile_badEscape with hkind | hescape
    · cases hkind
    · exact ⟨_, compile_badEscape, hescape⟩

end Stencil
