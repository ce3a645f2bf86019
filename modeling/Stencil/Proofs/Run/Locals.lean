import Stencil.Proofs.Run.Fuel

/-!
# Locals that a run leaves alone

A part of a template changes no local but those it names: what it does not assign to, declare or
bind in a loop stays as it is, however the part ends. A constant also survives assignments.

* `Reference.changed?`, `Reference.declared?`: the local that a reference may change, or declares
* `Run.Part`, `Run.Part.act`: the parts that a run gets to, and what they do
* `Run.Keeps`: an action leaves a local as it is
* `Run.Part.keeps`: the main statement
-/

namespace Stencil

/-! ## What a reference may change -/

/-- The local that a reference may change: one that is assigned to, declared or bound by a loop. -/
def Reference.changed? : Reference → Option String
  | .this | .reads _ => none
  | .assigns name | .binds _ name => some name

/-- The local that a reference declares, by `var`, `let` or `const`. -/
def Reference.declared? : Reference → Option String
  | .binds (some _) name => some name
  | .this | .reads _ | .assigns _ | .binds none _ => none

namespace Run

variable {σ α β : Type}

/-- The local under a name, if there is one. -/
def State.local? (s : State σ) (name : String) : Option Local :=
  Fields.get? name s.locals

/-- The reference does not change the local: it is of another name, or the local is a constant that
it does not declare. -/
structure Spares (name : String) (l : Option Local) (r : Reference) : Prop where
  declared : r.declared? ≠ some name
  changed : r.changed? = some name → ∃ v, l = some ⟨v, true⟩

theorem spares_of_unchanged {name : String} {l : Option Local} {r : Reference}
    (h : r.changed? ≠ some name) : Spares name l r where
  declared hdeclared := by
    rcases r with _ | _ | _ | ⟨_ | kind, other⟩ <;> cases hdeclared
    exact h rfl
  changed hchanged := absurd hchanged h

theorem spares_constant {name : String} {v : Value} {r : Reference}
    (h : r.declared? ≠ some name) : Spares name (some ⟨v, true⟩) r :=
  ⟨h, fun _ => ⟨v, rfl⟩⟩

/-! ## Actions that leave a local as it is -/

/-- The action leaves the local under the name as it is, however it ends. -/
def Keeps (name : String) (l : Option Local) (act : Action σ α) : Prop :=
  ∀ s, s.local? name = l → (Action.result act s).2.local? name = l

variable {name : String} {l : Option Local}

theorem Keeps.of_result {act : Action σ α} {s s' : State σ}
    {outcome : Except Halt α} (h : Keeps name l act) (hs : s.local? name = l)
    (hresult : Action.result act s = (outcome, s')) : s'.local? name = l := by
  have hkept := h s hs
  rwa [hresult] at hkept

theorem Keeps.pure (a : α) : Keeps name l (pure a : Action σ α) :=
  fun _ h => h

theorem Keeps.fail (e : Error) : Keeps name l (fail e : Action σ α) :=
  fun _ h => h

theorem Keeps.bind {act : Action σ α} {f : α → Action σ β} (h : Keeps name l act)
    (hf : ∀ a, Keeps name l (f a)) : Keeps name l (act >>= f) :=
  kept_bind h hf

theorem Keeps.get_bind {f : State σ → Action σ α} (h : ∀ s, Keeps name l (f s)) :
    Keeps name l (get >>= f) :=
  fun s hs => h s s hs

theorem Keeps.modify {f : State σ → State σ} (h : ∀ s, (f s).locals = s.locals) :
    Keeps name l (modify f : Action σ Unit) := by
  intro s hs
  show Fields.get? name (f s).locals = l
  rw [h]
  exact hs

theorem Keeps.ofExcept (result : Except Error α) : Keeps name l (ofExcept result : Action σ α) := by
  cases result with
  | ok a => exact .pure a
  | error e => exact .fail e

theorem Keeps.repeatWhile {test : Action σ Bool} {body : Action σ Unit} (htest : Keeps name l test)
    (hbody : Keeps name l body) (rounds : Nat) : Keeps name l (repeatWhile test body rounds) := by
  induction rounds with
  | zero => exact fun _ hs => hs
  | succ rounds ih =>
    refine htest.bind fun holds => ?_
    split
    · exact hbody.bind fun _ => ih
    · exact .pure ()

theorem Keeps.forEach {body : Value → Action σ Unit} (h : ∀ v, Keeps name l (body v))
    (values : List Value) : Keeps name l (forEach body values) := by
  induction values with
  | nil => exact .pure ()
  | cons v rest ih => exact (h v).bind fun _ => ih

/-! ## Variables -/

theorem result_get (s : State σ) : Action.result (get : Action σ (State σ)) s = (.ok s, s) :=
  rfl

/-- A constant is not assigned to. -/
theorem result_assign_constant {s : State σ} {w : Value} (h : s.local? name = some ⟨w, true⟩)
    (v : Value) : Action.result (assign name v) s = (.error (.error (.constant name)), s) := by
  rw [State.local?] at h
  rw [assign, result_bind_ok (result_get s), h]
  rfl

theorem result_assign {s : State σ} (h : ∀ w, s.local? name ≠ some ⟨w, true⟩) (v : Value) :
    Action.result (assign name v) s =
      (.ok (), { s with locals := Fields.insert name ⟨v, false⟩ s.locals }) := by
  rw [assign, result_bind_ok (result_get s)]
  split
  · rename_i w heq
    exact absurd heq (h w)
  · rfl

theorem assign_keeps {other : String} (h : other = name → ∃ w, l = some ⟨w, true⟩) (v : Value) :
    Keeps name l (assign other v : Action σ Unit) := by
  intro s hs
  by_cases hconstant : ∃ w, s.local? other = some ⟨w, true⟩
  · obtain ⟨w, hw⟩ := hconstant
    rw [result_assign_constant hw]
    exact hs
  · rw [result_assign (not_exists.1 hconstant)]
    have hne : name ≠ other := by
      rintro rfl
      obtain ⟨w, rfl⟩ := h rfl
      exact hconstant ⟨w, hs⟩
    exact (Fields.get?_insert_of_ne hne _ _).trans hs

theorem declare_keeps {other : String} (h : other ≠ name) (kind : DeclareKind) (v : Option Value) :
    Keeps name l (declare kind other v : Action σ Unit) := by
  intro s hs
  have hstep : Action.result (declare kind other v) s =
      (.ok (), if v.isNone && kind == .var && Fields.contains other s.locals then s
        else { s with
          locals := Fields.insert other ⟨v.getD .undefined, kind == .const⟩ s.locals }) := rfl
  rw [hstep]
  dsimp only
  split
  · exact hs
  · exact (Fields.get?_insert_of_ne h.symm _ _).trans hs

/-! ## Expressions and statements -/

section

variable {scene : Scene}

theorem load_keeps (other : String) : Keeps name l (load scene other : Action σ Value) := by
  refine .get_bind fun s => ?_
  split
  · exact .pure _
  · exact .fail _

theorem freshRef_keeps : Keeps name l (freshRef : Action σ Ref) := by
  refine .get_bind fun s => Keeps.bind ?_ fun _ => .pure _
  exact .modify fun _ => rfl

theorem invoke_keeps (f : Function) (arguments : List Value) :
    Keeps name l (invoke scene f arguments : Action σ Value) := by
  refine Keeps.bind ?_ fun _ => freshRef_keeps.bind fun _ => .ofExcept _
  exact .modify fun _ => rfl

theorem evaluation_keeps : Evaluation scene scene (Spares name l)
    fun (act : Action σ _) (_ : Action σ _) => Keeps name l act where
  pure := .pure
  bind h hf := h.bind hf
  context _ := rfl
  load other _ := load_keeps other
  typeOf other _ := by
    rw [eval]
    exact .get_bind fun _ => .pure _
  assign _ v hspares := assign_keeps (fun h => hspares.changed (congrArg some h)) v
  property _ _ := .ofExcept _
  notCallable _ := .fail _
  freshRef := freshRef_keeps
  invoke := invoke_keeps

theorem spend_keeps : Keeps name l (spend scene : Action σ Unit) := by
  intro s hs
  rw [result_spend]
  exact hs

variable [Sink σ]

theorem write_keeps (origin : Origin) (text : String) :
    Keeps name l (write origin text : Action σ Unit) := by
  intro s hs
  rw [result_write]
  exact hs

theorem writeAll_keeps (origin : Origin) (texts : List String) :
    Keeps name l (writeAll origin texts : Action σ Unit) := by
  induction texts with
  | nil => exact .pure ()
  | cons text rest ih => exact (write_keeps origin text).bind fun _ => ih

theorem emit_keeps (v : Value) : Keeps name l (emit v : Action σ Unit) := by
  refine Keeps.bind ?_ fun _ => ?_
  · exact .modify fun _ => rfl
  split
  · exact .pure ()
  · exact writeAll_keeps _ _

theorem execution_keeps : Execution scene scene (Spares name l) (fun _ => True) id
    (fun (act : Action σ _) (_ : Action σ _) => Keeps name l act)
    fun (act : Action σ _) (_ : Action σ _) => Keeps name l act where
  evaluation := evaluation_keeps
  declare kind _ v hspares := declare_keeps (fun h => hspares.declared (congrArg some h)) kind v
  rebind _ v hspares := assign_keeps (fun h => hspares.changed (congrArg some h)) v
  items _ _ := .ofExcept _
  evaluated h := h
  spend := spend_keeps
  literal text _ := write_keeps .literal text
  emit := emit_keeps
  bind h hf := h.bind hf
  loop htest hbody := htest.repeatWhile (spend_keeps.bind fun _ => hbody) _

end

/-! ## Parts of a template -/

/-- A part of a template that a run gets to. Of a loop it is what is left of it. -/
inductive Part where
  | expr (e : Expr)
  | declarations (kind : DeclareKind) (items : List (String × Option Expr))
  | stmt (s : Stmt)
  | block (body : List Stmt)
  | choice (branches : List Branch) (otherwise : List Stmt)
  | loop (test : Option Expr) (body : List Stmt) (update : Option Expr) (rounds : Nat)
  | each (binding : Binding) (body : List Stmt) (values : List Value)

/-- What the part refers to. -/
def Part.references : Part → List Reference
  | .expr e => e.references
  | .declarations kind items => ForInit.referencesOf? (some (.declare kind items))
  | .stmt s => s.references
  | .block body => Stmt.referencesOfAll body
  | .choice branches otherwise =>
    Stmt.referencesOfBranches branches ++ Stmt.referencesOfAll otherwise
  | .loop test body update _ =>
    Expr.referencesOf? test ++ (Stmt.referencesOfAll body ++ Expr.referencesOf? update)
  | .each binding body _ => .binds binding.kind binding.name :: Stmt.referencesOfAll body

/-- What the part does. -/
def Part.act [Sink σ] (scene : Scene) : Part → Action σ Unit
  | .expr e => perform scene (some e)
  | .declarations kind items => declareAll scene kind items
  | .stmt s => exec scene s
  | .block body => execAll scene body
  | .choice branches otherwise => execBranches scene branches (execAll scene otherwise)
  | .loop test body update rounds =>
    repeatWhile (goesOn scene test)
      (do spend scene; execAll scene body; perform scene update) rounds
  | .each binding body values =>
    forEach (fun v => do spend scene; bindLoop binding v; execAll scene body) values

variable [Sink σ] {scene : Scene}

theorem body_keeps {body : List Stmt} (h : ∀ r ∈ Stmt.referencesOfAll body, Spares name l r) :
    Keeps name l (execAll scene body : Action σ Unit) :=
  execution_keeps.execAll h fun _ _ => trivial

/-- A part that spares a local leaves it as it is. -/
theorem Part.keeps {p : Part} (h : ∀ r ∈ p.references, Spares name l r) :
    Keeps name l (p.act scene : Action σ Unit) := by
  have hexecution := @execution_keeps σ name l scene _
  cases p with
  | expr e => exact hexecution.perform h
  | declarations kind items => exact hexecution.declareAll h
  | stmt s => exact hexecution.execs.1 s h fun _ _ => trivial
  | block body => exact body_keeps h
  | choice branches otherwise =>
    obtain ⟨hbranches, hotherwise⟩ := List.forall_mem_append.1 h
    exact hexecution.execs.2.2 branches _ (execAll scene otherwise) hbranches
      (fun _ _ => trivial) (body_keeps hotherwise)
  | loop test body update rounds =>
    obtain ⟨htest, hround⟩ := List.forall_mem_append.1 h
    obtain ⟨hbody, hupdate⟩ := List.forall_mem_append.1 hround
    refine (hexecution.goesOn htest).repeatWhile (spend_keeps.bind fun _ => ?_) rounds
    exact (body_keeps hbody).bind fun _ => hexecution.perform hupdate
  | each binding body values =>
    obtain ⟨hbinding, hbody⟩ := List.forall_mem_cons.1 h
    refine Keeps.forEach (fun v => ?_) values
    exact spend_keeps.bind fun _ => (hexecution.bindLoop hbinding v).bind fun _ => body_keeps hbody

end Run

end Stencil
