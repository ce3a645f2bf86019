import Stencil.Proofs.Literals
import Stencil.Proofs.Run.Evaluation
import Stencil.Run.Exec

/-!
# Relations that statements keep

Two runs of the same statements, perhaps with other literal texts and in scenes that may differ, are
related if their actions are: variables, fuel, output, actions in order, and loops.

* `Stmt.references`: what a statement refers to
* `Run.Execution`: a relation between actions that statements keep
* `Run.Execution.execAll`: the main statement
-/

namespace Stencil

/-! ## What statements refer to -/

/-- What an expression refers to, if there is one. -/
def Expr.referencesOf? : Option Expr → List Reference
  | none => []
  | some e => e.references

/-- What the initial part of a loop refers to, if there is one. -/
def ForInit.referencesOf? : Option ForInit → List Reference
  | none => []
  | some (.declare kind items) =>
    items.flatMap fun item => Expr.referencesOf? item.2 ++ [.binds (some kind) item.1]
  | some (.expr e) => e.references

mutual

/-- What a statement refers to. -/
def Stmt.references : Stmt → List Reference
  | .raw _ => []
  | .emit e => e.references
  | .cond branches otherwise =>
    Stmt.referencesOfBranches branches ++ Stmt.referencesOfAll otherwise
  | .whileLoop test body => test.references ++ Stmt.referencesOfAll body
  | .forLoop init test update body =>
    ForInit.referencesOf? init ++
      (Expr.referencesOf? test ++ (Stmt.referencesOfAll body ++ Expr.referencesOf? update))
  | .forEach binding _ subject body =>
    subject.references ++ .binds binding.kind binding.name :: Stmt.referencesOfAll body
termination_by structural s => s

/-- What some statements refer to. -/
def Stmt.referencesOfAll : List Stmt → List Reference
  | [] => []
  | s :: rest => s.references ++ Stmt.referencesOfAll rest
termination_by structural s => s

/-- What some branches refer to. -/
def Stmt.referencesOfBranches : List Branch → List Reference
  | [] => []
  | (test, body) :: rest =>
    test.references ++ (Stmt.referencesOfAll body ++ Stmt.referencesOfBranches rest)
termination_by structural s => s

end

namespace Run

variable {σ σ' : Type}

/-! ## Relations -/

/-- A relation between the actions of two runs, and a stronger one between what they do when they
evaluate something. Statements keep it if they refer to no more than what is allowed and if their
literal texts are all of one kind. In the second run other texts stand in the place of the literal
ones. -/
structure Execution [Sink σ] [Sink σ'] (scene scene' : Scene) (Allowed : Reference → Prop)
    (Literal : String → Prop) (other : String → String)
    (E R : ∀ {α : Type}, Action σ α → Action σ' α → Prop) : Prop where
  evaluation : Evaluation scene scene' Allowed E
  declare : ∀ kind name v, Allowed (.binds (some kind) name) →
    E (declare kind name v) (declare kind name v)
  rebind : ∀ name v, Allowed (.binds none name) → E (assign name v) (assign name v)
  items : ∀ kind v, E (ofExcept (loopItems kind v)) (ofExcept (loopItems kind v))
  evaluated : ∀ {α : Type} {act : Action σ α} {act' : Action σ' α}, E act act' → R act act'
  spend : R (spend scene) (spend scene')
  literal : ∀ text, Literal text → R (write .literal text) (write .literal (other text))
  emit : ∀ v, R (emit v) (emit v)
  bind : ∀ {α β : Type} {act : Action σ α} {act' : Action σ' α} {f : α → Action σ β}
    {f' : α → Action σ' β}, R act act' → (∀ a, R (f a) (f' a)) → R (act >>= f) (act' >>= f')
  loop : ∀ {test : Action σ Bool} {test' : Action σ' Bool} {body : Action σ Unit}
    {body' : Action σ' Unit}, E test test' → R body body' →
    R (repeatWhile test (do Run.spend scene; body) scene.rounds)
      (repeatWhile test' (do Run.spend scene'; body') scene'.rounds)

namespace Execution

variable [Sink σ] [Sink σ'] {scene scene' : Scene} {Allowed : Reference → Prop}
  {Literal : String → Prop} {other : String → String}
  {E R : ∀ {α : Type}, Action σ α → Action σ' α → Prop}

/-! ## Parts of statements -/

theorem holds (h : Execution scene scene' Allowed Literal other E R) {test : Expr}
    (hallowed : ∀ r ∈ test.references, Allowed r) : E (holds scene test) (holds scene' test) :=
  h.evaluation.bind (h.evaluation.eval hallowed) fun _ => h.evaluation.pure _

theorem goesOn (h : Execution scene scene' Allowed Literal other E R) {test : Option Expr}
    (hallowed : ∀ r ∈ Expr.referencesOf? test, Allowed r) :
    E (goesOn scene test) (goesOn scene' test) := by
  cases test with
  | none => exact h.evaluation.pure true
  | some test => exact h.holds hallowed

theorem perform (h : Execution scene scene' Allowed Literal other E R) {e : Option Expr}
    (hallowed : ∀ r ∈ Expr.referencesOf? e, Allowed r) :
    E (perform scene e) (perform scene' e) := by
  cases e with
  | none => exact h.evaluation.pure ()
  | some e => exact h.evaluation.bind (h.evaluation.eval hallowed) fun _ => h.evaluation.pure ()

theorem declareAll (h : Execution scene scene' Allowed Literal other E R) {kind : DeclareKind}
    {items : List (String × Option Expr)}
    (hallowed : ∀ r ∈ ForInit.referencesOf? (some (.declare kind items)), Allowed r) :
    E (declareAll scene kind items) (declareAll scene' kind items) := by
  induction items with
  | nil => exact h.evaluation.pure ()
  | cons item rest ih =>
    obtain ⟨name, value⟩ := item
    obtain ⟨hitem, hrest⟩ := List.forall_mem_append.1 hallowed
    obtain ⟨hvalue, hname⟩ := List.forall_mem_append.1 hitem
    have hdeclare : ∀ v, E (Run.declare kind name v) (Run.declare kind name v) :=
      fun v => h.declare kind name v (hname _ (List.mem_singleton_self _))
    cases value with
    | none => exact h.evaluation.bind (hdeclare none) fun _ => ih hrest
    | some e =>
      exact h.evaluation.bind (h.evaluation.eval hvalue) fun v =>
        h.evaluation.bind (hdeclare (some v)) fun _ => ih hrest

theorem prepare (h : Execution scene scene' Allowed Literal other E R) {init : Option ForInit}
    (hallowed : ∀ r ∈ ForInit.referencesOf? init, Allowed r) :
    E (prepare scene init) (prepare scene' init) := by
  rcases init with _ | ⟨kind, items⟩ | e
  · exact h.evaluation.pure ()
  · exact h.declareAll hallowed
  · exact h.evaluation.bind (h.evaluation.eval hallowed) fun _ => h.evaluation.pure ()

theorem bindLoop (h : Execution scene scene' Allowed Literal other E R) {binding : Binding}
    (hallowed : Allowed (.binds binding.kind binding.name)) (v : Value) :
    E (bindLoop binding v) (bindLoop binding v) := by
  obtain ⟨kind, name⟩ := binding
  cases kind with
  | none => exact h.rebind name v hallowed
  | some kind => exact h.declare kind name (some v) hallowed

theorem forEach (h : Execution scene scene' Allowed Literal other E R)
    {body : Value → Action σ Unit} {body' : Value → Action σ' Unit}
    (hbody : ∀ v, R (body v) (body' v)) (items : List Value) :
    R (forEach body items) (forEach body' items) := by
  induction items with
  | nil => exact h.evaluated (h.evaluation.pure ())
  | cons v rest ih => exact h.bind (hbody v) fun _ => ih

/-! ## Statements -/

/-- Statements keep the relation. -/
theorem execs (h : Execution scene scene' Allowed Literal other E R) :
    (∀ s : Stmt, (∀ r ∈ s.references, Allowed r) → (∀ text ∈ s.literals, Literal text) →
      R (exec scene s) (exec scene' (s.mapLiterals other))) ∧
    (∀ body : List Stmt, (∀ r ∈ Stmt.referencesOfAll body, Allowed r) →
      (∀ text ∈ Stmt.literalsOfAll body, Literal text) →
      R (execAll scene body) (execAll scene' (Stmt.mapLiteralsOfAll other body))) ∧
    ∀ (branches : List Branch) (otherwise : Action σ Unit) (otherwise' : Action σ' Unit),
      (∀ r ∈ Stmt.referencesOfBranches branches, Allowed r) →
      (∀ text ∈ Stmt.literalsOfBranches branches, Literal text) → R otherwise otherwise' →
      R (execBranches scene branches otherwise)
        (execBranches scene' (Stmt.mapLiteralsOfBranches other branches) otherwise') := by
  refine exec.mutual_induct scene _ _ _ ?raw ?emit ?cond ?whileLoop ?forLoop ?forEach ?noBranch
    ?branch ?nil ?cons
  case raw =>
    intro text _ hliteral
    rw [Stmt.mapLiterals, exec, exec]
    exact h.bind h.spend fun _ => h.literal text (hliteral text (List.mem_singleton_self text))
  case emit =>
    intro e hallowed _
    rw [Stmt.mapLiterals, exec, exec]
    exact h.bind h.spend fun _ => h.bind (h.evaluated (h.evaluation.eval hallowed)) fun v =>
      h.emit v
  case cond =>
    intro branches otherwise ihotherwise ihbranches hallowed hliteral
    obtain ⟨hbranches, hotherwise⟩ := List.forall_mem_append.1 hallowed
    obtain ⟨hbranches', hotherwise'⟩ := List.forall_mem_append.1 hliteral
    rw [Stmt.mapLiterals, exec, exec]
    exact h.bind h.spend fun _ =>
      ihbranches _ hbranches hbranches' (ihotherwise hotherwise hotherwise')
  case whileLoop =>
    intro test body ih hallowed hliteral
    obtain ⟨htest, hbody⟩ := List.forall_mem_append.1 hallowed
    rw [Stmt.mapLiterals, exec, exec]
    exact h.bind h.spend fun _ => h.loop (h.holds htest) (ih hbody hliteral)
  case forLoop =>
    intro init test update body ih hallowed hliteral
    obtain ⟨hinit, hrest⟩ := List.forall_mem_append.1 hallowed
    obtain ⟨htest, hround⟩ := List.forall_mem_append.1 hrest
    obtain ⟨hbody, hupdate⟩ := List.forall_mem_append.1 hround
    rw [Stmt.mapLiterals, exec, exec]
    refine h.bind h.spend fun _ => h.bind (h.evaluated (h.prepare hinit)) fun _ => ?_
    exact h.loop (h.goesOn htest)
      (h.bind (ih hbody hliteral) fun _ => h.evaluated (h.perform hupdate))
  case forEach =>
    intro binding kind subject body ih hallowed hliteral
    obtain ⟨hsubject, hrest⟩ := List.forall_mem_append.1 hallowed
    obtain ⟨hbinding, hbody⟩ := List.forall_mem_cons.1 hrest
    rw [Stmt.mapLiterals, exec, exec]
    refine h.bind h.spend fun _ => h.bind (h.evaluated (h.evaluation.eval hsubject)) fun v => ?_
    refine h.bind (h.evaluated (h.items kind v)) fun items => h.forEach (fun v => ?_) items
    exact h.bind h.spend fun _ => h.bind (h.evaluated (h.bindLoop hbinding v)) fun _ =>
      ih hbody hliteral
  case noBranch =>
    intro otherwise otherwise' _ _ hotherwise
    rw [Stmt.mapLiteralsOfBranches, execBranches, execBranches]
    exact hotherwise
  case branch =>
    intro test body rest otherwise ihbody ihrest otherwise' hallowed hliteral hotherwise
    obtain ⟨htest, hbranches⟩ := List.forall_mem_append.1 hallowed
    obtain ⟨hbody, hrest⟩ := List.forall_mem_append.1 hbranches
    obtain ⟨hbody', hrest'⟩ := List.forall_mem_append.1 hliteral
    rw [Stmt.mapLiteralsOfBranches, execBranches, execBranches]
    refine h.bind (h.evaluated (h.holds htest)) fun holds => ?_
    split
    · exact ihbody hbody hbody'
    · exact ihrest otherwise' hrest hrest' hotherwise
  case nil =>
    intro _ _
    rw [Stmt.mapLiteralsOfAll, execAll, execAll]
    exact h.evaluated (h.evaluation.pure ())
  case cons =>
    intro s rest ih ihrest hallowed hliteral
    obtain ⟨hs, hrest⟩ := List.forall_mem_append.1 hallowed
    obtain ⟨hs', hrest'⟩ := List.forall_mem_append.1 hliteral
    rw [Stmt.mapLiteralsOfAll, execAll, execAll]
    exact h.bind (ih hs hs') fun _ => ihrest hrest hrest'

theorem execAll (h : Execution scene scene' Allowed Literal other E R) {body : List Stmt}
    (hallowed : ∀ r ∈ Stmt.referencesOfAll body, Allowed r)
    (hliteral : ∀ text ∈ Stmt.literalsOfAll body, Literal text) :
    R (execAll scene body) (execAll scene' (Stmt.mapLiteralsOfAll other body)) :=
  h.execs.2.1 body hallowed hliteral

/-- Statements keep a relation between runs with the same literal texts. -/
theorem execAll_self (h : Execution scene scene' Allowed Literal id E R) {body : List Stmt}
    (hallowed : ∀ r ∈ Stmt.referencesOfAll body, Allowed r)
    (hliteral : ∀ text ∈ Stmt.literalsOfAll body, Literal text) :
    R (Run.execAll scene body) (Run.execAll scene' body) := by
  have hexec := h.execAll hallowed hliteral
  rwa [Stmt.mapLiteralsOfAll_id] at hexec

end Execution

end Run

end Stencil
