import Stencil.Run.Eval

/-!
# Relations that expressions keep

Two evaluations of an expression, in scenes that may differ, are related if what they do with the
variables that it refers to is.

* `Reference`, `Expr.references`: what an expression refers to
* `Run.Evaluation`: a relation between actions that evaluation keeps
* `Run.Evaluation.eval`: the main statement
-/

namespace Stencil

/-! ## What an expression refers to -/

/-- What an expression or a statement refers to. -/
inductive Reference where
  /-- The context as an object. -/
  | this
  /-- The value of a variable. -/
  | reads (name : String)
  /-- A variable that is assigned to, or counted up or down. -/
  | assigns (name : String)
  /-- A variable that is declared or that a loop gives its values. Without a word the loop assigns
  to it. -/
  | binds (kind : Option DeclareKind) (name : String)
  deriving DecidableEq, Repr

mutual

/-- What an expression refers to. -/
def Expr.references : Expr → List Reference
  | .var name => [.reads name]
  | .this => [.this]
  | .const _ => []
  | .list items => Expr.referencesOfAll items
  | .attr target _ => target.references
  | .item target key => target.references ++ key.references
  | .call callee arguments => callee.references ++ Expr.referencesOfAll arguments
  | .unary _ operand => operand.references
  | .binary _ left right => left.references ++ right.references
  | .cond test whenTrue whenFalse =>
    test.references ++ (whenTrue.references ++ whenFalse.references)
  | .assign name none value => .assigns name :: value.references
  | .assign name (some _) value => .reads name :: .assigns name :: value.references
  | .update name _ _ => [.reads name, .assigns name]

/-- What some expressions refer to. -/
def Expr.referencesOfAll : List Expr → List Reference
  | [] => []
  | e :: rest => e.references ++ Expr.referencesOfAll rest

end

namespace Run

variable {σ σ' : Type}

/-! ## Relations -/

/-- A relation between the actions of two runs. Evaluation keeps it if no more is referred to than
what is allowed. -/
structure Evaluation (scene scene' : Scene) (Allowed : Reference → Prop)
    (R : ∀ {α : Type}, Action σ α → Action σ' α → Prop) : Prop where
  pure : ∀ {α : Type} (a : α), R (pure a) (pure a)
  bind : ∀ {α β : Type} {act : Action σ α} {act' : Action σ' α} {f : α → Action σ β}
    {f' : α → Action σ' β}, R act act' → (∀ a, R (f a) (f' a)) → R (act >>= f) (act' >>= f')
  context : Allowed .this → scene.context = scene'.context
  load : ∀ name, Allowed (.reads name) → R (load scene name) (load scene' name)
  typeOf : ∀ name, Allowed (.reads name) →
    R (eval scene (.unary .typeOf (.var name))) (eval scene' (.unary .typeOf (.var name)))
  assign : ∀ name v, Allowed (.assigns name) → R (assign name v) (assign name v)
  property : ∀ (v : Value) name, R (ofExcept (v.property name)) (ofExcept (v.property name))
  notCallable : ∀ callee : Expr, R (fail (.notCallable callee.calleeText) : Action σ Value)
    (fail (.notCallable callee.calleeText))
  freshRef : R freshRef freshRef
  invoke : ∀ f arguments, R (invoke scene f arguments) (invoke scene' f arguments)

namespace Evaluation

variable {scene scene' : Scene} {Allowed : Reference → Prop}
  {R : ∀ {α : Type}, Action σ α → Action σ' α → Prop}

theorem invokeValue (h : Evaluation scene scene' Allowed R) (callee : Expr) (f : Value)
    (arguments : List Value) :
    R (invokeValue scene callee f arguments) (invokeValue scene' callee f arguments) := by
  unfold Run.invokeValue
  split
  · exact h.invoke _ _
  · exact h.notCallable callee

theorem invokeMethod (h : Evaluation scene scene' Allowed R) (callee : Expr)
    (target property : Value) (name : String) (arguments : List Value) :
    R (invokeMethod scene callee target property name arguments)
      (invokeMethod scene' callee target property name arguments) := by
  unfold Run.invokeMethod
  split
  · exact h.invoke _ _
  · refine h.bind h.freshRef fun _ => ?_
    split
    · exact h.pure _
    · exact h.notCallable callee

/-- Expressions keep the relation. -/
theorem evals (h : Evaluation scene scene' Allowed R) :
    (∀ e : Expr, (∀ r ∈ e.references, Allowed r) → R (Run.eval scene e) (Run.eval scene' e)) ∧
      ∀ items : List Expr, (∀ r ∈ Expr.referencesOfAll items, Allowed r) →
        R (evalAll scene items) (evalAll scene' items) := by
  refine eval.mutual_induct _ _ ?var ?this ?const ?list ?attr ?item ?callAttr ?callItem ?call
    ?typeOf ?unary ?binary ?cond ?assign ?compute ?update ?nil ?cons
  case var =>
    intro name hallowed
    rw [eval, eval]
    exact h.load name (hallowed _ (List.mem_singleton_self _))
  case this =>
    intro hallowed
    rw [eval, eval, h.context (hallowed _ (List.mem_singleton_self _))]
    exact h.pure _
  case const =>
    intro v _
    rw [eval, eval]
    exact h.pure v
  case list =>
    intro items ih hallowed
    rw [eval, eval]
    exact h.bind (ih hallowed) fun values => h.bind h.freshRef fun r => h.pure _
  case attr =>
    intro target name ih hallowed
    rw [eval, eval]
    exact h.bind (ih hallowed) fun v => h.property v name
  case item =>
    intro target key ih ihkey hallowed
    obtain ⟨htarget, hkey⟩ := List.forall_mem_append.1 hallowed
    rw [eval, eval]
    exact h.bind (ih htarget) fun v => h.bind (ihkey hkey) fun k => h.property v k.text
  case callAttr =>
    intro target name arguments ih iharguments hallowed
    obtain ⟨htarget, harguments⟩ := List.forall_mem_append.1 hallowed
    rw [eval, eval]
    refine h.bind (ih htarget) fun v => h.bind (h.property v name) fun property => ?_
    exact h.bind (iharguments harguments) fun values => h.invokeMethod _ _ _ _ _
  case callItem =>
    intro target key arguments ih ihkey iharguments hallowed
    obtain ⟨hcallee, harguments⟩ := List.forall_mem_append.1 hallowed
    obtain ⟨htarget, hkey⟩ := List.forall_mem_append.1 hcallee
    rw [eval, eval]
    refine h.bind (ih htarget) fun v => h.bind (ihkey hkey) fun k => ?_
    refine h.bind (h.property v k.text) fun property => ?_
    exact h.bind (iharguments harguments) fun values => h.invokeMethod _ _ _ _ _
  case call =>
    intro callee arguments hattr hitem ih iharguments hallowed
    obtain ⟨hcallee, harguments⟩ := List.forall_mem_append.1 hallowed
    rw [eval, eval]
    · exact h.bind (ih hcallee) fun f => h.bind (iharguments harguments) fun values =>
        h.invokeValue _ _ _
    all_goals assumption
  case typeOf =>
    intro name hallowed
    exact h.typeOf name (hallowed _ (List.mem_singleton_self _))
  case unary =>
    intro op operand hvar ih hallowed
    rw [eval, eval]
    · exact h.bind (ih hallowed) fun v => h.pure _
    all_goals assumption
  case binary =>
    intro op left right ihleft ihright hallowed
    obtain ⟨hleft, hright⟩ := List.forall_mem_append.1 hallowed
    rw [eval, eval]
    refine h.bind (ihleft hleft) fun a => ?_
    cases op with
    | logic op =>
      dsimp only
      split
      · exact h.pure a
      · exact ihright hright
    | arith op => exact h.bind (ihright hright) fun b => h.pure _
    | compare op => exact h.bind (ihright hright) fun b => h.pure _
  case cond =>
    intro test whenTrue whenFalse ihtest ihtrue ihfalse hallowed
    obtain ⟨htest, hbranches⟩ := List.forall_mem_append.1 hallowed
    obtain ⟨htrue, hfalse⟩ := List.forall_mem_append.1 hbranches
    rw [eval, eval]
    refine h.bind (ihtest htest) fun t => ?_
    split
    · exact ihtrue htrue
    · exact ihfalse hfalse
  case assign =>
    intro name value ih hallowed
    obtain ⟨hassign, hvalue⟩ := List.forall_mem_cons.1 hallowed
    rw [eval, eval]
    exact h.bind (ih hvalue) fun v => h.bind (h.assign name v hassign) fun _ => h.pure v
  case compute =>
    intro name op value ih hallowed
    obtain ⟨hread, hrest⟩ := List.forall_mem_cons.1 hallowed
    obtain ⟨hassign, hvalue⟩ := List.forall_mem_cons.1 hrest
    rw [eval, eval]
    refine h.bind (h.load name hread) fun current => h.bind (ih hvalue) fun v => ?_
    exact h.bind (h.assign name _ hassign) fun _ => h.pure _
  case update =>
    intro name tick side hallowed
    obtain ⟨hread, hrest⟩ := List.forall_mem_cons.1 hallowed
    rw [eval, eval]
    refine h.bind (h.load name hread) fun old => ?_
    exact h.bind (h.assign name _ (hrest _ (List.mem_singleton_self _))) fun _ => h.pure _
  case nil =>
    intro _
    rw [evalAll, evalAll]
    exact h.pure []
  case cons =>
    intro e rest ih ihrest hallowed
    obtain ⟨he, hrest⟩ := List.forall_mem_append.1 hallowed
    rw [evalAll, evalAll]
    exact h.bind (ih he) fun v => h.bind (ihrest hrest) fun values => h.pure _

theorem eval (h : Evaluation scene scene' Allowed R) {e : Expr}
    (hallowed : ∀ r ∈ e.references, Allowed r) : R (Run.eval scene e) (Run.eval scene' e) :=
  h.evals.1 e hallowed

end Evaluation

end Run

end Stencil
