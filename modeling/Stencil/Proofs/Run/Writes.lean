import Stencil.Proofs.Run.Locals

/-!
# Assignments that a run gets to

A run gets from a part of a template to the parts inside it, and there to assignments. What stops
the run in an inner part stops it in the outer one, and so the first assignment to a constant ends
the run.

* `Expr.operands`, `Expr.assigned?`: what is evaluated before an expression assigns, and what it
  assigns then
* `Run.Enters`: a run of a part gets to a part directly inside it
* `Run.Reaches`: a run of a part gets to an assignment
* `Run.Enters.stops`, `Run.Enters.spares`: what an inner part and the outer one share
* `Run.Part.locals_act`: the main statement
-/

namespace Stencil

/-! ## Expressions that assign -/

/-- The expressions that are evaluated first, in this order, whatever their values are. -/
def Expr.operands : Expr → List Expr
  | .var _ | .this | .const _ | .unary .typeOf (.var _) => []
  | .list items => items
  | .attr target _ => [target]
  | .item target key => [target, key]
  | .call callee arguments => callee :: arguments
  | .unary _ operand => [operand]
  | .binary (.logic _) left _ => [left]
  | .binary _ left right => [left, right]
  | .cond test _ _ => [test]
  | .assign _ none value => [value]
  | .assign name (some _) value => [.var name, value]
  | .update name _ _ => [.var name]

/-- The variable that an expression assigns to once its operands have some values, and the value
that it assigns. -/
def Expr.assigned? : Expr → List Value → Option (String × Value)
  | .assign name none _, [v] => some (name, v)
  | .assign name (some op) _, [current, v] => some (name, op.apply current v)
  | .update name tick _, [old] => some (name, .number (tick.apply old.toNumber))
  | _, _ => none

theorem Expr.mem_referencesOfAll {items : List Expr} {r : Reference} :
    r ∈ Expr.referencesOfAll items ↔ ∃ e ∈ items, r ∈ e.references := by
  induction items with
  | nil => simp [Expr.referencesOfAll]
  | cons e rest ih => simp [Expr.referencesOfAll, ih]

/-- An expression refers to what its operands refer to. -/
theorem Expr.references_operands {e e' : Expr} (h : e' ∈ e.operands) :
    ∀ r ∈ e'.references, r ∈ e.references := by
  intro r hr
  cases e with
  | var | this | const => cases h
  | list items => exact Expr.mem_referencesOfAll.2 ⟨e', h, hr⟩
  | attr target name =>
    cases List.mem_singleton.1 h
    exact hr
  | item target key =>
    have hpair : e' = target ∨ e' = key := by simpa [Expr.operands] using h
    rcases hpair with rfl | rfl
    · exact List.mem_append_left _ hr
    · exact List.mem_append_right _ hr
  | call callee arguments =>
    rcases List.mem_cons.1 h with rfl | h
    · exact List.mem_append_left _ hr
    · exact List.mem_append_right _ (Expr.mem_referencesOfAll.2 ⟨e', h, hr⟩)
  | unary op operand =>
    have hoperand : e' = operand := by
      unfold Expr.operands at h
      split at h <;> simp_all
    exact hoperand ▸ hr
  | binary op left right =>
    have hpair : e' = left ∨ e' = right := by
      unfold Expr.operands at h
      split at h <;> simp_all
    rcases hpair with rfl | rfl
    · exact List.mem_append_left _ hr
    · exact List.mem_append_right _ hr
  | cond test whenTrue whenFalse =>
    cases List.mem_singleton.1 h
    exact List.mem_append_left _ hr
  | assign name op value =>
    cases op with
    | none =>
      cases List.mem_singleton.1 h
      exact .tail _ hr
    | some op =>
      have hpair : e' = .var name ∨ e' = value := by simpa [Expr.operands] using h
      rcases hpair with rfl | rfl
      · cases List.mem_singleton.1 hr
        exact .head _
      · exact .tail _ (.tail _ hr)
  | update name tick side =>
    cases List.mem_singleton.1 h
    cases List.mem_singleton.1 hr
    exact .head _

theorem Stmt.referencesOfAll_append (body body' : List Stmt) :
    Stmt.referencesOfAll (body ++ body') =
      Stmt.referencesOfAll body ++ Stmt.referencesOfAll body' := by
  induction body with
  | nil => rfl
  | cons st rest ih => simp [Stmt.referencesOfAll, ih]

namespace Run

variable {σ α β : Type}

/-! ## Results of actions in order -/

theorem result_bind_eq_ok {act : Action σ α} {f : α → Action σ β} {s s' : State σ} {b : β}
    (h : Action.result (act >>= f) s = (.ok b, s')) :
    ∃ a s₁, Action.result act s = (.ok a, s₁) ∧ Action.result (f a) s₁ = (.ok b, s') := by
  rcases result_bind act f s with ⟨a, s₁, heq, hbind⟩ | ⟨halt, s₁, -, hbind⟩
  · exact ⟨a, s₁, heq, hbind ▸ h⟩
  · rw [hbind] at h
    cases h

theorem result_perform_error {scene : Scene} {e : Expr} {s s' : State σ} {halt : Halt} :
    Action.result (perform scene (some e)) s = (.error halt, s') ↔
      Action.result (eval scene e) s = (.error halt, s') := by
  refine ⟨fun h => ?_, fun h => result_bind_error h _⟩
  rcases result_bind (eval scene e) (fun _ => pure ()) s with
    ⟨v, s₁, -, hbind⟩ | ⟨halt', s₁, heq, hbind⟩
  · cases hbind.symm.trans h
  · cases hbind.symm.trans h
    exact heq

/-- The second action stops the run wherever the first one does. -/
def Forwards (act : Action σ α) (act' : Action σ β) : Prop :=
  ∀ s halt s', Action.result act s = (.error halt, s') → Action.result act' s = (.error halt, s')

theorem Forwards.pure (a : α) (act : Action σ β) : Forwards (pure a) act := by
  rintro s halt s' ⟨⟩

theorem Forwards.first (act : Action σ α) (f : α → Action σ β) : Forwards act (act >>= f) :=
  fun _ _ _ h => result_bind_error h f

theorem Forwards.bind {γ : Type} (act : Action σ α) {f : α → Action σ β} {g : α → Action σ γ}
    (h : ∀ a, Forwards (f a) (g a)) : Forwards (act >>= f) (act >>= g) := by
  intro s halt s' herror
  rcases result_bind act f s with ⟨a, s₁, heq, hbind⟩ | ⟨halt', s₁, heq, hbind⟩
  · rw [hbind] at herror
    rw [result_bind_ok heq]
    exact h a s₁ halt s' herror
  · rw [hbind] at herror
    cases herror
    exact result_bind_error heq g

theorem Forwards.of_map {γ : Type} {act : Action σ α} {act' : Action σ γ} (h : Forwards act act')
    (k : α → β) : Forwards (act >>= fun a => Pure.pure (k a)) act' := by
  intro s halt s' herror
  rcases result_bind act (fun a => Pure.pure (k a)) s with
    ⟨a, s₁, -, hbind⟩ | ⟨halt', s₁, heq, hbind⟩
  · rw [hbind] at herror
    cases herror
  · rw [hbind] at herror
    cases herror
    exact h s halt s' heq

/-! ## Operands -/

section

variable {scene : Scene}

theorem evalAll_nil_forwards (act : Action σ α) : Forwards (evalAll scene []) act := by
  rw [evalAll]
  exact .pure [] act

theorem evalAll_cons_forwards {e : Expr} {rest : List Expr} {f : Value → Action σ α}
    (h : ∀ v, Forwards (evalAll scene rest) (f v)) :
    Forwards (evalAll scene (e :: rest)) (eval scene e >>= f) := by
  rw [evalAll]
  exact .bind _ fun v => (h v).of_map _

/-- A call of a property looks it up between the target and the arguments. -/
theorem call_forwards (callee : Expr) (arguments : List Expr) :
    Forwards (evalAll scene (callee :: arguments))
      (eval scene (.call callee arguments) : Action σ Value) := by
  cases callee with
  | attr target name =>
    have hcallee : (eval scene (.attr target name) : Action σ Value) =
        (do let v ← eval scene target; ofExcept (v.property name)) := by rw [eval]
    rw [evalAll, hcallee, bind_assoc, eval]
    exact .bind _ fun v => .bind _ fun property => (Forwards.first _ _).of_map _
  | item target key =>
    have hcallee : (eval scene (.item target key) : Action σ Value) = (do
        let v ← eval scene target
        let k ← eval scene key
        ofExcept (v.property k.text)) := by rw [eval]
    rw [evalAll, hcallee, bind_assoc, eval]
    refine .bind _ fun v => ?_
    rw [bind_assoc]
    exact .bind _ fun k => .bind _ fun property => (Forwards.first _ _).of_map _
  | _ =>
    rw [eval]
    · exact evalAll_cons_forwards fun f => .first _ _
    all_goals rintro _ _ ⟨⟩

/-- An expression stops where its operands do. -/
theorem operands_forwards (e : Expr) :
    Forwards (evalAll scene e.operands) (eval scene e : Action σ Value) := by
  cases e with
  | var | this | const => exact evalAll_nil_forwards _
  | list items =>
    rw [eval]
    exact .first _ _
  | attr target name =>
    rw [eval]
    exact evalAll_cons_forwards fun v => evalAll_nil_forwards _
  | item target key =>
    rw [eval]
    exact evalAll_cons_forwards fun v => evalAll_cons_forwards fun k => evalAll_nil_forwards _
  | call callee arguments => exact call_forwards callee arguments
  | unary op operand =>
    by_cases htypeOf : op = .typeOf ∧ ∃ name, operand = .var name
    · obtain ⟨rfl, name, rfl⟩ := htypeOf
      exact evalAll_nil_forwards _
    · have hne : ∀ name, op = .typeOf → operand ≠ .var name :=
        fun name hop hname => htypeOf ⟨hop, name, hname⟩
      rw [Expr.operands, eval]
      · exact evalAll_cons_forwards fun v => evalAll_nil_forwards _
      all_goals exact hne
  | binary op left right =>
    rw [eval]
    rcases op with op | op | op
    · exact evalAll_cons_forwards fun a => evalAll_cons_forwards fun b => evalAll_nil_forwards _
    · exact evalAll_cons_forwards fun a => evalAll_cons_forwards fun b => evalAll_nil_forwards _
    · exact evalAll_cons_forwards fun a => evalAll_nil_forwards _
  | cond test whenTrue whenFalse =>
    rw [eval]
    exact evalAll_cons_forwards fun t => evalAll_nil_forwards _
  | assign name op value =>
    cases op with
    | none =>
      rw [eval]
      exact evalAll_cons_forwards fun v => evalAll_nil_forwards _
    | some op =>
      rw [eval]
      exact evalAll_cons_forwards fun current => evalAll_cons_forwards fun v =>
        evalAll_nil_forwards _
  | update name tick side =>
    rw [eval]
    exact evalAll_cons_forwards fun old => evalAll_nil_forwards _

theorem result_evalAll_cons {e : Expr} {rest : List Expr} {s s' : State σ} {v : Value}
    {values : List Value}
    (h : Action.result (evalAll scene (e :: rest)) s = (.ok (v :: values), s')) :
    ∃ s₁, Action.result (eval scene e) s = (.ok v, s₁) ∧
      Action.result (evalAll scene rest) s₁ = (.ok values, s') := by
  rw [evalAll] at h
  obtain ⟨v', s₁, he, h₁⟩ := result_bind_eq_ok h
  obtain ⟨values', s₂, hrest, h₂⟩ := result_bind_eq_ok h₁
  cases h₂
  exact ⟨s₁, he, hrest⟩

theorem result_evalAll_singleton {e : Expr} {s s' : State σ} {v : Value}
    (h : Action.result (evalAll scene [e]) s = (.ok [v], s')) :
    Action.result (eval scene e) s = (.ok v, s') := by
  obtain ⟨s₁, he, hnil⟩ := result_evalAll_cons h
  rw [evalAll] at hnil
  cases hnil
  exact he

/-- An expression that assigns stops where the assignment does. -/
theorem assigned_stops {e : Expr} {values : List Value} {s s' t : State σ} {v : Value}
    {name : String} {halt : Halt}
    (hvalues : Action.result (evalAll scene e.operands) s = (.ok values, s'))
    (hassigned : e.assigned? values = some (name, v))
    (h : Action.result (assign name v) s' = (.error halt, t)) :
    Action.result (eval scene e) s = (.error halt, t) := by
  unfold Expr.assigned? at hassigned
  split at hassigned
  · cases hassigned
    rw [eval, result_bind_ok (result_evalAll_singleton hvalues)]
    exact result_bind_error h _
  · cases hassigned
    obtain ⟨s₁, hcurrent, hvalue⟩ := result_evalAll_cons hvalues
    rw [eval] at hcurrent
    rw [eval, result_bind_ok hcurrent, result_bind_ok (result_evalAll_singleton hvalue)]
    exact result_bind_error h _
  · cases hassigned
    have hold := result_evalAll_singleton hvalues
    rw [eval] at hold
    rw [eval, result_bind_ok hold]
    exact result_bind_error h _
  · cases hassigned

/-! ## Actions in order -/

theorem evalAll_append (items items' : List Expr) :
    (evalAll scene (items ++ items') : Action σ (List Value)) = (do
      let values ← evalAll scene items
      let values' ← evalAll scene items'
      return values ++ values') := by
  induction items with
  | nil => simp [evalAll]
  | cons e rest ih => simp [evalAll, ih]

theorem declareAll_append (kind : DeclareKind) (items items' : List (String × Option Expr)) :
    (declareAll scene kind (items ++ items') : Action σ Unit) = (do
      declareAll scene kind items
      declareAll scene kind items') := by
  induction items with
  | nil => simp [declareAll]
  | cons item rest ih =>
    obtain ⟨name, _ | e⟩ := item
    · simp [declareAll, ih]
    · simp [declareAll, ih]

theorem execAll_append [Sink σ] (body body' : List Stmt) :
    (execAll scene (body ++ body') : Action σ Unit) = (do
      execAll scene body
      execAll scene body') := by
  induction body with
  | nil => simp [execAll]
  | cons st rest ih => simp [execAll, ih]

end

/-! ## Parts inside parts -/

variable [Sink σ]

/-- A run of a part gets to a part directly inside it, in another state. What comes before the inner
part has given results. -/
inductive Enters (scene : Scene) : Part → State σ → Part → State σ → Prop
  | operand {e e' : Expr} {before after : List Expr} {values : List Value} {s s' : State σ} :
      e.operands = before ++ e' :: after →
      Action.result (evalAll scene before) s = (.ok values, s') →
      Enters scene (.expr e) s (.expr e') s'
  /-- The right operand, if the left one does not decide. -/
  | right {op : LogicOp} {left right : Expr} {a : Value} {s s' : State σ} :
      Action.result (eval scene left) s = (.ok a, s') → op.decides a = false →
      Enters scene (.expr (.binary (.logic op) left right)) s (.expr right) s'
  /-- The expression that the test chooses. -/
  | chosen {test whenTrue whenFalse : Expr} {t : Value} {s s' : State σ} :
      Action.result (eval scene test) s = (.ok t, s') →
      Enters scene (.expr (.cond test whenTrue whenFalse)) s
        (.expr (if t.isTrue then whenTrue else whenFalse)) s'
  /-- The value of a declared variable. -/
  | value {kind : DeclareKind} {before after : List (String × Option Expr)} {name : String}
      {e : Expr} {s s' : State σ} :
      Action.result (declareAll scene kind before) s = (.ok (), s') →
      Enters scene (.declarations kind (before ++ (name, some e) :: after)) s (.expr e) s'
  | emit {e : Expr} {s s' : State σ} :
      Action.result (spend scene) s = (.ok (), s') →
      Enters scene (.stmt (.emit e)) s (.expr e) s'
  | cond {branches : List Branch} {otherwise : List Stmt} {s s' : State σ} :
      Action.result (spend scene) s = (.ok (), s') →
      Enters scene (.stmt (.cond branches otherwise)) s (.choice branches otherwise) s'
  | whileLoop {test : Expr} {body : List Stmt} {s s' : State σ} :
      Action.result (spend scene) s = (.ok (), s') →
      Enters scene (.stmt (.whileLoop test body)) s (.loop (some test) body none scene.rounds) s'
  | declarations {kind : DeclareKind} {items : List (String × Option Expr)}
      {test update : Option Expr} {body : List Stmt} {s s' : State σ} :
      Action.result (spend scene) s = (.ok (), s') →
      Enters scene (.stmt (.forLoop (some (.declare kind items)) test update body)) s
        (.declarations kind items) s'
  | init {e : Expr} {test update : Option Expr} {body : List Stmt} {s s' : State σ} :
      Action.result (spend scene) s = (.ok (), s') →
      Enters scene (.stmt (.forLoop (some (.expr e)) test update body)) s (.expr e) s'
  /-- The rounds of a loop, after its initial part. -/
  | forLoop {init : Option ForInit} {test update : Option Expr} {body : List Stmt}
      {s s₁ s' : State σ} :
      Action.result (spend scene) s = (.ok (), s₁) →
      Action.result (prepare scene init) s₁ = (.ok (), s') →
      Enters scene (.stmt (.forLoop init test update body)) s
        (.loop test body update scene.rounds) s'
  | subject {binding : Binding} {kind : EachKind} {subject : Expr} {body : List Stmt}
      {s s' : State σ} :
      Action.result (spend scene) s = (.ok (), s') →
      Enters scene (.stmt (.forEach binding kind subject body)) s (.expr subject) s'
  /-- The rounds of a loop over the values or keys of its subject. -/
  | forEach {binding : Binding} {kind : EachKind} {subject : Expr} {body : List Stmt} {v : Value}
      {values : List Value} {s s₁ s' : State σ} :
      Action.result (spend scene) s = (.ok (), s₁) →
      Action.result (eval scene subject) s₁ = (.ok v, s') → loopItems kind v = .ok values →
      Enters scene (.stmt (.forEach binding kind subject body)) s (.each binding body values) s'
  | statement {before after : List Stmt} {st : Stmt} {s s' : State σ} :
      Action.result (execAll scene before) s = (.ok (), s') →
      Enters scene (.block (before ++ st :: after)) s (.stmt st) s'
  | test {test : Expr} {body otherwise : List Stmt} {rest : List Branch} {s : State σ} :
      Enters scene (.choice ((test, body) :: rest) otherwise) s (.expr test) s
  | branch {test : Expr} {body otherwise : List Stmt} {rest : List Branch} {s s' : State σ} :
      Action.result (holds scene test) s = (.ok true, s') →
      Enters scene (.choice ((test, body) :: rest) otherwise) s (.block body) s'
  /-- The branches after one whose test does not hold. -/
  | next {test : Expr} {body otherwise : List Stmt} {rest : List Branch} {s s' : State σ} :
      Action.result (holds scene test) s = (.ok false, s') →
      Enters scene (.choice ((test, body) :: rest) otherwise) s (.choice rest otherwise) s'
  | otherwise {otherwise : List Stmt} {s : State σ} :
      Enters scene (.choice [] otherwise) s (.block otherwise) s
  | loopTest {test : Expr} {body : List Stmt} {update : Option Expr} {rounds : Nat}
      {s : State σ} :
      Enters scene (.loop (some test) body update (rounds + 1)) s (.expr test) s
  | loopBody {test update : Option Expr} {body : List Stmt} {rounds : Nat} {s s₁ s' : State σ} :
      Action.result (goesOn scene test) s = (.ok true, s₁) →
      Action.result (spend scene) s₁ = (.ok (), s') →
      Enters scene (.loop test body update (rounds + 1)) s (.block body) s'
  | update {test : Option Expr} {update : Expr} {body : List Stmt} {rounds : Nat}
      {s s₁ s' : State σ} :
      Action.result (goesOn scene test) s = (.ok true, s₁) →
      Action.result (do spend scene; execAll scene body) s₁ = (.ok (), s') →
      Enters scene (.loop test body (some update) (rounds + 1)) s (.expr update) s'
  /-- The rounds after one that was run to its end. -/
  | round {test update : Option Expr} {body : List Stmt} {rounds : Nat} {s s₁ s' : State σ} :
      Action.result (goesOn scene test) s = (.ok true, s₁) →
      Action.result (do spend scene; execAll scene body; perform scene update) s₁ = (.ok (), s') →
      Enters scene (.loop test body update (rounds + 1)) s (.loop test body update rounds) s'
  | eachBody {binding : Binding} {body : List Stmt} {v : Value} {rest : List Value}
      {s s' : State σ} :
      Action.result (do spend scene; bindLoop binding v) s = (.ok (), s') →
      Enters scene (.each binding body (v :: rest)) s (.block body) s'
  | eachNext {binding : Binding} {body : List Stmt} {v : Value} {rest : List Value}
      {s s' : State σ} :
      Action.result (do spend scene; bindLoop binding v; execAll scene body) s = (.ok (), s') →
      Enters scene (.each binding body (v :: rest)) s (.each binding body rest) s'

/-- A run of a part gets to the assignment of a value to a variable, in another state. -/
inductive Reaches (scene : Scene) (name : String) (v : Value) : Part → State σ → State σ → Prop
  /-- The operands of an expression that assigns were evaluated. -/
  | expression {e : Expr} {values : List Value} {s s' : State σ} :
      Action.result (evalAll scene e.operands) s = (.ok values, s') →
      e.assigned? values = some (name, v) → Reaches scene name v (.expr e) s s'
  /-- The variable of a loop is given its next value without a word that declares it. -/
  | binding {body : List Stmt} {rest : List Value} {s s' : State σ} :
      Action.result (spend scene) s = (.ok (), s') →
      Reaches scene name v (.each ⟨none, name⟩ body (v :: rest)) s s'
  | enter {p q : Part} {s s₁ s' : State σ} :
      Enters scene p s q s₁ → Reaches scene name v q s₁ s' → Reaches scene name v p s s'

variable {scene : Scene}

theorem loop_none_eq (test : Expr) (body : List Stmt) (rounds : Nat) :
    ((Part.loop (some test) body none rounds).act scene : Action σ Unit) =
      repeatWhile (holds scene test) (do spend scene; execAll scene body) rounds := by
  simp [Part.act, perform, goesOn]

/-- What stops the run in an inner part stops it in the outer one. -/
theorem Enters.stops {p q : Part} {s s' t : State σ} (h : Enters scene p s q s') {halt : Halt}
    (hq : Action.result (q.act scene) s' = (.error halt, t)) :
    Action.result (p.act scene) s = (.error halt, t) := by
  cases h with
  | @operand e e' before after values _ _ hoperands hbefore =>
    refine result_perform_error.2 (operands_forwards e _ _ _ ?_)
    rw [hoperands, evalAll_append, result_bind_ok hbefore, evalAll]
    exact result_bind_error (result_bind_error (result_perform_error.1 hq) _) _
  | right hleft hdecides =>
    refine result_perform_error.2 ?_
    rw [eval, result_bind_ok hleft]
    simp only [hdecides, Bool.false_eq_true, if_false]
    exact result_perform_error.1 hq
  | @chosen test whenTrue whenFalse t _ _ htest =>
    refine result_perform_error.2 ?_
    have hchosen := result_perform_error.1 hq
    rw [eval, result_bind_ok htest]
    split at hchosen
    · rwa [if_pos ‹_›]
    · rwa [if_neg ‹_›]
  | value hbefore =>
    rw [Part.act, declareAll_append, result_bind_ok hbefore, declareAll]
    exact result_bind_error (result_perform_error.1 hq) _
  | emit hspend =>
    rw [Part.act, exec, result_bind_ok hspend]
    exact result_bind_error (result_perform_error.1 hq) _
  | cond hspend =>
    rw [Part.act, exec, result_bind_ok hspend]
    exact hq
  | whileLoop hspend =>
    rw [Part.act, exec, result_bind_ok hspend, ← loop_none_eq]
    exact hq
  | declarations hspend =>
    rw [Part.act, exec, result_bind_ok hspend]
    exact result_bind_error hq _
  | init hspend =>
    rw [Part.act, exec, result_bind_ok hspend]
    exact result_bind_error hq _
  | forLoop hspend hprepare =>
    rw [Part.act, exec, result_bind_ok hspend, result_bind_ok hprepare]
    exact hq
  | subject hspend =>
    rw [Part.act, exec, result_bind_ok hspend]
    exact result_bind_error (result_perform_error.1 hq) _
  | forEach hspend hsubject hvalues =>
    rw [Part.act, exec, result_bind_ok hspend, result_bind_ok hsubject, hvalues]
    exact hq
  | statement hbefore =>
    rw [Part.act, execAll_append, result_bind_ok hbefore, execAll]
    exact result_bind_error hq _
  | test =>
    rw [Part.act, execBranches]
    exact result_bind_error (result_bind_error (result_perform_error.1 hq) _) _
  | branch htest =>
    rw [Part.act, execBranches, result_bind_ok htest]
    exact hq
  | next htest =>
    rw [Part.act, execBranches, result_bind_ok htest]
    exact hq
  | otherwise =>
    rw [Part.act, execBranches]
    exact hq
  | loopTest =>
    rw [Part.act, repeatWhile]
    exact result_bind_error (result_bind_error (result_perform_error.1 hq) _) _
  | loopBody htest hspend =>
    rw [Part.act, repeatWhile, result_bind_ok htest]
    refine result_bind_error ?_ _
    rw [result_bind_ok hspend]
    exact result_bind_error hq _
  | update htest hbody =>
    rw [Part.act, repeatWhile, result_bind_ok htest]
    refine result_bind_error ?_ _
    rw [← bind_assoc, result_bind_ok hbody]
    exact hq
  | round htest hround =>
    rw [Part.act, repeatWhile, result_bind_ok htest, if_pos rfl, result_bind_ok hround]
    exact hq
  | eachBody hbind =>
    rw [Part.act, Run.forEach]
    refine result_bind_error ?_ _
    rw [← bind_assoc, result_bind_ok hbind]
    exact hq
  | eachNext hround =>
    rw [Part.act, Run.forEach, result_bind_ok hround]
    exact hq

/-- A local that the outer part spares is spared by the inner one, and still the same when the run
gets there. -/
theorem Enters.spares {p q : Part} {s s' : State σ} (h : Enters scene p s q s') {name : String}
    {l : Option Local} (hp : ∀ r ∈ p.references, Spares name l r) (hs : s.local? name = l) :
    (∀ r ∈ q.references, Spares name l r) ∧ s'.local? name = l := by
  have hexecution := @execution_keeps σ name l scene _
  have hspend {s₁ s₂ : State σ} (h : Action.result (spend scene) s₁ = (.ok (), s₂))
      (hs : s₁.local? name = l) : s₂.local? name = l := spend_keeps.of_result hs h
  cases h with
  | @operand e e' before after values _ _ hoperands hbefore =>
    have hmem {e₁ : Expr} (h : e₁ ∈ e.operands) : ∀ r ∈ e₁.references, Spares name l r :=
      fun r hr => hp r (Expr.references_operands h r hr)
    refine ⟨hmem (hoperands ▸ List.mem_append_right _ List.mem_cons_self), ?_⟩
    refine Keeps.of_result (hexecution.evaluation.evals.2 before fun r hr => ?_) hs hbefore
    obtain ⟨e₁, he₁, hr⟩ := Expr.mem_referencesOfAll.1 hr
    exact hmem (hoperands ▸ List.mem_append_left _ he₁) r hr
  | right hleft hdecides =>
    obtain ⟨hleft', hright⟩ := List.forall_mem_append.1 hp
    exact ⟨hright, Keeps.of_result (hexecution.evaluation.eval hleft') hs hleft⟩
  | @chosen test whenTrue whenFalse t _ _ htest =>
    obtain ⟨htest', hchoices⟩ := List.forall_mem_append.1 hp
    obtain ⟨htrue, hfalse⟩ := List.forall_mem_append.1 hchoices
    refine ⟨?_, Keeps.of_result (hexecution.evaluation.eval htest') hs htest⟩
    split
    · exact htrue
    · exact hfalse
  | value hbefore =>
    rw [Part.references, ForInit.referencesOf?, List.flatMap_append, List.flatMap_cons] at hp
    obtain ⟨hbefore', hrest⟩ := List.forall_mem_append.1 hp
    obtain ⟨hitem, -⟩ := List.forall_mem_append.1 hrest
    exact ⟨(List.forall_mem_append.1 hitem).1,
      Keeps.of_result (hexecution.declareAll hbefore') hs hbefore⟩
  | emit h => exact ⟨hp, hspend h hs⟩
  | cond h => exact ⟨hp, hspend h hs⟩
  | whileLoop h =>
    refine ⟨?_, hspend h hs⟩
    rwa [Part.references, Expr.referencesOf?, Expr.referencesOf?, List.append_nil]
  | declarations h =>
    exact ⟨(List.forall_mem_append.1 hp).1, hspend h hs⟩
  | init h =>
    exact ⟨(List.forall_mem_append.1 hp).1, hspend h hs⟩
  | forLoop h hprepare =>
    obtain ⟨hinit, hloop⟩ := List.forall_mem_append.1 hp
    exact ⟨hloop, Keeps.of_result (hexecution.prepare hinit) (hspend h hs) hprepare⟩
  | subject h =>
    exact ⟨(List.forall_mem_append.1 hp).1, hspend h hs⟩
  | forEach h hsubject hvalues =>
    obtain ⟨hsubject', heach⟩ := List.forall_mem_append.1 hp
    exact ⟨heach, Keeps.of_result (hexecution.evaluation.eval hsubject') (hspend h hs) hsubject⟩
  | statement hbefore =>
    rw [Part.references, Stmt.referencesOfAll_append, Stmt.referencesOfAll] at hp
    obtain ⟨hbefore', hrest⟩ := List.forall_mem_append.1 hp
    exact ⟨(List.forall_mem_append.1 hrest).1, (body_keeps hbefore').of_result hs hbefore⟩
  | test =>
    obtain ⟨hbranches, -⟩ := List.forall_mem_append.1 hp
    exact ⟨(List.forall_mem_append.1 hbranches).1, hs⟩
  | branch htest =>
    obtain ⟨hbranches, -⟩ := List.forall_mem_append.1 hp
    obtain ⟨htest', hrest⟩ := List.forall_mem_append.1 hbranches
    exact ⟨(List.forall_mem_append.1 hrest).1, Keeps.of_result (hexecution.holds htest') hs htest⟩
  | next htest =>
    obtain ⟨hbranches, hotherwise⟩ := List.forall_mem_append.1 hp
    obtain ⟨htest', hrest⟩ := List.forall_mem_append.1 hbranches
    exact ⟨List.forall_mem_append.2 ⟨(List.forall_mem_append.1 hrest).2, hotherwise⟩,
      Keeps.of_result (hexecution.holds htest') hs htest⟩
  | otherwise => exact ⟨hp, hs⟩
  | loopTest => exact ⟨(List.forall_mem_append.1 hp).1, hs⟩
  | loopBody htest h =>
    obtain ⟨htest', hround⟩ := List.forall_mem_append.1 hp
    obtain ⟨hbody, -⟩ := List.forall_mem_append.1 hround
    exact ⟨hbody, hspend h (Keeps.of_result (hexecution.goesOn htest') hs htest)⟩
  | update htest hbody =>
    obtain ⟨htest', hround⟩ := List.forall_mem_append.1 hp
    obtain ⟨hbody', hupdate⟩ := List.forall_mem_append.1 hround
    have hs₁ := Keeps.of_result (hexecution.goesOn htest') hs htest
    exact ⟨hupdate, (spend_keeps.bind fun _ => body_keeps hbody').of_result hs₁ hbody⟩
  | round htest hround =>
    obtain ⟨htest', hround'⟩ := List.forall_mem_append.1 hp
    obtain ⟨hbody, hupdate⟩ := List.forall_mem_append.1 hround'
    have hs₁ := Keeps.of_result (hexecution.goesOn htest') hs htest
    refine ⟨hp, Keeps.of_result ?_ hs₁ hround⟩
    exact spend_keeps.bind fun _ => (body_keeps hbody).bind fun _ => hexecution.perform hupdate
  | @eachBody binding body v rest _ _ hbind =>
    obtain ⟨hbinding, hbody⟩ := List.forall_mem_cons.1 hp
    refine ⟨hbody, Keeps.of_result ?_ hs hbind⟩
    exact spend_keeps.bind fun _ => hexecution.bindLoop hbinding v
  | @eachNext binding body v rest _ _ hround =>
    obtain ⟨hbinding, hbody⟩ := List.forall_mem_cons.1 hp
    refine ⟨hp, Keeps.of_result ?_ hs hround⟩
    exact spend_keeps.bind fun _ => (hexecution.bindLoop hbinding v).bind fun _ => body_keeps hbody

/-- **The first assignment to a constant ends the run.** -/
theorem Reaches.stops {p : Part} {name : String} {v w : Value} {s s' : State σ}
    (h : Reaches scene name v p s s')
    (hp : ∀ r ∈ p.references, Spares name (some ⟨w, true⟩) r)
    (hs : s.local? name = some ⟨w, true⟩) :
    Action.result (p.act scene) s = (.error (.error (.constant name)), s') := by
  induction h with
  | @expression e values s s' hvalues hassigned =>
    have hs' : s'.local? name = some ⟨w, true⟩ := by
      refine Keeps.of_result (evaluation_keeps.evals.2 e.operands fun r hr => ?_) hs hvalues
      obtain ⟨e₁, he₁, hr⟩ := Expr.mem_referencesOfAll.1 hr
      exact hp r (Expr.references_operands he₁ r hr)
    exact result_perform_error.2
      (assigned_stops hvalues hassigned (result_assign_constant hs' v))
  | binding hspend =>
    have hs' := spend_keeps.of_result hs hspend
    rw [Part.act, Run.forEach]
    refine result_bind_error ?_ _
    rw [result_bind_ok hspend]
    exact result_bind_error (result_assign_constant hs' v) _
  | enter henters _ ih =>
    obtain ⟨hq, hs₁⟩ := henters.spares hp hs
    exact henters.stops (ih hq hs₁)

/-- **Only what is named changes, and constants only by declarations.** From every state and
however it ends, a statement, an expression or another part leaves the locals alone that it does not
assign to, declare or bind in a loop: whether they are there, their values, and whether they are
constants. A constant that it does not declare keeps its value and stays a constant, and the first
assignment to it that the run gets to ends the run there as an invalid operation. -/
theorem Part.locals_act (scene : Scene) (p : Part) (s : State σ) (name : String) :
    ((∀ r ∈ p.references, r.changed? ≠ some name) →
      (Action.result (p.act scene) s).2.local? name = s.local? name) ∧
    ∀ v, s.local? name = some ⟨v, true⟩ → (∀ r ∈ p.references, r.declared? ≠ some name) →
      (Action.result (p.act scene) s).2.local? name = some ⟨v, true⟩ ∧
        ∀ w s', Reaches scene name w p s s' →
          Action.result (p.act scene) s = (.error (.error (.constant name)), s') ∧
            (Error.constant name).kind = .operation := by
  constructor
  · intro hchanged
    exact Part.keeps (fun r hr => spares_of_unchanged (hchanged r hr)) s rfl
  · intro v hs hdeclared
    have hspares : ∀ r ∈ p.references, Spares name (some ⟨v, true⟩) r :=
      fun r hr => spares_constant (hdeclared r hr)
    exact ⟨Part.keeps hspares s hs, fun w s' hreaches => ⟨hreaches.stops hspares hs, rfl⟩⟩

/-- A branch with a loop that assigns the items of a list to a variable. -/
def rebinding : Stmt :=
  .cond [(.var "x", [.forEach ⟨none, "c"⟩ .values (.list [.var "x"]) []])] []

/-- A scene without a context and without a limit on fuel. -/
def plainScene : Scene :=
  { context := {}, host := fun _ _ _ => .ok .undefined, fuel := none, rounds := 0 }

/-- A state with a constant and with a variable. -/
def constantAndVariable : State Buffer :=
  { locals := [("c", ⟨.string "a", true⟩), ("x", ⟨.string "b", false⟩)], sink := {} }

/-- The loop gets to the assignment of the first item, which ends the run. -/
theorem Part.locals_act_rebinding :
    (Action.result (exec plainScene rebinding) constantAndVariable).1 =
        .error (.error (.constant "c")) ∧
      (Action.result (exec plainScene rebinding) constantAndVariable).2.local? "c" =
        some ⟨.string "a", true⟩ ∧
      (Action.result (exec plainScene rebinding) constantAndVariable).2.local? "x" =
        some ⟨.string "b", false⟩ := by
  have hunchanged : ∀ r ∈ (Part.stmt rebinding).references, r.changed? ≠ some "x" := by decide
  have hundeclared : ∀ r ∈ (Part.stmt rebinding).references, r.declared? ≠ some "c" := by decide
  obtain ⟨hx, -⟩ := Part.locals_act plainScene (.stmt rebinding) constantAndVariable "x"
  obtain ⟨-, hc⟩ := Part.locals_act plainScene (.stmt rebinding) constantAndVariable "c"
  obtain ⟨hkept, hended⟩ := hc (.string "a") rfl hundeclared
  have hreaches : ∃ s',
      Reaches plainScene "c" (.string "b") (.stmt rebinding) constantAndVariable s' :=
    ⟨_, .enter (.cond rfl) (.enter (.branch rfl) (.enter (@Enters.statement _ _ _ [] [] _ _ _ rfl)
      (.enter (.forEach rfl rfl rfl) (.binding rfl))))⟩
  obtain ⟨s', hs'⟩ := hreaches
  exact ⟨congrArg Prod.fst (hended _ _ hs').1, hkept, hx hunchanged⟩

end Run

end Stencil
