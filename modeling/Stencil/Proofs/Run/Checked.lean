import Stencil.Proofs.Offsets.Values
import Stencil.Proofs.Operators
import Stencil.Proofs.Run.Quiet

/-!
# Checked runs

A run in which every operation is checked before it is applied. It ends with a fault if one is
applied outside its domain: an operator that may leave out its right operand where both are already
evaluated, a part of a sequence that is not there, or a cut of a text in the middle of a character.

* `BinaryOp.compute?`: the operators that evaluate both of their operands
* `Checked`: what a part of a checked run does
* `eval?`, `exec?`, `run?`: checked evaluation and checked runs
* `Checks`: a checked action does what the action does
* `run?_agrees`: the main statement
-/

namespace Stencil

/-- What an operator computes from both of its operands. The ones that may leave out the right one
are never applied in this way. -/
def BinaryOp.compute? (op : BinaryOp) (left right : Value) : Except Offsets.Fault Value :=
  match op with
  | .arith op => .ok (op.apply left right)
  | .compare op => .ok (.bool (op.apply left right))
  | .logic op => .error (.operator op)

namespace Run

open Offsets (Fault Agrees)

variable {σ α β : Type}

/-! ## Checked actions -/

/-- What a part of a checked run does. -/
abbrev Checked (σ α : Type) := ExceptT Halt (StateT (State σ) (Except Fault)) α

/-- An action in which there is nothing to check. -/
def lift (act : Action σ α) : Checked σ α :=
  fun s => .ok (Action.result act s)

/-- Goes on with the result of a checked operation. -/
def ofChecked (checked : Except Fault α) : Checked σ α :=
  fun s => checked.map fun a => (.ok a, s)

/-! ## Checked evaluation -/

/-- Calls a function. -/
def invoke? (scene : Scene) (f : Function) (arguments : List Value) : Checked σ Value := do
  lift (modify fun s => { s with calls := (f, arguments) :: s.calls })
  let fresh ← lift freshRef
  match f with
  | .escaper => ofChecked (Offsets.escapeValue? (argument arguments 0))
  | .host .. => lift (ofExcept (scene.host f arguments fresh))

/-- Calls the value of an expression. -/
def invokeValue? (scene : Scene) (callee : Expr) (f : Value) (arguments : List Value) :
    Checked σ Value :=
  match f with
  | .function f => invoke? scene f arguments
  | _ => lift (fail (.notCallable callee.calleeText))

/-- Calls a property of a value, or else a built-in method. -/
def invokeMethod? (scene : Scene) (callee : Expr) (target property : Value) (name : String)
    (arguments : List Value) : Checked σ Value := do
  match property with
  | .function f => invoke? scene f arguments
  | _ =>
    match ← ofChecked (Offsets.method? (← lift freshRef) target name arguments) with
    | some v => pure v
    | none => lift (fail (.notCallable callee.calleeText))

mutual

/-- The value of an expression. Every operator with two operands is one that the same checked
operation applies, also where it computes what is assigned. -/
def eval? (scene : Scene) : Expr → Checked σ Value
  | .var name => lift (load scene name)
  | .this => pure scene.context.toValue
  | .const v => pure v
  | .list items => do
    let values ← evalAll? scene items
    return .array (← lift freshRef) values
  | .attr target name => do
    let v ← eval? scene target
    lift (ofExcept (v.property name))
  | .item target key => do
    let v ← eval? scene target
    let k ← eval? scene key
    lift (ofExcept (v.property k.text))
  | .call (.attr target name) arguments => do
    let v ← eval? scene target
    let property ← lift (ofExcept (v.property name))
    let arguments' ← evalAll? scene arguments
    invokeMethod? scene (.attr target name) v property name arguments'
  | .call (.item target key) arguments => do
    let v ← eval? scene target
    let k ← eval? scene key
    let property ← lift (ofExcept (v.property k.text))
    let arguments' ← evalAll? scene arguments
    invokeMethod? scene (.item target key) v property k.text arguments'
  | .call callee arguments => do
    let f ← eval? scene callee
    let arguments' ← evalAll? scene arguments
    invokeValue? scene callee f arguments'
  | .unary .typeOf (.var name) => do
    let s ← lift get
    return .string ((lookup? scene s.locals name).getD .undefined).typeName
  | .unary op operand => do
    let v ← eval? scene operand
    return op.apply v
  | .binary op left right => do
    let a ← eval? scene left
    match op with
    | .logic op => if op.decides a then pure a else eval? scene right
    | op => do
      let b ← eval? scene right
      ofChecked (op.compute? a b)
  | .cond test whenTrue whenFalse => do
    let t ← eval? scene test
    if t.isTrue then eval? scene whenTrue else eval? scene whenFalse
  | .assign name none value => do
    let v ← eval? scene value
    lift (assign name v)
    return v
  | .assign name (some op) value => do
    let current ← lift (load scene name)
    let v ← eval? scene value
    let result ← ofChecked (op.compute? current v)
    lift (assign name result)
    return result
  | .update name tick side => do
    let current ← lift (load scene name)
    let old := current.toNumber
    let new := tick.apply old
    lift (assign name (.number new))
    return .number (if side = .before then new else old)

/-- The values of several expressions, in order. -/
def evalAll? (scene : Scene) : List Expr → Checked σ (List Value)
  | [] => pure []
  | e :: rest => do
    let v ← eval? scene e
    let values ← evalAll? scene rest
    return v :: values

end

/-! ## Checked statements -/

/-- Does the test hold? -/
def holds? (scene : Scene) (test : Expr) : Checked σ Bool := do
  return (← eval? scene test).isTrue

/-- Runs a body as long as a test holds, but only a number of rounds. -/
def repeatWhile? (test : Checked σ Bool) (body : Checked σ Unit) : (rounds : Nat) → Checked σ Unit
  | 0 => lift (throw .unfinished)
  | rounds + 1 => do
    if ← test then
      body
      repeatWhile? test body rounds

/-- Runs a body once for each value. -/
def forEach? (body : Value → Checked σ Unit) : List Value → Checked σ Unit
  | [] => pure ()
  | v :: rest => do
    body v
    forEach? body rest

/-- Declares variables, each after its value was computed. -/
def declareAll? (scene : Scene) (kind : DeclareKind) :
    List (String × Option Expr) → Checked σ Unit
  | [] => pure ()
  | (name, none) :: rest => do
    lift (declare kind name none)
    declareAll? scene kind rest
  | (name, some e) :: rest => do
    let v ← eval? scene e
    lift (declare kind name (some v))
    declareAll? scene kind rest

/-- Does what comes before the first round of a loop. -/
def prepare? (scene : Scene) : Option ForInit → Checked σ Unit
  | none => pure ()
  | some (.declare kind items) => declareAll? scene kind items
  | some (.expr e) => do
    let _ ← eval? scene e

/-- Does a loop go on? Without a test it always does. -/
def goesOn? (scene : Scene) : Option Expr → Checked σ Bool
  | none => pure true
  | some test => holds? scene test

/-- Evaluates an expression, if there is one, for its effect. -/
def perform? (scene : Scene) : Option Expr → Checked σ Unit
  | none => pure ()
  | some e => do
    let _ ← eval? scene e

/-- Writes the value of an expression, escaped. Nothing is written for nothing. -/
def emit? [Sink σ] (v : Value) : Checked σ Unit := do
  lift (record v)
  let escaped ← ofChecked (Offsets.escapeValue? v)
  if v.isNullish then pure () else lift (writeAll .value escaped.pieces)

mutual

/-- Runs a statement. It uses a unit of fuel, and so does each round of a loop. -/
def exec? [Sink σ] (scene : Scene) : Stmt → Checked σ Unit
  | .raw text => do
    lift (spend scene)
    lift (write .literal text)
  | .emit e => do
    lift (spend scene)
    emit? (← eval? scene e)
  | .cond branches otherwise => do
    lift (spend scene)
    execBranches? scene branches (execAll? scene otherwise)
  | .whileLoop test body => do
    lift (spend scene)
    repeatWhile? (holds? scene test) (do lift (spend scene); execAll? scene body) scene.rounds
  | .forLoop init test update body => do
    lift (spend scene)
    prepare? scene init
    repeatWhile? (goesOn? scene test)
      (do lift (spend scene); execAll? scene body; perform? scene update) scene.rounds
  | .forEach binding kind subject body => do
    lift (spend scene)
    let v ← eval? scene subject
    let items ← lift (ofExcept (loopItems kind v))
    forEach? (fun v => do lift (spend scene); lift (bindLoop binding v); execAll? scene body) items
termination_by structural s => s

/-- Runs statements in order. -/
def execAll? [Sink σ] (scene : Scene) : List Stmt → Checked σ Unit
  | [] => pure ()
  | s :: rest => do
    exec? scene s
    execAll? scene rest
termination_by structural s => s

/-- Runs the body of the first branch whose test holds, or else something else. -/
def execBranches? [Sink σ] (scene : Scene) : List Branch → Checked σ Unit → Checked σ Unit
  | [], otherwise => otherwise
  | (test, body) :: rest, otherwise => do
    if ← holds? scene test then execAll? scene body else execBranches? scene rest otherwise
termination_by structural s => s

end

/-- A whole checked run, which writes to a sink: its outcome and the state at its end. -/
def run? [Sink σ] (scene : Scene) (body : List Stmt) (sink : σ) :
    Except Fault (Except Halt Unit × State σ) :=
  (execAll? scene body).run.run { sink := sink }

/-! ## Checked actions that do what actions do -/

/-- From every state the checked action does what the action does, unless a part is taken of a
sequence that has too many items. -/
def Checks (act? : Checked σ α) (act : Action σ α) : Prop :=
  ∀ s, Agrees (act? s) (Action.result act s)

theorem Checks.lift (act : Action σ α) : Checks (lift act) act :=
  fun _ => .ok

theorem Checks.pure (a : α) : Checks (pure a : Checked σ α) (pure a) :=
  fun _ => .ok

theorem Checks.ofChecked {checked : Except Fault α} {a : α} (h : Agrees checked a) :
    Checks (ofChecked checked : Checked σ α) (Pure.pure a) := by
  intro s
  rcases h with rfl | ⟨fault, rfl, hfault⟩
  · exact .ok
  · exact .inr ⟨fault, rfl, hfault⟩

theorem Checks.ofChecked_bind {checked : Except Fault α} {a : α} {f? : α → Checked σ β}
    {act : Action σ β} (h : Agrees checked a) (hf : Checks (f? a) act) :
    Checks (Run.ofChecked checked >>= f?) act := by
  intro s
  rcases h with rfl | ⟨fault, rfl, hfault⟩
  · exact hf s
  · exact .inr ⟨fault, rfl, hfault⟩

/-- Two checked actions in order do what the two actions do in order. -/
theorem Checks.bind {act? : Checked σ α} {act : Action σ α} {f? : α → Checked σ β}
    {f : α → Action σ β} (h : Checks act? act) (hf : ∀ a, Checks (f? a) (f a)) :
    Checks (act? >>= f?) (act >>= f) := by
  intro s
  have hbind : (act? >>= f?) s = (act? s).bind fun p => ExceptT.bindCont f? p.1 p.2 := rfl
  rw [hbind]
  rcases h s with hact | ⟨fault, hact, hfault⟩
  · rw [hact]
    rcases result_bind act f s with ⟨a, s', hresult, hrest⟩ | ⟨halt, s', hresult, hrest⟩
    · rw [hresult, hrest]
      exact hf a s'
    · rw [hresult, hrest]
      exact .ok
  · rw [hact]
    exact .inr ⟨fault, rfl, hfault⟩

theorem Checks.ite {c : Prop} [Decidable c] {act? act?' : Checked σ α} {act act' : Action σ α}
    (h : Checks act? act) (h' : Checks act?' act') :
    Checks (if c then act? else act?') (if c then act else act') := by
  split
  · exact h
  · exact h'

/-! ## Evaluation stays in the domains -/

theorem checks_invoke (scene : Scene) (f : Function) (arguments : List Value) :
    Checks (invoke? scene f arguments : Checked σ Value) (invoke scene f arguments) := by
  refine (Checks.lift _).bind fun _ => (Checks.lift _).bind fun fresh => ?_
  cases f with
  | escaper =>
    dsimp only
    rw [Offsets.escapeValue?_eq_ok]
    exact .ofChecked .ok
  | host id name => exact .lift _

theorem checks_invokeValue (scene : Scene) (callee : Expr) (f : Value) (arguments : List Value) :
    Checks (invokeValue? scene callee f arguments : Checked σ Value)
      (invokeValue scene callee f arguments) := by
  cases f with
  | function f => exact checks_invoke scene f arguments
  | _ => exact .lift _

theorem checks_invokeMethod (scene : Scene) (callee : Expr) (target property : Value)
    (name : String) (arguments : List Value) :
    Checks (invokeMethod? scene callee target property name arguments : Checked σ Value)
      (invokeMethod scene callee target property name arguments) := by
  cases property with
  | function f => exact checks_invoke scene f arguments
  | _ =>
    refine (Checks.lift freshRef).bind fun fresh => ?_
    refine .ofChecked_bind (Offsets.method?_agrees fresh target name arguments) ?_
    cases target.method? fresh name arguments with
    | none => exact .lift _
    | some v => exact .pure v

/-- An operator that computes with numbers may be applied to any two values. -/
theorem compute?_agrees {op : BinaryOp} (h : op.IsArith) (a b : Value) :
    Agrees (op.compute? a b) (op.apply a b) := by
  cases h
  exact .ok

/-- Checked evaluation is evaluation: no operation is applied outside its domain if all assignments
compute with numbers. -/
theorem checks_evals (scene : Scene) :
    (∀ e : Expr, e.ComputesArith → Checks (eval? scene e : Checked σ Value) (eval scene e)) ∧
      ∀ items : List Expr, (∀ op ∈ Expr.assignOpsOfAll items, op.IsArith) →
        Checks (evalAll? scene items : Checked σ (List Value)) (evalAll scene items) := by
  refine eval.mutual_induct _ _ ?var ?this ?const ?list ?attr ?item ?callAttr ?callItem ?call
    ?typeOf ?unary ?binary ?cond ?assign ?compute ?update ?nil ?cons
  case var =>
    intro name _
    rw [eval?, eval]
    exact .lift _
  case this =>
    intro _
    rw [eval?, eval]
    exact .pure _
  case const =>
    intro v _
    rw [eval?, eval]
    exact .pure v
  case list =>
    intro items ih harith
    rw [eval?, eval]
    exact (ih harith).bind fun values => (Checks.lift _).bind fun fresh => .pure _
  case attr =>
    intro target name ih harith
    rw [eval?, eval]
    exact (ih harith).bind fun v => .lift _
  case item =>
    intro target key ih ihkey harith
    obtain ⟨htarget, hkey⟩ := List.forall_mem_append.1 harith
    rw [eval?, eval]
    exact (ih htarget).bind fun v => (ihkey hkey).bind fun k => .lift _
  case callAttr =>
    intro target name arguments ih iharguments harith
    obtain ⟨htarget, harguments⟩ := List.forall_mem_append.1 harith
    rw [eval?, eval]
    refine (ih htarget).bind fun v => (Checks.lift _).bind fun property => ?_
    exact (iharguments harguments).bind fun values => checks_invokeMethod _ _ _ _ _ _
  case callItem =>
    intro target key arguments ih ihkey iharguments harith
    obtain ⟨hcallee, harguments⟩ := List.forall_mem_append.1 harith
    obtain ⟨htarget, hkey⟩ := List.forall_mem_append.1 hcallee
    rw [eval?, eval]
    refine (ih htarget).bind fun v => (ihkey hkey).bind fun k => ?_
    refine (Checks.lift _).bind fun property => ?_
    exact (iharguments harguments).bind fun values => checks_invokeMethod _ _ _ _ _ _
  case call =>
    intro callee arguments hattr hitem ih iharguments harith
    obtain ⟨hcallee, harguments⟩ := List.forall_mem_append.1 harith
    rw [eval?, eval]
    · exact (ih hcallee).bind fun f => (iharguments harguments).bind fun values =>
        checks_invokeValue _ _ _ _
    all_goals assumption
  case typeOf =>
    intro name _
    rw [eval?, eval]
    exact (Checks.lift _).bind fun s => .pure _
  case unary =>
    intro op operand hvar ih harith
    rw [eval?, eval]
    · exact (ih harith).bind fun v => .pure _
    all_goals assumption
  case binary =>
    intro op left right ihleft ihright harith
    obtain ⟨hleft, hright⟩ := List.forall_mem_append.1 harith
    rw [eval?, eval]
    refine (ihleft hleft).bind fun a => ?_
    cases op with
    | logic op => exact .ite (.pure a) (ihright hright)
    | arith op => exact (ihright hright).bind fun b => .ofChecked .ok
    | compare op => exact (ihright hright).bind fun b => .ofChecked .ok
  case cond =>
    intro test whenTrue whenFalse ihtest ihtrue ihfalse harith
    obtain ⟨htest, hbranches⟩ := List.forall_mem_append.1 harith
    obtain ⟨htrue, hfalse⟩ := List.forall_mem_append.1 hbranches
    rw [eval?, eval]
    exact (ihtest htest).bind fun t => .ite (ihtrue htrue) (ihfalse hfalse)
  case assign =>
    intro name value ih harith
    rw [eval?, eval]
    exact (ih harith).bind fun v => (Checks.lift _).bind fun _ => .pure v
  case compute =>
    intro name op value ih harith
    obtain ⟨hop, hvalue⟩ := List.forall_mem_cons.1 harith
    rw [eval?, eval]
    refine (Checks.lift _).bind fun current => (ih hvalue).bind fun v => ?_
    -- this is where the operator of an assignment has to be one that computes
    refine .ofChecked_bind (compute?_agrees hop current v) ?_
    exact (Checks.lift _).bind fun _ => .pure _
  case update =>
    intro name tick side _
    rw [eval?, eval]
    exact (Checks.lift _).bind fun old => (Checks.lift _).bind fun _ => .pure _
  case nil =>
    intro _
    rw [evalAll?, evalAll]
    exact .pure []
  case cons =>
    intro e rest ih ihrest harith
    obtain ⟨he, hrest⟩ := List.forall_mem_append.1 harith
    rw [evalAll?, evalAll]
    exact (ih he).bind fun v => (ihrest hrest).bind fun values => .pure _

theorem checks_eval (scene : Scene) {e : Expr} (h : e.ComputesArith) :
    Checks (eval? scene e : Checked σ Value) (eval scene e) :=
  (checks_evals scene).1 e h

/-! ## Statements stay in the domains -/

theorem checks_holds (scene : Scene) {test : Expr} (h : test.ComputesArith) :
    Checks (holds? scene test : Checked σ Bool) (holds scene test) :=
  (checks_eval scene h).bind fun v => .pure v.isTrue

theorem Checks.repeatWhile {test? : Checked σ Bool} {test : Action σ Bool}
    {body? : Checked σ Unit} {body : Action σ Unit} (htest : Checks test? test)
    (hbody : Checks body? body) (rounds : Nat) :
    Checks (repeatWhile? test? body? rounds) (repeatWhile test body rounds) := by
  induction rounds with
  | zero => exact .lift _
  | succ rounds ih => exact htest.bind fun holds => .ite (hbody.bind fun _ => ih) (.pure ())

theorem Checks.forEach {body? : Value → Checked σ Unit} {body : Value → Action σ Unit}
    (h : ∀ v, Checks (body? v) (body v)) (items : List Value) :
    Checks (forEach? body? items) (forEach body items) := by
  induction items with
  | nil => exact .pure ()
  | cons v rest ih => exact (h v).bind fun _ => ih

theorem checks_declareAll (scene : Scene) (kind : DeclareKind)
    {items : List (String × Option Expr)}
    (h : ∀ e ∈ (ForInit.declare kind items).exprs, e.ComputesArith) :
    Checks (declareAll? scene kind items : Checked σ Unit) (declareAll scene kind items) := by
  induction items with
  | nil => exact .pure ()
  | cons item rest ih =>
    obtain ⟨name, value⟩ := item
    obtain ⟨hvalue, hrest⟩ := List.forall_mem_append.1 h
    cases value with
    | none => exact (Checks.lift _).bind fun _ => ih hrest
    | some e =>
      have he := hvalue e (List.mem_singleton_self e)
      exact (checks_eval scene he).bind fun v => (Checks.lift _).bind fun _ => ih hrest

theorem checks_prepare (scene : Scene) {init : Option ForInit}
    (h : ∀ e ∈ init.toList.flatMap ForInit.exprs, e.ComputesArith) :
    Checks (prepare? scene init : Checked σ Unit) (prepare scene init) := by
  rcases init with _ | ⟨kind, items⟩ | e
  · exact .pure ()
  · exact checks_declareAll scene kind (List.forall_mem_append.1 h).1
  · have he := h e (List.mem_singleton_self e)
    exact (checks_eval scene he).bind fun _ => .pure ()

theorem checks_goesOn (scene : Scene) {test : Option Expr}
    (h : ∀ e ∈ test.toList, e.ComputesArith) :
    Checks (goesOn? scene test : Checked σ Bool) (goesOn scene test) := by
  cases test with
  | none => exact .pure true
  | some test => exact checks_holds scene (h test (List.mem_singleton_self test))

theorem checks_perform (scene : Scene) {e : Option Expr}
    (h : ∀ e' ∈ e.toList, e'.ComputesArith) :
    Checks (perform? scene e : Checked σ Unit) (perform scene e) := by
  cases e with
  | none => exact .pure ()
  | some e => exact (checks_eval scene (h e (List.mem_singleton_self e))).bind fun _ => .pure ()

variable [Sink σ]

theorem checks_emit (v : Value) : Checks (emit? v : Checked σ Unit) (emit v) := by
  refine (Checks.lift _).bind fun _ => ?_
  rw [Offsets.escapeValue?_eq_ok]
  exact .ite (.pure ()) (.lift _)

/-- Checked statements do what the statements do: no operation is applied outside its domain if all
assignments compute with numbers. -/
theorem checks_execs (scene : Scene) :
    (∀ s : Stmt, (∀ e ∈ s.exprs, e.ComputesArith) →
      Checks (exec? scene s : Checked σ Unit) (exec scene s)) ∧
    (∀ body : List Stmt, (∀ e ∈ Stmt.exprsOfAll body, e.ComputesArith) →
      Checks (execAll? scene body : Checked σ Unit) (execAll scene body)) ∧
    ∀ (branches : List Branch) (otherwise : Action σ Unit) (otherwise? : Checked σ Unit),
      (∀ e ∈ Stmt.exprsOfBranches branches, e.ComputesArith) → Checks otherwise? otherwise →
      Checks (execBranches? scene branches otherwise?) (execBranches scene branches otherwise) := by
  refine exec.mutual_induct scene _ _ _ ?raw ?emit ?cond ?whileLoop ?forLoop ?forEach ?noBranch
    ?branch ?nil ?cons
  case raw =>
    intro text _
    rw [exec?, exec]
    exact (Checks.lift _).bind fun _ => .lift _
  case emit =>
    intro e harith
    have he := harith e (List.mem_singleton_self e)
    rw [exec?, exec]
    exact (Checks.lift _).bind fun _ => (checks_eval scene he).bind fun v => checks_emit v
  case cond =>
    intro branches otherwise ihotherwise ihbranches harith
    obtain ⟨hbranches, hotherwise⟩ := List.forall_mem_append.1 harith
    rw [exec?, exec]
    exact (Checks.lift _).bind fun _ => ihbranches _ hbranches (ihotherwise hotherwise)
  case whileLoop =>
    intro test body ih harith
    obtain ⟨htest, hbody⟩ := List.forall_mem_cons.1 harith
    rw [exec?, exec]
    refine (Checks.lift _).bind fun _ => (checks_holds scene htest).repeatWhile ?_ _
    exact (Checks.lift _).bind fun _ => ih hbody
  case forLoop =>
    intro init test update body ih harith
    obtain ⟨hhead, hbody⟩ := List.forall_mem_append.1 harith
    obtain ⟨hstart, hupdate⟩ := List.forall_mem_append.1 hhead
    obtain ⟨hinit, htest⟩ := List.forall_mem_append.1 hstart
    rw [exec?, exec]
    refine (Checks.lift _).bind fun _ => (checks_prepare scene hinit).bind fun _ => ?_
    refine (checks_goesOn scene htest).repeatWhile ?_ _
    exact (Checks.lift _).bind fun _ => (ih hbody).bind fun _ => checks_perform scene hupdate
  case forEach =>
    intro binding kind subject body ih harith
    obtain ⟨hsubject, hbody⟩ := List.forall_mem_cons.1 harith
    rw [exec?, exec]
    refine (Checks.lift _).bind fun _ => (checks_eval scene hsubject).bind fun v => ?_
    refine (Checks.lift _).bind fun items => Checks.forEach (fun v => ?_) items
    exact (Checks.lift _).bind fun _ => (Checks.lift _).bind fun _ => ih hbody
  case noBranch =>
    intro otherwise otherwise? _ hotherwise
    rw [execBranches?, execBranches]
    exact hotherwise
  case branch =>
    intro test body rest otherwise ihbody ihrest otherwise? harith hotherwise
    obtain ⟨htest, hbranches⟩ := List.forall_mem_cons.1 harith
    obtain ⟨hbody, hrest⟩ := List.forall_mem_append.1 hbranches
    rw [execBranches?, execBranches]
    exact (checks_holds scene htest).bind fun holds =>
      .ite (ihbody hbody) (ihrest otherwise? hrest hotherwise)
  case nil =>
    intro _
    rw [execAll?, execAll]
    exact .pure ()
  case cons =>
    intro s rest ih ihrest harith
    obtain ⟨hs, hrest⟩ := List.forall_mem_append.1 harith
    rw [execAll?, execAll]
    exact (ih hs).bind fun _ => ihrest hrest

/-- **Checked runs.** In a run of statements whose assignments compute with numbers no operation is
applied outside its domain, unless a part is taken of a sequence that has too many items. -/
theorem run?_agrees (scene : Scene) {body : List Stmt}
    (h : ∀ e ∈ Stmt.exprsOfAll body, e.ComputesArith) (sink : σ) :
    Agrees (run? scene body sink) (run scene body sink) :=
  (checks_execs scene).2.1 body h { sink := sink }

end Run

end Stencil
