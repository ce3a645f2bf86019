import Stencil.Engine
import Stencil.Proofs.Building
import Stencil.Proofs.Reading.Yields

/-!
# The expressions in a template

The statements of a template hold the expressions of its steps, in the same order. So what holds of
every expression that is read holds of every expression in a template.

* `Stmt.exprs`, `Event.exprs`: the expressions in a statement and in an event
* `Linear.exprs_eq`: a linear form of statements has the same expressions
* `Environment.compile_yields`: the main statement
-/

namespace Stencil

/-! ## Statements and events -/

mutual

/-- The expressions in a statement, in the order in which they are written. -/
def Stmt.exprs : Stmt → List Expr
  | .raw _ => []
  | .emit e => [e]
  | .cond branches otherwise => Stmt.exprsOfBranches branches ++ Stmt.exprsOfAll otherwise
  | .whileLoop test body => test :: Stmt.exprsOfAll body
  | .forLoop init test update body =>
    (ForHead.clauses init test update).exprs ++ Stmt.exprsOfAll body
  | .forEach _ _ subject body => subject :: Stmt.exprsOfAll body
termination_by structural s => s

/-- The expressions in some statements. -/
def Stmt.exprsOfAll : List Stmt → List Expr
  | [] => []
  | s :: rest => s.exprs ++ Stmt.exprsOfAll rest
termination_by structural s => s

/-- The expressions in some branches. -/
def Stmt.exprsOfBranches : List Branch → List Expr
  | [] => []
  | (test, body) :: rest => test :: (Stmt.exprsOfAll body ++ Stmt.exprsOfBranches rest)
termination_by structural s => s

end

/-- The expressions in an event. -/
def Event.exprs : Event → List Expr
  | .literal _ => []
  | .emit e => [e]
  | .control op => op.exprs

theorem Step.flatMap_events (step : Step) : step.events.flatMap Event.exprs = step.exprs := by
  cases step with
  | literal text => rfl
  | expr e => rfl
  | control ops => exact List.flatMap_map _ _ _

theorem flatMap_events (steps : List Step) :
    (events steps).flatMap Event.exprs = steps.flatMap Step.exprs := by
  rw [events, List.flatMap_assoc]
  exact congrArg (steps.flatMap ·) (funext Step.flatMap_events)

/-! ## Linear forms -/

/-- Statements hold the expressions of their linear forms. -/
theorem Linear.exprs_eq {body : List Stmt} {es : List Event} (h : Linear body es) :
    Stmt.exprsOfAll body = es.flatMap Event.exprs := by
  refine @Linear.rec
    (fun body es _ => Stmt.exprsOfAll body = es.flatMap Event.exprs)
    (fun more otherwise tail _ =>
      Stmt.exprsOfBranches more ++ Stmt.exprsOfAll otherwise = tail.flatMap Event.exprs)
    ?nil ?empty ?raw ?emit ?whileLoop ?forLoop ?forEach ?cond ?stop ?otherwise ?branch body es h
  case nil => rfl
  case empty => intro _ _ _ ih; exact ih
  case raw =>
    intro text rest es _ ih
    exact ih
  case emit =>
    intro e rest es _ ih
    exact congrArg (e :: ·) ih
  case whileLoop =>
    intro test body rest inner es _ _ ihbody ih
    simp [Stmt.exprsOfAll, Stmt.exprs, Event.exprs, BlockOp.exprs, ihbody, ih]
  case forLoop =>
    intro init test update body rest inner es _ _ ihbody ih
    simp [Stmt.exprsOfAll, Stmt.exprs, Event.exprs, BlockOp.exprs, ihbody, ih]
  case forEach =>
    intro binding kind subject body rest inner es _ _ ihbody ih
    simp [Stmt.exprsOfAll, Stmt.exprs, Event.exprs, BlockOp.exprs, ForHead.exprs, ihbody, ih]
  case cond =>
    intro test body more otherwise rest inner tail es _ _ _ ihbody ihmore ih
    simp [Stmt.exprsOfAll, Stmt.exprs, Stmt.exprsOfBranches, Event.exprs, BlockOp.exprs, ihbody,
      ← ihmore, ih]
  case stop => rfl
  case otherwise =>
    intro body inner _ ih
    simp [Stmt.exprsOfBranches, Event.exprs, BlockOp.exprs, ih]
  case branch =>
    intro test body more otherwise inner tail _ _ ihbody ihmore
    simp [Stmt.exprsOfBranches, Event.exprs, BlockOp.exprs, ihbody, ← ihmore]

theorem exprs_of_build {steps : List Step} {body : List Stmt} (h : build steps = .ok body) :
    Stmt.exprsOfAll body = steps.flatMap Step.exprs :=
  (linear_of_build h).1.exprs_eq.trans (flatMap_events steps)

/-! ## Templates -/

/-- **What templates hold.** The expressions in a template have every property that all expressions
have that are read. -/
theorem Environment.compile_yields {P : Expr → Prop} (hundefined : P (.const .undefined))
    (hexpr : ∀ room ≤ nestingLimit, ∀ ts, Yields (fun read => P read.1) (Reader.expr room ts))
    (env : Environment) (source : String) :
    Yields (fun t => ∀ e ∈ Stmt.exprsOfAll t.body, P e) (env.compile source) := by
  have hsteps := Step.ofSource_yields hundefined hexpr (Source.normalizeString source).toList
  refine Yields.bind (hsteps.bind fun steps h => ?_) fun body h => .ok h
  intro body hbody e he
  rw [exprs_of_build hbody, List.mem_flatMap] at he
  obtain ⟨step, hstep, he⟩ := he
  exact h step hstep e he

end Stencil
