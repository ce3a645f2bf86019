import Stencil.Proofs.Expressions
import Stencil.Proofs.Reading.Sound

/-!
# The operators of assignments

An assignment may compute with an operator first. In expressions that are read this is always one of
the operators that compute with numbers, never one that may leave out its right operand.

* `Expr.assignOps`: the operators of the assignments in an expression
* `Expr.ComputesArith`: all of them compute with numbers
* `Environment.compile_computesArith`: the main statement
-/

namespace Stencil

mutual

/-- The operators of the assignments in an expression that compute something first. -/
def Expr.assignOps : Expr → List BinaryOp
  | .var _ | .this | .const _ | .update .. => []
  | .list items => Expr.assignOpsOfAll items
  | .attr target _ => target.assignOps
  | .item target key => target.assignOps ++ key.assignOps
  | .call callee arguments => callee.assignOps ++ Expr.assignOpsOfAll arguments
  | .unary _ operand => operand.assignOps
  | .binary _ left right => left.assignOps ++ right.assignOps
  | .cond test whenTrue whenFalse =>
    test.assignOps ++ (whenTrue.assignOps ++ whenFalse.assignOps)
  | .assign _ op value => op.toList ++ value.assignOps

/-- The operators of the assignments in some expressions. -/
def Expr.assignOpsOfAll : List Expr → List BinaryOp
  | [] => []
  | e :: rest => e.assignOps ++ Expr.assignOpsOfAll rest

end

/-- The operator computes with numbers. -/
inductive BinaryOp.IsArith : BinaryOp → Prop
  | arith (op : ArithOp) : IsArith (.arith op)

/-- The assignments in the expression compute with numbers, if with anything. -/
def Expr.ComputesArith (e : Expr) : Prop :=
  ∀ op ∈ e.assignOps, op.IsArith

/-! ## Expressions that are read -/

/-- Only the operators that compute with numbers have a mark for an assignment. -/
theorem isArith_of_assignMark? {op : Option BinaryOp} {m : Mark} (h : assignMark? op = some m) :
    ∀ o ∈ op.toList, o.IsArith := by
  rcases op with _ | op | op | op
  · exact List.forall_mem_nil _
  · exact List.forall_mem_singleton.2 (.arith op)
  · cases h
  · cases h

/-- In expressions that have a derivation the assignments compute with numbers. -/
theorem Derives.computesArith {k : Nat} {e : Expr} {ts : List Token} (h : Derives k e ts) :
    e.ComputesArith := by
  refine @Derives.rec
    (fun _ e _ _ => e.ComputesArith)
    (fun items _ _ => ∀ op ∈ Expr.assignOpsOfAll items, op.IsArith)
    ?weaken ?leaf ?group ?list ?attr ?item ?call ?after ?before ?unary ?binary ?cond ?assign
    ?nil ?last ?trailing ?cons k e ts h
  case weaken => intro _ _ _ _ ih; exact ih
  case leaf =>
    intro e t hleaf
    cases hleaf <;> exact List.forall_mem_nil _
  case group => intro _ _ _ ih; exact ih
  case list => intro _ _ _ ih; exact ih
  case attr => intro _ _ _ _ ih; exact ih
  case item =>
    intro _ _ _ _ _ _ ih ihkey
    exact List.forall_mem_append.2 ⟨ih, ihkey⟩
  case call =>
    intro _ _ _ _ _ _ ih iharguments
    exact List.forall_mem_append.2 ⟨ih, iharguments⟩
  case after => intros; exact List.forall_mem_nil _
  case before => intros; exact List.forall_mem_nil _
  case unary => intro _ _ _ _ ih; exact ih
  case binary =>
    intro _ _ _ _ _ _ _ ihleft ihright
    exact List.forall_mem_append.2 ⟨ihleft, ihright⟩
  case cond =>
    intro _ _ _ _ _ _ _ _ _ ihtest ihtrue ihfalse
    exact List.forall_mem_append.2 ⟨ihtest, List.forall_mem_append.2 ⟨ihtrue, ihfalse⟩⟩
  case assign =>
    intro _ _ _ _ _ _ hmark _ _ _ ihvalue
    exact List.forall_mem_append.2 ⟨isArith_of_assignMark? hmark, ihvalue⟩
  case nil => exact List.forall_mem_nil _
  case last =>
    intro _ _ _ ih
    exact List.forall_mem_append.2 ⟨ih, List.forall_mem_nil _⟩
  case trailing =>
    intro _ _ _ ih
    exact List.forall_mem_append.2 ⟨ih, List.forall_mem_nil _⟩
  case cons =>
    intro _ _ _ _ _ _ _ ih ihrest
    exact List.forall_mem_append.2 ⟨ih, ihrest⟩

theorem Reader.expr_computesArith (room : Nat) (ts : List Token) :
    Yields (fun read => read.1.ComputesArith) (Reader.expr room ts) := by
  rintro ⟨e, rest⟩ h
  obtain ⟨used, -, hderives⟩ := expr_derivable room ts e rest h
  exact hderives.computesArith

/-- **The operators of assignments.** Every assignment in a template that computes something first
does so with an operator that computes with numbers. -/
theorem Environment.compile_computesArith (env : Environment) (source : String) :
    Yields (fun t => ∀ e ∈ Stmt.exprsOfAll t.body, e.ComputesArith) (env.compile source) :=
  Environment.compile_yields (List.forall_mem_nil _) (fun room _ => Reader.expr_computesArith room)
    env source

end Stencil
