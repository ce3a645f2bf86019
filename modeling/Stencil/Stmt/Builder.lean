import Stencil.Expr.Parser
import Stencil.Stmt

/-!
# Building statements

Steps are flat; statements are nested. The builder keeps the blocks that are open and puts every new
statement into the innermost one.

A conditional whose last branch was just closed is held back: if the next operation continues it,
the next branch joins it, and otherwise it is put into the body around it.

* `Builder`: the state between two steps
* `Builder.addStep`, `Builder.finish`: one more step, and the end
* `build`: the statements of a sequence of steps
-/

namespace Stencil

/-- A block that was opened and not closed yet. -/
inductive Block where
  /-- A branch of a conditional, with the branches before it, newest first. -/
  | branch (earlier : List Branch) (test : Expr)
  /-- The last body of a conditional, with its branches, newest first. -/
  | otherwise (branches : List Branch)
  | whileLoop (test : Expr)
  | forLoop (head : ForHead)

/-- What was built so far. -/
structure Builder where
  /-- The statements of the innermost open block, newest first. -/
  done : List Stmt := []
  /-- The branches of a conditional that may go on, newest first; none if there is no such. -/
  held : List Branch := []
  /-- The open blocks, innermost first, each with the statements before it, newest first. -/
  enclosing : List (Block × List Stmt) := []

namespace Builder

/-- Puts a conditional that was held back into the body: nothing can continue it any more. -/
def settle (b : Builder) : Builder :=
  match b.held with
  | [] => b
  | branches => { b with done := .cond branches.reverse [] :: b.done, held := [] }

/-- Adds a statement. -/
def add (b : Builder) (s : Stmt) : Builder :=
  let b := b.settle
  { b with done := s :: b.done }

/-- Opens a block, if not too many are open. A conditional that is held back is part of the
block. -/
def enter (b : Builder) (block : Block) : Except Error Builder :=
  if nestingLimit ≤ b.enclosing.length then tooDeep
  else .ok { done := [], held := [], enclosing := (block, b.done) :: b.enclosing }

/-- The branches of the conditional that may go on. -/
def continued (b : Builder) : Except Error (List Branch) :=
  match b.held with
  | [] => .error (.malformed .strayElse)
  | branches => .ok branches

/-- The statement that a loop's head and its body make up. -/
def loop (head : ForHead) (body : List Stmt) : Stmt :=
  match head with
  | .clauses init test update => .forLoop init test update body
  | .each binding kind subject => .forEach binding kind subject body

/-- Closes the innermost block. -/
def leave (b : Builder) : Except Error Builder :=
  let b := b.settle
  let body := b.done.reverse
  match b.enclosing with
  | [] => .error (.malformed .strayClose)
  | (.branch earlier test, before) :: rest =>
    .ok { done := before, held := (test, body) :: earlier, enclosing := rest }
  | (.otherwise branches, before) :: rest =>
    .ok { done := .cond branches.reverse body :: before, enclosing := rest }
  | (.whileLoop test, before) :: rest =>
    .ok { done := .whileLoop test body :: before, enclosing := rest }
  | (.forLoop head, before) :: rest =>
    .ok { done := loop head body :: before, enclosing := rest }

/-- Does an operation on blocks. -/
def apply (b : Builder) : BlockOp → Except Error Builder
  | .ifBlock test => b.settle.enter (.branch [] test)
  | .elseIfBlock test => do b.enter (.branch (← b.continued) test)
  | .elseBlock => do b.enter (.otherwise (← b.continued))
  | .whileBlock test => b.settle.enter (.whileLoop test)
  | .forBlock head => b.settle.enter (.forLoop head)
  | .close => b.leave
  | .empty => .ok b.settle

/-- Adds a step. -/
def addStep (b : Builder) : Step → Except Error Builder
  | .literal text => .ok (b.add (.raw text))
  | .expr e => .ok (b.add (.emit e))
  | .control ops => ops.foldlM apply b

/-- The statements, if all blocks are closed. -/
def finish (b : Builder) : Except Error (List Stmt) :=
  if b.enclosing.isEmpty then .ok b.settle.done.reverse
  else .error (.malformed .openBlock)

end Builder

/-- The statements of a sequence of steps. -/
def build (steps : List Step) : Except Error (List Stmt) := do
  (← steps.foldlM Builder.addStep {}).finish

end Stencil
