import Stencil.Stmt.Builder

/-!
# Linear forms of statements

Statements are nested; the steps that they are built from are flat. A list of statements has many
linear forms: operations may be grouped at will, and empty statements may stand between others.

* `Event`, `events`: what a sequence of steps holds, its grouping forgotten
* `Linear`: the events are a linear form of the statements
* `NestedWithin`: no more than a number of blocks are open at any point
-/

namespace Stencil

/-- One thing in a template: a text, an expression to write, or an operation on blocks. -/
inductive Event where
  | literal (text : String)
  | emit (e : Expr)
  | control (op : BlockOp)

/-- The events of a step, in order. -/
def Step.events : Step → List Event
  | .literal text => [.literal text]
  | .expr e => [.emit e]
  | .control ops => ops.map .control

/-- The events of a sequence of steps. How the operations were grouped is forgotten. -/
def events (steps : List Step) : List Event :=
  steps.flatMap Step.events

/-- Does the operation open a block? -/
def BlockOp.opens : BlockOp → Bool
  | .close | .empty => false
  | _ => true

/-- Does the operation close a block? -/
def BlockOp.closes : BlockOp → Bool
  | .close => true
  | _ => false

/-- Does the event open a block? -/
def Event.opens : Event → Bool
  | .control op => op.opens
  | _ => false

/-- Does the event close a block? -/
def Event.closes : Event → Bool
  | .control op => op.closes
  | _ => false

/-- At most `limit` blocks are open at any point of the events. -/
def NestedWithin (limit : Nat) (es : List Event) : Prop :=
  ∀ before, before <+: es → before.countP Event.opens ≤ before.countP Event.closes + limit

/-! ## The relation -/

mutual

/-- The events are a linear form of the statements. -/
inductive Linear : List Stmt → List Event → Prop
  | nil : Linear [] []
  /-- An empty statement may stand before any statement, and at the end. -/
  | empty {body : List Stmt} {es : List Event} :
      Linear body es → Linear body (.control .empty :: es)
  | raw {text : String} {rest : List Stmt} {es : List Event} :
      Linear rest es → Linear (.raw text :: rest) (.literal text :: es)
  | emit {e : Expr} {rest : List Stmt} {es : List Event} :
      Linear rest es → Linear (.emit e :: rest) (.emit e :: es)
  | whileLoop {test : Expr} {body rest : List Stmt} {inner es : List Event} :
      Linear body inner → Linear rest es →
      Linear (.whileLoop test body :: rest)
        (.control (.whileBlock test) :: (inner ++ .control .close :: es))
  | forLoop {init : Option ForInit} {test update : Option Expr} {body rest : List Stmt}
      {inner es : List Event} :
      Linear body inner → Linear rest es →
      Linear (.forLoop init test update body :: rest)
        (.control (.forBlock (.clauses init test update)) :: (inner ++ .control .close :: es))
  | forEach {binding : Binding} {kind : EachKind} {subject : Expr} {body rest : List Stmt}
      {inner es : List Event} :
      Linear body inner → Linear rest es →
      Linear (.forEach binding kind subject body :: rest)
        (.control (.forBlock (.each binding kind subject)) :: (inner ++ .control .close :: es))
  | cond {test : Expr} {body : List Stmt} {more : List Branch} {otherwise rest : List Stmt}
      {inner tail es : List Event} :
      Linear body inner → Continued more otherwise tail → Linear rest es →
      Linear (.cond ((test, body) :: more) otherwise :: rest)
        (.control (.ifBlock test) :: (inner ++ .control .close :: (tail ++ es)))

/-- The events continue a conditional whose last branch was just closed: by more branches and a last
body. Nothing may stand before the operation that continues it. -/
inductive Continued : List Branch → List Stmt → List Event → Prop
  /-- A last body may be left out if it is empty. -/
  | nil : Continued [] [] []
  | otherwise {body : List Stmt} {inner : List Event} :
      Linear body inner → Continued [] body (.control .elseBlock :: (inner ++ [.control .close]))
  | branch {test : Expr} {body : List Stmt} {more : List Branch} {otherwise : List Stmt}
      {inner tail : List Event} :
      Linear body inner → Continued more otherwise tail →
      Continued ((test, body) :: more) otherwise
        (.control (.elseIfBlock test) :: (inner ++ .control .close :: tail))

end

/-! ## Joining linear forms -/

/-- Linear forms of two lists of statements make up one of both. -/
theorem Linear.append {first second : List Stmt} {es es' : List Event}
    (h : Linear first es) (h' : Linear second es') : Linear (first ++ second) (es ++ es') := by
  refine @Linear.rec
    (fun first es _ => Linear (first ++ second) (es ++ es'))
    (fun _ _ _ _ => True)
    ?nil ?empty ?raw ?emit ?whileLoop ?forLoop ?forEach ?cond ?stop ?otherwise ?branch first es h
  case nil => exact h'
  case empty => intro _ _ _ ih; exact .empty ih
  case raw => intro _ _ _ _ ih; exact .raw ih
  case emit => intro _ _ _ _ ih; exact .emit ih
  case whileLoop =>
    intro _ _ _ _ _ hbody _ _ ih
    simpa using Linear.whileLoop hbody ih
  case forLoop =>
    intro _ _ _ _ _ _ _ hbody _ _ ih
    simpa using Linear.forLoop hbody ih
  case forEach =>
    intro _ _ _ _ _ _ _ hbody _ _ ih
    simpa using Linear.forEach hbody ih
  case cond =>
    intro _ _ _ _ _ _ _ _ hbody hmore _ _ _ ih
    simpa using Linear.cond hbody hmore ih
  case stop => trivial
  case otherwise => intros; trivial
  case branch => intros; trivial

end Stencil
