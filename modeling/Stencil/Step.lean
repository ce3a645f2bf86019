import Stencil.Expr

/-!
# Steps

A template is a flat sequence of steps. Blocks are opened and closed by operations, which are
matched up only when statements are built.

* `ForHead`: what stands in the parentheses after `for`
* `BlockOp`: an operation on blocks
* `Step`: a literal text, a group of operations, or an expression to write
-/

namespace Stencil

/-- The words that introduce a variable. -/
inductive DeclareKind where
  | var | let_ | const
  deriving DecidableEq, Repr

/-- What happens before the first round of a loop: variables are declared or an expression is
evaluated. -/
inductive ForInit where
  | declare (kind : DeclareKind) (items : List (String × Option Expr))
  | expr (e : Expr)

/-- The variable of a loop over values or keys. Without a word it is assigned to, not declared. -/
structure Binding where
  kind : Option DeclareKind
  name : String
  deriving DecidableEq, Repr

/-- What a loop goes through. -/
inductive EachKind where
  | values | keys
  deriving DecidableEq, Repr

/-- The head of a loop. -/
inductive ForHead where
  /-- An initial part, a test before and an update after each round. -/
  | clauses (init : Option ForInit) (test update : Option Expr)
  /-- A variable that goes through the values or the keys of something. -/
  | each (binding : Binding) (kind : EachKind) (subject : Expr)

/-- An operation on blocks. All but `close` and `empty` open one. -/
inductive BlockOp where
  | ifBlock (test : Expr)
  | elseIfBlock (test : Expr)
  | elseBlock
  | whileBlock (test : Expr)
  | forBlock (head : ForHead)
  | close
  | empty

/-- A step of a template. -/
inductive Step where
  /-- Text that is written as it is. -/
  | literal (text : String)
  /-- A fragment that opens or closes blocks. -/
  | control (ops : List BlockOp)
  /-- A fragment whose value is written. -/
  | expr (e : Expr)

end Stencil
