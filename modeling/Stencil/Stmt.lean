import Stencil.Step

/-!
# Statements

A compiled template is a tree of statements.

* `Stmt`: the statements
* `Branch`: a test and what runs if it holds
-/

namespace Stencil

/-- A statement. -/
inductive Stmt where
  /-- Writes a text as it is. -/
  | raw (text : String)
  /-- Writes the value of an expression, escaped. -/
  | emit (e : Expr)
  /-- Runs the body of the first branch whose test holds, or else the last body. -/
  | cond (branches : List (Expr × List Stmt)) (otherwise : List Stmt)
  /-- Runs a body as long as a test holds. -/
  | whileLoop (test : Expr) (body : List Stmt)
  /-- Runs a body with a part before the first round, a test before each round and an update after
  it. -/
  | forLoop (init : Option ForInit) (test update : Option Expr) (body : List Stmt)
  /-- Runs a body once for each value or key of something. -/
  | forEach (binding : Binding) (kind : EachKind) (subject : Expr) (body : List Stmt)

/-- A test, and the body that runs if it holds. -/
abbrev Branch := Expr × List Stmt

end Stencil
