import Stencil.Token
import Stencil.Value

/-!
# Expressions

The trees that expressions are read into.

* `Expr`: the trees
* `UnaryOp`, `ArithOp`, `CompareOp`, `LogicOp`, `BinaryOp`: the operators
* `reservedWords`, `isBindable`: which names can be bound
* `Expr.calleeText`: how a message names what was called
-/

namespace Stencil

/-- The operators with one operand. -/
inductive UnaryOp where
  | not | negate | toNumber | typeOf
  deriving DecidableEq, Repr

/-- The operators that compute with numbers (`add` joins texts, too). -/
inductive ArithOp where
  | add | sub | mul | div | rem
  deriving DecidableEq, Repr

/-- The operators that compare. -/
inductive CompareOp where
  | eq | ne | strictEq | strictNe | lt | le | gt | ge
  deriving DecidableEq, Repr

/-- The operators that look at their right operand only if the left one does not decide. -/
inductive LogicOp where
  | and | or | coalesce
  deriving DecidableEq, Repr

/-- The operators with two operands. -/
inductive BinaryOp where
  | arith (op : ArithOp)
  | compare (op : CompareOp)
  | logic (op : LogicOp)
  deriving DecidableEq, Repr

/-- A step up or down by one. -/
inductive Tick where
  | up | down
  deriving DecidableEq, Repr

/-- Where the sign of an update stands, which decides whether the new value or the old one
counts. -/
inductive Side where
  | before | after
  deriving DecidableEq, Repr

/-- An expression. -/
inductive Expr where
  /-- A variable. -/
  | var (name : String)
  /-- The context as an object. -/
  | this
  /-- A value written down. -/
  | const (v : Value)
  /-- A list of items in brackets. -/
  | list (items : List Expr)
  /-- A property by name. -/
  | attr (target : Expr) (name : String)
  /-- A property by a computed name. -/
  | item (target key : Expr)
  /-- A call. -/
  | call (callee : Expr) (arguments : List Expr)
  | unary (op : UnaryOp) (operand : Expr)
  | binary (op : BinaryOp) (left right : Expr)
  /-- One of two expressions, as a test decides. -/
  | cond (test whenTrue whenFalse : Expr)
  /-- An assignment, or a computation with the variable's value and an assignment of the result. The
  readers make the latter with operators that compute only. -/
  | assign (name : String) (op : Option BinaryOp) (value : Expr)
  /-- A variable counted up or down. -/
  | update (name : String) (tick : Tick) (side : Side)

/-- The words that are no names of variables. -/
def reservedWords : List String :=
  ["break", "case", "catch", "class", "const", "continue", "debugger", "default", "delete", "do",
   "else", "export", "extends", "finally", "for", "function", "if", "import", "in", "instanceof",
   "let", "new", "return", "super", "switch", "throw", "try", "var", "void", "while"]

/-- The words that stand for values. -/
def valueWords : List String :=
  ["true", "false", "null", "this"]

/-- Can a declaration or a loop bind the name? -/
def isBindable (name : String) : Bool :=
  !reservedWords.contains name && !valueWords.contains name

/-- How a message names the expression that was called: by the path that leads to it, as far as it
has one. -/
def Expr.calleeText : Expr → String
  | var name => name
  | this => "this"
  | attr target name => target.calleeText ++ "." ++ name
  | item target _ => target.calleeText ++ "[...]"
  | call callee _ => callee.calleeText ++ "(...)"
  | _ => "expression"

end Stencil
