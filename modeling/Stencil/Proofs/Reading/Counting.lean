import Stencil.Step.Parser

/-!
# Readers that count levels

The readers can be run with a cursor in place of their arguments: the tokens that are left, and a
counter of the levels that are open. A guard opens a level and closes it again, whatever happens in
between; a loop opens a level in each round, and at its end the counter is put back to where it was
before the loop. Nothing bounds the loops but the tokens.

* `Cursor`, `Halt`, `Counted`: what a counting reader changes, and why it stops
* `guarded`, `restoring`: the two ways of giving levels back
* `expr`, `declarations`, `forHead`: the readers
-/

namespace Stencil.Counting

open Reader (Tier startsWith expect unexpected readAssign? readUnary? readTick? readEach?
  declareKind? makeUpdate assignTarget nameOperand checkBindable)

/-- The tokens that are left, and the number of open levels. -/
structure Cursor where
  tokens : List Token
  depth : Nat

/-- Why a counting reader stops. -/
inductive Halt where
  | error (e : Error)
  /-- A level was closed where none was open. -/
  | underflow
  /-- A loop or a recursion did not come to its end in the number of rounds that it was given. -/
  | unfinished

/-- What a counting reader does: it gives a result or stops, and it moves the cursor. -/
abbrev Counted (α : Type) := ExceptT Halt (StateM Cursor) α

variable {α β : Type}

/-- What comes of a counting reader at a cursor, and where the cursor is then. -/
def outcome (act : Counted α) (c : Cursor) : Except Halt α × Cursor :=
  act.run.run c

/-! ## Tokens -/

/-- Goes on with a result or stops. -/
def ofExcept : Except Error α → Counted α
  | .ok a => pure a
  | .error e => throw (.error e)

/-- The tokens that are left. -/
def tokens : Counted (List Token) := do
  return (← get).tokens

/-- Passes over the tokens before some others. -/
def moveTo (rest : List Token) : Counted Unit :=
  modify fun c => { c with tokens := rest }

/-- Passes over what was read. A token that is refused is passed over all the same. -/
def settle (ts : List Token) : Except Error (Parsed α) → Counted α
  | .ok (a, rest) => do
    moveTo rest
    return a
  | .error e => do
    moveTo ts.tail
    throw (.error e)

/-- Reads a token. -/
def take (read : List Token → Except Error (Parsed α)) : Counted α := do
  let ts ← tokens
  settle ts (read ts)

/-- Passes over a mark, which has to come. -/
def demand (m : Mark) : Counted Unit :=
  take fun ts => (expect m ts).map fun rest => ((), rest)

/-- Passes over a mark, if it comes. -/
def skip (m : Mark) : Counted Bool := do
  let ts ← tokens
  if startsWith m ts then
    moveTo ts.tail
    return true
  else return false

/-- A name at the beginning of some tokens. -/
def readName : List Token → Except Error (Parsed String)
  | .name name :: rest => .ok (name, rest)
  | ts => unexpected .identifier ts

/-- Any token at the beginning of some tokens. -/
def readToken : List Token → Except Error (Parsed Token)
  | t :: rest => .ok (t, rest)
  | [] => unexpected .expression []

/-! ## Levels -/

/-- Opens a level. -/
def descend : Counted Unit := do
  modify fun c => { c with depth := c.depth + 1 }
  if nestingLimit < (← get).depth then throw (.error (.malformed .tooDeep))

/-- Closes a level. -/
def ascend : Counted Unit := do
  match (← get).depth with
  | 0 => throw .underflow
  | depth + 1 => modify fun c => { c with depth := depth }

/-- Opens a level for a reader and closes it again, also if the reader stops. -/
def guarded (act : Counted α) : Counted α := do
  descend
  let result ← ExceptT.lift act.run
  ascend
  match result with
  | .ok a => return a
  | .error halt => throw halt

/-- Puts the counter back after a reader that gives a result. -/
def restoring (act : Counted α) : Counted α := do
  let depth := (← get).depth
  let a ← act
  modify fun c => { c with depth := depth }
  return a

/-! ## Expressions -/

section

variable (rounds : Nat) (expr unary : Counted Expr)

/-- Do the items end here? After the first one a comma comes before the end or before the next
one. -/
def ends (close : Mark) (read : List Expr) : Counted Bool := do
  if ← skip close then return true
  else if read.isEmpty then return false
  else
    demand .comma
    skip close

/-- The items up to a closing mark, after some that were read. -/
def items (close : Mark) : (rounds : Nat) → List Expr → Counted (List Expr)
  | 0, _ => throw .unfinished
  | rounds + 1, read => do
    if ← ends close read then return read
    else
      let e ← expr
      items close rounds (read ++ [e])

/-- The rest of a chain of operators. -/
def chain (tier : Tier) (operand : Counted Expr) : (rounds : Nat) → Expr → Counted Expr
  | 0, _ => throw .unfinished
  | rounds + 1, left => do
    match tier.read? (← tokens) with
    | none => return left
    | some (op, rest) =>
      moveTo rest
      descend
      let right ← operand
      chain tier operand rounds (.binary op left right)

/-- A chain of operators of the first level given. -/
def level : List Tier → Counted Expr
  | [] => unary
  | tier :: tighter => do
    let left ← level tighter
    restoring (chain tier (level tighter) rounds left)

/-- Does a property or a call come? -/
def isLinked (ts : List Token) : Bool :=
  startsWith .dot ts || startsWith .openBracket ts || startsWith .openParen ts

/-- The properties and calls after an operand. -/
def links : (rounds : Nat) → Expr → Counted Expr
  | 0, _ => throw .unfinished
  | rounds + 1, e => do
    if isLinked (← tokens) then descend else pure ()
    if ← skip .dot then
      let name ← take readName
      links rounds (.attr e name)
    else if ← skip .openBracket then
      let key ← expr
      demand .closeBracket
      links rounds (.item e key)
    else if ← skip .openParen then
      let arguments ← items expr .closeParen rounds []
      links rounds (.call e arguments)
    else return e

/-- A literal, a variable, an expression in parentheses or a list in brackets. -/
def primary : Counted Expr := do
  match ← take readToken with
  | .name name => ofExcept (nameOperand name)
  | .text s => return .const (.string s)
  | .number x => return .const (.number x)
  | .mark .openParen =>
    let e ← expr
    demand .closeParen
    return e
  | .mark .openBracket =>
    let elements ← items expr .closeBracket rounds []
    return .list elements
  | t => throw (.error (.malformed (.noOperand t)))

/-- An operand with its properties and calls. -/
def member : Counted Expr := do
  let e ← primary rounds expr
  restoring (links expr rounds e)

/-- An operand, or the update of a variable with its sign after it. -/
def updated : Counted Expr := do
  let e ← member rounds expr
  match readTick? (← tokens) with
  | some (tick, rest) =>
    moveTo rest
    ofExcept (makeUpdate e tick .after)
  | none => return e

/-- An operator in front of an operand, or an operand with what follows it. -/
def operand : Counted Expr := do
  let ts ← tokens
  match readUnary? ts with
  | some (op, rest) =>
    moveTo rest
    let e ← unary
    return .unary op e
  | none =>
    match readTick? ts with
    | some (tick, rest) =>
      moveTo rest
      let e ← unary
      ofExcept (makeUpdate e tick .before)
    | none => updated rounds expr

/-- A chain of the weakest operators, or a choice between two expressions. -/
def conditional : Counted Expr := do
  let test ← level rounds unary Tier.all
  if ← skip .question then
    let whenTrue ← expr
    demand .colon
    let whenFalse ← expr
    return .cond test whenTrue whenFalse
  else return test

/-- A conditional, or an assignment to a variable. -/
def assignment : Counted Expr := do
  let target ← conditional rounds expr unary
  match readAssign? (← tokens) with
  | none => return target
  | some (op, rest) =>
    moveTo rest
    let name ← ofExcept (assignTarget target)
    let value ← expr
    return .assign name op value

end

mutual

/-- An expression, with a number of levels for the recursion. -/
def expr (rounds : Nat) : (levels : Nat) → Counted Expr
  | 0 => throw .unfinished
  | levels + 1 => guarded (assignment rounds (expr rounds levels) (unary rounds levels))

/-- An operand with any operators in front of it. -/
def unary (rounds : Nat) : (levels : Nat) → Counted Expr
  | 0 => throw .unfinished
  | levels + 1 => guarded (operand rounds (expr rounds levels) (unary rounds levels))

end

/-! ## Heads of loops -/

section

variable (rounds : Nat) (expr : Counted Expr)

/-- The value that a declaration gives to a variable. -/
def initialValue (kind : DeclareKind) : Counted (Option Expr) := do
  if ← skip .assign then
    let e ← expr
    return some e
  else if kind = .const then throw (.error (.malformed .bareConstant))
  else return none

/-- Declared variables, after some that were read. -/
def declarations (kind : DeclareKind) :
    (rounds : Nat) → List (String × Option Expr) → Counted (List (String × Option Expr))
  | 0, _ => throw .unfinished
  | rounds + 1, read => do
    let name ← take readName
    ofExcept (checkBindable name)
    let value ← initialValue expr kind
    if ← skip .comma then declarations kind rounds (read ++ [(name, value)])
    else return read ++ [(name, value)]

/-- The initial part of a loop with the semicolon after it. -/
def initialPart : Counted (Option ForInit) := do
  if ← skip .semicolon then return none
  else
    let ts ← tokens
    match declareKind? ts with
    | some kind =>
      moveTo ts.tail
      let items ← declarations expr kind rounds []
      demand .semicolon
      return some (.declare kind items)
    | none =>
      let e ← expr
      demand .semicolon
      return some (.expr e)

/-- An expression that is missing if the mark comes at once. -/
def optional (stop : Mark) : Counted (Option Expr) := do
  if startsWith stop (← tokens) then return none
  else
    let e ← expr
    return some e

/-- What stands in the parentheses after `for`. -/
def forClauses : Counted ForHead := do
  let ts ← tokens
  let kind := declareKind? ts
  match readEach? (if kind.isSome then ts.tail else ts) with
  | some (name, each, rest) =>
    ofExcept (checkBindable name)
    moveTo rest
    let subject ← expr
    return .each ⟨kind, name⟩ each subject
  | none =>
    let init ← initialPart rounds expr
    let test ← optional expr .semicolon
    demand .semicolon
    let update ← optional expr .closeParen
    return .clauses init test update

/-- The head of a loop from its opening parenthesis up to the brace that opens the block. -/
def forHead : Counted ForHead := do
  demand .openParen
  let head ← guarded (forClauses rounds expr)
  demand .closeParen
  demand .openBrace
  return head

end

end Stencil.Counting
