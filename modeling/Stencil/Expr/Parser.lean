import Stencil.Error
import Stencil.Expr

/-!
# Reading expressions

Operators bind in levels. From weakest to strongest: assignment, the conditional, `Reader.Tier.all`,
operators in front of their operand, updates after it, properties and calls.

Every reader gets the number of levels that may still be opened, its `room`. An expression, an
operand, each further operator of a chain and each further property or call takes one; a reader that
needs one and has none fails.

* `Reader.Tier`: the binary operators of one level, which group to the left
* `Reader.expr`: an expression at the beginning of a token list, with the tokens after it
* `Reader.standalone`: an expression that is all of a token list
-/

namespace Stencil

/-- What was read at the beginning of a token list, and the tokens after it. -/
abbrev Parsed (α : Type) := α × List Token

/-- How deeply expressions, and likewise blocks, may be nested. -/
def nestingLimit : Nat := 150

/-- The failure of a reader that has no room left. -/
def tooDeep {α : Type} : Except Error α :=
  .error (.malformed .tooDeep)

namespace Reader

/-- The failure at the beginning of a token list where something else was expected. -/
def unexpected {α : Type} (expected : Expected) (ts : List Token) : Except Error α :=
  .error (.malformed (.unexpected ts.head? expected))

/-- Passes over a mark. -/
def expect (m : Mark) (ts : List Token) : Except Error (List Token) :=
  match ts with
  | .mark n :: rest => if n = m then .ok rest else unexpected (.mark m) ts
  | _ => unexpected (.mark m) ts

/-- Does the token list start with the mark? -/
def startsWith (m : Mark) (ts : List Token) : Bool :=
  ts.head? == some (.mark m)

/-! ## Operators -/

/-- The binary operators of one level. -/
abbrev Tier := List (Mark × BinaryOp)

/-- The levels of the binary operators, from weakest to strongest. -/
def Tier.all : List Tier :=
  [[(.or, .logic .or), (.coalesce, .logic .coalesce)],
   [(.and, .logic .and)],
   [(.eq, .compare .eq), (.ne, .compare .ne),
    (.strictEq, .compare .strictEq), (.strictNe, .compare .strictNe)],
   [(.lt, .compare .lt), (.le, .compare .le), (.gt, .compare .gt), (.ge, .compare .ge)],
   [(.plus, .arith .add), (.minus, .arith .sub)],
   [(.times, .arith .mul), (.divide, .arith .div), (.remainder, .arith .rem)]]

/-- The operator of a level that a token list starts with, and the tokens after it. -/
def Tier.read? (tier : Tier) : List Token → Option (BinaryOp × List Token)
  | .mark m :: rest => (tier.lookup m).map fun op => (op, rest)
  | _ => none

/-- The assignment that a token list starts with, and the tokens after it. -/
def readAssign? : List Token → Option (Option BinaryOp × List Token)
  | .mark .assign :: rest => some (none, rest)
  | .mark .plusAssign :: rest => some (some (.arith .add), rest)
  | .mark .minusAssign :: rest => some (some (.arith .sub), rest)
  | .mark .timesAssign :: rest => some (some (.arith .mul), rest)
  | .mark .divideAssign :: rest => some (some (.arith .div), rest)
  | .mark .remainderAssign :: rest => some (some (.arith .rem), rest)
  | _ => none

/-- The operator in front of an operand that a token list starts with, and the tokens after it. -/
def readUnary? : List Token → Option (UnaryOp × List Token)
  | .mark .not :: rest => some (.not, rest)
  | .mark .minus :: rest => some (.negate, rest)
  | .mark .plus :: rest => some (.toNumber, rest)
  | .name "typeof" :: rest => some (.typeOf, rest)
  | _ => none

/-- The sign of an update that a token list starts with, and the tokens after it. -/
def readTick? : List Token → Option (Tick × List Token)
  | .mark .increment :: rest => some (.up, rest)
  | .mark .decrement :: rest => some (.down, rest)
  | _ => none

/-- The update of a variable. Nothing else can be updated. -/
def makeUpdate (target : Expr) (tick : Tick) (side : Side) : Except Error Expr :=
  match target with
  | .var name => .ok (.update name tick side)
  | _ => .error (.malformed .updateTarget)

/-- The assignment to a variable. Nothing else can be assigned to. -/
def assignTarget (target : Expr) : Except Error String :=
  match target with
  | .var name => .ok name
  | _ => .error (.malformed .assignmentTarget)

/-- What a name stands for at the beginning of an operand. -/
def nameOperand (name : String) : Except Error Expr :=
  if name = "true" then .ok (.const (.bool true))
  else if name = "false" then .ok (.const (.bool false))
  else if name = "null" then .ok (.const .null)
  else if name = "this" then .ok .this
  else if reservedWords.contains name then .error (.malformed (.keyword name))
  else .ok (.var name)

/-! ## Lists of items -/

/-- Items with commas between them up to a closing mark, which is passed over. There is an item
here; one comma may stand after the last one. `count` bounds the number of items. -/
def itemsFrom (item : List Token → Except Error (Parsed Expr)) (close : Mark) :
    (count : Nat) → List Token → Except Error (Parsed (List Expr))
  | 0, ts => unexpected (.mark close) ts
  | count + 1, ts => do
    let (first, ts) ← item ts
    if startsWith close ts then return ([first], ts.tail)
    let ts ← expect .comma ts
    if startsWith close ts then return ([first], ts.tail)
    let (others, ts) ← itemsFrom item close count ts
    return (first :: others, ts)

/-- Items with commas between them up to a closing mark, which is passed over. -/
def items (item : List Token → Except Error (Parsed Expr)) (close : Mark) (ts : List Token) :
    Except Error (Parsed (List Expr)) :=
  if startsWith close ts then .ok ([], ts.tail)
  else itemsFrom item close (ts.length + 1) ts

/-! ## Expressions -/

mutual

/-- An expression. It takes a level. -/
def expr (room : Nat) (ts : List Token) : Except Error (Parsed Expr) :=
  match room with
  | 0 => tooDeep
  | room + 1 => assignment room ts
termination_by (room, 0)

/-- A conditional, or an assignment to a variable. -/
def assignment (room : Nat) (ts : List Token) : Except Error (Parsed Expr) := do
  let (target, ts) ← conditional room ts
  match readAssign? ts with
  | none => return (target, ts)
  | some (op, ts) =>
    let name ← assignTarget target
    let (value, ts) ← expr room ts
    return (.assign name op value, ts)
termination_by (room, 8 + Tier.all.length)

/-- A chain of the weakest operators, or a choice between two expressions. -/
def conditional (room : Nat) (ts : List Token) : Except Error (Parsed Expr) := do
  let (test, ts) ← level Tier.all room ts
  if startsWith .question ts then
    let (whenTrue, ts) ← expr room ts.tail
    let ts ← expect .colon ts
    let (whenFalse, ts) ← expr room ts
    return (.cond test whenTrue whenFalse, ts)
  else return (test, ts)
termination_by (room, 7 + Tier.all.length)

/-- A chain of operators of the first level given, whose operands are chains of the levels after
it. -/
def level (tiers : List Tier) (room : Nat) (ts : List Token) : Except Error (Parsed Expr) :=
  match tiers with
  | [] => unary room ts
  | tier :: tighter => do
    let (left, ts) ← level tighter room ts
    chain tier tighter room left ts
termination_by (room, 6 + tiers.length)

/-- The rest of a chain whose beginning was read. Each operator takes a level for the rest of the
chain. -/
def chain (tier : Tier) (tighter : List Tier) (room : Nat) (left : Expr) (ts : List Token) :
    Except Error (Parsed Expr) :=
  match tier.read? ts, room with
  | none, _ => .ok (left, ts)
  | some _, 0 => tooDeep
  | some (op, ts), room + 1 => do
    let (right, ts) ← level tighter room ts
    chain tier tighter room (.binary op left right) ts
termination_by (room, 6 + tighter.length)

/-- An operand with any operators in front of it. It takes a level. -/
def unary (room : Nat) (ts : List Token) : Except Error (Parsed Expr) :=
  match room with
  | 0 => tooDeep
  | room + 1 => operand room ts
termination_by (room, 1)

/-- An operator in front of an operand, or an operand with what follows it. -/
def operand (room : Nat) (ts : List Token) : Except Error (Parsed Expr) :=
  match readUnary? ts with
  | some (op, ts) => do
    let (e, ts) ← unary room ts
    return (.unary op e, ts)
  | none =>
    match readTick? ts with
    | some (tick, ts) => do
      let (e, ts) ← unary room ts
      return (← makeUpdate e tick .before, ts)
    | none => updated room ts
termination_by (room, 5)

/-- An operand, or the update of a variable with its sign after it. -/
def updated (room : Nat) (ts : List Token) : Except Error (Parsed Expr) := do
  let (e, ts) ← member room ts
  match readTick? ts with
  | some (tick, ts) => return (← makeUpdate e tick .after, ts)
  | none => return (e, ts)
termination_by (room, 4)

/-- An operand with its properties and calls. -/
def member (room : Nat) (ts : List Token) : Except Error (Parsed Expr) := do
  let (e, ts) ← primary room ts
  links room e ts
termination_by (room, 3)

/-- The properties and calls after an operand. Each takes a level for the rest of them. -/
def links (room : Nat) (e : Expr) (ts : List Token) : Except Error (Parsed Expr) :=
  match ts, room with
  | .mark .dot :: _, 0 => tooDeep
  | .mark .openBracket :: _, 0 => tooDeep
  | .mark .openParen :: _, 0 => tooDeep
  | .mark .dot :: .name name :: ts, room + 1 => links room (.attr e name) ts
  | .mark .dot :: ts, _ + 1 => unexpected .identifier ts
  | .mark .openBracket :: ts, room + 1 => do
    let (key, ts) ← expr room ts
    let ts ← expect .closeBracket ts
    links room (.item e key) ts
  | .mark .openParen :: ts, room + 1 => do
    let (arguments, ts) ← items (fun ts => expr room ts) .closeParen ts
    links room (.call e arguments) ts
  | ts, _ => .ok (e, ts)
termination_by (room, 0)

/-- A literal, a variable, an expression in parentheses or a list in brackets. -/
def primary (room : Nat) (ts : List Token) : Except Error (Parsed Expr) :=
  match ts with
  | .name name :: ts => (nameOperand name).map fun e => (e, ts)
  | .text s :: ts => .ok (.const (.string s), ts)
  | .number x :: ts => .ok (.const (.number x), ts)
  | .mark .openParen :: ts => do
    let (e, ts) ← expr room ts
    let ts ← expect .closeParen ts
    return (e, ts)
  | .mark .openBracket :: ts => do
    let (elements, ts) ← items (fun ts => expr room ts) .closeBracket ts
    return (.list elements, ts)
  | t :: _ => .error (.malformed (.noOperand t))
  | [] => unexpected .expression []
termination_by (room, 2)

end

/-- The expression that a whole token list is. No tokens at all stand for `undefined`. -/
def standalone (ts : List Token) : Except Error Expr := do
  if ts.isEmpty then return .const .undefined
  let (e, ts) ← expr nestingLimit ts
  if ts.isEmpty then return e else unexpected .endOfExpression ts

end Reader

end Stencil
