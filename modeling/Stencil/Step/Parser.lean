import Stencil.Expr.Parser
import Stencil.Source.Segment
import Stencil.Step
import Stencil.Token.Lexer

/-!
# Reading steps

* `Reader.forHead`, `Reader.blockOps`: the operations of a fragment with braces
* `Step.ofInterior`: the step that a fragment's interior is
* `Step.ofSource`: the steps of a whole source
-/

namespace Stencil

namespace Reader

/-! ## Heads of loops -/

/-- The word of a declaration that a token list starts with. -/
def declareKind? : List Token → Option DeclareKind
  | .name "var" :: _ => some .var
  | .name "let" :: _ => some .let_
  | .name "const" :: _ => some .const
  | _ => none

/-- Refuses a name that cannot be bound. -/
def checkBindable (name : String) : Except Error Unit :=
  if isBindable name then .ok () else .error (.malformed (.boundKeyword name))

/-- The value that a declaration gives to a variable. A constant must have one. -/
def initialValue (room : Nat) (kind : DeclareKind) (ts : List Token) :
    Except Error (Parsed (Option Expr)) := do
  if startsWith .assign ts then
    let (e, ts) ← expr room ts.tail
    return (some e, ts)
  else if kind = .const then .error (.malformed .bareConstant)
  else return (none, ts)

/-- One or more variables with commas between them. `count` bounds their number. -/
def declarations (room : Nat) (kind : DeclareKind) :
    (count : Nat) → List Token → Except Error (Parsed (List (String × Option Expr)))
  | 0, ts => unexpected .identifier ts
  | count + 1, .name name :: ts => do
    checkBindable name
    let (value, ts) ← initialValue room kind ts
    if startsWith .comma ts then
      let (others, ts) ← declarations room kind count ts.tail
      return ((name, value) :: others, ts)
    else return ([(name, value)], ts)
  | _ + 1, ts => unexpected .identifier ts

/-- The initial part of a loop. -/
def forInit (room : Nat) (ts : List Token) : Except Error (Parsed ForInit) :=
  match declareKind? ts with
  | some kind => do
    let (items, ts) ← declarations room kind ts.length ts.tail
    return (.declare kind items, ts)
  | none => do
    let (e, ts) ← expr room ts
    return (.expr e, ts)

/-- A part that may be missing. It is missing if the mark after it comes at once. -/
def optional {α : Type} (stop : Mark) (part : List Token → Except Error (Parsed α))
    (ts : List Token) :
    Except Error (Parsed (Option α)) :=
  if startsWith stop ts then .ok (none, ts)
  else (part ts).map fun (a, ts) => (some a, ts)

/-- The name, the kind of the loop and the tokens after them, if a token list starts like a loop
over values or keys. -/
def readEach? : List Token → Option (String × EachKind × List Token)
  | .name name :: .name "of" :: rest => some (name, .values, rest)
  | .name name :: .name "in" :: rest => some (name, .keys, rest)
  | _ => none

/-- What stands in the parentheses after `for`. -/
def forClauses (room : Nat) (ts : List Token) : Except Error (Parsed ForHead) := do
  let kind := declareKind? ts
  match readEach? (if kind.isSome then ts.tail else ts) with
  | some (name, each, ts) =>
    checkBindable name
    let (subject, ts) ← expr room ts
    return (.each ⟨kind, name⟩ each subject, ts)
  | none =>
    let (init, ts) ← optional .semicolon (forInit room) ts
    let ts ← expect .semicolon ts
    let (test, ts) ← optional .semicolon (expr room) ts
    let ts ← expect .semicolon ts
    let (update, ts) ← optional .closeParen (expr room) ts
    return (.clauses init test update, ts)

/-- The head of a loop from its opening parenthesis up to the brace that opens the block. What
stands in the parentheses takes a level. -/
def forHead (room : Nat) (ts : List Token) : Except Error (Parsed ForHead) := do
  let ts ← expect .openParen ts
  match room with
  | 0 => tooDeep
  | room + 1 =>
    let (head, ts) ← forClauses room ts
    let ts ← expect .closeParen ts
    let ts ← expect .openBrace ts
    return (head, ts)

/-! ## Operations on blocks -/

/-- A test in parentheses and the brace that opens the block. -/
def blockTest (room : Nat) (ts : List Token) : Except Error (Parsed Expr) := do
  let ts ← expect .openParen ts
  let (e, ts) ← expr room ts
  let ts ← expect .closeParen ts
  let ts ← expect .openBrace ts
  return (e, ts)

/-- The operation that a token list starts with. -/
def blockOp (room : Nat) (ts : List Token) : Except Error (Parsed BlockOp) :=
  match ts with
  | .mark .semicolon :: ts => .ok (.empty, ts)
  | .mark .closeBrace :: ts => .ok (.close, ts)
  | .name "if" :: ts => (blockTest room ts).map fun (e, ts) => (.ifBlock e, ts)
  | .name "while" :: ts => (blockTest room ts).map fun (e, ts) => (.whileBlock e, ts)
  | .name "for" :: ts => (forHead room ts).map fun (head, ts) => (.forBlock head, ts)
  | .name "else" :: .name "if" :: ts => (blockTest room ts).map fun (e, ts) => (.elseIfBlock e, ts)
  | .name "else" :: ts => (expect .openBrace ts).map fun ts => (.elseBlock, ts)
  | ts => unexpected .controlStatement ts

/-- The operations that a token list consists of. `count` bounds their number. -/
def blockOps (room : Nat) : (count : Nat) → List Token → Except Error (List BlockOp)
  | _, [] => .ok []
  | 0, ts => unexpected .controlStatement ts
  | count + 1, ts => do
    let (op, ts) ← blockOp room ts
    let others ← blockOps room count ts
    return op :: others

end Reader

/-! ## Steps -/

/-- The step that the tokens of a fragment make up: a group of operations if there is a brace among
them, and an expression otherwise. -/
def Step.ofTokens (ts : List Token) : Except Error Step :=
  if ts.any Token.isBrace then (Reader.blockOps nestingLimit ts.length ts).map .control
  else (Reader.standalone ts).map .expr

/-- The step that a fragment's interior is. -/
def Step.ofInterior (interior : List Char) : Except Error Step := do
  Step.ofTokens (← Lexer.tokens interior)

/-- The step that a segment is. -/
def Step.ofSegment : Source.Segment → Except Error Step
  | .literal text => .ok (.literal (String.ofList text))
  | .fragment interior => Step.ofInterior interior

/-- The steps of a source. -/
def Step.ofSource (source : List Char) : Except Error (List Step) :=
  (Source.segments source).mapM Step.ofSegment

/-- The expression that a text is. -/
def Expr.ofText (source : List Char) : Except Error Expr := do
  Reader.standalone (← Lexer.tokens source)

end Stencil
