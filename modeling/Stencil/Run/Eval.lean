import Stencil.Html
import Stencil.Run.State
import Stencil.Value.Method

/-!
# Evaluating expressions

* `escapeValue`: a value made safe for markup
* `Function.call`: what a call of a function gives
* `eval`, `evalAll`: the value of an expression, and of several ones in order
-/

namespace Stencil

/-- A text with its special characters escaped. Any other value stays as it is. -/
def escapeValue : Value → Value
  | .string s => .string (Html.escapeString s)
  | v => v

/-- What a call of a function gives. -/
def Function.call (host : Host) (f : Function) (arguments : List Value) (fresh : Ref) :
    Except Error Value :=
  match f with
  | .escaper => .ok (escapeValue (argument arguments 0))
  | .host .. => host f arguments fresh

/-- What a call of a value gives. Only functions can be called. -/
def Value.call (host : Host) (callee : Value) (arguments : List Value) (fresh : Ref) :
    Except Error Value :=
  match callee with
  | .function f => f.call host arguments fresh
  | v => .error (.noFunction v.kind)

/-- What an operator in front of its operand computes. -/
def UnaryOp.apply (op : UnaryOp) (v : Value) : Value :=
  match op with
  | .not => .bool !v.isTrue
  | .negate => v.negate
  | .toNumber => .number v.toNumber
  | .typeOf => .string v.typeName

/-- Does the left operand alone decide the result? -/
def LogicOp.decides (op : LogicOp) (left : Value) : Bool :=
  match op with
  | .and => !left.isTrue
  | .or => left.isTrue
  | .coalesce => !left.isNullish

/-- What an operator computes from both of its operands. The operators that may leave out the right
one have no business here, and it does not matter what they give: no template that was read applies
one of them in this way. -/
def BinaryOp.apply (op : BinaryOp) (a b : Value) : Value :=
  match op with
  | .arith op => op.apply a b
  | .compare op => .bool (op.apply a b)
  | .logic _ => .undefined

/-- A number one higher or one lower. -/
def Tick.apply (tick : Tick) (x : Float) : Float :=
  match tick with
  | .up => x + 1
  | .down => x - 1

namespace Run

variable {σ : Type}

/-- Calls a function. -/
def invoke (scene : Scene) (f : Function) (arguments : List Value) : Action σ Value := do
  modify fun s => { s with calls := (f, arguments) :: s.calls }
  ofExcept (f.call scene.host arguments (← freshRef))

/-- Calls the value of an expression. -/
def invokeValue (scene : Scene) (callee : Expr) (f : Value) (arguments : List Value) :
    Action σ Value :=
  match f with
  | .function f => invoke scene f arguments
  | _ => fail (.notCallable callee.calleeText)

/-- Calls a property of a value, or else a built-in method. -/
def invokeMethod (scene : Scene) (callee : Expr) (target property : Value) (name : String)
    (arguments : List Value) : Action σ Value := do
  match property with
  | .function f => invoke scene f arguments
  | _ =>
    match target.method? (← freshRef) name arguments with
    | some v => pure v
    | none => fail (.notCallable callee.calleeText)

mutual

/-- The value of an expression. Parts are evaluated from left to right. -/
def eval (scene : Scene) : Expr → Action σ Value
  | .var name => load scene name
  | .this => pure scene.context.toValue
  | .const v => pure v
  | .list items => do
    let values ← evalAll scene items
    return .array (← freshRef) values
  | .attr target name => do
    let v ← eval scene target
    ofExcept (v.property name)
  | .item target key => do
    let v ← eval scene target
    let k ← eval scene key
    ofExcept (v.property k.text)
  | .call (.attr target name) arguments => do
    let v ← eval scene target
    let property ← ofExcept (v.property name)
    let arguments' ← evalAll scene arguments
    invokeMethod scene (.attr target name) v property name arguments'
  | .call (.item target key) arguments => do
    let v ← eval scene target
    let k ← eval scene key
    let property ← ofExcept (v.property k.text)
    let arguments' ← evalAll scene arguments
    invokeMethod scene (.item target key) v property k.text arguments'
  | .call callee arguments => do
    let f ← eval scene callee
    let arguments' ← evalAll scene arguments
    invokeValue scene callee f arguments'
  | .unary .typeOf (.var name) => do
    return .string ((lookup? scene (← get).locals name).getD .undefined).typeName
  | .unary op operand => do
    let v ← eval scene operand
    return op.apply v
  | .binary op left right => do
    let a ← eval scene left
    match op with
    | .logic op => if op.decides a then pure a else eval scene right
    | .arith op => return BinaryOp.apply (.arith op) a (← eval scene right)
    | .compare op => return BinaryOp.apply (.compare op) a (← eval scene right)
  | .cond test whenTrue whenFalse => do
    let t ← eval scene test
    if t.isTrue then eval scene whenTrue else eval scene whenFalse
  | .assign name none value => do
    let v ← eval scene value
    assign name v
    return v
  | .assign name (some op) value => do
    let current ← load scene name
    let v ← eval scene value
    let result := op.apply current v
    assign name result
    return result
  | .update name tick side => do
    let old := (← load scene name).toNumber
    let new := tick.apply old
    assign name (.number new)
    return .number (if side = .before then new else old)

/-- The values of several expressions, in order. -/
def evalAll (scene : Scene) : List Expr → Action σ (List Value)
  | [] => pure []
  | e :: rest => do
    let v ← eval scene e
    let values ← evalAll scene rest
    return v :: values

end

/-- Does the test hold? -/
def holds (scene : Scene) (test : Expr) : Action σ Bool := do
  return (← eval scene test).isTrue

end Run

end Stencil
