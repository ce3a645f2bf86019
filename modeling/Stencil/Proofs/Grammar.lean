import Stencil.Expr

/-!
# The grammar of expressions

Levels tell how strongly the parts of an expression are bound together: 0 for assignments and
conditionals, 1 to 6 for the binary operators, 7 for operators in front of an operand, 8 for updates
after a variable, and 9 for properties, calls and everything that needs no grouping.

* `BinaryOp.strength`, `BinaryOp.mark`: the level and the mark of an operator
* `Leaf`: the expressions that are a single token
* `Derives`, `DerivesItems`: the tokens are a derivation of the expression at a level, or of several
  expressions
-/

namespace Stencil

/-! ## Operators -/

/-- How strongly a binary operator binds. -/
def BinaryOp.strength : BinaryOp → Nat
  | .logic .or | .logic .coalesce => 1
  | .logic .and => 2
  | .compare .eq | .compare .ne | .compare .strictEq | .compare .strictNe => 3
  | .compare .lt | .compare .le | .compare .gt | .compare .ge => 4
  | .arith .add | .arith .sub => 5
  | .arith .mul | .arith .div | .arith .rem => 6

/-- The mark of a binary operator. -/
def BinaryOp.mark : BinaryOp → Mark
  | .logic .or => .or
  | .logic .coalesce => .coalesce
  | .logic .and => .and
  | .compare .eq => .eq
  | .compare .ne => .ne
  | .compare .strictEq => .strictEq
  | .compare .strictNe => .strictNe
  | .compare .lt => .lt
  | .compare .le => .le
  | .compare .gt => .gt
  | .compare .ge => .ge
  | .arith .add => .plus
  | .arith .sub => .minus
  | .arith .mul => .times
  | .arith .div => .divide
  | .arith .rem => .remainder

/-- The token of an operator in front of its operand. -/
def UnaryOp.token : UnaryOp → Token
  | .not => .mark .not
  | .negate => .mark .minus
  | .toNumber => .mark .plus
  | .typeOf => .name "typeof"

/-- The sign of an update. -/
def Tick.mark : Tick → Mark
  | .up => .increment
  | .down => .decrement

/-- The mark of an assignment that perhaps computes with an operator first. Only the operators that
compute have one. -/
def assignMark? : Option BinaryOp → Option Mark
  | none => some .assign
  | some (.arith .add) => some .plusAssign
  | some (.arith .sub) => some .minusAssign
  | some (.arith .mul) => some .timesAssign
  | some (.arith .div) => some .divideAssign
  | some (.arith .rem) => some .remainderAssign
  | some (.compare _) | some (.logic _) => none

theorem BinaryOp.strength_pos (op : BinaryOp) : 0 < op.strength := by
  rcases op with op | op | op <;> cases op <;> decide

theorem BinaryOp.strength_lt (op : BinaryOp) : op.strength < 7 := by
  rcases op with op | op | op <;> cases op <;> decide

/-! ## Derivations -/

/-- Can the name stand for a variable in an expression? -/
def IsVariable (name : String) : Prop :=
  isBindable name = true ∧ name ≠ "typeof"

instance (name : String) : Decidable (IsVariable name) :=
  inferInstanceAs (Decidable (_ ∧ _))

/-- The expression is a single token. -/
inductive Leaf : Expr → Token → Prop
  | var {name : String} : IsVariable name → Leaf (.var name) (.name name)
  | this : Leaf .this (.name "this")
  | true : Leaf (.const (.bool true)) (.name "true")
  | false : Leaf (.const (.bool false)) (.name "false")
  | null : Leaf (.const .null) (.name "null")
  | text (s : String) : Leaf (.const (.string s)) (.text s)
  | number (x : Float) : Leaf (.const (.number x)) (.number x)

mutual

/-- The tokens are a derivation of the expression at a level. -/
inductive Derives : Nat → Expr → List Token → Prop
  /-- What is bound strongly enough for one level is so for the level below. -/
  | weaken {k : Nat} {e : Expr} {ts : List Token} : Derives (k + 1) e ts → Derives k e ts
  | leaf {e : Expr} {t : Token} : Leaf e t → Derives 9 e [t]
  /-- Any expression in parentheses. -/
  | group {e : Expr} {ts : List Token} :
      Derives 0 e ts → Derives 9 e (.mark .openParen :: (ts ++ [.mark .closeParen]))
  | list {items : List Expr} {ts : List Token} :
      DerivesItems items ts →
      Derives 9 (.list items) (.mark .openBracket :: (ts ++ [.mark .closeBracket]))
  | attr {e : Expr} {name : String} {ts : List Token} :
      Derives 9 e ts → Derives 9 (.attr e name) (ts ++ [.mark .dot, .name name])
  | item {e key : Expr} {ts us : List Token} :
      Derives 9 e ts → Derives 0 key us →
      Derives 9 (.item e key) (ts ++ .mark .openBracket :: (us ++ [.mark .closeBracket]))
  | call {e : Expr} {arguments : List Expr} {ts us : List Token} :
      Derives 9 e ts → DerivesItems arguments us →
      Derives 9 (.call e arguments) (ts ++ .mark .openParen :: (us ++ [.mark .closeParen]))
  /-- Only a variable is updated. -/
  | after {name : String} {tick : Tick} {ts : List Token} :
      Derives 9 (.var name) ts → Derives 8 (.update name tick .after) (ts ++ [.mark tick.mark])
  | before {name : String} {tick : Tick} {ts : List Token} :
      Derives 9 (.var name) ts → Derives 7 (.update name tick .before) (.mark tick.mark :: ts)
  | unary {op : UnaryOp} {e : Expr} {ts : List Token} :
      Derives 7 e ts → Derives 7 (.unary op e) (op.token :: ts)
  /-- Binary operators group to the left: the right operand is bound more strongly. -/
  | binary {op : BinaryOp} {left right : Expr} {ts us : List Token} :
      Derives op.strength left ts → Derives (op.strength + 1) right us →
      Derives op.strength (.binary op left right) (ts ++ .mark op.mark :: us)
  /-- Conditionals group to the right. -/
  | cond {test whenTrue whenFalse : Expr} {ts us vs : List Token} :
      Derives 1 test ts → Derives 0 whenTrue us → Derives 0 whenFalse vs →
      Derives 0 (.cond test whenTrue whenFalse)
        (ts ++ .mark .question :: (us ++ .mark .colon :: vs))
  /-- Only a variable is assigned to. -/
  | assign {name : String} {op : Option BinaryOp} {m : Mark} {value : Expr} {ts us : List Token} :
      assignMark? op = some m → Derives 9 (.var name) ts → Derives 0 value us →
      Derives 0 (.assign name op value) (ts ++ .mark m :: us)

/-- The tokens are derivations of several expressions, with commas between them. -/
inductive DerivesItems : List Expr → List Token → Prop
  | nil : DerivesItems [] []
  | last {e : Expr} {ts : List Token} : Derives 0 e ts → DerivesItems [e] ts
  /-- One comma may stand after the last expression. -/
  | trailing {e : Expr} {ts : List Token} :
      Derives 0 e ts → DerivesItems [e] (ts ++ [.mark .comma])
  | cons {e next : Expr} {rest : List Expr} {ts us : List Token} :
      Derives 0 e ts → DerivesItems (next :: rest) us →
      DerivesItems (e :: next :: rest) (ts ++ .mark .comma :: us)

end

/-! ## Small facts -/

theorem Derives.of_le {j k : Nat} {e : Expr} {ts : List Token} (h : Derives k e ts)
    (hjk : j ≤ k) : Derives j e ts := by
  induction hjk with
  | refl => exact h
  | step _ ih => exact ih h.weaken

/-- A variable needs no level: it is a name, perhaps in parentheses. -/
theorem Derives.var_nine {k : Nat} {name : String} {ts : List Token}
    (h : Derives k (.var name) ts) : Derives 9 (.var name) ts := by
  generalize he : Expr.var name = e at h
  refine @Derives.rec
    (fun _ e ts _ => Expr.var name = e → Derives 9 e ts)
    (fun _ _ _ => True)
    ?weaken ?leaf ?group ?list ?attr ?item ?call ?after ?before ?unary ?binary ?cond ?assign
    ?nil ?last ?trailing ?cons k e ts h he
  case weaken => intro _ _ _ _ ih he; exact ih he
  case leaf => intro _ _ h _; exact .leaf h
  case group => intro _ _ h _ _; exact .group h
  all_goals intros; trivial

end Stencil
