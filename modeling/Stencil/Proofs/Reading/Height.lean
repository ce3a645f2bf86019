import Mathlib.Tactic.Ring
import Stencil.Proofs.Reading.Yields

/-!
# How high expressions are

An expression takes a level and gives it back when it was read. So the levels of a chain's left
operand are free again for the operators of the chain, and an expression may be higher than there
are levels. Its height is bounded by the square of their number.

* `Expr.height`: the number of nodes on the longest way from the root to a leaf
* `Reader.expr_height`: the height of an expression that is read with some room
-/

namespace Stencil

/-! ## Height -/

mutual

/-- The number of nodes on the longest way from the root to a leaf. -/
def Expr.height : Expr → Nat
  | .var _ | .this | .const _ | .update .. => 1
  | .list items => 1 + Expr.heightAll items
  | .attr target _ => 1 + target.height
  | .item target key => 1 + max target.height key.height
  | .call callee arguments => 1 + max callee.height (Expr.heightAll arguments)
  | .unary _ operand => 1 + operand.height
  | .binary _ left right => 1 + max left.height right.height
  | .cond test whenTrue whenFalse => 1 + max test.height (max whenTrue.height whenFalse.height)
  | .assign _ _ value => 1 + value.height

/-- The greatest height of some expressions. -/
def Expr.heightAll : List Expr → Nat
  | [] => 0
  | e :: rest => max e.height (Expr.heightAll rest)

end

namespace Reader

/-- The expression that was read is not higher than the bound. -/
def Low (bound : Nat) (read : Parsed Expr) : Prop :=
  read.1.height ≤ bound

/-- The height of an expression that is read with some room. -/
def exprBound (room : Nat) : Nat :=
  2 * room * room

/-- The height of an operand that is read with some room. -/
def operandBound (room : Nat) : Nat :=
  exprBound room + 2 * room + 1

/-- The height of an operand that takes a level. -/
def unaryBound : Nat → Nat
  | 0 => 0
  | room + 1 => operandBound room

/-- The height of a chain of operators, with a number of levels of operators that bind tighter or
equally. Each level may have as many operators as there is room. -/
def levelBound (levels room : Nat) : Nat :=
  unaryBound room + levels * room

theorem exprBound_succ (room : Nat) : exprBound (room + 1) = exprBound room + 4 * room + 2 := by
  unfold exprBound
  ring

theorem unaryBound_lt (room : Nat) : unaryBound room < operandBound room := by
  cases room with
  | zero => exact Nat.succ_pos _
  | succ room =>
    have hsucc := exprBound_succ room
    simp only [unaryBound, operandBound]
    omega

theorem levelBound_le_succ (levels room : Nat) :
    levelBound levels room ≤ levelBound levels (room + 1) :=
  Nat.add_le_add (Nat.le_of_lt (unaryBound_lt room)) (Nat.mul_le_mul_left levels (Nat.le_succ room))

/-- A conditional over chains of all levels is as high as an expression that takes one more
level. -/
theorem levelBound_all_lt (room : Nat) :
    levelBound Tier.all.length room + 1 ≤ exprBound (room + 1) := by
  have hlevels : Tier.all.length = 6 := rfl
  rw [hlevels, levelBound]
  cases room with
  | zero => exact Nat.le_succ 1
  | succ room =>
    have hsucc := exprBound_succ room
    have hsucc' := exprBound_succ (room + 1)
    simp only [unaryBound, operandBound]
    omega

/-! ## Lists of items -/

theorem itemsFrom_height {bound : Nat} {item : List Token → Except Error (Parsed Expr)}
    {close : Mark} (h : ∀ ts, Yields (Low bound) (item ts)) (count : Nat) (ts : List Token) :
    Yields (fun read => Expr.heightAll read.1 ≤ bound) (itemsFrom item close count ts) := by
  induction count generalizing ts with
  | zero => exact .error
  | succ count ih =>
    rw [itemsFrom]
    refine (h ts).bind ?_
    rintro ⟨first, ts⟩ hfirst
    have hone : Expr.heightAll [first] ≤ bound := Nat.max_le.2 ⟨hfirst, Nat.zero_le _⟩
    dsimp only
    split
    · exact .ok hone
    refine (Yields.trivial _).bind fun ts _ => ?_
    split
    · exact .ok hone
    exact (ih ts).bind fun others hothers => .ok (Nat.max_le.2 ⟨hfirst, hothers⟩)

theorem items_height {bound : Nat} {item : List Token → Except Error (Parsed Expr)} {close : Mark}
    (h : ∀ ts, Yields (Low bound) (item ts)) (ts : List Token) :
    Yields (fun read => Expr.heightAll read.1 ≤ bound) (items item close ts) := by
  unfold items
  split
  · exact .ok (Nat.zero_le _)
  · exact itemsFrom_height h _ ts

/-! ## Single nodes -/

theorem makeUpdate_height (e : Expr) (tick : Tick) (side : Side) :
    Yields (fun e => e.height = 1) (makeUpdate e tick side) := by
  unfold makeUpdate
  split
  · exact .ok rfl
  · exact .error

theorem nameOperand_height (name : String) :
    Yields (fun e => e.height = 1) (nameOperand name) := by
  intro e h
  unfold nameOperand at h
  split_ifs at h <;> cases h <;> rfl

/-! ## All readers together -/

/-- An expression that is read with some room is at most as high as the bound for the room. -/
theorem expr_height (room : Nat) (ts : List Token) :
    Yields (Low (exprBound room)) (expr room ts) := by
  have hall := Reader.expr.mutual_induct
    (fun room ts => Yields (Low (exprBound room)) (expr room ts))
    (fun room ts => Yields (Low (exprBound (room + 1))) (assignment room ts))
    (fun room ts => Yields (Low (exprBound (room + 1))) (conditional room ts))
    (fun tiers room ts => Yields (Low (levelBound tiers.length room)) (level tiers room ts))
    (fun tier tighter room left ts =>
      Yields (Low (max left.height (levelBound tighter.length room) + room))
        (chain tier tighter room left ts))
    (fun room ts => Yields (Low (unaryBound room)) (unary room ts))
    (fun room ts => Yields (Low (operandBound room)) (operand room ts))
    (fun room ts => Yields (Low (operandBound room)) (updated room ts))
    (fun room ts => Yields (Low (operandBound room)) (member room ts))
    (fun room e ts => Yields (Low (max e.height (exprBound room) + room)) (links room e ts))
    (fun room ts => Yields (Low (exprBound room + 1)) (primary room ts))
  refine (hall ?exprFull ?expr ?assignment ?conditional ?levelUnary ?level ?chainEnd ?chainFull
    ?chain ?unaryFull ?unary ?operandUnary ?operandTick ?operand ?updated ?member ?dotFull
    ?bracketFull ?parenFull ?attr ?attrBad ?item ?call ?linksEnd ?name ?text ?number ?group ?list
    ?primaryBad ?primaryEnd).1 room ts
  case exprFull =>
    intro ts
    rw [expr]
    exact .error
  case expr =>
    intro ts room ih
    rw [expr]
    exact ih
  case assignment =>
    intro room ts hcond hexpr
    rw [assignment]
    refine hcond.bind ?_
    rintro ⟨target, ts⟩ htarget
    dsimp only
    split
    · exact .ok htarget
    · refine (Yields.trivial _).bind fun name _ => (hexpr _).bind ?_
      rintro ⟨value, ts⟩ hvalue
      have hsucc := exprBound_succ room
      refine .ok ?_
      simp only [Low, Expr.height] at hvalue ⊢
      omega
  case conditional =>
    intro room ts hlevel hexpr hexpr'
    rw [conditional]
    refine hlevel.bind ?_
    rintro ⟨test, ts⟩ htest
    have hlt := levelBound_all_lt room
    dsimp only
    split
    · refine (hexpr ts).bind ?_
      rintro ⟨whenTrue, ts⟩ htrue
      refine (Yields.trivial _).bind fun ts _ => (hexpr' ts).bind ?_
      rintro ⟨whenFalse, ts⟩ hfalse
      have hsucc := exprBound_succ room
      refine .ok ?_
      simp only [Low, Expr.height] at htest htrue hfalse ⊢
      omega
    · exact .ok (Nat.le_trans htest (by omega))
  case levelUnary =>
    intro room ts ih
    rw [level, levelBound, List.length_nil, Nat.zero_mul]
    exact ih
  case level =>
    intro room ts tier tighter hleft hchain
    rw [level]
    refine hleft.bind ?_
    rintro ⟨left, ts⟩ hlow e he
    have hread := hchain left ts e he
    simp only [Low] at hlow hread ⊢
    rw [List.length_cons, levelBound, Nat.succ_mul, ← Nat.add_assoc, ← levelBound]
    omega
  case chainEnd =>
    intro tier tighter room left ts hnone
    rw [chain_of_none hnone]
    refine .ok ?_
    simp only [Low]
    omega
  case chainFull =>
    intro tier tighter left ts op hsome
    rw [chain_zero hsome]
    exact .error
  case chain =>
    intro tier tighter left ts op ts₁ room hsome hright hchain
    rw [chain_succ hsome]
    refine hright.bind ?_
    rintro ⟨right, ts₂⟩ hlow e he
    have hread := hchain right ts₂ e he
    have hle := levelBound_le_succ tighter.length room
    simp only [Low, Expr.height, Nat.succ_eq_add_one] at hlow hread ⊢
    omega
  case unaryFull =>
    intro ts
    rw [unary]
    exact .error
  case unary =>
    intro ts room ih
    rw [unary]
    exact ih
  case operandUnary =>
    intro room ts op ts₁ hop ih
    rw [operand, hop]
    refine ih.bind ?_
    rintro ⟨e, ts⟩ hlow
    have hlt := unaryBound_lt room
    refine .ok ?_
    simp only [Low, Expr.height] at hlow ⊢
    omega
  case operandTick =>
    intro room ts hnone tick ts₁ htick ih
    rw [operand, hnone]
    simp only [htick]
    refine (Yields.trivial _).bind fun target _ => (makeUpdate_height _ _ _).bind fun e he => .ok ?_
    simp only [Low, operandBound, he]
    omega
  case operand =>
    intro room ts hnone htick ih
    rw [operand, hnone]
    simp only [htick]
    exact ih
  case updated =>
    intro room ts ih
    rw [updated]
    refine ih.bind ?_
    rintro ⟨e, ts⟩ hlow
    dsimp only
    split
    · refine (makeUpdate_height _ _ _).bind fun e he => .ok ?_
      simp only [Low, operandBound, he]
      omega
    · exact .ok hlow
  case member =>
    intro room ts hprimary hlinks
    rw [member]
    refine hprimary.bind ?_
    rintro ⟨e, ts⟩ hlow e' he
    have hread := hlinks e ts e' he
    simp only [Low, operandBound] at hlow hread ⊢
    omega
  case dotFull => intro e ts; rw [links]; exact .error
  case bracketFull => intro e ts; rw [links]; exact .error
  case parenFull => intro e ts; rw [links]; exact .error
  case attr =>
    intro e name ts room ih e' he
    rw [links] at he
    have hread := ih e' he
    have hsucc := exprBound_succ room
    simp only [Low, Expr.height, Nat.succ_eq_add_one] at hread ⊢
    omega
  case attrBad =>
    intro e ts room hne
    rw [links]
    · exact .error
    exact hne
  case item =>
    intro e ts room hexpr ih
    rw [links]
    refine hexpr.bind ?_
    rintro ⟨key, ts⟩ hkey
    refine (Yields.trivial _).bind fun ts _ e' he => ?_
    have hread := ih key ts e' he
    have hsucc := exprBound_succ room
    simp only [Low, Expr.height, Nat.succ_eq_add_one] at hkey hread ⊢
    omega
  case call =>
    intro e ts room hexpr ih
    rw [links]
    refine (items_height hexpr ts).bind ?_
    rintro ⟨arguments, ts⟩ harguments e' he
    have hread := ih arguments ts e' he
    have hsucc := exprBound_succ room
    simp only [Low, Expr.height, Nat.succ_eq_add_one] at harguments hread ⊢
    omega
  case linksEnd =>
    intro room e ts h₁ h₂ h₃ h₄ h₅ h₆ h₇
    rw [links]
    · refine .ok ?_
      simp only [Low]
      omega
    all_goals assumption
  case name =>
    intro room name ts
    rw [primary]
    refine (nameOperand_height name).map fun e he => ?_
    simp only [Low, he]
    omega
  case text =>
    intro room s ts
    rw [primary]
    exact .ok (Nat.le_add_left 1 _)
  case number =>
    intro room x ts
    rw [primary]
    exact .ok (Nat.le_add_left 1 _)
  case group =>
    intro room ts ih
    rw [primary]
    refine ih.bind ?_
    rintro ⟨e, ts⟩ hlow
    exact (Yields.trivial _).bind fun ts _ => .ok (Nat.le_succ_of_le hlow)
  case list =>
    intro room ts ih
    rw [primary]
    refine (items_height ih ts).bind ?_
    rintro ⟨elements, ts⟩ helements
    refine .ok ?_
    simp only [Low, Expr.height] at helements ⊢
    omega
  case primaryBad =>
    intro room t ts h₁ h₂ h₃ h₄ h₅
    rw [primary]
    · exact .error
    all_goals assumption
  case primaryEnd => intro room; rw [primary]; exact .error

theorem exprBound_le {room room' : Nat} (h : room ≤ room') : exprBound room ≤ exprBound room' :=
  Nat.mul_le_mul (Nat.mul_le_mul_left 2 h) h

end Reader

end Stencil
