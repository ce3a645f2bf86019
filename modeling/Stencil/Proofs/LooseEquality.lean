import Stencil.Value.Compare

/-!
# Loose equality

Loose equality is defined by rules that are tried in order. A rule decides, or it converts one of
the two values and compares again. No comparison converts more than twice, and although the rules
look at the sides one after the other, what they decide does not depend on the side.

* `Value.looseStep`, `Value.comparedWithin`: the rules, and a number of steps by them
* `Value.comparedWithin_eq`: the rules come to an end, and to what loose equality is
* `Number.beq_comm`, `Value.looseEq_comm`: the sides do not matter
* `Value.looseEq_extends`: the main statement
-/

namespace Stencil

/-! ## Numbers -/

namespace Number

open Float.Model (UnpackedFloat)

/-- Comparing in the other order gives the opposite answer. -/
theorem compare_swap (x y : UnpackedFloat) :
    y.compare x = (x.compare y).map Ordering.swap := by
  have hfinite (m m' : Nat) (e e' : Int) : (compare e' e).then (compare m' m) =
      ((compare e e').then (compare m m')).swap := by
    rw [Ordering.swap_then, Int.compare_swap, Nat.compare_swap]
  rcases x with (_ | _) | _ | (_ | _) | ⟨_ | _, m, e, hm⟩ <;>
    rcases y with (_ | _) | _ | (_ | _) | ⟨_ | _, m', e', hm'⟩ <;> first
    | rfl
    | exact congrArg some (hfinite m m' e e')
    | exact congrArg (fun o => some (Ordering.swap o)) (hfinite m m' e e')

theorem beq_comm (x y : Float) : (x == y) = (y == x) := by
  change (x.toModel.unpack.compare y.toModel.unpack == some .eq) =
    (y.toModel.unpack.compare x.toModel.unpack == some .eq)
  rw [compare_swap x.toModel.unpack y.toModel.unpack]
  rcases x.toModel.unpack.compare y.toModel.unpack with _ | (_ | _ | _) <;> rfl

end Number

namespace Value

/-! ## Rules -/

/-- What a rule of loose equality leads to. -/
inductive Comparison where
  | decided (equal : Bool)
  /-- Two other values are compared. -/
  | continued (a b : Value)

/-- Is the value a number or a text? -/
def isPlain (v : Value) : Bool :=
  v.kind == .number || v.kind == .string

/-- What the first rule that applies leads to. -/
def looseStep (a b : Value) : Comparison :=
  if a.isNullish && b.isNullish then .decided true
  else if a.isNullish || b.isNullish then .decided false
  else if a.kind == b.kind then .decided (a.strictEq b)
  else
    match a, b with
    | number x, string _ => .decided (x == b.toNumber)
    | string _, number y => .decided (a.toNumber == y)
    | bool _, _ => .continued (number a.toNumber) b
    | _, bool _ => .continued a (number b.toNumber)
    | _, _ =>
      if a.isCompound && b.isPlain then .continued a.primitive b
      else if a.isPlain && b.isCompound then .continued a b.primitive
      else .decided false

/-- What the rules decide in a number of steps, if they do. -/
def comparedWithin : (steps : Nat) → Value → Value → Option Bool
  | 0, _, _ => none
  | steps + 1, a, b =>
    match looseStep a b with
    | .decided equal => some equal
    | .continued a b => comparedWithin steps a b

/-- How often a value can be converted. -/
def conversions : Value → Nat
  | bool _ | array .. | object .. | function _ => 1
  | _ => 0

variable {a b a' b' : Value}

theorem conversions_le (v : Value) : v.conversions ≤ 1 := by
  cases v <;> exact Nat.le_of_ble_eq_true rfl

/-- A rule decides what loose equality is. -/
theorem looseEq_of_decided {equal : Bool} (h : looseStep a b = .decided equal) :
    a.looseEq b = equal := by
  cases a <;> cases b <;> cases h <;> rfl

/-- A rule that does not decide converts one of the values, and loose equality stays as it is. -/
theorem looseEq_of_continued (h : looseStep a b = .continued a' b') :
    a.looseEq b = a'.looseEq b' ∧
      a'.conversions + b'.conversions < a.conversions + b.conversions := by
  cases a <;> cases b <;> cases h <;> exact ⟨rfl, Nat.le_of_ble_eq_true rfl⟩

/-- The rules come to an end, since a value that was converted stays as it is. -/
theorem comparedWithin_eq {steps : Nat} (h : a.conversions + b.conversions < steps) :
    comparedWithin steps a b = some (a.looseEq b) := by
  induction steps generalizing a b with
  | zero => omega
  | succ steps ih =>
    rw [comparedWithin]
    cases hstep : looseStep a b with
    | decided equal => rw [looseEq_of_decided hstep]
    | continued a' b' =>
      obtain ⟨heq, hlt⟩ := looseEq_of_continued hstep
      rw [heq]
      exact ih (by omega)

/-! ## Sides -/

theorem strictEq_comm (a b : Value) : a.strictEq b = b.strictEq a := by
  cases a <;> cases b <;> first
    | rfl
    | exact Number.beq_comm _ _
    | exact Bool.beq_comm

theorem simpleEq_comm (a b : Value) : a.simpleEq b = b.simpleEq a := by
  cases a <;> cases b <;> first
    | rfl
    | exact Number.beq_comm _ _
    | exact Bool.beq_comm

theorem looseEq_comm (a b : Value) : a.looseEq b = b.looseEq a := by
  rw [looseEq, looseEq, Bool.or_comm, Bool.and_comm a.isNullish, strictEq_comm a,
    Bool.and_comm a.isCompound, simpleEq_comm a.numbered.primitive, Bool.beq_comm (a := a.kind)]

/-! ## Kinds -/

theorem kind_eq_of_strictEq (h : a.strictEq b = true) : a.kind = b.kind := by
  cases a <;> cases b <;> first
    | rfl
    | cases h

theorem looseEq_of_kind_eq (h : a.kind = b.kind) : a.looseEq b = a.strictEq b := by
  cases a <;> cases b <;> cases h <;> rfl

theorem looseEq_of_isCompound (ha : a.isCompound = true) (hb : b.isCompound = true)
    (h : a.kind ≠ b.kind) : a.looseEq b = false := by
  cases a <;> cases ha <;> cases b <;> cases hb <;> first
    | rfl
    | exact absurd rfl h

/-- Nothing equals only nothing. -/
theorem looseEq_of_isNullish (h : a.isNullish = true) : a.looseEq b = b.isNullish := by
  rw [looseEq, h, Bool.true_or, if_pos rfl, Bool.true_and]

/-- **Loose equality is a symmetric extension of strict equality.** Its rules come to an end within
three steps. The sides do not matter. What is strictly equal is loosely equal, and values of one
kind are loosely equal only if they are strictly equal. Of arrays, objects and functions no two of
different kinds are equal, and what is nothing equals nothing only. -/
theorem looseEq_extends (a b : Value) :
    (∀ steps, 3 ≤ steps → comparedWithin steps a b = some (a.looseEq b)) ∧
    a.looseEq b = b.looseEq a ∧
    (a.strictEq b = true → a.looseEq b = true) ∧
    (a.kind = b.kind → a.looseEq b = a.strictEq b) ∧
    (a.isCompound = true → b.isCompound = true → a.kind ≠ b.kind → a.looseEq b = false) ∧
    (a.isNullish = true → (a.looseEq b = true ↔ b.isNullish = true)) := by
  refine ⟨fun steps hsteps => ?steps, looseEq_comm a b, fun h => ?strict, looseEq_of_kind_eq,
    looseEq_of_isCompound, fun h => ?nullish⟩
  case steps =>
    have ha := conversions_le a
    have hb := conversions_le b
    exact comparedWithin_eq (by omega)
  case strict => rw [looseEq_of_kind_eq (kind_eq_of_strictEq h), h]
  case nullish => rw [looseEq_of_isNullish h]

/-- A truth value and an array take three steps, and a text in an array makes no difference to the
side that it is on. -/
theorem looseEq_extends_array :
    comparedWithin 3 (bool true) (array (.given 0) [string "x"]) =
        some ((array (.given 0) [string "x"]).looseEq (bool true)) ∧
      (array (.given 0) []).looseEq (array (.given 0) []) = true ∧
      (array (.given 0) []).looseEq (object (.given 1) []) = false ∧
      (null.looseEq undefined = true ↔ undefined.isNullish = true) := by
  obtain ⟨hsteps, hcomm, -⟩ := looseEq_extends (bool true) (array (.given 0) [string "x"])
  obtain ⟨-, -, hstrict, -⟩ := looseEq_extends (array (.given 0) []) (array (.given 0) [])
  obtain ⟨-, -, -, -, hcompound, -⟩ :=
    looseEq_extends (array (.given 0) []) (object (.given 1) [])
  obtain ⟨-, -, -, -, -, hnullish⟩ := looseEq_extends null undefined
  exact ⟨hcomm ▸ hsteps 3 (Nat.le_refl 3), hstrict rfl, hcompound rfl rfl nofun, hnullish rfl⟩

end Value

end Stencil
