import Mathlib.Data.List.Basic
import Stencil.Proofs.Reading.Basic
import Stencil.Step.Parser

/-!
# What readers yield

What holds of every expression that the reader of expressions gives holds of every expression in the
steps of a source.

* `Yields`: what a reader gives has a property
* `Step.exprs`: the expressions in a step
* `Step.ofSource_yields`: the main statement
-/

namespace Stencil

/-! ## Results with a property -/

/-- What a reader gives, if anything, has the property. -/
def Yields {α : Type} (P : α → Prop) (result : Except Error α) : Prop :=
  ∀ a, result = .ok a → P a

theorem Yields.ok {α : Type} {P : α → Prop} {a : α} (h : P a) : Yields P (.ok a) := by
  intro b hb
  cases hb
  exact h

theorem Yields.error {α : Type} {P : α → Prop} {e : Error} : Yields P (.error e) := by
  rintro a ⟨⟩

theorem Yields.bind {α β : Type} {P : α → Prop} {Q : β → Prop} {result : Except Error α}
    {f : α → Except Error β} (h : Yields P result) (hf : ∀ a, P a → Yields Q (f a)) :
    Yields Q (result >>= f) := by
  intro b hb
  obtain ⟨a, ha, hfa⟩ := Except.bind_eq_ok_iff.1 hb
  exact hf a (h a ha) b hfa

theorem Yields.trivial {α : Type} (result : Except Error α) : Yields (fun _ => True) result :=
  fun _ _ => True.intro

theorem Yields.map {α β : Type} {P : α → Prop} {Q : β → Prop} {result : Except Error α}
    {f : α → β} (h : Yields P result) (hf : ∀ a, P a → Q (f a)) : Yields Q (result.map f) := by
  intro b hb
  cases result with
  | ok a =>
    cases hb
    exact hf a (h a rfl)
  | error e => cases hb

theorem Yields.mapM {α β : Type} {P : β → Prop} {f : α → Except Error β}
    (hf : ∀ a, Yields P (f a)) (items : List α) : Yields (∀ b ∈ ·, P b) (items.mapM f) := by
  induction items with
  | nil => exact .ok fun b hb => absurd hb List.not_mem_nil
  | cons a rest ih =>
    rw [List.mapM_cons]
    exact (hf a).bind fun b hb => ih.bind fun others hothers =>
      .ok (List.forall_mem_cons.2 ⟨hb, hothers⟩)

/-! ## The expressions in a step -/

/-- The expressions in the initial part of a loop. -/
def ForInit.exprs : ForInit → List Expr
  | .declare _ items => items.flatMap fun item => item.2.toList
  | .expr e => [e]

/-- The expressions in the head of a loop. -/
def ForHead.exprs : ForHead → List Expr
  | .clauses init test update => init.toList.flatMap ForInit.exprs ++ test.toList ++ update.toList
  | .each _ _ subject => [subject]

/-- The expressions in an operation. -/
def BlockOp.exprs : BlockOp → List Expr
  | .ifBlock test | .elseIfBlock test | .whileBlock test => [test]
  | .forBlock head => head.exprs
  | .elseBlock | .close | .empty => []

/-- The expressions in a step. -/
def Step.exprs : Step → List Expr
  | .literal _ => []
  | .control ops => ops.flatMap BlockOp.exprs
  | .expr e => [e]

namespace Reader

/-! ## Fragments -/

theorem optional_yields {α : Type} (P : α → Prop) {stop : Mark}
    {part : List Token → Except Error (Parsed α)} {ts : List Token}
    (h : Yields (fun read => P read.1) (part ts)) :
    Yields (fun read => ∀ a ∈ read.1, P a) (optional stop part ts) := by
  unfold optional
  split
  · exact .ok fun a ha => absurd ha (Option.not_mem_none a)
  · refine h.map fun read hread a ha => ?_
    cases ha
    exact hread

variable {P : Expr → Prop}

section

variable {room : Nat} (hexpr : ∀ ts, Yields (fun read => P read.1) (expr room ts))
include hexpr

theorem initialValue_yields (kind : DeclareKind) (ts : List Token) :
    Yields (fun read => ∀ e ∈ read.1.toList, P e) (initialValue room kind ts) := by
  unfold initialValue
  split
  · exact (hexpr _).bind fun read hread => .ok (List.forall_mem_singleton.2 hread)
  split
  · exact .error
  · exact .ok (List.forall_mem_nil P)

theorem declarations_yields (kind : DeclareKind) (count : Nat) (ts : List Token) :
    Yields (fun read => ∀ e ∈ (ForInit.declare kind read.1).exprs, P e)
      (declarations room kind count ts) := by
  fun_induction declarations room kind count ts with
  | case1 => exact .error
  | case2 count name ts ih =>
    refine (Yields.trivial _).bind fun _ _ => (initialValue_yields hexpr kind ts).bind ?_
    rintro ⟨value, ts⟩ hvalue
    dsimp only
    split
    · exact (ih _).bind fun others hothers => .ok (List.forall_mem_append.2 ⟨hvalue, hothers⟩)
    · exact .ok (List.forall_mem_append.2 ⟨hvalue, List.forall_mem_nil P⟩)
  | case3 => exact .error

theorem forInit_yields (ts : List Token) :
    Yields (fun read => ∀ e ∈ read.1.exprs, P e) (forInit room ts) := by
  unfold forInit
  split
  · exact (declarations_yields hexpr _ _ _).bind fun read hread => .ok hread
  · exact (hexpr ts).bind fun read hread => .ok (List.forall_mem_singleton.2 hread)

theorem forClauses_yields (ts : List Token) :
    Yields (fun read => ∀ e ∈ read.1.exprs, P e) (forClauses room ts) := by
  unfold forClauses
  dsimp only
  split
  · refine (Yields.trivial _).bind fun _ _ => (hexpr _).bind fun read hread => ?_
    exact .ok (List.forall_mem_singleton.2 hread)
  · refine (optional_yields (fun init => ∀ e ∈ init.exprs, P e) (forInit_yields hexpr ts)).bind ?_
    rintro ⟨init, ts⟩ hinit
    refine (Yields.trivial _).bind fun ts _ => (optional_yields P (hexpr ts)).bind ?_
    rintro ⟨test, ts⟩ htest
    refine (Yields.trivial _).bind fun ts _ => (optional_yields P (hexpr ts)).bind ?_
    rintro ⟨update, ts⟩ hupdate
    refine .ok fun e he => ?_
    simp only [ForHead.exprs, List.mem_append, List.mem_flatMap, Option.mem_toList] at he
    rcases he with (⟨part, hpart, he⟩ | he) | he
    · exact hinit part hpart e he
    · exact htest e he
    · exact hupdate e he

theorem blockTest_yields (ts : List Token) :
    Yields (fun read => P read.1) (blockTest room ts) := by
  unfold blockTest
  refine (Yields.trivial _).bind fun ts _ => (hexpr ts).bind fun read hread => ?_
  exact (Yields.trivial _).bind fun _ _ => (Yields.trivial _).bind fun _ _ => .ok hread

end

section

/- What stands in the parentheses after `for` is read with one level less, so the readers of
operations need what is known of expressions for all the room below their own. -/
variable {room : Nat} (hexpr : ∀ r ≤ room, ∀ ts, Yields (fun read => P read.1) (expr r ts))
include hexpr

theorem forHead_yields (ts : List Token) :
    Yields (fun read => ∀ e ∈ read.1.exprs, P e) (forHead room ts) := by
  unfold forHead
  refine (Yields.trivial _).bind fun ts _ => ?_
  cases room with
  | zero => exact .error
  | succ room =>
    refine (forClauses_yields (hexpr room (Nat.le_succ room)) ts).bind fun read hread => ?_
    exact (Yields.trivial _).bind fun _ _ => (Yields.trivial _).bind fun _ _ => .ok hread

theorem blockOp_yields (ts : List Token) :
    Yields (fun read => ∀ e ∈ read.1.exprs, P e) (blockOp room ts) := by
  have htest (ts : List Token) := blockTest_yields (hexpr room (Nat.le_refl room)) ts
  unfold blockOp
  split
  · exact .ok (List.forall_mem_nil P)
  · exact .ok (List.forall_mem_nil P)
  · exact (htest _).map fun _ hread => List.forall_mem_singleton.2 hread
  · exact (htest _).map fun _ hread => List.forall_mem_singleton.2 hread
  · exact (forHead_yields hexpr _).map fun _ hread => hread
  · exact (htest _).map fun _ hread => List.forall_mem_singleton.2 hread
  · exact (Yields.trivial _).map fun _ _ => List.forall_mem_nil P
  · exact .error

theorem blockOps_yields (count : Nat) (ts : List Token) :
    Yields (fun ops => ∀ e ∈ ops.flatMap BlockOp.exprs, P e) (blockOps room count ts) := by
  fun_induction blockOps room count ts with
  | case1 => exact .ok (List.forall_mem_nil P)
  | case2 => exact .error
  | case3 count ts hne ih =>
    refine (blockOp_yields hexpr ts).bind ?_
    rintro ⟨op, ts⟩ hop
    exact (ih ts).bind fun ops hops => .ok (List.forall_mem_append.2 ⟨hop, hops⟩)

end

end Reader

/-! ## Whole sources -/

section

open Reader

variable {P : Expr → Prop} (hundefined : P (.const .undefined))
  (hexpr : ∀ room ≤ nestingLimit, ∀ ts, Yields (fun read => P read.1) (Reader.expr room ts))
include hundefined hexpr

theorem Reader.standalone_yields (ts : List Token) : Yields P (standalone ts) := by
  unfold standalone
  split
  · exact .ok hundefined
  · refine (hexpr nestingLimit (Nat.le_refl _) ts).bind fun read hread => ?_
    dsimp only
    split
    · exact .ok hread
    · exact .error

theorem Step.ofSegment_yields (segment : Source.Segment) :
    Yields (fun step => ∀ e ∈ step.exprs, P e) (Step.ofSegment segment) := by
  cases segment with
  | literal text => exact .ok (List.forall_mem_nil P)
  | fragment interior =>
    refine (Yields.trivial _).bind fun ts _ => ?_
    unfold Step.ofTokens
    split
    · exact (blockOps_yields hexpr ts.length ts).map fun _ hread => hread
    · exact (standalone_yields hundefined hexpr ts).map fun _ hread =>
        List.forall_mem_singleton.2 hread

theorem Expr.ofText_yields (source : List Char) : Yields P (Expr.ofText source) :=
  (Yields.trivial _).bind fun ts _ => standalone_yields hundefined hexpr ts

/-- **What readers yield.** The expressions in the steps of a source have every property that all
expressions have that are read. -/
theorem Step.ofSource_yields (source : List Char) :
    Yields (∀ step ∈ ·, ∀ e ∈ step.exprs, P e) (Step.ofSource source) :=
  Yields.mapM (Step.ofSegment_yields hundefined hexpr) (Source.segments source)

end

end Stencil
