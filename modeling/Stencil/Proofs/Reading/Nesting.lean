import Stencil.Proofs.Reading.Complete
import Stencil.Proofs.Reading.Height

/-!
# How high the expressions of a template are

The limit on nesting bounds the height of every expression in a template, but it is not the bound
itself.

* `height_le_of_read`: the bound on the height of all expressions
* `read_higher_than_limit`: an expression that is higher than the limit
-/

namespace Stencil

open Reader

/-- **The limit on nesting bounds the height.** Expressions that are read are at most twice the
square of the limit high, whether they are read on their own or in the steps of a template, however
long the source is. -/
theorem height_le_of_read (source : List Char) :
    (∀ e, Expr.ofText source = .ok e → e.height ≤ 2 * nestingLimit * nestingLimit) ∧
      ∀ steps, Step.ofSource source = .ok steps →
        ∀ step ∈ steps, ∀ e ∈ step.exprs, e.height ≤ 2 * nestingLimit * nestingLimit := by
  have hundefined : (Expr.const .undefined).height ≤ exprBound nestingLimit :=
    Nat.le_of_ble_eq_true rfl
  have hexpr (room : Nat) (hroom : room ≤ nestingLimit) (ts : List Token) :
      Yields (Low (exprBound nestingLimit)) (expr room ts) :=
    fun read h => Nat.le_trans (expr_height room ts read h) (exprBound_le hroom)
  exact ⟨Expr.ofText_yields hundefined hexpr source, Step.ofSource_yields hundefined hexpr source⟩

/-! ## Higher than the limit -/

/-- A variable under a number of negations. -/
def negated : Nat → Expr
  | 0 => .var "x"
  | count + 1 => .unary .not (negated count)

/-- Two comparisons after a variable under a number of negations. -/
def compared (count : Nat) : Expr :=
  .binary (.compare .lt) (.binary (.compare .lt) (negated count) (.var "x")) (.var "x")

/-- The tokens of a variable under a number of negations. -/
def negatedTokens (count : Nat) : List Token :=
  List.replicate count (.mark .not) ++ [.name "x"]

/-- The tokens of the two comparisons. -/
def comparedTokens (count : Nat) : List Token :=
  negatedTokens count ++ [.mark .lt, .name "x", .mark .lt, .name "x"]

theorem height_negated (count : Nat) : (negated count).height = count + 1 := by
  induction count with
  | zero => rfl
  | succ count ih => rw [negated, Expr.height, ih, Nat.add_comm]

theorem height_compared (count : Nat) : (compared count).height = count + 3 := by
  simp only [compared, Expr.height, height_negated]
  omega

theorem length_negatedTokens (count : Nat) : (negatedTokens count).length = count + 1 := by
  rw [negatedTokens, List.length_append, List.length_replicate, List.length_singleton]

theorem derives_negated (count : Nat) : Derives 7 (negated count) (negatedTokens count) := by
  induction count with
  | zero => exact Derives.of_le (.leaf (.var (by decide))) (by omega)
  | succ count ih => exact .unary ih

namespace Reader

/-- A whole token list that is read at one level of operators is read at the level below it. -/
theorem level_weaken {k room : Nat} {e : Expr} {ts : List Token} (hk : k < 6)
    (h : level (Tier.all.drop (k + 1)) room ts = .ok (e, [])) :
    level (Tier.all.drop k) room ts = .ok (e, []) := by
  obtain ⟨tier, tighter, htier⟩ := Tier.exists_drop hk
  rw [Tier.drop_succ htier] at h
  rw [htier, level, h, Except.ok_bind]
  exact chain_of_none ((stops_nil (k + 1)).read? htier)

theorem levelReads_negated (count : Nat) : LevelReads 4 (negated count) (negatedTokens count) :=
  (readsAt_of_derives ((derives_negated count).of_le (by omega : 5 ≤ 7))).level (by omega)

/-- The negations have given their levels back when the comparisons take theirs. -/
theorem level_compared {count room : Nat} (hroom : count < room + 3) :
    level (Tier.all.drop 3) (room + 3) (comparedTokens count) = .ok (compared count, []) := by
  obtain ⟨tier, tighter, htier⟩ := Tier.exists_drop (by omega : 3 < 6)
  have hread (rest : List Token) : tier.read? (.mark .lt :: rest) = some (.compare .lt, rest) :=
    (Tier.read?_eq_some_iff htier).2 ⟨rfl, rfl⟩
  have hend : tier.read? [] = none := (stops_nil 4).read? htier
  have hlt (rest : List Token) : Stops 5 (.mark .lt :: rest) := stops_cons rfl (Nat.lt_succ_self 4)
  have hleft := levelReads_negated count (room + 3) [.mark .lt, .name "x", .mark .lt, .name "x"]
    (by rw [length_negatedTokens]; exact hroom) (hlt _)
  have hmiddle : level (Tier.all.drop 4) (room + 2) [.name "x", .mark .lt, .name "x"] =
      .ok (.var "x", [.mark .lt, .name "x"]) :=
    levelReads_negated 0 _ _ (Nat.succ_pos _) (hlt _)
  have hright : level (Tier.all.drop 4) (room + 1) [.name "x"] = .ok (.var "x", []) :=
    levelReads_negated 0 _ _ (Nat.succ_pos _) (stops_nil 5)
  rw [Tier.drop_succ htier] at hleft hmiddle hright
  rw [htier, comparedTokens, level, hleft, Except.ok_bind]
  dsimp only
  rw [chain_succ (hread _), hmiddle, Except.ok_bind]
  dsimp only
  rw [chain_succ (hread _), hright, Except.ok_bind]
  exact chain_of_none hend

theorem standalone_compared {count : Nat} (h : count + 2 ≤ nestingLimit) :
    standalone (comparedTokens count) = .ok (compared count) := by
  have hroom : count < 146 + 3 := by
    have hlimit : nestingLimit = 150 := rfl
    omega
  have hlevel := level_weaken (by omega) (level_weaken (by omega) (level_weaken (by omega)
    (level_compared hroom)))
  have hassignment := assignment_of_conditional (conditional_of_level hlevel rfl) (stops_nil 0)
  have hexpr : expr nestingLimit (comparedTokens count) = .ok (compared count, []) := by
    rw [nestingLimit, expr]
    exact hassignment
  rw [standalone, hexpr]
  cases count <;> rfl

end Reader

/-- Two comparisons after an operand with as many negations as there is room for. -/
def highSource : List Char :=
  List.replicate 148 '!' ++ "x<x<x".toList

theorem tokens_highSource : Lexer.tokens highSource = .ok (comparedTokens 148) := by
  decide +kernel

theorem ofText_highSource : Expr.ofText highSource = .ok (compared 148) := by
  rw [Expr.ofText, tokens_highSource, Except.ok_bind]
  exact standalone_compared (by decide)

theorem ofSource_highSource :
    Step.ofSource ("<%".toList ++ highSource ++ "%>".toList) = .ok [.expr (compared 148)] := by
  have hsegments : Source.segments ("<%".toList ++ highSource ++ "%>".toList) =
      [.fragment highSource] := by
    decide +kernel
  have hbrace : (comparedTokens 148).any Token.isBrace = false := by decide
  have hinterior : Step.ofInterior highSource = .ok (.expr (compared 148)) := by
    rw [Step.ofInterior, tokens_highSource, Except.ok_bind, Step.ofTokens, hbrace,
      if_neg Bool.false_ne_true, standalone_compared (by decide)]
    rfl
  rw [Step.ofSource, hsegments, List.mapM_cons, Step.ofSegment, hinterior]
  rfl

/-- **The limit is not the height.** Two comparisons after an operand that is as high as the limit
allows are read, on their own and in a template. -/
theorem read_higher_than_limit :
    (∃ e, Expr.ofText highSource = .ok e ∧ nestingLimit < e.height) ∧
      ∃ steps, Step.ofSource ("<%".toList ++ highSource ++ "%>".toList) = .ok steps ∧
        ∃ step ∈ steps, ∃ e ∈ step.exprs, nestingLimit < e.height := by
  have hheight : nestingLimit < (compared 148).height := by
    rw [height_compared]
    decide
  exact ⟨⟨_, ofText_highSource, hheight⟩, _, ofSource_highSource, _, List.mem_singleton_self _, _,
    List.mem_singleton_self _, hheight⟩

end Stencil
