import Stencil.Proofs.Reading.Complete
import Stencil.Proofs.Reading.Room
import Stencil.Proofs.Reading.Sound

/-!
# Whole token lists

The reader accepts no junk: the tokens of every expression that it gives are the expression's own
tokens in order with nothing but grouping added. And the tokens of an expression are read back as
the expression, or there is not enough room for them.

* `Expr.nodes`, `Expr.length_tokens_le`: the size of an expression, and how many tokens it has
* `Reader.standalone_of_derives`: derivations are read
* `Reader.standalone_derives`, `Reader.standalone_tokens`: the main statements
-/

namespace Stencil

/-! ## Size -/

mutual

/-- How many nodes the tree has. -/
def Expr.nodes : Expr → Nat
  | .var _ | .this | .const _ | .update .. => 1
  | .list items => 1 + Expr.nodesAll items
  | .attr target _ => 1 + target.nodes
  | .item target key => 1 + target.nodes + key.nodes
  | .call callee arguments => 1 + callee.nodes + Expr.nodesAll arguments
  | .unary _ operand => 1 + operand.nodes
  | .binary _ left right => 1 + left.nodes + right.nodes
  | .cond test whenTrue whenFalse => 1 + test.nodes + whenTrue.nodes + whenFalse.nodes
  | .assign _ _ value => 1 + value.nodes

/-- How many nodes several trees have together. -/
def Expr.nodesAll : List Expr → Nat
  | [] => 0
  | e :: rest => e.nodes + Expr.nodesAll rest

end

theorem length_fit_le (fits : Bool) (ts : List Token) :
    (fit parenthesize fits ts).length ≤ ts.length + 2 := by
  cases fits with
  | true => exact Nat.le_add_right _ 2
  | false =>
    show (Token.mark .openParen :: (ts ++ [.mark .closeParen])).length ≤ _
    simp only [List.length_cons, List.length_append, List.length_nil]
    omega

mutual

/-- A node has at most four tokens: no more than two marks of its own, and a pair of parentheses. -/
theorem Expr.length_write_le : ∀ e : Expr, (e.write parenthesize).length + 2 ≤ 4 * e.nodes
  | .var _ => by simp only [Expr.write, Expr.nodes, List.length_singleton]; omega
  | .this => by simp only [Expr.write, Expr.nodes, List.length_singleton]; omega
  | .const v => by
    have hle : v.token?.toList.length ≤ 1 := by cases v.token? <;> simp
    simp only [Expr.write, Expr.nodes]
    omega
  | .list items => by
    have hitems := Expr.length_writeAll_le items
    simp only [Expr.write, Expr.nodes, List.length_cons, List.length_append, List.length_nil]
    omega
  | .attr target name => by
    have htarget := Expr.length_write_le target
    have hfit := length_fit_le (9 ≤ target.strength) (target.write parenthesize)
    simp only [Expr.write, Expr.nodes, List.length_cons, List.length_append, List.length_nil]
    omega
  | .item target key => by
    have htarget := Expr.length_write_le target
    have hkey := Expr.length_write_le key
    have hfit := length_fit_le (9 ≤ target.strength) (target.write parenthesize)
    simp only [Expr.write, Expr.nodes, List.length_cons, List.length_append, List.length_nil]
    omega
  | .call callee arguments => by
    have hcallee := Expr.length_write_le callee
    have harguments := Expr.length_writeAll_le arguments
    have hfit := length_fit_le (9 ≤ callee.strength) (callee.write parenthesize)
    simp only [Expr.write, Expr.nodes, List.length_cons, List.length_append, List.length_nil]
    omega
  | .unary op operand => by
    have hoperand := Expr.length_write_le operand
    have hfit := length_fit_le (7 ≤ operand.strength) (operand.write parenthesize)
    simp only [Expr.write, Expr.nodes, List.length_cons]
    omega
  | .binary op left right => by
    have hleft := Expr.length_write_le left
    have hright := Expr.length_write_le right
    have hfit := length_fit_le (op.strength ≤ left.strength && !op.mixes left)
      (left.write parenthesize)
    have hfit' := length_fit_le (op.strength + 1 ≤ right.strength) (right.write parenthesize)
    simp only [Expr.write, Expr.nodes, List.length_cons, List.length_append]
    omega
  | .cond test whenTrue whenFalse => by
    have htest := Expr.length_write_le test
    have htrue := Expr.length_write_le whenTrue
    have hfalse := Expr.length_write_le whenFalse
    have hfit := length_fit_le (1 ≤ test.strength) (test.write parenthesize)
    simp only [Expr.write, Expr.nodes, List.length_cons, List.length_append]
    omega
  | .assign name op value => by
    have hvalue := Expr.length_write_le value
    have hmark : ((assignMark? op).map Token.mark).toList.length ≤ 1 := by
      cases assignMark? op <;> simp
    simp only [Expr.write, Expr.nodes, List.length_cons, List.length_append]
    omega
  | .update name tick .before => by
    simp only [Expr.write, Expr.nodes, List.length_cons, List.length_nil]
    omega
  | .update name tick .after => by
    simp only [Expr.write, Expr.nodes, List.length_cons, List.length_nil]
    omega

theorem Expr.length_writeAll_le : ∀ items : List Expr,
    (Expr.writeAll parenthesize items).length ≤ 4 * Expr.nodesAll items
  | [] => Nat.zero_le _
  | [e] => by
    have he := Expr.length_write_le e
    simp only [Expr.writeAll, Expr.nodesAll]
    omega
  | e :: next :: rest => by
    have he := Expr.length_write_le e
    have hrest := Expr.length_writeAll_le (next :: rest)
    rw [Expr.writeAll, Expr.nodesAll, List.length_append, List.length_cons]
    omega

end

/-- An expression has fewer tokens than four for each node. -/
theorem Expr.length_tokens_le (e : Expr) : e.tokens.length + 2 ≤ 4 * e.nodes :=
  e.length_write_le

/-! ## Whole token lists -/

namespace Reader

/-- A derivation is read back if there is enough room, and is not read as anything else. -/
theorem standalone_of_derives {e : Expr} {ts : List Token} (h : Derives 0 e ts) :
    Stable (standalone ts) (.ok e) ∧ (ts.length < nestingLimit → standalone ts = .ok e) := by
  have hempty : ts.isEmpty = false := by
    obtain ⟨t, rest, rfl, -⟩ := begins_of_derives h
    rfl
  have hread {room : Nat} (hroom : ts.length < room) : expr room ts = .ok (e, []) := by
    have hexpr := expr_of_derives h hroom (stops_nil 0)
    rwa [List.append_nil] at hexpr
  unfold standalone
  simp only [hempty, Bool.false_eq_true, if_false]
  constructor
  · have hle : nestingLimit ≤ nestingLimit + ts.length + 1 := by omega
    rcases expr_stable hle ts with hdeep | hsame
    · rw [hdeep]
      exact .inl rfl
    · rw [hsame, hread (by omega)]
      exact .inr rfl
  · intro hroom
    rw [hread hroom]
    rfl

/-- **No junk.** If the reader takes some tokens as an expression then they are a derivation of it,
and its own tokens in order with nothing but grouping added. -/
theorem standalone_derives {ts : List Token} {e : Expr} (hts : ts ≠ [])
    (h : standalone ts = .ok e) : Derives 0 e ts ∧ Grouped e.spelling ts := by
  have hderives : Derives 0 e ts := by
    unfold standalone at h
    rw [if_neg (by simpa using hts)] at h
    obtain ⟨⟨e', rest⟩, hexpr, h₁⟩ := Except.bind_eq_ok_iff.1 h
    obtain ⟨used, rfl, hused⟩ := expr_derivable nestingLimit ts e' rest hexpr
    dsimp only at h₁
    split at h₁
    · rename_i hrest
      cases h₁
      rwa [List.isEmpty_iff.1 hrest, List.append_nil]
    · cases h₁
  exact ⟨hderives, hderives.grouped.2⟩

/-- The tokens of `(a) = f(b,).c` are read, and all of them are accounted for. -/
theorem standalone_derives_call :
    standalone [.mark .openParen, .name "a", .mark .closeParen, .mark .assign, .name "f",
        .mark .openParen, .name "b", .mark .comma, .mark .closeParen, .mark .dot, .name "c"] =
      .ok (.assign "a" none (.attr (.call (.var "f") [.var "b"]) "c")) ∧
    Grouped
      [.name "a", .mark .assign, .name "f", .mark .openParen, .name "b", .mark .closeParen,
        .mark .dot, .name "c"]
      [.mark .openParen, .name "a", .mark .closeParen, .mark .assign, .name "f",
        .mark .openParen, .name "b", .mark .comma, .mark .closeParen, .mark .dot, .name "c"] := by
  have htarget : Derives 9 (.var "a")
      [.mark .openParen, .name "a", .mark .closeParen] :=
    .group (Derives.of_le (.leaf (.var (by decide))) (Nat.zero_le 9))
  have hargument : Derives 0 (.var "b") [.name "b"] :=
    Derives.of_le (.leaf (.var (by decide))) (Nat.zero_le 9)
  have hcall : Derives 9 (.call (.var "f") [.var "b"])
      [.name "f", .mark .openParen, .name "b", .mark .comma, .mark .closeParen] :=
    .call (.leaf (.var (by decide))) (.trailing hargument)
  have hvalue : Derives 0 (.attr (.call (.var "f") [.var "b"]) "c")
      [.name "f", .mark .openParen, .name "b", .mark .comma, .mark .closeParen, .mark .dot,
        .name "c"] :=
    Derives.of_le (.attr hcall) (Nat.zero_le 9)
  have hderives := @Derives.assign "a" none _ _ _ _ rfl htarget hvalue
  have h := (standalone_of_derives hderives).2 (by decide)
  exact ⟨h, (standalone_derives (List.cons_ne_nil _ _) h).2⟩

/-- **Reading undoes writing.** An expression is read back from its tokens unless it is nested too
deeply, and expressions of at most 25 nodes are not. -/
theorem standalone_tokens {e : Expr} (h : e.Printable) :
    (standalone e.tokens = .ok e ∨ standalone e.tokens = .error (.malformed .tooDeep)) ∧
      (e.nodes ≤ 25 → standalone e.tokens = .ok e) := by
  have hderives : Derives 0 e e.tokens := (derives_tokens h).of_le (Nat.zero_le _)
  obtain ⟨hstable, hroom⟩ := standalone_of_derives hderives
  refine ⟨hstable.symm, fun hnodes => hroom ?_⟩
  have hlength := e.length_tokens_le
  show e.tokens.length < 150
  omega

/-- The mix in `x += (a || b) ?? [c].length` keeps its parentheses when it is written, and is read
back. -/
theorem standalone_tokens_mix :
    standalone [.name "x", .mark .plusAssign, .mark .openParen, .name "a", .mark .or, .name "b",
        .mark .closeParen, .mark .coalesce, .mark .openBracket, .name "c", .mark .closeBracket,
        .mark .dot, .name "length"] =
      .ok (.assign "x" (some (.arith .add)) (.binary (.logic .coalesce)
        (.binary (.logic .or) (.var "a") (.var "b")) (.attr (.list [.var "c"]) "length"))) := by
  have hmix : (Expr.binary (.logic .or) (.var "a") (.var "b")).Printable :=
    .binary (.var (by decide)) (.var (by decide))
  have hlist : (Expr.list [.var "c"]).Printable := by
    refine .list fun e he => ?_
    rw [List.mem_singleton.1 he]
    exact .var (by decide)
  have hcoalesce : (Expr.binary (.logic .coalesce) (.binary (.logic .or) (.var "a") (.var "b"))
      (.attr (.list [.var "c"]) "length")).Printable :=
    .binary hmix (.attr hlist)
  have hassign := @Expr.Printable.assign "x" (some (.arith .add)) _ (by decide) rfl hcoalesce
  exact (standalone_tokens hassign).2 (by decide)

end Reader

end Stencil
