import Stencil.Proofs.Reading.Blocks
import Stencil.Proofs.Reading.Progress

/-!
# Progress and balance of all readers

The readers of declarations and of the heads of loops make progress like those of expressions, and
give their levels back. So no loop of any reader goes on forever, and no guard closes a level that
is not open.

* `declarations_follows`, `forClauses_mirrors`, `forHead_mirrors`: declarations and heads of loops
* `Goal`, `Goal.read`, `Goal.counted`: the readers
* `Goal.balanced`: the main statement
-/

namespace Stencil.Counting

open Reader (Tier startsWith expect readEach? declareKind? checkBindable)

variable {d : Nat} {e u : Counted Expr} {ts : List Token}

/-! ## Heads of loops -/

theorem declareKind?_eq_cons {kind : DeclareKind} (h : declareKind? ts = some kind) :
    ∃ word rest, ts = .name word :: rest := by
  unfold Reader.declareKind? at h
  split at h
  · exact ⟨_, _, rfl⟩
  · exact ⟨_, _, rfl⟩
  · exact ⟨_, _, rfl⟩
  · cases h

theorem readEach?_suffix {name : String} {goes : EachKind} {rest : List Token}
    (h : readEach? (if (declareKind? ts).isSome then ts.tail else ts) = some (name, goes, rest)) :
    rest <:+ ts ∧ rest.length + 1 ≤ ts.length := by
  have heach {us : List Token} (hus : readEach? us = some (name, goes, rest)) :
      rest <:+ us ∧ rest.length + 1 ≤ us.length := by
    unfold Reader.readEach? at hus
    split at hus
    · cases hus
      exact ⟨(List.suffix_cons _ _).trans (List.suffix_cons _ _), Nat.le_succ _⟩
    · cases hus
      exact ⟨(List.suffix_cons _ _).trans (List.suffix_cons _ _), Nat.le_succ _⟩
    · cases hus
  cases hkind : declareKind? ts with
  | none =>
    rw [hkind, Option.isSome_none, if_neg Bool.false_ne_true] at h
    exact heach h
  | some kind =>
    obtain ⟨word, rest', rfl⟩ := declareKind?_eq_cons hkind
    rw [hkind, Option.isSome_some, if_pos rfl] at h
    obtain ⟨hsuffix, hlength⟩ := heach h
    exact ⟨hsuffix.trans (List.suffix_cons _ _), Nat.le_succ_of_le hlength⟩

/-- The declared variables after some that were read. -/
theorem map_declarations (room : Nat) (kind : DeclareKind) (read : List (String × Option Expr))
    (count : Nat) (ts : List Token) :
    (Reader.declarations room kind (count + 1) ts).map (fun more => (read ++ more.1, more.2)) = (do
      let name ← readName ts
      checkBindable name.1
      let value ← Reader.initialValue room kind name.2
      if startsWith .comma value.2 then
        (Reader.declarations room kind count value.2.tail).map
          fun more => (read ++ [(name.1, value.1)] ++ more.1, more.2)
      else .ok (read ++ [(name.1, value.1)], value.2)) := by
  unfold readName
  split
  · rename_i name rest
    rw [Reader.declarations, Except.ok_bind]
    dsimp only
    cases checkBindable name with
    | error err => rfl
    | ok _ =>
      rw [Except.ok_bind, Except.ok_bind]
      cases Reader.initialValue room kind rest with
      | error err => rfl
      | ok value =>
        rw [Except.ok_bind, Except.ok_bind]
        by_cases hcomma : startsWith .comma value.2 = true
        · rw [if_pos hcomma, if_pos hcomma]
          cases Reader.declarations room kind count value.2.tail with
          | error err => rfl
          | ok more =>
            change Except.ok (read ++ (name, value.1) :: more.1, more.2) =
              Except.ok (read ++ [(name, value.1)] ++ more.1, more.2)
            rw [List.append_assoc, List.singleton_append]
        · rw [if_neg hcomma, if_neg hcomma]
          rfl
  · rename_i hne
    rw [Reader.declarations]
    · rfl
    · exact hne

/-- The initial part of a loop with the semicolon after it. -/
def readInitialPart (room : Nat) (ts : List Token) : Except Error (Parsed (Option ForInit)) := do
  let (init, ts) ← Reader.optional .semicolon (Reader.forInit room) ts
  let ts ← expect .semicolon ts
  return (init, ts)

theorem readInitialPart_of_kind (room : Nat) {kind : DeclareKind}
    (h : declareKind? ts = some kind) :
    readInitialPart room ts = (do
      let items ← Reader.declarations room kind ts.length ts.tail
      let rest ← expect .semicolon items.2
      return (some (.declare kind items.1), rest)) := by
  have hsemicolon : startsWith .semicolon ts = false := by
    obtain ⟨word, rest, rfl⟩ := declareKind?_eq_cons h
    rfl
  unfold readInitialPart Reader.optional Reader.forInit
  rw [hsemicolon, if_neg Bool.false_ne_true, h]
  dsimp only
  cases Reader.declarations room kind ts.length ts.tail <;> rfl

theorem readInitialPart_of_expr (room : Nat) (h : declareKind? ts = none)
    (hsemicolon : startsWith .semicolon ts = false) :
    readInitialPart room ts = (do
      let e ← Reader.expr room ts
      let rest ← expect .semicolon e.2
      return (some (.expr e.1), rest)) := by
  unfold readInitialPart Reader.optional Reader.forInit
  rw [hsemicolon, if_neg Bool.false_ne_true, h]
  dsimp only
  cases Reader.expr room ts <;> rfl

theorem forClauses_eq (room : Nat)
    (h : readEach? (if (declareKind? ts).isSome then ts.tail else ts) = none) :
    Reader.forClauses room ts = (do
      let init ← readInitialPart room ts
      let (test, ts) ← Reader.optional .semicolon (Reader.expr room) init.2
      let ts ← expect .semicolon ts
      let (update, ts) ← Reader.optional .closeParen (Reader.expr room) ts
      return (.clauses init.1 test update, ts)) := by
  unfold Reader.forClauses readInitialPart
  simp only [h]
  cases Reader.optional .semicolon (Reader.forInit room) ts with
  | error err => rfl
  | ok init =>
    rw [Except.ok_bind, Except.ok_bind]
    cases expect .semicolon init.2 <;> rfl

section

variable {rounds room : Nat} (he : Mirrors rounds d e (Reader.expr room))

include he

theorem initialValue_follows (kind : DeclareKind) (hts : ts.length < rounds) :
    Follows (Ahead 0 ⟨ts, d⟩) d (Reader.initialValue room kind ts)
      (outcome (initialValue e kind) ⟨ts, d⟩) := by
  unfold Reader.initialValue initialValue
  refine .skip_bind (fun rest hrest => ?_) fun hassign => ?_
  · subst hrest
    rw [List.length_cons] at hts
    rw [Reader.startsWith_cons, if_pos rfl]
    exact .weaken (.passed (.bind (he rest (by omega)).weaken fun value rest' _ _ => .of_pure))
  · rw [hassign, if_neg Bool.false_ne_true, if_neg Bool.false_ne_true]
    by_cases hconst : kind = .const
    · rw [if_pos hconst, if_pos hconst]
      exact .of_throw
    · rw [if_neg hconst, if_neg hconst]
      exact .of_pure

/-- The loop over declared variables goes on with those that were read. -/
theorem declarations_follows (kind : DeclareKind) {left count : Nat}
    (read : List (String × Option Expr)) (hrounds : ts.length < rounds) (hleft : ts.length < left)
    (hcount : ts.length < count) :
    Follows (Ahead 1 ⟨ts, d⟩) d
      ((Reader.declarations room kind count ts).map fun more => (read ++ more.1, more.2))
      (outcome (declarations e kind left read) ⟨ts, d⟩) := by
  induction left generalizing read ts count with
  | zero => exact absurd hleft (Nat.not_lt_zero _)
  | succ left ih =>
    obtain ⟨count, rfl⟩ : ∃ n, count = n + 1 := ⟨count - 1, by omega⟩
    rw [map_declarations, declarations]
    refine .bind (.of_take fun _ _ => readName_suffix) fun name rest _ hname => ?_
    refine .except_bind fun _ => ?_
    refine .bind (initialValue_follows he kind (by omega)) fun value rest' _ hvalue => ?_
    refine .skip_bind (fun rest'' hrest => ?_) fun hcomma => ?_
    · subst hrest
      rw [List.length_cons] at hvalue
      dsimp only
      rw [Reader.startsWith_cons, if_pos rfl]
      exact .weaken (.passed (ih _ (by omega) (by omega) (by omega)).weaken)
    · dsimp only
      rw [hcomma]
      exact .of_pure

/-- Declared variables that are read from the first one on. -/
theorem declarations_follows_first (kind : DeclareKind) {left count : Nat}
    (hrounds : ts.length < rounds) (hleft : ts.length < left) (hcount : ts.length < count) :
    Follows (Ahead 1 ⟨ts, d⟩) d (Reader.declarations room kind count ts)
      (outcome (declarations e kind left []) ⟨ts, d⟩) := by
  rw [← map_nil_append (Reader.declarations room kind count ts)]
  exact declarations_follows he kind [] hrounds hleft hcount

theorem initialPart_follows (hts : ts.length < rounds) :
    Follows (Ahead 1 ⟨ts, d⟩) d (readInitialPart room ts)
      (outcome (initialPart rounds e) ⟨ts, d⟩) := by
  unfold initialPart
  refine .skip_bind (fun rest hrest => ?_) fun hsemicolon => ?_
  · subst hrest
    unfold readInitialPart Reader.optional
    rw [Reader.startsWith_cons, if_pos rfl, Except.ok_bind]
    dsimp only
    rw [Reader.expect_eq_ok_iff.2 rfl]
    exact .passed .of_pure
  rw [if_neg Bool.false_ne_true, outcome_bind_ok (outcome_tokens _)]
  dsimp only
  cases hkind : declareKind? ts with
  | some kind =>
    rw [readInitialPart_of_kind room hkind]
    obtain ⟨word, rest, rfl⟩ := declareKind?_eq_cons hkind
    rw [List.length_cons] at hts
    refine .passed (.bind (declarations_follows_first he kind (by omega) (by omega)
      (Nat.lt_succ_self _)).weaken fun items rest₁ _ _ => .demand_bind fun rest₂ hrest => ?_)
    subst hrest
    exact .weaken (.passed .of_pure)
  | none =>
    rw [readInitialPart_of_expr room hkind hsemicolon]
    refine .bind (he ts hts) fun first rest₁ _ _ => .demand_bind fun rest₂ hrest => ?_
    subst hrest
    exact .weaken (.passed .of_pure)

theorem optional_follows (stop : Mark) (hts : ts.length < rounds) :
    Follows (Ahead 0 ⟨ts, d⟩) d (Reader.optional stop (Reader.expr room) ts)
      (outcome (optional e stop) ⟨ts, d⟩) := by
  unfold Reader.optional optional
  rw [outcome_bind_ok (outcome_tokens _)]
  dsimp only
  by_cases hstop : startsWith stop ts = true
  · rw [if_pos hstop, if_pos hstop]
    exact .of_pure
  · rw [if_neg hstop, if_neg hstop]
    exact .map (he ts hts).weaken

theorem forClauses_mirrors :
    Mirrors rounds d (forClauses rounds e) (Reader.forClauses room) := by
  intro ts hts
  unfold forClauses
  rw [outcome_bind_ok (outcome_tokens _)]
  dsimp only
  cases heach : readEach? (if (declareKind? ts).isSome then ts.tail else ts) with
  | some read =>
    obtain ⟨name, goes, rest⟩ := read
    obtain ⟨hsuffix, hlength⟩ := readEach?_suffix heach
    have hahead : Ahead 1 ⟨ts, d⟩ ⟨rest, d⟩ := ⟨rfl, hsuffix, hlength⟩
    rw [Reader.forClauses_of_each rfl heach]
    refine .except_bind fun _ => ?_
    rw [outcome_bind_ok (outcome_moveTo _ _)]
    exact Follows.mono (.bind (he rest (by omega)).weaken fun subject rest' _ _ => .of_pure)
      (fun _ hc => hahead.trans hc) (Nat.le_refl d)
  | none =>
    rw [forClauses_eq room heach]
    refine .bind (initialPart_follows he hts) fun init rest₁ _ hinit => ?_
    refine .bind (optional_follows he .semicolon (by omega)) fun test rest₂ _ htest => ?_
    refine .demand_bind fun rest₃ hrest => ?_
    subst hrest
    rw [List.length_cons] at htest
    refine .weaken (.passed (.bind (optional_follows he .closeParen (by omega)) ?_))
    exact fun update rest₄ _ _ => .of_pure

end

theorem forHead_mirrors {rounds : Nat} (h : Parts rounds d e u) (hd : d ≤ nestingLimit) :
    Mirrors rounds d (forHead rounds e) (Reader.forHead (nestingLimit - d)) := by
  intro ts hts
  unfold Reader.forHead forHead
  refine .demand_bind fun rest hrest => ?_
  subst hrest
  rw [List.length_cons] at hts
  refine .passed ?_
  rcases Nat.lt_or_eq_of_le hd with hlt | rfl
  · have hroom : nestingLimit - d = nestingLimit - (d + 1) + 1 := by omega
    rw [hroom]
    dsimp only
    have hclauses := forClauses_mirrors (h.expr (d + 1) (Nat.le_succ d) hlt) rest (by omega)
    refine .bind (Follows.guarded hlt hclauses).weaken fun head rest₁ _ _ => ?_
    refine .demand_bind fun rest₂ hrest => ?_
    subst hrest
    refine .weaken (.passed (.demand_bind fun rest₃ hrest => ?_))
    subst hrest
    exact .weaken (.passed .of_pure)
  · rw [outcome_bind_error (outcome_guarded_tooDeep _), Nat.sub_self]
    exact .error rfl (Nat.le_succ _)

/-! ## All readers -/

/-- The readers of expressions and of the heads of loops. -/
inductive Goal where
  | expr | assignment | conditional
  /-- The chains of the first level given. -/
  | level (tiers : List Tier)
  | unary | operand | updated | member | primary
  /-- The items up to a closing mark: the arguments of a call, or the elements of a list. -/
  | items (close : Mark)
  | declarations (kind : DeclareKind)
  | forClauses | forHead

namespace Goal

/-- What a reader gives. -/
abbrev Result : Goal → Type
  | items _ => List Expr
  | declarations _ => List (String × Option Expr)
  | forClauses | forHead => ForHead
  | expr | assignment | conditional | level _ | unary | operand | updated | member | primary => Expr

/-- The reader with a number of levels that may be opened. -/
def read (room : Nat) : (g : Goal) → List Token → Except Error (Parsed g.Result)
  | expr => Reader.expr room
  | assignment => Reader.assignment room
  | conditional => Reader.conditional room
  | level tiers => Reader.level tiers room
  | unary => Reader.unary room
  | operand => Reader.operand room
  | updated => Reader.updated room
  | member => Reader.member room
  | primary => Reader.primary room
  | items close => Reader.items (Reader.expr room) close
  | declarations kind => fun ts => Reader.declarations room kind (ts.length + 1) ts
  | forClauses => Reader.forClauses room
  | forHead => Reader.forHead room

/-- The reader that counts levels, with a number of rounds for its loops and a number of levels for
the recursion. -/
def counted (rounds levels : Nat) : (g : Goal) → Counted g.Result
  | expr => Counting.expr rounds levels
  | assignment =>
    Counting.assignment rounds (Counting.expr rounds levels) (Counting.unary rounds levels)
  | conditional =>
    Counting.conditional rounds (Counting.expr rounds levels) (Counting.unary rounds levels)
  | level tiers => Counting.level rounds (Counting.unary rounds levels) tiers
  | unary => Counting.unary rounds levels
  | operand => Counting.operand rounds (Counting.expr rounds levels) (Counting.unary rounds levels)
  | updated => Counting.updated rounds (Counting.expr rounds levels)
  | member => Counting.member rounds (Counting.expr rounds levels)
  | primary => Counting.primary rounds (Counting.expr rounds levels)
  | items close => Counting.items (Counting.expr rounds levels) close rounds []
  | declarations kind => Counting.declarations (Counting.expr rounds levels) kind rounds []
  | forClauses => Counting.forClauses rounds (Counting.expr rounds levels)
  | forHead => Counting.forHead rounds (Counting.expr rounds levels)

/-- Every counting reader does what the reader does. -/
theorem counted_mirrors (g : Goal) {rounds levels : Nat} (hd : d ≤ nestingLimit)
    (hlevels : nestingLimit - d < levels) :
    Mirrors rounds d (g.counted rounds levels) (g.read (nestingLimit - d)) := by
  have h := parts rounds hlevels
  have hexpr : Mirrors rounds d (Counting.expr rounds levels) (Reader.expr (nestingLimit - d)) :=
    h.expr d (Nat.le_refl d) hd
  cases g with
  | expr => exact hexpr
  | assignment => exact assignment_mirrors h hd
  | conditional => exact conditional_mirrors h hd
  | level tiers => exact level_mirrors h hd tiers
  | unary => exact h.unary d (Nat.le_refl d) hd
  | operand => exact operand_mirrors h hd
  | updated => exact updated_mirrors h hd
  | member => exact member_mirrors h hd
  | primary => exact primary_mirrors h hd
  | items close => exact fun ts hts => items_follows_first hexpr hts hts
  | declarations kind =>
    exact fun ts hts => declarations_follows_first hexpr kind hts hts (Nat.lt_succ_self _)
  | forClauses => exact forClauses_mirrors hexpr
  | forHead => exact forHead_mirrors h hd

/-- **Readers make progress and give their levels back.** At every depth up to the limit and for
all tokens, a reader that counts levels comes to its end, in no more rounds of any loop than there
are tokens and with a recursion that is bounded by the levels that are left. If it succeeds then a
token at least was passed over and the counter is where it was; if it fails then the counter is not
lower than it was. No guard closes a level that is not open. And all this is what the reader itself
gives, which has as much room as there are levels left. -/
theorem balanced (g : Goal) {ts : List Token} {depth rounds levels : Nat}
    (hdepth : depth ≤ nestingLimit) (hrounds : ts.length < rounds)
    (hlevels : nestingLimit - depth < levels) :
    (∃ a rest, outcome (g.counted rounds levels) ⟨ts, depth⟩ = (.ok a, ⟨rest, depth⟩) ∧
        g.read (nestingLimit - depth) ts = .ok (a, rest) ∧ ∃ used, used ≠ [] ∧ ts = used ++ rest) ∨
      ∃ e c, outcome (g.counted rounds levels) ⟨ts, depth⟩ = (.error (.error e), c) ∧
        g.read (nestingLimit - depth) ts = .error e ∧ depth ≤ c.depth := by
  have h := counted_mirrors g hdepth hlevels ts hrounds
  generalize hresult : outcome (g.counted rounds levels) ⟨ts, depth⟩ = result at h
  cases h with
  | @ok a c hread hahead =>
    obtain ⟨rest, d'⟩ := c
    have hd' : d' = depth := hahead.depth
    obtain ⟨used, rfl⟩ : rest <:+ ts := hahead.suffix
    have hcount := hahead.count
    refine .inl ⟨a, rest, by rw [hd'], hread, used, ?_, rfl⟩
    rintro rfl
    exact absurd hcount (Nat.not_succ_le_self _)
  | @error e c hread hdepth => exact .inr ⟨e, c, rfl, hread, hdepth⟩

/-- A call with a comma after its last argument, read three levels deep. -/
theorem balanced_call :
    outcome (expr.counted 6 148) ⟨[.name "f", .mark .openParen, .name "a", .mark .comma,
        .mark .closeParen], 3⟩ = (.ok (.call (.var "f") [.var "a"]), ⟨[], 3⟩) := by
  have hargument : Derives 0 (.var "a") [.name "a"] :=
    Derives.of_le (.leaf (.var (by decide))) (Nat.zero_le 9)
  have hcall : Derives 0 (.call (.var "f") [.var "a"])
      [.name "f", .mark .openParen, .name "a", .mark .comma, .mark .closeParen] :=
    Derives.of_le (.call (.leaf (.var (by decide))) (.trailing hargument)) (Nat.zero_le 9)
  have hread : expr.read (nestingLimit - 3) [.name "f", .mark .openParen, .name "a", .mark .comma,
      .mark .closeParen] = .ok (.call (.var "f") [.var "a"], []) :=
    @Reader.expr_of_derives _ _ hcall _ [] (by decide) (Reader.stops_nil 0)
  rcases @balanced expr [.name "f", .mark .openParen, .name "a", .mark .comma, .mark .closeParen]
      3 6 148 (by decide) (by decide) (by decide) with
    ⟨a, rest, hresult, hread', -⟩ | ⟨e, c, -, hread', -⟩
  · cases hread.symm.trans hread'
    exact hresult
  · cases hread.symm.trans hread'

end Goal

end Stencil.Counting
