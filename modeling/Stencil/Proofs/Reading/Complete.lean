import Stencil.Proofs.Reading.Ends

/-!
# Derivations are read

Every derivation is read as the expression that it derives, whatever follows it, if nothing that
follows could continue the expression and if there is more room than the derivation has tokens.

* `Reader.MemberReads`, `Reader.UpdatedReads`, `Reader.ChainReads`, `Reader.LevelReads`,
  `Reader.AssignmentReads`: what it means at each level that tokens are read as an expression
* `Reader.readsAt_of_derives`: derivations are read at their level
* `Reader.expr_of_derives`: the main statement
-/

namespace Stencil.Reader

variable {e : Expr} {ts : List Token}

/-! ## Reading at a level -/

/-- The tokens are read as an operand, and its reader goes on with what follows. Properties and
calls inside the operand have used room, less than there are tokens. -/
def MemberReads (e : Expr) (ts : List Token) : Prop :=
  ∀ room rest, ts.length ≤ room + 1 →
    ∃ used, used < ts.length ∧ member room (ts ++ rest) = links (room - used) e rest

/-- The tokens are read as an operand or as the update of a variable. -/
def UpdatedReads (e : Expr) (ts : List Token) : Prop :=
  ∀ room rest, ts.length ≤ room + 1 → Stops 8 rest → updated room (ts ++ rest) = .ok (e, rest)

/-- The tokens are read as a chain of the level after `k`, and its reader goes on with what follows.
The operators inside the chain have used room, less than there are tokens. -/
def ChainReads (k : Nat) (e : Expr) (ts : List Token) : Prop :=
  ∀ tier tighter, Tier.all.drop k = tier :: tighter →
    ∀ room rest, ts.length ≤ room → Stops (k + 2) rest →
      ∃ used, used < ts.length ∧
        level (tier :: tighter) room (ts ++ rest) = chain tier tighter (room - used) e rest

/-- The tokens are read as a whole chain of the level after `k`. -/
def LevelReads (k : Nat) (e : Expr) (ts : List Token) : Prop :=
  ∀ room rest, ts.length ≤ room → Stops (k + 1) rest →
    level (Tier.all.drop k) room (ts ++ rest) = .ok (e, rest)

/-- The tokens are read as an assignment or a conditional. -/
def AssignmentReads (e : Expr) (ts : List Token) : Prop :=
  ∀ room rest, ts.length ≤ room → Stops 0 rest → assignment room (ts ++ rest) = .ok (e, rest)

/-! ## From one level to the next -/

theorem MemberReads.updated (h : MemberReads e ts) : UpdatedReads e ts := by
  intro room rest hroom hstops
  obtain ⟨used, -, hmember⟩ := h room rest hroom
  rw [Reader.updated, hmember, links_of_unlinked (hstops.unlinked (by omega)), Except.ok_bind]
  simp only [hstops.readTick? (Nat.le_refl 8)]
  rfl

theorem UpdatedReads.level (h : UpdatedReads e ts) (hbegins : Begins 8 ts) :
    LevelReads 6 e ts := by
  intro room rest hroom hstops
  have hpos := hbegins.length_pos
  obtain ⟨room, rfl⟩ : ∃ r, room = r + 1 := ⟨room - 1, by omega⟩
  obtain ⟨hunary, htick⟩ := (hbegins.append rest).no_operator (Nat.le_refl 8)
  have hdrop : Tier.all.drop 6 = [] := rfl
  rw [hdrop, Reader.level, unary, operand, hunary]
  simp only [htick]
  exact h room rest hroom (hstops.of_le (by omega))

theorem LevelReads.chain {k : Nat} (h : LevelReads (k + 1) e ts) (hpos : 0 < ts.length) :
    ChainReads k e ts := by
  intro tier tighter htier room rest hroom hstops
  refine ⟨0, hpos, ?_⟩
  rw [Reader.level, ← Tier.drop_succ htier, h room rest hroom hstops]
  rfl

theorem Tier.exists_drop {k : Nat} (hk : k < 6) :
    ∃ tier tighter, Tier.all.drop k = tier :: tighter := by
  cases h : Tier.all.drop k with
  | nil =>
    have hlength : Tier.all.length = 6 := rfl
    have := List.drop_eq_nil_iff.1 h
    omega
  | cons tier tighter => exact ⟨tier, tighter, rfl⟩

theorem ChainReads.level {k : Nat} (h : ChainReads k e ts) (hk : k < 6) : LevelReads k e ts := by
  intro room rest hroom hstops
  obtain ⟨tier, tighter, htier⟩ := Tier.exists_drop hk
  obtain ⟨used, -, hlevel⟩ := h tier tighter htier room rest hroom (hstops.of_le (by omega))
  rw [htier, hlevel, chain_of_none (hstops.read? htier)]

theorem conditional_of_level {room : Nat} {rest : List Token}
    (h : level Tier.all room ts = .ok (e, rest)) (hrest : startsWith .question rest = false) :
    conditional room ts = .ok (e, rest) := by
  rw [conditional, h, Except.ok_bind]
  simp only [hrest, Bool.false_eq_true, if_false]
  rfl

theorem assignment_of_conditional {room : Nat} {rest : List Token}
    (h : conditional room ts = .ok (e, rest)) (hstops : Stops 0 rest) :
    assignment room ts = .ok (e, rest) := by
  rw [assignment, h, Except.ok_bind]
  simp only [hstops.readAssign?]
  rfl

theorem LevelReads.assignment (h : LevelReads 0 e ts) : AssignmentReads e ts := by
  intro room rest hroom hstops
  have hlevel := h room rest hroom (hstops.of_le (by omega))
  rw [List.drop_zero] at hlevel
  exact assignment_of_conditional (conditional_of_level hlevel hstops.question) hstops

/-- The tokens are read as an expression where there is more room than tokens. -/
theorem AssignmentReads.expr (h : AssignmentReads e ts) {room : Nat} {rest : List Token}
    (hroom : ts.length < room) (hstops : Stops 0 rest) :
    Reader.expr room (ts ++ rest) = .ok (e, rest) := by
  obtain ⟨room, rfl⟩ : ∃ r, room = r + 1 := ⟨room - 1, by omega⟩
  rw [Reader.expr]
  exact h room rest (by omega) hstops

/-- The tokens of a derivation are read at its level. -/
structure ReadsAt (k : Nat) (e : Expr) (ts : List Token) : Prop where
  le : k ≤ 9
  member : k = 9 → MemberReads e ts
  updated : k = 8 → UpdatedReads e ts
  unary : k = 7 → LevelReads 6 e ts
  chain : ∀ j, j < 6 → k = j + 1 → ChainReads j e ts
  assignment : k = 0 → AssignmentReads e ts

theorem MemberReads.readsAt (h : MemberReads e ts) : ReadsAt 9 e ts where
  le := by omega
  member _ := h
  updated hk := by omega
  unary hk := by omega
  chain j hj hk := by omega
  assignment hk := by omega

theorem UpdatedReads.readsAt (h : UpdatedReads e ts) : ReadsAt 8 e ts where
  le := by omega
  member hk := by omega
  updated _ := h
  unary hk := by omega
  chain j hj hk := by omega
  assignment hk := by omega

theorem LevelReads.readsAt (h : LevelReads 6 e ts) : ReadsAt 7 e ts where
  le := by omega
  member hk := by omega
  updated hk := by omega
  unary _ := h
  chain j hj hk := by omega
  assignment hk := by omega

theorem ChainReads.readsAt {k : Nat} (h : ChainReads k e ts) (hk : k < 6) :
    ReadsAt (k + 1) e ts where
  le := by omega
  member hk := by omega
  updated hk := by omega
  unary hk := by omega
  chain j _ hj := by
    cases hj
    exact h
  assignment hk := by omega

theorem AssignmentReads.readsAt (h : AssignmentReads e ts) : ReadsAt 0 e ts where
  le := by omega
  member hk := by omega
  updated hk := by omega
  unary hk := by omega
  chain j hj hk := by omega
  assignment _ := h

/-- What is read at the level after `k` as a whole. -/
theorem ReadsAt.level {k : Nat} (h : ReadsAt (k + 1) e ts) (hk : k ≤ 6) : LevelReads k e ts := by
  by_cases h6 : k = 6
  · subst h6
    exact h.unary rfl
  · exact (h.chain k (by omega) rfl).level (by omega)

/-- What is read at a level is read at the level below it. -/
theorem ReadsAt.weaken {k : Nat} (h : ReadsAt (k + 1) e ts) (hbegins : Begins (k + 1) ts) :
    ReadsAt k e ts := by
  have hle := h.le
  obtain rfl | rfl | hk | rfl : k = 8 ∨ k = 7 ∨ (∃ j, j < 6 ∧ k = j + 1) ∨ k = 0 := by
    by_cases h0 : k = 0
    · exact .inr (.inr (.inr h0))
    by_cases h6 : k ≤ 6
    · exact .inr (.inr (.inl ⟨k - 1, by omega, by omega⟩))
    · omega
  · exact (h.member rfl).updated.readsAt
  · exact ((h.updated rfl).level hbegins).readsAt
  · obtain ⟨j, hj, rfl⟩ := hk
    exact ((h.level (by omega)).chain hbegins.length_pos).readsAt hj
  · exact (h.level (by omega)).assignment.readsAt

theorem ReadsAt.of_le {j k : Nat} (h : ReadsAt k e ts) (hbegins : Begins k ts) (hjk : j ≤ k) :
    ReadsAt j e ts := by
  induction hjk with
  | refl => exact h
  | step _ ih => exact ih (h.weaken hbegins) (hbegins.of_lt (Nat.le_succ _))

/-! ## Lists of items -/

/-- The tokens are read as items up to a closing mark. -/
def ItemsRead (es : List Expr) (ts : List Token) : Prop :=
  ∀ close, close = Mark.closeParen ∨ close = Mark.closeBracket →
    ∀ room rest, ts.length < room →
      items (fun ts => expr room ts) close (ts ++ .mark close :: rest) = .ok (es, rest)

/-- The tokens are read as at least one item up to a closing mark. -/
def ItemsFromRead (es : List Expr) (ts : List Token) : Prop :=
  ∀ close, close = Mark.closeParen ∨ close = Mark.closeBracket →
    ∀ room rest count, ts.length < room → ts.length ≤ count →
      itemsFrom (fun ts => expr room ts) close count (ts ++ .mark close :: rest) = .ok (es, rest)

theorem stops_close {close : Mark} (h : close = .closeParen ∨ close = .closeBracket)
    (rest : List Token) : Stops 0 (.mark close :: rest) := by
  rcases h with rfl | rfl <;> exact stops_of_none rfl

theorem startsWith_of_ne {m n : Mark} (h : m ≠ n) (rest : List Token) :
    startsWith n (.mark m :: rest) = false := by
  simp [startsWith, h]

theorem ItemsFromRead.items {es : List Expr} (h : ItemsFromRead es ts) (hbegins : Begins 0 ts) :
    ItemsRead es ts := by
  intro close hclose room rest hroom
  rw [Reader.items, (hbegins.append _).not_close hclose]
  refine h close hclose room rest _ hroom ?_
  simp only [List.length_append]
  omega

theorem itemsRead_nil : ItemsRead [] [] := by
  intro close _ room rest _
  rw [List.nil_append, Reader.items, startsWith_cons]
  rfl

theorem itemsFromRead_last (h : AssignmentReads e ts) (hbegins : Begins 0 ts) :
    ItemsFromRead [e] ts := by
  intro close hclose room rest count hroom hcount
  have hpos := hbegins.length_pos
  obtain ⟨count, rfl⟩ : ∃ c, count = c + 1 := ⟨count - 1, by omega⟩
  rw [itemsFrom, h.expr hroom (stops_close hclose rest), Except.ok_bind]
  simp only [startsWith_cons, if_true, List.tail_cons]
  rfl

theorem itemsFromRead_trailing (h : AssignmentReads e ts) :
    ItemsFromRead [e] (ts ++ [.mark .comma]) := by
  intro close hclose room rest count hroom hcount
  rw [List.length_append, List.length_singleton] at hroom hcount
  obtain ⟨count, rfl⟩ : ∃ c, count = c + 1 := ⟨count - 1, by omega⟩
  have hcomma : startsWith close (.mark .comma :: .mark close :: rest) = false := by
    rcases hclose with rfl | rfl <;> exact startsWith_of_ne (by decide) _
  rw [List.append_assoc, List.singleton_append, itemsFrom,
    h.expr (by omega) (stops_of_none rfl), Except.ok_bind]
  simp only [hcomma, expect_eq_ok_iff.2 rfl, Except.ok_bind, startsWith_cons, if_true,
    List.tail_cons, Bool.false_eq_true, if_false]
  rfl

theorem itemsFromRead_cons {es : List Expr} {us : List Token} (h : AssignmentReads e ts)
    (hrest : ItemsFromRead es us) (hbegins : Begins 0 us) :
    ItemsFromRead (e :: es) (ts ++ .mark .comma :: us) := by
  intro close hclose room rest count hroom hcount
  rw [List.length_append, List.length_cons] at hroom hcount
  obtain ⟨count, rfl⟩ : ∃ c, count = c + 1 := ⟨count - 1, by omega⟩
  have hcomma : ∀ us, startsWith close (.mark .comma :: us) = false := by
    intro us
    rcases hclose with rfl | rfl <;> exact startsWith_of_ne (by decide) _
  rw [List.append_assoc, List.cons_append, itemsFrom, h.expr (by omega) (stops_of_none rfl),
    Except.ok_bind]
  simp only [hcomma, expect_eq_ok_iff.2 rfl, Except.ok_bind,
    (hbegins.append (.mark close :: rest)).not_close hclose, Bool.false_eq_true, if_false,
    hrest close hclose room rest count (by omega) (by omega)]
  rfl

/-! ## Each kind of expression -/

theorem memberReads_leaf {t : Token} (h : Leaf e t) : MemberReads e [t] := by
  intro room rest _
  refine ⟨0, Nat.one_pos, ?_⟩
  have hprimary : primary room (t :: rest) = .ok (e, rest) := by
    cases h with
    | @var name hname =>
      rw [primary, (nameOperand_eq_ok_iff hname.2).2 (.var hname)]
      rfl
    | text s => rw [primary]
    | number x => rw [primary]
    | _ =>
      rw [primary]
      rfl
  rw [List.singleton_append, Reader.member, hprimary]
  rfl

theorem memberReads_group (h : AssignmentReads e ts) :
    MemberReads e (.mark .openParen :: (ts ++ [.mark .closeParen])) := by
  intro room rest hroom
  refine ⟨0, Nat.succ_pos _, ?_⟩
  simp only [List.length_cons, List.length_append, List.length_nil] at hroom
  rw [List.cons_append, List.append_assoc, List.singleton_append, Reader.member, primary,
    h.expr (by omega) (stops_of_none rfl), Except.ok_bind]
  simp only [expect_eq_ok_iff.2 rfl, Except.ok_bind]
  rfl

theorem memberReads_list {items : List Expr} (h : ItemsRead items ts) :
    MemberReads (.list items) (.mark .openBracket :: (ts ++ [.mark .closeBracket])) := by
  intro room rest hroom
  refine ⟨0, Nat.succ_pos _, ?_⟩
  simp only [List.length_cons, List.length_append, List.length_nil] at hroom
  rw [List.cons_append, List.append_assoc, List.singleton_append, Reader.member, primary,
    h _ (.inr rfl) room rest (by omega)]
  rfl

/-- One more property or call after an operand. It takes a level from the room. -/
theorem MemberReads.link {e' : Expr} {us : List Token} (h : MemberReads e ts)
    (hlink : ∀ room rest, us.length ≤ room + 1 →
      links (room + 1) e (us ++ rest) = links room e' rest)
    (hus : 0 < us.length) : MemberReads e' (ts ++ us) := by
  intro room rest hroom
  rw [List.length_append] at hroom
  obtain ⟨used, hused, hmember⟩ := h room (us ++ rest) (by omega)
  refine ⟨used + 1, by rw [List.length_append]; omega, ?_⟩
  obtain ⟨left, hleft⟩ : ∃ left, room - used = left + 1 := ⟨room - used - 1, by omega⟩
  rw [List.append_assoc, hmember, hleft, hlink left rest (by omega),
    show room - (used + 1) = left by omega]

theorem memberReads_attr {name : String} (h : MemberReads e ts) :
    MemberReads (.attr e name) (ts ++ [.mark .dot, .name name]) := by
  refine h.link ?_ Nat.two_pos
  intro room rest _
  rw [List.cons_append, List.singleton_append, links]

theorem memberReads_item {key : Expr} {us : List Token} (h : MemberReads e ts)
    (hkey : AssignmentReads key us) :
    MemberReads (.item e key) (ts ++ .mark .openBracket :: (us ++ [.mark .closeBracket])) := by
  refine h.link ?_ ?_
  · intro room rest hroom
    simp only [List.length_cons, List.length_append, List.length_nil] at hroom
    rw [List.cons_append, List.append_assoc, List.singleton_append, links,
      hkey.expr (by omega) (stops_of_none rfl), Except.ok_bind]
    simp only [expect_eq_ok_iff.2 rfl, Except.ok_bind]
  · exact Nat.succ_pos _

theorem memberReads_call {arguments : List Expr} {us : List Token} (h : MemberReads e ts)
    (harguments : ItemsRead arguments us) :
    MemberReads (.call e arguments)
      (ts ++ .mark .openParen :: (us ++ [.mark .closeParen])) := by
  refine h.link ?_ ?_
  · intro room rest hroom
    simp only [List.length_cons, List.length_append, List.length_nil] at hroom
    rw [List.cons_append, List.append_assoc, List.singleton_append, links,
      harguments _ (.inl rfl) room rest (by omega), Except.ok_bind]
  · exact Nat.succ_pos _

theorem updatedReads_after {name : String} {tick : Tick} (h : MemberReads (.var name) ts) :
    UpdatedReads (.update name tick .after) (ts ++ [.mark tick.mark]) := by
  intro room rest hroom _
  rw [List.length_append, List.length_singleton] at hroom
  obtain ⟨used, -, hmember⟩ := h room (.mark tick.mark :: rest) (by omega)
  have hunlinked : Unlinked (.mark tick.mark :: rest) :=
    (stops_cons tick.binding_mark (Nat.lt_succ_self 8)).unlinked (Nat.le_refl 9)
  rw [List.append_assoc, List.singleton_append, Reader.updated, hmember,
    links_of_unlinked hunlinked, Except.ok_bind]
  simp only [readTick?_eq_some_iff.2 rfl]
  rfl

theorem levelReads_before {name : String} {tick : Tick} (h : LevelReads 6 (.var name) ts) :
    LevelReads 6 (.update name tick .before) (.mark tick.mark :: ts) := by
  intro room rest hroom hstops
  rw [List.length_cons] at hroom
  obtain ⟨room, rfl⟩ : ∃ r, room = r + 1 := ⟨room - 1, by omega⟩
  have hname := h room rest (by omega) hstops
  have hdrop : Tier.all.drop 6 = [] := rfl
  rw [hdrop, Reader.level] at hname ⊢
  have hunary : readUnary? (.mark tick.mark :: (ts ++ rest)) = none := by cases tick <;> rfl
  rw [List.cons_append, unary, operand, hunary]
  simp only [readTick?_eq_some_iff.2 rfl, hname, Except.ok_bind]
  rfl

theorem levelReads_unary {op : UnaryOp} (h : LevelReads 6 e ts) :
    LevelReads 6 (.unary op e) (op.token :: ts) := by
  intro room rest hroom hstops
  rw [List.length_cons] at hroom
  obtain ⟨room, rfl⟩ : ∃ r, room = r + 1 := ⟨room - 1, by omega⟩
  have hoperand := h room rest (by omega) hstops
  have hdrop : Tier.all.drop 6 = [] := rfl
  rw [hdrop, Reader.level] at hoperand ⊢
  rw [List.cons_append, unary, operand, readUnary?_eq_some_iff.2 rfl]
  simp only [hoperand, Except.ok_bind]
  rfl

theorem chainReads_binary {k : Nat} {op : BinaryOp} {left right : Expr} {us : List Token}
    (hop : op.strength = k + 1) (hleft : ChainReads k left ts)
    (hright : LevelReads (k + 1) right us) :
    ChainReads k (.binary op left right) (ts ++ .mark op.mark :: us) := by
  intro tier tighter htier room rest hroom hstops
  rw [List.length_append, List.length_cons] at hroom
  have hmark : op.mark.binding? = some (k + 1) := hop ▸ op.binding_mark
  obtain ⟨used, hused, hlevel⟩ := hleft tier tighter htier room (.mark op.mark :: (us ++ rest))
    (by omega) (stops_cons hmark (by omega))
  refine ⟨used + 1, by rw [List.length_append, List.length_cons]; omega, ?_⟩
  obtain ⟨rest', hrest'⟩ : ∃ r, room - used = r + 1 := ⟨room - used - 1, by omega⟩
  have hread : tier.read? (.mark op.mark :: (us ++ rest)) = some (op, us ++ rest) :=
    (Tier.read?_eq_some_iff htier).2 ⟨hop, rfl⟩
  rw [List.append_assoc, List.cons_append, hlevel, hrest', chain_succ hread,
    ← Tier.drop_succ htier, hright rest' rest (by omega) hstops, Except.ok_bind]
  simp only
  rw [show room - (used + 1) = rest' by omega]

theorem assignmentReads_cond {test whenTrue whenFalse : Expr} {us vs : List Token}
    (htest : LevelReads 0 test ts) (htrue : AssignmentReads whenTrue us)
    (hfalse : AssignmentReads whenFalse vs) :
    AssignmentReads (.cond test whenTrue whenFalse)
      (ts ++ .mark .question :: (us ++ .mark .colon :: vs)) := by
  intro room rest hroom hstops
  simp only [List.length_cons, List.length_append] at hroom
  have htest' := htest room (.mark .question :: (us ++ .mark .colon :: (vs ++ rest))) (by omega)
    (stops_cons rfl Nat.one_pos)
  rw [List.drop_zero] at htest'
  have hcolon : Stops 0 (.mark .colon :: (vs ++ rest)) := stops_of_none rfl
  refine assignment_of_conditional ?_ hstops
  rw [List.append_assoc, List.cons_append, List.append_assoc, List.cons_append, conditional,
    htest', Except.ok_bind]
  simp only [startsWith_cons, if_true, List.tail_cons,
    htrue.expr (show us.length < room by omega) hcolon, Except.ok_bind,
    expect_eq_ok_iff.2 rfl, hfalse.expr (show vs.length < room by omega) hstops]
  rfl

theorem assignmentReads_assign {name : String} {op : Option BinaryOp} {m : Mark} {value : Expr}
    {us : List Token} (hm : assignMark? op = some m) (hname : LevelReads 0 (.var name) ts)
    (hvalue : AssignmentReads value us) :
    AssignmentReads (.assign name op value) (ts ++ .mark m :: us) := by
  intro room rest hroom hstops
  rw [List.length_append, List.length_cons] at hroom
  have hname' := hname room (.mark m :: (us ++ rest)) (by omega)
    (stops_cons (binding_of_assignMark? hm) Nat.one_pos)
  rw [List.drop_zero] at hname'
  have hquestion : startsWith .question (.mark m :: (us ++ rest)) = false := by
    refine startsWith_eq_false fun rest heq => ?_
    cases heq
    unfold assignMark? at hm
    split at hm <;> cases hm
  rw [List.append_assoc, List.cons_append, Reader.assignment,
    conditional_of_level hname' hquestion, Except.ok_bind]
  simp only [readAssign?_eq_some_iff.2 ⟨m, hm, rfl⟩, assignTarget_eq_ok_iff.2 rfl, Except.ok_bind,
    hvalue.expr (show us.length < room by omega) hstops]
  rfl

/-! ## Every derivation -/

/-- Derivations are read at their level. -/
theorem readsAt_of_derives {k : Nat} (h : Derives k e ts) : ReadsAt k e ts := by
  refine @Derives.rec
    (fun k e ts _ => ReadsAt k e ts)
    (fun items ts _ => ItemsRead items ts ∧ (items ≠ [] → Begins 0 ts ∧ ItemsFromRead items ts))
    ?weaken ?leaf ?group ?list ?attr ?item ?call ?after ?before ?unary ?binary ?cond ?assign
    ?nil ?last ?trailing ?cons k e ts h
  case weaken =>
    intro k e ts hderives ih
    exact ih.weaken (begins_of_derives hderives)
  case leaf =>
    intro e t hleaf
    exact (memberReads_leaf hleaf).readsAt
  case group =>
    intro e ts _ ih
    exact (memberReads_group (ih.assignment rfl)).readsAt
  case list =>
    intro items ts _ ih
    exact (memberReads_list ih.1).readsAt
  case attr =>
    intro e name ts _ ih
    exact (memberReads_attr (ih.member rfl)).readsAt
  case item =>
    intro e key ts us _ _ ih ihkey
    exact (memberReads_item (ih.member rfl) (ihkey.assignment rfl)).readsAt
  case call =>
    intro e arguments ts us _ _ ih iharguments
    exact (memberReads_call (ih.member rfl) iharguments.1).readsAt
  case after =>
    intro name tick ts _ ih
    exact (updatedReads_after (ih.member rfl)).readsAt
  case before =>
    intro name tick ts hname ih
    have hlevel := (ih.of_le (begins_of_derives hname) (by omega : 7 ≤ 9)).unary rfl
    exact (levelReads_before hlevel).readsAt
  case unary =>
    intro op e ts _ ih
    exact (levelReads_unary (ih.unary rfl)).readsAt
  case binary =>
    intro op left right ts us _ _ ihleft ihright
    obtain ⟨k, hk⟩ := Nat.exists_eq_add_of_lt op.strength_pos
    rw [Nat.zero_add] at hk
    have hlt := op.strength_lt
    rw [hk] at ihleft ihright ⊢
    have hbinary := chainReads_binary hk (ihleft.chain k (by omega) rfl) (ihright.level (by omega))
    exact hbinary.readsAt (by omega)
  case cond =>
    intro test whenTrue whenFalse ts us vs _ _ _ ihtest ihtrue ihfalse
    have htest : LevelReads 0 test ts := ihtest.level (Nat.zero_le 6)
    exact (assignmentReads_cond htest (ihtrue.assignment rfl) (ihfalse.assignment rfl)).readsAt
  case assign =>
    intro name op m value ts us hm hname _ ihname ihvalue
    have hlevel : LevelReads 0 (.var name) ts :=
      (ihname.of_le (begins_of_derives hname) (by omega : 1 ≤ 9)).level (Nat.zero_le 6)
    exact (assignmentReads_assign hm hlevel (ihvalue.assignment rfl)).readsAt
  case nil => exact ⟨itemsRead_nil, fun h => absurd rfl h⟩
  case last =>
    intro e ts hderives ih
    have hbegins := begins_of_derives hderives
    have hfrom := itemsFromRead_last (ih.assignment rfl) hbegins
    exact ⟨hfrom.items hbegins, fun _ => ⟨hbegins, hfrom⟩⟩
  case trailing =>
    intro e ts hderives ih
    have hbegins := (begins_of_derives hderives).append [.mark .comma]
    have hfrom := itemsFromRead_trailing (ih.assignment rfl)
    exact ⟨hfrom.items hbegins, fun _ => ⟨hbegins, hfrom⟩⟩
  case cons =>
    intro e next rest ts us hderives _ ih ihrest
    have hbegins := (begins_of_derives hderives).append (.mark .comma :: us)
    obtain ⟨hnext, hrest⟩ := ihrest.2 (List.cons_ne_nil next rest)
    have hfrom := itemsFromRead_cons (ih.assignment rfl) hrest hnext
    exact ⟨hfrom.items hbegins, fun _ => ⟨hbegins, hfrom⟩⟩

/-- **Derivations are read.** With more room than tokens, and before anything that does not continue
the expression. -/
theorem expr_of_derives (h : Derives 0 e ts) {room : Nat} {rest : List Token}
    (hroom : ts.length < room) (hstops : Stops 0 rest) : expr room (ts ++ rest) = .ok (e, rest) :=
  ((readsAt_of_derives h).assignment rfl).expr hroom hstops

end Stencil.Reader
