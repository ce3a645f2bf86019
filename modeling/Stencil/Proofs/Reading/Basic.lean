import Stencil.Expr.Parser
import Stencil.Proofs.Grammar

/-!
# What the readers of single tokens do

Each small reader accepts exactly the tokens that the grammar names.

* `Except.bind_eq_ok_iff`: what it means that a sequence of two readers succeeds
* `Reader.expect_eq_ok_iff`, `Reader.startsWith_iff`: marks
* `Reader.Tier.read?_eq_some_iff`: the operators of a level are those of its strength
* `Reader.nameOperand_eq_ok_iff`: which names are operands
-/

namespace Stencil

theorem Except.bind_eq_ok_iff {ε α β : Type} {x : Except ε α} {f : α → Except ε β} {b : β} :
    x >>= f = .ok b ↔ ∃ a, x = .ok a ∧ f a = .ok b := by
  constructor
  · intro h
    cases x with
    | ok a => exact ⟨a, rfl, h⟩
    | error e => cases h
  · rintro ⟨a, rfl, h⟩
    exact h

theorem Except.ok_bind {ε α β : Type} (a : α) (f : α → Except ε β) :
    (Except.ok a >>= f : Except ε β) = f a := rfl

namespace Reader

/-! ## Marks -/

theorem expect_eq_ok_iff {m : Mark} {ts rest : List Token} :
    expect m ts = .ok rest ↔ ts = .mark m :: rest := by
  constructor
  · intro h
    unfold expect at h
    split at h
    · split at h
      · rename_i heq
        cases h
        rw [heq]
      · exact absurd h (by simp [unexpected])
    · exact absurd h (by simp [unexpected])
  · rintro rfl
    simp [expect]

theorem startsWith_iff {m : Mark} {ts : List Token} :
    startsWith m ts = true ↔ ∃ rest, ts = .mark m :: rest := by
  cases ts with
  | nil => simp [startsWith]
  | cons t rest => simp [startsWith]

@[simp] theorem startsWith_cons (m : Mark) (rest : List Token) :
    startsWith m (.mark m :: rest) = true :=
  startsWith_iff.2 ⟨rest, rfl⟩

theorem startsWith_eq_false {m : Mark} {ts : List Token} (h : ∀ rest, ts ≠ .mark m :: rest) :
    startsWith m ts = false := by
  cases hs : startsWith m ts with
  | false => rfl
  | true =>
    obtain ⟨rest, hrest⟩ := startsWith_iff.1 hs
    exact absurd hrest (h rest)

/-! ## Operators -/

theorem readAssign?_eq_some_iff {ts rest : List Token} {op : Option BinaryOp} :
    readAssign? ts = some (op, rest) ↔ ∃ m, assignMark? op = some m ∧ ts = .mark m :: rest := by
  constructor
  · intro h
    unfold readAssign? at h
    split at h <;> cases h <;> exact ⟨_, rfl, rfl⟩
  · rintro ⟨m, hm, rfl⟩
    unfold assignMark? at hm
    split at hm <;> cases hm <;> rfl

theorem readUnary?_eq_some_iff {ts rest : List Token} {op : UnaryOp} :
    readUnary? ts = some (op, rest) ↔ ts = op.token :: rest := by
  constructor
  · intro h
    unfold readUnary? at h
    split at h <;> cases h <;> rfl
  · rintro rfl
    cases op <;> rfl

theorem readTick?_eq_some_iff {ts rest : List Token} {tick : Tick} :
    readTick? ts = some (tick, rest) ↔ ts = .mark tick.mark :: rest := by
  constructor
  · intro h
    unfold readTick? at h
    split at h <;> cases h <;> rfl
  · rintro rfl
    cases tick <;> rfl

/-- Every entry in the table of a level has the strength of that level and its own mark. -/
theorem Tier.strength_of_mem :
    ∀ k, k < 6 → ∀ p ∈ Tier.all.getD k [], p.2.strength = k + 1 ∧ p.2.mark = p.1 := by
  decide

theorem Tier.lt_of_drop {k : Nat} {tier : Tier} {tighter : List Tier}
    (h : Tier.all.drop k = tier :: tighter) : k < 6 := by
  apply Nat.lt_of_not_le
  intro hk
  rw [List.drop_eq_nil_of_le hk] at h
  cases h

theorem Tier.getD_of_drop {k : Nat} {tier : Tier} {tighter : List Tier}
    (h : Tier.all.drop k = tier :: tighter) : Tier.all.getD k [] = tier := by
  have hk : Tier.all[k]? = some tier := by
    rw [← Nat.add_zero k, ← List.getElem?_drop, h]
    rfl
  rw [List.getD_eq_getElem?_getD, hk]
  rfl

theorem Tier.drop_succ {k : Nat} {tier : Tier} {tighter : List Tier}
    (h : Tier.all.drop k = tier :: tighter) : Tier.all.drop (k + 1) = tighter := by
  rw [← List.drop_drop, h]
  rfl

/-- The operators of a level are those of its strength, read under their marks. -/
theorem Tier.read?_eq_some_iff {k : Nat} {tier : Tier} {tighter : List Tier}
    (h : Tier.all.drop k = tier :: tighter) {ts rest : List Token} {op : BinaryOp} :
    tier.read? ts = some (op, rest) ↔ op.strength = k + 1 ∧ ts = .mark op.mark :: rest := by
  have hk := Tier.lt_of_drop h
  have htier := Tier.getD_of_drop h
  constructor
  · intro hread
    unfold Tier.read? at hread
    split at hread
    · rename_i m us
      obtain ⟨op', hlookup, heq⟩ := Option.map_eq_some_iff.1 hread
      cases heq
      obtain ⟨before, after, hsplit, -⟩ := List.lookup_eq_some_iff.1 hlookup
      have hmem : (m, op) ∈ Tier.all.getD k [] := by
        rw [htier, hsplit]
        exact List.mem_append_right _ List.mem_cons_self
      have hentry : op.strength = k + 1 ∧ op.mark = m := Tier.strength_of_mem k hk _ hmem
      rw [hentry.2]
      exact ⟨hentry.1, rfl⟩
    · cases hread
  · rintro ⟨hstrength, rfl⟩
    have hlookup : (Tier.all.getD (op.strength - 1) []).lookup op.mark = some op := by
      rcases op with op | op | op <;> cases op <;> rfl
    rw [hstrength, Nat.add_sub_cancel, htier] at hlookup
    simp [Tier.read?, hlookup]

/-! ## Chains -/

variable {tier : Tier} {tighter : List Tier} {room : Nat} {left : Expr} {ts : List Token}

theorem chain_of_none (h : tier.read? ts = none) :
    chain tier tighter room left ts = .ok (left, ts) :=
  chain.eq_1 tier tighter left ts room h

theorem chain_zero {op : BinaryOp × List Token} (h : tier.read? ts = some op) :
    chain tier tighter 0 left ts = tooDeep :=
  chain.eq_2 tier tighter left ts op h

theorem chain_succ {op : BinaryOp} {rest : List Token} (h : tier.read? ts = some (op, rest)) :
    chain tier tighter (room + 1) left ts = (do
      let (right, rest) ← level tighter room rest
      chain tier tighter room (.binary op left right) rest) :=
  chain.eq_3 tier tighter left ts op rest room h

/-! ## Links -/

/-- No property and no call follows. -/
def Unlinked (ts : List Token) : Prop :=
  ∀ m rest, ts = .mark m :: rest → m ≠ .dot ∧ m ≠ .openBracket ∧ m ≠ .openParen

theorem links_of_unlinked {e : Expr} (h : Unlinked ts) : links room e ts = .ok (e, ts) := by
  rw [links]
  · rintro rest rfl -
    exact (h _ _ rfl).1 rfl
  · rintro rest rfl -
    exact (h _ _ rfl).2.1 rfl
  · rintro rest rfl -
    exact (h _ _ rfl).2.2 rfl
  · rintro name rest room' rfl -
    exact (h _ _ rfl).1 rfl
  · rintro rest room' rfl -
    exact (h _ _ rfl).1 rfl
  · rintro rest room' rfl -
    exact (h _ _ rfl).2.1 rfl
  · rintro rest room' rfl -
    exact (h _ _ rfl).2.2 rfl

/-! ## Operands -/

theorem makeUpdate_eq_ok_iff {target e : Expr} {tick : Tick} {side : Side} :
    makeUpdate target tick side = .ok e ↔
      ∃ name, target = .var name ∧ e = .update name tick side := by
  constructor
  · intro h
    unfold makeUpdate at h
    split at h
    · cases h
      exact ⟨_, rfl, rfl⟩
    · cases h
  · rintro ⟨name, rfl, rfl⟩
    rfl

theorem assignTarget_eq_ok_iff {target : Expr} {name : String} :
    assignTarget target = .ok name ↔ target = .var name := by
  constructor
  · intro h
    unfold assignTarget at h
    split at h
    · cases h
      rfl
    · cases h
  · rintro rfl
    rfl

/-- The names that are operands, apart from `typeof`, are the leaves of the grammar. -/
theorem nameOperand_eq_ok_iff {name : String} {e : Expr} (h : name ≠ "typeof") :
    nameOperand name = .ok e ↔ Leaf e (.name name) := by
  constructor
  · intro hread
    unfold nameOperand at hread
    split at hread
    · rename_i heq; cases hread; subst heq; exact .true
    split at hread
    · rename_i heq; cases hread; subst heq; exact .false
    split at hread
    · rename_i heq; cases hread; subst heq; exact .null
    split at hread
    · rename_i heq; cases hread; subst heq; exact .this
    split at hread
    · cases hread
    · cases hread
      refine .var ⟨?_, h⟩
      simp_all [isBindable, valueWords]
  · intro hleaf
    cases hleaf with
    | var hvar =>
      have hbind := hvar.1
      simp only [isBindable, valueWords, Bool.and_eq_true, Bool.not_eq_true',
        List.contains_eq_mem, List.mem_cons, List.not_mem_nil, decide_eq_false_iff_not,
        not_or] at hbind
      obtain ⟨hreserved, htrue, hfalse, hnull, hthis, -⟩ := hbind
      simp [nameOperand, htrue, hfalse, hnull, hthis, hreserved]
    | this => rfl
    | true => rfl
    | false => rfl
    | null => rfl

end Reader

end Stencil
