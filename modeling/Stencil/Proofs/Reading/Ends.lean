import Stencil.Proofs.Reading.Basic

/-!
# Where expressions begin and end

* `Mark.binding?`, `Reader.Stops`: which marks continue an expression of a level
* `Reader.Begins`, `Reader.begins_of_derives`: which tokens a derivation of a level begins with
-/

namespace Stencil

/-! ## Where expressions end -/

/-- The level at which a mark after an expression continues it, if it can. -/
def Mark.binding? : Mark → Option Nat
  | .dot | .openBracket | .openParen => some 9
  | .increment | .decrement => some 8
  | .times | .divide | .remainder => some 6
  | .plus | .minus => some 5
  | .lt | .le | .gt | .ge => some 4
  | .eq | .ne | .strictEq | .strictNe => some 3
  | .and => some 2
  | .or | .coalesce => some 1
  | .question | .assign | .plusAssign | .minusAssign | .timesAssign | .divideAssign
  | .remainderAssign => some 0
  | _ => none

theorem BinaryOp.binding_mark (op : BinaryOp) : op.mark.binding? = some op.strength := by
  rcases op with op | op | op <;> cases op <;> rfl

theorem Tick.binding_mark (tick : Tick) : tick.mark.binding? = some 8 := by
  cases tick <;> rfl

theorem binding_of_assignMark? {op : Option BinaryOp} {m : Mark} (h : assignMark? op = some m) :
    m.binding? = some 0 := by
  unfold assignMark? at h
  split at h <;> cases h <;> rfl

namespace Reader

/-- The tokens do not start with a mark that continues an expression of the level. -/
def Stops (k : Nat) (ts : List Token) : Prop :=
  ∀ m rest, ts = .mark m :: rest → ∀ j, m.binding? = some j → j < k

theorem Stops.of_le {j k : Nat} {ts : List Token} (h : Stops j ts) (hjk : j ≤ k) : Stops k ts :=
  fun m rest hts i hi => Nat.lt_of_lt_of_le (h m rest hts i hi) hjk

theorem stops_nil (k : Nat) : Stops k [] := by
  intro m rest h
  cases h

theorem stops_cons {k j : Nat} {m : Mark} {rest : List Token} (hm : m.binding? = some j)
    (hj : j < k) : Stops k (.mark m :: rest) := by
  intro m' rest' h i hi
  cases h
  rw [hm] at hi
  cases hi
  exact hj

theorem stops_of_none {k : Nat} {m : Mark} {rest : List Token} (hm : m.binding? = none) :
    Stops k (.mark m :: rest) := by
  intro m' rest' h i hi
  cases h
  rw [hm] at hi
  cases hi

theorem Stops.unlinked {k : Nat} {ts : List Token} (h : Stops k ts) (hk : k ≤ 9) :
    Unlinked ts := by
  rintro m rest rfl
  refine ⟨?_, ?_, ?_⟩
  · rintro rfl
    exact absurd (h _ _ rfl 9 rfl) (by omega)
  · rintro rfl
    exact absurd (h _ _ rfl 9 rfl) (by omega)
  · rintro rfl
    exact absurd (h _ _ rfl 9 rfl) (by omega)

theorem Stops.readTick? {k : Nat} {ts : List Token} (h : Stops k ts) (hk : k ≤ 8) :
    readTick? ts = none := by
  cases htick : Reader.readTick? ts with
  | none => rfl
  | some found =>
    obtain ⟨tick, rest⟩ := found
    have hlt := h _ _ (readTick?_eq_some_iff.1 htick) 8 tick.binding_mark
    omega

theorem Stops.readAssign? {ts : List Token} (h : Stops 0 ts) : readAssign? ts = none := by
  cases hassign : Reader.readAssign? ts with
  | none => rfl
  | some found =>
    obtain ⟨op, rest⟩ := found
    obtain ⟨m, hm, hts⟩ := readAssign?_eq_some_iff.1 hassign
    have hlt := h m rest hts 0 (binding_of_assignMark? hm)
    omega

/-- What stops expressions of all levels does not start with a mark that continues one. -/
theorem Stops.startsWith {ts : List Token} (h : Stops 0 ts) {m : Mark} {k : Nat}
    (hm : m.binding? = some k) : startsWith m ts = false :=
  startsWith_eq_false fun rest hts => absurd (h m rest hts k hm) (Nat.not_lt_zero k)

theorem Stops.question {ts : List Token} (h : Stops 0 ts) :
    Reader.startsWith .question ts = false :=
  h.startsWith rfl

theorem Stops.read? {k : Nat} {tier : Tier} {tighter : List Tier} {ts : List Token}
    (h : Stops (k + 1) ts) (htier : Tier.all.drop k = tier :: tighter) : tier.read? ts = none := by
  cases hread : tier.read? ts with
  | none => rfl
  | some found =>
    obtain ⟨op, rest⟩ := found
    obtain ⟨hop, hts⟩ := (Tier.read?_eq_some_iff htier).1 hread
    have hlt := h _ _ hts _ op.binding_mark
    omega

/-! ## Where expressions begin -/

/-- Can an operand with nothing in front of it begin with the token? -/
def startsOperand : Token → Bool
  | .name s => s != "typeof"
  | .text _ | .number _ => true
  | .mark m => m == .openParen || m == .openBracket

/-- Can an expression begin with the token? -/
def startsExpr : Token → Bool
  | .mark m =>
    m == .not || m == .minus || m == .plus || m == .increment || m == .decrement ||
      m == .openParen || m == .openBracket
  | _ => true

/-- How the tokens of a derivation at a level begin. -/
def Begins (k : Nat) (ts : List Token) : Prop :=
  ∃ t rest, ts = t :: rest ∧ startsExpr t = true ∧ (8 ≤ k → startsOperand t = true)

theorem Begins.append {k : Nat} {ts : List Token} (h : Begins k ts) (us : List Token) :
    Begins k (ts ++ us) := by
  obtain ⟨t, rest, rfl, hexpr, hoperand⟩ := h
  exact ⟨t, rest ++ us, rfl, hexpr, hoperand⟩

theorem Begins.of_lt {j k : Nat} {ts : List Token} (h : Begins k ts) (hj : j ≤ k) :
    Begins j ts := by
  obtain ⟨t, rest, rfl, hexpr, hoperand⟩ := h
  exact ⟨t, rest, rfl, hexpr, fun h8 => hoperand (Nat.le_trans h8 hj)⟩

theorem Leaf.begins {e : Expr} {t : Token} (h : Leaf e t) : Begins 9 [t] := by
  cases h with
  | var hname => exact ⟨_, [], rfl, rfl, fun _ => bne_iff_ne.2 hname.2⟩
  | _ => exact ⟨_, [], rfl, rfl, fun _ => rfl⟩

theorem begins_of_derives {k : Nat} {e : Expr} {ts : List Token} (h : Derives k e ts) :
    Begins k ts := by
  refine @Derives.rec (fun k _ ts _ => Begins k ts) (fun _ _ _ => True)
    ?weaken ?leaf ?group ?list ?attr ?item ?call ?after ?before ?unary ?binary ?cond ?assign
    ?nil ?last ?trailing ?cons k e ts h
  case weaken => intro _ _ _ _ ih; exact ih.of_lt (by omega)
  case leaf => intro _ _ h; exact Leaf.begins h
  case group => intro _ _ _ _; exact ⟨_, _, rfl, rfl, fun _ => rfl⟩
  case list => intro _ _ _ _; exact ⟨_, _, rfl, rfl, fun _ => rfl⟩
  case attr => intro _ _ _ _ ih; exact ih.append _
  case item => intro _ _ _ _ _ _ ih _; exact ih.append _
  case call => intro _ _ _ _ _ _ ih _; exact ih.append _
  case after => intro _ _ _ _ ih; exact (ih.of_lt (by omega)).append _
  case before =>
    intro _ tick _ _ _
    cases tick <;> exact ⟨_, _, rfl, rfl, fun h8 => absurd h8 (by omega)⟩
  case unary =>
    intro op _ _ _ _
    cases op <;> exact ⟨_, _, rfl, rfl, fun h8 => absurd h8 (by omega)⟩
  case binary => intro _ _ _ _ _ _ _ ih _; exact ih.append _
  case cond => intro _ _ _ _ _ _ _ _ _ ih _ _; exact (ih.of_lt (by omega)).append _
  case assign => intro _ _ _ _ _ _ _ _ _ ih _; exact (ih.of_lt (by omega)).append _
  all_goals intros; trivial

/-- An operand with nothing in front of it begins with no operator. -/
theorem Begins.no_operator {k : Nat} {ts : List Token} (h : Begins k ts) (hk : 8 ≤ k) :
    readUnary? ts = none ∧ readTick? ts = none := by
  obtain ⟨t, rest, rfl, -, hoperand⟩ := h
  have ht := hoperand hk
  constructor
  · cases hread : readUnary? (t :: rest) with
    | none => rfl
    | some found =>
      obtain ⟨op, rest'⟩ := found
      cases readUnary?_eq_some_iff.1 hread
      cases op <;> cases ht
  · cases hread : readTick? (t :: rest) with
    | none => rfl
    | some found =>
      obtain ⟨tick, rest'⟩ := found
      cases readTick?_eq_some_iff.1 hread
      cases tick <;> cases ht

theorem Begins.startsWith {k : Nat} {ts : List Token} (h : Begins k ts) {m : Mark}
    (hm : startsExpr (.mark m) = false) : startsWith m ts = false := by
  obtain ⟨t, rest, rfl, hexpr, -⟩ := h
  refine startsWith_eq_false fun rest' heq => ?_
  cases heq
  rw [hm] at hexpr
  cases hexpr

/-- No expression begins with a mark that closes a list of items. -/
theorem Begins.not_close {k : Nat} {ts : List Token} (h : Begins k ts) {close : Mark}
    (hclose : close = .closeParen ∨ close = .closeBracket) :
    Reader.startsWith close ts = false := by
  rcases hclose with rfl | rfl <;> exact h.startsWith rfl

theorem Begins.length_pos {k : Nat} {ts : List Token} (h : Begins k ts) : 0 < ts.length := by
  obtain ⟨t, rest, rfl, -⟩ := h
  exact Nat.succ_pos _

end Reader

end Stencil
