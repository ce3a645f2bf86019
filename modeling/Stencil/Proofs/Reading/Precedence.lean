import Mathlib.Data.List.Basic
import Stencil.Proofs.Reading.Standalone
import Stencil.Step.Parser

/-!
# Precedence

A chain of operands with binary operators between them is read in one way: as its operators group
it. Each operator has a level, and the last one of the lowest level is applied last. The operators
`??` and `||` have one level together, though they are documented with a level each.

* `Chains`: the tokens of a chain
* `Groups`, `Groups.exists`, `Groups.unique`: the tree that levels make of a chain
* `documentedLevel`, `groups_documentedLevel_iff`: the documented levels, and the chains that they
  group like the reader
* `ofText_of_chains`: the main statement
* `ofText_coalesceOr`: a chain that is not read as it is documented
-/

namespace Stencil

/-! ## Chains and their trees -/

/-- The tokens of a chain: of its first operand, and of more operands with an operator before each.
An operand may have operators in front. -/
inductive Chains : Expr → List (BinaryOp × Expr) → List Token → Prop
  | last {a : Expr} {ts : List Token} : Derives 7 a ts → Chains a [] ts
  | cons {a b : Expr} {op : BinaryOp} {rest : List (BinaryOp × Expr)} {ts us : List Token} :
      Derives 7 a ts → Chains b rest us → Chains a ((op, b) :: rest) (ts ++ .mark op.mark :: us)

variable {level level' : BinaryOp → Nat}

/-- The operator is the last one of the lowest level between two parts of a chain. -/
structure Splits (level : BinaryOp → Nat) (ls : List (BinaryOp × Expr)) (op : BinaryOp)
    (rs : List (BinaryOp × Expr)) : Prop where
  left : ∀ p ∈ ls, level op ≤ level p.1
  right : ∀ p ∈ rs, level op < level p.1

/-- The tree that the levels make of a chain. Operators of one level group to the left, so the last
one of the lowest level is applied last. -/
inductive Groups (level : BinaryOp → Nat) : Expr → List (BinaryOp × Expr) → Expr → Prop
  | operand (a : Expr) : Groups level a [] a
  | binary {a b left right : Expr} {op : BinaryOp} {ls rs : List (BinaryOp × Expr)} :
      Splits level ls op rs → Groups level a ls left → Groups level b rs right →
      Groups level a (ls ++ (op, b) :: rs) (.binary op left right)

/-- A chain with an operator splits at one. -/
theorem exists_splits (level : BinaryOp → Nat) (first : BinaryOp × Expr)
    (rest : List (BinaryOp × Expr)) :
    ∃ ls op b rs, first :: rest = ls ++ (op, b) :: rs ∧ Splits level ls op rs := by
  induction rest generalizing first with
  | nil => exact ⟨[], first.1, first.2, [], rfl, ⟨nofun, nofun⟩⟩
  | cons next rest ih =>
    obtain ⟨ls, op, b, rs, heq, hsplits⟩ := ih next
    by_cases hle : level op ≤ level first.1
    · refine ⟨first :: ls, op, b, rs, by rw [heq, List.cons_append], ?_, hsplits.right⟩
      exact List.forall_mem_cons.2 ⟨hle, hsplits.left⟩
    -- everything after the first operator binds more strongly than it
    · refine ⟨[], first.1, first.2, next :: rest, rfl, nofun, fun p hp => ?_⟩
      rw [heq, List.mem_append, List.mem_cons] at hp
      rcases hp with hp | rfl | hp
      · exact Nat.lt_of_lt_of_le (Nat.lt_of_not_le hle) (hsplits.left p hp)
      · exact Nat.lt_of_not_le hle
      · exact Nat.lt_trans (Nat.lt_of_not_le hle) (hsplits.right p hp)

/-- An operator that another way to split the chain has further right is the same one, or it is
bound less strongly by its own levels and not less strongly by the others. -/
theorem Splits.compare_append {ls rs rs' more : List (BinaryOp × Expr)} {op op' : BinaryOp}
    {b b' : Expr} (h : Splits level ls op rs) (h' : Splits level' (ls ++ more) op' rs')
    (heq : (op, b) :: rs = more ++ (op', b') :: rs') :
    (more = [] ∧ op = op' ∧ b = b' ∧ rs = rs') ∨
      (level op < level op' ∧ level' op' ≤ level' op) := by
  rcases List.cons_eq_append_iff.1 heq with ⟨rfl, hsame⟩ | ⟨more, rfl, hrs⟩
  · obtain ⟨hfirst, rfl⟩ := List.cons.inj hsame
    obtain ⟨rfl, rfl⟩ := Prod.mk.inj hfirst
    exact .inl ⟨rfl, rfl, rfl, rfl⟩
  · refine .inr ⟨h.right (op', b') ?_, h'.left (op, b) ?_⟩
    · rw [hrs]
      exact List.mem_append_right _ (List.mem_cons_self ..)
    · exact List.mem_append_right _ (List.mem_cons_self ..)

/-- Two ways to split a chain, perhaps at different levels, are one, or the operator that stands
further left is bound less strongly by its own levels and not less strongly by the others. -/
theorem Splits.compare {ls rs ls' rs' : List (BinaryOp × Expr)} {op op' : BinaryOp} {b b' : Expr}
    (h : Splits level ls op rs) (h' : Splits level' ls' op' rs')
    (heq : ls ++ (op, b) :: rs = ls' ++ (op', b') :: rs') :
    (ls = ls' ∧ op = op' ∧ b = b' ∧ rs = rs') ∨
      (level op < level op' ∧ level' op' ≤ level' op) ∨
      (level' op' < level' op ∧ level op ≤ level op') := by
  rcases List.append_eq_append_iff.1 heq with ⟨more, rfl, hrest⟩ | ⟨more, rfl, hrest⟩
  · rcases h.compare_append h' hrest with ⟨rfl, hop, hb, hrs⟩ | hstronger
    · exact .inl ⟨(List.append_nil ls).symm, hop, hb, hrs⟩
    · exact .inr (.inl hstronger)
  · rcases h'.compare_append h hrest with ⟨rfl, hop, hb, hrs⟩ | hstronger
    · exact .inl ⟨List.append_nil ls', hop.symm, hb.symm, hrs.symm⟩
    · exact .inr (.inr hstronger)

/-- A chain splits in one way at the levels of one kind. -/
theorem Splits.unique {ls rs ls' rs' : List (BinaryOp × Expr)} {op op' : BinaryOp} {b b' : Expr}
    (h : Splits level ls op rs) (h' : Splits level ls' op' rs')
    (heq : ls ++ (op, b) :: rs = ls' ++ (op', b') :: rs') :
    ls = ls' ∧ op = op' ∧ b = b' ∧ rs = rs' := by
  rcases h.compare h' heq with hsame | ⟨hlt, hle⟩ | ⟨hlt, hle⟩
  · exact hsame
  · exact absurd hle (Nat.not_le_of_lt hlt)
  · exact absurd hle (Nat.not_le_of_lt hlt)

/-- Levels make a tree of every chain. -/
theorem Groups.exists (level : BinaryOp → Nat) (a : Expr) (rest : List (BinaryOp × Expr)) :
    ∃ e, Groups level a rest e := by
  induction hlength : rest.length using Nat.strongRecOn generalizing a rest with
  | ind n ih =>
    cases rest with
    | nil => exact ⟨a, .operand a⟩
    | cons first rest =>
      obtain ⟨ls, op, b, rs, heq, hsplits⟩ := exists_splits level first rest
      rw [heq, List.length_append, List.length_cons] at hlength
      obtain ⟨left, hleft⟩ := ih ls.length (by omega) a ls rfl
      obtain ⟨right, hright⟩ := ih rs.length (by omega) b rs rfl
      rw [heq]
      exact ⟨.binary op left right, .binary hsplits hleft hright⟩

/-- Levels make one tree of a chain only. -/
theorem Groups.unique {a e e' : Expr} {rest : List (BinaryOp × Expr)} (h : Groups level a rest e)
    (h' : Groups level a rest e') : e = e' := by
  induction h generalizing e' with
  | operand a =>
    generalize hnil : [] = rest at h'
    cases h' with
    | operand => rfl
    | binary => exact absurd hnil.symm (List.append_ne_nil_of_right_ne_nil _ (List.cons_ne_nil _ _))
  | @binary a b left right op ls rs hsplits _ _ ihleft ihright =>
    generalize heq : ls ++ (op, b) :: rs = rest at h'
    cases h' with
    | operand => exact absurd heq (List.append_ne_nil_of_right_ne_nil _ (List.cons_ne_nil _ _))
    | binary hsplits' hleft hright =>
      obtain ⟨rfl, rfl, rfl, rfl⟩ := hsplits.unique hsplits' heq
      rw [ihleft hleft, ihright hright]

/-! ## Reading a chain -/

/-- The parts of a chain on the two sides of an operator are chains. -/
theorem Chains.split {a b : Expr} {op : BinaryOp} {ls rs : List (BinaryOp × Expr)}
    {ts : List Token} (h : Chains a (ls ++ (op, b) :: rs) ts) :
    ∃ us vs, ts = us ++ .mark op.mark :: vs ∧ Chains a ls us ∧ Chains b rs vs := by
  induction ls generalizing a ts with
  | nil =>
    obtain - | @⟨_, _, _, _, us, vs, hfirst, hrest⟩ := h
    exact ⟨us, vs, rfl, .last hfirst, hrest⟩
  | cons next ls ih =>
    obtain - | @⟨_, _, op', _, ts, rest, hfirst, hrest⟩ := h
    obtain ⟨us, vs, rfl, hleft, hright⟩ := ih hrest
    exact ⟨ts ++ .mark op'.mark :: us, vs, by rw [List.append_assoc, List.cons_append],
      .cons hfirst hleft, hright⟩

/-- The tree that the strengths of the operators make of a chain derives its tokens, at any level
that is not above an operator of the chain. -/
theorem Groups.derives {a e : Expr} {rest : List (BinaryOp × Expr)}
    (h : Groups BinaryOp.strength a rest e) {ts : List Token} (hts : Chains a rest ts) {k : Nat}
    (hk : k ≤ 7) (hops : ∀ p ∈ rest, k ≤ p.1.strength) : Derives k e ts := by
  induction h generalizing ts k with
  | operand a =>
    obtain hderives | - := hts
    exact hderives.of_le hk
  | @binary a b left right op ls rs hsplits _ _ ihleft ihright =>
    obtain ⟨us, vs, rfl, hus, hvs⟩ := hts.split
    have hlt := op.strength_lt
    have hleft := ihleft hus (Nat.le_of_lt hlt) hsplits.left
    have hright := ihright hvs hlt hsplits.right
    have hop : k ≤ op.strength :=
      hops (op, b) (List.mem_append_right _ (List.mem_cons_self ..))
    exact (Derives.binary hleft hright).of_le hop

/-! ## The documented levels -/

/-- The levels that are documented: `??` has one of its own, below all the others. -/
def documentedLevel : BinaryOp → Nat
  | .logic .coalesce => 0
  | op => op.strength

/-- Does a chain have `||` nowhere after `??`? -/
def OrBeforeCoalesce (rest : List (BinaryOp × Expr)) : Prop :=
  rest.Pairwise fun p q => p.1 = .logic .coalesce → q.1 ≠ .logic .or

theorem documentedLevel_pos {op : BinaryOp} (h : op ≠ .logic .coalesce) :
    0 < documentedLevel op := by
  rcases op with op | op | op <;> cases op <;> first | decide | exact absurd rfl h

/-- Two operators that the documented levels put in another order are `||` and `??`. -/
theorem documentedLevel_le {op op' : BinaryOp} (hle : op.strength ≤ op'.strength)
    (h : op' = .logic .coalesce → op ≠ .logic .or) : documentedLevel op ≤ documentedLevel op' := by
  rcases op with op | op | op <;> rcases op' with op' | op' | op' <;> cases op <;> cases op' <;>
    first | decide | exact absurd hle (by decide) | exact absurd rfl (h rfl)

theorem documentedLevel_lt {op op' : BinaryOp} (hlt : op.strength < op'.strength) :
    documentedLevel op < documentedLevel op' := by
  rcases op with op | op | op <;> rcases op' with op' | op' | op' <;> cases op <;> cases op' <;>
    first | decide | exact absurd hlt (by decide)

/-- The documented levels make another tree of a chain than the strengths exactly if `||` stands
after `??` in it. -/
theorem groups_documentedLevel_iff {a e : Expr} {rest : List (BinaryOp × Expr)}
    (h : Groups BinaryOp.strength a rest e) :
    Groups documentedLevel a rest e ↔ OrBeforeCoalesce rest := by
  induction h with
  | operand a => exact ⟨fun _ => .nil, fun _ => .operand a⟩
  | @binary a b left right op ls rs hsplits _ _ ihleft ihright =>
    rw [OrBeforeCoalesce, List.pairwise_append, List.pairwise_cons]
    constructor
    · intro hdocumented
      generalize heq : ls ++ (op, b) :: rs = rest at hdocumented
      cases hdocumented with
      | operand => exact absurd heq (List.append_ne_nil_of_right_ne_nil _ (List.cons_ne_nil _ _))
      | binary hsplits' hleft hright =>
        -- both trees have one operator at the root, so it stands at one place in the chain
        obtain ⟨rfl, -, rfl, rfl⟩ : _ ∧ _ ∧ _ ∧ _ := by
          rcases hsplits.compare hsplits' heq with hsame | ⟨hlt, -⟩ | ⟨hlt, -⟩
          · exact hsame
          · exact absurd hlt (Nat.lt_irrefl _)
          · exact absurd hlt (Nat.lt_irrefl _)
        have hstrong : op = .logic .coalesce → ∀ q ∈ rs, q.1 ≠ .logic .or := by
          intro hop q hq hor
          have hlt := hsplits.right q hq
          rw [hop, hor] at hlt
          exact absurd hlt (by decide)
        refine ⟨ihleft.1 hleft, ⟨fun q hq hop => hstrong hop q hq, ihright.1 hright⟩, ?_⟩
        intro p hp q hq hcoalesce
        have hop : op = .logic .coalesce := by
          refine Decidable.byContradiction fun hne => ?_
          have hle := hsplits'.left p hp
          rw [hcoalesce] at hle
          exact absurd (documentedLevel_pos hne) (Nat.not_lt_of_le hle)
        rcases List.mem_cons.1 hq with rfl | hq
        · rw [hop]
          nofun
        · exact hstrong hop q hq
    · rintro ⟨hls, ⟨-, hrs⟩, hmixed⟩
      refine .binary ⟨fun p hp => ?_, fun p hp => ?_⟩ (ihleft.2 hls) (ihright.2 hrs)
      · exact documentedLevel_le (hsplits.left p hp)
          fun hcoalesce => hmixed p hp (op, b) (List.mem_cons_self ..) hcoalesce
      · exact documentedLevel_lt (hsplits.right p hp)

/-! ## Texts -/

/-- **Chains are read as their operators group them.** A chain has one tree that groups it by the
strengths of its operators. Its text is read as this tree, or it is nested too deeply, and with
fewer tokens than the limit it is not. The tree is the one that is documented exactly if no `||`
stands after `??`. -/
theorem ofText_of_chains {source : List Char} {ts : List Token} {a : Expr}
    {rest : List (BinaryOp × Expr)} (htokens : Lexer.tokens source = .ok ts)
    (hchain : Chains a rest ts) :
    ∃ e, (∀ e', Groups BinaryOp.strength a rest e' ↔ e' = e) ∧
      (Expr.ofText source = .ok e ∨ Expr.ofText source = .error (.malformed .tooDeep)) ∧
      (ts.length < nestingLimit → Expr.ofText source = .ok e) ∧
      (Groups documentedLevel a rest e ↔ OrBeforeCoalesce rest) := by
  obtain ⟨e, hgroups⟩ := Groups.exists BinaryOp.strength a rest
  have hderives : Derives 0 e ts :=
    hgroups.derives hchain (Nat.zero_le 7) fun _ _ => Nat.zero_le _
  obtain ⟨hstable, hroom⟩ := Reader.standalone_of_derives hderives
  have hread : Expr.ofText source = Reader.standalone ts := by
    rw [Expr.ofText, htokens, Except.ok_bind]
  rw [hread]
  refine ⟨e, fun e' => ⟨fun h => h.unique hgroups, ?_⟩, hstable.symm, hroom,
    groups_documentedLevel_iff hgroups⟩
  rintro rfl
  exact hgroups

/-- A variable is an operand. -/
theorem derives_variable {name : String} (h : IsVariable name) :
    Derives 7 (.var name) [.name name] :=
  Derives.of_le (.leaf (.var h)) (by decide)

/-- The chain `x || y ?? !z * u - v` has operators of four levels, and one in front of an operand.
It is read as it is documented. -/
theorem ofText_of_chains_mixed :
    ∃ e, Expr.ofText "x || y ?? !z * u - v".toList = .ok e ∧
      Groups documentedLevel (.var "x")
        [(.logic .or, .var "y"), (.logic .coalesce, .unary .not (.var "z")),
          (.arith .mul, .var "u"), (.arith .sub, .var "v")] e := by
  have htokens : Lexer.tokens "x || y ?? !z * u - v".toList =
      .ok [.name "x", .mark .or, .name "y", .mark .coalesce, .mark .not, .name "z", .mark .times,
        .name "u", .mark .minus, .name "v"] := by
    decide +kernel
  have hnot : Derives 7 (.unary .not (.var "z")) [.mark .not, .name "z"] :=
    .unary (derives_variable (by decide))
  have hchain : Chains (.var "x")
      [(.logic .or, .var "y"), (.logic .coalesce, .unary .not (.var "z")),
        (.arith .mul, .var "u"), (.arith .sub, .var "v")]
      [.name "x", .mark .or, .name "y", .mark .coalesce, .mark .not, .name "z", .mark .times,
        .name "u", .mark .minus, .name "v"] :=
    .cons (derives_variable (by decide)) (.cons (derives_variable (by decide))
      (.cons hnot (.cons (derives_variable (by decide))
        (.last (derives_variable (by decide))))))
  obtain ⟨e, -, -, hread, hdocumented⟩ := ofText_of_chains htokens hchain
  refine ⟨e, hread (by decide), hdocumented.2 ?_⟩
  unfold OrBeforeCoalesce
  decide

/-- The chain `x ?? y || z` is not read as it is documented: `??` is applied first. -/
theorem ofText_coalesceOr :
    Expr.ofText "x ?? y || z".toList =
        .ok (.binary (.logic .or) (.binary (.logic .coalesce) (.var "x") (.var "y"))
          (.var "z")) ∧
      Groups documentedLevel (.var "x") [(.logic .coalesce, .var "y"), (.logic .or, .var "z")]
        (.binary (.logic .coalesce) (.var "x") (.binary (.logic .or) (.var "y") (.var "z"))) ∧
      ¬ Groups documentedLevel (.var "x") [(.logic .coalesce, .var "y"), (.logic .or, .var "z")]
        (.binary (.logic .or) (.binary (.logic .coalesce) (.var "x") (.var "y"))
          (.var "z")) := by
  have htokens : Lexer.tokens "x ?? y || z".toList =
      .ok [.name "x", .mark .coalesce, .name "y", .mark .or, .name "z"] := by
    decide +kernel
  have hchain : Chains (.var "x") [(.logic .coalesce, .var "y"), (.logic .or, .var "z")]
      [.name "x", .mark .coalesce, .name "y", .mark .or, .name "z"] :=
    .cons (derives_variable (by decide)) (.cons (derives_variable (by decide))
      (.last (derives_variable (by decide))))
  have hread : Groups BinaryOp.strength (.var "x")
      [(.logic .coalesce, .var "y"), (.logic .or, .var "z")]
      (.binary (.logic .or) (.binary (.logic .coalesce) (.var "x") (.var "y")) (.var "z")) :=
    @Groups.binary _ _ _ _ _ _ [(.logic .coalesce, .var "y")] [] ⟨by decide, nofun⟩
      (@Groups.binary _ _ _ _ _ _ [] [] ⟨nofun, nofun⟩ (.operand _) (.operand _)) (.operand _)
  have hdocumented : Groups documentedLevel (.var "x")
      [(.logic .coalesce, .var "y"), (.logic .or, .var "z")]
      (.binary (.logic .coalesce) (.var "x") (.binary (.logic .or) (.var "y") (.var "z"))) :=
    @Groups.binary _ _ _ _ _ _ [] [(.logic .or, .var "z")] ⟨nofun, by decide⟩ (.operand _)
      (@Groups.binary _ _ _ _ _ _ [] [] ⟨nofun, nofun⟩ (.operand _) (.operand _))
  refine ⟨?_, hdocumented, fun hsame => nomatch hsame.unique hdocumented⟩
  have hderives := hread.derives hchain (Nat.zero_le 7) fun _ _ => Nat.zero_le _
  rw [Expr.ofText, htokens, Except.ok_bind]
  exact (Reader.standalone_of_derives hderives).2 (by decide)

end Stencil
