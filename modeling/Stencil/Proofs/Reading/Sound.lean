import Stencil.Proofs.Reading.Basic
import Stencil.Proofs.Spelling

/-!
# What is read is a derivation

The tokens that are read as an expression are a derivation of it.

* `Reader.Derivable`, `Reader.Extends`: what a reader's result says about the tokens
* `Reader.expr_derivable`: the readers of expressions together
-/

namespace Stencil.Reader

/-- What was read at the beginning of the tokens, if anything, was read from a derivation at the
level. -/
def Derivable (k : Nat) (ts : List Token) (result : Except Error (Parsed Expr)) : Prop :=
  ∀ e rest, result = .ok (e, rest) → ∃ used, ts = used ++ rest ∧ Derives k e used

/-! ## Lists of items -/

theorem itemsFrom_derivable {item : List Token → Except Error (Parsed Expr)} {close : Mark}
    (hitem : ∀ ts, Derivable 0 ts (item ts)) {count : Nat} {ts rest : List Token}
    {es : List Expr} (h : itemsFrom item close count ts = .ok (es, rest)) :
    ∃ used, ts = used ++ .mark close :: rest ∧ es ≠ [] ∧ DerivesItems es used := by
  induction count generalizing ts es with
  | zero => cases h
  | succ count ih =>
    rw [itemsFrom] at h
    obtain ⟨⟨first, ts₁⟩, hfirst, h₁⟩ := Except.bind_eq_ok_iff.1 h
    obtain ⟨used, rfl, hderives⟩ := hitem ts first ts₁ hfirst
    dsimp only at h₁
    split at h₁
    · rename_i hclose
      obtain ⟨rest', rfl⟩ := startsWith_iff.1 hclose
      cases h₁
      exact ⟨used, rfl, List.cons_ne_nil _ _, .last hderives⟩
    obtain ⟨ts₂, hcomma, h₂⟩ := Except.bind_eq_ok_iff.1 h₁
    cases expect_eq_ok_iff.1 hcomma
    split at h₂
    · rename_i hclose
      obtain ⟨rest', rfl⟩ := startsWith_iff.1 hclose
      cases h₂
      exact ⟨used ++ [.mark .comma], by simp, List.cons_ne_nil _ _, .trailing hderives⟩
    obtain ⟨⟨others, ts₃⟩, hothers, h₃⟩ := Except.bind_eq_ok_iff.1 h₂
    cases h₃
    obtain ⟨used', rfl, hne, hrest⟩ := ih hothers
    obtain ⟨next, others, rfl⟩ := List.exists_cons_of_ne_nil hne
    exact ⟨used ++ .mark .comma :: used', by simp, List.cons_ne_nil _ _, .cons hderives hrest⟩

theorem items_derivable {item : List Token → Except Error (Parsed Expr)} {close : Mark}
    (hitem : ∀ ts, Derivable 0 ts (item ts)) {ts rest : List Token} {es : List Expr}
    (h : items item close ts = .ok (es, rest)) :
    ∃ used, ts = used ++ .mark close :: rest ∧ DerivesItems es used := by
  unfold items at h
  split at h
  · rename_i hclose
    obtain ⟨rest', rfl⟩ := startsWith_iff.1 hclose
    cases h
    exact ⟨[], rfl, .nil⟩
  · obtain ⟨used, rfl, -, hderives⟩ := itemsFrom_derivable hitem h
    exact ⟨used, rfl, hderives⟩

/-! ## One reader after the other -/

theorem assignment_derivable {room : Nat} {ts : List Token}
    (hcond : Derivable 0 ts (conditional room ts))
    (hexpr : ∀ ts, Derivable 0 ts (expr room ts)) :
    Derivable 0 ts (assignment room ts) := by
  intro e rest h
  rw [assignment] at h
  obtain ⟨⟨target, ts₁⟩, htarget, h₁⟩ := Except.bind_eq_ok_iff.1 h
  obtain ⟨used, rfl, hderives⟩ := hcond target ts₁ htarget
  dsimp only at h₁
  split at h₁
  · cases h₁
    exact ⟨used, rfl, hderives⟩
  · rename_i op ts₂ hop
    obtain ⟨m, hm, rfl⟩ := readAssign?_eq_some_iff.1 hop
    obtain ⟨name, hname, h₂⟩ := Except.bind_eq_ok_iff.1 h₁
    cases assignTarget_eq_ok_iff.1 hname
    obtain ⟨⟨value, ts₃⟩, hvalue, h₃⟩ := Except.bind_eq_ok_iff.1 h₂
    cases h₃
    obtain ⟨used', rfl, hderives'⟩ := hexpr ts₂ value _ hvalue
    exact ⟨used ++ .mark m :: used', by simp, .assign hm hderives.var_nine hderives'⟩

theorem conditional_derivable {room : Nat} {ts : List Token}
    (htest : Derivable 1 ts (level Tier.all room ts))
    (hexpr : ∀ ts, Derivable 0 ts (expr room ts)) :
    Derivable 0 ts (conditional room ts) := by
  intro e rest h
  rw [conditional] at h
  obtain ⟨⟨test, ts₁⟩, htest', h₁⟩ := Except.bind_eq_ok_iff.1 h
  obtain ⟨used, rfl, hderives⟩ := htest test ts₁ htest'
  dsimp only at h₁
  split at h₁
  · rename_i hquestion
    obtain ⟨ts₂, rfl⟩ := startsWith_iff.1 hquestion
    obtain ⟨⟨whenTrue, ts₃⟩, htrue, h₂⟩ := Except.bind_eq_ok_iff.1 h₁
    obtain ⟨ts₄, hcolon, h₃⟩ := Except.bind_eq_ok_iff.1 h₂
    obtain ⟨⟨whenFalse, ts₅⟩, hfalse, h₄⟩ := Except.bind_eq_ok_iff.1 h₃
    cases h₄
    cases expect_eq_ok_iff.1 hcolon
    obtain ⟨us, heq, hus⟩ := hexpr _ whenTrue _ htrue
    obtain ⟨vs, rfl, hvs⟩ := hexpr _ whenFalse _ hfalse
    rw [List.tail_cons] at heq
    rw [heq]
    exact ⟨used ++ .mark .question :: (us ++ .mark .colon :: vs), by simp,
      .cond hderives hus hvs⟩
  · cases h₁
    exact ⟨used, rfl, hderives.weaken⟩

/-- The rest of a chain: a derivation of what was read before goes on to one of the whole chain. -/
def Extends (k : Nat) (e : Expr) (ts : List Token) (result : Except Error (Parsed Expr)) : Prop :=
  ∀ before, Derives k e before →
    ∀ e' rest, result = .ok (e', rest) → ∃ used, ts = used ++ rest ∧ Derives k e' (before ++ used)

theorem Extends.refl {k : Nat} {e : Expr} {ts : List Token} :
    Extends k e ts (.ok (e, ts)) := by
  intro before hbefore e' rest h
  cases h
  exact ⟨[], rfl, by rwa [List.append_nil]⟩

theorem level_derivable {k room : Nat} {tier : Tier} {tighter : List Tier} {ts : List Token}
    (hleft : Derivable (k + 2) ts (level tighter room ts))
    (hchain : ∀ left ts, Extends (k + 1) left ts (chain tier tighter room left ts)) :
    Derivable (k + 1) ts (level (tier :: tighter) room ts) := by
  intro e rest h
  rw [level] at h
  obtain ⟨⟨left, ts₁⟩, hleft', h₁⟩ := Except.bind_eq_ok_iff.1 h
  obtain ⟨used, rfl, hderives⟩ := hleft left ts₁ hleft'
  obtain ⟨used', rfl, hderives'⟩ := hchain left ts₁ used hderives.weaken e rest h₁
  exact ⟨used ++ used', by simp, hderives'⟩

theorem chain_extends {k room : Nat} {tier : Tier} {tighter : List Tier} {left : Expr}
    {op : BinaryOp} {ts : List Token} (hop : op.strength = k + 1)
    (hright : Derivable (k + 2) ts (level tighter room ts))
    (hchain : ∀ right ts,
      Extends (k + 1) (.binary op left right) ts
        (chain tier tighter room (.binary op left right) ts)) :
    Extends (k + 1) left (.mark op.mark :: ts)
      (do
        let (right, ts) ← level tighter room ts
        chain tier tighter room (.binary op left right) ts) := by
  intro before hbefore e rest h
  obtain ⟨⟨right, ts₁⟩, hright', h₁⟩ := Except.bind_eq_ok_iff.1 h
  obtain ⟨used, rfl, hderives⟩ := hright right ts₁ hright'
  rw [← hop] at hbefore
  rw [show k + 2 = op.strength + 1 by omega] at hderives
  have hbinary := Derives.binary hbefore hderives
  rw [hop] at hbinary
  obtain ⟨used', rfl, hderives'⟩ := hchain right ts₁ _ hbinary e rest h₁
  exact ⟨.mark op.mark :: (used ++ used'), by simp, by simpa using hderives'⟩

theorem operand_unary_derivable {room : Nat} {ts rest : List Token} {op : UnaryOp}
    (hop : readUnary? ts = some (op, rest)) (hunary : Derivable 7 rest (unary room rest)) :
    Derivable 7 ts (operand room ts) := by
  intro e rest' h
  rw [operand, hop] at h
  cases readUnary?_eq_some_iff.1 hop
  obtain ⟨⟨operand, ts₁⟩, hoperand, h₁⟩ := Except.bind_eq_ok_iff.1 h
  cases h₁
  obtain ⟨used, rfl, hderives⟩ := hunary operand _ hoperand
  exact ⟨op.token :: used, rfl, .unary hderives⟩

theorem operand_tick_derivable {room : Nat} {ts rest : List Token} {tick : Tick}
    (hnone : readUnary? ts = none) (htick : readTick? ts = some (tick, rest))
    (hunary : Derivable 7 rest (unary room rest)) : Derivable 7 ts (operand room ts) := by
  intro e rest' h
  rw [operand, hnone] at h
  simp only [htick] at h
  cases readTick?_eq_some_iff.1 htick
  obtain ⟨⟨target, ts₁⟩, htarget, h₁⟩ := Except.bind_eq_ok_iff.1 h
  obtain ⟨update, hupdate, h₂⟩ := Except.bind_eq_ok_iff.1 h₁
  cases h₂
  obtain ⟨name, rfl, rfl⟩ := makeUpdate_eq_ok_iff.1 hupdate
  obtain ⟨used, rfl, hderives⟩ := hunary _ _ htarget
  exact ⟨.mark tick.mark :: used, rfl, .before hderives.var_nine⟩

theorem updated_derivable {room : Nat} {ts : List Token}
    (hmember : Derivable 9 ts (member room ts)) : Derivable 8 ts (updated room ts) := by
  intro e rest h
  rw [updated] at h
  obtain ⟨⟨target, ts₁⟩, htarget, h₁⟩ := Except.bind_eq_ok_iff.1 h
  obtain ⟨used, rfl, hderives⟩ := hmember target ts₁ htarget
  dsimp only at h₁
  split at h₁
  · rename_i tick ts₂ htick
    cases readTick?_eq_some_iff.1 htick
    obtain ⟨update, hupdate, h₂⟩ := Except.bind_eq_ok_iff.1 h₁
    cases h₂
    obtain ⟨name, rfl, rfl⟩ := makeUpdate_eq_ok_iff.1 hupdate
    exact ⟨used ++ [.mark tick.mark], by simp, .after hderives⟩
  · cases h₁
    exact ⟨used, rfl, hderives.weaken⟩

theorem member_derivable {room : Nat} {ts : List Token}
    (hprimary : Derivable 9 ts (primary room ts))
    (hlinks : ∀ e ts, Extends 9 e ts (links room e ts)) :
    Derivable 9 ts (member room ts) := by
  intro e rest h
  rw [member] at h
  obtain ⟨⟨target, ts₁⟩, htarget, h₁⟩ := Except.bind_eq_ok_iff.1 h
  obtain ⟨used, rfl, hderives⟩ := hprimary target ts₁ htarget
  obtain ⟨used', rfl, hderives'⟩ := hlinks target ts₁ used hderives e rest h₁
  exact ⟨used ++ used', by simp, hderives'⟩

theorem links_attr_extends {room : Nat} {e : Expr} {name : String} {ts : List Token}
    (h : Extends 9 (.attr e name) ts (links room (.attr e name) ts)) :
    Extends 9 e (.mark .dot :: .name name :: ts)
      (links (room + 1) e (.mark .dot :: .name name :: ts)) := by
  intro before hbefore e' rest hread
  rw [links] at hread
  obtain ⟨used, rfl, hderives⟩ := h _ (.attr hbefore) e' rest hread
  exact ⟨.mark .dot :: .name name :: used, rfl, by simpa using hderives⟩

theorem links_item_extends {room : Nat} {e : Expr} {ts : List Token}
    (hexpr : Derivable 0 ts (expr room ts))
    (h : ∀ key ts, Extends 9 (.item e key) ts (links room (.item e key) ts)) :
    Extends 9 e (.mark .openBracket :: ts) (links (room + 1) e (.mark .openBracket :: ts)) := by
  intro before hbefore e' rest hread
  rw [links] at hread
  obtain ⟨⟨key, ts₁⟩, hkey, h₁⟩ := Except.bind_eq_ok_iff.1 hread
  obtain ⟨ts₂, hclose, h₂⟩ := Except.bind_eq_ok_iff.1 h₁
  cases expect_eq_ok_iff.1 hclose
  obtain ⟨us, rfl, hus⟩ := hexpr key _ hkey
  obtain ⟨used, rfl, hderives⟩ := h key ts₂ _ (.item hbefore hus) e' rest h₂
  exact ⟨.mark .openBracket :: (us ++ .mark .closeBracket :: used), by simp,
    by simpa using hderives⟩

theorem links_call_extends {room : Nat} {e : Expr} {ts : List Token}
    (hexpr : ∀ ts, Derivable 0 ts (expr room ts))
    (h : ∀ arguments ts, Extends 9 (.call e arguments) ts (links room (.call e arguments) ts)) :
    Extends 9 e (.mark .openParen :: ts) (links (room + 1) e (.mark .openParen :: ts)) := by
  intro before hbefore e' rest hread
  rw [links] at hread
  obtain ⟨⟨arguments, ts₁⟩, harguments, h₁⟩ := Except.bind_eq_ok_iff.1 hread
  obtain ⟨us, rfl, hus⟩ := items_derivable hexpr harguments
  obtain ⟨used, rfl, hderives⟩ := h arguments ts₁ _ (.call hbefore hus) e' rest h₁
  exact ⟨.mark .openParen :: (us ++ .mark .closeParen :: used), by simp,
    by simpa using hderives⟩

theorem primary_group_derivable {room : Nat} {ts : List Token}
    (hexpr : Derivable 0 ts (expr room ts)) :
    Derivable 9 (.mark .openParen :: ts) (primary room (.mark .openParen :: ts)) := by
  intro e rest h
  rw [primary] at h
  obtain ⟨⟨inner, ts₁⟩, hinner, h₁⟩ := Except.bind_eq_ok_iff.1 h
  obtain ⟨ts₂, hclose, h₂⟩ := Except.bind_eq_ok_iff.1 h₁
  cases expect_eq_ok_iff.1 hclose
  cases h₂
  obtain ⟨us, rfl, hus⟩ := hexpr _ _ hinner
  exact ⟨.mark .openParen :: (us ++ [.mark .closeParen]), by simp, .group hus⟩

theorem primary_list_derivable {room : Nat} {ts : List Token}
    (hexpr : ∀ ts, Derivable 0 ts (expr room ts)) :
    Derivable 9 (.mark .openBracket :: ts) (primary room (.mark .openBracket :: ts)) := by
  intro e rest h
  rw [primary] at h
  obtain ⟨⟨elements, ts₁⟩, helements, h₁⟩ := Except.bind_eq_ok_iff.1 h
  cases h₁
  obtain ⟨us, rfl, hus⟩ := items_derivable hexpr helements
  exact ⟨.mark .openBracket :: (us ++ [.mark .closeBracket]), by simp, .list hus⟩

theorem primary_name_derivable {room : Nat} {name : String} {ts : List Token}
    (hname : name ≠ "typeof") :
    Derivable 9 (.name name :: ts) (primary room (.name name :: ts)) := by
  intro e rest h
  rw [primary] at h
  cases hoperand : nameOperand name with
  | error err => rw [hoperand] at h; cases h
  | ok operand =>
    rw [hoperand] at h
    cases h
    exact ⟨[.name name], rfl, .leaf ((nameOperand_eq_ok_iff hname).1 hoperand)⟩

/-! ## All readers together -/

theorem Derivable.of_error {k : Nat} {ts : List Token} {err : Error} :
    Derivable k ts (.error err) := by
  intro e rest h
  cases h

theorem Extends.of_error {k : Nat} {e : Expr} {ts : List Token} {err : Error} :
    Extends k e ts (.error err) := by
  intro before _ e' rest h
  cases h

/-- Whatever an expression is read from is a derivation of it. -/
theorem expr_derivable (room : Nat) (ts : List Token) : Derivable 0 ts (expr room ts) := by
  -- the readers call each other, so one induction covers all of them; a level is told by the
  -- tables that are left, and an operand that starts with `typeof` never gets to `updated`
  have hall := Reader.expr.mutual_induct
    (fun room ts => Derivable 0 ts (expr room ts))
    (fun room ts => Derivable 0 ts (assignment room ts))
    (fun room ts => Derivable 0 ts (conditional room ts))
    (fun tiers room ts => ∀ k, k ≤ 6 → Tier.all.drop k = tiers →
      Derivable (k + 1) ts (level tiers room ts))
    (fun tier tighter room left ts => ∀ k, Tier.all.drop k = tier :: tighter →
      Extends (k + 1) left ts (chain tier tighter room left ts))
    (fun room ts => Derivable 7 ts (unary room ts))
    (fun room ts => Derivable 7 ts (operand room ts))
    (fun room ts => readUnary? ts = none → Derivable 8 ts (updated room ts))
    (fun room ts => readUnary? ts = none → Derivable 9 ts (member room ts))
    (fun room e ts => Extends 9 e ts (links room e ts))
    (fun room ts => readUnary? ts = none → Derivable 9 ts (primary room ts))
  refine (hall ?exprFull ?expr ?assignment ?conditional ?levelUnary ?level ?chainEnd ?chainFull
    ?chain ?unaryFull ?unary ?operandUnary ?operandTick ?operand ?updated ?member ?dotFull
    ?bracketFull ?parenFull ?attr ?attrBad ?item ?call ?linksEnd ?name ?text ?number ?group ?list
    ?primaryBad ?primaryEnd).1 room ts
  case exprFull =>
    intro ts
    rw [expr]
    exact .of_error
  case expr =>
    intro ts room ih
    rw [expr]
    exact ih
  case assignment => intro room ts hcond hexpr; exact assignment_derivable hcond hexpr
  case conditional =>
    intro room ts hlevel _ hexpr
    exact conditional_derivable (hlevel 0 (by omega) rfl) hexpr
  case levelUnary =>
    intro room ts ih k hk htiers
    have hlength := congrArg List.length htiers
    rw [List.length_drop, List.length_nil] at hlength
    have h6 : k = 6 := by
      have : Tier.all.length = 6 := rfl
      omega
    subst h6
    rw [level]
    exact ih
  case level =>
    intro room ts tier tighter hleft hchain k hk htiers
    have hlt := Tier.lt_of_drop htiers
    exact level_derivable (hleft (k + 1) (by omega) (Tier.drop_succ htiers))
      (fun left ts => hchain left ts k htiers)
  case chainEnd =>
    intro tier tighter room left ts hnone k _
    rw [chain_of_none hnone]
    exact .refl
  case chainFull =>
    intro tier tighter left ts op hsome k _
    rw [chain_zero hsome]
    exact .of_error
  case chain =>
    intro tier tighter left ts op ts₁ room hsome hright hchain k htiers
    have hlt := Tier.lt_of_drop htiers
    obtain ⟨hop, rfl⟩ := (Tier.read?_eq_some_iff htiers).1 hsome
    rw [chain_succ hsome]
    exact chain_extends hop (hright (k + 1) (by omega) (Tier.drop_succ htiers))
      (fun right ts => hchain right ts k htiers)
  case unaryFull =>
    intro ts
    rw [unary]
    exact .of_error
  case unary =>
    intro ts room ih
    rw [unary]
    exact ih
  case operandUnary =>
    intro room ts op ts₁ hop ih
    exact operand_unary_derivable hop ih
  case operandTick =>
    intro room ts hnone tick ts₁ htick ih
    exact operand_tick_derivable hnone htick ih
  case operand =>
    intro room ts hunary htick ih
    rw [operand, hunary, htick]
    intro e rest h
    obtain ⟨used, rfl, hderives⟩ := ih hunary e rest h
    exact ⟨used, rfl, hderives.weaken⟩
  case updated => intro room ts ih hunary; exact updated_derivable (ih hunary)
  case member =>
    intro room ts hprimary hlinks hunary
    exact member_derivable (hprimary hunary) hlinks
  case dotFull => intro e ts; rw [links]; exact .of_error
  case bracketFull => intro e ts; rw [links]; exact .of_error
  case parenFull => intro e ts; rw [links]; exact .of_error
  case attr => intro e name ts room ih; exact links_attr_extends ih
  case attrBad =>
    intro e ts room hne
    rw [links]
    · exact .of_error
    · exact hne
  case item => intro e ts room hexpr ih; exact links_item_extends hexpr ih
  case call => intro e ts room hexpr ih; exact links_call_extends hexpr ih
  case linksEnd =>
    intro room e ts h₁ h₂ h₃ h₄ h₅ h₆ h₇
    rw [links]
    · exact .refl
    all_goals assumption
  case name =>
    intro room name ts hunary
    refine primary_name_derivable ?_
    rintro rfl
    cases hunary
  case text =>
    intro room s ts _ e rest h
    rw [primary] at h
    cases h
    exact ⟨[.text s], rfl, .leaf (.text s)⟩
  case number =>
    intro room x ts _ e rest h
    rw [primary] at h
    cases h
    exact ⟨[.number x], rfl, .leaf (.number x)⟩
  case group => intro room ts ih _; exact primary_group_derivable ih
  case list => intro room ts ih _; exact primary_list_derivable ih
  case primaryBad =>
    intro room t ts h₁ h₂ h₃ h₄ h₅ _
    rw [primary]
    · exact .of_error
    all_goals assumption
  case primaryEnd =>
    intro room _
    rw [primary]
    exact .of_error

end Stencil.Reader
