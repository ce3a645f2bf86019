import Stencil.Proofs.Reading.Basic

/-!
# What the limit on nesting changes

Less room makes a reader fail for lack of room, or changes nothing at all: no expression is read
differently because there is more or less room.

* `Reader.Stable`: a result that is the other one unless room was lacking
* `Reader.expr_stable`: the result of reading an expression with less room
-/

namespace Stencil.Reader

/-- The first result is a lack of room, or the second one. -/
def Stable {α : Type} (less more : Except Error α) : Prop :=
  less = tooDeep ∨ less = more

theorem Stable.refl {α : Type} (result : Except Error α) : Stable result result :=
  .inr rfl

theorem Stable.tooDeep {α : Type} {more : Except Error α} : Stable tooDeep more :=
  .inl rfl

theorem Stable.bind {α β : Type} {less more : Except Error α} {f g : α → Except Error β}
    (h : Stable less more) (hnext : ∀ a, Stable (f a) (g a)) :
    Stable (less >>= f) (more >>= g) := by
  rcases h with rfl | rfl
  · exact .inl rfl
  · cases less with
    | ok a => exact hnext a
    | error e => exact .inr rfl

/-! ## Lists of items -/

theorem itemsFrom_stable {item item' : List Token → Except Error (Parsed Expr)} {close : Mark}
    (h : ∀ ts, Stable (item ts) (item' ts)) (count : Nat) (ts : List Token) :
    Stable (itemsFrom item close count ts) (itemsFrom item' close count ts) := by
  induction count generalizing ts with
  | zero => exact .refl _
  | succ count ih =>
    rw [itemsFrom, itemsFrom]
    refine (h ts).bind ?_
    rintro ⟨first, ts⟩
    dsimp only
    split
    · exact .refl _
    refine (Stable.refl _).bind fun ts => ?_
    split
    · exact .refl _
    exact (ih ts).bind fun _ => .refl _

theorem items_stable {item item' : List Token → Except Error (Parsed Expr)} {close : Mark}
    (h : ∀ ts, Stable (item ts) (item' ts)) (ts : List Token) :
    Stable (items item close ts) (items item' close ts) := by
  unfold items
  split
  · exact .refl _
  · exact itemsFrom_stable h _ ts

/-! ## All readers together -/

/-- An expression that is read with less room is read the same with more. -/
theorem expr_stable {less more : Nat} (h : less ≤ more) (ts : List Token) :
    Stable (expr less ts) (expr more ts) := by
  have hall := Reader.expr.mutual_induct
    (fun room ts => ∀ more, room ≤ more → Stable (expr room ts) (expr more ts))
    (fun room ts => ∀ more, room ≤ more → Stable (assignment room ts) (assignment more ts))
    (fun room ts => ∀ more, room ≤ more → Stable (conditional room ts) (conditional more ts))
    (fun tiers room ts => ∀ more, room ≤ more →
      Stable (level tiers room ts) (level tiers more ts))
    (fun tier tighter room left ts => ∀ more, room ≤ more →
      Stable (chain tier tighter room left ts) (chain tier tighter more left ts))
    (fun room ts => ∀ more, room ≤ more → Stable (unary room ts) (unary more ts))
    (fun room ts => ∀ more, room ≤ more → Stable (operand room ts) (operand more ts))
    (fun room ts => ∀ more, room ≤ more → Stable (updated room ts) (updated more ts))
    (fun room ts => ∀ more, room ≤ more → Stable (member room ts) (member more ts))
    (fun room e ts => ∀ more, room ≤ more → Stable (links room e ts) (links more e ts))
    (fun room ts => ∀ more, room ≤ more → Stable (primary room ts) (primary more ts))
  refine (hall ?exprFull ?expr ?assignment ?conditional ?levelUnary ?level ?chainEnd ?chainFull
    ?chain ?unaryFull ?unary ?operandUnary ?operandTick ?operand ?updated ?member ?dotFull
    ?bracketFull ?parenFull ?attr ?attrBad ?item ?call ?linksEnd ?name ?text ?number ?group ?list
    ?primaryBad ?primaryEnd).1 less ts more h
  case exprFull =>
    intro ts more _
    rw [expr]
    exact .tooDeep
  case expr =>
    intro ts room ih more hmore
    obtain ⟨more, rfl⟩ := Nat.exists_eq_add_of_lt hmore
    rw [expr, expr]
    exact ih _ (by omega)
  case assignment =>
    intro room ts hcond hexpr more hmore
    rw [assignment, assignment]
    refine (hcond more hmore).bind ?_
    rintro ⟨target, ts⟩
    dsimp only
    split
    · exact .refl _
    · exact (Stable.refl _).bind fun _ => (hexpr _ more hmore).bind fun _ => .refl _
  case conditional =>
    intro room ts hlevel hexpr hexpr' more hmore
    rw [conditional, conditional]
    refine (hlevel more hmore).bind ?_
    rintro ⟨test, ts⟩
    dsimp only
    split
    · refine (hexpr ts more hmore).bind ?_
      rintro ⟨whenTrue, ts⟩
      exact (Stable.refl _).bind fun ts => (hexpr' ts more hmore).bind fun _ => .refl _
    · exact .refl _
  case levelUnary =>
    intro room ts ih more hmore
    rw [level, level]
    exact ih more hmore
  case level =>
    intro room ts tier tighter hleft hchain more hmore
    rw [level, level]
    exact (hleft more hmore).bind fun left => hchain left.1 left.2 more hmore
  case chainEnd =>
    intro tier tighter room left ts hnone more _
    rw [chain_of_none hnone, chain_of_none hnone]
    exact .refl _
  case chainFull =>
    intro tier tighter left ts op hsome more _
    rw [chain_zero hsome]
    exact .tooDeep
  case chain =>
    intro tier tighter left ts op ts₁ room hsome hright hchain more hmore
    obtain ⟨more, rfl⟩ := Nat.exists_eq_add_of_lt hmore
    rw [chain_succ hsome, chain_succ hsome]
    exact (hright _ (by omega)).bind fun right => hchain right.1 right.2 _ (by omega)
  case unaryFull =>
    intro ts more _
    rw [unary]
    exact .tooDeep
  case unary =>
    intro ts room ih more hmore
    obtain ⟨more, rfl⟩ := Nat.exists_eq_add_of_lt hmore
    rw [unary, unary]
    exact ih _ (by omega)
  case operandUnary =>
    intro room ts op ts₁ hop ih more hmore
    rw [operand, operand, hop]
    exact (ih more hmore).bind fun _ => .refl _
  case operandTick =>
    intro room ts hnone tick ts₁ htick ih more hmore
    rw [operand, operand, hnone]
    simp only [htick]
    exact (ih more hmore).bind fun _ => .refl _
  case operand =>
    intro room ts hnone htick ih more hmore
    rw [operand, operand, hnone]
    simp only [htick]
    exact ih more hmore
  case updated =>
    intro room ts ih more hmore
    rw [updated, updated]
    exact (ih more hmore).bind fun _ => .refl _
  case member =>
    intro room ts hprimary hlinks more hmore
    rw [member, member]
    exact (hprimary more hmore).bind fun target => hlinks target.1 target.2 more hmore
  case dotFull => intro e ts more _; rw [links]; exact .tooDeep
  case bracketFull => intro e ts more _; rw [links]; exact .tooDeep
  case parenFull => intro e ts more _; rw [links]; exact .tooDeep
  case attr =>
    intro e name ts room ih more hmore
    obtain ⟨more, rfl⟩ := Nat.exists_eq_add_of_lt hmore
    rw [links, links]
    exact ih _ (by omega)
  case attrBad =>
    intro e ts room hne more hmore
    obtain ⟨more, rfl⟩ := Nat.exists_eq_add_of_lt hmore
    rw [links, links]
    · exact .refl _
    all_goals exact hne
  case item =>
    intro e ts room hexpr ih more hmore
    obtain ⟨more, rfl⟩ := Nat.exists_eq_add_of_lt hmore
    rw [links, links]
    refine (hexpr _ (by omega)).bind ?_
    rintro ⟨key, ts⟩
    exact (Stable.refl _).bind fun ts => ih key ts _ (by omega)
  case call =>
    intro e ts room hexpr ih more hmore
    obtain ⟨more, rfl⟩ := Nat.exists_eq_add_of_lt hmore
    rw [links, links]
    refine (items_stable (fun ts => hexpr ts _ (by omega)) ts).bind ?_
    rintro ⟨arguments, ts⟩
    exact ih arguments ts _ (by omega)
  case linksEnd =>
    intro room e ts h₁ h₂ h₃ h₄ h₅ h₆ h₇ more _
    have hunlinked : Unlinked ts := by
      rintro m rest rfl
      refine ⟨?_, ?_, ?_⟩ <;> rintro rfl <;> cases room
      · exact h₁ _ rfl rfl
      · exact h₅ _ _ rfl rfl
      · exact h₂ _ rfl rfl
      · exact h₆ _ _ rfl rfl
      · exact h₃ _ rfl rfl
      · exact h₇ _ _ rfl rfl
    rw [links_of_unlinked hunlinked, links_of_unlinked hunlinked]
    exact .refl _
  case name => intro room name ts more _; rw [primary, primary]; exact .refl _
  case text => intro room s ts more _; rw [primary, primary]; exact .refl _
  case number => intro room x ts more _; rw [primary, primary]; exact .refl _
  case group =>
    intro room ts ih more hmore
    rw [primary, primary]
    exact (ih more hmore).bind fun _ => .refl _
  case list =>
    intro room ts ih more hmore
    rw [primary, primary]
    exact (items_stable (fun ts => ih ts more hmore) ts).bind fun _ => .refl _
  case primaryBad =>
    intro room t ts h₁ h₂ h₃ h₄ h₅ more _
    rw [primary, primary]
    · exact .refl _
    all_goals assumption
  case primaryEnd => intro room more _; rw [primary, primary]; exact .refl _

end Stencil.Reader
