import Stencil.Proofs.Grammar

/-!
# Writing expressions

An expression is written as its tokens in order. A part that binds more weakly than its position
needs is grouped, either by parentheses or not at all.

* `Expr.write`: the tokens of an expression, with a way of grouping
* `Expr.tokens`, `Expr.spelling`: with parentheses and without
* `Expr.Printable`, `derives_tokens`: what is written with parentheses is a derivation
* `Grouped`, `Derives.grouped`: a derivation is the spelling with grouping added
-/

namespace Stencil

/-! ## Tokens of an expression -/

/-- How strongly the outermost part of an expression binds. -/
def Expr.strength : Expr → Nat
  | .cond .. | .assign .. => 0
  | .binary op .. => op.strength
  | .unary .. | .update _ _ .before => 7
  | .update _ _ .after => 8
  | _ => 9

/-- Do the operator and the one of its left operand share a level without belonging together? -/
def BinaryOp.mixes : BinaryOp → Expr → Bool
  | .logic .or, .binary (.logic .coalesce) .. => true
  | .logic .coalesce, .binary (.logic .or) .. => true
  | _, _ => false

/-- The token of a constant, if it can be written down. -/
def Value.token? : Value → Option Token
  | .string s => some (.text s)
  | .number x => some (.number x)
  | .bool true => some (.name "true")
  | .bool false => some (.name "false")
  | .null => some (.name "null")
  | _ => none

/-- Groups tokens unless they fit where they stand. -/
def fit (group : List Token → List Token) (fits : Bool) (ts : List Token) : List Token :=
  if fits then ts else group ts

mutual

/-- The tokens of an expression in order. A part that does not fit its position is grouped. -/
def Expr.write (group : List Token → List Token) : Expr → List Token
  | .var name => [.name name]
  | .this => [.name "this"]
  | .const v => v.token?.toList
  | .list items => .mark .openBracket :: (Expr.writeAll group items ++ [.mark .closeBracket])
  | .attr target name =>
    fit group (9 ≤ target.strength) (target.write group) ++ [.mark .dot, .name name]
  | .item target key =>
    fit group (9 ≤ target.strength) (target.write group) ++
      .mark .openBracket :: (key.write group ++ [.mark .closeBracket])
  | .call callee arguments =>
    fit group (9 ≤ callee.strength) (callee.write group) ++
      .mark .openParen :: (Expr.writeAll group arguments ++ [.mark .closeParen])
  | .unary op operand => op.token :: fit group (7 ≤ operand.strength) (operand.write group)
  | .binary op left right =>
    fit group (op.strength ≤ left.strength && !op.mixes left) (left.write group) ++
      .mark op.mark :: fit group (op.strength + 1 ≤ right.strength) (right.write group)
  | .cond test whenTrue whenFalse =>
    fit group (1 ≤ test.strength) (test.write group) ++
      .mark .question :: (whenTrue.write group ++ .mark .colon :: whenFalse.write group)
  | .assign name op value =>
    .name name :: (((assignMark? op).map Token.mark).toList ++ value.write group)
  | .update name tick .before => [.mark tick.mark, .name name]
  | .update name tick .after => [.name name, .mark tick.mark]

/-- The tokens of several expressions, with commas between them. -/
def Expr.writeAll (group : List Token → List Token) : List Expr → List Token
  | [] => []
  | [e] => e.write group
  | e :: next :: rest => e.write group ++ .mark .comma :: Expr.writeAll group (next :: rest)

end

/-- Tokens in parentheses. -/
def parenthesize (ts : List Token) : List Token :=
  .mark .openParen :: (ts ++ [.mark .closeParen])

/-- The tokens of an expression, with parentheses where a part binds more weakly than its position
needs, and around a mix of `||` and `??`. -/
def Expr.tokens (e : Expr) : List Token :=
  e.write parenthesize

/-- The tokens of an expression in order, without any grouping. -/
def Expr.spelling (e : Expr) : List Token :=
  e.write id

/-! ## Written expressions are derivations -/

/-- The names in the expression are names of variables, its constants can be written down, and only
operators that compute stand in its assignments. -/
inductive Expr.Printable : Expr → Prop
  | var {name : String} : IsVariable name → Printable (.var name)
  | this : Printable .this
  | const {v : Value} : v.token?.isSome = true → Printable (.const v)
  | list {items : List Expr} : (∀ e ∈ items, Printable e) → Printable (.list items)
  | attr {target : Expr} {name : String} : Printable target → Printable (.attr target name)
  | item {target key : Expr} : Printable target → Printable key → Printable (.item target key)
  | call {callee : Expr} {arguments : List Expr} :
      Printable callee → (∀ e ∈ arguments, Printable e) → Printable (.call callee arguments)
  | unary {op : UnaryOp} {operand : Expr} : Printable operand → Printable (.unary op operand)
  | binary {op : BinaryOp} {left right : Expr} :
      Printable left → Printable right → Printable (.binary op left right)
  | cond {test whenTrue whenFalse : Expr} :
      Printable test → Printable whenTrue → Printable whenFalse →
      Printable (.cond test whenTrue whenFalse)
  | assign {name : String} {op : Option BinaryOp} {value : Expr} :
      IsVariable name → (assignMark? op).isSome = true → Printable value →
      Printable (.assign name op value)
  | update {name : String} {tick : Tick} {side : Side} :
      IsVariable name → Printable (.update name tick side)

/-- A part that is grouped unless it fits is a derivation at the level of its position. -/
theorem Derives.fit {k : Nat} {e : Expr} {ts : List Token} {fits : Bool} (hk : k ≤ 9)
    (h : Derives e.strength e ts) (hfits : fits = true → k ≤ e.strength) :
    Derives k e (fit parenthesize fits ts) := by
  cases fits with
  | true => exact h.of_le (hfits rfl)
  | false => exact (Derives.group (h.of_le (Nat.zero_le _))).of_le hk

theorem derivesItems_writeAll {items : List Expr}
    (h : ∀ e ∈ items, Derives e.strength e e.tokens) :
    DerivesItems items (Expr.writeAll parenthesize items) := by
  induction items with
  | nil => exact .nil
  | cons e rest ih =>
    have he : Derives 0 e e.tokens := (h e List.mem_cons_self).of_le (Nat.zero_le _)
    have hrest := ih fun e' he' => h e' (List.mem_cons_of_mem _ he')
    cases rest with
    | nil => exact .last he
    | cons next rest => exact .cons he hrest

/-- What is written with parentheses is a derivation at the level of the expression. -/
theorem derives_tokens {e : Expr} (h : e.Printable) : Derives e.strength e e.tokens := by
  induction h with
  | var hname => exact .leaf (.var hname)
  | this => exact .leaf .this
  | @const v hv =>
    rcases v with _ | _ | (_ | _) | x | s | _ | _ | _ <;> try cases hv
    · exact .leaf .null
    · exact .leaf .false
    · exact .leaf .true
    · exact .leaf (.number x)
    · exact .leaf (.text s)
  | list _ ih => exact .list (derivesItems_writeAll ih)
  | attr _ ih => exact .attr (ih.fit (by omega) of_decide_eq_true)
  | item _ _ ihtarget ihkey =>
    exact .item (ihtarget.fit (by omega) of_decide_eq_true) (ihkey.of_le (Nat.zero_le _))
  | call _ _ ihcallee ih =>
    exact .call (ihcallee.fit (by omega) of_decide_eq_true) (derivesItems_writeAll ih)
  | unary _ ih => exact .unary (ih.fit (by omega) of_decide_eq_true)
  | @binary op left right _ _ ihleft ihright =>
    have hop := op.strength_lt
    refine .binary (ihleft.fit (by omega) ?_) (ihright.fit (by omega) of_decide_eq_true)
    intro hfits
    exact of_decide_eq_true (Bool.and_eq_true_iff.1 hfits).1
  | cond _ _ _ ihtest ihtrue ihfalse =>
    exact .cond (ihtest.fit (by omega) of_decide_eq_true) (ihtrue.of_le (Nat.zero_le _))
      (ihfalse.of_le (Nat.zero_le _))
  | assign hname hop _ ih =>
    obtain ⟨m, hm⟩ := Option.isSome_iff_exists.1 hop
    rw [Expr.tokens, Expr.write, hm]
    exact .assign hm (.leaf (.var hname)) (ih.of_le (Nat.zero_le _))
  | @update name tick side hname =>
    cases side with
    | before => exact .before (.leaf (.var hname))
    | after => exact .after (.leaf (.var hname))

/-! ## Derivations add nothing but grouping -/

/-- The second list is the first one with grouping added: parentheses in pairs around parts of it,
and single commas directly before closing marks of its own. -/
inductive Grouped : List Token → List Token → Prop
  | nil : Grouped [] []
  | token (t : Token) : Grouped [t] [t]
  | append {ts ts' us us' : List Token} :
      Grouped ts us → Grouped ts' us' → Grouped (ts ++ ts') (us ++ us')
  | group {ts us : List Token} :
      ts ≠ [] → Grouped ts us → Grouped ts (.mark .openParen :: (us ++ [.mark .closeParen]))
  | comma {close : Mark} :
      close = .closeParen ∨ close = .closeBracket →
      Grouped [.mark close] [.mark .comma, .mark close]

theorem Grouped.cons (t : Token) {ts us : List Token} (h : Grouped ts us) :
    Grouped (t :: ts) (t :: us) :=
  (Grouped.token t).append h

theorem fit_id (fits : Bool) (ts : List Token) : fit id fits ts = ts := by
  cases fits <;> rfl

theorem Leaf.spelling {e : Expr} {t : Token} (h : Leaf e t) : e.spelling = [t] := by
  cases h <;> rfl

/-- A derivation is the spelling of its expression with grouping added. -/
theorem Derives.grouped {k : Nat} {e : Expr} {ts : List Token} (h : Derives k e ts) :
    e.spelling ≠ [] ∧ Grouped e.spelling ts := by
  refine @Derives.rec
    (fun _ e ts _ => e.spelling ≠ [] ∧ Grouped e.spelling ts)
    (fun items ts _ => ∀ close, close = Mark.closeParen ∨ close = Mark.closeBracket →
      Grouped (Expr.writeAll id items ++ [.mark close]) (ts ++ [.mark close]))
    ?weaken ?leaf ?group ?list ?attr ?item ?call ?after ?before ?unary ?binary ?cond ?assign
    ?nil ?last ?trailing ?cons k e ts h
  case weaken => intro _ _ _ _ ih; exact ih
  case leaf =>
    intro e t hleaf
    rw [hleaf.spelling]
    exact ⟨List.cons_ne_nil _ _, .token t⟩
  case group => intro _ _ _ ih; exact ⟨ih.1, .group ih.1 ih.2⟩
  case list =>
    intro items ts _ ih
    simp only [Expr.spelling, Expr.write]
    exact ⟨List.cons_ne_nil _ _, (ih _ (.inr rfl)).cons _⟩
  case attr =>
    intro e name ts _ ih
    simp only [Expr.spelling, Expr.write, fit_id]
    exact ⟨by simp, ih.2.append ((Grouped.token _).cons _)⟩
  case item =>
    intro e key ts us _ _ ih ihkey
    simp only [Expr.spelling, Expr.write, fit_id]
    exact ⟨by simp, ih.2.append ((ihkey.2.append (.token _)).cons _)⟩
  case call =>
    intro e arguments ts us _ _ ih iharguments
    simp only [Expr.spelling, Expr.write, fit_id]
    exact ⟨by simp, ih.2.append ((iharguments _ (.inl rfl)).cons _)⟩
  case after =>
    intro name tick ts _ ih
    exact ⟨List.cons_ne_nil _ _, ih.2.append (.token (.mark tick.mark))⟩
  case before =>
    intro name tick ts _ ih
    exact ⟨List.cons_ne_nil _ _, ih.2.cons (.mark tick.mark)⟩
  case unary =>
    intro op e ts _ ih
    simp only [Expr.spelling, Expr.write, fit_id]
    exact ⟨List.cons_ne_nil _ _, ih.2.cons _⟩
  case binary =>
    intro op left right ts us _ _ ihleft ihright
    simp only [Expr.spelling, Expr.write, fit_id]
    exact ⟨by simp, ihleft.2.append (ihright.2.cons _)⟩
  case cond =>
    intro test whenTrue whenFalse ts us vs _ _ _ ihtest ihtrue ihfalse
    simp only [Expr.spelling, Expr.write, fit_id]
    exact ⟨by simp, ihtest.2.append ((ihtrue.2.append (ihfalse.2.cons _)).cons _)⟩
  case assign =>
    intro name op m value ts us hm _ _ ihname ihvalue
    simp only [Expr.spelling, Expr.write, hm]
    exact ⟨List.cons_ne_nil _ _, ihname.2.append (ihvalue.2.cons _)⟩
  case nil => intro close _; exact .token _
  case last =>
    intro e ts _ ih close _
    exact ih.2.append (.token _)
  case trailing =>
    intro e ts _ ih close hclose
    rw [List.append_assoc]
    exact ih.2.append (.comma hclose)
  case cons =>
    intro e next rest ts us _ _ ih ihrest close hclose
    rw [Expr.writeAll, List.append_assoc, List.append_assoc]
    exact ih.2.append ((ihrest close hclose).cons _)

end Stencil
