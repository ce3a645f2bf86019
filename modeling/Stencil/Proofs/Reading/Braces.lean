import Stencil.Proofs.Linear
import Stencil.Proofs.Reading.Nesting
import Stencil.Proofs.Reading.Sound

/-!
# The braces of a fragment

Every brace among the tokens of a fragment opens or closes a block: expressions hold none, and the
readers of operations neither lose one nor make one up. So the braces can be read off the
operations.

* `braces`: the braces among some tokens
* `Derives.braces`: there is no brace in an expression
* `BlockOp.brace?`, `Step.braces`: the braces that operations and steps stand for
* `Reader.blockOps_braces`: what is read keeps the braces
* `Step.ofInterior_braces`: the main statement
-/

namespace Stencil

/-! ## Braces among tokens -/

/-- The braces among some tokens, in order. -/
def braces (ts : List Token) : List Token :=
  ts.filter Token.isBrace

@[simp] theorem braces_nil : braces [] = [] := rfl

@[simp] theorem braces_append (ts us : List Token) : braces (ts ++ us) = braces ts ++ braces us :=
  List.filter_append ts us

@[simp] theorem braces_name (name : String) (ts : List Token) :
    braces (.name name :: ts) = braces ts := rfl

@[simp] theorem braces_text (text : String) (ts : List Token) :
    braces (.text text :: ts) = braces ts := rfl

@[simp] theorem braces_number (x : Float) (ts : List Token) :
    braces (.number x :: ts) = braces ts := rfl

@[simp] theorem braces_openBrace (ts : List Token) :
    braces (.mark .openBrace :: ts) = .mark .openBrace :: braces ts := rfl

@[simp] theorem braces_closeBrace (ts : List Token) :
    braces (.mark .closeBrace :: ts) = .mark .closeBrace :: braces ts := rfl

/-- No other mark is a brace. -/
theorem braces_mark {m : Mark} (h : m.isBrace = false) (ts : List Token) :
    braces (.mark m :: ts) = braces ts :=
  List.filter_cons_of_neg (by simp [Token.isBrace, h])

theorem any_isBrace_iff {ts : List Token} : ts.any Token.isBrace = true ↔ braces ts ≠ [] := by
  simp [braces]

/-! ## Braces in expressions -/

theorem BinaryOp.isBrace_mark (op : BinaryOp) : op.mark.isBrace = false := by
  rcases op with op | op | op <;> cases op <;> rfl

theorem Tick.isBrace_mark (tick : Tick) : tick.mark.isBrace = false := by
  cases tick <;> rfl

theorem isBrace_of_assignMark? {op : Option BinaryOp} {m : Mark} (h : assignMark? op = some m) :
    m.isBrace = false := by
  unfold assignMark? at h
  split at h <;> cases h <;> rfl

theorem UnaryOp.braces_token (op : UnaryOp) (ts : List Token) :
    braces (op.token :: ts) = braces ts := by
  cases op <;> rfl

theorem Leaf.braces {e : Expr} {t : Token} (h : Leaf e t) : braces [t] = [] := by
  cases h <;> rfl

/-- There is no brace in an expression. -/
theorem Derives.braces {k : Nat} {e : Expr} {ts : List Token} (h : Derives k e ts) :
    braces ts = [] := by
  refine @Derives.rec (fun _ _ ts _ => Stencil.braces ts = [])
    (fun _ ts _ => Stencil.braces ts = [])
    ?weaken ?leaf ?group ?list ?attr ?item ?call ?after ?before ?unary ?binary ?cond ?assign
    ?nil ?last ?trailing ?cons k e ts h
  case weaken => intro _ _ _ _ ih; exact ih
  case leaf => intro _ _ hleaf; exact hleaf.braces
  case group => intro _ _ _ ih; simp (disch := decide) [braces_mark, ih]
  case list => intro _ _ _ ih; simp (disch := decide) [braces_mark, ih]
  case attr => intro _ _ _ _ ih; simp (disch := decide) [braces_mark, ih]
  case item => intro _ _ _ _ _ _ ih ihkey; simp (disch := decide) [braces_mark, ih, ihkey]
  case call =>
    intro _ _ _ _ _ _ ih iharguments
    simp (disch := decide) [braces_mark, ih, iharguments]
  case after => intro _ tick _ _ ih; simp [braces_mark tick.isBrace_mark, ih]
  case before => intro _ tick _ _ ih; rw [braces_mark tick.isBrace_mark, ih]
  case unary => intro op _ _ _ ih; rw [op.braces_token, ih]
  case binary =>
    intro op _ _ _ _ _ _ ihleft ihright
    simp [braces_mark op.isBrace_mark, ihleft, ihright]
  case cond =>
    intro _ _ _ _ _ _ _ _ _ ihtest ihtrue ihfalse
    simp (disch := decide) [braces_mark, ihtest, ihtrue, ihfalse]
  case assign =>
    intro _ _ _ _ _ _ hm _ _ ih ihvalue
    simp [braces_mark (isBrace_of_assignMark? hm), ih, ihvalue]
  case nil => rfl
  case last => intro _ _ _ ih; exact ih
  case trailing => intro _ _ _ ih; simp (disch := decide) [braces_mark, ih]
  case cons => intro _ _ _ _ _ _ _ ih ihrest; simp (disch := decide) [braces_mark, ih, ihrest]

/-! ## Braces in steps -/

/-- The brace that an operation stands for: all but `close` and `empty` open a block. -/
def BlockOp.brace? : BlockOp → Option Token
  | .empty => none
  | .close => some (.mark .closeBrace)
  | .ifBlock _ | .elseIfBlock _ | .elseBlock | .whileBlock _ | .forBlock _ =>
    some (.mark .openBrace)

/-- The braces that a step stands for. -/
def Step.braces : Step → List Token
  | .control ops => ops.filterMap BlockOp.brace?
  | .literal _ | .expr _ => []

namespace Reader

/-! ## Marks and words -/

theorem expect_yields (m : Mark) (ts : List Token) :
    Yields (fun rest => ts = .mark m :: rest) (expect m ts) :=
  fun _ h => expect_eq_ok_iff.1 h

theorem expect_braces {m : Mark} (hm : m.isBrace = false) (ts : List Token) :
    Yields (fun rest => braces rest = braces ts) (expect m ts) := by
  intro rest h
  rw [expect_eq_ok_iff.1 h, braces_mark hm]

theorem braces_tail {m : Mark} {ts : List Token} (h : startsWith m ts = true)
    (hm : m.isBrace = false) : braces ts.tail = braces ts := by
  obtain ⟨rest, rfl⟩ := startsWith_iff.1 h
  rw [braces_mark hm, List.tail_cons]

theorem declareKind?_braces {ts : List Token} {kind : DeclareKind}
    (h : declareKind? ts = some kind) : braces ts.tail = braces ts := by
  unfold declareKind? at h
  split at h
  · rfl
  · rfl
  · rfl
  · cases h

theorem readEach?_braces {ts rest : List Token} {name : String} {kind : EachKind}
    (h : readEach? ts = some (name, kind, rest)) : braces rest = braces ts := by
  unfold readEach? at h
  split at h
  · cases h
    rfl
  · cases h
    rfl
  · cases h

/-! ## Operations -/

theorem expr_braces (room : Nat) (ts : List Token) :
    Yields (fun read => braces read.2 = braces ts) (expr room ts) := by
  rintro ⟨e, rest⟩ h
  obtain ⟨used, rfl, hderives⟩ := expr_derivable room ts e rest h
  simp [hderives.braces]

theorem initialValue_braces (room : Nat) (kind : DeclareKind) (ts : List Token) :
    Yields (fun read => braces read.2 = braces ts) (initialValue room kind ts) := by
  unfold initialValue
  by_cases hassign : startsWith .assign ts = true
  · rw [if_pos hassign]
    refine (expr_braces room ts.tail).bind fun read hread => .ok ?_
    exact hread.trans (braces_tail hassign rfl)
  rw [if_neg hassign]
  by_cases hconst : kind = .const
  · rw [if_pos hconst]
    exact .error
  · rw [if_neg hconst]
    exact .ok rfl

theorem declarations_braces (room : Nat) (kind : DeclareKind) (count : Nat) (ts : List Token) :
    Yields (fun read => braces read.2 = braces ts) (declarations room kind count ts) := by
  fun_induction declarations room kind count ts with
  | case1 => exact .error
  | case2 count name ts ih =>
    rw [braces_name]
    refine (Yields.trivial _).bind fun _ _ => (initialValue_braces room kind ts).bind ?_
    rintro ⟨value, rest⟩ hvalue
    dsimp only at hvalue ⊢
    by_cases hcomma : startsWith .comma rest = true
    · rw [if_pos hcomma]
      refine (ih rest).bind fun others hothers => .ok ?_
      exact hothers.trans ((braces_tail hcomma rfl).trans hvalue)
    · rw [if_neg hcomma]
      exact .ok hvalue
  | case3 => exact .error

theorem forInit_braces (room : Nat) (ts : List Token) :
    Yields (fun read => braces read.2 = braces ts) (forInit room ts) := by
  unfold forInit
  cases hkind : declareKind? ts with
  | some kind =>
    refine (declarations_braces room kind ts.length ts.tail).bind fun read hread => .ok ?_
    exact hread.trans (declareKind?_braces hkind)
  | none => exact (expr_braces room ts).bind fun read hread => .ok hread

theorem optional_braces {α : Type} {stop : Mark} {part : List Token → Except Error (Parsed α)}
    {ts : List Token} (h : Yields (fun read => braces read.2 = braces ts) (part ts)) :
    Yields (fun read => braces read.2 = braces ts) (optional stop part ts) := by
  unfold optional
  by_cases hstop : startsWith stop ts = true
  · rw [if_pos hstop]
    exact .ok rfl
  · rw [if_neg hstop]
    exact h.map fun read hread => hread

theorem forClauses_braces (room : Nat) (ts : List Token) :
    Yields (fun read => braces read.2 = braces ts) (forClauses room ts) := by
  unfold forClauses
  dsimp only
  have hstart : braces (if (declareKind? ts).isSome then ts.tail else ts) = braces ts := by
    cases hkind : declareKind? ts with
    | some kind => exact declareKind?_braces hkind
    | none => rfl
  split
  · rename_i name each rest heach
    refine (Yields.trivial _).bind fun _ _ => (expr_braces room rest).bind fun read hread => .ok ?_
    exact hread.trans ((readEach?_braces heach).trans hstart)
  · refine (optional_braces (forInit_braces room ts)).bind fun init hinit => ?_
    refine (expect_braces rfl init.2).bind fun ts₁ h₁ => ?_
    refine (optional_braces (expr_braces room ts₁)).bind fun test htest => ?_
    refine (expect_braces rfl test.2).bind fun ts₂ h₂ => ?_
    refine (optional_braces (expr_braces room ts₂)).bind fun update hupdate => .ok ?_
    exact hupdate.trans (h₂.trans (htest.trans (h₁.trans hinit)))

/-- The head of a loop ends with the only brace in it. -/
theorem forHead_braces (room : Nat) (ts : List Token) :
    Yields (fun read => braces ts = .mark .openBrace :: braces read.2) (forHead room ts) := by
  unfold forHead
  refine (expect_braces rfl ts).bind fun ts₁ h₁ => ?_
  cases room with
  | zero => exact .error
  | succ room =>
    refine (forClauses_braces room ts₁).bind fun head hhead => ?_
    refine (expect_braces rfl head.2).bind fun ts₂ h₂ => ?_
    refine (expect_yields .openBrace ts₂).bind fun rest hrest => .ok ?_
    rw [← h₁, ← hhead, ← h₂, hrest, braces_openBrace]

/-- A test in parentheses ends with the only brace after it. -/
theorem blockTest_braces (room : Nat) (ts : List Token) :
    Yields (fun read => braces ts = .mark .openBrace :: braces read.2) (blockTest room ts) := by
  unfold blockTest
  refine (expect_braces rfl ts).bind fun ts₁ h₁ => ?_
  refine (expr_braces room ts₁).bind fun test htest => ?_
  refine (expect_braces rfl test.2).bind fun ts₂ h₂ => ?_
  refine (expect_yields .openBrace ts₂).bind fun rest hrest => .ok ?_
  rw [← h₁, ← htest, ← h₂, hrest, braces_openBrace]

/-- The tokens of an operation hold the brace that it stands for. -/
theorem blockOp_braces (room : Nat) (ts : List Token) :
    Yields (fun read => braces ts = read.1.brace?.toList ++ braces read.2) (blockOp room ts) := by
  unfold blockOp
  split
  · exact .ok (braces_mark rfl _)
  · exact .ok (braces_closeBrace _)
  · exact (blockTest_braces room _).map fun _ h => h
  · exact (blockTest_braces room _).map fun _ h => h
  · exact (forHead_braces room _).map fun _ h => h
  · exact (blockTest_braces room _).map fun _ h => h
  · refine (expect_yields .openBrace _).map fun rest hrest => ?_
    rw [braces_name, hrest]
    rfl
  · exact .error

theorem blockOps_braces (room count : Nat) (ts : List Token) :
    Yields (fun ops => braces ts = ops.filterMap BlockOp.brace?) (blockOps room count ts) := by
  fun_induction blockOps room count ts with
  | case1 => exact .ok rfl
  | case2 => exact .error
  | case3 count ts hne ih =>
    refine (blockOp_braces room ts).bind ?_
    rintro ⟨op, rest⟩ hop
    refine (ih rest).bind fun others hothers => .ok ?_
    dsimp only at hop hothers
    rw [hop, hothers]
    cases hbrace : op.brace? <;> simp [hbrace]

end Reader

/-! ## Fragments -/

/-- Tokens without a brace make up an expression or no step at all. -/
theorem Step.ofTokens_expr {ts : List Token} (h : Stencil.braces ts = []) :
    Yields (fun step => ∃ e, step = .expr e) (Step.ofTokens ts) := by
  have hbrace : ¬ ts.any Token.isBrace = true := fun hany => any_isBrace_iff.1 hany h
  unfold Step.ofTokens
  rw [if_neg hbrace]
  exact (Yields.trivial (Reader.standalone ts)).map fun e _ => ⟨e, rfl⟩

/-- The step that tokens make up stands for the braces among them. -/
theorem Step.ofTokens_braces (ts : List Token) :
    Yields (fun step => step.braces = Stencil.braces ts) (Step.ofTokens ts) := by
  by_cases hbrace : ts.any Token.isBrace = true
  · unfold Step.ofTokens
    rw [if_pos hbrace]
    exact (Reader.blockOps_braces nestingLimit ts.length ts).map fun ops hops => hops.symm
  · have hnone : Stencil.braces ts = [] := by
      by_contra hne
      exact hbrace (any_isBrace_iff.2 hne)
    intro step h
    obtain ⟨e, rfl⟩ := Step.ofTokens_expr hnone step h
    exact hnone.symm

/-- The step that an interior is stands for the braces among the interior's tokens. -/
theorem Step.ofInterior_braces {interior : List Char} {step : Step}
    (h : Step.ofInterior interior = .ok step) :
    ∃ ts, Lexer.tokens interior = .ok ts ∧ step.braces = Stencil.braces ts := by
  obtain ⟨ts, hts, hstep⟩ := Except.bind_eq_ok_iff.1 h
  exact ⟨ts, hts, Step.ofTokens_braces ts step hstep⟩

end Stencil
