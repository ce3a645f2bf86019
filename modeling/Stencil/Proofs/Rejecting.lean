import Stencil.Engine
import Stencil.Proofs.Reading.Basic

/-!
# Why a source is rejected

A source is rejected because it is malformed, or for an escape in one of its quoted texts. The
readers of tokens, expressions, operations and blocks know only the first reason, and the second one
needs a backslash.

* `Rejects`: what a result fails for has a property
* `Lexer.Quotes`: the quoted texts that the lexer comes upon
* `Environment.compile_rejects`: the main statement
-/

namespace Stencil

/-! ## What a result fails for -/

section

variable {α β : Type} {P Q : Error → Prop}

/-- What a result fails for, if it does, has the property. -/
def Rejects (P : Error → Prop) (result : Except Error α) : Prop :=
  ∀ e, result = .error e → P e

theorem Rejects.ok {a : α} : Rejects P (.ok a : Except Error α) := by
  rintro e ⟨⟩

theorem Rejects.error {e : Error} (h : P e) : Rejects P (.error e : Except Error α) := by
  rintro e ⟨⟩
  exact h

theorem Rejects.imp {result : Except Error α} (h : Rejects P result) (hPQ : ∀ e, P e → Q e) :
    Rejects Q result :=
  fun e he => hPQ e (h e he)

theorem Rejects.bind {result : Except Error α} {f : α → Except Error β} (h : Rejects P result)
    (hf : ∀ a, result = .ok a → Rejects P (f a)) : Rejects P (result >>= f) := by
  cases result with
  | ok a => exact hf a rfl
  | error e => exact .error (h e rfl)

theorem Rejects.map {result : Except Error α} {f : α → β} (h : Rejects P result) :
    Rejects P (result.map f) := by
  cases result with
  | ok a => exact .ok
  | error e => exact .error (h e rfl)

theorem Rejects.mapM {f : α → Except Error β} {items : List α}
    (h : ∀ a ∈ items, Rejects P (f a)) : Rejects P (items.mapM f) := by
  induction items with
  | nil => exact .ok
  | cons a rest ih =>
    rw [List.mapM_cons]
    refine (h a (List.mem_cons_self ..)).bind fun b _ => ?_
    exact (ih fun a' ha' => h a' (List.mem_cons_of_mem a ha')).bind fun _ _ => .ok

theorem Rejects.foldlM {f : β → α → Except Error β} (h : ∀ b a, Rejects P (f b a))
    (items : List α) (b : β) : Rejects P (items.foldlM f b) := by
  induction items generalizing b with
  | nil => exact .ok
  | cons a rest ih =>
    rw [List.foldlM_cons]
    exact (h b a).bind fun b' _ => ih b'

end

/-- The result fails only for what is malformed. -/
abbrev OnlyMalformed {α : Type} (result : Except Error α) : Prop :=
  Rejects (fun e => e.kind = .malformed) result

/-! ## Readers of expressions -/

namespace Reader

theorem expect_malformed (m : Mark) (ts : List Token) : OnlyMalformed (expect m ts) := by
  unfold expect
  split
  · split
    · exact .ok
    · exact .error rfl
  · exact .error rfl

theorem makeUpdate_malformed (e : Expr) (tick : Tick) (side : Side) :
    OnlyMalformed (makeUpdate e tick side) := by
  unfold makeUpdate
  split
  · exact .ok
  · exact .error rfl

theorem assignTarget_malformed (e : Expr) : OnlyMalformed (assignTarget e) := by
  unfold assignTarget
  split
  · exact .ok
  · exact .error rfl

theorem nameOperand_malformed (name : String) : OnlyMalformed (nameOperand name) := by
  intro e h
  unfold nameOperand at h
  repeat' split at h
  all_goals cases h
  rfl

section

variable {item : List Token → Except Error (Parsed Expr)} (hitem : ∀ ts, OnlyMalformed (item ts))
include hitem

theorem itemsFrom_malformed (close : Mark) (count : Nat) (ts : List Token) :
    OnlyMalformed (itemsFrom item close count ts) := by
  induction count generalizing ts with
  | zero => exact .error rfl
  | succ count ih =>
    rw [itemsFrom]
    refine (hitem ts).bind ?_
    rintro ⟨first, ts⟩ -
    dsimp only
    split
    · exact .ok
    refine (expect_malformed _ _).bind fun ts _ => ?_
    split
    · exact .ok
    exact (ih ts).bind fun _ _ => .ok

theorem items_malformed (close : Mark) (ts : List Token) :
    OnlyMalformed (items item close ts) := by
  unfold items
  split
  · exact .ok
  · exact itemsFrom_malformed hitem close _ ts

end

theorem expr_malformed (room : Nat) (ts : List Token) : OnlyMalformed (expr room ts) := by
  have hall := Reader.expr.mutual_induct
    (fun room ts => OnlyMalformed (expr room ts))
    (fun room ts => OnlyMalformed (assignment room ts))
    (fun room ts => OnlyMalformed (conditional room ts))
    (fun tiers room ts => OnlyMalformed (level tiers room ts))
    (fun tier tighter room left ts => OnlyMalformed (chain tier tighter room left ts))
    (fun room ts => OnlyMalformed (unary room ts))
    (fun room ts => OnlyMalformed (operand room ts))
    (fun room ts => OnlyMalformed (updated room ts))
    (fun room ts => OnlyMalformed (member room ts))
    (fun room e ts => OnlyMalformed (links room e ts))
    (fun room ts => OnlyMalformed (primary room ts))
  refine (hall ?exprFull ?expr ?assignment ?conditional ?levelUnary ?level ?chainEnd ?chainFull
    ?chain ?unaryFull ?unary ?operandUnary ?operandTick ?operand ?updated ?member ?dotFull
    ?bracketFull ?parenFull ?attr ?attrBad ?item ?call ?linksEnd ?name ?text ?number ?group ?list
    ?primaryBad ?primaryEnd).1 room ts
  case exprFull => intro ts; rw [expr]; exact .error rfl
  case expr => intro ts room ih; rw [expr]; exact ih
  case assignment =>
    intro room ts hcond hexpr
    rw [assignment]
    refine hcond.bind ?_
    rintro ⟨target, ts⟩ -
    dsimp only
    split
    · exact .ok
    · exact (assignTarget_malformed _).bind fun _ _ => (hexpr _).bind fun _ _ => .ok
  case conditional =>
    intro room ts hlevel hexpr hexpr'
    rw [conditional]
    refine hlevel.bind ?_
    rintro ⟨test, ts⟩ -
    dsimp only
    split
    · refine (hexpr ts).bind ?_
      rintro ⟨whenTrue, ts⟩ -
      exact (expect_malformed _ _).bind fun _ _ => (hexpr' _).bind fun _ _ => .ok
    · exact .ok
  case levelUnary => intro room ts ih; rw [level]; exact ih
  case level =>
    intro room ts tier tighter hleft hchain
    rw [level]
    exact hleft.bind fun _ _ => hchain _ _
  case chainEnd =>
    intro tier tighter room left ts hnone
    rw [chain_of_none hnone]
    exact .ok
  case chainFull =>
    intro tier tighter left ts op hsome
    rw [chain_zero hsome]
    exact .error rfl
  case chain =>
    intro tier tighter left ts op ts₁ room hsome hright hchain
    rw [chain_succ hsome]
    exact hright.bind fun _ _ => hchain _ _
  case unaryFull => intro ts; rw [unary]; exact .error rfl
  case unary => intro ts room ih; rw [unary]; exact ih
  case operandUnary =>
    intro room ts op ts₁ hop ih
    rw [operand, hop]
    exact ih.bind fun _ _ => .ok
  case operandTick =>
    intro room ts hnone tick ts₁ htick ih
    rw [operand, hnone]
    simp only [htick]
    exact ih.bind fun _ _ => (makeUpdate_malformed _ _ _).bind fun _ _ => .ok
  case operand =>
    intro room ts hnone htick ih
    rw [operand, hnone]
    simp only [htick]
    exact ih
  case updated =>
    intro room ts ih
    rw [updated]
    refine ih.bind ?_
    rintro ⟨e, ts⟩ -
    dsimp only
    split
    · exact (makeUpdate_malformed _ _ _).bind fun _ _ => .ok
    · exact .ok
  case member =>
    intro room ts hprimary hlinks
    rw [member]
    exact hprimary.bind fun _ _ => hlinks _ _
  case dotFull => intro e ts; rw [links]; exact .error rfl
  case bracketFull => intro e ts; rw [links]; exact .error rfl
  case parenFull => intro e ts; rw [links]; exact .error rfl
  case attr =>
    intro e name ts room ih
    rw [links]
    exact ih
  case attrBad =>
    intro e ts room hne
    rw [links]
    · exact .error rfl
    exact hne
  case item =>
    intro e ts room hexpr ih
    rw [links]
    exact hexpr.bind fun _ _ => (expect_malformed _ _).bind fun _ _ => ih _ _
  case call =>
    intro e ts room hexpr ih
    rw [links]
    exact (items_malformed hexpr _ ts).bind fun _ _ => ih _ _
  case linksEnd =>
    intro room e ts h₁ h₂ h₃ h₄ h₅ h₆ h₇
    rw [links]
    · exact .ok
    all_goals assumption
  case name =>
    intro room name ts
    rw [primary]
    exact (nameOperand_malformed name).map
  case text => intro room s ts; rw [primary]; exact .ok
  case number => intro room x ts; rw [primary]; exact .ok
  case group =>
    intro room ts ih
    rw [primary]
    exact ih.bind fun _ _ => (expect_malformed _ _).bind fun _ _ => .ok
  case list =>
    intro room ts ih
    rw [primary]
    exact (items_malformed ih _ ts).bind fun _ _ => .ok
  case primaryBad =>
    intro room t ts h₁ h₂ h₃ h₄ h₅
    rw [primary]
    · exact .error rfl
    all_goals assumption
  case primaryEnd => intro room; rw [primary]; exact .error rfl

theorem standalone_malformed (ts : List Token) : OnlyMalformed (standalone ts) := by
  unfold standalone
  split
  · exact .ok
  · refine (expr_malformed _ ts).bind ?_
    rintro ⟨e, ts⟩ -
    dsimp only
    split
    · exact .ok
    · exact .error rfl

/-! ## Readers of operations -/

theorem checkBindable_malformed (name : String) : OnlyMalformed (checkBindable name) := by
  unfold checkBindable
  split
  · exact .ok
  · exact .error rfl

theorem initialValue_malformed (room : Nat) (kind : DeclareKind) (ts : List Token) :
    OnlyMalformed (initialValue room kind ts) := by
  unfold initialValue
  split
  · exact (expr_malformed _ _).bind fun _ _ => .ok
  split
  · exact .error rfl
  · exact .ok

theorem declarations_malformed (room : Nat) (kind : DeclareKind) (count : Nat) (ts : List Token) :
    OnlyMalformed (declarations room kind count ts) := by
  induction count generalizing ts with
  | zero => rw [declarations]; exact .error rfl
  | succ count ih =>
    by_cases hname : ∃ name rest, ts = .name name :: rest
    · obtain ⟨name, rest, rfl⟩ := hname
      rw [declarations]
      refine (checkBindable_malformed name).bind fun _ _ =>
        (initialValue_malformed room kind rest).bind ?_
      rintro ⟨value, ts⟩ -
      dsimp only
      split
      · exact (ih _).bind fun _ _ => .ok
      · exact .ok
    · rw [declarations]
      · exact .error rfl
      · exact fun name rest heq => hname ⟨name, rest, heq⟩

theorem forInit_malformed (room : Nat) (ts : List Token) : OnlyMalformed (forInit room ts) := by
  unfold forInit
  split
  · exact (declarations_malformed _ _ _ _).bind fun _ _ => .ok
  · exact (expr_malformed _ _).bind fun _ _ => .ok

theorem optional_malformed {α : Type} {part : List Token → Except Error (Parsed α)}
    (h : ∀ ts, OnlyMalformed (part ts)) (stop : Mark) (ts : List Token) :
    OnlyMalformed (optional stop part ts) := by
  unfold optional
  split
  · exact .ok
  · exact (h ts).map

theorem forClauses_malformed (room : Nat) (ts : List Token) :
    OnlyMalformed (forClauses room ts) := by
  unfold forClauses
  dsimp only
  split
  · exact (checkBindable_malformed _).bind fun _ _ => (expr_malformed _ _).bind fun _ _ => .ok
  · refine (optional_malformed (forInit_malformed room) _ _).bind fun _ _ => ?_
    refine (expect_malformed _ _).bind fun _ _ => ?_
    refine (optional_malformed (expr_malformed room) _ _).bind fun _ _ => ?_
    refine (expect_malformed _ _).bind fun _ _ => ?_
    exact (optional_malformed (expr_malformed room) _ _).bind fun _ _ => .ok

theorem forHead_malformed (room : Nat) (ts : List Token) : OnlyMalformed (forHead room ts) := by
  unfold forHead
  refine (expect_malformed _ _).bind fun ts _ => ?_
  cases room with
  | zero => exact .error rfl
  | succ room =>
    refine (forClauses_malformed room ts).bind fun _ _ => ?_
    exact (expect_malformed _ _).bind fun _ _ => (expect_malformed _ _).bind fun _ _ => .ok

theorem blockTest_malformed (room : Nat) (ts : List Token) :
    OnlyMalformed (blockTest room ts) := by
  unfold blockTest
  refine (expect_malformed _ _).bind fun _ _ => (expr_malformed _ _).bind fun _ _ => ?_
  exact (expect_malformed _ _).bind fun _ _ => (expect_malformed _ _).bind fun _ _ => .ok

theorem blockOp_malformed (room : Nat) (ts : List Token) : OnlyMalformed (blockOp room ts) := by
  unfold blockOp
  split
  · exact .ok
  · exact .ok
  · exact (blockTest_malformed _ _).map
  · exact (blockTest_malformed _ _).map
  · exact (forHead_malformed _ _).map
  · exact (blockTest_malformed _ _).map
  · exact (expect_malformed _ _).map
  · exact .error rfl

theorem blockOps_malformed (room count : Nat) (ts : List Token) :
    OnlyMalformed (blockOps room count ts) := by
  induction count generalizing ts with
  | zero =>
    cases ts with
    | nil => rw [blockOps]; exact .ok
    | cons t ts =>
      rw [blockOps]
      · exact .error rfl
      · exact nofun
  | succ count ih =>
    cases ts with
    | nil => rw [blockOps]; exact .ok
    | cons t ts =>
      rw [blockOps]
      · exact (blockOp_malformed room _).bind fun _ _ => (ih _).bind fun _ _ => .ok
      · exact nofun

end Reader

theorem Step.ofTokens_malformed (ts : List Token) : OnlyMalformed (Step.ofTokens ts) := by
  unfold Step.ofTokens
  split
  · exact (Reader.blockOps_malformed _ _ _).map
  · exact (Reader.standalone_malformed _).map

/-! ## The builder -/

namespace Builder

theorem enter_malformed (b : Builder) (block : Block) : OnlyMalformed (b.enter block) := by
  unfold enter
  split
  · exact .error rfl
  · exact .ok

theorem continued_malformed (b : Builder) : OnlyMalformed b.continued := by
  unfold continued
  split
  · exact .error rfl
  · exact .ok

theorem leave_malformed (b : Builder) : OnlyMalformed b.leave := by
  unfold leave
  dsimp only
  split
  · exact .error rfl
  all_goals exact .ok

theorem apply_malformed (b : Builder) (op : BlockOp) : OnlyMalformed (b.apply op) := by
  cases op with
  | ifBlock test => exact enter_malformed _ _
  | elseIfBlock test => exact (continued_malformed b).bind fun _ _ => enter_malformed _ _
  | elseBlock => exact (continued_malformed b).bind fun _ _ => enter_malformed _ _
  | whileBlock test => exact enter_malformed _ _
  | forBlock head => exact enter_malformed _ _
  | close => exact leave_malformed b
  | empty => exact .ok

theorem addStep_malformed (b : Builder) (step : Step) : OnlyMalformed (b.addStep step) := by
  cases step with
  | literal text => exact .ok
  | expr e => exact .ok
  | control ops => exact .foldlM apply_malformed ops b

theorem finish_malformed (b : Builder) : OnlyMalformed b.finish := by
  unfold finish
  split
  · exact .ok
  · exact .error rfl

end Builder

theorem build_malformed (steps : List Step) : OnlyMalformed (build steps) :=
  (Rejects.foldlM Builder.addStep_malformed steps {}).bind fun b _ => b.finish_malformed

/-! ## Tokens -/

namespace Numeral

theorem dropUnderscores_malformed (s : List Char) : OnlyMalformed (dropUnderscores s) := by
  unfold dropUnderscores
  split
  · exact .error rfl
  · exact .ok

theorem based_malformed (base : Nat) (s : List Char) : OnlyMalformed (based base s) := by
  refine (dropUnderscores_malformed s).bind fun digits _ => ?_
  split
  · exact .ok
  · exact .error rfl

theorem decimal_malformed (s : List Char) : OnlyMalformed (decimal s) := by
  refine (dropUnderscores_malformed s).bind fun digits _ => ?_
  split
  · exact .ok
  · exact .error rfl

theorem read_malformed (s : List Char) : OnlyMalformed (read s) := by
  unfold read
  split
  · exact (based_malformed _ _).map
  · exact (decimal_malformed _).map

end Numeral

namespace Escapes

/-- The result fails only for an escape. -/
abbrev OnlyEscape {α : Type} (result : Except Error α) : Prop :=
  Rejects (fun e => e.kind = .escape) result

theorem fixedUnit_escape (count : Nat) (s : List Char) : OnlyEscape (fixedUnit count s) := by
  unfold fixedUnit
  split
  · exact .error rfl
  · split
    · exact .ok
    · exact .error rfl

theorem bracedChar_escape (s : List Char) : OnlyEscape (bracedChar s) := by
  unfold bracedChar
  split
  · exact .ok
  · exact .error rfl

theorem escaped_escape (s : List Char) : OnlyEscape (escaped s) := by
  unfold escaped
  split
  · exact .error rfl
  · exact fixedUnit_escape _ _
  · exact bracedChar_escape _
  · exact fixedUnit_escape _ _
  · split
    · exact .ok
    · split
      · exact .error rfl
      · exact .ok

theorem step_escape (s : List Char) : OnlyEscape (step s) := by
  unfold step
  split
  · exact escaped_escape _
  · exact .ok
  · exact .error rfl

theorem push_escape (waiting : Option Nat) (p : Piece) : OnlyEscape (push waiting p) := by
  unfold push
  split
  · split
    · exact .ok
    · exact .error rfl
  · split
    · split <;> exact .ok
    · split
      · exact .ok
      · exact .error rfl

theorem unescapeAfter_escape (waiting : Option Nat) (s : List Char) :
    OnlyEscape (unescapeAfter waiting s) := by
  induction hlength : s.length using Nat.strongRecOn generalizing waiting s with
  | ind n ih =>
    rw [unescapeAfter]
    split
    · split
      · exact .ok
      · exact .error rfl
    · split
      · rename_i e he
        exact .error (step_escape s e he)
      · rename_i piece rest hstep
        split
        · rename_i e he
          exact .error (push_escape _ _ e he)
        · have hlt := length_of_step hstep
          exact (ih rest.length (by omega) _ rest rfl).map

end Escapes

namespace Lexer

/-- The lexer comes upon a text in quotes: a token starts with a quote, and this is the text up to
the next quote that no backslash takes along. -/
inductive Quotes : List Char → List Char → Prop
  | here {s rest body after : List Char} {quote : Char} :
      Text.trimStart s = quote :: rest → quote = '\'' ∨ quote = '"' →
      body? quote rest = some (body, after) → Quotes s body
  | later {s rest body : List Char} {t : Token} :
      next (Text.trimStart s) = .ok (t, rest) → Quotes rest body → Quotes s body

/-- The escapes of a quoted text stand for nothing, for the reason given. There is a backslash
then. -/
structure BadBody (body : List Char) (e : Error) : Prop where
  unescape : Escapes.unescape body = .error e
  kind : e.kind = .escape
  backslash : '\\' ∈ body

theorem badBody_of_unescape {body : List Char} {e : Error}
    (h : Escapes.unescape body = .error e) : BadBody body e := by
  refine ⟨h, Escapes.unescapeAfter_escape none body e h, ?_⟩
  refine Decidable.byContradiction fun hplain => ?_
  rw [Escapes.unescape_of_not_mem hplain] at h
  cases h

theorem quoted_rejects (quote : Char) (s : List Char) :
    Rejects (fun e => e.kind = .malformed ∨
      ∃ body after, body? quote s = some (body, after) ∧ BadBody body e) (quoted quote s) := by
  unfold quoted
  split
  · rename_i body after hbody
    refine Rejects.bind (fun e he => ?_) fun _ _ => .ok
    exact .inr ⟨body, after, hbody, badBody_of_unescape he⟩
  · exact .error (.inl rfl)

theorem name_malformed (s : List Char) : OnlyMalformed (name s) := by
  unfold name
  split
  · split
    · exact .ok
    · exact .error rfl
  · exact .error rfl

theorem next_rejects (s : List Char) :
    Rejects (fun e => e.kind = .malformed ∨ ∃ quote rest body after, s = quote :: rest ∧
      (quote = '\'' ∨ quote = '"') ∧ body? quote rest = some (body, after) ∧ BadBody body e)
      (next s) := by
  unfold next
  split
  · exact (Numeral.read_malformed s).map.imp fun e he => .inl he
  split
  · refine (quoted_rejects _ _).imp fun e he => he.imp_right ?_
    rintro ⟨body, after, hbody, hbad⟩
    exact ⟨_, _, body, after, rfl, .inl rfl, hbody, hbad⟩
  · refine (quoted_rejects _ _).imp fun e he => he.imp_right ?_
    rintro ⟨body, after, hbody, hbad⟩
    exact ⟨_, _, body, after, rfl, .inr rfl, hbody, hbad⟩
  · split
    · exact .ok
    · exact (name_malformed s).imp fun e he => .inl he

/-- A text has no tokens because it is malformed, or for an escape in a quoted text. -/
theorem tokens_rejects (s : List Char) :
    Rejects (fun e => e.kind = .malformed ∨ ∃ body, Quotes s body ∧ BadBody body e)
      (tokens s) := by
  induction hlength : s.length using Nat.strongRecOn generalizing s with
  | ind n ih =>
    rw [tokens]
    split
    · exact .ok
    split
    · rename_i e he
      refine .error ((next_rejects _ e he).imp_right ?_)
      rintro ⟨quote, rest, body, after, hs, hquote, hbody, hbad⟩
      exact ⟨body, .here hs hquote hbody, hbad⟩
    · rename_i t rest hnext
      have hlt := Nat.lt_of_lt_of_le (length_of_next hnext) (Text.length_trimStart_le s)
      refine (ih rest.length (by omega) rest rfl).map.imp fun e he => he.imp_right ?_
      rintro ⟨body, hquotes, hbad⟩
      exact ⟨body, .later hnext hquotes, hbad⟩

end Lexer

/-! ## Sources -/

/-- The reasons for which a source is rejected, and where the bad escape is. -/
theorem statements_rejects (source : List Char) :
    Rejects (fun e => e.kind = .malformed ∨ ∃ interior body,
      .fragment interior ∈ Source.segments source ∧ Lexer.Quotes interior body ∧
        Lexer.BadBody body e) (statements source) := by
  refine Rejects.bind (.mapM fun segment hsegment => ?_) fun steps _ =>
    (build_malformed steps).imp fun e he => .inl he
  cases segment with
  | literal text => exact .ok
  | fragment interior =>
    refine Rejects.bind ?_ fun ts _ => (Step.ofTokens_malformed ts).imp fun e he => .inl he
    refine (Lexer.tokens_rejects interior).imp fun e he => he.imp_right ?_
    rintro ⟨body, hquotes, hbad⟩
    exact ⟨interior, body, hsegment, hquotes, hbad⟩

/-- A source is rejected because it is malformed, or for an escape in one of its quoted texts, which
has a backslash. -/
theorem Environment.compile_rejects (env : Environment) (source : String) :
    Rejects (fun e => e.kind = .malformed ∨ ∃ interior body,
      .fragment interior ∈ Source.segments (Source.normalizeString source).toList ∧
        Lexer.Quotes interior body ∧ Lexer.BadBody body e) (env.compile source) :=
  (statements_rejects _).bind fun _ _ => .ok

end Stencil
