import Stencil.Proofs.Reading.Braces
import Stencil.Proofs.Reading.Standalone

/-!
# Writing operations on blocks

An operation is written as its tokens in order: its words, what stands in its parentheses, and the
brace that opens its block. What is written is read back, whatever clauses the head of a loop leaves
out and however odd its names are.

* `ForInit.tokens`, `ForHead.tokens`, `BlockOp.tokens`: the tokens of an operation
* `BlockOp.Printable`: the names in an operation can be bound, and its expressions can be written
* `Reader.blockOps_stable`: the result of reading operations with less room
* `Reader.leads_of_derives`: how the names stand that an expression begins with
* `Reader.blockOps_tokens`: operations are read where there is enough room
* `Step.ofTokens_blockOps`: the main statement
-/

namespace Stencil

/-! ## Tokens of an operation -/

/-- The word that introduces a variable. -/
def DeclareKind.word : DeclareKind → String
  | .var => "var"
  | .let_ => "let"
  | .const => "const"

/-- The word between the variable of a loop and what it goes through. -/
def EachKind.word : EachKind → String
  | .values => "of"
  | .keys => "in"

/-- The tokens that give a declared variable its value, if it has one. -/
def valueTokens : Option Expr → List Token
  | none => []
  | some e => .mark .assign :: e.tokens

/-- The tokens of declared variables, with commas between them. -/
def declarationTokens : List (String × Option Expr) → List Token
  | [] => []
  | [(name, value)] => .name name :: valueTokens value
  | (name, value) :: next :: rest =>
    .name name :: (valueTokens value ++ .mark .comma :: declarationTokens (next :: rest))

/-- The tokens of the initial part of a loop. -/
def ForInit.tokens : ForInit → List Token
  | .declare kind items => .name kind.word :: declarationTokens items
  | .expr e => e.tokens

/-- The tokens of what stands in the parentheses after `for`. -/
def ForHead.tokens : ForHead → List Token
  | .clauses init test update =>
    init.elim [] ForInit.tokens ++ .mark .semicolon ::
      (test.elim [] Expr.tokens ++ .mark .semicolon :: update.elim [] Expr.tokens)
  | .each binding goes subject =>
    binding.kind.elim [] (fun kind => [.name kind.word]) ++
      .name binding.name :: .name goes.word :: subject.tokens

/-- Tokens in parentheses, and the brace that opens a block. -/
def enclosed (ts : List Token) : List Token :=
  .mark .openParen :: (ts ++ [.mark .closeParen, .mark .openBrace])

/-- The tokens of an operation. -/
def BlockOp.tokens : BlockOp → List Token
  | .ifBlock test => .name "if" :: enclosed test.tokens
  | .elseIfBlock test => .name "else" :: .name "if" :: enclosed test.tokens
  | .elseBlock => [.name "else", .mark .openBrace]
  | .whileBlock test => .name "while" :: enclosed test.tokens
  | .forBlock head => .name "for" :: enclosed head.tokens
  | .close => [.mark .closeBrace]
  | .empty => [.mark .semicolon]

theorem enclosed_append (ts rest : List Token) :
    enclosed ts ++ rest =
      .mark .openParen :: (ts ++ .mark .closeParen :: .mark .openBrace :: rest) := by
  simp [enclosed]

theorem length_enclosed (ts : List Token) : (enclosed ts).length = ts.length + 3 := by
  simp [enclosed]

theorem BlockOp.tokens_length_pos (op : BlockOp) : 0 < op.tokens.length := by
  cases op <;> exact Nat.succ_pos _

/-- Every operation but the empty one has a brace. -/
theorem BlockOp.any_isBrace {op : BlockOp} (h : op ≠ .empty) :
    op.tokens.any Token.isBrace = true := by
  cases op with
  | empty => exact absurd rfl h
  | elseBlock | close => rfl
  | ifBlock | elseIfBlock | whileBlock | forBlock =>
    simp [BlockOp.tokens, enclosed, Token.isBrace, Mark.isBrace]

/-! ## Printable operations -/

/-- The declared names are names of variables, and the values can be written down. There is at least
one name, and a constant has a value. An expression does not begin with the tokens of `typeof of`,
which begin a loop over values. -/
def ForInit.Printable : ForInit → Prop
  | .declare kind items =>
    items ≠ [] ∧ ∀ item ∈ items, IsVariable item.1 ∧ (∀ e ∈ item.2, e.Printable) ∧
      (kind = .const → item.2.isSome = true)
  | .expr e => e.Printable ∧ ¬ (Expr.unary .typeOf (.var "of")).tokens <+: e.tokens

/-- Each part can be written down. -/
def ForHead.Printable : ForHead → Prop
  | .clauses init test update =>
    (∀ part ∈ init, part.Printable) ∧ (∀ e ∈ test, e.Printable) ∧ ∀ e ∈ update, e.Printable
  | .each binding _ subject => IsVariable binding.name ∧ subject.Printable

/-- The names in the operation can be bound, and its expressions can be written down. -/
def BlockOp.Printable : BlockOp → Prop
  | .ifBlock test | .elseIfBlock test | .whileBlock test => test.Printable
  | .forBlock head => head.Printable
  | .elseBlock | .close | .empty => True

theorem IsVariable.not_mem_reservedWords {name : String} (h : IsVariable name) :
    name ∉ reservedWords := by
  have hbind := h.1
  rw [isBindable, Bool.and_eq_true, Bool.not_eq_true', List.contains_eq_mem,
    decide_eq_false_iff_not] at hbind
  exact hbind.1

/-! ## More room -/

namespace Reader

theorem Stable.map {α β : Type} {less more : Except Error α} (h : Stable less more) (f : α → β) :
    Stable (less.map f) (more.map f) := by
  rcases h with rfl | rfl
  · exact .tooDeep
  · exact .refl _

section

variable {less more : Nat} (h : less ≤ more)
include h

theorem initialValue_stable (kind : DeclareKind) (ts : List Token) :
    Stable (initialValue less kind ts) (initialValue more kind ts) := by
  unfold initialValue
  split
  · exact (expr_stable h _).bind fun _ => .refl _
  · exact .refl _

theorem declarations_stable (kind : DeclareKind) (count : Nat) (ts : List Token) :
    Stable (declarations less kind count ts) (declarations more kind count ts) := by
  fun_induction declarations less kind count ts with
  | case1 => exact .refl _
  | case2 count name ts ih =>
    rw [declarations]
    refine (Stable.refl _).bind fun _ => (initialValue_stable h kind ts).bind ?_
    rintro ⟨value, ts⟩
    dsimp only
    split
    · exact (ih ts).bind fun _ => .refl _
    · exact .refl _
  | case3 count ts hne =>
    rw [declarations]
    · exact .refl _
    · exact hne

theorem forInit_stable (ts : List Token) : Stable (forInit less ts) (forInit more ts) := by
  unfold forInit
  split
  · exact (declarations_stable h _ _ _).bind fun _ => .refl _
  · exact (expr_stable h ts).bind fun _ => .refl _

omit h in
theorem optional_stable {α : Type} {stop : Mark} {ts : List Token}
    {part part' : List Token → Except Error (Parsed α)} (h : Stable (part ts) (part' ts)) :
    Stable (optional stop part ts) (optional stop part' ts) := by
  unfold optional
  split
  · exact .refl _
  · exact h.map _

theorem forClauses_stable (ts : List Token) :
    Stable (forClauses less ts) (forClauses more ts) := by
  unfold forClauses
  dsimp only
  split
  · exact (Stable.refl _).bind fun _ => (expr_stable h _).bind fun _ => .refl _
  · refine (optional_stable (forInit_stable h ts)).bind fun init => ?_
    refine (Stable.refl _).bind fun ts => (optional_stable (expr_stable h ts)).bind fun test => ?_
    refine (Stable.refl _).bind fun ts => (optional_stable (expr_stable h ts)).bind fun update => ?_
    exact .refl _

theorem forHead_stable (ts : List Token) : Stable (forHead less ts) (forHead more ts) := by
  unfold forHead
  refine (Stable.refl _).bind fun ts => ?_
  cases less with
  | zero => exact .tooDeep
  | succ less =>
    obtain ⟨more, rfl⟩ := Nat.exists_eq_add_of_lt h
    exact (forClauses_stable (by omega) ts).bind fun _ => .refl _

theorem blockTest_stable (ts : List Token) : Stable (blockTest less ts) (blockTest more ts) := by
  unfold blockTest
  exact (Stable.refl _).bind fun ts => (expr_stable h ts).bind fun _ => .refl _

theorem blockOp_stable (ts : List Token) : Stable (blockOp less ts) (blockOp more ts) := by
  unfold blockOp
  split
  · exact .refl _
  · exact .refl _
  · exact (blockTest_stable h _).map _
  · exact (blockTest_stable h _).map _
  · exact (forHead_stable h _).map _
  · exact (blockTest_stable h _).map _
  · exact .refl _
  · exact .refl _

/-- Operations that are read with less room are read the same with more. -/
theorem blockOps_stable (count : Nat) (ts : List Token) :
    Stable (blockOps less count ts) (blockOps more count ts) := by
  fun_induction blockOps less count ts with
  | case1 =>
    rw [blockOps]
    exact .refl _
  | case2 ts hne =>
    rw [blockOps]
    · exact .refl _
    · exact hne
  | case3 count ts hne ih =>
    rw [blockOps]
    · exact (blockOp_stable h ts).bind fun read => (ih read.2).bind fun _ => .refl _
    · exact hne

end

/-! ## Names that expressions begin with -/

/-- No reserved word comes first. Another name comes after a first name only if that is `typeof`,
and is no reserved word either. -/
def Leads (ts : List Token) : Prop :=
  ∀ name rest, ts = .name name :: rest → name ∉ reservedWords ∧
    ∀ next rest', rest = .name next :: rest' → name = "typeof" ∧ next ∉ reservedWords

theorem leads_mark (m : Mark) (ts : List Token) : Leads (.mark m :: ts) := by
  intro name rest h
  cases h

theorem Leads.append_mark {ts : List Token} (h : Leads ts) (m : Mark) (us : List Token) :
    Leads (ts ++ .mark m :: us) := by
  intro name rest heq
  rcases ts with _ | ⟨t, _ | ⟨t', ts⟩⟩
  · cases heq
  · cases heq
    refine ⟨(h name [] rfl).1, fun next rest' hnext => ?_⟩
    cases hnext
  · cases heq
    obtain ⟨hname, hnext⟩ := h name (t' :: ts) rfl
    refine ⟨hname, fun next rest' heq => ?_⟩
    cases heq
    exact hnext next ts rfl

theorem Leads.typeOf {ts : List Token} (h : Leads ts) : Leads (.name "typeof" :: ts) := by
  intro name rest heq
  cases heq
  exact ⟨by decide, fun next rest' hnext => ⟨rfl, (h next rest' hnext).1⟩⟩

theorem leads_of_leaf {e : Expr} {t : Token} (h : Leaf e t) : Leads [t] := by
  have hsingle {name : String} (hname : name ∉ reservedWords) : Leads [.name name] := by
    intro name' rest heq
    cases heq
    refine ⟨hname, fun next rest' hnext => ?_⟩
    cases hnext
  cases h with
  | var hname => exact hsingle hname.not_mem_reservedWords
  | this | true | false | null => exact hsingle (by decide)
  | text | number =>
    intro name rest heq
    cases heq

/-- The names that a derivation begins with. -/
theorem leads_of_derives {k : Nat} {e : Expr} {ts : List Token} (h : Derives k e ts) :
    Leads ts := by
  refine @Derives.rec (fun _ _ ts _ => Leads ts) (fun _ _ _ => True)
    ?weaken ?leaf ?group ?list ?attr ?item ?call ?after ?before ?unary ?binary ?cond ?assign
    ?nil ?last ?trailing ?cons k e ts h
  case weaken => intro _ _ _ _ ih; exact ih
  case leaf => intro _ _ h; exact leads_of_leaf h
  case group => intros; exact leads_mark _ _
  case list => intros; exact leads_mark _ _
  case attr => intro _ _ _ _ ih; exact ih.append_mark _ _
  case item => intro _ _ _ _ _ _ ih _; exact ih.append_mark _ _
  case call => intro _ _ _ _ _ _ ih _; exact ih.append_mark _ _
  case after => intro _ _ _ _ ih; exact ih.append_mark _ _
  case before => intros; exact leads_mark _ _
  case unary =>
    intro op _ _ _ ih
    cases op with
    | typeOf => exact ih.typeOf
    | not | negate | toNumber => exact leads_mark _ _
  case binary => intro _ _ _ _ _ _ _ ih _; exact ih.append_mark _ _
  case cond => intro _ _ _ _ _ _ _ _ _ ih _ _; exact ih.append_mark _ _
  case assign => intro _ _ _ _ _ _ _ _ _ ih _; exact ih.append_mark _ _
  all_goals intros; trivial

/-- The words of declarations are reserved. -/
theorem declareKind?_eq_none {ts : List Token}
    (h : ∀ name rest, ts = .name name :: rest → name ∉ reservedWords) : declareKind? ts = none := by
  unfold declareKind?
  split
  · exact absurd (by decide) (h _ _ rfl)
  · exact absurd (by decide) (h _ _ rfl)
  · exact absurd (by decide) (h _ _ rfl)
  · rfl

theorem declareKind?_name {name : String} (h : name ∉ reservedWords) (ts : List Token) :
    declareKind? (.name name :: ts) = none := by
  refine declareKind?_eq_none fun name' rest heq => ?_
  cases heq
  exact h

theorem Leads.declareKind? {ts : List Token} (h : Leads ts) : declareKind? ts = none :=
  declareKind?_eq_none fun name rest heq => (h name rest heq).1

/-- A token list that begins like an expression begins like a loop over values only with
`typeof of`. -/
theorem Leads.readEach? {ts : List Token} (h : Leads ts)
    (hof : ¬ [.name "typeof", .name "of"] <+: ts) : readEach? ts = none := by
  unfold Reader.readEach?
  split
  · rename_i name rest
    obtain ⟨rfl, -⟩ := (h _ _ rfl).2 _ _ rfl
    exact absurd ⟨rest, rfl⟩ hof
  · exact absurd (by decide) ((h _ _ rfl).2 _ _ rfl).2
  · rfl

/-- A mark after one name keeps it from being the variable of a loop. -/
theorem readEach?_mark (name : String) (m : Mark) (ts : List Token) :
    readEach? (.name name :: .mark m :: ts) = none := by
  unfold readEach?
  split
  · rename_i heq
    cases heq
  · rename_i heq
    cases heq
  · rfl

theorem declareKind?_word (kind : DeclareKind) (ts : List Token) :
    declareKind? (.name kind.word :: ts) = some kind := by
  cases kind <;> rfl

theorem readEach?_word (name : String) (each : EachKind) (ts : List Token) :
    readEach? (.name name :: .name each.word :: ts) = some (name, each, ts) := by
  cases each <;> rfl

/-! ## Enough room -/

variable {room : Nat} {rest : List Token}

theorem expr_tokens {e : Expr} (h : e.Printable) (hroom : e.tokens.length < room)
    (hstops : Stops 0 rest) : expr room (e.tokens ++ rest) = .ok (e, rest) :=
  expr_of_derives ((derives_tokens h).of_le (Nat.zero_le _)) hroom hstops

/-- What is written does not start with a mark that no expression begins with. -/
theorem startsWith_tokens {e : Expr} (h : e.Printable) {m : Mark}
    (hm : startsExpr (.mark m) = false) (rest : List Token) :
    startsWith m (e.tokens ++ rest) = false :=
  ((begins_of_derives (derives_tokens h)).append rest).startsWith hm

theorem initialValue_tokens {kind : DeclareKind} {value : Option Expr}
    (h : ∀ e ∈ value, e.Printable) (hconst : kind = .const → value.isSome = true)
    (hroom : (valueTokens value).length ≤ room) (hstops : Stops 0 rest) :
    initialValue room kind (valueTokens value ++ rest) = .ok (value, rest) := by
  cases value with
  | none =>
    have hkind : kind ≠ .const := fun hkind => absurd (hconst hkind) Bool.false_ne_true
    rw [valueTokens, List.nil_append, initialValue, hstops.startsWith rfl,
      if_neg Bool.false_ne_true, if_neg hkind]
    rfl
  | some e =>
    rw [valueTokens, List.cons_append, initialValue, startsWith_cons, if_pos rfl, List.tail_cons,
      expr_tokens (h e rfl) hroom hstops]
    rfl

/-- Declared variables are read up to the mark after them. -/
theorem declarations_tokens {kind : DeclareKind} {items : List (String × Option Expr)}
    (hne : items ≠ [])
    (h : ∀ item ∈ items, IsVariable item.1 ∧ (∀ e ∈ item.2, e.Printable) ∧
      (kind = .const → item.2.isSome = true))
    {count : Nat} (hcount : items.length ≤ count)
    (hroom : (declarationTokens items).length ≤ room) :
    declarations room kind count (declarationTokens items ++ .mark .semicolon :: rest) =
      .ok (items, .mark .semicolon :: rest) := by
  induction items generalizing count with
  | nil => exact absurd rfl hne
  | cons item others ih =>
    obtain ⟨name, value⟩ := item
    obtain ⟨hname, hvalue, hconst⟩ : IsVariable name ∧ (∀ e ∈ value, e.Printable) ∧
      (kind = .const → value.isSome = true) := h _ List.mem_cons_self
    obtain ⟨count, rfl⟩ : ∃ c, count = c + 1 := ⟨count - 1, by simp at hcount; omega⟩
    have hbind : checkBindable name = .ok () := if_pos hname.1
    cases others with
    | nil =>
      rw [declarationTokens, List.length_cons] at hroom
      rw [declarationTokens, List.cons_append, declarations, hbind, Except.ok_bind,
        initialValue_tokens hvalue hconst (by omega) (stops_of_none rfl)]
      rfl
    | cons next others =>
      simp only [declarationTokens, List.length_cons, List.length_append] at hroom
      have hothers := ih (List.cons_ne_nil _ _) (fun item hitem => h item (.tail _ hitem))
        (Nat.le_of_succ_le_succ hcount) (by omega)
      rw [declarationTokens, List.cons_append, List.append_assoc, List.cons_append, declarations,
        hbind, Except.ok_bind, initialValue_tokens hvalue hconst (by omega) (stops_of_none rfl),
        Except.ok_bind]
      simp only [startsWith_cons, if_true, List.tail_cons, hothers]
      rfl

theorem length_items_le (items : List (String × Option Expr)) :
    items.length ≤ (declarationTokens items).length := by
  induction items with
  | nil => exact Nat.le_refl 0
  | cons item others ih =>
    cases others with
    | nil => exact Nat.succ_le_succ (Nat.zero_le _)
    | cons next others =>
      simp only [declarationTokens, List.length_cons, List.length_append] at ih ⊢
      omega

/-- Declared variables begin with one name only. -/
theorem declarationTokens_begin {items : List (String × Option Expr)} (hne : items ≠ [])
    (rest : List Token) :
    ∃ name m ts, declarationTokens items ++ .mark .semicolon :: rest =
      .name name :: .mark m :: ts := by
  rcases items with _ | ⟨⟨name, _ | e⟩, _ | ⟨next, others⟩⟩
  · exact absurd rfl hne
  all_goals exact ⟨_, _, _, rfl⟩

theorem forInit_tokens {init : ForInit} (h : init.Printable)
    (hroom : init.tokens.length < room) :
    forInit room (init.tokens ++ .mark .semicolon :: rest) =
      .ok (init, .mark .semicolon :: rest) := by
  cases init with
  | declare kind items =>
    obtain ⟨hne, hitems⟩ := h
    rw [ForInit.tokens, List.length_cons] at hroom
    have hlength := length_items_le items
    rw [ForInit.tokens, List.cons_append, forInit, declareKind?_word]
    dsimp only [List.tail_cons]
    rw [declarations_tokens hne hitems _ (by omega)]
    · rfl
    · simp only [List.length_cons, List.length_append]
      omega
  | expr e =>
    have hleads := (leads_of_derives (derives_tokens h.1)).append_mark .semicolon rest
    rw [ForInit.tokens, forInit, hleads.declareKind?]
    dsimp only
    rw [expr_tokens h.1 hroom (stops_of_none rfl)]
    rfl

theorem startsWith_forInit {init : ForInit} (h : init.Printable) (rest : List Token) :
    startsWith .semicolon (init.tokens ++ rest) = false := by
  cases init with
  | declare kind items => rfl
  | expr e => exact startsWith_tokens h.1 rfl rest

/-- The initial part of a loop does not begin like a loop over values or keys. -/
theorem readEach?_forInit {init : ForInit} (h : init.Printable) (rest : List Token) :
    let ts := init.tokens ++ .mark .semicolon :: rest
    readEach? (if (declareKind? ts).isSome then ts.tail else ts) = none := by
  cases init with
  | declare kind items =>
    obtain ⟨name, m, ts, hts⟩ := declarationTokens_begin h.1 rest
    dsimp only [ForInit.tokens, List.cons_append]
    rw [declareKind?_word, Option.isSome_some, if_pos rfl, List.tail_cons, hts]
    exact readEach?_mark name m ts
  | expr e =>
    obtain ⟨hprintable, hof⟩ := h
    have hleads := (leads_of_derives (derives_tokens hprintable)).append_mark .semicolon rest
    dsimp only [ForInit.tokens]
    rw [hleads.declareKind?, Option.isSome_none, if_neg Bool.false_ne_true]
    refine hleads.readEach? ?_
    rintro ⟨ts, hts⟩
    -- the mark after the expression is none of the two names
    rcases he : e.tokens with _ | ⟨t, _ | ⟨t', us⟩⟩
    all_goals rw [he] at hts
    · cases hts
    · cases hts
    · cases hts
      exact hof ⟨us, he.symm⟩

/-- A part that may be missing is read up to the mark after it. -/
theorem optional_tokens {α : Type} {stop : Mark} {part : List Token → Except Error (Parsed α)}
    {tokens : α → List Token} {value : Option α}
    (hpart : ∀ a ∈ value, part (tokens a ++ .mark stop :: rest) = .ok (a, .mark stop :: rest))
    (hstart : ∀ a ∈ value, startsWith stop (tokens a ++ .mark stop :: rest) = false) :
    optional stop part (value.elim [] tokens ++ .mark stop :: rest) =
      .ok (value, .mark stop :: rest) := by
  cases value with
  | none =>
    rw [Option.elim_none, List.nil_append, optional, startsWith_cons, if_pos rfl]
  | some a =>
    rw [Option.elim_some, optional, hstart a rfl, if_neg Bool.false_ne_true, hpart a rfl]
    rfl

theorem optional_expr {stop : Mark} (hstop : startsExpr (.mark stop) = false)
    (hbinding : stop.binding? = none) {value : Option Expr} (h : ∀ e ∈ value, e.Printable)
    (hroom : (value.elim [] Expr.tokens).length < room) :
    optional stop (expr room) (value.elim [] Expr.tokens ++ .mark stop :: rest) =
      .ok (value, .mark stop :: rest) := by
  refine optional_tokens (fun e he => ?_) fun e he => startsWith_tokens (h e he) hstop _
  cases he
  exact expr_tokens (h e rfl) hroom (stops_of_none hbinding)

theorem optional_forInit {init : Option ForInit} (h : ∀ part ∈ init, part.Printable)
    (hroom : (init.elim [] ForInit.tokens).length < room) :
    optional .semicolon (forInit room) (init.elim [] ForInit.tokens ++ .mark .semicolon :: rest) =
      .ok (init, .mark .semicolon :: rest) := by
  refine optional_tokens (fun part hpart => ?_) fun part hpart =>
    startsWith_forInit (h part hpart) _
  cases hpart
  exact forInit_tokens (h part rfl) hroom

/-! ## Heads of loops -/

theorem readEach?_optional {init : Option ForInit} (h : ∀ part ∈ init, part.Printable)
    (rest : List Token) :
    let ts := init.elim [] ForInit.tokens ++ .mark .semicolon :: rest
    readEach? (if (declareKind? ts).isSome then ts.tail else ts) = none := by
  cases init with
  | none => rfl
  | some init => exact readEach?_forInit (h init rfl) rest

theorem forClauses_of_each {ts ts' : List Token} {kind : Option DeclareKind} {name : String}
    {goes : EachKind} (hkind : declareKind? ts = kind)
    (h : readEach? (if kind.isSome then ts.tail else ts) = some (name, goes, ts')) :
    forClauses room ts = (do
      checkBindable name
      let (subject, ts) ← expr room ts'
      return (.each ⟨kind, name⟩ goes subject, ts)) := by
  subst hkind
  rw [forClauses]
  simp only [h]

theorem forClauses_of_not_each {ts : List Token}
    (h : readEach? (if (declareKind? ts).isSome then ts.tail else ts) = none) :
    forClauses room ts = (do
      let (init, ts) ← optional .semicolon (forInit room) ts
      let ts ← expect .semicolon ts
      let (test, ts) ← optional .semicolon (expr room) ts
      let ts ← expect .semicolon ts
      let (update, ts) ← optional .closeParen (expr room) ts
      return (.clauses init test update, ts)) := by
  rw [forClauses]
  simp only [h]

/-- The words before what a loop goes through are told apart from a declaration and from an
expression. -/
theorem readEach?_forEach (kind : Option DeclareKind) {name : String} (hname : name ∉ reservedWords)
    (goes : EachKind) {ts ts' : List Token}
    (hts : ts = kind.elim [] (fun kind => [.name kind.word]) ++
      .name name :: .name goes.word :: ts') :
    declareKind? ts = kind ∧
      readEach? (if kind.isSome then ts.tail else ts) = some (name, goes, ts') := by
  subst hts
  cases kind with
  | none => exact ⟨declareKind?_name hname _, readEach?_word name goes ts'⟩
  | some kind => exact ⟨declareKind?_word kind _, readEach?_word name goes ts'⟩

theorem forClauses_each {binding : Binding} {goes : EachKind} {subject : Expr}
    (h : (ForHead.each binding goes subject).Printable)
    (hroom : (ForHead.each binding goes subject).tokens.length < room) :
    forClauses room ((ForHead.each binding goes subject).tokens ++ .mark .closeParen :: rest) =
      .ok (.each binding goes subject, .mark .closeParen :: rest) := by
  obtain ⟨hname, hsubject⟩ := h
  simp only [ForHead.tokens, List.length_append, List.length_cons] at hroom
  have hbind : checkBindable binding.name = .ok () := if_pos hname.1
  obtain ⟨hkind, heach⟩ := readEach?_forEach binding.kind hname.not_mem_reservedWords goes rfl
  rw [ForHead.tokens, List.append_assoc, List.cons_append, List.cons_append,
    forClauses_of_each hkind heach, hbind, Except.ok_bind,
    expr_tokens hsubject (by omega) (stops_of_none rfl)]
  rfl

theorem forClauses_clauses {init : Option ForInit} {test update : Option Expr}
    (h : (ForHead.clauses init test update).Printable)
    (hroom : (ForHead.clauses init test update).tokens.length < room) :
    forClauses room ((ForHead.clauses init test update).tokens ++ .mark .closeParen :: rest) =
      .ok (.clauses init test update, .mark .closeParen :: rest) := by
  obtain ⟨hinit, htest, hupdate⟩ := h
  simp only [ForHead.tokens, List.length_append, List.length_cons] at hroom
  rw [ForHead.tokens, List.append_assoc, List.cons_append, List.append_assoc, List.cons_append,
    forClauses_of_not_each (readEach?_optional hinit _), optional_forInit hinit (by omega),
    Except.ok_bind]
  dsimp only
  rw [expect_eq_ok_iff.2 rfl, Except.ok_bind, optional_expr rfl rfl htest (by omega),
    Except.ok_bind]
  dsimp only
  rw [expect_eq_ok_iff.2 rfl, Except.ok_bind, optional_expr rfl rfl hupdate (by omega)]
  rfl

/-- The head of a loop is read back. What stands in its parentheses takes a level. -/
theorem forHead_tokens {head : ForHead} (h : head.Printable)
    (hroom : head.tokens.length + 1 < room) :
    forHead room (enclosed head.tokens ++ rest) = .ok (head, rest) := by
  obtain ⟨room, rfl⟩ : ∃ r, room = r + 1 := ⟨room - 1, by omega⟩
  have hclauses : forClauses room (head.tokens ++ .mark .closeParen :: .mark .openBrace :: rest) =
      .ok (head, .mark .closeParen :: .mark .openBrace :: rest) := by
    cases head with
    | clauses init test update => exact forClauses_clauses h (by omega)
    | each binding goes subject => exact forClauses_each h (by omega)
  rw [enclosed_append, forHead, expect_eq_ok_iff.2 rfl, Except.ok_bind]
  dsimp only
  rw [hclauses, Except.ok_bind]
  dsimp only
  rw [expect_eq_ok_iff.2 rfl, Except.ok_bind, expect_eq_ok_iff.2 rfl]
  rfl

theorem blockTest_tokens {test : Expr} (h : test.Printable) (hroom : test.tokens.length < room) :
    blockTest room (enclosed test.tokens ++ rest) = .ok (test, rest) := by
  rw [enclosed_append, blockTest, expect_eq_ok_iff.2 rfl, Except.ok_bind,
    expr_tokens h hroom (stops_of_none rfl), Except.ok_bind]
  dsimp only
  rw [expect_eq_ok_iff.2 rfl, Except.ok_bind, expect_eq_ok_iff.2 rfl]
  rfl

/-- An operation is read back, whatever follows it. -/
theorem blockOp_tokens {op : BlockOp} (h : op.Printable) (hroom : op.tokens.length ≤ room) :
    blockOp room (op.tokens ++ rest) = .ok (op, rest) := by
  cases op with
  | ifBlock test | whileBlock test | elseIfBlock test =>
    simp only [BlockOp.tokens, List.length_cons, length_enclosed] at hroom
    simp only [BlockOp.tokens, List.cons_append, blockOp]
    rw [blockTest_tokens h (by omega)]
    rfl
  | forBlock head =>
    simp only [BlockOp.tokens, List.length_cons, length_enclosed] at hroom
    simp only [BlockOp.tokens, List.cons_append, blockOp]
    rw [forHead_tokens h (by omega)]
    rfl
  | elseBlock => rfl
  | close => rfl
  | empty => rfl

/-- Operations are read back where there is as much room as the longest one has tokens. -/
theorem blockOps_tokens {ops : List BlockOp} (h : ∀ op ∈ ops, op.Printable)
    (hroom : ∀ op ∈ ops, op.tokens.length ≤ room) {count : Nat} (hcount : ops.length ≤ count) :
    blockOps room count (ops.flatMap BlockOp.tokens) = .ok ops := by
  induction ops generalizing count with
  | nil => rw [List.flatMap_nil, blockOps]
  | cons op ops ih =>
    obtain ⟨count, rfl⟩ : ∃ c, count = c + 1 := ⟨count - 1, by simp at hcount; omega⟩
    have hne : op.tokens ++ ops.flatMap BlockOp.tokens ≠ [] := by
      refine List.ne_nil_of_length_pos ?_
      rw [List.length_append]
      exact Nat.add_pos_left op.tokens_length_pos _
    rw [List.flatMap_cons, blockOps]
    · rw [blockOp_tokens (h op List.mem_cons_self) (hroom op List.mem_cons_self), Except.ok_bind]
      dsimp only
      rw [ih (fun op hop => h op (.tail _ hop)) (fun op hop => hroom op (.tail _ hop))
        (Nat.le_of_succ_le_succ hcount)]
      rfl
    · exact hne

theorem length_ops_le (ops : List BlockOp) :
    ops.length ≤ (ops.flatMap BlockOp.tokens).length := by
  induction ops with
  | nil => exact Nat.le_refl 0
  | cons op ops ih =>
    have hpos := op.tokens_length_pos
    rw [List.flatMap_cons, List.length_append, List.length_cons]
    omega

theorem length_op_le {ops : List BlockOp} {op : BlockOp} (h : op ∈ ops) :
    op.tokens.length ≤ (ops.flatMap BlockOp.tokens).length := by
  obtain ⟨before, after, rfl⟩ := List.append_of_mem h
  simp only [List.flatMap_append, List.flatMap_cons, List.length_append]
  omega

end Reader

open Reader

/-- An operation is read from its tokens. -/
theorem Step.ofTokens_blockOp {op : BlockOp} (h : op.Printable) (hne : op ≠ .empty)
    (hlength : op.tokens.length ≤ nestingLimit) :
    Step.ofTokens op.tokens = .ok (.control [op]) := by
  have hread : Reader.blockOps nestingLimit op.tokens.length op.tokens = .ok [op] := by
    have hops := Reader.blockOps_tokens (List.forall_mem_singleton.2 h)
      (List.forall_mem_singleton.2 hlength) op.tokens_length_pos
    rwa [List.flatMap_cons, List.flatMap_nil, List.append_nil] at hops
  rw [Step.ofTokens, if_pos (op.any_isBrace hne), hread]
  rfl

/-- **Reading undoes writing.** Operations are read back from their tokens, by the reader of
operations and, if one of them has a brace, as the step that a fragment is; or they are nested too
deeply, which none is that has no more tokens than the limit on nesting. -/
theorem Step.ofTokens_blockOps {ops : List BlockOp} (h : ∀ op ∈ ops, op.Printable)
    (hblock : ∃ op ∈ ops, op ≠ .empty) :
    let ts := ops.flatMap BlockOp.tokens
    (blockOps nestingLimit ts.length ts = .ok ops ∨
        blockOps nestingLimit ts.length ts = .error (.malformed .tooDeep)) ∧
      (Step.ofTokens ts = .ok (.control ops) ∨
        Step.ofTokens ts = .error (.malformed .tooDeep)) ∧
      ((∀ op ∈ ops, op.tokens.length ≤ nestingLimit) →
        Step.ofTokens ts = .ok (.control ops)) := by
  intro ts
  have hbrace : ts.any Token.isBrace = true := by
    obtain ⟨op, hop, hne⟩ := hblock
    obtain ⟨t, ht, hbrace⟩ := List.any_eq_true.1 (op.any_isBrace hne)
    exact List.any_eq_true.2 ⟨t, List.mem_flatMap.2 ⟨op, hop, ht⟩, hbrace⟩
  have hstep : Step.ofTokens ts = (blockOps nestingLimit ts.length ts).map .control :=
    if_pos hbrace
  -- there is a room that is large enough for everything
  have hlarge : blockOps (nestingLimit + ts.length) ts.length ts = .ok ops := by
    refine blockOps_tokens h (fun op hop => ?_) (length_ops_le ops)
    exact Nat.le_trans (length_op_le hop) (Nat.le_add_left _ _)
  have hread : blockOps nestingLimit ts.length ts = .ok ops ∨
      blockOps nestingLimit ts.length ts = .error (.malformed .tooDeep) := by
    have hstable := blockOps_stable (Nat.le_add_right nestingLimit ts.length) ts.length ts
    rw [hlarge] at hstable
    exact hstable.symm
  refine ⟨hread, ?_, fun hroom => ?_⟩
  · rw [hstep]
    rcases hread with hread | hread
    · exact .inl (by rw [hread]; rfl)
    · exact .inr (by rw [hread]; rfl)
  · rw [hstep, blockOps_tokens h hroom (length_ops_le ops)]
    rfl

/-- The heads in `} for (let of = typeof of, i; ; of++) { for (of of of) {` are told apart. -/
theorem Step.ofTokens_blockOps_of :
    Step.ofTokens
        [.mark .closeBrace, .name "for", .mark .openParen, .name "let", .name "of", .mark .assign,
          .name "typeof", .name "of", .mark .comma, .name "i", .mark .semicolon, .mark .semicolon,
          .name "of", .mark .increment, .mark .closeParen, .mark .openBrace,
          .name "for", .mark .openParen, .name "of", .name "of", .name "of", .mark .closeParen,
          .mark .openBrace] =
      .ok (.control
        [.close,
          .forBlock (.clauses
            (some (.declare .let_ [("of", some (.unary .typeOf (.var "of"))), ("i", none)]))
            none (some (.update "of" .up .after))),
          .forBlock (.each ⟨none, "of"⟩ .values (.var "of"))]) := by
  have hof : IsVariable "of" := by decide
  have hinit : (ForInit.declare .let_
      [("of", some (.unary .typeOf (.var "of"))), ("i", none)]).Printable := by
    refine ⟨List.cons_ne_nil _ _, ?_⟩
    simp only [List.forall_mem_cons, List.not_mem_nil, false_implies, implies_true, and_true]
    refine ⟨⟨hof, ?_, nofun⟩, by decide, nofun, nofun⟩
    rintro e ⟨⟩
    exact .unary (.var hof)
  have hops : ∀ op ∈
      [.close,
        .forBlock (.clauses
          (some (.declare .let_ [("of", some (.unary .typeOf (.var "of"))), ("i", none)]))
          none (some (.update "of" .up .after))),
        .forBlock (.each ⟨none, "of"⟩ .values (.var "of"))], BlockOp.Printable op := by
    simp only [List.forall_mem_cons, List.not_mem_nil, false_implies, implies_true, and_true]
    refine ⟨trivial, ⟨?_, nofun, ?_⟩, hof, .var hof⟩
    · rintro part ⟨⟩
      exact hinit
    · rintro e ⟨⟩
      exact .update hof
  exact (Step.ofTokens_blockOps hops ⟨.close, List.mem_cons_self, nofun⟩).2.2 (by decide)

end Stencil
