import Stencil.Proofs.Balance
import Stencil.Proofs.Lexing.Joined
import Stencil.Proofs.Reading.Blocks

/-!
# Reading chains of conditionals

A conditional with several branches can be written in two ways: each further branch continues the
conditional by `else if`, or it is a conditional of its own in the last body of the one before.

* `Stmt.nested`: the conditionals that a chain stands for
* `Clause`, `chainSegments`: how the branches of a chain are written
* `Clause.Reads`, `IsLast`: what the clauses and the last body are read as
* `Reads`: the events that segments are read as
* `exists_continued_clauses`, `exists_linear_nested`: the events of a chain
* `standFor_flat`, `standFor_nested`: the main statements
-/

namespace Stencil

open Source (Segment)

/-! ## Chains -/

/-- A conditional whose further branches are nested: each one is a conditional in the last body of
the one before. -/
def Stmt.nested : Branch → List Branch → List Stmt → Stmt
  | first, [], otherwise => .cond [first] otherwise
  | first, second :: more, otherwise => .cond [first] [nested second more otherwise]

/-- A branch as it is written: the text of its test, and the segments of its body. -/
structure Clause where
  test : String
  body : List Segment

/-- The segments of a clause, if a text stands before the word `if`. -/
def Clause.segments (before : String) (c : Clause) : List Segment :=
  .fragment (before ++ "if (" ++ c.test ++ ") \x7b").toList :: c.body

/-- The segments of the last body. It may be missing. -/
def lastSegments : Option (List Segment) → List Segment
  | none => []
  | some body => .fragment "\x7d else \x7b".toList :: body

/-- The fragment with a number of closing braces. -/
def closingBraces (n : Nat) : Segment :=
  .fragment (List.replicate n '\x7d')

/-- The segments of a chain, with a text before the word `if` of each further clause and a number of
braces at the end. -/
def chainSegments (before : String) (closing : Nat) (first : Clause) (more : List Clause)
    (last : Option (List Segment)) : List Segment :=
  first.segments "" ++ (more.flatMap (Clause.segments before) ++
    (lastSegments last ++ [closingBraces closing]))

/-- By themselves the segments are read as the statements. -/
def IsBody (segments : List Segment) (body : List Stmt) : Prop :=
  ∃ steps, segments.mapM Step.ofSegment = .ok steps ∧ build steps = .ok body

/-- The text is read as the test of a conditional. -/
def IsTest (test : String) (e : Expr) : Prop :=
  Step.ofInterior ("if (" ++ test ++ ") \x7b").toList = .ok (.control [.ifBlock e])

/-- The clause is read as the branch. -/
structure Clause.Reads (c : Clause) (b : Branch) : Prop where
  test : IsTest c.test b.1
  body : IsBody c.body b.2

/-- The last body is read as the statements. If it is missing then there are none. -/
inductive IsLast : Option (List Segment) → List Stmt → Prop
  | missing : IsLast none []
  | body {segments : List Segment} {otherwise : List Stmt} (h : IsBody segments otherwise) :
      IsLast (some segments) otherwise

/-! ## Tests -/

namespace Reader

theorem blockOps_nil (room count : Nat) : blockOps room count [] = .ok [] := by
  rw [blockOps]

theorem blockOps_eq_nil {room count : Nat} {ts : List Token} (h : blockOps room count ts = .ok []) :
    ts = [] := by
  cases ts with
  | nil => rfl
  | cons t ts =>
    cases count with
    | zero => cases h
    | succ count =>
      rw [blockOps] at h
      · obtain ⟨⟨op, rest⟩, -, hrest⟩ := Except.bind_eq_ok_iff.1 h
        obtain ⟨others, -, hothers⟩ := Except.bind_eq_ok_iff.1 hrest
        cases hothers
      · exact List.cons_ne_nil t ts

/-- Only the word `if` opens a conditional. -/
theorem blockOp_ifBlock (room : Nat) (ts : List Token) :
    Yields (fun read => ∀ e, read.1 = .ifBlock e →
      ∃ us, ts = .name "if" :: us ∧ blockTest room us = .ok (e, read.2)) (blockOp room ts) := by
  have hother {α : Type} {f : Parsed α → Parsed BlockOp} {part : Except Error (Parsed α)}
      (hf : ∀ read e, (f read).1 ≠ .ifBlock e) :
      Yields (fun read => ∀ e, read.1 = .ifBlock e →
        ∃ us, ts = .name "if" :: us ∧ blockTest room us = .ok (e, read.2)) (part.map f) :=
    (Yields.trivial part).map fun read _ e he => absurd he (hf read e)
  unfold blockOp
  split
  · exact .ok nofun
  · exact .ok nofun
  · rename_i us
    have htest : Yields (fun read => blockTest room us = .ok read) (blockTest room us) :=
      fun _ hread => hread
    refine htest.map fun read hread e he => ⟨us, rfl, ?_⟩
    cases he
    exact hread
  · exact hother nofun
  · exact hother nofun
  · exact hother nofun
  · exact (Yields.trivial _).map fun _ _ => nofun
  · exact .error

theorem blockOps_cons {room count : Nat} {ts rest : List Token} {op : BlockOp}
    {ops : List BlockOp} (hop : blockOp room ts = .ok (op, rest))
    (hops : blockOps room count rest = .ok ops) :
    blockOps room (count + 1) ts = .ok (op :: ops) := by
  rw [blockOps]
  · rw [hop, Except.ok_bind]
    dsimp only
    rw [hops, Except.ok_bind]
    rfl
  · rintro rfl
    cases hop

end Reader

open Reader

/-- A brace that closes a block, and operations after it. -/
theorem Step.ofTokens_close {ts : List Token} {ops : List BlockOp}
    (h : blockOps nestingLimit ts.length ts = .ok ops) :
    Step.ofTokens (.mark .closeBrace :: ts) = .ok (.control (.close :: ops)) := by
  have hbrace : (Token.mark .closeBrace :: ts).any Token.isBrace = true := rfl
  rw [Step.ofTokens, if_pos hbrace, List.length_cons, blockOps_cons rfl h]
  rfl

namespace IsTest

variable {test : String} {e : Expr}

/-- The tokens of an expression in parentheses are a test. -/
theorem of_tokens (he : e.Printable)
    (hlength : (BlockOp.ifBlock e).tokens.length ≤ nestingLimit)
    (htokens : Lexer.tokens ("if (" ++ test ++ ") \x7b").toList = .ok (BlockOp.ifBlock e).tokens) :
    IsTest test e := by
  have hne : BlockOp.ifBlock e ≠ .empty := by rintro ⟨⟩
  rw [IsTest, Step.ofInterior, htokens]
  exact Step.ofTokens_blockOp he hne hlength

/-- The tokens of a test, with the word before them. -/
theorem exists_tokens (h : IsTest test e) :
    ∃ us, Lexer.tokens ("if (" ++ test ++ ") \x7b").toList = .ok (.name "if" :: us) ∧
      blockTest nestingLimit us = .ok (e, []) := by
  obtain ⟨ts, htokens, hstep⟩ := Except.bind_eq_ok_iff.1 h
  have hops : blockOps nestingLimit ts.length ts = .ok [.ifBlock e] := by
    unfold Step.ofTokens at hstep
    split at hstep
    · cases hread : blockOps nestingLimit ts.length ts with
      | ok ops =>
        rw [hread] at hstep
        cases hstep
        rfl
      | error err =>
        rw [hread] at hstep
        cases hstep
    · cases hread : standalone ts <;> rw [hread] at hstep <;> cases hstep
  cases ts with
  | nil =>
    rw [List.length_nil, blockOps] at hops
    cases hops
  | cons t ts =>
    rw [List.length_cons, blockOps] at hops
    · obtain ⟨⟨op, rest⟩, hop, hrest⟩ := Except.bind_eq_ok_iff.1 hops
      obtain ⟨others, hothers, heq⟩ := Except.bind_eq_ok_iff.1 hrest
      cases heq
      obtain rfl := blockOps_eq_nil hothers
      obtain ⟨us, hus, htest⟩ := blockOp_ifBlock nestingLimit (t :: ts) _ hop e rfl
      exact ⟨us, hus ▸ htokens, htest⟩
    · exact List.cons_ne_nil t ts

/-- Tokens that are put before those of a test. -/
theorem tokens_append (h : IsTest test e) {before : List Char} {ts : List Token}
    (hbefore : Lexer.tokens before = .ok ts) :
    ∃ us, Lexer.tokens (before ++ ' ' :: ("if (" ++ test ++ ") \x7b").toList) =
        .ok (ts ++ .name "if" :: us) ∧
      blockTest nestingLimit us = .ok (e, []) := by
  obtain ⟨us, htokens, htest⟩ := h.exists_tokens
  refine ⟨us, ?_, htest⟩
  have hblank : ∀ c ∈ [' '], Text.isBlank c = true := List.forall_mem_singleton.2 rfl
  have hrest := (Lexer.tokens_append_of_blanks hblank).trans htokens
  rw [List.singleton_append] at hrest
  rw [Lexer.tokens_append (fun c hc => by cases hc; rfl) hbefore, hrest]
  rfl

/-- A test that continues a conditional. -/
theorem ofInterior_elseIf (h : IsTest test e) :
    Step.ofInterior ("\x7d else " ++ "if (" ++ test ++ ") \x7b").toList =
      .ok (.control [.close, .elseIfBlock e]) := by
  have hbefore : Lexer.tokens "\x7d else".toList = .ok [.mark .closeBrace, .name "else"] := by
    decide +kernel
  obtain ⟨us, htokens, htest⟩ := h.tokens_append hbefore
  have hlist : ("\x7d else " ++ "if (" ++ test ++ ") \x7b").toList =
      "\x7d else".toList ++ ' ' :: ("if (" ++ test ++ ") \x7b").toList := by
    simp
  have hop : blockOp nestingLimit (.name "else" :: .name "if" :: us) =
      .ok (.elseIfBlock e, []) := by
    rw [blockOp, htest]
    rfl
  rw [Step.ofInterior, hlist, htokens]
  exact Step.ofTokens_close (blockOps_cons hop (blockOps_nil _ _))

/-- A test in the last body of a conditional. -/
theorem ofInterior_elseBlock (h : IsTest test e) :
    Step.ofInterior ("\x7d else \x7b " ++ "if (" ++ test ++ ") \x7b").toList =
      .ok (.control [.close, .elseBlock, .ifBlock e]) := by
  have hbefore : Lexer.tokens "\x7d else \x7b".toList =
      .ok [.mark .closeBrace, .name "else", .mark .openBrace] := by
    decide +kernel
  obtain ⟨us, htokens, htest⟩ := h.tokens_append hbefore
  have hlist : ("\x7d else \x7b " ++ "if (" ++ test ++ ") \x7b").toList =
      "\x7d else \x7b".toList ++ ' ' :: ("if (" ++ test ++ ") \x7b").toList := by
    simp
  have hop : blockOp nestingLimit (.name "if" :: us) = .ok (.ifBlock e, []) := by
    rw [blockOp, htest]
    rfl
  rw [Step.ofInterior, hlist, htokens]
  exact Step.ofTokens_close (blockOps_cons rfl (blockOps_cons hop (blockOps_nil _ _)))

end IsTest

theorem ofInterior_closingBraces (n : Nat) :
    Step.ofInterior (List.replicate (n + 1) '\x7d') =
      .ok (.control (List.replicate (n + 1) .close)) := by
  have htokens (n : Nat) : Lexer.tokens (List.replicate n '\x7d') =
      .ok (List.replicate n (.mark .closeBrace)) := by
    induction n with
    | zero => exact Lexer.tokens_of_blanks nofun
    | succ n ih =>
      have hnext : Lexer.next ('\x7d' :: List.replicate n '\x7d') =
          .ok (.mark .closeBrace, List.replicate n '\x7d') := rfl
      have hfirst := @Lexer.tokens_of_next [] _ _ _ _ nofun rfl hnext
      rwa [ih] at hfirst
  have hops (n : Nat) : blockOps nestingLimit (List.replicate n (Token.mark .closeBrace)).length
      (List.replicate n (.mark .closeBrace)) = .ok (List.replicate n .close) := by
    induction n with
    | zero => rfl
    | succ n ih => exact blockOps_cons rfl ih
  rw [Step.ofInterior, htokens]
  exact Step.ofTokens_close (hops n)

/-! ## Events of segments -/

/-- The segments are read as steps with the events. -/
def Reads (segments : List Segment) (es : List Event) : Prop :=
  ∃ steps, segments.mapM Step.ofSegment = .ok steps ∧ events steps = es

theorem Reads.append {first second : List Segment} {es es' : List Event} (h : Reads first es)
    (h' : Reads second es') : Reads (first ++ second) (es ++ es') := by
  obtain ⟨steps, hsteps, rfl⟩ := h
  obtain ⟨steps', hsteps', rfl⟩ := h'
  refine ⟨steps ++ steps', ?_, List.flatMap_append⟩
  rw [List.mapM_append, hsteps, hsteps']
  rfl

/-- A fragment of operations before other segments. -/
theorem Reads.control {interior : List Char} {ops : List BlockOp} {segments : List Segment}
    {es : List Event} (hops : Step.ofInterior interior = .ok (.control ops))
    (h : Reads segments es) : Reads (.fragment interior :: segments) (ops.map .control ++ es) := by
  obtain ⟨steps, hsteps, rfl⟩ := h
  refine ⟨.control ops :: steps, ?_, rfl⟩
  rw [List.mapM_cons, Step.ofSegment, hops, hsteps]
  rfl

theorem IsBody.exists_linear {segments : List Segment} {body : List Stmt}
    (h : IsBody segments body) : ∃ es, Reads segments es ∧ Linear body es := by
  obtain ⟨steps, hsteps, hbuild⟩ := h
  exact ⟨events steps, ⟨steps, hsteps, rfl⟩, (linear_of_build hbuild).1⟩

/-- The events of the braces at the end. -/
theorem reads_closingBraces (n : Nat) :
    Reads [closingBraces (n + 1)] (List.replicate (n + 1) (.control .close)) := by
  have hread := Reads.control (ofInterior_closingBraces n) ⟨[], List.mapM_nil, rfl⟩
  rwa [List.map_replicate, events, List.flatMap_nil, List.append_nil] at hread

/-- The last body continues a conditional whose last branch is closed by the first brace. -/
theorem exists_continued_last {last : Option (List Segment)} {otherwise : List Stmt}
    (h : IsLast last otherwise) (n : Nat) :
    ∃ tail, Continued [] otherwise tail ∧
      Reads (lastSegments last ++ [closingBraces (n + 1)])
        (.control .close :: (tail ++ List.replicate n (.control .close))) := by
  cases h with
  | missing => exact ⟨[], .nil, reads_closingBraces n⟩
  | body hbody =>
    obtain ⟨inner, hinner, hlinear⟩ := hbody.exists_linear
    refine ⟨_, .otherwise hlinear, ?_⟩
    have hread := Reads.control ofInterior_else (hinner.append (reads_closingBraces n))
    rw [List.replicate_succ] at hread
    simpa only [lastSegments, List.map_cons, List.map_nil, List.cons_append, List.nil_append,
      List.append_assoc] using hread

/-! ## Events of chains -/

section

variable {first : Clause} {b : Branch} {more : List Clause} {branches : List Branch}
  {last : Option (List Segment)} {otherwise : List Stmt}

/-- Clauses that continue the conditional, behind the brace that closes the branch before. -/
theorem exists_continued_clauses (hmore : List.Forall₂ Clause.Reads more branches)
    (hlast : IsLast last otherwise) :
    ∃ tail, Continued branches otherwise tail ∧
      Reads (more.flatMap (Clause.segments "\x7d else ") ++
        (lastSegments last ++ [closingBraces 1])) (.control .close :: tail) := by
  induction hmore with
  | nil =>
    obtain ⟨tail, hcontinued, hread⟩ := exists_continued_last hlast 0
    rw [List.replicate_zero, List.append_nil] at hread
    exact ⟨tail, hcontinued, hread⟩
  | cons hclause _ ih =>
    obtain ⟨tail, hcontinued, hread⟩ := ih
    obtain ⟨inner, hinner, hlinear⟩ := hclause.body.exists_linear
    refine ⟨_, .branch hlinear hcontinued, ?_⟩
    have hchain := Reads.control hclause.test.ofInterior_elseIf (hinner.append hread)
    simpa only [List.flatMap_cons, Clause.segments, List.map_cons, List.map_nil, List.cons_append,
      List.nil_append, List.append_assoc] using hchain

/-- Clauses that are nested, with some more braces at the end. -/
theorem exists_linear_nested (hfirst : first.Reads b)
    (hmore : List.Forall₂ Clause.Reads more branches) (hlast : IsLast last otherwise) (n : Nat) :
    ∃ es, Linear [Stmt.nested b branches otherwise] (.control (.ifBlock b.1) :: es) ∧
      Reads (first.body ++ (more.flatMap (Clause.segments "\x7d else \x7b ") ++
          (lastSegments last ++ [closingBraces (more.length + 1 + n)])))
        (es ++ List.replicate n (.control .close)) := by
  induction hmore generalizing first b n with
  | nil =>
    obtain ⟨inner, hinner, hlinear⟩ := hfirst.body.exists_linear
    obtain ⟨tail, hcontinued, hread⟩ := exists_continued_last hlast n
    refine ⟨_, .cond hlinear hcontinued .nil, ?_⟩
    have hchain := hinner.append hread
    rw [List.length_nil, Nat.zero_add, Nat.add_comm]
    simpa only [List.flatMap_nil, List.nil_append, List.append_nil, List.cons_append,
      List.append_assoc] using hchain
  | @cons _ _ more _ hclause _ ih =>
    -- the brace that closes this last body comes after those of the nested clauses
    obtain ⟨es, hnested, hread⟩ := ih hclause (n + 1)
    obtain ⟨inner, hinner, hlinear⟩ := hfirst.body.exists_linear
    refine ⟨_, .cond hlinear (.otherwise hnested) .nil, ?_⟩
    have hchain := hinner.append (Reads.control hclause.test.ofInterior_elseBlock hread)
    rw [List.replicate_succ] at hchain
    have hclosing : more.length + 1 + 1 + n = more.length + 1 + (n + 1) := by omega
    rw [List.length_cons, hclosing]
    simpa only [List.flatMap_cons, Clause.segments, List.map_cons, List.map_nil, List.cons_append,
      List.nil_append, List.append_nil, List.append_assoc] using hchain

end

/-! ## Templates -/

/-- The segments stand for the statement. Wherever they are read with enough room they put it into
the innermost block, and a source of these segments is a template of the statement exactly if the
limit on nesting is kept. -/
def StandFor (segments : List Segment) (stmt : Stmt) : Prop :=
  ∃ steps, segments.mapM Step.ofSegment = .ok steps ∧
    (∀ b : Builder, b.Room (events steps) →
      ∃ b', steps.foldlM Builder.addStep b = .ok b' ∧ b'.settle = b.settle.push [stmt]) ∧
    ∀ (env : Environment) (source : String),
      Source.segments (Source.normalizeString source).toList = segments →
      ((env.compile source).map Template.body = .ok [stmt] ↔
        NestedWithin nestingLimit (events steps))

/-- A linear form of the statement stands for it. -/
theorem standFor_of_linear {segments : List Segment} {es : List Event} {stmt : Stmt}
    (h : Reads segments es) (hlinear : Linear [stmt] es) : StandFor segments stmt := by
  obtain ⟨steps, hsteps, rfl⟩ := h
  refine ⟨steps, hsteps, fun b hroom => ?_, fun env source hsegments => ?_⟩
  · rw [Builder.foldlM_addStep]
    exact Builder.puts_of_linear hlinear b hroom
  · have hbody : (env.compile source).map Template.body = build steps := by
      rw [Environment.compile, statements, Step.ofSource, hsegments, hsteps, Except.ok_bind]
      cases build steps <;> rfl
    rw [hbody]
    exact ⟨fun h => (linear_of_build h).2, build_of_linear hlinear⟩

section

variable {first : Clause} {b : Branch} {more : List Clause} {branches : List Branch}
  {last : Option (List Segment)} {otherwise : List Stmt} (hfirst : first.Reads b)
  (hmore : List.Forall₂ Clause.Reads more branches) (hlast : IsLast last otherwise)

include hfirst hmore hlast

/-- Clauses with `else if` stand for one conditional. -/
theorem standFor_flat :
    StandFor (chainSegments "\x7d else " 1 first more last) (.cond (b :: branches) otherwise) := by
  obtain ⟨inner, hinner, hlinear⟩ := hfirst.body.exists_linear
  obtain ⟨tail, hcontinued, hread⟩ := exists_continued_clauses hmore hlast
  refine standFor_of_linear ?_ (.cond hlinear hcontinued .nil)
  have hchain := Reads.control hfirst.test (hinner.append hread)
  simpa only [chainSegments, Clause.segments, List.map_cons, List.map_nil, List.cons_append,
    List.nil_append, List.append_nil, String.empty_append] using hchain

/-- Clauses in the last bodies of those before stand for nested conditionals. -/
theorem standFor_nested :
    StandFor (chainSegments "\x7d else \x7b " (more.length + 1) first more last)
      (.nested b branches otherwise) := by
  obtain ⟨es, hnested, hread⟩ := exists_linear_nested hfirst hmore hlast 0
  refine standFor_of_linear ?_ hnested
  have hchain := Reads.control hfirst.test hread
  simpa only [chainSegments, Clause.segments, List.map_cons, List.map_nil, List.cons_append,
    List.nil_append, List.replicate_zero, List.append_nil, Nat.add_zero,
    String.empty_append] using hchain

end

end Stencil
