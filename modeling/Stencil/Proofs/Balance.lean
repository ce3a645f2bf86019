import Stencil.Engine
import Stencil.Proofs.Building
import Stencil.Proofs.Reading.Braces
import Stencil.Proofs.Reading.Standalone
import Stencil.Proofs.Stretches

/-!
# Balanced braces

The braces in the fragments of a template are those of its blocks. A template is read only if they
are balanced, and then no more of them are open at any point than blocks may be.

* `Balanced`, `BracesWithin`: every brace has a partner, and few are open at any point
* `Source.braces`: the braces in all fragments of a source
* `braces_of_build`: the braces of steps that are built into statements
* `braces_conserved`: the main statement
-/

namespace Stencil

/-! ## Balance -/

/-- At any point no more braces were closed than were opened, and in the end as many. -/
structure Balanced (bs : List Token) : Prop where
  opened : ∀ before, before <+: bs →
    before.count (.mark .closeBrace) ≤ before.count (.mark .openBrace)
  closed : bs.count (.mark .openBrace) = bs.count (.mark .closeBrace)

/-- At most `limit` braces are open at any point. -/
def BracesWithin (limit : Nat) (bs : List Token) : Prop :=
  ∀ before, before <+: bs →
    before.count (.mark .openBrace) ≤ before.count (.mark .closeBrace) + limit

namespace Source

/-- The braces among the tokens of a segment. -/
def Segment.braces : Segment → Except Error (List Token)
  | .literal _ => .ok []
  | .fragment interior => (Lexer.tokens interior).map Stencil.braces

/-- The braces among the tokens of all fragments of a source, in order. A quoted text is one token,
so what stands in it does not count. -/
def braces (source : List Char) : Except Error (List Token) :=
  ((segments source).mapM Segment.braces).map List.flatten

end Source

/-! ## Braces of steps -/

/-- The brace that an event stands for. -/
def Event.brace? : Event → Option Token
  | .control op => op.brace?
  | .literal _ | .emit _ => none

theorem Step.filterMap_events (step : Step) :
    step.events.filterMap Event.brace? = step.braces := by
  cases step with
  | literal text => rfl
  | expr e => rfl
  | control ops =>
    rw [Step.events, Step.braces, List.filterMap_map]
    rfl

theorem filterMap_events (steps : List Step) :
    (events steps).filterMap Event.brace? = steps.flatMap Step.braces := by
  induction steps with
  | nil => rfl
  | cons step rest ih =>
    rw [events, List.flatMap_cons, List.filterMap_append, List.flatMap_cons, ← ih,
      step.filterMap_events]
    rfl

theorem count_openBrace (es : List Event) :
    (es.filterMap Event.brace?).count (.mark .openBrace) = es.countP Event.opens := by
  rw [List.count, List.countP_filterMap]
  refine List.countP_congr fun e _ => ?_
  cases e with
  | literal text => simp [Event.brace?, Event.opens]
  | emit e => simp [Event.brace?, Event.opens]
  | control op => cases op <;> simp [Event.brace?, BlockOp.brace?, Event.opens, BlockOp.opens]

theorem count_closeBrace (es : List Event) :
    (es.filterMap Event.brace?).count (.mark .closeBrace) = es.countP Event.closes := by
  rw [List.count, List.countP_filterMap]
  refine List.countP_congr fun e _ => ?_
  cases e with
  | literal text => simp [Event.brace?, Event.closes]
  | emit e => simp [Event.brace?, Event.closes]
  | control op => cases op <;> simp [Event.brace?, BlockOp.brace?, Event.closes, BlockOp.closes]

/-- Events that the builder takes close only what was opened. -/
theorem Builder.closes_le_opens {b : Builder} {es : List Event}
    (h : Builder.feedAll {} es = .ok b) :
    es.countP Event.closes ≤ es.countP Event.opens := by
  have hdepth := Builder.feedAll_depth h
  simp only [List.length_nil, Nat.add_zero] at hdepth
  omega

/-- Steps that are built into statements stand for balanced braces. -/
theorem braces_of_build {steps : List Step} {body : List Stmt} (h : build steps = .ok body) :
    Balanced (steps.flatMap Step.braces) ∧
      BracesWithin nestingLimit (steps.flatMap Step.braces) := by
  rw [build_eq_feedAll] at h
  obtain ⟨b, hfeed, hfinish⟩ := Except.bind_eq_ok_iff.1 h
  obtain ⟨henclosing, -⟩ := Builder.finish_eq_ok_iff.1 hfinish
  rw [← filterMap_events]
  refine ⟨⟨?opened, ?closed⟩, ?within⟩
  case closed =>
    have hdepth := Builder.feedAll_depth hfeed
    rw [henclosing] at hdepth
    rw [count_openBrace, count_closeBrace]
    exact hdepth
  case opened =>
    rintro before ⟨after, hsplit⟩
    obtain ⟨es, es', heq, rfl, -⟩ := List.filterMap_eq_append_iff.1 hsplit.symm
    obtain ⟨b₁, hbefore⟩ := Builder.exists_feedAll_of_prefix ⟨es', heq.symm⟩ hfeed
    rw [count_openBrace, count_closeBrace]
    exact Builder.closes_le_opens hbefore
  case within =>
    rintro before ⟨after, hsplit⟩
    obtain ⟨es, es', heq, rfl, -⟩ := List.filterMap_eq_append_iff.1 hsplit.symm
    rw [count_openBrace, count_closeBrace]
    exact Builder.nestedWithin_of_feedAll hfeed es ⟨es', heq.symm⟩

/-! ## Braces of sources -/

theorem Step.ofSegment_braces {segment : Source.Segment} {step : Step}
    (h : Step.ofSegment segment = .ok step) : segment.braces = .ok step.braces := by
  cases segment with
  | literal text =>
    cases h
    rfl
  | fragment interior =>
    obtain ⟨ts, hts, hbraces⟩ := Step.ofInterior_braces h
    rw [Source.Segment.braces, hts, hbraces]
    rfl

theorem mapM_braces {segments : List Source.Segment} {steps : List Step}
    (h : segments.mapM Step.ofSegment = .ok steps) :
    segments.mapM Source.Segment.braces = .ok (steps.map Step.braces) := by
  induction segments generalizing steps with
  | nil =>
    cases h
    rfl
  | cons segment rest ih =>
    rw [List.mapM_cons] at h ⊢
    obtain ⟨step, hstep, hrest⟩ := Except.bind_eq_ok_iff.1 h
    obtain ⟨others, hothers, hsteps⟩ := Except.bind_eq_ok_iff.1 hrest
    cases hsteps
    rw [Step.ofSegment_braces hstep, ih hothers]
    rfl

theorem Step.ofSource_braces {source : List Char} {steps : List Step}
    (h : Step.ofSource source = .ok steps) :
    Source.braces source = .ok (steps.flatMap Step.braces) := by
  rw [Source.braces, mapM_braces h, List.flatMap_def]
  rfl

/-- The braces in a template that is read are balanced, and few of them are open at any point. -/
theorem Environment.braces_of_compile {env : Environment} {source : String} {t : Template}
    (h : env.compile source = .ok t) :
    ∃ bs, Source.braces (Source.normalizeString source).toList = .ok bs ∧
      Balanced bs ∧ BracesWithin nestingLimit bs := by
  obtain ⟨body, hbody, -⟩ := Except.bind_eq_ok_iff.1 h
  obtain ⟨steps, hsteps, hbuild⟩ := Except.bind_eq_ok_iff.1 hbody
  exact ⟨_, Step.ofSource_braces hsteps, braces_of_build hbuild⟩

/-- A source that is not a template is not run. -/
theorem Environment.render_of_error {env : Environment} {source : String} {e : Error}
    (h : env.compile source = .error e) (host : Host) (rounds : Nat) (c : Context) :
    env.render host rounds source c = (.error (.error e), c.withEscaper) := by
  rw [Environment.render, h]

/-- **Braces are conserved.** The braces in a fragment that is a group of operations are those that
the operations stand for, in order, and a fragment without a brace that is read is an expression. So
the braces in a template that is read are balanced, with at most 150 of them open at any point, and
a source whose braces are not balanced is rejected before anything is run. -/
theorem braces_conserved (env : Environment) :
    (∀ interior ops, Step.ofInterior interior = .ok (.control ops) →
      ∃ ts, Lexer.tokens interior = .ok ts ∧ braces ts = ops.filterMap BlockOp.brace?) ∧
    (∀ interior ts step, Lexer.tokens interior = .ok ts → braces ts = [] →
      Step.ofInterior interior = .ok step → ∃ e, step = .expr e) ∧
    (∀ source t, env.compile source = .ok t →
      ∃ bs, Source.braces (Source.normalizeString source).toList = .ok bs ∧
        Balanced bs ∧ BracesWithin 150 bs) ∧
    ∀ source,
      (∀ bs, Source.braces (Source.normalizeString source).toList = .ok bs → ¬ Balanced bs) →
      ∃ e, env.compile source = .error e ∧ ∀ host rounds c,
        env.render host rounds source c = (.error (.error e), c.withEscaper) := by
  refine ⟨?control, ?expr, fun source t h => env.braces_of_compile h, ?rejected⟩
  case control =>
    intro interior ops h
    obtain ⟨ts, hts, hbraces⟩ := Step.ofInterior_braces h
    exact ⟨ts, hts, hbraces.symm⟩
  case expr =>
    intro interior ts step hts hnone h
    rw [Step.ofInterior, hts] at h
    exact Step.ofTokens_expr hnone step h
  case rejected =>
    intro source hunbalanced
    cases hcompile : env.compile source with
    | error e => exact ⟨e, rfl, env.render_of_error hcompile⟩
    | ok t =>
      obtain ⟨bs, hbs, hbalanced, -⟩ := env.braces_of_compile hcompile
      exact absurd hbalanced (hunbalanced bs hbs)

theorem ofInterior_else :
    Step.ofInterior "\x7d else \x7b".toList = .ok (.control [.close, .elseBlock]) := by
  have htokens : Lexer.tokens "\x7d else \x7b".toList =
      .ok [.mark .closeBrace, .name "else", .mark .openBrace] := by
    decide +kernel
  rw [Step.ofInterior, htokens]
  rfl

theorem tokens_quotedBrace : Lexer.tokens "'\x7d'".toList = .ok [.text "\x7d"] := by
  decide +kernel

theorem ofInterior_quotedBrace :
    Step.ofInterior "'\x7d'".toList = .ok (.expr (.const (.string "\x7d"))) := by
  have hderives : Derives 0 (.const (.string "\x7d")) [.text "\x7d"] :=
    Derives.of_le (.leaf (.text "\x7d")) (Nat.zero_le 9)
  have hread := (Reader.standalone_of_derives hderives).2 (by decide)
  rw [Step.ofInterior, tokens_quotedBrace, Except.ok_bind, Step.ofTokens, if_neg (by decide), hread]
  rfl

/-- A loop without a test around a text. -/
def endlessLoop : String :=
  "<% for (;;) \x7b %>a<% \x7d %>"

theorem compile_endlessLoop :
    ({} : Environment).compile endlessLoop =
      .ok { source := endlessLoop, environment := {}
            body := [.forLoop none none none [.raw "a"]] } := by
  have htokens : Lexer.tokens "for (;;) \x7b".toList =
      .ok [.name "for", .mark .openParen, .mark .semicolon, .mark .semicolon, .mark .closeParen,
        .mark .openBrace] := by
    decide +kernel
  have hfor : Step.ofInterior "for (;;) \x7b".toList =
      .ok (.control [.forBlock (.clauses none none none)]) := by
    rw [Step.ofInterior, htokens]
    rfl
  have hvalid := List.forall_mem_cons.2
    ⟨Source.Stretch.valid_of_interior ⟨by decide, by decide, rfl⟩ hfor,
      List.forall_mem_singleton.2 (⟨⟨by decide, by decide⟩, ⟨by decide, by decide, rfl⟩,
        Step.ofInterior_close⟩ : Source.Stretch.Valid ⟨['a'], ['\x7d'], .control [.close]⟩)⟩
  have htext : String.ofList (List.flatMap Source.Stretch.text
      [⟨[], "for (;;) \x7b".toList, .control [.forBlock (.clauses none none none)]⟩,
        ⟨['a'], ['\x7d'], .control [.close]⟩]) = endlessLoop := by
    rw [← String.toList_inj, String.toList_ofList]
    rfl
  have hcompile := Environment.compile_stretches {} hvalid rfl
  rwa [htext] at hcompile

theorem braces_strayClose :
    Source.braces (Source.normalizeString "<% \x7d %>").toList = .ok [.mark .closeBrace] := by
  rw [Source.toList_normalizeString]
  decide +kernel

/-- An `else` between two braces, a brace in a quoted text, a loop, and a brace that closes
nothing. -/
theorem braces_conserved_each :
    (∃ ts, Lexer.tokens "\x7d else \x7b".toList = .ok ts ∧
      braces ts = [.mark .closeBrace, .mark .openBrace]) ∧
    (∃ step, Step.ofInterior "'\x7d'".toList = .ok step ∧ ∃ e, step = .expr e) ∧
    (∃ bs, Source.braces (Source.normalizeString endlessLoop).toList = .ok bs ∧
      Balanced bs ∧ BracesWithin 150 bs) ∧
    ∃ e, ({} : Environment).compile "<% \x7d %>" = .error e ∧ ∀ host rounds c,
      ({} : Environment).render host rounds "<% \x7d %>" c =
        (.error (.error e), c.withEscaper) := by
  obtain ⟨hcontrol, hexpr, hcompile, hrejected⟩ := braces_conserved {}
  refine ⟨?control, ?expr, ?loop, ?stray⟩
  case control => exact hcontrol _ _ ofInterior_else
  case expr =>
    exact ⟨_, ofInterior_quotedBrace, hexpr _ _ _ tokens_quotedBrace rfl ofInterior_quotedBrace⟩
  case loop => exact hcompile _ _ compile_endlessLoop
  case stray =>
    refine hrejected _ fun bs hbs hbalanced => ?_
    rw [braces_strayClose] at hbs
    cases hbs
    have hopened := hbalanced.opened _ (List.prefix_refl _)
    exact absurd hopened (by decide)

end Stencil
