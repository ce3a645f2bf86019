import Stencil.Proofs.Linear

/-!
# The builder, event by event

How steps are grouped does not matter to the builder, so what it does is said for single events.

* `Builder.feed`, `Builder.feedAll`: the effect of events
* `Builder.Fed`: everything that one event can do
* `Builder.feedAll_depth`: the open blocks are those opened and not closed
* `Builder.puts_of_linear`: a linear form of statements puts them into the innermost block
-/

namespace Stencil

namespace Builder

/-- The effect of one event. -/
def feed (b : Builder) : Event → Except Error Builder
  | .literal text => .ok (b.add (.raw text))
  | .emit e => .ok (b.add (.emit e))
  | .control op => b.apply op

/-- The effect of several events. -/
def feedAll (b : Builder) (es : List Event) : Except Error Builder :=
  es.foldlM feed b

theorem feedAll_cons (b : Builder) (e : Event) (es : List Event) :
    b.feedAll (e :: es) = (b.feed e).bind fun b => b.feedAll es := rfl

theorem feedAll_append (b : Builder) (es es' : List Event) :
    b.feedAll (es ++ es') = (b.feedAll es).bind fun b => b.feedAll es' :=
  List.foldlM_append

/-- The effects of two runs of events, one after the other. -/
theorem feedAll_append_of_ok {b b' : Builder} {es es' : List Event} (h : b.feedAll es = .ok b') :
    b.feedAll (es ++ es') = b'.feedAll es' := by
  rw [feedAll_append, h]
  rfl

/-- Events that are taken have their first ones taken. -/
theorem exists_feedAll_of_prefix {b b' : Builder} {before es : List Event} (hbefore : before <+: es)
    (h : b.feedAll es = .ok b') : ∃ b₁, b.feedAll before = .ok b₁ := by
  obtain ⟨after, rfl⟩ := hbefore
  rw [feedAll_append] at h
  cases hb : b.feedAll before with
  | error err =>
    rw [hb] at h
    cases h
  | ok b₁ => exact ⟨b₁, rfl⟩

theorem foldlM_control (b : Builder) (ops : List BlockOp) :
    b.feedAll (ops.map .control) = ops.foldlM apply b := by
  rw [feedAll, List.foldlM_map]
  rfl

/-- Adding a step has the effect of its events. -/
theorem addStep_eq_feedAll (b : Builder) (s : Step) : b.addStep s = b.feedAll s.events := by
  cases s with
  | literal text => rfl
  | expr e => rfl
  | control ops => exact (foldlM_control b ops).symm

/-- Adding steps has the effect of their events, however they are grouped. -/
theorem foldlM_addStep (b : Builder) (steps : List Step) :
    steps.foldlM addStep b = b.feedAll (events steps) := by
  induction steps generalizing b with
  | nil => rfl
  | cons s rest ih =>
    rw [List.foldlM_cons, events, List.flatMap_cons, feedAll_append, ← addStep_eq_feedAll]
    cases b.addStep s with
    | ok b' => exact ih b'
    | error e => rfl

/-! ## Settling -/

@[simp] theorem settle_enclosing (b : Builder) : b.settle.enclosing = b.enclosing := by
  unfold settle
  split <;> rfl

@[simp] theorem settle_held (b : Builder) : b.settle.held = [] := by
  unfold settle
  split
  · assumption
  · rfl

theorem settle_of_held_nil {b : Builder} (h : b.held = []) : b.settle = b := by
  simp [settle, h]

theorem settle_of_held {b : Builder} (h : b.held ≠ []) :
    b.settle = { b with done := .cond b.held.reverse [] :: b.done, held := [] } := by
  unfold settle
  split
  · contradiction
  · rfl

@[simp] theorem settle_settle (b : Builder) : b.settle.settle = b.settle :=
  settle_of_held_nil b.settle_held

/-- The builder with some more statements in the innermost block. -/
def push (b : Builder) (body : List Stmt) : Builder :=
  { done := body.reverse ++ b.done, held := [], enclosing := b.enclosing }

/-- The builder in a new block. -/
def inside (b : Builder) (block : Block) : Builder :=
  { done := [], held := [], enclosing := (block, b.done) :: b.enclosing }

/-- The parts of a builder that holds nothing back. -/
theorem settle_eq (b : Builder) :
    b.settle = { done := b.settle.done, held := [], enclosing := b.enclosing } := by
  rw [← settle_held b, ← settle_enclosing b]

theorem add_eq_push (b : Builder) (s : Stmt) : b.add s = b.settle.push [s] := by
  rw [add, settle_eq b]
  rfl

@[simp] theorem settle_push (b : Builder) (body : List Stmt) :
    (b.push body).settle = b.push body :=
  settle_of_held_nil rfl

@[simp] theorem push_push (b : Builder) (first second : List Stmt) :
    (b.push first).push second = b.push (first ++ second) := by
  simp [push]

theorem settle_push_nil (b : Builder) : b.settle.push [] = b.settle := by
  rw [settle_eq b]
  rfl

/-! ## What one event can do -/

/-- The builder after a block is closed, if the block holds `body`. -/
def closed (block : Block) (before : List Stmt) (rest : List (Block × List Stmt))
    (body : List Stmt) : Builder :=
  match block with
  | .branch earlier test => { done := before, held := (test, body) :: earlier, enclosing := rest }
  | .otherwise branches =>
    { done := .cond branches.reverse body :: before, enclosing := rest }
  | .whileLoop test => { done := .whileLoop test body :: before, enclosing := rest }
  | .forLoop head => { done := loop head body :: before, enclosing := rest }

/-- The event takes one state of the builder to another one. -/
inductive Fed (b : Builder) : Event → Builder → Prop
  | literal (text : String) : Fed b (.literal text) (b.settle.push [.raw text])
  | emit (e : Expr) : Fed b (.emit e) (b.settle.push [.emit e])
  | empty : Fed b (.control .empty) b.settle
  | ifBlock {test : Expr} (h : b.enclosing.length < nestingLimit) :
      Fed b (.control (.ifBlock test)) (b.settle.inside (.branch [] test))
  | whileBlock {test : Expr} (h : b.enclosing.length < nestingLimit) :
      Fed b (.control (.whileBlock test)) (b.settle.inside (.whileLoop test))
  | forBlock {head : ForHead} (h : b.enclosing.length < nestingLimit) :
      Fed b (.control (.forBlock head)) (b.settle.inside (.forLoop head))
  | elseIfBlock {test : Expr} (held : b.held ≠ []) (h : b.enclosing.length < nestingLimit) :
      Fed b (.control (.elseIfBlock test)) (b.inside (.branch b.held test))
  | elseBlock (held : b.held ≠ []) (h : b.enclosing.length < nestingLimit) :
      Fed b (.control .elseBlock) (b.inside (.otherwise b.held))
  | close {block : Block} {before : List Stmt} {rest : List (Block × List Stmt)}
      (h : b.enclosing = (block, before) :: rest) :
      Fed b (.control .close) (closed block before rest b.settle.done.reverse)

theorem enter_eq_ok_iff {b b' : Builder} {block : Block} :
    b.enter block = .ok b' ↔ b.enclosing.length < nestingLimit ∧ b.inside block = b' := by
  unfold enter
  by_cases h : nestingLimit ≤ b.enclosing.length
  · rw [if_pos h]
    exact ⟨fun h' => absurd h' (by simp [tooDeep]), fun h' => absurd h'.1 (by omega)⟩
  · rw [if_neg h, Except.ok.injEq]
    exact ⟨fun h' => ⟨by omega, h'⟩, fun h' => h'.2⟩

theorem leave_of_enclosing {b : Builder} {block : Block} {before : List Stmt}
    {rest : List (Block × List Stmt)} (h : b.enclosing = (block, before) :: rest) :
    b.leave = .ok (closed block before rest b.settle.done.reverse) := by
  unfold leave
  simp only [settle_enclosing, h]
  cases block <;> simp [closed]

theorem continued_of_held {b : Builder} (h : b.held ≠ []) : b.continued = .ok b.held := by
  unfold continued
  split
  · contradiction
  · rfl

/-- What an event does is one of the things that `Fed` lists. -/
theorem feed_eq_ok_iff {b b' : Builder} {e : Event} : b.feed e = .ok b' ↔ Fed b e b' := by
  constructor
  · intro h
    cases e with
    | literal text => cases h; rw [add_eq_push]; exact .literal text
    | emit e => cases h; rw [add_eq_push]; exact .emit e
    | control op =>
      cases op with
      | ifBlock test =>
        obtain ⟨room, rfl⟩ := enter_eq_ok_iff.1 h
        exact .ifBlock (by simpa using room)
      | whileBlock test =>
        obtain ⟨room, rfl⟩ := enter_eq_ok_iff.1 h
        exact .whileBlock (by simpa using room)
      | forBlock head =>
        obtain ⟨room, rfl⟩ := enter_eq_ok_iff.1 h
        exact .forBlock (by simpa using room)
      | elseIfBlock test =>
        by_cases held : b.held = []
        · simp [feed, apply, continued, held, bind, Except.bind] at h
        · simp only [feed, apply, continued_of_held held] at h
          obtain ⟨room, rfl⟩ := enter_eq_ok_iff.1 h
          exact .elseIfBlock held room
      | elseBlock =>
        by_cases held : b.held = []
        · simp [feed, apply, continued, held, bind, Except.bind] at h
        · simp only [feed, apply, continued_of_held held] at h
          obtain ⟨room, rfl⟩ := enter_eq_ok_iff.1 h
          exact .elseBlock held room
      | close =>
        cases henc : b.enclosing with
        | nil => simp [feed, apply, leave, henc] at h
        | cons top rest =>
          rw [feed, apply, leave_of_enclosing henc] at h
          cases h
          exact .close henc
      | empty => cases h; exact .empty
  · intro h
    cases h with
    | literal text => rw [← add_eq_push]; rfl
    | emit e => rw [← add_eq_push]; rfl
    | empty => rfl
    | ifBlock h => exact enter_eq_ok_iff.2 ⟨by simpa using h, rfl⟩
    | whileBlock h => exact enter_eq_ok_iff.2 ⟨by simpa using h, rfl⟩
    | forBlock h => exact enter_eq_ok_iff.2 ⟨by simpa using h, rfl⟩
    | elseIfBlock held h =>
      simp only [feed, apply, continued_of_held held]
      exact enter_eq_ok_iff.2 ⟨h, rfl⟩
    | elseBlock held h =>
      simp only [feed, apply, continued_of_held held]
      exact enter_eq_ok_iff.2 ⟨h, rfl⟩
    | close h => exact leave_of_enclosing h

theorem feedAll_cons_of_fed {b b' : Builder} {e : Event} (h : Fed b e b') (es : List Event) :
    b.feedAll (e :: es) = b'.feedAll es := by
  rw [feedAll_cons, feed_eq_ok_iff.2 h]
  rfl

/-- Events that are taken are taken one after the other. -/
theorem exists_fed_of_feedAll_cons {b b' : Builder} {e : Event} {es : List Event}
    (h : b.feedAll (e :: es) = .ok b') : ∃ b₁, Fed b e b₁ ∧ b₁.feedAll es = .ok b' := by
  rw [feedAll_cons] at h
  cases hf : b.feed e with
  | error err =>
    rw [hf] at h
    cases h
  | ok b₁ =>
    rw [hf] at h
    exact ⟨b₁, feed_eq_ok_iff.1 hf, h⟩

/-! ## Depth -/

@[simp] theorem closed_enclosing (block : Block) (before : List Stmt)
    (rest : List (Block × List Stmt)) (body : List Stmt) :
    (closed block before rest body).enclosing = rest := by
  cases block <;> rfl

/-- The open blocks are those that were opened and not closed. -/
theorem Fed.depth {b b' : Builder} {e : Event} (h : Fed b e b') :
    [e].countP Event.opens + b.enclosing.length =
      [e].countP Event.closes + b'.enclosing.length := by
  cases h with
  | close h =>
    simp only [h, closed_enclosing, List.length_cons]
    simp [Event.opens, Event.closes, BlockOp.opens, BlockOp.closes, Nat.add_comm]
  | _ => simp [push, inside, Event.opens, Event.closes, BlockOp.opens, BlockOp.closes,
      Nat.add_comm]

theorem feedAll_depth {b b' : Builder} {es : List Event} (h : b.feedAll es = .ok b') :
    es.countP Event.opens + b.enclosing.length =
      es.countP Event.closes + b'.enclosing.length := by
  induction es generalizing b with
  | nil => cases h; rfl
  | cons e rest ih =>
    obtain ⟨b₁, hfed, hrest⟩ := exists_fed_of_feedAll_cons h
    have hhead := hfed.depth
    have htail := ih hrest
    rw [← List.singleton_append, List.countP_append, List.countP_append]
    omega

/-- No event opens more blocks than the limit. -/
theorem Fed.enclosing_le {b b' : Builder} {e : Event} (h : Fed b e b')
    (hb : b.enclosing.length ≤ nestingLimit) : b'.enclosing.length ≤ nestingLimit := by
  cases h with
  | close h =>
    rw [h, List.length_cons] at hb
    rw [closed_enclosing]
    omega
  | _ => simpa [push, inside]

theorem feedAll_enclosing_le {b b' : Builder} {es : List Event} (h : b.feedAll es = .ok b')
    (hb : b.enclosing.length ≤ nestingLimit) : b'.enclosing.length ≤ nestingLimit := by
  induction es generalizing b with
  | nil => cases h; exact hb
  | cons e rest ih =>
    obtain ⟨b₁, hfed, hrest⟩ := exists_fed_of_feedAll_cons h
    exact ih hrest (hfed.enclosing_le hb)

/-- Events that the builder takes have at most as many blocks open as the limit says. -/
theorem nestedWithin_of_feedAll {b : Builder} {es : List Event}
    (h : feedAll {} es = .ok b) : NestedWithin nestingLimit es := by
  intro before hbefore
  obtain ⟨b₁, hb⟩ := exists_feedAll_of_prefix hbefore h
  have hdepth := feedAll_depth hb
  have hle := feedAll_enclosing_le hb (Nat.zero_le _)
  simp only [List.length_nil, Nat.add_zero] at hdepth
  omega

/-- From this state on the events do not open more blocks than the limit allows. -/
def Room (b : Builder) (es : List Event) : Prop :=
  ∀ before, before <+: es →
    before.countP Event.opens + b.enclosing.length ≤
      before.countP Event.closes + nestingLimit

theorem Room.left {b : Builder} {es es' : List Event} (h : b.Room (es ++ es')) : b.Room es :=
  fun before hbefore => h before (hbefore.trans (List.prefix_append es es'))

theorem Room.right {b b' : Builder} {es es' : List Event} (h : b.Room (es ++ es'))
    (hf : b.feedAll es = .ok b') : b'.Room es' := by
  intro before hbefore
  have hall := h (es ++ before) ((List.prefix_append_right_inj es).2 hbefore)
  have hdepth := feedAll_depth hf
  rw [List.countP_append, List.countP_append] at hall
  omega

theorem Room.tail {b b' : Builder} {e : Event} {es : List Event} (h : b.Room (e :: es))
    (hf : Fed b e b') : b'.Room es := by
  rw [← List.singleton_append] at h
  exact h.right (feedAll_cons_of_fed hf [])

theorem Room.enclosing_lt {b : Builder} {e : Event} {es : List Event} (h : b.Room (e :: es))
    (hopens : [e].countP Event.opens = 1) (hcloses : [e].countP Event.closes = 0) :
    b.enclosing.length < nestingLimit := by
  have := h [e] ⟨es, rfl⟩
  omega

/-! ## Linear forms are built -/

/-- The builder takes the events, and they put the statements into the innermost block. -/
def Puts (b : Builder) (es : List Event) (body : List Stmt) : Prop :=
  ∃ b', b.feedAll es = .ok b' ∧ b'.settle = b.settle.push body

/-- An event that puts a statement, and then events that put more of them. -/
theorem Puts.cons {b b₁ : Builder} {e : Event} {es : List Event} {first rest : List Stmt}
    (hf : Fed b e b₁) (hfirst : b₁.settle = b.settle.push first) (h : b₁.Puts es rest) :
    b.Puts (e :: es) (first ++ rest) := by
  obtain ⟨b', hrun, hb'⟩ := h
  refine ⟨b', ?_, ?_⟩
  · rw [feedAll_cons_of_fed hf, hrun]
  · rw [hb', hfirst, push_push]

/-- A block that is opened, filled and closed leaves the builder in the state in which the block is
closed around its body. -/
theorem feedAll_block {b b₀ : Builder} {block : Block} {e : Event} {inner es : List Event}
    {body : List Stmt} (hopen : Fed b e (b₀.inside block))
    (hinner : ∀ b : Builder, b.Room inner → b.Puts inner body)
    (hroom : b.Room (e :: (inner ++ .control .close :: es))) :
    b.feedAll (e :: (inner ++ .control .close :: es)) =
        (closed block b₀.done b₀.enclosing body).feedAll es ∧
      (closed block b₀.done b₀.enclosing body).Room es := by
  have hroom₁ := hroom.tail hopen
  obtain ⟨b₂, hrun, hb₂⟩ := hinner (b₀.inside block) hroom₁.left
  have henc : b₂.enclosing = (block, b₀.done) :: b₀.enclosing := by
    rw [← settle_enclosing, hb₂]
    rfl
  have hbody : b₂.settle.done.reverse = body := by
    rw [hb₂, settle_of_held_nil rfl]
    simp [push, inside]
  have hclose := Fed.close henc
  rw [hbody] at hclose
  refine ⟨?_, (hroom₁.right hrun).tail hclose⟩
  rw [feedAll_cons_of_fed hopen, feedAll_append_of_ok hrun, feedAll_cons_of_fed hclose]

/-- A loop or another block that is a statement by itself puts that statement. -/
theorem Puts.block {b : Builder} {block : Block} {e : Event} {inner es : List Event}
    {body rest : List Stmt} {s : Stmt} (hopen : Fed b e (b.settle.inside block))
    (hclosed : closed block b.settle.done b.settle.enclosing body = b.settle.push [s])
    (hinner : ∀ b : Builder, b.Room inner → b.Puts inner body)
    (hrest : ∀ b : Builder, b.Room es → b.Puts es rest)
    (hroom : b.Room (e :: (inner ++ .control .close :: es))) :
    b.Puts (e :: (inner ++ .control .close :: es)) (s :: rest) := by
  obtain ⟨hrun, hroom'⟩ := feedAll_block hopen hinner hroom
  rw [hclosed] at hrun hroom'
  obtain ⟨b', hrun', hb'⟩ := hrest _ hroom'
  refine ⟨b', hrun.trans hrun', ?_⟩
  rw [hb', settle_push, push_push]
  rfl

/-- The builder with the conditional that it holds back finished. -/
def resolve (b : Builder) (more : List Branch) (otherwise : List Stmt) : Builder :=
  { b with done := .cond (b.held.reverse ++ more) otherwise :: b.done, held := [] }

/-- The builder takes the events, and they finish the conditional that it holds back. -/
def Resolves (b : Builder) (es : List Event) (more : List Branch) (otherwise : List Stmt) : Prop :=
  ∃ b', b.feedAll es = .ok b' ∧ b'.settle = b.resolve more otherwise

/-- A linear form of statements puts them into the innermost block, wherever it is read with enough
room. -/
theorem puts_of_linear {body : List Stmt} {es : List Event} (h : Linear body es) :
    ∀ b : Builder, b.Room es → b.Puts es body := by
  refine @Linear.rec
    (fun body es _ => ∀ b : Builder, b.Room es → b.Puts es body)
    (fun more otherwise es _ =>
      ∀ b : Builder, b.held ≠ [] → b.Room es → b.Resolves es more otherwise)
    ?nil ?empty ?raw ?emit ?whileLoop ?forLoop ?forEach ?cond ?stop ?otherwise ?branch body es h
  case nil =>
    intro b _
    exact ⟨b, rfl, (settle_push_nil b).symm⟩
  case empty =>
    intro _ _ _ ih b hroom
    have hf : Fed b (.control .empty) b.settle := .empty
    have hkeep : b.settle.settle = b.settle.push [] := by rw [settle_settle, settle_push_nil]
    exact Puts.cons hf hkeep (ih _ (hroom.tail hf))
  case raw =>
    intro text _ _ _ ih b hroom
    have hf : Fed b (.literal text) (b.settle.push [.raw text]) := .literal text
    exact Puts.cons hf (settle_push _ _) (ih _ (hroom.tail hf))
  case emit =>
    intro e _ _ _ ih b hroom
    have hf : Fed b (.emit e) (b.settle.push [.emit e]) := .emit e
    exact Puts.cons hf (settle_push _ _) (ih _ (hroom.tail hf))
  case whileLoop =>
    intro test body rest inner es _ _ ihbody ihrest b hroom
    exact Puts.block (.whileBlock (hroom.enclosing_lt rfl rfl)) rfl ihbody ihrest hroom
  case forLoop =>
    intro init test update body rest inner es _ _ ihbody ihrest b hroom
    exact Puts.block (.forBlock (hroom.enclosing_lt rfl rfl)) rfl ihbody ihrest hroom
  case forEach =>
    intro binding kind subject body rest inner es _ _ ihbody ihrest b hroom
    exact Puts.block (.forBlock (hroom.enclosing_lt rfl rfl)) rfl ihbody ihrest hroom
  case cond =>
    intro test body more otherwise rest inner tail es _ _ _ ihbody ihmore ihrest b hroom
    have hopen : Fed b (.control (.ifBlock test)) (b.settle.inside (.branch [] test)) :=
      .ifBlock (hroom.enclosing_lt rfl rfl)
    obtain ⟨hrun, hroom₁⟩ := feedAll_block hopen ihbody hroom
    -- the first branch is held back now, and the events in `tail` add the others to it
    obtain ⟨b₂, hrun₂, hb₂⟩ := ihmore _ (List.cons_ne_nil _ _) hroom₁.left
    obtain ⟨b', hrun', hb'⟩ := ihrest b₂ (hroom₁.right hrun₂)
    refine ⟨b', ?_, ?_⟩
    · rw [hrun, feedAll_append_of_ok hrun₂, hrun']
    · rw [hb', hb₂]
      simp [resolve, push, closed]
  case stop =>
    intro b held _
    refine ⟨b, rfl, ?_⟩
    rw [settle_of_held held, resolve, List.append_nil]
  case otherwise =>
    intro body inner _ ih b held hroom
    have hopen : Fed b (.control .elseBlock) (b.inside (.otherwise b.held)) :=
      .elseBlock held (hroom.enclosing_lt rfl rfl)
    obtain ⟨hrun, -⟩ := feedAll_block hopen ih hroom
    refine ⟨_, hrun, ?_⟩
    rw [settle_of_held_nil rfl, resolve, List.append_nil]
    rfl
  case branch =>
    intro test body more otherwise inner tail _ _ ihbody ihmore b held hroom
    have hopen : Fed b (.control (.elseIfBlock test)) (b.inside (.branch b.held test)) :=
      .elseIfBlock held (hroom.enclosing_lt rfl rfl)
    obtain ⟨hrun, hroom₁⟩ := feedAll_block hopen ihbody hroom
    obtain ⟨b', hrun', hb'⟩ := ihmore _ (List.cons_ne_nil _ _) hroom₁
    refine ⟨b', hrun.trans hrun', ?_⟩
    rw [hb']
    simp [resolve, closed]

end Builder

end Stencil
