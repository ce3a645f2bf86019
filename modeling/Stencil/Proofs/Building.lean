import Stencil.Proofs.Feeding

/-!
# What is built from a sequence of steps

A sequence of steps is built into statements exactly if it is a linear form of them with at most 150
blocks open at any point. Any other sequence is malformed.

* `Represents`: which events lead to a state of the builder
* `Represents.fed`: one more event leads to the state after it
* `build_eq_ok_iff_linear`: the main statement
-/

namespace Stencil

/-! ## What is built has the events as a linear form -/

/-- The events of the branches of a conditional, newest branch first. -/
inductive Chain : List Branch → List Event → Prop
  | first {test : Expr} {body : List Stmt} {inner : List Event} :
      Linear body inner →
      Chain [(test, body)] (.control (.ifBlock test) :: (inner ++ [.control .close]))
  | next {earlier : List Branch} {test : Expr} {body : List Stmt} {es inner : List Event} :
      Chain earlier es → Linear body inner →
      Chain ((test, body) :: earlier)
        (es ++ .control (.elseIfBlock test) :: (inner ++ [.control .close]))

/-- The events that opened a block. They hold all branches before it if the block is part of a
conditional. -/
inductive Opened : Block → List Event → Prop
  | ifBlock {test : Expr} : Opened (.branch [] test) [.control (.ifBlock test)]
  | elseIfBlock {earlier : List Branch} {test : Expr} {es : List Event} :
      Chain earlier es → Opened (.branch earlier test) (es ++ [.control (.elseIfBlock test)])
  | elseBlock {branches : List Branch} {es : List Event} :
      Chain branches es → Opened (.otherwise branches) (es ++ [.control .elseBlock])
  | whileBlock {test : Expr} : Opened (.whileLoop test) [.control (.whileBlock test)]
  | forBlock {head : ForHead} : Opened (.forLoop head) [.control (.forBlock head)]

/-- The events up to the body of the innermost open block. -/
inductive Enclosed : List (Block × List Stmt) → List Event → Prop
  | nil : Enclosed [] []
  | cons {block : Block} {before : List Stmt} {rest : List (Block × List Stmt)}
      {outer done opening : List Event} :
      Enclosed rest outer → Linear before.reverse done → Opened block opening →
      Enclosed ((block, before) :: rest) (outer ++ (done ++ opening))

/-- The events of a conditional that is held back, if there is one. -/
def Held (branches : List Branch) (es : List Event) : Prop :=
  branches = [] ∧ es = [] ∨ Chain branches es

/-- The events lead to the state of the builder. -/
def Represents (b : Builder) (es : List Event) : Prop :=
  ∃ outer done held, Enclosed b.enclosing outer ∧ Linear b.done.reverse done ∧
    Held b.held held ∧ es = outer ++ (done ++ held)

theorem Chain.ne_nil {branches : List Branch} {es : List Event} (h : Chain branches es) :
    branches ≠ [] := by
  cases h <;> exact List.cons_ne_nil _ _

/-- Branches and what continues them are a linear form of a conditional. -/
theorem Chain.linear {branches : List Branch} {es : List Event} (h : Chain branches es) :
    ∀ {more : List Branch} {otherwise : List Stmt} {tail : List Event},
      Continued more otherwise tail →
      Linear [.cond (branches.reverse ++ more) otherwise] (es ++ tail) := by
  induction h with
  | first hbody =>
    intro more otherwise tail hmore
    simpa using Linear.cond hbody hmore .nil
  | next _ hbody ih =>
    intro more otherwise tail hmore
    simpa using ih (.branch hbody hmore)

theorem Held.linear {branches : List Branch} {es : List Event} (h : Held branches es)
    (hne : branches ≠ []) : Linear [.cond branches.reverse []] es := by
  rcases h with ⟨rfl, -⟩ | h
  · exact absurd rfl hne
  · simpa using h.linear .nil

/-- After the conditional that is held back is put into the body, the events split into those of the
blocks around and those of the body. -/
theorem Represents.settled {b : Builder} {es : List Event} (h : Represents b es) :
    ∃ outer done, Enclosed b.enclosing outer ∧ Linear b.settle.done.reverse done ∧
      es = outer ++ done := by
  obtain ⟨outer, done, held, hout, hdone, hheld, rfl⟩ := h
  refine ⟨outer, done ++ held, hout, ?_, rfl⟩
  by_cases hb : b.held = []
  · have hnil : held = [] := by
      rcases hheld with ⟨-, h⟩ | h
      · exact h
      · exact absurd hb h.ne_nil
    rw [Builder.settle_of_held_nil hb, hnil, List.append_nil]
    exact hdone
  · rw [Builder.settle_of_held hb]
    simpa using hdone.append (hheld.linear hb)

/-- A block that is closed: the events that opened it, its body and the closing event become a
statement, or the newest branch of a conditional that is held back. -/
theorem Opened.closed {block : Block} {before body : List Stmt}
    {rest : List (Block × List Stmt)} {outer done opening inner : List Event}
    (h : Opened block opening) (hout : Enclosed rest outer) (hdone : Linear before.reverse done)
    (hbody : Linear body inner) :
    Represents (Builder.closed block before rest body)
      (outer ++ (done ++ (opening ++ (inner ++ [.control .close])))) := by
  have hput : ∀ {s : Stmt}, Linear [s] (opening ++ (inner ++ [.control .close])) →
      Represents { done := s :: before, enclosing := rest }
        (outer ++ (done ++ (opening ++ (inner ++ [.control .close])))) := by
    intro s hs
    have hbody := hdone.append hs
    rw [← List.reverse_cons] at hbody
    exact ⟨outer, _, [], hout, hbody, .inl ⟨rfl, rfl⟩, by simp⟩
  cases h with
  | ifBlock => exact ⟨outer, done, _, hout, hdone, .inr (.first hbody), by simp⟩
  | elseIfBlock hchain =>
    exact ⟨outer, done, _, hout, hdone, .inr (.next hchain hbody), by simp⟩
  | elseBlock hchain =>
    refine hput ?_
    simpa using hchain.linear (.otherwise hbody)
  | whileBlock => exact hput (by simpa using Linear.whileLoop hbody .nil)
  | @forBlock head =>
    cases head with
    | clauses init test update =>
      exact hput (by simpa [Builder.loop] using Linear.forLoop hbody .nil)
    | each binding kind subject =>
      exact hput (by simpa [Builder.loop] using Linear.forEach hbody .nil)

/-- A statement that is put into the innermost block. -/
theorem Represents.push {b : Builder} {es : List Event} {body : List Stmt} {inner : List Event}
    (h : Represents b es) (hs : Linear body inner) :
    Represents (b.settle.push body) (es ++ inner) := by
  obtain ⟨outer, done, hout, hdone, rfl⟩ := h.settled
  refine ⟨outer, done ++ inner, [], ?_, ?_, .inl ⟨rfl, rfl⟩, by simp⟩
  · simpa [Builder.push] using hout
  · simpa [Builder.push] using hdone.append hs

/-- A block that is opened after the statements so far. -/
theorem Represents.inside {b : Builder} {es : List Event} {block : Block} {opening : List Event}
    (h : Represents b es) (ho : Opened block opening) :
    Represents (b.settle.inside block) (es ++ opening) := by
  obtain ⟨outer, done, hout, hdone, rfl⟩ := h.settled
  refine ⟨_, [], [], .cons (by simpa using hout) hdone ho, .nil, .inl ⟨rfl, rfl⟩, by simp⟩

/-- A block that continues the conditional that is held back. -/
theorem Represents.continue {b : Builder} {es : List Event} {block : Block} {e : Event}
    (h : Represents b es) (hne : b.held ≠ [])
    (ho : ∀ {es}, Chain b.held es → Opened block (es ++ [e])) :
    Represents (b.inside block) (es ++ [e]) := by
  obtain ⟨outer, done, held, hout, hdone, hheld, rfl⟩ := h
  rcases hheld with ⟨hnil, -⟩ | hchain
  · exact absurd hnil hne
  · exact ⟨_, [], [], .cons hout hdone (ho hchain), .nil, .inl ⟨rfl, rfl⟩, by simp⟩

/-- One more event leads to the state after it. -/
theorem Represents.fed {b b' : Builder} {es : List Event} {e : Event} (h : Represents b es)
    (hf : Builder.Fed b e b') : Represents b' (es ++ [e]) := by
  cases hf with
  | literal text => exact h.push (.raw .nil)
  | emit e => exact h.push (.emit .nil)
  | empty =>
    have := h.push (.empty .nil)
    rwa [Builder.settle_push_nil] at this
  | ifBlock _ => exact h.inside .ifBlock
  | whileBlock _ => exact h.inside .whileBlock
  | forBlock _ => exact h.inside .forBlock
  | elseIfBlock hne _ => exact h.continue hne .elseIfBlock
  | elseBlock hne _ => exact h.continue hne .elseBlock
  | close henc =>
    obtain ⟨outer, done, hout, hdone, rfl⟩ := h.settled
    rw [henc] at hout
    cases hout with
    | cons hout' hbefore ho => simpa using ho.closed hout' hbefore hdone

theorem Represents.feedAll {b b' : Builder} {before es : List Event} (h : Represents b before)
    (hf : b.feedAll es = .ok b') : Represents b' (before ++ es) := by
  induction es generalizing b before with
  | nil =>
    cases hf
    rwa [List.append_nil]
  | cons e rest ih =>
    obtain ⟨b₁, hfed, hrest⟩ := Builder.exists_fed_of_feedAll_cons hf
    have hall := ih (h.fed hfed) hrest
    rwa [List.append_assoc] at hall

theorem represents_empty : Represents {} [] :=
  ⟨[], [], [], .nil, .nil, .inl ⟨rfl, rfl⟩, rfl⟩

/-! ## Failures -/

namespace Builder

/-- An event that the builder does not take makes the template malformed. -/
theorem feed_error {b : Builder} {e : Event} {err : Error} (h : b.feed e = .error err) :
    ∃ cause, err = .malformed cause := by
  have henter : ∀ {b : Builder} {block : Block}, b.enter block = .error err →
      ∃ cause, err = .malformed cause := by
    intro b block h
    unfold enter at h
    split at h
    · cases h
      exact ⟨_, rfl⟩
    · cases h
  have hcontinue : ∀ {block : List Branch → Block},
      (b.continued.bind fun held => b.enter (block held)) = .error err →
      ∃ cause, err = .malformed cause := by
    intro block h
    unfold continued at h
    split at h
    · cases h
      exact ⟨_, rfl⟩
    · exact henter h
  cases e with
  | literal text => cases h
  | emit e => cases h
  | control op =>
    cases op with
    | ifBlock test => exact henter h
    | elseIfBlock test => exact hcontinue h
    | elseBlock => exact hcontinue h
    | whileBlock test => exact henter h
    | forBlock head => exact henter h
    | close =>
      cases henc : b.enclosing with
      | nil =>
        simp only [feed, apply, leave, settle_enclosing, henc] at h
        cases h
        exact ⟨_, rfl⟩
      | cons top rest =>
        rw [feed, apply, leave_of_enclosing henc] at h
        cases h
    | empty => cases h

theorem feedAll_error {b : Builder} {es : List Event} {err : Error}
    (h : b.feedAll es = .error err) : ∃ cause, err = .malformed cause := by
  induction es generalizing b with
  | nil => cases h
  | cons e rest ih =>
    rw [feedAll_cons] at h
    cases hb : b.feed e with
    | error err' =>
      rw [hb] at h
      cases h
      exact feed_error hb
    | ok b₁ =>
      rw [hb] at h
      exact ih h

theorem finish_eq_ok_iff {b : Builder} {body : List Stmt} :
    b.finish = .ok body ↔ b.enclosing = [] ∧ b.settle.done.reverse = body := by
  unfold finish
  by_cases h : b.enclosing = []
  · simp [h]
  · simp [h]

theorem finish_error {b : Builder} {err : Error} (h : b.finish = .error err) :
    ∃ cause, err = .malformed cause := by
  unfold finish at h
  split at h
  · cases h
  · cases h
    exact ⟨_, rfl⟩

end Builder

/-! ## The main statement -/

theorem build_eq_feedAll (steps : List Step) :
    build steps = (Builder.feedAll {} (events steps)).bind Builder.finish := by
  rw [← Builder.foldlM_addStep]
  rfl

theorem linear_of_build {steps : List Step} {body : List Stmt} (h : build steps = .ok body) :
    Linear body (events steps) ∧ NestedWithin nestingLimit (events steps) := by
  rw [build_eq_feedAll] at h
  cases hb : Builder.feedAll {} (events steps) with
  | error err => rw [hb] at h; cases h
  | ok b =>
    rw [hb] at h
    obtain ⟨henc, rfl⟩ := Builder.finish_eq_ok_iff.1 h
    refine ⟨?_, Builder.nestedWithin_of_feedAll hb⟩
    obtain ⟨outer, done, hout, hdone, heq⟩ := (represents_empty.feedAll hb).settled
    rw [henc] at hout
    cases hout
    rw [List.nil_append, List.nil_append] at heq
    rwa [heq]

theorem build_of_linear {steps : List Step} {body : List Stmt} (h : Linear body (events steps))
    (hnested : NestedWithin nestingLimit (events steps)) : build steps = .ok body := by
  obtain ⟨b, hrun, hb⟩ := Builder.puts_of_linear h {} hnested
  rw [build_eq_feedAll, hrun]
  refine Builder.finish_eq_ok_iff.2 ⟨?_, ?_⟩
  · rw [← Builder.settle_enclosing, hb]
    rfl
  · rw [hb, Builder.settle_of_held_nil rfl]
    simp [Builder.push]

theorem build_error {steps : List Step} {err : Error} (h : build steps = .error err) :
    ∃ cause, err = .malformed cause := by
  rw [build_eq_feedAll] at h
  cases hb : Builder.feedAll {} (events steps) with
  | error err' =>
    rw [hb] at h
    cases h
    exact Builder.feedAll_error hb
  | ok b =>
    rw [hb] at h
    exact Builder.finish_error h

/-- **What is built.** Steps are built into statements exactly if they are a linear form of the
statements in which at most 150 blocks are open at any point. All other steps are malformed. -/
theorem build_eq_ok_iff_linear (steps : List Step) :
    (∀ body, build steps = .ok body ↔
      Linear body (events steps) ∧ NestedWithin 150 (events steps)) ∧
    ((∃ body, Linear body (events steps) ∧ NestedWithin 150 (events steps)) ∨
      ∃ cause, build steps = .error (.malformed cause)) := by
  refine ⟨fun body => ⟨linear_of_build, fun h => build_of_linear h.1 h.2⟩, ?_⟩
  cases h : build steps with
  | ok body => exact .inl ⟨body, linear_of_build h⟩
  | error err =>
    obtain ⟨cause, rfl⟩ := build_error h
    exact .inr ⟨cause, rfl⟩

end Stencil
