import Stencil.Proofs.Reading.Conditionals
import Stencil.Proofs.Run.Delaying

/-!
# Chains of conditionals

A conditional with several branches does what nested conditionals do: the tests are evaluated in
the same order and none is evaluated too early. The nested ones use a unit of fuel for each branch,
so with a limit they may run out of fuel where the chain does not.

* `Run.exec_delays_nested`: nested conditionals do what the chain does, after more fuel
* `Stmt.chain_means_nested`: the main statement
-/

namespace Stencil

namespace Run

variable {σ : Type} [Sink σ] {scene : Scene}

/-- Nested conditionals do what the conditional with all branches does, after more fuel was used. -/
theorem exec_delays_nested (first : Branch) (more : List Branch) (otherwise : List Stmt) :
    Delays scene (exec scene (.cond (first :: more) otherwise) : Action σ Unit)
      (exec scene (.nested first more otherwise)) := by
  induction more generalizing first with
  | nil =>
    rw [Stmt.nested, exec]
    exact spend_delays.bind fun _ => execBranches_delays [first] (execAll_delays otherwise)
  | cons second more ih =>
    -- the chain goes on with the next test, the nested conditional first uses a unit for it
    have hspend : Delays scene
        (execBranches scene (second :: more) (execAll scene otherwise) : Action σ Unit)
        (exec scene (.cond (second :: more) otherwise)) := by
      rw [exec]
      exact (execBranches_delays _ (execAll_delays otherwise)).spend_first
    rw [Stmt.nested, exec, exec]
    refine spend_delays.bind fun _ => execBranches_cons_delays first ?_
    rw [execBranches, execAll, execAll, bind_pure_unit]
    exact hspend.trans (ih second)

end Run

/-! ## The main statement -/

open Run Source

/-- **A chain abbreviates nested conditionals.** Without a limit on fuel, a conditional with several
branches and the nested ones lead to the same outcome from every state, and to the same state but
for the fuel that was used. With a limit this is so whenever the nested ones succeed. Clauses with
`else if` stand for the one conditional, and clauses in the last bodies of those before, with as
many braces at the end as there are clauses, for the nested ones. -/
theorem Stmt.chain_means_nested {σ : Type} [Sink σ] (scene : Scene) (first : Branch)
    (more : List Branch) (otherwise : List Stmt) :
    (scene.fuel = none → ∀ s : State σ, ∃ outcome s' units,
      Action.result (exec scene (.cond (first :: more) otherwise)) s = (outcome, s') ∧
      Action.result (exec scene (.nested first more otherwise)) s = (outcome, s'.later units)) ∧
    (∀ s s₁ : State σ,
      Action.result (exec scene (.nested first more otherwise)) s = (.ok (), s₁) →
      ∃ s' units, Action.result (exec scene (.cond (first :: more) otherwise)) s = (.ok (), s') ∧
        s₁ = s'.later units) ∧
    ∀ (clause : Clause) (clauses : List Clause) (last : Option (List Segment)),
      clause.Reads first → List.Forall₂ Clause.Reads clauses more → IsLast last otherwise →
      StandFor (chainSegments "\x7d else " 1 clause clauses last)
        (.cond (first :: more) otherwise) ∧
      StandFor (chainSegments "\x7d else \x7b " (clauses.length + 1) clause clauses last)
        (.nested first more otherwise) := by
  have hdelayed (s : State σ) :
      Delayed scene (Action.result (exec scene (.cond (first :: more) otherwise)) s)
        (Action.result (exec scene (.nested first more otherwise)) s) :=
    exec_delays_nested first more otherwise s 0
  refine ⟨fun hfuel s => ?unlimited, fun s s₁ hnested => ?limited,
    fun clause clauses last hclause hclauses hlast =>
      ⟨standFor_flat hclause hclauses hlast, standFor_nested hclause hclauses hlast⟩⟩
  case unlimited =>
    obtain ⟨units, hunits⟩ := (hdelayed s).of_unlimited hfuel
    exact ⟨_, _, units, rfl, hunits⟩
  case limited =>
    have hother : (Action.result (exec scene (.nested first more otherwise)) s).1 ≠
        .error (.error .outOfFuel) := by
      rw [hnested]
      nofun
    obtain ⟨units, hunits⟩ := (hdelayed s).of_ne hother
    obtain ⟨houtcome, hstate⟩ := Prod.mk.inj (hnested.symm.trans hunits)
    exact ⟨_, units, Prod.ext houtcome.symm rfl, hstate⟩

/-- The branches of a chain that writes `1` if `a` holds, or else `2` if `b` does. -/
def twoBranches : Branch × List Branch :=
  ((.var "a", [.raw "1"]), [(.var "b", [.raw "2"])])

/-- How they are written. -/
def twoClauses : Clause × List Clause :=
  (⟨"a", [.literal ['1']]⟩, [⟨"b", [.literal ['2']]⟩])

/-- The chain with `else if`. -/
def twoFlat : String :=
  "<% if (a) \x7b %>1<% \x7d else if (b) \x7b %>2<% \x7d else \x7b %>3<% \x7d %>"

/-- The nested conditionals. -/
def twoNested : String :=
  "<% if (a) \x7b %>1<% \x7d else \x7b if (b) \x7b %>2<% \x7d else \x7b %>3<% \x7d\x7d %>"

/-- A scene in which only `b` holds. -/
def sceneOfTwo (fuel : Option Int) : Scene where
  context := { entries := [("a", .bool false), ("b", .bool true)] }
  host _ _ _ := .ok .undefined
  fuel := fuel
  rounds := 0

theorem segments_two :
    Source.segments (normalizeString twoFlat).toList =
      chainSegments "\x7d else " 1 twoClauses.1 twoClauses.2 (some [.literal ['3']]) ∧
    Source.segments (normalizeString twoNested).toList =
      chainSegments "\x7d else \x7b " 2 twoClauses.1 twoClauses.2 (some [.literal ['3']]) := by
  rw [toList_normalizeString, toList_normalizeString]
  decide +kernel

theorem isTest_two : IsTest "a" (.var "a") ∧ IsTest "b" (.var "b") :=
  ⟨.of_tokens (.var (by decide)) (by decide) (by decide +kernel),
    .of_tokens (.var (by decide)) (by decide) (by decide +kernel)⟩

/-- The steps of both sources. -/
theorem steps_two :
    (chainSegments "\x7d else " 1 twoClauses.1 twoClauses.2 (some [.literal ['3']])).mapM
        Step.ofSegment =
      .ok [.control [.ifBlock (.var "a")], .literal "1",
        .control [.close, .elseIfBlock (.var "b")], .literal "2",
        .control [.close, .elseBlock], .literal "3", .control [.close]] ∧
    (chainSegments "\x7d else \x7b " 2 twoClauses.1 twoClauses.2 (some [.literal ['3']])).mapM
        Step.ofSegment =
      .ok [.control [.ifBlock (.var "a")], .literal "1",
        .control [.close, .elseBlock, .ifBlock (.var "b")], .literal "2",
        .control [.close, .elseBlock], .literal "3", .control [.close, .close]] := by
  obtain ⟨ha, hb⟩ := isTest_two
  simp only [chainSegments, twoClauses, Clause.segments, lastSegments, closingBraces,
    List.flatMap_cons, List.flatMap_nil, List.cons_append, List.nil_append, List.mapM_cons,
    Step.ofSegment, String.empty_append]
  rw [ha, hb.ofInterior_elseIf, hb.ofInterior_elseBlock, ofInterior_else,
    ofInterior_closingBraces 0, ofInterior_closingBraces 1]
  exact ⟨rfl, rfl⟩

/-- The second branch is chosen. Four units of fuel are enough for the nested conditionals, and both
sources are read as they are meant. -/
theorem Stmt.chain_means_nested_two :
    (∃ outcome s units,
      Action.result (exec (sceneOfTwo none) (.cond (twoBranches.1 :: twoBranches.2) [.raw "3"]))
        { sink := ({} : Buffer) } = (outcome, s) ∧
      Action.result (exec (sceneOfTwo none) (.nested twoBranches.1 twoBranches.2 [.raw "3"]))
        { sink := ({} : Buffer) } = (outcome, s.later units)) ∧
    (∃ s units,
      Action.result (exec (sceneOfTwo (some 4)) (.cond (twoBranches.1 :: twoBranches.2) [.raw "3"]))
        { sink := ({} : Buffer) } = (.ok (), s) ∧
      { sink := (⟨"2"⟩ : Buffer), spent := 3 } = s.later units) ∧
    (({} : Environment).compile twoFlat).map Template.body =
      .ok [.cond (twoBranches.1 :: twoBranches.2) [.raw "3"]] ∧
    (({} : Environment).compile twoNested).map Template.body =
      .ok [.nested twoBranches.1 twoBranches.2 [.raw "3"]] := by
  have hbody (c : Char) : IsBody [.literal [c]] [.raw (String.ofList [c])] :=
    ⟨[.literal (String.ofList [c])], by rw [List.mapM_cons]; rfl, rfl⟩
  have hfirst : twoClauses.1.Reads twoBranches.1 := ⟨isTest_two.1, hbody '1'⟩
  have hmore : List.Forall₂ Clause.Reads twoClauses.2 twoBranches.2 :=
    .cons ⟨isTest_two.2, hbody '2'⟩ .nil
  obtain ⟨hunlimited, -, hsources⟩ := chain_means_nested (σ := Buffer) (sceneOfTwo none)
    twoBranches.1 twoBranches.2 [.raw "3"]
  obtain ⟨-, hlimited, -⟩ := chain_means_nested (σ := Buffer) (sceneOfTwo (some 4))
    twoBranches.1 twoBranches.2 [.raw "3"]
  obtain ⟨⟨steps, hsteps, -, hflat⟩, ⟨steps', hsteps', -, hnested⟩⟩ :=
    hsources _ _ _ hfirst hmore (.body (hbody '3'))
  refine ⟨hunlimited rfl _, hlimited _ _ rfl, (hflat {} twoFlat segments_two.1).2 ?_,
    (hnested {} twoNested segments_two.2).2 ?_⟩
  · cases hsteps.symm.trans steps_two.1
    exact (linear_of_build rfl).2
  · cases hsteps'.symm.trans steps_two.2
    exact (linear_of_build rfl).2

end Stencil
