import Stencil.Engine
import Stencil.Proofs.Run.Fuel
import Stencil.Proofs.Run.Rounds

/-!
# A limit on fuel

A run with a limit is the run without a limit, cut off where the fuel is used up. It always ends.

* `Run.Truncates`: one action is the other one cut off at a number of units
* `Template.Ends`: how a run ends if its loops may go through enough rounds
* `Template.exists_ends`, `Template.ends_truncated`: the main statements
-/

namespace Stencil

namespace Run

variable {σ α β : Type} [GrowingSink σ]

/-! ## Cutting off -/

/-- The short result is the long one, cut off when a number of units is reached. -/
structure CutAt (units : Nat) (s : State σ) (short long : Except Halt α × State σ) : Prop where
  same : long.2.spent = s.spent ∨ long.2.spent < units → short = long
  cut : s.spent < long.2.spent → units ≤ long.2.spent →
    short.1 = .error (.error .outOfFuel) ∧ short.2.output <+: long.2.output

/-- The short action is the long one, cut off when a number of units is reached. -/
structure Truncates (units : Nat) (short long : Action σ α) : Prop where
  advances : Advances 0 long
  cutAt : ∀ s, CutAt units s (Action.result short s) (Action.result long s)

/-- An action that uses no fuel is not cut off. -/
theorem Truncates.of_spent_eq {units : Nat} {act : Action σ α} (h : Advances 0 act)
    (hspent : ∀ s, (Action.result act s).2.spent = s.spent) : Truncates units act act where
  advances := h
  cutAt s := ⟨fun _ => rfl, fun hlt => absurd hlt (by rw [hspent s]; exact Nat.lt_irrefl _)⟩

theorem Truncates.bind {units : Nat} {short long : Action σ α} {f g : α → Action σ β}
    (h : Truncates units short long) (hf : ∀ a, Truncates units (f a) (g a)) :
    Truncates units (short >>= f) (long >>= g) := by
  refine ⟨h.advances.bind fun a => (hf a).advances, fun s => ?_⟩
  have hadvanced := h.advances s
  have hcutAt := h.cutAt s
  rcases result_bind long g s with ⟨a, s₁, heq, hbind⟩ | ⟨halt, s₁, heq, hbind⟩
  · rw [heq] at hadvanced hcutAt
    have hspent := hadvanced.spent
    have hadvanced' := (hf a).advances s₁
    have hspent' := hadvanced'.spent
    have hcutAt' := (hf a).cutAt s₁
    rw [hbind]
    dsimp only at hspent
    by_cases hfirst : s₁.spent = s.spent ∨ s₁.spent < units
    · rw [result_bind_ok (hcutAt.same hfirst) f]
      exact ⟨fun hsame => hcutAt'.same (by omega), fun hlt hle => hcutAt'.cut (by omega) hle⟩
    -- the limit is reached in the first action, so the second one is not started
    · obtain ⟨hfuel, hprefix⟩ := hcutAt.cut (by dsimp only; omega) (by dsimp only; omega)
      rw [result_bind_error (Prod.ext hfuel rfl) f]
      refine ⟨fun hsame => absurd hsame (by omega), fun _ _ => ?_⟩
      exact ⟨rfl, hprefix.trans hadvanced'.output⟩
  · rw [heq] at hcutAt
    rw [hbind]
    refine ⟨fun hsame => result_bind_error (hcutAt.same hsame) f, fun hlt hle => ?_⟩
    obtain ⟨hfuel, hprefix⟩ := hcutAt.cut hlt hle
    rw [result_bind_error (Prod.ext hfuel rfl) f]
    exact ⟨rfl, hprefix⟩

theorem spend_truncates (scene : Scene) (units : Nat) :
    Truncates units (spend { scene with fuel := some (units : Int) } : Action σ Unit)
      (spend { scene with fuel := none }) := by
  refine ⟨spend_advances _ 0, fun s => ?_⟩
  have hexhausted : Scene.exhausted { scene with fuel := some (units : Int) } s.spent =
      decide (units ≤ s.spent + 1) :=
    decide_eq_decide.2 (by omega)
  rw [result_spend, result_spend, hexhausted]
  by_cases hle : units ≤ s.spent + 1
  · rw [decide_eq_true hle]
    refine ⟨fun hsame => absurd hsame ?_, fun _ _ => ⟨rfl, List.prefix_refl _⟩⟩
    dsimp only
    omega
  · rw [decide_eq_false hle]
    exact ⟨fun _ => rfl, fun _ hle' => absurd hle' hle⟩

/-- A quiet action is not cut off. -/
theorem Alike.truncates {host : Host} {act act' : Action σ α} (h : Alike host act act')
    (units : Nat) : Truncates units act act' :=
  h.eq ▸ .of_spent_eq (h.quiet.advances 0) fun s => (h.quiet s).spent

theorem write_truncates (origin : Origin) (text : String) (units : Nat) :
    Truncates units (write origin text : Action σ Unit) (write origin text) :=
  .of_spent_eq (write_advances origin text 0) fun s => by rw [result_write]

/-- Statements are cut off by a limit on fuel. -/
theorem simulation_truncates (scene : Scene) (units : Nat) :
    Simulation (σ := σ) { scene with fuel := some (units : Int) } { scene with fuel := none }
      (fun _ => True) (Truncates units) where
  agrees := ⟨rfl, rfl⟩
  alike h := h.truncates units
  spend := spend_truncates scene units
  literal text _ := write_truncates .literal text units
  emit := emit_related scene.host (fun h => h.truncates units) (fun h hf => h.bind hf)
    fun text => write_truncates .value text units
  bind h hf := h.bind hf
  loop htest hbody :=
    repeatWhile_related scene.host (fun h => h.truncates units) (fun h hf => h.bind hf)
      (.of_spent_eq unfinished_advances fun _ => rfl) htest _ _
      ((spend_truncates scene units).bind fun _ => hbody) _

/-- A short result other than a lack of fuel is the long one. -/
theorem CutAt.long_eq {units : Nat} {s s' : State σ} {short long : Except Halt α × State σ}
    {outcome : Except Error α} (h : CutAt units s short long) (hle : s.spent ≤ long.2.spent)
    (hshort : short = (outcome.mapError .error, s')) (hother : outcome ≠ .error .outOfFuel) :
    long = (outcome.mapError .error, s') ∧ (s'.spent = s.spent ∨ s'.spent < units) := by
  by_cases hsame : long.2.spent = s.spent ∨ long.2.spent < units
  · have hlong := (h.same hsame).symm.trans hshort
    rw [hlong] at hsame
    exact ⟨hlong, hsame⟩
  · obtain ⟨hfuel, -⟩ := h.cut (by omega) (by omega)
    rw [hshort] at hfuel
    rcases outcome with e | _
    · cases hfuel
      exact absurd rfl hother
    · cases hfuel

/-! ## Whole runs -/

theorem run_advanced (scene : Scene) (body : List Stmt) (sink : σ) :
    Advanced scene.rounds { sink := sink } (run scene body sink) :=
  (simulation_advances scene).execAll body (fun _ _ => trivial) { sink := sink }

theorem run_cutAt (scene : Scene) (units : Nat) (body : List Stmt) (sink : σ) :
    CutAt units { sink := sink } (run { scene with fuel := some (units : Int) } body sink)
      (run { scene with fuel := none } body sink) :=
  ((simulation_truncates scene units).execAll body fun _ _ => trivial).cutAt { sink := sink }

/-- A limit on fuel is reached before more rounds than there are units. -/
theorem run_finished (scene : Scene) {units : Nat} (hlt : units < scene.rounds) (body : List Stmt)
    (sink : σ) :
    (run { scene with fuel := some (units : Int) } body sink).1 ≠ .error .unfinished := by
  intro hunfinished
  have hcutAt := run_cutAt scene units body sink
  have hadvanced := run_advanced { scene with fuel := none } body sink
  by_cases hsame : (run { scene with fuel := none } body sink).2.spent = 0 ∨
      (run { scene with fuel := none } body sink).2.spent < units
  · rw [hcutAt.same hsame] at hunfinished
    have hspent : 0 + scene.rounds ≤ _ := hadvanced.unfinished hunfinished
    omega
  · obtain ⟨hfuel, -⟩ := hcutAt.cut (by dsimp only; omega) (by omega)
    rw [hfuel] at hunfinished
    cases hunfinished

end Run

/-! ## Templates with a limit -/

/-- The template, run with a limit on fuel or without one. -/
def Template.withFuel (t : Template) (fuel : Option UInt64) : Template :=
  { t with environment := { fuel := fuel } }

/-- How a run of the template ends if its loops may go through enough rounds. -/
def Template.Ends {σ : Type} [Sink σ] (t : Template) (host : Host) (c : Context) (sink : σ)
    (outcome : Except Error Unit) (s : Run.State σ) : Prop :=
  ∃ enough, ∀ rounds, enough ≤ rounds →
    t.run host rounds c sink = (outcome.mapError .error, s)

theorem Template.Ends.unique {σ : Type} [Sink σ] {t : Template} {host : Host} {c : Context}
    {sink : σ} {outcome outcome' : Except Error Unit} {s s' : Run.State σ}
    (h : t.Ends host c sink outcome s) (h' : t.Ends host c sink outcome' s') :
    outcome = outcome' ∧ s = s' := by
  obtain ⟨enough, hrun⟩ := h
  obtain ⟨enough', hrun'⟩ := h'
  have hleft := hrun (enough + enough') (by omega)
  have hright := hrun' (enough + enough') (by omega)
  obtain ⟨houtcome, rfl⟩ := Prod.mk.inj (hleft.symm.trans hright)
  refine ⟨?_, rfl⟩
  rcases outcome with e | _ <;> rcases outcome' with e' | _ <;> cases houtcome <;> rfl

theorem Environment.units_some {n : UInt64} (h : n.toNat < Nat.pow 2 63) :
    Environment.units { fuel := some n } = some (n.toNat : Int) := by
  have hpow : Nat.pow 2 63 = 9223372036854775808 := rfl
  have hint : n.toInt64.toInt = n.toNat := by
    rw [Int64.toInt, UInt64.toBitVec_toInt64]
    exact BitVec.toInt_eq_toNat_of_lt (by rw [UInt64.toNat_toBitVec]; omega)
  rw [Environment.units, Option.map_some, hint]

namespace Template

variable {σ : Type} [GrowingSink σ] (t : Template) (host : Host) (c : Context) (sink : σ)

theorem run_cutAt {m : UInt64} (hm : m.toNat < Nat.pow 2 63) (rounds : Nat) :
    Run.CutAt m.toNat { sink := sink } ((t.withFuel (some m)).run host rounds c sink)
      ((t.withFuel none).run host rounds c sink) := by
  have hunits : (t.withFuel (some m)).environment.units = some (m.toNat : Int) :=
    Environment.units_some hm
  rw [run, hunits]
  exact Run.run_cutAt { context := c, host := host, fuel := none, rounds := rounds } m.toNat
    t.body sink

/-- A run with a limit ends. No loop goes through more rounds than there are units of fuel. -/
theorem exists_ends {n : UInt64} (hn : n.toNat < Nat.pow 2 63) :
    ∃ (outcome : Except Error Unit) (s : Run.State σ), ∀ rounds, n.toNat < rounds →
      (t.withFuel (some n)).run host rounds c sink = (outcome.mapError .error, s) := by
  have hunits : (t.withFuel (some n)).environment.units = some (n.toNat : Int) :=
    Environment.units_some hn
  have hfinished := Run.run_finished
    { context := c, host := host, fuel := none, rounds := n.toNat + 1 }
    (Nat.lt_succ_self n.toNat) t.body sink
  have hmore : ∀ rounds, n.toNat < rounds →
      (t.withFuel (some n)).run host rounds c sink =
        (t.withFuel (some n)).run host (n.toNat + 1) c sink := by
    intro rounds hrounds
    rw [run, run, hunits]
    exact Run.run_of_rounds_le hrounds hfinished
  have hends : ((t.withFuel (some n)).run host (n.toNat + 1) c sink).1 ≠ .error .unfinished := by
    rw [run, hunits]
    exact hfinished
  cases hrun : (t.withFuel (some n)).run host (n.toNat + 1) c sink with
  | mk outcome s =>
    rw [hrun] at hmore hends
    rcases outcome with (e | _) | _
    · exact ⟨.error e, s, hmore⟩
    · exact absurd rfl hends
    · exact ⟨.ok (), s, hmore⟩

/-- **A limit cuts a run off.** A run with a limit ends. If it ends by itself then it has used less
fuel than there is, the run without a limit and every run with more than this fuel end the same way,
and every run with at most this fuel runs out of it, with the beginning of the output. -/
theorem ends_truncated {n : UInt64} (hn : n.toNat < Nat.pow 2 63) :
    (∃ (outcome : Except Error Unit) (s : Run.State σ),
      (t.withFuel (some n)).Ends host c sink outcome s) ∧
    ∀ (outcome : Except Error Unit) (s : Run.State σ),
      (t.withFuel (some n)).Ends host c sink outcome s → outcome ≠ .error .outOfFuel →
        (s.spent = 0 ∨ s.spent < n.toNat) ∧
        (t.withFuel none).Ends host c sink outcome s ∧
        (∀ m : UInt64, s.spent < m.toNat → m.toNat < Nat.pow 2 63 →
          (t.withFuel (some m)).Ends host c sink outcome s) ∧
        (1 ≤ s.spent → ∀ m : UInt64, m.toNat ≤ s.spent →
          ∃ s', (t.withFuel (some m)).Ends host c sink (.error .outOfFuel) s' ∧
            s'.output <+: s.output) := by
  obtain ⟨outcome, s, hrun⟩ := t.exists_ends host c sink hn
  refine ⟨⟨outcome, s, n.toNat + 1, hrun⟩, fun outcome' s' hends hother => ?_⟩
  obtain ⟨rfl, rfl⟩ := hends.unique ⟨n.toNat + 1, hrun⟩
  have hlong : ∀ rounds, n.toNat < rounds →
      (t.withFuel none).run host rounds c sink = (outcome'.mapError .error, s') ∧
        (s'.spent = 0 ∨ s'.spent < n.toNat) := by
    intro rounds hrounds
    exact (t.run_cutAt host c sink hn rounds).long_eq (Nat.zero_le _) (hrun rounds hrounds) hother
  have hspent := (hlong (n.toNat + 1) (Nat.lt_succ_self _)).2
  refine ⟨hspent, ⟨n.toNat + 1, fun rounds h => (hlong rounds h).1⟩, fun m hlt hm => ?_,
    fun hpos m hle => ?_⟩
  · refine ⟨n.toNat + 1, fun rounds hrounds => ?_⟩
    have hcutAt := t.run_cutAt host c sink hm rounds
    rw [(hlong rounds hrounds).1] at hcutAt
    exact hcutAt.same (.inr hlt)
  -- the run is long enough to pass the smaller limit
  · have hm : m.toNat < Nat.pow 2 63 := by omega
    obtain ⟨outcome, s, hshort⟩ := t.exists_ends host c sink hm
    have hcutAt := t.run_cutAt host c sink hm (n.toNat + 1)
    rw [(hlong (n.toNat + 1) (Nat.lt_succ_self _)).1, hshort (n.toNat + 1) (by omega)] at hcutAt
    obtain ⟨hfuel, hprefix⟩ := hcutAt.cut hpos hle
    refine ⟨s, ⟨m.toNat + 1, fun rounds hrounds => ?_⟩, hprefix⟩
    rw [hshort rounds hrounds]
    exact Prod.ext hfuel rfl

/-- A block, the text in it and the text after it use three units. With three units of fuel there is
not enough for the last text. -/
theorem ends_truncated_block :
    ∃ s : Run.State Buffer,
      (Template.withFuel
        { source := "", environment := {},
          body := [.cond [(.const (.bool true), [.raw "a"])] [], .raw "b"] } (some 3)).Ends
        (fun _ _ _ => .ok .undefined) {} {} (.error .outOfFuel) s ∧
      s.output <+: "ab".toUTF8.data.toList := by
  have hends := (ends_truncated
    { source := "", environment := {},
      body := [.cond [(.const (.bool true), [.raw "a"])] [], .raw "b"] }
    (fun _ _ _ => .ok .undefined) {} ({} : Buffer) (n := 4) (by decide)).2
  obtain ⟨-, -, -, hless⟩ := hends (.ok ()) { sink := ⟨"ab"⟩, spent := 3 } ⟨0, fun _ _ => rfl⟩
    (by rintro ⟨⟩)
  exact hless (by decide) 3 (by decide)

end Template

end Stencil
