import Stencil.Proofs.Run.Truncation

/-!
# More fuel

Raising the limit of a run that ended by itself leaves the run as it is, up to the greatest signed
word. A greater limit is a negative amount, and there is not enough for the first statement.

* `Environment.units_some_of_le`: the amounts that are negative
* `Run.run_exhausted`: a run without any fuel
* `Template.ends_of_more_fuel`: the main statement
* `Template.more_fuel_ends_a_run`: a text that a greater limit keeps from being rendered
-/

namespace Stencil

/-- A limit from the middle of the words on is a negative amount. -/
theorem Environment.units_some_of_le {m : UInt64} (h : Nat.pow 2 63 ≤ m.toNat) :
    ∃ fuel : Int, fuel < 0 ∧ Environment.units { fuel := some m } = some fuel := by
  have hpow : Nat.pow 2 63 = 9223372036854775808 := rfl
  have hlt : m.toNat < 18446744073709551616 := m.toNat_lt
  have hint : m.toInt64.toInt = (m.toNat : Int) - 18446744073709551616 := by
    rw [Int64.toInt, UInt64.toBitVec_toInt64, BitVec.toInt_eq_toNat_cond, if_neg]
    · rw [UInt64.toNat_toBitVec]
      omega
    · rw [UInt64.toNat_toBitVec]
      omega
  refine ⟨(m.toNat : Int) - 18446744073709551616, by omega, ?_⟩
  rw [Environment.units, Option.map_some, hint]

namespace Run

variable {σ : Type}

/-- Every statement starts with a unit of fuel. -/
theorem exec_eq_spend_bind [Sink σ] (scene : Scene) (stmt : Stmt) :
    ∃ rest : Action σ Unit, exec scene stmt = (do spend scene; rest) := by
  cases stmt with
  | raw text => exact ⟨_, by rw [exec]⟩
  | emit e => exact ⟨_, by rw [exec]⟩
  | cond branches otherwise => exact ⟨_, by rw [exec]⟩
  | whileLoop test body => exact ⟨_, by rw [exec]⟩
  | forLoop init test update body => exact ⟨_, by rw [exec]⟩
  | forEach binding kind subject body => exact ⟨_, by rw [exec]⟩

/-- A run without any fuel stops at its first statement, and nothing is written. -/
theorem run_exhausted [Sink σ] {scene : Scene} (hfuel : Scene.exhausted scene 0 = true)
    {body : List Stmt} (hbody : body ≠ []) (sink : σ) :
    run scene body sink = (.error (.error .outOfFuel), { sink := sink, spent := 1 }) := by
  obtain ⟨stmt, rest, rfl⟩ := List.exists_cons_of_ne_nil hbody
  have hspend : Action.result (spend scene) { sink := sink } =
      (.error (.error .outOfFuel), { sink := sink, spent := 1 }) := by
    rw [result_spend, hfuel]
    rfl
  obtain ⟨after, hexec⟩ := exec_eq_spend_bind (σ := σ) scene stmt
  have hfirst : Action.result (exec scene stmt) { sink := sink } =
      (.error (.error .outOfFuel), { sink := sink, spent := 1 }) := by
    rw [hexec]
    exact result_bind_error hspend _
  rw [run, execAll]
  exact result_bind_error hfirst _

end Run

namespace Template

/-- With a negative amount of fuel a run ends at its first statement. -/
theorem ends_at_once {σ : Type} [Sink σ] (t : Template) (host : Host) (c : Context) (sink : σ)
    {m : UInt64} (hm : Nat.pow 2 63 ≤ m.toNat) (hbody : t.body ≠ []) :
    (t.withFuel (some m)).Ends host c sink (.error .outOfFuel) { sink := sink, spent := 1 } := by
  obtain ⟨fuel, hneg, hunits⟩ := Environment.units_some_of_le hm
  have hunits : (t.withFuel (some m)).environment.units = some fuel := hunits
  refine ⟨0, fun rounds _ => ?_⟩
  have hexhausted : Run.Scene.exhausted ⟨c, host, some fuel, rounds⟩ 0 = true :=
    decide_eq_true (by omega)
  rw [run, hunits]
  exact Run.run_exhausted hexhausted hbody sink

/-- A template without statements ends at once, whatever the limit. -/
theorem ends_of_body_eq_nil {σ : Type} [Sink σ] {t : Template} (host : Host) (c : Context)
    (sink : σ) (hbody : t.body = []) (fuel : Option UInt64) :
    (t.withFuel fuel).Ends host c sink (.ok ()) { sink := sink } := by
  refine ⟨0, fun rounds _ => ?_⟩
  rw [run, withFuel, hbody]
  rfl

variable {σ : Type} [GrowingSink σ] (t : Template) (host : Host) (c : Context) (sink : σ)

/-- Below the negative amounts, more fuel leaves a run that ended by itself as it is. -/
theorem ends_of_le {n m : UInt64} (hle : n ≤ m) (hm : m.toNat < Nat.pow 2 63)
    {outcome : Except Error Unit} {s : Run.State σ}
    (hends : (t.withFuel (some n)).Ends host c sink outcome s)
    (hother : outcome ≠ .error .outOfFuel) : (t.withFuel (some m)).Ends host c sink outcome s := by
  have hle : n.toNat ≤ m.toNat := UInt64.le_iff_toNat_le.1 hle
  have hn : n.toNat < Nat.pow 2 63 := Nat.lt_of_le_of_lt hle hm
  obtain ⟨outcome', s', hrun⟩ := t.exists_ends host c sink hn
  obtain ⟨rfl, rfl⟩ := hends.unique ⟨n.toNat + 1, hrun⟩
  refine ⟨n.toNat + 1, fun rounds hrounds => ?_⟩
  -- the run without a limit ends that way, and has used less than the smaller limit
  obtain ⟨hlong, hspent⟩ :=
    (t.run_cutAt host c sink hn rounds).long_eq (Nat.zero_le _) (hrun rounds hrounds) hother
  have hcutAt := t.run_cutAt host c sink hm rounds
  rw [hlong] at hcutAt
  exact hcutAt.same (hspent.imp_right fun hlt => Nat.lt_of_lt_of_le hlt hle)

/-- **More fuel.** If a run ends by itself then a run with at least as much fuel ends the same way
exactly if the limit is below the middle of the words, or if there is no statement. Otherwise it
stops at the first statement for lack of fuel, and nothing is written. -/
theorem ends_of_more_fuel {n m : UInt64} (hle : n ≤ m) {outcome : Except Error Unit}
    {s : Run.State σ} (hends : (t.withFuel (some n)).Ends host c sink outcome s)
    (hother : outcome ≠ .error .outOfFuel) :
    ((t.withFuel (some m)).Ends host c sink outcome s ↔
      m.toNat < Nat.pow 2 63 ∨ t.body = []) ∧
    (Nat.pow 2 63 ≤ m.toNat → t.body ≠ [] →
      (t.withFuel (some m)).Ends host c sink (.error .outOfFuel) { sink := sink, spent := 1 }) := by
  refine ⟨⟨fun hsame => ?_, ?_⟩, t.ends_at_once host c sink⟩
  · refine Decidable.byContradiction fun hnot => ?_
    obtain ⟨hm, hbody⟩ := not_or.1 hnot
    have hfuel := t.ends_at_once host c sink (Nat.le_of_not_lt hm) hbody
    exact hother (hsame.unique hfuel).1
  · rintro (hm | hbody)
    · exact t.ends_of_le host c sink hle hm hends hother
    · obtain ⟨rfl, rfl⟩ := hends.unique (ends_of_body_eq_nil host c sink hbody (some n))
      exact ends_of_body_eq_nil host c sink hbody (some m)

/-- A source of two letters, read under any limit. -/
theorem compile_letters (env : Environment) :
    env.compile "ab" = .ok { source := "ab", environment := env, body := [.raw "ab"] } := by
  have hnormal : Source.normalizeString "ab" = "ab" := by
    have hlist : Source.normalize "ab".toList = "ab".toList := by decide +kernel
    rw [Source.normalizeString, hlist, String.ofList_toList]
  have hsegments : Source.segments "ab".toList = [.literal "ab".toList] := by decide +kernel
  have hsteps : Step.ofSource "ab".toList = .ok [.literal "ab"] := by
    rw [Step.ofSource, hsegments]
    rfl
  rw [Environment.compile, hnormal, statements, hsteps]
  rfl

/-- Two units are enough for one text. So is the greatest positive amount, but not the one after
it. -/
theorem ends_of_more_fuel_letters :
    (Template.withFuel { source := "ab", environment := {}, body := [.raw "ab"] }
      (some 9223372036854775807)).Ends (fun _ _ _ => .ok .undefined) {} ({} : Buffer) (.ok ())
        { sink := ⟨"ab"⟩, spent := 1 } ∧
    (Template.withFuel { source := "ab", environment := {}, body := [.raw "ab"] }
      (some 9223372036854775808)).Ends (fun _ _ _ => .ok .undefined) {} ({} : Buffer)
        (.error .outOfFuel) { sink := {}, spent := 1 } := by
  have hends : (Template.withFuel { source := "ab", environment := {}, body := [.raw "ab"] }
      (some 2)).Ends (fun _ _ _ => .ok .undefined) {} ({} : Buffer) (.ok ())
        { sink := ⟨"ab"⟩, spent := 1 } := ⟨0, fun _ _ => rfl⟩
  refine ⟨?_, ?_⟩
  · exact (ends_of_more_fuel _ _ _ _ (by decide) hends (by rintro ⟨⟩)).1.2 (.inl (by decide))
  · exact (ends_of_more_fuel _ _ _ _ (by decide) hends (by rintro ⟨⟩)).2 (by decide)
      (List.cons_ne_nil _ _)

/-- With two units of fuel the text `ab` is rendered. With as many as the middle of the words, which
are more, there is not enough fuel for it. -/
theorem more_fuel_ends_a_run :
    (2 : UInt64) ≤ 9223372036854775808 ∧
      (Environment.render { fuel := some 2 } (fun _ _ _ => .ok .undefined) 0 "ab" {}).1 =
        .ok "ab" ∧
      (Environment.render { fuel := some 9223372036854775808 } (fun _ _ _ => .ok .undefined) 0
        "ab" {}).1 = .error (.error .outOfFuel) := by
  refine ⟨by decide, ?_, ?_⟩
  · rw [Environment.render, compile_letters]
    rfl
  · rw [Environment.render, compile_letters]
    rfl

end Template

end Stencil
