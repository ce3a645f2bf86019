import Stencil.Proofs.Run.Emission
import Stencil.Proofs.Run.Locals

/-!
# What actions print

A part of a run that comes to its end has a result and appends a text to the output, if the locals
are as it needs them. What a loop prints follows from an invariant: what its rounds print, one after
the other.

* `Run.Prints`: the result of an action, the text that it appends, and the locals after it
* `Run.Evaluates`: an expression has a value and leaves the locals alone
* `Run.Prints.forEach`, `Run.Prints.repeatWhile`: loops
-/

namespace Stencil.Run

/-- From locals for which the first condition holds, the action ends with the result, appends the
text to the output, and leads to locals for which the second condition holds. -/
def Prints {α : Type} (P : List (String × Local) → Prop) (act : Action Buffer α) (a : α)
    (text : String) (Q : List (String × Local) → Prop) : Prop :=
  ∀ s, P s.locals → ∃ s', Action.result act s = (.ok a, s') ∧
    s'.sink.text = s.sink.text ++ text ∧ Q s'.locals

variable {α β : Type} {P Q R : List (String × Local) → Prop}

/-! ## Single actions -/

theorem Prints.pure (a : α) : Prints P (pure a) a "" P :=
  fun s hs => ⟨s, rfl, String.append_empty.symm, hs⟩

theorem Prints.weaken {act : Action Buffer α} {a : α} {text : String} (h : Prints P act a text R)
    (hR : ∀ locals, R locals → Q locals) : Prints P act a text Q := by
  intro s hs
  obtain ⟨s', heq, htext, hs'⟩ := h s hs
  exact ⟨s', heq, htext, hR s'.locals hs'⟩

theorem Prints.bind {act : Action Buffer α} {f : α → Action Buffer β} {a : α} {b : β}
    {text text' : String} (h : Prints P act a text R) (hf : Prints R (f a) b text' Q) :
    Prints P (act >>= f) b (text ++ text') Q := by
  intro s hs
  obtain ⟨s₁, heq, htext, hs₁⟩ := h s hs
  obtain ⟨s₂, heq', htext', hs₂⟩ := hf s₁ hs₁
  refine ⟨s₂, (result_bind_ok heq f).trans heq', ?_, hs₂⟩
  rw [htext', htext, String.append_assoc]

/-- An action that appends nothing, and one after it. -/
theorem Prints.bind_silent {act : Action Buffer α} {f : α → Action Buffer β} {a : α} {b : β}
    {text : String} (h : Prints P act a "" R) (hf : Prints R (f a) b text Q) :
    Prints P (act >>= f) b text Q := by
  have hboth := h.bind hf
  rwa [String.empty_append] at hboth

/-- An action, and one after it that appends nothing. -/
theorem Prints.bind_end {act : Action Buffer α} {f : α → Action Buffer β} {a : α} {b : β}
    {text : String} (h : Prints P act a text R) (hf : Prints R (f a) b "" Q) :
    Prints P (act >>= f) b text Q := by
  have hboth := h.bind hf
  rwa [String.append_empty] at hboth

theorem prints_spend {scene : Scene} (h : scene.fuel = none) : Prints P (spend scene) () "" P := by
  intro s hs
  have hleft : scene.exhausted s.spent = false := by rw [Scene.exhausted, h]
  refine ⟨{ s with spent := s.spent + 1 }, ?_, String.append_empty.symm, hs⟩
  rw [result_spend, hleft]
  rfl

theorem prints_write (origin : Origin) (text : String) : Prints P (write origin text) () text P :=
  fun s hs => ⟨_, result_write_buffer origin text s, rfl, hs⟩

theorem prints_emit (v : Value) : Prints P (emit v) () v.written P :=
  fun s hs => ⟨_, result_emit_buffer v s, rfl, hs⟩

theorem prints_load {scene : Scene} {name : String} {v : Value}
    (h : ∀ locals, P locals → lookup? scene locals name = some v) :
    Prints P (load scene name) v "" P := by
  intro s hs
  refine ⟨s, ?_, String.append_empty.symm, hs⟩
  rw [load, result_bind_ok (result_get s), h s.locals hs]
  rfl

theorem prints_declare {kind : DeclareKind} {name : String} {v : Value}
    (h : ∀ locals, P locals → Q (Fields.insert name ⟨v, kind == .const⟩ locals)) :
    Prints P (declare kind name (some v)) () "" Q :=
  fun s hs => ⟨_, rfl, String.append_empty.symm, h s.locals hs⟩

theorem prints_assign {name : String} {v : Value}
    (hvariable : ∀ locals w, P locals → Fields.get? name locals ≠ some ⟨w, true⟩)
    (h : ∀ locals, P locals → Q (Fields.insert name ⟨v, false⟩ locals)) :
    Prints P (assign name v) () "" Q :=
  fun s hs => ⟨_, result_assign (fun w => hvariable s.locals w hs) v, String.append_empty.symm,
    h s.locals hs⟩

/-! ## Expressions -/

/-- Where the condition holds, the expression has the value, and the condition holds after it. -/
def Evaluates (scene : Scene) (P : List (String × Local) → Prop) (e : Expr) (v : Value) : Prop :=
  Prints P (eval scene e) v "" P

section

variable {scene : Scene} {e e' : Expr} {v w : Value}

theorem Evaluates.var {name : String}
    (h : ∀ locals, P locals → lookup? scene locals name = some v) :
    Evaluates scene P (.var name) v :=
  prints_load h

theorem Evaluates.const (v : Value) : Evaluates scene P (.const v) v :=
  .pure v

theorem Evaluates.attr {name : String} (h : Evaluates scene P e v)
    (hproperty : v.property name = .ok w) : Evaluates scene P (.attr e name) w := by
  refine Prints.bind_silent h ?_
  rw [hproperty]
  exact .pure w

theorem Evaluates.item (h : Evaluates scene P e v) (h' : Evaluates scene P e' w) {u : Value}
    (hproperty : v.property w.text = .ok u) : Evaluates scene P (.item e e') u := by
  refine Prints.bind_silent h (Prints.bind_silent h' ?_)
  rw [hproperty]
  exact .pure u

theorem Evaluates.compare (h : Evaluates scene P e v) (h' : Evaluates scene P e' w)
    (op : CompareOp) : Evaluates scene P (.binary (.compare op) e e') (.bool (op.apply v w)) :=
  Prints.bind_silent h (Prints.bind_silent h' (.pure _))

theorem Evaluates.goesOn {b : Bool} (h : Evaluates scene P e (.bool b)) :
    Prints P (goesOn scene (some e)) b "" P :=
  Prints.bind_silent h (.pure b)

end

/-! ## Loops -/

/-- The rounds print one after the other. -/
theorem Prints.forEach {body : Value → Action Buffer Unit} {value : β → Value} {text : β → String}
    {items : List β} (h : ∀ b ∈ items, Prints P (body (value b)) () (text b) P) :
    Prints P (forEach body (items.map value)) () (String.join (items.map text)) P := by
  induction items with
  | nil => exact .pure ()
  | cons b items ih =>
    obtain ⟨hb, hitems⟩ := List.forall_mem_cons.1 h
    rw [List.map_cons, List.map_cons, String.join_cons]
    exact hb.bind (ih hitems)

section

variable {test : Action Buffer Bool} {body : Action Buffer Unit} {text : Nat → String} {n : Nat}
  {I : Nat → List (String × Local) → Prop}
  (htest : ∀ i ≤ n, Prints (I i) test (decide (i < n)) "" (I i))
  (hbody : ∀ i < n, Prints (I i) body () (text i) (I (i + 1)))

include htest hbody

theorem prints_repeatWhile_from {i k rounds : Nat} (hn : i + k = n) (h : k < rounds) :
    Prints (I i) (repeatWhile test body rounds) () (String.join ((List.range' i k).map text))
      (I n) := by
  -- one round more than the body is run for, since the test has to fail once
  obtain ⟨rounds, rfl⟩ : ∃ r, rounds = r + 1 := ⟨rounds - 1, by omega⟩
  induction k generalizing i rounds with
  | zero =>
    obtain rfl : i = n := hn
    refine (htest i (Nat.le_refl i)).bind_silent ?_
    rw [decide_eq_false (Nat.lt_irrefl i)]
    exact .pure ()
  | succ k ih =>
    obtain ⟨rounds, rfl⟩ : ∃ r, rounds = r + 1 := ⟨rounds - 1, by omega⟩
    have hi : i < n := by omega
    refine (htest i (Nat.le_of_lt hi)).bind_silent ?_
    rw [decide_eq_true hi, List.range'_succ, List.map_cons, String.join_cons]
    exact (hbody i hi).bind (ih (by omega) rounds (by omega))

/-- A loop that counts up to a number prints its rounds one after the other. -/
theorem Prints.repeatWhile {rounds : Nat} (h : n < rounds) :
    Prints (I 0) (repeatWhile test body rounds) () (String.join ((List.range n).map text))
      (I n) := by
  rw [List.range_eq_range']
  exact prints_repeatWhile_from htest hbody (Nat.zero_add n) h

end

/-! ## Statements -/

section

variable {scene : Scene} (hfuel : scene.fuel = none)

include hfuel

theorem prints_exec_emit {e : Expr} {v : Value} (h : Evaluates scene P e v) :
    Prints P (exec scene (.emit e)) () v.written P :=
  (prints_spend hfuel).bind_silent (Prints.bind_silent h (prints_emit v))

theorem prints_exec_raw (text : String) : Prints P (exec scene (.raw text)) () text P :=
  (prints_spend hfuel).bind_silent (prints_write .literal text)

end

end Stencil.Run
