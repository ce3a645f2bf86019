import Stencil.Proofs.Enumeration
import Stencil.Proofs.Number.Printing
import Stencil.Proofs.Reading.Loops
import Stencil.Proofs.Run.Printing

/-!
# Loops over an array

A loop over the items of an array, a loop over its keys, and a loop that counts up to its length
print the same: for each item in order, what stands in the body with the item.

* `Run.prints_body`: what the body of a loop prints
* `Run.prints_each`: loops over values or keys
* `Run.Counts`, `Run.prints_counted`: the invariant of the loop that counts, and what it prints
* `Environment.loops_agree`: the main statement
-/

namespace Stencil

open Stencil.Text Source

namespace Run

/-! ## Bodies -/

/-- No local hides the value that the context has under the name. -/
def Unhidden (name : String) (locals : List (String × Local)) : Prop :=
  Fields.get? name locals = none

theorem Unhidden.insert {name other : String} {locals : List (String × Local)}
    (h : Unhidden name locals) (hne : name ≠ other) (l : Local) :
    Unhidden name (Fields.insert other l locals) :=
  (Fields.get?_insert_of_ne hne l locals).trans h

variable {scene : Scene} (hfuel : scene.fuel = none) {a : String} {ref : Ref} {items : List Value}
  (hitems : scene.context.get? a = some (.array ref items)) (before after : String)

include hitems

theorem evaluates_array {P : List (String × Local) → Prop}
    (h : ∀ locals, P locals → Unhidden a locals) :
    Evaluates scene P (.var a) (.array ref items) := by
  refine .var fun locals hlocals => ?_
  rw [lookup?, h locals hlocals, hitems]

omit hitems in
theorem evaluates_local {P : List (String × Local) → Prop} {name : String} {v : Value}
    {constant : Bool} (h : ∀ locals, P locals → Fields.get? name locals = some ⟨v, constant⟩) :
    Evaluates scene P (.var name) v := by
  refine .var fun locals hlocals => ?_
  rw [lookup?, h locals hlocals]

/-- The item under a key. -/
theorem evaluates_item {P : List (String × Local) → Prop} {name : String} {v : Value}
    {constant : Bool} {i : Nat} (harray : ∀ locals, P locals → Unhidden a locals)
    (hkey : ∀ locals, P locals → Fields.get? name locals = some ⟨v, constant⟩)
    (htext : v.text = indexName i) :
    Evaluates scene P (.item (.var a) (.var name)) (items[i]?.getD .undefined) := by
  refine (evaluates_array hitems harray).item (evaluates_local hkey) ?_
  rw [htext]
  exact (Value.IsSequence.ofArray ref items).property_indexName i

include hfuel

omit hitems in
theorem prints_literalStmts {P Q : List (String × Local) → Prop} {text text' : String}
    {body : List Stmt} (h : Prints P (execAll scene body) () text' Q) :
    Prints P (execAll scene (literalStmts text ++ body)) () (text ++ text') Q := by
  unfold literalStmts
  split
  · rename_i hempty
    rwa [hempty, String.empty_append, List.nil_append]
  · exact (prints_exec_raw hfuel text).bind h

omit hitems in
/-- A body prints its literal texts, and what is written for its element between them. -/
theorem prints_body {P : List (String × Local) → Prop} {e : Expr} {v : Value}
    (h : Evaluates scene P e v) :
    Prints P (execAll scene (loopBody before e after)) () (before ++ v.written ++ after) P := by
  have hafter : Prints P (execAll scene (literalStmts after ++ [])) () (after ++ "") P :=
    prints_literalStmts hfuel (.pure ())
  rw [List.append_nil, String.append_empty] at hafter
  rw [String.append_assoc]
  exact prints_literalStmts hfuel ((prints_exec_emit hfuel h).bind hafter)

/-- The rounds of a loop over values or keys print the elements that their values lead to. -/
theorem prints_each {α : Type} {name : String} {kind : EachKind} {e : Expr} {rounds : List α}
    {value element : α → Value} (hname : a ≠ name)
    (hvalues : loopItems kind (.array ref items) = .ok (rounds.map value))
    (he : ∀ r ∈ rounds, Evaluates scene
      (fun locals => Unhidden a locals ∧
        Fields.get? name locals = some ⟨value r, true⟩) e (element r)) :
    Prints (Unhidden a)
      (exec scene (.forEach ⟨some .const, name⟩ kind (.var a) (loopBody before e after))) ()
      (String.join (rounds.map fun r => before ++ (element r).written ++ after))
      (Unhidden a) := by
  refine (prints_spend hfuel).bind_silent
    (Prints.bind_silent (evaluates_array hitems fun _ h => h) ?_)
  rw [hvalues]
  refine Prints.bind_silent (.pure _) (Prints.forEach fun r hr => ?_)
  have hdeclare : Prints (Unhidden a)
      (bindLoop ⟨some .const, name⟩ (value r)) () ""
      (fun locals => Unhidden a locals ∧
        Fields.get? name locals = some ⟨value r, true⟩) :=
    prints_declare fun locals h =>
      ⟨h.insert hname _, Fields.get?_insert_self _ _ _⟩
  refine (prints_spend hfuel).bind_silent (hdeclare.bind_silent ?_)
  exact (prints_body hfuel before after (he r hr)).weaken fun _ h => h.1

theorem prints_values (hx : a ≠ "x") :
    Prints (Unhidden a)
      (exec scene (.forEach ⟨some .const, "x"⟩ .values (.var a)
        (loopBody before (.var "x") after))) ()
      (String.join (items.map fun v => before ++ v.written ++ after))
      (Unhidden a) := by
  have hvalues : loopItems .values (.array ref items) = .ok (items.map id) := by
    rw [List.map_id]
    rfl
  exact prints_each hfuel hitems before after hx hvalues fun v _ =>
    evaluates_local fun _ h => h.2

theorem prints_keys (hk : a ≠ "k") :
    Prints (Unhidden a)
      (exec scene (.forEach ⟨some .const, "k"⟩ .keys (.var a)
        (loopBody before (.item (.var a) (.var "k")) after))) ()
      (String.join (items.map fun v => before ++ v.written ++ after))
      (Unhidden a) := by
  rw [← Value.map_range fun v => before ++ v.written ++ after]
  exact prints_each hfuel hitems before after hk rfl fun i _ =>
    evaluates_item hitems (fun _ h => h.1) (fun _ h => h.2) (Value.text_string (indexName i))

/-! ## Counting -/

/-- The array is not hidden, and the counter stands at the number. -/
def Counts (a : String) (i : Nat) (locals : List (String × Local)) : Prop :=
  Unhidden a locals ∧ Fields.get? "i" locals = some ⟨.ofNat i, false⟩

omit hitems hfuel in
theorem lt_ofNat {i n : Nat} (hi : i < Number.exactBound) (hn : n < Number.exactBound) :
    CompareOp.lt.apply (.ofNat i) (.ofNat n) = decide (i < n) := by
  have hx := Number.holds_ofNat_of_lt hi
  have hy := Number.holds_ofNat_of_lt hn
  have hless : (Value.ofNat i).lessThan? (.ofNat n) =
      if (Float.ofNat i).isNaN || (Float.ofNat n).isNaN then none
      else some (decide (Float.ofNat i < Float.ofNat n)) := rfl
  rw [CompareOp.apply, hless, hx.isNaN, hy.isNaN, Bool.or_false, if_neg Bool.false_ne_true,
    Bool.eq_iff_iff, beq_iff_eq, Option.some_inj, decide_eq_true_iff, decide_eq_true_iff,
    hx.lt_iff hy]

omit hitems hfuel in
theorem text_ofNat {i : Nat} (h : i < Number.exactBound) : (Value.ofNat i).text = indexName i :=
  congrArg String.ofList (Number.write_ofNat h)

omit hfuel in
/-- The test compares the counter with the length. -/
theorem prints_test {i : Nat} (hi : i ≤ items.length) (hbound : items.length < Number.exactBound) :
    Prints (Counts a i)
      (goesOn scene (some (.binary (.compare .lt) (.var "i") (.attr (.var a) lengthName))))
      (decide (i < items.length)) "" (Counts a i) := by
  have hlength : Evaluates scene (Counts a i) (.attr (.var a) lengthName) (.ofNat items.length) :=
    (evaluates_array hitems fun _ h => h.1).attr rfl
  have hcounter : Evaluates scene (Counts a i) (.var "i") (.ofNat i) :=
    evaluates_local fun _ h => h.2
  have htest := hcounter.compare hlength .lt
  rw [lt_ofNat (Nat.lt_of_le_of_lt hi hbound) hbound] at htest
  exact htest.goesOn

omit hfuel hitems in
/-- The update counts one up. -/
theorem prints_update {i : Nat} (ha : a ≠ "i") (hbound : i + 1 < Number.exactBound) :
    Prints (Counts a i) (perform scene (some (.update "i" .up .after))) () ""
      (Counts a (i + 1)) := by
  have hload : Prints (Counts a i) (load scene "i") (.ofNat i) "" (Counts a i) :=
    evaluates_local fun _ h => h.2
  have hassign : Prints (Counts a i) (assign "i" (.number (Float.ofNat i + 1))) () ""
      (Counts a (i + 1)) := by
    have hnext : Float.ofNat i + 1 = Float.ofNat (i + 1) := Number.ofNat_add hbound
    rw [hnext]
    refine prints_assign (fun locals w h => ?_) fun locals h => ?_
    · rw [h.2]
      nofun
    · exact ⟨h.1.insert ha _, Fields.get?_insert_self _ _ _⟩
  exact Prints.bind_silent (hload.bind_silent (hassign.bind_silent (.pure _))) (.pure ())

omit hfuel hitems in
theorem prints_prepare (ha : a ≠ "i") :
    Prints (Unhidden a)
      (prepare scene (some (.declare .var [("i", some (.const (.number 0)))]))) () ""
      (Counts a 0) := by
  have hdeclare : Prints (Unhidden a)
      (declare .var "i" (some (.number 0))) () "" (Counts a 0) :=
    prints_declare fun locals h =>
      ⟨h.insert ha _, Fields.get?_insert_self _ _ _⟩
  exact Prints.bind_silent (Evaluates.const (.number 0)) (hdeclare.bind_silent (.pure ()))

theorem prints_counted (ha : a ≠ "i") (hbound : items.length < Number.exactBound)
    (hrounds : items.length < scene.rounds) :
    Prints (Unhidden a)
      (exec scene (.forLoop (some (.declare .var [("i", some (.const (.number 0)))]))
        (some (.binary (.compare .lt) (.var "i") (.attr (.var a) lengthName)))
        (some (.update "i" .up .after)) (loopBody before (.item (.var a) (.var "i")) after))) ()
      (String.join (items.map fun v => before ++ v.written ++ after))
      (Unhidden a) := by
  have hround : ∀ i < items.length, Prints (Counts a i)
      (do spend scene
          execAll scene (loopBody before (.item (.var a) (.var "i")) after)
          perform scene (some (.update "i" .up .after))) ()
      (before ++ (items[i]?.getD .undefined).written ++ after) (Counts a (i + 1)) := by
    intro i hi
    have hitem : Evaluates scene (Counts a i) (.item (.var a) (.var "i"))
        (items[i]?.getD .undefined) :=
      evaluates_item hitems (fun _ h => h.1) (fun _ h => h.2) (text_ofNat (Nat.lt_trans hi hbound))
    exact (prints_spend hfuel).bind_silent ((prints_body hfuel before after hitem).bind_end
      (prints_update ha (Nat.lt_of_le_of_lt hi hbound)))
  -- the rounds are numbered, the items at these numbers are all items in order
  have hloop := Prints.repeatWhile (fun i hi => prints_test hitems hi hbound) hround hrounds
  rw [Value.map_range fun v => before ++ v.written ++ after] at hloop
  exact (prints_spend hfuel).bind_silent
    ((prints_prepare ha).bind_silent (hloop.weaken fun _ h => h.1))

end Run

/-! ## The main statement -/

/-- A template of one statement is rendered to what the statement prints. -/
theorem Environment.render_of_prints {env : Environment} {host : Host} {rounds : Nat}
    {source : String} {c : Context} {stmt : Stmt} {text : String}
    {P Q : List (String × Run.Local) → Prop}
    (hcompile : env.compile source = .ok { source := source, environment := env, body := [stmt] })
    (h : Run.Prints P (Run.exec ⟨c.withEscaper, host, env.units, rounds⟩ stmt) () text Q)
    (hP : P []) : env.render host rounds source c = (.ok text, c.withEscaper) := by
  have hbody : Run.Prints P (Run.execAll ⟨c.withEscaper, host, env.units, rounds⟩ [stmt]) ()
      text Q := Run.Prints.bind_end h (.pure ())
  obtain ⟨s, hresult, htext, -⟩ := hbody { sink := {} } hP
  have hrun : Template.run { source := source, environment := env, body := [stmt] } host rounds
      c.withEscaper ({} : Buffer) = (.ok (), s) := hresult
  rw [String.empty_append] at htext
  rw [render, hcompile]
  simp only [Template.render, hrun, htext]
  rfl

/-- **The loops over an array agree.** A loop over its items, a loop over its keys and a loop that
counts up to its length all print, for each item in order, what stands in the body with what is
written for the item. -/
theorem Environment.loops_agree (env : Environment) (hfuel : env.fuel = none) (host : Host)
    (rounds : Nat) (c : Context) {a before after : String} {ref : Ref} {items : List Value}
    (ha : IsIdentifier a) (hother : a ∉ ["x", "k", "i", escaperName])
    (hitems : c.get? a = some (.array ref items)) (hbound : items.length < Number.exactBound)
    (hrounds : items.length < rounds)
    (hbefore : Source.normalizeString before = before) (hmark : ¬ openMark <:+: before.toList)
    (hafter : Source.normalizeString after = after) (hmark' : ¬ openMark <:+: after.toList) :
    ∀ source ∈ [loopOf a before after, loopIn a before after, loopUp a before after],
      env.render host rounds source c =
        (.ok (String.join (items.map fun v => before ++ v.written ++ after)), c.withEscaper) := by
  have hliteral {text : String} (hnormal : Source.normalizeString text = text)
      (hmark : ¬ openMark <:+: text.toList) : IsLiteral text.toList :=
    ⟨normalize_eq_self_iff.1 (by rw [← toList_normalizeString, hnormal]), hmark⟩
  have hbefore' := hliteral hbefore hmark
  have hafter' := hliteral hafter hmark'
  simp only [List.mem_cons, List.not_mem_nil, or_false, not_or] at hother
  obtain ⟨hx, hk, hi, hescaper⟩ := hother
  have hunlimited : env.units = none := by rw [units, hfuel, Option.map_none]
  have hcontext : c.withEscaper.get? a = some (.array ref items) :=
    (Fields.get?_insert_of_ne hescaper _ _).trans hitems
  simp only [List.forall_mem_cons, List.not_mem_nil, false_implies, implies_true, and_true]
  refine ⟨?values, ?keys, ?counted⟩
  case values =>
    exact render_of_prints (env.compile_loopOf ha hbefore' hafter')
      (Run.prints_values hunlimited hcontext before after hx) rfl
  case keys =>
    exact render_of_prints (env.compile_loopIn ha hbefore' hafter')
      (Run.prints_keys hunlimited hcontext before after hk) rfl
  case counted =>
    exact render_of_prints (env.compile_loopUp ha hbefore' hafter')
      (Run.prints_counted hunlimited hcontext before after hi hbound hrounds) rfl

/-- A context with an array of a text and nothing. -/
def twoItems : Context :=
  { entries := [("a", .array (.given 0) [.string "<b>", .null])] }

/-- Loops over a text that is escaped, and over nothing, for which nothing is written. -/
theorem Environment.loops_agree_twoItems :
    [loopOf "a" "- " ";", loopIn "a" "- " ";", loopUp "a" "- " ";"].map
        (({} : Environment).render (fun _ _ _ => .ok .undefined) 3 · twoItems) =
      List.replicate 3 (.ok "- &#60;b&#62;;- ;", twoItems.withEscaper) := by
  have hname : IsIdentifier "a" := ⟨⟨'a', [], rfl, .inl rfl, nofun⟩, by decide⟩
  have hnormal {text : String} (h : Normal text.toList) : normalizeString text = text := by
    rw [normalizeString, normalize_of_normal h, String.ofList_toList]
  refine List.map_eq_replicate_iff.2 ?_
  exact loops_agree {} rfl _ 3 twoItems hname (by decide) rfl (by decide) (by decide)
    (hnormal (by decide)) (by decide) (hnormal (by decide)) (by decide)

end Stencil
