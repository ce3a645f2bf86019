import Stencil.Engine

/-!
# Sharing a context

Calls that use one context after the other do not influence each other. What a template assigns to
is gone after its run, and all that a call leaves behind is the escaper.

* `Call`, `Call.perform`: one use of an environment with a context, and what it gives
* `Call.performAll`: calls in order, each with the context that the one before it leaves
* `Context.withEscaper_withEscaper`: the escaper is put in only once
* `Call.performAll_independent`: the main statement
-/

namespace Stencil

/-! ## Calls -/

/-- One use of an environment with a context. -/
inductive Call where
  /-- A source is read and rendered to a text. -/
  | ofSource (source : String)
  /-- A template is rendered to a text. -/
  | toText (t : Template)
  /-- A template is rendered to a writer. -/
  | toWriter (t : Template) (w : Writer)

/-- What a call gives. -/
inductive Answer where
  /-- The text, or why there is none. -/
  | text (outcome : Except Run.Halt String)
  /-- How rendering to a writer ended, and the writer after it. -/
  | written (outcome : Except Run.Halt Unit) (w : Writer)

namespace Call

/-- What a call gives with a context, and the context after it. -/
def perform (env : Environment) (host : Host) (rounds : Nat) (c : Context) :
    Call → Answer × Context
  | ofSource source =>
    let (outcome, c) := env.render host rounds source c
    (.text outcome, c)
  | toText t =>
    let (outcome, c) := t.render host rounds c
    (.text outcome, c)
  | toWriter t w =>
    let (outcome, w, c) := t.renderTo host rounds c w
    (.written outcome w, c)

/-- What calls give in order, and the context after the last one. Each of them gets the context that
the one before it leaves. -/
def performAll (env : Environment) (host : Host) (rounds : Nat) (c : Context) :
    List Call → List Answer × Context
  | [] => ([], c)
  | call :: rest =>
    let (answer, c) := call.perform env host rounds c
    let (answers, c) := performAll env host rounds c rest
    (answer :: answers, c)

end Call

/-! ## The escaper in a context -/

theorem Fields.insert_cons_self {α : Type} (name : String) (v w : α) (fields : Fields α) :
    insert name v ((name, w) :: fields) = (name, v) :: fields := by
  rw [insert, if_neg (String.lt_irrefl name), if_pos rfl]

/-- Of two values that are put under one name the later one counts. -/
theorem Fields.insert_insert {α : Type} (name : String) (v w : α) (fields : Fields α) :
    insert name v (insert name w fields) = insert name v fields := by
  induction fields with
  | nil => exact insert_cons_self name v w []
  | cons e rest ih =>
    obtain ⟨k, u⟩ := e
    by_cases hlt : name < k
    · rw [insert, if_pos hlt, insert_cons_self, insert, if_pos hlt]
    by_cases heq : name = k
    · subst heq
      rw [insert_cons_self, insert_cons_self, insert_cons_self]
    · simp only [insert, if_neg hlt, if_neg heq, ih]

/-- The escaper is put in only once. -/
theorem Context.withEscaper_withEscaper (c : Context) :
    c.withEscaper.withEscaper = c.withEscaper :=
  congrArg Context.mk (Fields.insert_insert escaperName _ _ c.entries)

namespace Call

variable (env : Environment) (host : Host) (rounds : Nat)

/-- Whatever becomes of a call, it leaves the context with the escaper in it. -/
theorem perform_context (c : Context) (call : Call) :
    (call.perform env host rounds c).2 = c.withEscaper := by
  cases call with
  | ofSource source =>
    simp only [perform, Environment.render]
    cases env.compile source <;> rfl
  | toText t => rfl
  | toWriter t w => rfl

/-- A call does the same if the escaper is already in the context. -/
theorem perform_withEscaper (c : Context) (call : Call) :
    call.perform env host rounds c.withEscaper = call.perform env host rounds c := by
  cases call with
  | ofSource source =>
    simp only [perform, Environment.render, Template.render, c.withEscaper_withEscaper]
  | toText t => simp only [perform, Template.render, c.withEscaper_withEscaper]
  | toWriter t w => simp only [perform, Template.renderTo, c.withEscaper_withEscaper]

/-- After the first call the context does not change any more. -/
theorem performAll_withEscaper (c : Context) (calls : List Call) :
    performAll env host rounds c.withEscaper calls =
      (calls.map fun call => (call.perform env host rounds c).1, c.withEscaper) := by
  induction calls with
  | nil => rfl
  | cons call rest ih =>
    have hcontext := call.perform_context env host rounds c
    simp only [performAll, perform_withEscaper, hcontext, ih, List.map_cons]

/-- **Calls that share a context do not influence each other.** Each of several calls, in any order
and whether it succeeds or fails, gives what it gives with the first context alone. If there was a
call at all then the context has the escaper under its name in the end, in the place of any value
that was there, and all else is as it was. -/
theorem performAll_independent (c : Context) (calls : List Call) :
    (performAll env host rounds c calls).1 =
        calls.map (fun call => (call.perform env host rounds c).1) ∧
      (performAll env host rounds c calls).2 =
        (if calls = [] then c else c.insert escaperName (.function .escaper)) ∧
      (c.insert escaperName (.function .escaper)).get? escaperName = some (.function .escaper) ∧
      ∀ name, name ≠ escaperName →
        (c.insert escaperName (.function .escaper)).get? name = c.get? name := by
  refine ⟨?answers, ?context, Fields.get?_insert_self _ _ _,
    fun name hne => Fields.get?_insert_of_ne hne _ _⟩
  case answers =>
    cases calls with
    | nil => rfl
    | cons call rest =>
      have hcontext := call.perform_context env host rounds c
      simp only [performAll, hcontext, performAll_withEscaper, List.map_cons]
  case context =>
    cases calls with
    | nil => rfl
    | cons call rest =>
      have hcontext := call.perform_context env host rounds c
      rw [if_neg (List.cons_ne_nil call rest)]
      simp only [performAll, hcontext, performAll_withEscaper]
      rfl

/-- A template that assigns to the escaper's name before it writes a variable of the context. -/
def shadowing : Template where
  source := ""
  environment := {}
  body := [.emit (.assign escaperName none (.const (.string "a"))), .emit (.var "name")]

/-- A writer that fills up and a source that is no template come before a call that gives the same
as alone. The context had something else under the escaper's name. -/
theorem performAll_independent_shadowing :
    let host : Host := fun _ _ _ => .ok .undefined
    let c := Context.ofList [(escaperName, .null), ("name", .string "b")]
    let calls : List Call :=
      [.toWriter shadowing { room := 1, reason := "full" }, .ofSource "<% \x7d %>",
        .toText shadowing]
    (performAll {} host 0 c calls).1 = calls.map (fun call => (call.perform {} host 0 c).1) ∧
      (Call.perform {} host 0 c (.toText shadowing)).1 = .text (.ok "ab") ∧
      "name" ≠ escaperName ∧
      (performAll {} host 0 c calls).2.get? "name" = some (.string "b") ∧
      (performAll {} host 0 c calls).2.get? escaperName = some (.function .escaper) := by
  intro host c calls
  obtain ⟨hanswers, hcontext, hescaper, hothers⟩ := performAll_independent {} host 0 c calls
  have hne : "name" ≠ escaperName := by decide
  rw [if_neg (List.cons_ne_nil _ _)] at hcontext
  rw [hcontext]
  exact ⟨hanswers, by rfl, hne, hothers "name" hne, hescaper⟩

end Call

end Stencil
