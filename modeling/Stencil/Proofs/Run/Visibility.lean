import Stencil.Proofs.Run.Execution

/-!
# What a run sees of its context

Statements that do not mention the context as an object see no more of it than the values of the
variables that they mention. A name of the context may become a variable of the template on the way,
and no longer counts from then on.

* `Stmt.variablesOfAll`: the variables that statements mention
* `Context.AgreesOn`: two contexts have the same values under some names
* `Run.run_eq_of_agreesOn`: the main statement
-/

namespace Stencil

/-! ## The variables that are mentioned -/

/-- The name of the variable that is read, assigned to, or counted up or down. -/
def Reference.variable? : Reference → Option String
  | .reads name => some name
  | .assigns name => some name
  | .this => none
  | .binds _ _ => none

/-- The variables that some statements mention in their expressions. -/
def Stmt.variablesOfAll (body : List Stmt) : List String :=
  (Stmt.referencesOfAll body).filterMap Reference.variable?

/-- The contexts have the same values under the names given, and the same ones are missing. -/
def Context.AgreesOn (names : List String) (c c' : Context) : Prop :=
  ∀ name ∈ names, c.get? name = c'.get? name

namespace Run

variable {σ : Type} {scene : Scene} {c : Context} {name : String}

/-! ## Variables in another context -/

/-- What may be referred to for another context to make no difference. -/
def Unseen (c c' : Context) (r : Reference) : Prop :=
  r ≠ .this ∧ ∀ name, r.variable? = some name → c.get? name = c'.get? name

theorem unseen_of_agreesOn {body : List Stmt} {c c' : Context}
    (hthis : .this ∉ Stmt.referencesOfAll body)
    (hagrees : Context.AgreesOn (Stmt.variablesOfAll body) c c') :
    ∀ r ∈ Stmt.referencesOfAll body, Unseen c c' r := by
  intro r hr
  refine ⟨?_, fun name hname => hagrees name (List.mem_filterMap.2 ⟨r, hr, hname⟩)⟩
  rintro rfl
  exact hthis hr

/-- A local hides the context, and without one the value in the context counts. -/
theorem lookup?_of_get?_eq (h : scene.context.get? name = c.get? name)
    (locals : List (String × Local)) :
    lookup? { scene with context := c } locals name = lookup? scene locals name := by
  by_cases hlocal : Fields.get? name locals = none
  · simp only [lookup?, hlocal, h]
  · obtain ⟨l, hl⟩ := Option.ne_none_iff_exists'.1 hlocal
    simp only [lookup?, hl]

theorem load_of_get?_eq (h : scene.context.get? name = c.get? name) :
    (load scene name : Action σ Value) = load { scene with context := c } name := by
  simp only [load, lookup?_of_get?_eq h]

theorem typeOf_of_get?_eq (h : scene.context.get? name = c.get? name) :
    (eval scene (.unary .typeOf (.var name)) : Action σ Value) =
      eval { scene with context := c } (.unary .typeOf (.var name)) := by
  rw [eval, eval]
  simp only [lookup?_of_get?_eq h]

/-! ## Whole runs -/

/-- Expressions that mention only what both contexts agree on are evaluated by the same action. -/
theorem evaluation_unseen (scene : Scene) (c : Context) :
    Evaluation (σ := σ) scene { scene with context := c } (Unseen scene.context c)
      fun act (act' : Action σ _) => act = act' where
  pure _ := rfl
  bind h hf := by rw [h, funext hf]
  context hallowed := absurd rfl hallowed.1
  load name hallowed := load_of_get?_eq (hallowed.2 name rfl)
  typeOf name hallowed := typeOf_of_get?_eq (hallowed.2 name rfl)
  assign _ _ _ := rfl
  property _ _ := rfl
  notCallable _ := rfl
  freshRef := rfl
  invoke _ _ := rfl

theorem execution_unseen [Sink σ] (scene : Scene) (c : Context) :
    Execution (σ := σ) scene { scene with context := c } (Unseen scene.context c) (fun _ => True) id
      (fun act (act' : Action σ _) => act = act') fun act (act' : Action σ _) => act = act' where
  evaluation := evaluation_unseen scene c
  declare _ _ _ _ := rfl
  rebind _ _ _ := rfl
  items _ _ := rfl
  evaluated h := h
  spend := rfl
  literal _ _ := rfl
  emit _ := rfl
  bind h hf := by rw [h, funext hf]
  loop htest hbody := by
    rw [htest, hbody]
    rfl

/-- **A run sees of its context only the variables that are mentioned.** If statements do not
mention the context as an object, then two contexts with the same values under the names of the
variables that they do mention give the same run: its outcome, its output, its variables at the end,
and all else that is counted. -/
theorem run_eq_of_agreesOn [Sink σ] {body : List Stmt} {c c' : Context}
    (hthis : .this ∉ Stmt.referencesOfAll body)
    (hagrees : Context.AgreesOn (Stmt.variablesOfAll body) c c')
    (host : Host) (fuel : Option Int) (rounds : Nat) (sink : σ) :
    run { context := c, host := host, fuel := fuel, rounds := rounds } body sink =
      run { context := c', host := host, fuel := fuel, rounds := rounds } body sink := by
  have hexec := (execution_unseen (σ := σ)
    { context := c, host := host, fuel := fuel, rounds := rounds } c').execAll
    (unseen_of_agreesOn hthis hagrees) fun _ _ => trivial
  rw [Stmt.mapLiteralsOfAll_id] at hexec
  rw [run, run, hexec]

/-- A loop over the context's `names` declares `name`, which hides the `name` of the context, and a
variable that only one context has is not mentioned. -/
theorem run_eq_of_agreesOn_names :
    let body : List Stmt :=
      [.emit (.var "name"),
        .forEach ⟨some .var, "name"⟩ .values (.var "names") [.emit (.var "name"), .raw ", "]]
    let c := Context.ofList
      [("name", .string "a"), ("names", .array (.given 0) [.string "b", .string "c"])]
    let c' := c.insert "secret" (.string "d")
    let host : Host := fun _ _ _ => .ok .undefined
    .this ∉ Stmt.referencesOfAll body ∧ Context.AgreesOn (Stmt.variablesOfAll body) c c' ∧
      run { context := c, host := host, fuel := some 100, rounds := 100 } body ({} : Buffer) =
        run { context := c', host := host, fuel := some 100, rounds := 100 } body {} := by
  intro body c c' host
  have hthis : .this ∉ Stmt.referencesOfAll body := by decide
  have hagrees : Context.AgreesOn (Stmt.variablesOfAll body) c c' := by
    have hvariables : Stmt.variablesOfAll body = ["name", "names", "name"] := by decide
    rw [hvariables]
    simp only [Context.AgreesOn, List.forall_mem_cons]
    exact ⟨rfl, rfl, rfl, List.forall_mem_nil _⟩
  exact ⟨hthis, hagrees, run_eq_of_agreesOn hthis hagrees host (some 100) 100 _⟩

end Run

end Stencil
