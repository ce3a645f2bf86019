import Stencil.Proofs.Reading.Conditionals
import Stencil.Proofs.Run.Printing

/-!
# Names that are bound and names that are read

A loop binds the name of what it goes through or the names that it declares. Later expressions can
read such a name, assign to it and count it up or down, but for one: `typeof` can be bound, and by
itself it is an operator without an operand.

* `ForHead.Binds`, `IsBound`: the names that the head of a loop binds
* `Accepted`: a name that declarations and loops take, whatever is done with it
* `ReadsAlone`, `Usable`: a name that is a variable by itself, and what can be done with one
* `Run.Assigned`: locals in which a variable has a value, and may be given another one
* `bound_iff_reads`: the main statement
* `typeOf_bound_unread`: the name that is bound and not read
-/

namespace Stencil

/-- The head of the loop binds the name. -/
inductive ForHead.Binds : ForHead → String → Prop
  | looped {binding : Binding} {goes : EachKind} {subject : Expr} :
      Binds (.each binding goes subject) binding.name
  | declared {kind : DeclareKind} {items : List (String × Option Expr)} {test update : Option Expr}
      {item : String × Option Expr} (h : item ∈ items) :
      Binds (.clauses (some (.declare kind items)) test update) item.1

theorem ForHead.Binds.of_clauses {init : Option ForInit} {test update : Option Expr} {name : String}
    (h : (ForHead.clauses init test update).Binds name) :
    ∃ kind items, init = some (.declare kind items) ∧ ∃ item ∈ items, item.1 = name := by
  cases h with
  | declared hitem => exact ⟨_, _, rfl, _, hitem, rfl⟩

/-- There is a head of a loop that is read and binds the name. -/
def IsBound (name : String) : Prop :=
  ∃ room ts head rest, Reader.forClauses room ts = .ok (head, rest) ∧ head.Binds name

/-- The name by itself is an expression, the variable of that name. -/
def ReadsAlone (name : String) : Prop :=
  Reader.standalone [.name name] = .ok (.var name)

open Reader

/-! ## Only names that can be bound are bound -/

namespace Reader

theorem checkBindable_yields (name : String) :
    Yields (fun _ => isBindable name = true) (checkBindable name) := by
  rintro ⟨⟩ h
  unfold checkBindable at h
  split at h
  · assumption
  · cases h

theorem declarations_bindable (room : Nat) (kind : DeclareKind) (count : Nat) (ts : List Token) :
    Yields (fun read => ∀ item ∈ read.1, isBindable item.1 = true)
      (declarations room kind count ts) := by
  fun_induction declarations room kind count ts with
  | case1 => exact .error
  | case2 count name ts ih =>
    refine (checkBindable_yields name).bind fun _ hname => (Yields.trivial _).bind ?_
    rintro ⟨value, rest⟩ -
    dsimp only
    by_cases hcomma : startsWith .comma rest = true
    · rw [if_pos hcomma]
      exact (ih rest).bind fun others hothers => .ok (List.forall_mem_cons.2 ⟨hname, hothers⟩)
    · rw [if_neg hcomma]
      exact .ok (List.forall_mem_singleton.2 hname)
  | case3 => exact .error

theorem forClauses_bindable (room : Nat) (ts : List Token) :
    Yields (fun read => ∀ name, read.1.Binds name → isBindable name = true)
      (forClauses room ts) := by
  have hinit : Yields (fun read => ∀ kind items, read.1 = some (.declare kind items) →
      ∀ item ∈ items, isBindable item.1 = true) (optional .semicolon (forInit room) ts) := by
    unfold optional
    by_cases hstop : startsWith .semicolon ts = true
    · rw [if_pos hstop]
      exact .ok nofun
    rw [if_neg hstop]
    have hpart : Yields (fun read => ∀ kind items, read.1 = .declare kind items →
        ∀ item ∈ items, isBindable item.1 = true) (forInit room ts) := by
      unfold forInit
      cases declareKind? ts with
      | some kind =>
        refine (declarations_bindable room kind ts.length ts.tail).bind fun read hread => .ok ?_
        rintro _ _ ⟨⟩
        exact hread
      | none => exact (Yields.trivial _).bind fun _ _ => .ok nofun
    refine hpart.map fun read hread kind items heq => hread kind items ?_
    exact Option.some.inj heq
  unfold forClauses
  dsimp only
  split
  · rename_i name _ _ _
    refine (checkBindable_yields name).bind fun _ hname => (Yields.trivial _).bind fun _ _ => .ok ?_
    rintro _ ⟨⟩
    exact hname
  · refine hinit.bind fun init hinit => ?_
    refine (Yields.trivial _).bind fun _ _ => (Yields.trivial _).bind fun _ _ => ?_
    refine (Yields.trivial _).bind fun _ _ => (Yields.trivial _).bind fun _ _ => .ok ?_
    intro name hbinds
    obtain ⟨kind, items, heq, item, hitem, rfl⟩ := hbinds.of_clauses
    exact hinit kind items heq item hitem

end Reader

theorem IsBound.isBindable {name : String} (h : IsBound name) : isBindable name = true := by
  obtain ⟨room, ts, head, rest, hread, hbinds⟩ := h
  exact forClauses_bindable room ts _ hread name hbinds

/-! ## Names that can be bound are accepted -/

/-- Declarations and loops take the name, with whatever expression. -/
structure Accepted (name : String) : Prop where
  /-- A declaration with a value. -/
  given {kind : DeclareKind} {e : Expr} {us rest : List Token} {room count : Nat}
    (he : Derives 0 e us) (hroom : us.length < room) (hstops : Stops 0 rest)
    (hcomma : startsWith .comma rest = false) :
    declarations room kind (count + 1) (.name name :: .mark .assign :: (us ++ rest)) =
      .ok ([(name, some e)], rest)
  /-- A declaration without a value. -/
  bare {kind : DeclareKind} {rest : List Token} {room count : Nat} (hkind : kind ≠ .const)
    (hassign : startsWith .assign rest = false) (hcomma : startsWith .comma rest = false) :
    declarations room kind (count + 1) (.name name :: rest) = .ok ([(name, none)], rest)
  /-- A loop over values or keys. -/
  looped {kind : Option DeclareKind} {goes : EachKind} {e : Expr} {us rest : List Token}
    {room : Nat} (he : Derives 0 e us) (hroom : us.length < room) (hstops : Stops 0 rest) :
    forClauses room (kind.elim [] (fun kind => [.name kind.word]) ++
        .name name :: .name goes.word :: (us ++ rest)) =
      .ok (.each ⟨kind, name⟩ goes e, rest)

theorem not_mem_reservedWords_of_isBindable {name : String} (h : isBindable name = true) :
    name ∉ reservedWords := by
  rw [isBindable, Bool.and_eq_true, Bool.not_eq_true', List.contains_eq_mem,
    decide_eq_false_iff_not] at h
  exact h.1

theorem accepted_of_isBindable {name : String} (h : isBindable name = true) : Accepted name where
  given he hroom hstops hcomma := by
    rw [declarations, checkBindable, if_pos h, Except.ok_bind, initialValue, startsWith_cons,
      if_pos rfl, List.tail_cons, expr_of_derives he hroom hstops, Except.ok_bind]
    change (if startsWith .comma _ then _ else _) = _
    rw [hcomma]
    rfl
  bare hkind hassign hcomma := by
    rw [declarations, checkBindable, if_pos h, Except.ok_bind, initialValue, hassign,
      if_neg Bool.false_ne_true, if_neg hkind]
    change (if startsWith .comma _ then _ else _) = _
    rw [hcomma]
    rfl
  looped {kind goes e us rest room} he hroom hstops := by
    obtain ⟨hkind, heach⟩ :=
      @readEach?_forEach kind name (not_mem_reservedWords_of_isBindable h) goes _ (us ++ rest) rfl
    rw [forClauses_of_each hkind heach, checkBindable, if_pos h, Except.ok_bind,
      expr_of_derives he hroom hstops]
    rfl

/-- What is accepted is bound by some loop. -/
theorem Accepted.isBound {name : String} (h : Accepted name) : IsBound name := by
  have he : Derives 0 .this [.name "this"] := Derives.of_le (.leaf .this) (Nat.zero_le 9)
  have hread := @Accepted.looped name h none .values _ _ [] 2 he (by decide) (stops_nil 0)
  exact ⟨2, _, _, [], hread, .looped⟩

/-! ## Names that are read -/

namespace Reader

section

variable {room : Nat} {ts : List Token} {err : Error} (h : unary room ts = .error err)

include h

theorem level_error (tiers : List Tier) : level tiers room ts = .error err := by
  induction tiers with
  | nil => rw [level, h]
  | cons tier tighter ih =>
    rw [level, ih]
    rfl

/-- Tokens are no expression if their first operand is none. -/
theorem standalone_error (hroom : room + 1 = nestingLimit) (hts : ts ≠ []) :
    standalone ts = .error err := by
  rw [standalone, if_neg (by simpa using hts), ← hroom, expr, assignment, conditional,
    level_error h]
  rfl

end

/-- A name that stands for no operand is refused. -/
theorem unary_name_error {name : String} {err : Error} {room : Nat} (hname : name ≠ "typeof")
    (h : nameOperand name = .error err) : unary (room + 1) [.name name] = .error err := by
  have hunary : readUnary? [.name name] = none := by
    refine Option.eq_none_iff_forall_ne_some.2 fun read hread => ?_
    have hfirst := (List.cons.inj (readUnary?_eq_some_iff.1 hread)).1
    cases hop : read.1 <;> rw [hop] at hfirst <;> cases hfirst
    exact hname rfl
  rw [unary, operand, hunary]
  change updated room [.name name] = _
  rw [updated, member, primary, h]
  rfl

/-- The operator `typeof` has no operand where there are no more tokens. -/
theorem unary_typeOf_error (room : Nat) :
    unary (room + 2) [.name "typeof"] = .error (.malformed (.unexpected none .expression)) := by
  have hempty : unary (room + 1) [] = .error (.malformed (.unexpected none .expression)) := by
    rw [unary, operand]
    change updated room [] = _
    rw [updated, member, primary]
    rfl
  rw [unary, operand]
  change (unary (room + 1) [] >>= _) = _
  rw [hempty]
  rfl

theorem standalone_typeOf :
    standalone [.name "typeof"] = .error (.malformed (.unexpected none .expression)) :=
  standalone_error (unary_typeOf_error 147) rfl (List.cons_ne_nil _ _)

end Reader

/-- Just the variables are read alone. -/
theorem readsAlone_iff (name : String) : ReadsAlone name ↔ IsVariable name := by
  have hread {e : Expr} (h : Leaf e (.name name)) : standalone [.name name] = .ok e := by
    refine (standalone_of_derives (.of_le (.leaf h) (Nat.zero_le 9))).2 ?_
    exact (show 1 < 150 by decide)
  refine ⟨fun h => ?_, fun h => hread (.var h)⟩
  unfold ReadsAlone at h
  by_cases hname : name = "typeof"
  · subst hname
    cases standalone_typeOf.symm.trans h
  cases hoperand : nameOperand name with
  | error err =>
    have herror := standalone_error (unary_name_error hname hoperand) rfl (List.cons_ne_nil _ _)
    cases herror.symm.trans h
  | ok e =>
    have hleaf := (nameOperand_eq_ok_iff hname).1 hoperand
    cases (hread hleaf).symm.trans h
    cases hleaf with
    | var hvariable => exact hvariable

theorem isBindable_iff (name : String) :
    isBindable name = true ↔ ReadsAlone name ∨ name = "typeof" := by
  rw [readsAlone_iff]
  by_cases hname : name = "typeof"
  · subst hname
    exact iff_of_true (by decide) (.inr rfl)
  · exact ⟨fun h => .inl ⟨h, hname⟩, fun h => (h.resolve_right hname).1⟩

/-! ## What can be done with a variable -/

namespace Run

/-- The variable has the value, and it may be given another one. -/
def Assigned (name : String) (v : Value) (locals : List (String × Local)) : Prop :=
  Fields.get? name locals = some ⟨v, false⟩

section

variable {scene : Scene} {name : String} {v w : Value} {P : List (String × Local) → Prop}

theorem prints_declare_assigned {kind : DeclareKind} (h : kind ≠ .const) (v : Value) :
    Prints P (declare kind name (some v)) () "" (Assigned name v) := by
  refine prints_declare fun locals _ => ?_
  rw [Assigned, Fields.get?_insert_self]
  cases kind with
  | const => exact absurd rfl h
  | var | let_ => rfl

theorem evaluates_assigned : Evaluates scene (Assigned name v) (.var name) v :=
  .var fun locals h => by rw [lookup?, h]

theorem prints_assign_assigned (w : Value) :
    Prints (Assigned name v) (assign name w) () "" (Assigned name w) := by
  refine prints_assign (fun locals u h hconstant => ?_) fun locals _ =>
    Fields.get?_insert_self _ _ _
  cases h.symm.trans hconstant

/-- An assignment gives the variable the value of the expression, or what an operator makes of both
values. -/
theorem prints_eval_assign {e : Expr} (op : Option ArithOp)
    (h : Evaluates scene (Assigned name v) e w) :
    Prints (Assigned name v) (eval scene (.assign name (op.map .arith) e))
      (op.elim w fun op => op.apply v w) "" (Assigned name (op.elim w fun op => op.apply v w)) := by
  cases op with
  | none => exact Prints.bind_silent h (Prints.bind_silent (prints_assign_assigned w) (.pure w))
  | some op =>
    have hload : Prints (Assigned name v) (load scene name) v "" (Assigned name v) :=
      evaluates_assigned
    exact hload.bind_silent
      (Prints.bind_silent h (Prints.bind_silent (prints_assign_assigned _) (.pure _)))

theorem prints_eval_update (tick : Tick) (side : Side) :
    Prints (Assigned name v) (eval scene (.update name tick side))
      (.number (if side = .before then tick.apply v.toNumber else v.toNumber)) ""
      (Assigned name (.number (tick.apply v.toNumber))) := by
  have hload : Prints (Assigned name v) (load scene name) v "" (Assigned name v) :=
    evaluates_assigned
  exact hload.bind_silent (Prints.bind_silent (prints_assign_assigned _) (.pure _))

end

end Run

/-- In later expressions the name can be read, assigned to and counted up or down. After a
declaration that is not constant all of these come to their end in a run, too. -/
structure Usable (name : String) : Prop where
  read {room : Nat} {rest : List Token} (hroom : 1 < room) (hstops : Stops 0 rest) :
    expr room (.name name :: rest) = .ok (.var name, rest)
  assigned {op : Option BinaryOp} {m : Mark} {e : Expr} {us rest : List Token} {room : Nat}
    (hop : assignMark? op = some m) (he : Derives 0 e us) (hroom : us.length + 2 < room)
    (hstops : Stops 0 rest) :
    expr room (.name name :: .mark m :: (us ++ rest)) = .ok (.assign name op e, rest)
  updatedAfter {tick : Tick} {room : Nat} {rest : List Token} (hroom : 2 < room)
    (hstops : Stops 0 rest) :
    expr room (.name name :: .mark tick.mark :: rest) = .ok (.update name tick .after, rest)
  updatedBefore {tick : Tick} {room : Nat} {rest : List Token} (hroom : 2 < room)
    (hstops : Stops 0 rest) :
    expr room (.mark tick.mark :: .name name :: rest) = .ok (.update name tick .before, rest)
  declares {kind : DeclareKind} (hkind : kind ≠ .const) (v : Value)
    (P : List (String × Run.Local) → Prop) :
    Run.Prints P (Run.declare kind name (some v)) () "" (Run.Assigned name v)
  evaluates (scene : Run.Scene) (v : Value) :
    Run.Evaluates scene (Run.Assigned name v) (.var name) v
  assigns {scene : Run.Scene} {v w : Value} {e : Expr} (op : Option ArithOp)
    (he : Run.Evaluates scene (Run.Assigned name v) e w) :
    Run.Prints (Run.Assigned name v) (Run.eval scene (.assign name (op.map .arith) e))
      (op.elim w fun op => op.apply v w) ""
      (Run.Assigned name (op.elim w fun op => op.apply v w))
  updates (scene : Run.Scene) (v : Value) (tick : Tick) (side : Side) :
    Run.Prints (Run.Assigned name v) (Run.eval scene (.update name tick side))
      (.number (if side = .before then tick.apply v.toNumber else v.toNumber)) ""
      (Run.Assigned name (.number (tick.apply v.toNumber)))

theorem usable_of_isVariable {name : String} (h : IsVariable name) : Usable name := by
  have hname : Derives 9 (.var name) [.name name] := .leaf (.var h)
  exact {
    read := fun hroom hstops => expr_of_derives (hname.of_le (Nat.zero_le 9)) hroom hstops
    assigned := fun hop he hroom hstops =>
      expr_of_derives (Derives.assign hop hname he) (by simpa using hroom) hstops
    updatedAfter := fun hroom hstops =>
      expr_of_derives ((Derives.after hname).of_le (Nat.zero_le 8)) hroom hstops
    updatedBefore := fun hroom hstops =>
      expr_of_derives ((Derives.before hname).of_le (Nat.zero_le 7)) hroom hstops
    declares := fun hkind v _ => Run.prints_declare_assigned hkind v
    evaluates := fun _ _ => Run.evaluates_assigned
    assigns := fun op he => Run.prints_eval_assign op he
    updates := fun _ _ tick side => Run.prints_eval_update tick side }

/-! ## The names that are bound -/

/-- The names that the head of some loop binds are those that all declarations and loops accept, and
those that are read alone, with `typeof` as the only one more. A name that is read alone can be used
in every way once it is bound. -/
theorem bound_iff_reads (name : String) :
    (IsBound name ↔ ReadsAlone name ∨ name = "typeof") ∧
      (Accepted name ↔ ReadsAlone name ∨ name = "typeof") ∧ (ReadsAlone name → Usable name) := by
  have haccepted (h : ReadsAlone name ∨ name = "typeof") : Accepted name :=
    accepted_of_isBindable ((isBindable_iff name).2 h)
  have hbound (h : IsBound name) : ReadsAlone name ∨ name = "typeof" :=
    (isBindable_iff name).1 h.isBindable
  exact ⟨⟨hbound, fun h => (haccepted h).isBound⟩, ⟨fun h => hbound h.isBound, haccepted⟩,
    fun h => usable_of_isVariable ((readsAlone_iff name).1 h)⟩

/-- The name `of` can be used in a loop over values. -/
theorem bound_iff_reads_of : ReadsAlone "of" ∧ Usable "of" := by
  have h : ReadsAlone "of" := (readsAlone_iff "of").2 (by decide)
  exact ⟨h, (bound_iff_reads "of").2.2 h⟩

/-- The head of a loop by itself is a step. -/
theorem Step.ofTokens_forBlock {ts : List Token} {head : ForHead}
    (h : forHead nestingLimit ts = .ok (head, [])) :
    Step.ofTokens (.name "for" :: ts) = .ok (.control [.forBlock head]) := by
  have hbrace : (Token.name "for" :: ts).any Token.isBrace = true := by
    have hmem : .mark .openBrace ∈ Stencil.braces ts := by
      rw [forHead_braces nestingLimit ts _ h]
      exact List.mem_cons_self
    obtain ⟨hmem, hbrace⟩ := List.mem_filter.1 hmem
    exact List.any_eq_true.2 ⟨_, List.mem_cons_of_mem _ hmem, hbrace⟩
  have hop : blockOp nestingLimit (.name "for" :: ts) = .ok (.forBlock head, []) := by
    simp only [blockOp]
    rw [h]
    rfl
  rw [Step.ofTokens, if_pos hbrace, List.length_cons, blockOps_cons hop (blockOps_nil _ _)]
  rfl

/-- The loop `for (var typeof of e)` binds a name that is not read. -/
theorem typeOf_bound_unread :
    Step.ofInterior "for (var typeof of e) \x7b".toList =
        .ok (.control [.forBlock (.each ⟨some .var, "typeof"⟩ .values (.var "e"))]) ∧
      Expr.ofText "typeof".toList = .error (.malformed (.unexpected none .expression)) ∧
      ¬ ∀ name, IsBound name ↔ ReadsAlone name := by
  have hinterior : Lexer.tokens "for (var typeof of e) \x7b".toList =
      .ok [.name "for", .mark .openParen, .name "var", .name "typeof", .name "of", .name "e",
        .mark .closeParen, .mark .openBrace] := by
    decide +kernel
  have htext : Lexer.tokens "typeof".toList = .ok [.name "typeof"] := by decide +kernel
  have haccepted : Accepted "typeof" := accepted_of_isBindable (by decide)
  refine ⟨?_, ?_, fun h => ?_⟩
  · have he : Derives 0 (.var "e") [.name "e"] :=
      Derives.of_le (.leaf (.var (by decide))) (Nat.zero_le 9)
    have hclauses : forClauses 149 [.name "var", .name "typeof", .name "of", .name "e",
          .mark .closeParen, .mark .openBrace] =
        .ok (.each ⟨some .var, "typeof"⟩ .values (.var "e"),
          [.mark .closeParen, .mark .openBrace]) :=
      @Accepted.looped _ haccepted (some .var) .values _ _ _ _ he (by decide) (stops_of_none rfl)
    rw [Step.ofInterior, hinterior, Except.ok_bind]
    refine Step.ofTokens_forBlock ?_
    rw [forHead, expect_eq_ok_iff.2 rfl, Except.ok_bind]
    change (forClauses 149 _ >>= _) = _
    rw [hclauses]
    rfl
  · rw [Expr.ofText, htext]
    exact standalone_typeOf
  · cases standalone_typeOf.symm.trans ((h "typeof").1 haccepted.isBound)

end Stencil
