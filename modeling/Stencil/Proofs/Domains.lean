import Stencil.Proofs.Offsets.Lexing
import Stencil.Proofs.Offsets.Scanning
import Stencil.Proofs.Reading.Standalone
import Stencil.Proofs.Run.Checked
import Stencil.Proofs.Stretches

/-!
# Reading and running stay in their domains

A source is cut at offsets of bytes, sequences are taken apart by indexes, and some operators are
never applied to two operands that are both evaluated. With every such operation checked before it
is applied, reading a source and running a template do what they do without the checks.

* `Environment.compile?`: reading a source, with each cut checked
* `Template.run?`: running a template, with each operation checked
* `Environment.stays_in_domains`: the main statement
-/

namespace Stencil

/-! ## Checked readings -/

/-- A reading in which each cut of a text is checked. It has no result at all if there is one where
the text cannot be cut. -/
abbrev CheckedReading (α : Type) := ExceptT Error Option α

namespace CheckedReading

variable {α β : Type}

/-- A reading in which there is nothing to check. -/
def lift (result : Except Error α) : CheckedReading α :=
  ExceptT.mk (some result)

@[simp] theorem lift_bind (result : Except Error α) (f : α → Except Error β) :
    lift (result >>= f) = lift result >>= fun a => lift (f a) := by
  cases result <;> rfl

@[simp] theorem lift_map (f : α → β) (result : Except Error α) :
    lift (f <$> result) = f <$> lift result := by
  cases result <;> rfl

theorem mapM_lift {f? : α → CheckedReading β} {f : α → Except Error β}
    (h : ∀ a, f? a = lift (f a)) (items : List α) : items.mapM f? = lift (items.mapM f) := by
  induction items with
  | nil => rfl
  | cons a rest ih => simp [List.mapM_cons, h, ih]

end CheckedReading

open CheckedReading

/-- The step that a segment is. -/
def Step.ofSegment? : Source.Segment → CheckedReading Step
  | .literal text => pure (.literal (String.ofList text))
  | .fragment interior => do
    let ts ← ExceptT.mk (Offsets.tokens? interior)
    lift (Step.ofTokens ts)

/-- The steps of a source. -/
def Step.ofSource? (source : List Char) : CheckedReading (List Step) := do
  let segments ← ExceptT.lift (Offsets.segments? source)
  segments.mapM Step.ofSegment?

/-- Reads a template. -/
def Environment.compile? (env : Environment) (source : String) : CheckedReading Template := do
  let source := Source.normalizeString source
  let steps ← Step.ofSource? source.toList
  let body ← lift (build steps)
  return { source := source, environment := env, body := body }

theorem Step.ofSegment?_eq (segment : Source.Segment) :
    Step.ofSegment? segment = lift (Step.ofSegment segment) := by
  cases segment with
  | literal text => rfl
  | fragment interior =>
    rw [Step.ofSegment?, Offsets.tokens?_eq_some]
    exact (lift_bind (Lexer.tokens interior) Step.ofTokens).symm

theorem Step.ofSource?_eq (source : List Char) :
    Step.ofSource? source = lift (Step.ofSource source) := by
  rw [Step.ofSource?, Offsets.segments?_eq_some]
  exact mapM_lift Step.ofSegment?_eq (Source.segments source)

/-- **Checked reading.** Every cut that is made while a source is read exists. -/
theorem Environment.compile?_eq (env : Environment) (source : String) :
    env.compile? source = lift (env.compile source) := by
  simp [Environment.compile?, Environment.compile, statements, Step.ofSource?_eq]

/-! ## Checked runs -/

/-- Runs a template over a context. -/
def Template.run? {σ : Type} [Sink σ] (t : Template) (host : Host) (rounds : Nat) (c : Context)
    (sink : σ) : Except Offsets.Fault (Except Run.Halt Unit × Run.State σ) :=
  Run.run? { context := c, host := host, fuel := t.environment.units, rounds := rounds } t.body sink

/-- **Staying in the domains.** No operation is applied outside its domain: not while a source is
read, whatever it is, nor in a run of a template that was read, whatever the context and the fuel.
The operators of its assignments all compute with numbers, so none that may leave out its right
operand is ever applied to two values. The only operation for which something is left open is to
take a part of a sequence with `2 ^ 53` items or more, which no memory holds. For all shorter ones
the indexes between which a part is taken are in order and in bounds, whatever the arguments. A text
that is read as a number is cut between two characters. -/
theorem Environment.stays_in_domains :
    (∀ (env : Environment) (source : String),
      (env.compile? source).run = some (env.compile source)) ∧
    (∀ {env : Environment} {source : String} {t : Template}, env.compile source = .ok t →
      ∀ {σ : Type} [Sink σ] (host : Host) (rounds : Nat) (c : Context) (sink : σ),
        t.run? host rounds c sink = .ok (t.run host rounds c sink) ∨
          ∃ first last length, Number.exactBound ≤ length ∧
            t.run? host rounds c sink = .error (.part first last length)) ∧
    (∀ {length : Nat}, length < Number.exactBound → ∀ start stop : Value,
      (sliceBounds length start stop).1 ≤ (sliceBounds length start stop).2 ∧
        (sliceBounds length start stop).2 ≤ length) ∧
    ∀ s : List Char, Offsets.numberOf? s = some (Number.ofText s) := by
  refine ⟨fun env source => ?reading, fun ht _ _ host rounds c sink => ?run,
    fun hlength => sliceBounds_le hlength, Offsets.numberOf?_eq_some⟩
  case reading =>
    rw [Environment.compile?_eq]
    rfl
  case run =>
    have harith := Environment.compile_computesArith _ _ _ ht
    rcases Run.run?_agrees _ harith sink with hok | ⟨fault, herror, hfault⟩
    · exact .inl hok
    · cases fault with
      | part first last length => exact .inr ⟨first, last, length, hfault, herror⟩
      | operator _ | emptyParts | cut _ => cases hfault

/-- A template that assigns to a variable what it computes from it. -/
def suffixed : String :=
  "<% s += s.slice('1') %>"

/-- The expression in it. -/
def suffixedExpr : Expr :=
  .assign "s" (some (.arith .add)) (.call (.attr (.var "s") "slice") [.const (.string "1")])

theorem compile_suffixed :
    ({} : Environment).compile suffixed =
      .ok { source := suffixed, environment := {}, body := [.emit suffixedExpr] } := by
  have htokens : Lexer.tokens "s += s.slice('1')".toList =
      .ok [.name "s", .mark .plusAssign, .name "s", .mark .dot, .name "slice", .mark .openParen,
        .text "1", .mark .closeParen] := by
    decide +kernel
  have hvar : Derives 9 (.var "s") [.name "s"] := .leaf (.var (by decide))
  have hcall := Derives.call (@Derives.attr _ "slice" _ hvar)
    (.last ((Derives.leaf (.text "1")).of_le (Nat.zero_le 9)))
  have hderives := @Derives.assign _ (some (.arith .add)) _ _ _ _ rfl hvar
    (hcall.of_le (Nat.zero_le 9))
  have hread := (Reader.standalone_of_derives hderives).2 (by decide)
  have hvalid := Source.Stretch.valid_of_interior ⟨by decide, by decide, rfl⟩
    (Step.ofInterior_expr htokens rfl hread)
  have htext : String.ofList (List.flatMap Source.Stretch.text
      [⟨[], "s += s.slice('1')".toList, .expr suffixedExpr⟩]) = suffixed := by
    rw [← String.toList_inj, String.toList_ofList]
    rfl
  have hcompile := Environment.compile_stretches {} (List.forall_mem_singleton.2 hvalid) rfl
  rwa [← suffixedExpr, htext] at hcompile

/-- The template over any context, and a part of three items up to infinity. -/
theorem stays_in_domains_suffixed :
    (∃ t, ({} : Environment).compile suffixed = .ok t ∧
      ∀ (host : Host) (rounds : Nat) (c : Context) (sink : Buffer),
        t.run? host rounds c sink = .ok (t.run host rounds c sink) ∨
          ∃ first last length, Number.exactBound ≤ length ∧
            t.run? host rounds c sink = .error (.part first last length)) ∧
    (sliceBounds 3 (.number Number.nan) (.number Number.infinity)).2 ≤ 3 := by
  obtain ⟨-, hrun, hbounds, -⟩ := Environment.stays_in_domains
  obtain ⟨t, ht⟩ : ∃ t, ({} : Environment).compile suffixed = .ok t := ⟨_, compile_suffixed⟩
  exact ⟨⟨t, ht, fun host rounds c sink => hrun ht host rounds c sink⟩,
    (hbounds (by decide) _ _).2⟩

end Stencil
