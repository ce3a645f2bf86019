import Stencil.Proofs.Building
import Stencil.Proofs.Literals

/-!
# Other literal texts

Building statements does not look at the literal texts: with other ones in their places the same
steps are accepted, and the statements are the same but for these texts.

* `Step.mapLiteral`, `Builder.mapLiterals`: steps and what was built so far, with other literal
  texts
* `Builder.addStep_mapLiterals`: one more step
* `build_mapLiterals`: the main statement
-/

namespace Stencil

variable (f : String → String)

/-! ## Steps and blocks -/

/-- The step with its literal text replaced, if it is one. -/
def Step.mapLiteral : Step → Step
  | .literal text => .literal (f text)
  | .control ops => .control ops
  | .expr e => .expr e

/-- The block with every literal text in its earlier branches replaced. -/
def Block.mapLiterals : Block → Block
  | .branch earlier test => .branch (earlier.map (Branch.mapLiterals f)) test
  | .otherwise branches => .otherwise (branches.map (Branch.mapLiterals f))
  | .whileLoop test => .whileLoop test
  | .forLoop head => .forLoop head

namespace Builder

/-- What was built so far, with every literal text replaced. -/
def mapLiterals (b : Builder) : Builder :=
  { done := b.done.map (Stmt.mapLiterals f)
    held := b.held.map (Branch.mapLiterals f)
    enclosing := b.enclosing.map fun outer =>
      (outer.1.mapLiterals f, outer.2.map (Stmt.mapLiterals f)) }

theorem settle_mapLiterals (b : Builder) :
    (b.mapLiterals f).settle = b.settle.mapLiterals f := by
  by_cases hheld : b.held = []
  · have hheld' : (b.mapLiterals f).held = [] := by simp [mapLiterals, hheld]
    rw [settle_of_held_nil hheld, settle_of_held_nil hheld']
  · have hheld' : (b.mapLiterals f).held ≠ [] := by simp [mapLiterals, hheld]
    rw [settle_of_held hheld, settle_of_held hheld']
    simp [mapLiterals, Stmt.mapLiterals_cond]

theorem add_mapLiterals (b : Builder) (s : Stmt) :
    (b.mapLiterals f).add (s.mapLiterals f) = (b.add s).mapLiterals f := by
  rw [add, add, settle_mapLiterals]
  rfl

theorem enter_mapLiterals (b : Builder) (block : Block) :
    (b.mapLiterals f).enter (block.mapLiterals f) = (b.enter block).map (mapLiterals f) := by
  have hlength : (b.mapLiterals f).enclosing.length = b.enclosing.length := by simp [mapLiterals]
  unfold enter
  rw [hlength]
  by_cases hroom : nestingLimit ≤ b.enclosing.length
  · rw [if_pos hroom, if_pos hroom]
    rfl
  · rw [if_neg hroom, if_neg hroom]
    rfl

/-- A block that continues a conditional holds the branches so far, with their texts replaced. -/
theorem continue_mapLiterals (b : Builder) (block : List Branch → Block)
    (hblock : ∀ held, (block held).mapLiterals f = block (held.map (Branch.mapLiterals f))) :
    ((b.mapLiterals f).continued.bind fun held => (b.mapLiterals f).enter (block held)) =
      (b.continued.bind fun held => b.enter (block held)).map (mapLiterals f) := by
  by_cases hheld : b.held = []
  · have hheld' : (b.mapLiterals f).held = [] := by simp [mapLiterals, hheld]
    simp only [continued, hheld, hheld']
    rfl
  · have hheld' : (b.mapLiterals f).held ≠ [] := by simp [mapLiterals, hheld]
    rw [continued_of_held hheld, continued_of_held hheld']
    show (b.mapLiterals f).enter (block (b.held.map (Branch.mapLiterals f))) = _
    rw [← hblock, enter_mapLiterals]
    rfl

theorem closed_mapLiterals (block : Block) (before : List Stmt) (rest : List (Block × List Stmt))
    (body : List Stmt) :
    closed (block.mapLiterals f) (before.map (Stmt.mapLiterals f))
        (rest.map fun outer => (outer.1.mapLiterals f, outer.2.map (Stmt.mapLiterals f)))
        (body.map (Stmt.mapLiterals f)) =
      (closed block before rest body).mapLiterals f := by
  cases block with
  | branch earlier test => rfl
  | otherwise branches => simp [closed, mapLiterals, Block.mapLiterals, Stmt.mapLiterals_cond]
  | whileLoop test => simp [closed, mapLiterals, Block.mapLiterals, Stmt.mapLiterals]
  | forLoop head =>
    cases head <;> simp [closed, loop, mapLiterals, Block.mapLiterals, Stmt.mapLiterals]

theorem leave_mapLiterals (b : Builder) :
    (b.mapLiterals f).leave = b.leave.map (mapLiterals f) := by
  cases henclosing : b.enclosing with
  | nil =>
    have henclosing' : (b.mapLiterals f).enclosing = [] := by simp [mapLiterals, henclosing]
    simp only [leave, settle_enclosing, henclosing, henclosing']
    rfl
  | cons outer rest =>
    obtain ⟨block, before⟩ := outer
    have hbody : (b.mapLiterals f).settle.done.reverse =
        b.settle.done.reverse.map (Stmt.mapLiterals f) := by
      rw [settle_mapLiterals, List.map_reverse]
      rfl
    have henclosing' := congrArg
      (List.map fun outer => (outer.1.mapLiterals f, outer.2.map (Stmt.mapLiterals f))) henclosing
    rw [leave_of_enclosing henclosing, leave_of_enclosing henclosing', hbody, closed_mapLiterals]
    rfl

theorem apply_mapLiterals (b : Builder) (op : BlockOp) :
    (b.mapLiterals f).apply op = (b.apply op).map (mapLiterals f) := by
  cases op with
  | ifBlock test =>
    rw [apply, apply, settle_mapLiterals]
    exact enter_mapLiterals f b.settle (.branch [] test)
  | elseIfBlock test => exact continue_mapLiterals f b (.branch · test) fun _ => rfl
  | elseBlock => exact continue_mapLiterals f b .otherwise fun _ => rfl
  | whileBlock test =>
    rw [apply, apply, settle_mapLiterals]
    exact enter_mapLiterals f b.settle (.whileLoop test)
  | forBlock head =>
    rw [apply, apply, settle_mapLiterals]
    exact enter_mapLiterals f b.settle (.forLoop head)
  | close => exact leave_mapLiterals f b
  | empty =>
    rw [apply, apply, settle_mapLiterals]
    rfl

/-- A step, replaced in the same way, does the same to what was built so far. -/
theorem addStep_mapLiterals (b : Builder) (s : Step) :
    (b.mapLiterals f).addStep (s.mapLiteral f) = (b.addStep s).map (mapLiterals f) := by
  cases s with
  | literal text =>
    have hadd := add_mapLiterals f b (.raw text)
    rw [Stmt.mapLiterals] at hadd
    rw [Step.mapLiteral, addStep, addStep, hadd]
    rfl
  | expr e =>
    have hadd := add_mapLiterals f b (.emit e)
    rw [Stmt.mapLiterals] at hadd
    rw [Step.mapLiteral, addStep, addStep, hadd]
    rfl
  | control ops =>
    rw [Step.mapLiteral, addStep, addStep]
    induction ops generalizing b with
    | nil => rfl
    | cons op rest ih =>
      rw [List.foldlM_cons, List.foldlM_cons, apply_mapLiterals]
      cases b.apply op with
      | ok b' => exact ih b'
      | error e => rfl

theorem finish_mapLiterals (b : Builder) :
    (b.mapLiterals f).finish = b.finish.map (Stmt.mapLiteralsOfAll f) := by
  have hisEmpty : (b.mapLiterals f).enclosing.isEmpty = b.enclosing.isEmpty := by
    simp [mapLiterals]
  unfold finish
  rw [hisEmpty, settle_mapLiterals]
  by_cases hempty : b.enclosing.isEmpty = true
  · rw [if_pos hempty, if_pos hempty]
    simp [mapLiterals, Except.map]
  · rw [if_neg hempty, if_neg hempty]
    rfl

theorem addSteps_mapLiterals (b : Builder) (steps : List Step) :
    (steps.map (Step.mapLiteral f)).foldlM addStep (b.mapLiterals f) =
      (steps.foldlM addStep b).map (mapLiterals f) := by
  induction steps generalizing b with
  | nil => rfl
  | cons s rest ih =>
    rw [List.map_cons, List.foldlM_cons, List.foldlM_cons, addStep_mapLiterals]
    cases b.addStep s with
    | ok b' => exact ih b'
    | error e => rfl

end Builder

/-- Steps with other literal texts are built into the statements with these texts, or are rejected
for the same reason. -/
theorem build_mapLiterals (steps : List Step) :
    build (steps.map (Step.mapLiteral f)) = (build steps).map (Stmt.mapLiteralsOfAll f) := by
  have hsteps : (steps.map (Step.mapLiteral f)).foldlM Builder.addStep {} =
      (steps.foldlM Builder.addStep {}).map (Builder.mapLiterals f) :=
    Builder.addSteps_mapLiterals f {} steps
  rw [build, build, hsteps]
  cases steps.foldlM Builder.addStep {} with
  | error e => rfl
  | ok b => exact b.finish_mapLiterals f

end Stencil
