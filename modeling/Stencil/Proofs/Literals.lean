import Stencil.Stmt

/-!
# Literal texts

* `Stmt.literals`: the literal texts in a statement
* `Stmt.mapLiterals`: the statement with other literal texts in their places
-/

namespace Stencil

/-! ## The literal texts in statements -/

mutual

/-- The literal texts in a statement. -/
def Stmt.literals : Stmt → List String
  | .raw text => [text]
  | .emit _ => []
  | .cond branches otherwise => Stmt.literalsOfBranches branches ++ Stmt.literalsOfAll otherwise
  | .whileLoop _ body => Stmt.literalsOfAll body
  | .forLoop _ _ _ body => Stmt.literalsOfAll body
  | .forEach _ _ _ body => Stmt.literalsOfAll body
termination_by structural s => s

/-- The literal texts in some statements. -/
def Stmt.literalsOfAll : List Stmt → List String
  | [] => []
  | s :: rest => s.literals ++ Stmt.literalsOfAll rest
termination_by structural s => s

/-- The literal texts in the bodies of some branches. -/
def Stmt.literalsOfBranches : List Branch → List String
  | [] => []
  | (_, body) :: rest => Stmt.literalsOfAll body ++ Stmt.literalsOfBranches rest
termination_by structural s => s

end

/-! ## Other literal texts -/

mutual

/-- The statement with every literal text replaced. -/
def Stmt.mapLiterals (f : String → String) : Stmt → Stmt
  | .raw text => .raw (f text)
  | .emit e => .emit e
  | .cond branches otherwise =>
    .cond (Stmt.mapLiteralsOfBranches f branches) (Stmt.mapLiteralsOfAll f otherwise)
  | .whileLoop test body => .whileLoop test (Stmt.mapLiteralsOfAll f body)
  | .forLoop init test update body => .forLoop init test update (Stmt.mapLiteralsOfAll f body)
  | .forEach binding kind subject body =>
    .forEach binding kind subject (Stmt.mapLiteralsOfAll f body)
termination_by structural s => s

/-- Statements with every literal text replaced. -/
def Stmt.mapLiteralsOfAll (f : String → String) : List Stmt → List Stmt
  | [] => []
  | s :: rest => s.mapLiterals f :: Stmt.mapLiteralsOfAll f rest
termination_by structural s => s

/-- Branches with every literal text in their bodies replaced. -/
def Stmt.mapLiteralsOfBranches (f : String → String) : List Branch → List Branch
  | [] => []
  | (test, body) :: rest =>
    (test, Stmt.mapLiteralsOfAll f body) :: Stmt.mapLiteralsOfBranches f rest
termination_by structural s => s

end

/-- Literal texts that are replaced by themselves stay. -/
theorem Stmt.mapLiteralsOfAll_id (body : List Stmt) : Stmt.mapLiteralsOfAll id body = body := by
  refine Stmt.mapLiteralsOfAll.induct (fun s => s.mapLiterals id = s)
    (fun body => Stmt.mapLiteralsOfAll id body = body)
    (fun branches => Stmt.mapLiteralsOfBranches id branches = branches)
    ?raw ?emit ?cond ?whileLoop ?forLoop ?forEach ?noBranch ?branch ?nil ?cons body
  case raw => intro text; rfl
  case emit => intro e; rfl
  case cond =>
    intro branches otherwise ihbranches ihotherwise
    rw [Stmt.mapLiterals, ihbranches, ihotherwise]
  case whileLoop => intro test body ih; rw [Stmt.mapLiterals, ih]
  case forLoop => intro init test update body ih; rw [Stmt.mapLiterals, ih]
  case forEach => intro binding kind subject body ih; rw [Stmt.mapLiterals, ih]
  case noBranch => rfl
  case branch => intro test body rest ih ihrest; rw [Stmt.mapLiteralsOfBranches, ih, ihrest]
  case nil => rfl
  case cons => intro s rest ih ihrest; rw [Stmt.mapLiteralsOfAll, ih, ihrest]

/-- The branch with every literal text in its body replaced. -/
def Branch.mapLiterals (f : String → String) (branch : Branch) : Branch :=
  (branch.1, branch.2.map (Stmt.mapLiterals f))

@[simp] theorem Stmt.mapLiteralsOfAll_eq_map (f : String → String) (body : List Stmt) :
    Stmt.mapLiteralsOfAll f body = body.map (Stmt.mapLiterals f) := by
  induction body with
  | nil => rfl
  | cons s rest ih => rw [Stmt.mapLiteralsOfAll, ih, List.map_cons]

@[simp] theorem Stmt.mapLiteralsOfBranches_eq_map (f : String → String) (branches : List Branch) :
    Stmt.mapLiteralsOfBranches f branches = branches.map (Branch.mapLiterals f) := by
  induction branches with
  | nil => rfl
  | cons branch rest ih =>
    obtain ⟨test, body⟩ := branch
    rw [Stmt.mapLiteralsOfBranches, ih, Stmt.mapLiteralsOfAll_eq_map, List.map_cons]
    rfl

theorem Stmt.mapLiterals_cond (f : String → String) (branches : List Branch)
    (otherwise : List Stmt) :
    (Stmt.cond branches otherwise).mapLiterals f =
      .cond (branches.map (Branch.mapLiterals f)) (otherwise.map (Stmt.mapLiterals f)) := by
  simp [Stmt.mapLiterals]

end Stencil
