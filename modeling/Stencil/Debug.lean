import Stencil.Engine
import Stencil.Text.Quoted

/-!
# Debug texts

How environments, templates and errors are shown to someone who looks for a mistake.

* `Environment.debug`, `Template.debug`, `Error.debug`: the texts
-/

namespace Stencil

/-- A text in quotes. -/
def quoted (s : String) : String :=
  String.ofList (Text.quote s.toList)

/-- A value that may be missing. -/
def optionDebug (s : Option String) : String :=
  match s with
  | some s => "Some(" ++ s ++ ")"
  | none => "None"

/-- A name with its fields in braces. -/
def recordDebug (name : String) (fields : List (String × String)) : String :=
  name ++ " \x7b " ++ ", ".intercalate (fields.map fun (k, v) => k ++ ": " ++ v) ++ " \x7d"

/-- The debug text of an environment. -/
def Environment.debug (env : Environment) : String :=
  recordDebug "Environment" [("fuel", optionDebug (env.fuel.map fun n => toString n.toNat))]

/-- The debug text of a template. -/
def Template.debug (t : Template) : String :=
  recordDebug "Template" [("source", quoted t.source), ("env", t.environment.debug)]

/-- The debug text of an error. -/
def Error.debug (e : Error) : String :=
  recordDebug "Error"
    [("kind", e.kind.name), ("detail", optionDebug (e.detail?.map quoted)),
     ("source", optionDebug (e.source?.map quoted))]

end Stencil
