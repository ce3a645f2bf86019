import Stencil.Run.Exec
import Stencil.Source.Normal
import Stencil.Step.Parser
import Stencil.Stmt.Builder

/-!
# The engine

This is the engine with its built-in methods and with fuel. Names are made of ASCII letters, objects
have their names in order, and nothing is logged.

* `Environment`, `Environment.compile`: settings, and a template read under them
* `Template.render`, `Template.renderTo`: rendering to a text and to a writer
* `Environment.render`: reading and rendering in one step
-/

namespace Stencil

/-- The settings that templates are read and run under. -/
structure Environment where
  /-- How much fuel each run gets, if it is limited. -/
  fuel : Option UInt64 := none
  deriving DecidableEq

/-- A template that was read. -/
structure Template where
  /-- The normal form of its source. -/
  source : String
  environment : Environment
  body : List Stmt

/-- The fuel of a run. Amounts are counted in signed words, so the greatest ones are negative. -/
def Environment.units (env : Environment) : Option Int :=
  env.fuel.map fun n => n.toInt64.toInt

/-- The statements of a source in normal form. -/
def statements (source : List Char) : Except Error (List Stmt) := do
  build (← Step.ofSource source)

/-- Reads a template. -/
def Environment.compile (env : Environment) (source : String) : Except Error Template := do
  let source := Source.normalizeString source
  let body ← statements source.toList
  return { source := source, environment := env, body := body }

/-- The context with the escaper in it, under its own name. -/
def Context.withEscaper (c : Context) : Context :=
  c.insert escaperName (.function .escaper)

namespace Template

/-- Runs a template over a context. -/
def run {σ : Type} [Sink σ] (t : Template) (host : Host) (rounds : Nat) (c : Context) (sink : σ) :
    Except Run.Halt Unit × Run.State σ :=
  Run.run { context := c, host := host, fuel := t.environment.units, rounds := rounds } t.body sink

/-- Renders a template to a text. The context has the escaper in it afterwards. -/
def render (t : Template) (host : Host) (rounds : Nat) (c : Context) :
    Except Run.Halt String × Context :=
  let c := c.withEscaper
  let (outcome, s) := t.run host rounds c ({} : Buffer)
  (outcome.map fun _ => s.sink.text, c)

/-- Renders a template to a writer. If the writer failed then its failure is the error. The context
has the escaper in it afterwards. -/
def renderTo (t : Template) (host : Host) (rounds : Nat) (c : Context) (w : Writer) :
    Except Run.Halt Unit × Writer × Context :=
  let c := c.withEscaper
  let (outcome, s) := t.run host rounds c ({ writer := w } : WrappedWriter)
  (outcome.mapError (Run.Halt.mapError s.sink.replaceError), s.sink.writer, c)

end Template

/-- Reads a template and renders it to a text. The context has the escaper in it afterwards, also if
the source is not a template. -/
def Environment.render (env : Environment) (host : Host) (rounds : Nat) (source : String)
    (c : Context) : Except Run.Halt String × Context :=
  match env.compile source with
  | .ok t => t.render host rounds c
  | .error e => (.error (.error e), c.withEscaper)

end Stencil
