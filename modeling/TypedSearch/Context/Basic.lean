import TypedSearch.Engine.Call
import TypedSearch.Outcome.Reading
import TypedSearch.Query.Draft

/-!
# Search contexts

A context stands between an application and its engine. It holds the defaults of searches and
makes the calls: each call is recorded, and so is every line that is logged on the way.

* `SearchContext`: a context.
* `World`: the state of an engine, the calls made of it, and the lines written.
* `Work`: what a context does in a world.
-/

namespace TypedSearch

/-- A context: the classes of the application and the defaults of its searches. -/
structure SearchContext where
  schema : Schema
  defaults : SearchDefaults

namespace SearchContext

/-- The index for a call: the one named, or the default one. -/
def resolveIndex (ctx : SearchContext) (index : Option String) : Except Fault String :=
  match nonEmpty? index <|> nonEmpty? ctx.defaults.index with
  | some name => .ok name
  | none => .error .noIndex

/-- How the context makes documents of sources. -/
def reader (ctx : SearchContext) (model : ModelRef) : ResultReader :=
  ⟨ctx.schema, model, ctx.defaults.appId, ctx.defaults.naming⟩

end SearchContext

/-! ## Work -/

/-- The state of an engine, the calls made of it, and the lines written. -/
structure World (σ : Type) where
  state : σ
  calls : List EngineCall
  lines : List LogLine

/-- A computation in a world. What was done before a fault stays done. -/
abbrev Work (σ : Type) := ExceptT Fault (StateM (World σ))

namespace Work

variable {σ α : Type}

/-- A computation that touches nothing. -/
def ofExcept : Except Fault α → Work σ α
  | .ok x => pure x
  | .error e => throw e

/-- A computation that only writes lines. -/
def ofLogged (x : Logged α) : Work σ α :=
  ExceptT.mk fun w =>
    let (r, lines) := x.run.run w.lines
    (r, { w with lines })

/-- Hands a line to a logger. -/
def write (logger : Logger) (level : LogLevel) (text : String) : Work σ Unit :=
  ofLogged (Logged.write logger level text)

/-- Records a call that needs no answer. -/
def record (call : EngineCall) : Work σ Unit :=
  modify fun w => { w with calls := w.calls ++ [call] }

/-- Makes a call: records it and takes the engine's answer. A failure that comes neither from the
engine nor from the transport ends the work. -/
def ask (engine : Engine σ) (call : EngineCall) : Work σ EngineAnswer := do
  record call
  let w ← get
  let (answer, state) := engine call w.state
  set { w with state }
  match answer with
  | .error (.other fault) => throw fault
  | answer => return answer

/-- The answer and the world behind a computation in a fresh world. -/
def start (x : Work σ α) (state : σ) : Except Fault α × World σ := x.run.run ⟨state, [], []⟩

end Work

end TypedSearch
