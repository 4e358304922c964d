import TypedSearch.Fault

/-!
# Log lines

What is written about the course of an operation: lines of three levels. Lines go to a logger,
which keeps a line, drops it or fails on it.

* `LogLine`: a line.
* `Logger`: where lines of a caller go.
* `Logged`: computations that may fail and that leave lines, also those written before a fault.
-/

namespace TypedSearch

/-- The levels of lines. -/
inductive LogLevel where
  | info
  | warning
  | error
  deriving DecidableEq, Repr

/-- The name of a level. -/
def LogLevel.name : LogLevel → String
  | .info => "INFO"
  | .warning => "WARNING"
  | .error => "ERROR"

/-- A line. -/
structure LogLine where
  level : LogLevel
  text : String
  deriving DecidableEq, Repr

/-- A logger keeps a line, drops it, or fails on it. -/
abbrev Logger := LogLine → Except Fault Bool

namespace Logger

/-- The logger that keeps every line. -/
def complete : Logger := fun _ => .ok true

/-- The logger that keeps warnings and errors and drops the rest. -/
def terse : Logger := fun line => .ok (line.level != .info)

/-- The logger that fails on every line. -/
def failing (f : Fault) : Logger := fun _ => .error f

end Logger

/-- A computation that may fail and that leaves lines. -/
abbrev Logged := ExceptT Fault (StateM (List LogLine))

namespace Logged

/-- Leaves a line. -/
def note (line : LogLine) : Logged Unit := modify (· ++ [line])

/-- Hands a line to a logger; a line that the logger keeps is left. -/
def write (logger : Logger) (level : LogLevel) (text : String) : Logged Unit :=
  match logger ⟨level, text⟩ with
  | .ok true => note ⟨level, text⟩
  | .ok false => pure ()
  | .error e => throw e

/-- A computation without lines. -/
def ofExcept {α : Type} : Except Fault α → Logged α
  | .ok x => pure x
  | .error e => throw e

/-- The answer of a computation and its lines. -/
def outcome {α : Type} (x : Logged α) : Except Fault α × List LogLine := x.run.run []

end Logged

end TypedSearch
