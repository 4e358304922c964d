import TypedSearch.Proofs.ReplyReading

/-!
# Calls of work

What a computation does from a state of the engine: how it ends, in which state, and which calls it
has made by then, in order. The lines that are written on the way do not matter here.

* `Logged.Answers`: a computation that writes lines has one answer, whatever the lines so far.
* `Work.Does`: the computation makes the calls and leads to the answer and to another state.
* `Work.Does.bind`, `Work.Does.bind_error`: two steps, one after the other.
* `Work.Does.ask`: a call that the engine answers.
* `Work.run_ofExcept_error`, `Work.run_ofExcept_ok`: steps that touch nothing at all.
-/

namespace TypedSearch

/-! ## Answers -/

namespace Logged

variable {α β : Type} {x : Logged α} {g : α → Logged β}

/-- Whatever lines there are, the computation ends with the answer. -/
def Answers (x : Logged α) (r : Except Fault α) : Prop := ∀ lines, (x.run.run lines).1 = r

theorem Answers.bind {a : α} {r : Except Fault β} (h : Answers x (.ok a)) (hg : Answers (g a) r) :
    Answers (x >>= g) r := by
  intro lines
  rw [run_bind, h lines]
  exact hg _

theorem Answers.bind_error {e : Fault} (h : Answers x (.error e)) :
    Answers (x >>= g) (.error e) := by
  intro lines
  rw [run_bind, h lines]
  rfl

/-- A line is taken by a logger, or the logger fails on it. -/
theorem answers_write (logger : Logger) (level : LogLevel) (text : String) :
    Answers (write logger level text) ((logger ⟨level, text⟩).map fun _ => ()) := by
  unfold write
  cases logger ⟨level, text⟩ with
  | error e => exact fun _ => rfl
  | ok kept => cases kept <;> exact fun _ => rfl

end Logged

namespace Work

variable {σ α β : Type}

/-! ## Steps that touch nothing -/

/-- From every world with the state the computation makes the calls, and leads to the answer and to
a world with the other state. -/
def Does (x : Work σ α) (state : σ) (calls : List EngineCall) (r : Except Fault α) (next : σ) :
    Prop :=
  ∀ w : World σ, w.state = state →
    ∃ w', x.run.run w = (r, w') ∧ w'.state = next ∧ w'.calls = w.calls ++ calls

namespace Does

variable {x : Work σ α} {g : α → Work σ β} {state next last : σ} {calls later : List EngineCall}

theorem pure (a : α) (state : σ) : Does (Pure.pure a : Work σ α) state [] (.ok a) state :=
  fun w hw => ⟨w, rfl, hw, by simp⟩

theorem throw (e : Fault) (state : σ) :
    Does (MonadExcept.throw e : Work σ α) state [] (.error e) state :=
  fun w hw => ⟨w, rfl, hw, by simp⟩

theorem ofExcept {r r' : Except Fault α} (h : r = r') (state : σ) :
    Does (ofExcept r) state [] r' state := by
  subst h
  cases r with
  | ok a => exact pure a state
  | error e => exact throw e state

/-- The calls of two steps follow each other. -/
theorem bind {a : α} {r : Except Fault β} (h : Does x state calls (.ok a) next)
    (hg : Does (g a) next later r last) : Does (x >>= g) state (calls ++ later) r last := by
  intro w hw
  obtain ⟨w', hx, hstate, hcalls⟩ := h w hw
  obtain ⟨w'', hga, hstate', hcalls'⟩ := hg w' hstate
  refine ⟨w'', ?_, hstate', by rw [hcalls', hcalls, List.append_assoc]⟩
  rw [run_bind, hx]
  exact hga

/-- A first step without calls leads on to the second. -/
theorem bind_silent {a : α} {r : Except Fault β} (h : Does x state [] (.ok a) next)
    (hg : Does (g a) next later r last) : Does (x >>= g) state later r last :=
  h.bind hg

/-- A first step that fails ends the work. -/
theorem bind_error {e : Fault} (h : Does x state calls (.error e) next) :
    Does (x >>= g) state calls (.error e) next := by
  intro w hw
  obtain ⟨w', hx, hstate, hcalls⟩ := h w hw
  refine ⟨w', ?_, hstate, hcalls⟩
  rw [run_bind, hx]
  rfl

/-- Writing lines makes no call. -/
theorem ofLogged {x : Logged α} {r : Except Fault α} (h : Logged.Answers x r) (state : σ) :
    Does (ofLogged x) state [] r state := by
  intro w hw
  refine ⟨{ w with lines := (x.run.run w.lines).2 }, ?_, hw, by simp⟩
  rw [← h w.lines]
  rfl

/-- A working logger takes any line. -/
theorem write {logger : Logger} (hl : logger.IsWorking) (level : LogLevel) (text : String)
    (state : σ) : Does (write logger level text) state [] (.ok ()) state := by
  obtain ⟨kept, hkept⟩ := hl ⟨level, text⟩
  have hanswer := Logged.answers_write logger level text
  rw [hkept] at hanswer
  exact ofLogged hanswer state

theorem record (call : EngineCall) (state : σ) :
    Does (Work.record call) state [call] (.ok ()) state :=
  fun w hw => ⟨{ w with calls := w.calls ++ [call] }, rfl, hw, rfl⟩

/-- The engine is asked once, so an engine with this one answer does as well. -/
theorem run_ask (engine : Engine σ) (call : EngineCall) (w : World σ) :
    (Work.ask engine call).run.run w =
      (Work.ask (fun _ _ => engine call w.state) call).run.run w := rfl

/-- A call leads to the engine's answer and state, unless something else went wrong. -/
theorem ask {engine : Engine σ} {call : EngineCall} {answer : EngineAnswer}
    (h : engine call state = (answer, next)) (hanswer : ∀ fault, answer ≠ .error (.other fault)) :
    Does (ask engine call) state [call] (.ok answer) next := by
  rintro w rfl
  refine ⟨{ w with calls := w.calls ++ [call], state := next }, ?_, rfl, rfl⟩
  rw [run_ask, h]
  cases answer with
  | ok reply => rfl
  | error failure =>
    cases failure with
    | other fault => exact absurd rfl (hanswer fault)
    | _ => rfl

theorem ask_ok {engine : Engine σ} {call : EngineCall} {reply : Reply}
    (h : engine call state = (.ok reply, next)) :
    Does (Work.ask engine call) state [call] (.ok (.ok reply)) next :=
  ask h fun _ hne => by cases hne

/-- Without its calls, what a computation does is what it leads to. -/
theorem leads {r : Except Fault α} (h : Does x state calls r next) : Leads x state r next := by
  intro w hw
  obtain ⟨w', hx, hstate, -⟩ := h w hw
  exact ⟨w', hx, hstate⟩

end Does

end Work

end TypedSearch
