import TypedSearch.Context.Basic

/-!
# Steps of work

What a computation leads to from a state of the engine: how it ends, and in which state. The calls
that are recorded and the lines that are written on the way do not matter here.

* `Work.Leads`: the computation leads from the state to the answer and to another state.
* `Work.Leads.bind`, `Work.Leads.bind_error`: two steps, one after the other.
* `Work.Leads.ask`: a call that the engine answers.
* `Work.Yields`: the computation succeeds with an answer that has a property.
-/

namespace TypedSearch

/-- The logger fails on no line. -/
def Logger.IsWorking (logger : Logger) : Prop := ∀ line, ∃ kept, logger line = .ok kept

namespace Work

variable {σ α β : Type}

/-- From every world with the state the computation leads to the answer and to a world with the
other state. -/
def Leads (x : Work σ α) (state : σ) (r : Except Fault α) (next : σ) : Prop :=
  ∀ w : World σ, w.state = state → ∃ w', x.run.run w = (r, w') ∧ w'.state = next

theorem run_bind (x : Work σ α) (g : α → Work σ β) (w : World σ) :
    (x >>= g).run.run w = (ExceptT.bindCont g (x.run.run w).1).run (x.run.run w).2 := rfl

namespace Leads

variable {x : Work σ α} {state next last : σ}

theorem pure (a : α) (state : σ) : Leads (Pure.pure a : Work σ α) state (.ok a) state :=
  fun w hw => ⟨w, rfl, hw⟩

theorem throw (e : Fault) (state : σ) :
    Leads (MonadExcept.throw e : Work σ α) state (.error e) state :=
  fun w hw => ⟨w, rfl, hw⟩

theorem ofExcept {r r' : Except Fault α} (h : r = r') (state : σ) :
    Leads (ofExcept r) state r' state := by
  subst h
  cases r with
  | ok a => exact pure a state
  | error e => exact throw e state

/-- A first step that succeeds leads on to the second. -/
theorem bind {a : α} {g : α → Work σ β} {r : Except Fault β} (h : Leads x state (.ok a) next)
    (hg : Leads (g a) next r last) : Leads (x >>= g) state r last := by
  intro w hw
  obtain ⟨w', hx, hw'⟩ := h w hw
  obtain ⟨w'', hga, hw''⟩ := hg w' hw'
  refine ⟨w'', ?_, hw''⟩
  rw [run_bind, hx]
  exact hga

/-- A first step that fails ends the work. -/
theorem bind_error {e : Fault} {g : α → Work σ β} (h : Leads x state (.error e) next) :
    Leads (x >>= g) state (.error e) next := by
  intro w hw
  obtain ⟨w', hx, hw'⟩ := h w hw
  refine ⟨w', ?_, hw'⟩
  rw [run_bind, hx]
  rfl

/-- A working logger takes any line. -/
theorem write {logger : Logger} (hl : logger.IsWorking) (level : LogLevel) (text : String)
    (state : σ) : Leads (write logger level text) state (.ok ()) state := by
  intro w hw
  obtain ⟨kept, hkept⟩ := hl ⟨level, text⟩
  have hlogged : ∃ lines, (Logged.write logger level text).run.run w.lines = (.ok (), lines) := by
    unfold Logged.write
    rw [hkept]
    cases kept with
    | true => exact ⟨_, rfl⟩
    | false => exact ⟨_, rfl⟩
  obtain ⟨lines, hlines⟩ := hlogged
  refine ⟨{ w with lines }, ?_, hw⟩
  change (((Logged.write logger level text).run.run w.lines).1,
    { w with lines := ((Logged.write logger level text).run.run w.lines).2 }) = _
  rw [hlines]

/-- A call leads to the engine's answer and state, unless something else went wrong. -/
theorem ask {engine : Engine σ} {call : EngineCall} {answer : EngineAnswer}
    (h : engine call state = (answer, next)) (hanswer : ∀ fault, answer ≠ .error (.other fault)) :
    Leads (ask engine call) state (.ok answer) next := by
  rintro w rfl
  refine ⟨{ w with calls := w.calls ++ [call], state := next }, ?_, rfl⟩
  -- The engine is asked once, so that an engine with this one answer does as well.
  have hconst : (Work.ask engine call).run.run w =
      (Work.ask (fun _ _ => engine call w.state) call).run.run w := rfl
  rw [hconst, h]
  cases answer with
  | ok reply => rfl
  | error failure =>
    cases failure with
    | other fault => exact absurd rfl (hanswer fault)
    | _ => rfl

theorem ask_ok {engine : Engine σ} {call : EngineCall} {reply : Reply}
    (h : engine call state = (.ok reply, next)) :
    Leads (Work.ask engine call) state (.ok (.ok reply)) next :=
  ask h fun _ hne => by cases hne

theorem ask_refusal {engine : Engine σ} {call : EngineCall} {kind : RefusalKind} {message : String}
    {info : Option ReplyInfo} {body : Value}
    (h : engine call state = (.error (.refusal kind message info body), next)) :
    Leads (Work.ask engine call) state (.ok (.error (.refusal kind message info body))) next :=
  ask h fun _ hne => by cases hne

theorem record (call : EngineCall) (state : σ) :
    Leads (Work.record call) state (.ok ()) state :=
  fun w hw => ⟨{ w with calls := w.calls ++ [call] }, rfl, hw⟩

end Leads

/-- From every world with the state the computation succeeds with an answer that has the property,
and leads to a world with the other state. The answer may differ from world to world. -/
def Yields (x : Work σ α) (state : σ) (P : α → Prop) (next : σ) : Prop :=
  ∀ w : World σ, w.state = state → ∃ a w', x.run.run w = (.ok a, w') ∧ w'.state = next ∧ P a

theorem Leads.bind_yields {x : Work σ α} {state next last : σ} {a : α} {g : α → Work σ β}
    {P : β → Prop} (h : Leads x state (.ok a) next) (hg : Yields (g a) next P last) :
    Yields (x >>= g) state P last := by
  intro w hw
  obtain ⟨w', hx, hw'⟩ := h w hw
  obtain ⟨b, w'', hga, hw'', hb⟩ := hg w' hw'
  refine ⟨b, w'', ?_, hw'', hb⟩
  rw [run_bind, hx]
  exact hga

end Work

end TypedSearch
