import TypedSearch.Fault

/-!
# Results of steps that may fail

A row of steps has a result if and only if each step has one.

* `bind_eq_ok`, `map_eq_ok`: what a result of two steps says about each of them.
* `bind_eq_error`, `map_eq_error`, `exists_of_forM_eq_error`: which of the steps fails.
* `map_eq_map`: what the same result up to a function says about two steps.
* `isOk_bind`: two steps of which the second succeeds whatever the first one gives, or never.
-/

namespace TypedSearch

variable {ε α β γ : Type}

theorem bind_eq_ok {x : Except ε α} {g : α → Except ε β} {b : β} :
    (x >>= g) = .ok b ↔ ∃ a, x = .ok a ∧ g a = .ok b := by
  cases x with
  | error e => simp [bind, Except.bind]
  | ok a => simp [bind, Except.bind]

theorem map_eq_ok {x : Except ε α} {g : α → β} {b : β} :
    x.map g = .ok b ↔ ∃ a, x = .ok a ∧ g a = b := by
  cases x with
  | error e => simp [Except.map]
  | ok a => simp [Except.map]

theorem bind_eq_error {x : Except ε α} {g : α → Except ε β} {e : ε} :
    (x >>= g) = .error e ↔ x = .error e ∨ ∃ a, x = .ok a ∧ g a = .error e := by
  cases x with
  | error e' => simp [bind, Except.bind]
  | ok a => simp [bind, Except.bind]

theorem map_eq_error {x : Except ε α} {g : α → β} {e : ε} :
    x.map g = .error e ↔ x = .error e := by
  cases x with
  | error e' => simp [Except.map]
  | ok a => simp [Except.map]

/-- A row of steps fails only if one of them does. -/
theorem exists_of_forM_eq_error {f : α → Except ε Unit} {xs : List α} {e : ε}
    (h : xs.forM f = .error e) : ∃ x ∈ xs, f x = .error e := by
  induction xs with
  | nil => cases h
  | cons x xs ih =>
    rcases bind_eq_error.mp h with hx | ⟨-, -, hrest⟩
    · exact ⟨x, List.mem_cons_self, hx⟩
    · obtain ⟨y, hy, he⟩ := ih hrest
      exact ⟨y, List.mem_cons_of_mem _ hy, he⟩

/-- Two steps that agree up to what is made of their results both fail in one way, or both have a
result. -/
theorem map_eq_map {x : Except ε α} {y : Except ε β} {f : α → γ} {g : β → γ}
    (h : x.map f = y.map g) :
    (∃ e, x = .error e ∧ y = .error e) ∨ ∃ a b, x = .ok a ∧ y = .ok b ∧ f a = g b := by
  cases x with
  | error e =>
    cases y with
    | error e' =>
      cases h
      exact .inl ⟨e, rfl, rfl⟩
    | ok b => cases h
  | ok a =>
    cases y with
    | error e => cases h
    | ok b => exact .inr ⟨a, b, rfl, rfl, Except.ok.inj h⟩

theorem isOk_bind {x : Except ε α} {g : α → Except ε β} {P : Prop}
    (hg : ∀ a, (∃ b, g a = .ok b) ↔ P) :
    (∃ b, (x >>= g) = .ok b) ↔ (∃ a, x = .ok a) ∧ P := by
  simp only [bind_eq_ok]
  constructor
  · rintro ⟨b, a, hx, hb⟩
    exact ⟨⟨a, hx⟩, (hg a).mp ⟨b, hb⟩⟩
  · rintro ⟨⟨a, hx⟩, hP⟩
    obtain ⟨b, hb⟩ := (hg a).mpr hP
    exact ⟨b, a, hx, hb⟩

theorem isOk_bind_pure {x : Except ε α} {g : α → β} :
    (∃ b, (x >>= fun a => pure (g a)) = .ok b) ↔ ∃ a, x = .ok a := by
  have hg : ∀ a, (∃ b, (pure (g a) : Except ε β) = .ok b) ↔ True :=
    fun a => iff_true_intro ⟨g a, rfl⟩
  rw [isOk_bind hg, and_true]

end TypedSearch
