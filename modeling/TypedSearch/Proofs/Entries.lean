import TypedSearch.Value.Basic

/-!
# Access to entries

How setting, removing and adding entries shows when they are read by a key. A key that is not
there yet is added at the end, so a row of new keys is the row of their entries.

* `Entries.get?_append`, `Entries.get?_erase_of_ne`: what is read afterwards.
* `Entries.put_of_has_eq_false`: a new key goes to the end.
* `Entries.get?_put`, `Entries.mem_put`: what an entry that was set shows.
-/

namespace TypedSearch

namespace Entries

variable {name other : String} {v : Value} {es fs : Entries}

@[simp] theorem keyIs_str (name key : String) : keyIs name (.str key) = (key == name) := rfl

theorem keyIs_ne {key : Value} (h : keyIs name key = true) (hne : name ≠ other) :
    keyIs other key = false := by
  unfold keyIs at *
  rw [beq_iff_eq] at h
  rw [h]
  simpa using hne

@[simp] theorem get?_nil (name : String) : get? name [] = none := rfl

theorem get?_cons (name : String) (key v : Value) (es : Entries) :
    get? name ((key, v) :: es) = if keyIs name key then some v else get? name es := by
  unfold get?
  rw [List.find?_cons]
  split <;> simp_all

theorem get?_append (name : String) (es fs : Entries) :
    get? name (es ++ fs) = (get? name es).or (get? name fs) := by
  unfold get?
  rw [List.find?_append]
  cases es.find? fun e => keyIs name e.1 <;> rfl

theorem get?_eq_none_iff : get? name es = none ↔ has name es = false := by
  unfold get? has
  simp

theorem has_iff : has name es = true ↔ ∃ v, get? name es = some v := by
  rw [← Option.isSome_iff_exists, ← Bool.not_eq_false, ← get?_eq_none_iff, Option.isSome_iff_ne_none]

theorem mem_of_get? (h : get? name es = some v) :
    ∃ key, (key, v) ∈ es ∧ keyIs name key = true := by
  unfold get? at h
  obtain ⟨⟨key, u⟩, he, rfl⟩ := Option.map_eq_some_iff.mp h
  have hkey : keyIs name key = true := by simpa using List.find?_some he
  exact ⟨key, List.mem_of_find?_eq_some he, hkey⟩

/-- Where all keys are plain texts, what is read under a name stands under that name. -/
theorem mem_str_of_get? (hkeys : ∀ e ∈ es, ∃ k, e.1 = .str k) (h : get? name es = some v) :
    (.str name, v) ∈ es := by
  obtain ⟨key, hmem, hkey⟩ := mem_of_get? h
  obtain ⟨k, rfl⟩ := hkeys _ hmem
  rw [keyIs_str, beq_iff_eq] at hkey
  exact hkey ▸ hmem

@[simp] theorem has_append (name : String) (es fs : Entries) :
    has name (es ++ fs) = (has name es || has name fs) := List.any_append

@[simp] theorem has_erase_self (name : String) (es : Entries) : has name (erase name es) = false := by
  unfold has erase
  simp

theorem erase_of_has_eq_false (h : has name es = false) : erase name es = es := by
  unfold has at h
  unfold erase
  rw [List.any_eq_false] at h
  rw [List.filter_eq_self]
  intro e he
  simpa using h e he

theorem get?_erase_of_ne (h : name ≠ other) : get? other (erase name es) = get? other es := by
  induction es with
  | nil => rfl
  | cons e es ih =>
    obtain ⟨key, u⟩ := e
    unfold erase at ih ⊢
    rw [List.filter_cons, get?_cons]
    cases he : keyIs name key with
    | false => simp [get?_cons, ih]
    | true => simp [keyIs_ne he h, ih]

theorem has_erase_of_ne (h : name ≠ other) : has other (erase name es) = has other es := by
  rw [Bool.eq_iff_iff, has_iff, has_iff, get?_erase_of_ne h]

/-- A new key goes to the end. -/
theorem put_of_has_eq_false (h : has name es = false) : put name v es = es ++ [(.str name, v)] := by
  unfold put
  rw [h]
  rfl

theorem get?_replace (name other : String) (v : Value) (es : Entries) :
    get? other (es.map fun e => if keyIs name e.1 then (e.1, v) else e) =
      if name = other then (get? other es).map fun _ => v else get? other es := by
  induction es with
  | nil => simp
  | cons e es ih =>
    obtain ⟨key, u⟩ := e
    rw [List.map_cons]
    cases hkey : keyIs name key with
    | false =>
      rw [if_neg (by simp), get?_cons, get?_cons, ih]
      by_cases hname : name = other
      · subst hname
        simp [hkey]
      · simp [hname]
    | true =>
      rw [if_pos rfl, get?_cons, get?_cons, ih]
      by_cases hname : name = other
      · subst hname
        simp [hkey]
      · simp [hname, keyIs_ne hkey hname]

theorem get?_put (name other : String) (v : Value) (es : Entries) :
    get? other (put name v es) = if name = other then some v else get? other es := by
  unfold put
  split
  · rename_i hhas
    rw [get?_replace]
    split
    · rename_i hname
      obtain ⟨u, hu⟩ := has_iff.mp hhas
      rw [← hname, hu]
      rfl
    · rfl
  · rename_i hhas
    rw [get?_append, get?_cons, keyIs_str, get?_nil]
    by_cases hname : name = other
    · subst hname
      rw [get?_eq_none_iff.mpr (by simpa using hhas)]
      simp
    · simp [hname]

theorem has_put_self : has name (put name v es) = true :=
  has_iff.mpr ⟨v, by rw [get?_put, if_pos rfl]⟩

theorem has_put_of_ne (h : name ≠ other) : has other (put name v es) = has other es := by
  rw [Bool.eq_iff_iff, has_iff, has_iff, get?_put, if_neg h]

/-- An entry after setting one is the one that was set, under its name or under a key that was
there, or one with another key. -/
theorem mem_put {key u : Value} (h : (key, u) ∈ put name v es) :
    (u = v ∧ (key = .str name ∨ keyIs name key = true ∧ ∃ old, (key, old) ∈ es)) ∨
      (keyIs name key = false ∧ (key, u) ∈ es) := by
  unfold put at h
  split at h
  · obtain ⟨⟨k, old⟩, hmem, heq⟩ := List.mem_map.mp h
    cases hk : keyIs name k with
    | true =>
      simp only [hk, if_true, Prod.mk.injEq] at heq
      obtain ⟨rfl, rfl⟩ := heq
      exact .inl ⟨rfl, .inr ⟨hk, old, hmem⟩⟩
    | false =>
      simp only [hk, Bool.false_eq_true, if_false, Prod.mk.injEq] at heq
      obtain ⟨rfl, rfl⟩ := heq
      exact .inr ⟨hk, hmem⟩
  · rename_i hhas
    rw [Bool.not_eq_true, has, List.any_eq_false] at hhas
    rcases List.mem_append.mp h with hmem | hmem
    · exact .inr ⟨by simpa using hhas _ hmem, hmem⟩
    · rw [List.mem_singleton, Prod.mk.injEq] at hmem
      exact .inl ⟨hmem.2, .inl hmem.1⟩

end Entries

end TypedSearch
