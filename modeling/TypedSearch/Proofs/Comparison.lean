import TypedSearch.Proofs.StoredEntities

/-!
# Values that can be compared

Two numbers cannot be compared if one of them is a signaling decimal. Values without decimals can
always be compared.

* `Value.isComparable`: no decimal is part of the value.
* `isComparable_of_isJson`: plain data is such a value.
* `compared_isOk`, `comparedEntries_isOk`: such values and rows of them can be compared.
-/

namespace TypedSearch

/-! ## Comparable values -/

mutual

/-- No decimal is part of the value, so that it can be compared with any other such value. -/
def Value.isComparable : Value → Bool
  | .decimal _ => false
  | .list xs => areComparable xs
  | .dict es => areComparableEntries es
  | _ => true
termination_by structural v => v

/-- All values of a list can be compared. -/
def areComparable : List Value → Bool
  | [] => true
  | x :: xs => x.isComparable && areComparable xs
termination_by structural xs => xs

/-- All values of an object can be compared. -/
def areComparableEntries : List (Value × Value) → Bool
  | [] => true
  | (_, v) :: es => v.isComparable && areComparableEntries es
termination_by structural es => es

end

theorem areComparable_iff {xs : List Value} :
    areComparable xs = true ↔ ∀ x ∈ xs, x.isComparable = true := by
  induction xs with
  | nil => simp [areComparable]
  | cons x xs ih => rw [areComparable, Bool.and_eq_true, ih, List.forall_mem_cons]

theorem areComparableEntries_iff {es : Entries} :
    areComparableEntries es = true ↔ ∀ e ∈ es, e.2.isComparable = true := by
  induction es with
  | nil => simp [areComparableEntries]
  | cons e es ih => rw [areComparableEntries, Bool.and_eq_true, ih, List.forall_mem_cons]

mutual

theorem isComparable_of_isJson : ∀ {v : Value}, v.isJson = true → v.isComparable = true
  | .list xs, h => by
    rw [Value.isJson] at h
    exact areComparable_of_areJson h
  | .dict es, h => by
    rw [Value.isJson] at h
    exact areComparableEntries_of_json h
  | .null, _ | .bool _, _ | .int _, _ | .double _, _ | .str _, _ => rfl

theorem areComparable_of_areJson : ∀ {xs : List Value}, areJson xs = true → areComparable xs = true
  | [], _ => rfl
  | x :: xs, h => by
    rw [areJson, Bool.and_eq_true] at h
    rw [areComparable, isComparable_of_isJson h.1, areComparable_of_areJson h.2]
    rfl

theorem areComparableEntries_of_json : ∀ {es : List (Value × Value)}, areJsonEntries es = true →
    areComparableEntries es = true
  | [], _ => rfl
  | (.str key, v) :: es, h => by
    rw [areJsonEntries, Bool.and_eq_true] at h
    rw [areComparableEntries, isComparable_of_isJson h.1, areComparableEntries_of_json h.2]
    rfl

end

/-! ## Comparison -/

theorem Value.equals_str (a b : String) : (Value.str a).equals (.str b) = (a == b) := rfl

theorem Value.equals_int (m n : Int) : (Value.int m).equals (.int n) = (m == n) := by
  have hcast : ((m : Rat) == (n : Rat)) = (m == n) := by
    rw [Bool.eq_iff_iff, beq_iff_eq, beq_iff_eq]
    exact Rat.intCast_inj
  exact hcast

theorem isIncomparable_eq_false {a b : Value} (ha : a.isComparable = true)
    (hb : b.isComparable = true) : a.isIncomparable b = false := by
  cases a with
  | decimal d => cases ha
  | _ =>
    cases b with
    | decimal d => cases hb
    | _ => rfl

theorem comparedLists_isOk {xs ys : List Value} (hys : ∀ y ∈ ys, y.isComparable = true)
    (h : ∀ x ∈ xs, ∀ y, y.isComparable = true → ∃ same, x.compared y = .ok same) :
    ∃ same, Value.comparedLists xs ys = .ok same := by
  induction xs generalizing ys with
  | nil => exact ⟨true, rfl⟩
  | cons x xs ih =>
    cases ys with
    | nil => exact ⟨true, rfl⟩
    | cons y ys =>
      rw [List.forall_mem_cons] at h hys
      obtain ⟨same, hsame⟩ := h.1 y hys.1
      obtain ⟨rest, hrest⟩ := ih hys.2 h.2
      cases same with
      | true => exact ⟨rest, by rw [Value.comparedLists, hsame]; exact hrest⟩
      | false => exact ⟨false, by rw [Value.comparedLists, hsame]; rfl⟩

theorem comparedEntries_isOk {es fs : Entries} (hfs : ∀ f ∈ fs, f.2.isComparable = true)
    (h : ∀ e ∈ es, ∀ y, y.isComparable = true → ∃ same, e.2.compared y = .ok same) :
    ∃ same, Value.comparedEntries es fs = .ok same := by
  induction es with
  | nil => exact ⟨true, rfl⟩
  | cons e es ih =>
    obtain ⟨key, v⟩ := e
    rw [List.forall_mem_cons] at h
    obtain ⟨rest, hrest⟩ := ih h.2
    rw [Value.comparedEntries]
    split
    · exact ⟨false, rfl⟩
    · rename_i f hf
      obtain ⟨same, hsame⟩ := h.1 f.2 (hfs f (List.mem_of_find?_eq_some hf))
      rw [hsame]
      cases same with
      | true => exact ⟨rest, hrest⟩
      | false => exact ⟨false, rfl⟩

/-- Values without decimals can be compared. -/
theorem compared_isOk {a b : Value} (ha : a.isComparable = true) (hb : b.isComparable = true) :
    ∃ same, a.compared b = .ok same := by
  rw [Value.compared.eq_def]
  split
  · rename_i xs ys
    rw [Value.isComparable] at ha hb
    rw [areComparable_iff] at ha hb
    split
    · exact comparedLists_isOk hb fun x hx y hy => compared_isOk (ha x hx) hy
    · exact ⟨false, rfl⟩
  · rename_i es fs
    rw [Value.isComparable] at ha hb
    rw [areComparableEntries_iff] at ha hb
    split
    · exact comparedEntries_isOk hb fun e he y hy => by
        have hsize := List.sizeOf_lt_of_mem he
        obtain ⟨key, v⟩ := e
        have hv : sizeOf v < sizeOf (Value.dict es) := by
          simp only [Prod.mk.sizeOf_spec, Value.dict.sizeOf_spec] at hsize ⊢
          omega
        exact compared_isOk (ha _ he) hy
    · exact ⟨false, rfl⟩
  · rw [isIncomparable_eq_false ha hb]
    exact ⟨_, rfl⟩
termination_by sizeOf a

end TypedSearch
