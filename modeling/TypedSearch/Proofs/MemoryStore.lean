import Mathlib.Data.List.Nodup
import TypedSearch.Engine.Memory
import TypedSearch.Proofs.Comparison

/-!
# What the engine in memory holds

Storing a document changes what is found under its index and id, and nothing else. A document that
is changed by one with the same keys becomes that one.

* `Memory.find?_put`: what is found after storing.
* `Memory.find?_storeAll`: where the documents of a row are found.
* `Memory.mergeEntries_row`: the change of an object by one with the same keys.
* `Memory.changesNothing_isOk`: it can be told whether a change changes anything.
-/

namespace TypedSearch

namespace Memory

variable {m : Memory} {index id : String}

/-! ## Storing -/

theorem isAt_iff {d : StoredDocument} : isAt index id d = true ↔ d.index = index ∧ d.id = id := by
  rw [isAt, Bool.and_eq_true, beq_iff_eq, beq_iff_eq]

/-- Under the place of a document that is stored stands this document, and under any other place
what stood there before. -/
theorem find?_put (m : Memory) (index id index' id' : String) (document : Value) :
    (m.put index id document).find? index' id' =
      if index = index' ∧ id = id' then some document else m.find? index' id' := by
  have hself : isAt index' id' ⟨index, id, document⟩ = decide (index = index' ∧ id = id') := by
    rw [Bool.eq_iff_iff, isAt_iff, decide_eq_true_iff]
  unfold put find?
  split
  · rename_i hany
    -- The place is looked for among documents that are all where they were.
    have hplace : ∀ d : StoredDocument, isAt index' id'
        (if isAt index id d = true then { d with document } else d) = isAt index' id' d := by
      intro d
      split <;> rfl
    rw [List.find?_map, Function.comp_def]
    simp only [hplace]
    by_cases hsame : index = index' ∧ id = id'
    · obtain ⟨rfl, rfl⟩ := hsame
      obtain ⟨d, hd⟩ := Option.isSome_iff_exists.mp (List.find?_isSome.mpr (List.any_eq_true.mp hany))
      have hat : isAt index id d = true := by simpa using List.find?_some hd
      simp [hd, hat]
    · rw [if_neg hsame]
      cases hd : m.documents.find? (isAt index' id') with
      | none => rfl
      | some d =>
        have hat : isAt index' id' d = true := by simpa using List.find?_some hd
        have hother : isAt index id d = false := by
          rw [Bool.eq_false_iff, ne_eq, isAt_iff]
          rw [isAt_iff] at hat
          rintro ⟨rfl, rfl⟩
          exact hsame hat
        simp [hother]
  · rename_i hany
    rw [List.find?_append, List.find?_singleton, hself]
    by_cases hsame : index = index' ∧ id = id'
    · obtain ⟨rfl, rfl⟩ := hsame
      have hnone : m.documents.find? (isAt index id) = none := by
        rw [List.find?_eq_none]
        intro d hd hat
        exact hany (List.any_eq_true.mpr ⟨d, hd, hat⟩)
      simp [hnone]
    · simp [hsame]

/-- A document with an id is stored under this id. -/
theorem store_some {id : String} (hid : id ≠ "") (m : Memory) (index : String) (document : Value) :
    m.store index (some id) document = (id, m.put index id document) := by
  simp [store, idFor, Option.filter, hid]

/-- A document is found where it is stored, whether the id was given or chosen. -/
theorem find?_store (m : Memory) (index : String) (id : Option String) (document : Value)
    (index' id' : String) : (m.store index id document).2.find? index' id' =
      if index = index' ∧ (m.store index id document).1 = id' then some document
      else m.find? index' id' := by
  have hchosen : (m.idFor id).2.find? index' id' = m.find? index' id' := by
    unfold idFor
    split <;> rfl
  have hstore : m.store index id document =
      ((m.idFor id).1, (m.idFor id).2.put index (m.idFor id).1 document) := rfl
  rw [hstore, find?_put, hchosen]

theorem storeAll_cons (m : Memory) (b : BulkItem) (bs : List BulkItem) :
    m.storeAll (b :: bs) =
      ((b.index, (m.store b.index b.id b.document).1) ::
          ((m.store b.index b.id b.document).2.storeAll bs).1,
        ((m.store b.index b.id b.document).2.storeAll bs).2) := rfl

/-- Where no document of a row is stored, what is found stays. -/
theorem find?_storeAll_of_notMem {bs : List BulkItem} {place : String × String}
    (h : place ∉ (m.storeAll bs).1) :
    (m.storeAll bs).2.find? place.1 place.2 = m.find? place.1 place.2 := by
  induction bs generalizing m with
  | nil => rfl
  | cons b bs ih =>
    rw [storeAll_cons] at h ⊢
    rw [List.mem_cons, not_or] at h
    rw [ih h.2, find?_store, if_neg]
    rintro ⟨hindex, hid⟩
    exact h.1 (Prod.ext hindex.symm hid.symm)

/-- Each document of a row has a place, and it is found there unless a later one is stored in the
same place. -/
theorem find?_storeAll {bs : List BulkItem} {i : Nat} {b : BulkItem} (hb : bs[i]? = some b) :
    ∃ id, (m.storeAll bs).1[i]? = some (b.index, id) ∧
      ((b.index, id) ∉ (m.storeAll bs).1.drop (i + 1) →
        (m.storeAll bs).2.find? b.index id = some b.document) := by
  induction bs generalizing m i with
  | nil => cases hb
  | cons b' bs ih =>
    rw [storeAll_cons]
    cases i with
    | zero =>
      obtain rfl := Option.some.inj hb
      refine ⟨_, rfl, fun hlater => ?_⟩
      rw [find?_storeAll_of_notMem hlater, find?_store, if_pos ⟨rfl, rfl⟩]
    | succ i => exact ih hb

/-! ## Changing -/

variable {α : Type} {key : α → String} {xs : List α}

theorem insert_row (value : α → Value) {x : α} (hx : x ∈ xs) (v : Value) :
    Entries.insert (xs.map fun y => (.str (key y), value y)) (.str (key x)) v =
      xs.map fun y => (.str (key y), if key y = key x then v else value y) := by
  have hany : (xs.map fun y => ((.str (key y), value y) : Value × Value)).any
      (fun e => e.1.equals (.str (key x))) = true :=
    List.any_eq_true.mpr ⟨_, List.mem_map.mpr ⟨x, hx, rfl⟩, by simp [Value.equals_str]⟩
  unfold Entries.insert
  rw [if_pos hany, List.map_map]
  refine List.map_congr_left fun y _ => ?_
  rw [Function.comp_apply, Value.equals_str]
  by_cases hkey : key y = key x <;> simp [hkey]

/-- The changes replace the values under their keys. -/
theorem mergeEntries_rows (hn : (xs.map key).Nodup) (value value' : α → Value) {ys : List α}
    (hys : ∀ y ∈ ys, y ∈ xs) :
    mergeEntries (xs.map fun x => (.str (key x), value x))
        (ys.map fun y => (.str (key y), value' y)) =
      xs.map fun x => (.str (key x), if key x ∈ ys.map key then value' x else value x) := by
  induction ys generalizing value with
  | nil => simp [mergeEntries]
  | cons y ys ih =>
    rw [List.forall_mem_cons] at hys
    have hstep : mergeEntries (xs.map fun x => (.str (key x), value x))
        ((y :: ys).map fun y => (.str (key y), value' y)) =
        mergeEntries (Entries.insert (xs.map fun x => (.str (key x), value x)) (.str (key y))
          (value' y)) (ys.map fun y => (.str (key y), value' y)) := rfl
    rw [hstep, insert_row value hys.1, ih _ hys.2]
    refine List.map_congr_left fun x hx => ?_
    by_cases hkey : key x = key y
    · obtain rfl := List.inj_on_of_nodup_map hn hx hys.1 hkey
      simp
    · simp [hkey]

/-- An object that is changed by one with the same keys becomes that one. -/
theorem mergeEntries_row (hn : (xs.map key).Nodup) (value value' : α → Value) :
    mergeEntries (xs.map fun x => (.str (key x), value x))
        (xs.map fun x => (.str (key x), value' x)) =
      xs.map fun x => (.str (key x), value' x) := by
  rw [mergeEntries_rows hn value value' fun x hx => hx]
  refine List.map_congr_left fun x hx => ?_
  rw [if_pos (List.mem_map.mpr ⟨x, hx, rfl⟩)]

/-- It can be told whether a change changes anything if nothing in it is a decimal. -/
theorem changesNothing_isOk {changes document : Entries}
    (hchanges : areComparableEntries changes = true)
    (hdocument : areComparableEntries document = true) :
    ∃ same, changesNothing changes document = .ok same := by
  rw [areComparableEntries_iff] at hchanges hdocument
  unfold changesNothing
  split
  · refine comparedEntries_isOk hdocument fun e he y hy => compared_isOk ?_ hy
    obtain ⟨e', -, hfind⟩ := List.mem_filterMap.mp he
    exact hchanges e (List.mem_of_find?_eq_some hfind)
  · exact ⟨false, rfl⟩

end Memory

end TypedSearch
