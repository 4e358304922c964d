import Mathlib.Logic.Relation
import TypedSearch.Document.Prepare
import TypedSearch.Proofs.Entries
import TypedSearch.Proofs.Results

/-!
# Records that cannot be taken apart

A record is taken apart before it is stored. A field may be missing, an object in it may have a
record for a key, which becomes an object and is no key anymore, and an entity in it that is copied
may hide how. Nothing else stands in the way.

* `Value.HasPart`: something of a kind is among the parts of a value, at any depth.
* `Schema.RecordObstacle`: the parts at which a record cannot be taken apart.
* `Schema.explains_takeApart`: nothing else stands in the way.
* `Schema.takeApart_fails`: **no record with an object whose keys are records can be taken apart.**
-/

namespace TypedSearch

/-! ## Parts -/

namespace Value

/-- The values of which a value is made up directly. -/
def parts : Value → List Value
  | .list xs | .tuple xs | .set xs | .frozenset xs => xs
  | .dict es => es.flatMap fun e => [e.1, e.2]
  | .member _ _ _ v => [v]
  | .entity _ _ as => as.map (·.2)
  | .condition path operator operand => [path, operator, operand]
  | _ => []

/-- The value `part` is a value or one of its parts, at any depth. Keys of objects and elements of
frozen sets count too. -/
def PartOf (part v : Value) : Prop :=
  Relation.ReflTransGen (fun part whole => part ∈ whole.parts) part v

/-- Something of the kind is in the value, or is the value. -/
def HasPart (P : Value → Prop) (v : Value) : Prop := ∃ part : Value, part.PartOf v ∧ P part

theorem HasPart.here {P : Value → Prop} {v : Value} (h : P v) : v.HasPart P := ⟨v, .refl, h⟩

theorem HasPart.of_mem {P : Value → Prop} {x v : Value} (h : x.HasPart P) (hx : x ∈ v.parts) :
    v.HasPart P := by
  obtain ⟨part, hpart, hP⟩ := h
  exact ⟨part, hpart.tail hx, hP⟩

theorem key_mem_parts {es : Entries} {e : Value × Value} (he : e ∈ es) :
    e.1 ∈ (dict es).parts :=
  List.mem_flatMap.mpr ⟨e, he, List.mem_cons_self⟩

theorem value_mem_parts {es : Entries} {e : Value × Value} (he : e ∈ es) :
    e.2 ∈ (dict es).parts :=
  List.mem_flatMap.mpr ⟨e, he, List.mem_cons_of_mem _ List.mem_cons_self⟩

theorem attribute_mem_parts {kind : EntityKind} {cls : String} {as : List (String × Value)}
    {a : String × Value} (ha : a ∈ as) : a.2 ∈ (entity kind cls as).parts :=
  List.mem_map_of_mem ha

mutual

/-- The value is an entity of such a class, or a tuple that holds one. -/
def holdsEntity (is : String → Bool) : Value → Bool
  | .entity _ cls _ => is cls
  | .tuple xs => anyHoldsEntity is xs
  | _ => false
termination_by structural v => v

/-- One of the values is an entity of such a class, or a tuple that holds one. -/
def anyHoldsEntity (is : String → Bool) : List Value → Bool
  | [] => false
  | x :: xs => x.holdsEntity is || anyHoldsEntity is xs
termination_by structural xs => xs

end

theorem anyHoldsEntity_iff {is : String → Bool} {xs : List Value} :
    anyHoldsEntity is xs = true ↔ ∃ x ∈ xs, x.holdsEntity is = true := by
  induction xs with
  | nil => simp [anyHoldsEntity]
  | cons x xs ih => simp [anyHoldsEntity, ih]

end Value

namespace Schema

variable {s : Schema}

/-! ## Obstacles -/

/-- What cannot be taken apart with a record around it, and the fault: a record without an attribute
for one of its fields, an object with a record for a key, on its own or in a tuple, and an entity
that hides how it is copied. -/
inductive RecordObstacle (s : Schema) : Fault → Value → Prop
  | missing {kind : EntityKind} {own : String} {as : List (String × Value)}
      {g : FieldDecl TypeExpr} : s.isRecord own = true → g ∈ s.settledRecordFields own →
      as.lookup g.name = none → RecordObstacle s .missingAttribute (.entity kind own as)
  | key {es : Entries} {e : Value × Value} : e ∈ es → e.1.holdsEntity s.isRecord = true →
      RecordObstacle s .wrongType (.dict es)
  | hidden {kind : EntityKind} {own : String} {as : List (String × Value)} :
      s.isModel own = false → hidesCopying as = true →
      RecordObstacle s .wrongType (.entity kind own as)

/-! ## Rows of attributes -/

/-- Going through fields fails at an attribute, or at a field of a record that has none. -/
theorem throughFields_error {α : Type} {writer : Option (EntityKind × String)}
    {outcomes : List (String × Except Fault α)} {fault : Fault}
    (h : s.throughFields writer outcomes = .error fault) :
    (∃ o ∈ outcomes, o.2 = .error fault) ∨
      fault = .missingAttribute ∧ ∃ cls, writer = some (.record, cls) ∧
        ∃ g ∈ s.settledRecordFields cls, outcomes.lookup g.name = none := by
  unfold throughFields at h
  split at h
  · rename_i cls
    obtain ⟨g, hg, hfault⟩ := exists_of_forM_eq_error h
    rw [map_eq_error] at hfault
    cases ho : outcomes.lookup g.name with
    | none =>
      rw [ho] at hfault
      cases hfault
      exact .inr ⟨rfl, cls, rfl, g, hg, ho⟩
    | some o =>
      rw [ho] at hfault
      obtain ⟨l₁, l₂, hsplit, -⟩ := List.lookup_eq_some_iff.mp ho
      exact .inl ⟨(g.name, o), hsplit ▸ by simp, hfault⟩
  · obtain ⟨o, ho, hfault⟩ := exists_of_forM_eq_error h
    exact .inl ⟨o, ho, map_eq_error.mp hfault⟩

/-! ## Taking records apart -/

mutual

/-- A value that cannot be copied holds an entity that hides how. -/
theorem hasPart_of_not_isCopied : ∀ v : Value, s.isCopied v = false →
    v.HasPart (s.RecordObstacle .wrongType)
  | .list xs, h | .tuple xs, h | .set xs, h | .frozenset xs, h => by
    rw [isCopied] at h
    obtain ⟨x, hx, hpart⟩ := hasPart_of_not_areCopied xs h
    exact hpart.of_mem hx
  | .dict es, h => by
    rw [isCopied] at h
    obtain ⟨e, he, hpart | hpart⟩ := hasPart_of_not_areEntriesCopied es h
    · exact hpart.of_mem (Value.key_mem_parts he)
    · exact hpart.of_mem (Value.value_mem_parts he)
  | .entity kind own as, h => by
    rw [isCopied, Bool.and_eq_false_iff, Bool.or_eq_false_iff, Bool.not_eq_false'] at h
    rcases h with ⟨hm, hhides⟩ | h
    · exact .here (.hidden hm hhides)
    · obtain ⟨a, ha, hpart⟩ := hasPart_of_not_areAttributesCopied as h
      exact hpart.of_mem (Value.attribute_mem_parts ha)
  | .condition path operator operand, h => by
    rw [isCopied, Bool.and_eq_false_iff, Bool.and_eq_false_iff] at h
    rcases h with (h | h) | h
    · exact (hasPart_of_not_isCopied path h).of_mem (by simp [Value.parts])
    · exact (hasPart_of_not_isCopied operator h).of_mem (by simp [Value.parts])
    · exact (hasPart_of_not_isCopied operand h).of_mem (by simp [Value.parts])
  | .null, h | .bool _, h | .int _, h | .double _, h | .decimal _, h | .str _, h | .bytes _, h
  | .uuid _, h | .date _, h | .datetime _, h | .url _, h | .member _ _ _ _, h | .field _, h
  | .operation _ _, h | .featureless, h => by cases h

theorem hasPart_of_not_areCopied : ∀ xs : List Value, s.areCopied xs = false →
    ∃ x ∈ xs, x.HasPart (s.RecordObstacle .wrongType)
  | [], h => by cases h
  | x :: xs, h => by
    rw [areCopied, Bool.and_eq_false_iff] at h
    rcases h with h | h
    · exact ⟨x, List.mem_cons_self, hasPart_of_not_isCopied x h⟩
    · obtain ⟨y, hy, hpart⟩ := hasPart_of_not_areCopied xs h
      exact ⟨y, List.mem_cons_of_mem _ hy, hpart⟩

theorem hasPart_of_not_areEntriesCopied : ∀ es : List (Value × Value),
    s.areEntriesCopied es = false → ∃ e ∈ es, e.1.HasPart (s.RecordObstacle .wrongType) ∨
      e.2.HasPart (s.RecordObstacle .wrongType)
  | [], h => by cases h
  | (k, v) :: es, h => by
    rw [areEntriesCopied, Bool.and_eq_false_iff, Bool.and_eq_false_iff] at h
    rcases h with (h | h) | h
    · exact ⟨(k, v), List.mem_cons_self, .inl (hasPart_of_not_isCopied k h)⟩
    · exact ⟨(k, v), List.mem_cons_self, .inr (hasPart_of_not_isCopied v h)⟩
    · obtain ⟨e, he, hpart⟩ := hasPart_of_not_areEntriesCopied es h
      exact ⟨e, List.mem_cons_of_mem _ he, hpart⟩

theorem hasPart_of_not_areAttributesCopied : ∀ as : List (String × Value),
    s.areAttributesCopied as = false → ∃ a ∈ as, a.2.HasPart (s.RecordObstacle .wrongType)
  | [], h => by cases h
  | (name, v) :: as, h => by
    rw [areAttributesCopied, Bool.and_eq_false_iff] at h
    rcases h with h | h
    · exact ⟨(name, v), List.mem_cons_self, hasPart_of_not_isCopied v h⟩
    · obtain ⟨a, ha, hpart⟩ := hasPart_of_not_areAttributesCopied as h
      exact ⟨a, List.mem_cons_of_mem _ ha, hpart⟩

end

/-! ## Outcomes -/

/-- What a value has to hold for an outcome: for a fault what stands in the way, and for an object,
or a tuple with one, an entity of such a class. -/
def Explains (obstacle : Fault → Value → Prop) (is : String → Bool) (v : Value) :
    Except Fault Bool → Prop
  | .error fault => v.HasPart (obstacle fault)
  | .ok isObject => isObject = true → v.holdsEntity is = true

/-- What one of several values has to hold for an outcome. -/
def ExplainsEach (obstacle : Fault → Value → Prop) (is : String → Bool) (xs : List Value) :
    Except Fault Bool → Prop
  | .error fault => ∃ x ∈ xs, x.HasPart (obstacle fault)
  | .ok areObjects => areObjects = true → ∃ x ∈ xs, x.holdsEntity is = true

/-- What the keys and values of an object have to hold for a fault. -/
def ExplainsEntries (obstacle : Fault → Value → Prop) (is : String → Bool) (es : Entries) :
    Except Fault Unit → Prop
  | .error fault => (∃ e ∈ es, e.1.HasPart (obstacle fault) ∨ e.2.HasPart (obstacle fault)) ∨
      fault = .wrongType ∧ ∃ e ∈ es, e.1.holdsEntity is = true
  | .ok _ => True

section Outcomes

variable {obstacle : Fault → Value → Prop} {is : String → Bool}

theorem ExplainsEach.cons {x : Value} {xs : List Value} {first rest : Except Fault Bool}
    (hx : Explains obstacle is x first) (hxs : ExplainsEach obstacle is xs rest) :
    ExplainsEach obstacle is (x :: xs)
      (do let isObject ← first; let areObjects ← rest; return isObject || areObjects) := by
  cases first with
  | error fault => exact ⟨x, List.mem_cons_self, hx⟩
  | ok isObject =>
    cases rest with
    | error fault =>
      obtain ⟨y, hy, hpart⟩ := hxs
      exact ⟨y, List.mem_cons_of_mem _ hy, hpart⟩
    | ok areObjects =>
      intro h
      rcases Bool.or_eq_true_iff.mp h with h | h
      · exact ⟨x, List.mem_cons_self, hx h⟩
      · obtain ⟨y, hy, hholds⟩ := hxs h
        exact ⟨y, List.mem_cons_of_mem _ hy, hholds⟩

/-- A collection that is no object whatever comes of its elements. -/
theorem ExplainsEach.collection {v : Value} {outcome : Except Fault Bool}
    (h : ExplainsEach obstacle is v.parts outcome) :
    Explains obstacle is v (outcome.map fun _ => false) := by
  cases outcome with
  | error fault =>
    obtain ⟨x, hx, hpart⟩ := h
    exact hpart.of_mem hx
  | ok areObjects => nofun

theorem ExplainsEach.tuple {xs : List Value} {outcome : Except Fault Bool}
    (h : ExplainsEach obstacle is xs outcome) : Explains obstacle is (.tuple xs) outcome := by
  cases outcome with
  | error fault =>
    obtain ⟨x, hx, hpart⟩ := h
    exact hpart.of_mem hx
  | ok areObjects =>
    intro hobject
    rw [Value.holdsEntity]
    exact Value.anyHoldsEntity_iff.mpr (h hobject)

/-- A collection that takes no objects as its elements. -/
theorem ExplainsEach.keys {v : Value} {outcome : Except Fault Bool}
    (h : ExplainsEach obstacle is v.parts outcome)
    (hobstacle : ∀ x ∈ v.parts, x.holdsEntity is = true → obstacle .wrongType v) :
    Explains obstacle is v
      (do let areObjects ← outcome; if areObjects then .error .wrongType else .ok false) := by
  cases outcome with
  | error fault =>
    obtain ⟨x, hx, hpart⟩ := h
    exact hpart.of_mem hx
  | ok areObjects =>
    cases areObjects with
    | false => nofun
    | true =>
      obtain ⟨x, hx, hholds⟩ := h rfl
      exact .here (hobstacle x hx hholds)

theorem ExplainsEntries.cons {k v : Value} {es : Entries} {key value : Except Fault Bool}
    {rest : Except Fault Unit} (hk : Explains obstacle is k key)
    (hv : Explains obstacle is v value) (hes : ExplainsEntries obstacle is es rest) :
    ExplainsEntries obstacle is ((k, v) :: es)
      (do let isObject ← key; let _ ← value; if isObject then .error .wrongType else rest) := by
  cases key with
  | error fault => exact .inl ⟨(k, v), List.mem_cons_self, .inl hk⟩
  | ok isObject =>
    cases value with
    | error fault => exact .inl ⟨(k, v), List.mem_cons_self, .inr hv⟩
    | ok isValueObject =>
      cases isObject with
      | true => exact .inr ⟨rfl, (k, v), List.mem_cons_self, hk rfl⟩
      | false =>
        cases rest with
        | ok _ => trivial
        | error fault =>
          refine hes.imp ?_ (And.imp_right ?_)
          · rintro ⟨e, he, hpart⟩
            exact ⟨e, List.mem_cons_of_mem _ he, hpart⟩
          · rintro ⟨e, he, hholds⟩
            exact ⟨e, List.mem_cons_of_mem _ he, hholds⟩

theorem ExplainsEntries.object {es : Entries} {outcome : Except Fault Unit}
    (h : ExplainsEntries obstacle is es outcome)
    (hobstacle : ∀ e ∈ es, e.1.holdsEntity is = true → obstacle .wrongType (.dict es)) :
    Explains obstacle is (.dict es) (outcome.map fun _ => false) := by
  cases outcome with
  | ok _ => nofun
  | error fault =>
    rcases h with ⟨e, he, hpart | hpart⟩ | ⟨rfl, e, he, hholds⟩
    · exact hpart.of_mem (Value.key_mem_parts he)
    · exact hpart.of_mem (Value.value_mem_parts he)
    · exact .here (hobstacle e he hholds)

/-- An entity that becomes an object of its attributes. -/
theorem Explains.entity {kind : EntityKind} {own : String} {as : List (String × Value)}
    {writer : Option (EntityKind × String)} {outcomes : List (String × Except Fault Bool)}
    (h : ∀ o ∈ outcomes, ∃ a ∈ as, Explains obstacle is a.2 o.2)
    (hmissing : ∀ cls, writer = some (.record, cls) → ∀ g ∈ s.settledRecordFields cls,
      outcomes.lookup g.name = none → obstacle .missingAttribute (.entity kind own as))
    (his : is own = true) : Explains obstacle is (.entity kind own as)
      ((s.throughFields writer outcomes).map fun _ => true) := by
  cases hthrough : s.throughFields writer outcomes with
  | ok _ =>
    intro _
    rwa [Value.holdsEntity]
  | error fault =>
    rcases throughFields_error hthrough with ⟨o, ho, hfault⟩ | ⟨rfl, cls, hwriter, g, hg, hnone⟩
    · obtain ⟨a, ha, hpart⟩ := h o ho
      rw [hfault] at hpart
      exact Value.HasPart.of_mem hpart (Value.attribute_mem_parts ha)
    · exact .here (hmissing cls hwriter g hg hnone)

end Outcomes

/-! ## Records that are taken apart -/

theorem explains_copy {is : String → Bool} (v : Value) :
    Explains s.RecordObstacle is v (s.copy v) := by
  unfold copy
  cases h : s.isCopied v with
  | true => nofun
  | false => exact hasPart_of_not_isCopied v h

theorem lookup_takeApartAttributes (as : List (String × Value)) (name : String) :
    (s.takeApartAttributes as).lookup name = (as.lookup name).map s.takeApart := by
  induction as with
  | nil => rfl
  | cons a as ih =>
    rw [takeApartAttributes, List.lookup_cons, List.lookup_cons]
    cases name == a.1 with
    | true => rfl
    | false => exact ih

mutual

/-- Only an obstacle keeps a value from being taken apart, and only records become objects. -/
theorem explains_takeApart : ∀ v : Value,
    Explains s.RecordObstacle s.isRecord v (s.takeApart v)
  | .list xs => by
    rw [takeApart]
    exact ExplainsEach.collection (v := .list xs) (explains_takeApartEach xs)
  | .tuple xs => by
    rw [takeApart]
    exact (explains_takeApartEach xs).tuple
  | .dict es => by
    rw [takeApart]
    exact (explains_takeApartEntries es).object fun e he hholds => .key he hholds
  | .entity kind own as => by
    rw [takeApart]
    split
    · rename_i hr
      refine .entity (explains_takeApartAttributes as) ?_ hr
      rintro _ ⟨⟩ g hg hnone
      rw [lookup_takeApartAttributes, Option.map_eq_none_iff] at hnone
      exact .missing hr hg hnone
    · exact explains_copy _
  | .set _ | .frozenset _ | .condition _ _ _ | .null | .bool _ | .int _ | .double _ | .decimal _
  | .str _ | .bytes _ | .uuid _ | .date _ | .datetime _ | .url _ | .member _ _ _ _ | .field _
  | .operation _ _ | .featureless => explains_copy _

theorem explains_takeApartEach : ∀ xs : List Value,
    ExplainsEach s.RecordObstacle s.isRecord xs (s.takeApartEach xs)
  | [] => nofun
  | x :: xs => by
    rw [takeApartEach]
    exact .cons (explains_takeApart x) (explains_takeApartEach xs)

theorem explains_takeApartEntries : ∀ es : List (Value × Value),
    ExplainsEntries s.RecordObstacle s.isRecord es (s.takeApartEntries es)
  | [] => trivial
  | (k, v) :: es => by
    rw [takeApartEntries]
    exact .cons (explains_takeApart k) (explains_takeApart v) (explains_takeApartEntries es)

theorem explains_takeApartAttributes : ∀ as : List (String × Value),
    ∀ o ∈ s.takeApartAttributes as, ∃ a ∈ as, Explains s.RecordObstacle s.isRecord a.2 o.2
  | [], _, ho => by
    rw [takeApartAttributes] at ho
    cases ho
  | (name, v) :: as, o, ho => by
    rw [takeApartAttributes] at ho
    rcases List.mem_cons.mp ho with rfl | ho
    · exact ⟨(name, v), List.mem_cons_self, explains_takeApart v⟩
    · obtain ⟨a, ha, hexplains⟩ := explains_takeApartAttributes as o ho
      exact ⟨a, List.mem_cons_of_mem _ ha, hexplains⟩

end

/-! ## Records that cannot be taken apart -/

/-- A part that is taken apart with a value: through lists, tuples and objects, keys and all, and
through the fields of records. -/
inductive Opens (s : Schema) (part : Value) : Value → Prop
  | here : Opens s part part
  | list {xs : List Value} {x : Value} : x ∈ xs → Opens s part x → Opens s part (.list xs)
  | tuple {xs : List Value} {x : Value} : x ∈ xs → Opens s part x → Opens s part (.tuple xs)
  | key {es : Entries} {e : Value × Value} : e ∈ es → Opens s part e.1 → Opens s part (.dict es)
  | value {es : Entries} {e : Value × Value} : e ∈ es → Opens s part e.2 →
      Opens s part (.dict es)
  | field {kind : EntityKind} {own : String} {as : List (String × Value)}
      {g : FieldDecl TypeExpr} {v : Value} : s.isRecord own = true →
      g ∈ s.settledRecordFields own → as.lookup g.name = some v → Opens s part v →
      Opens s part (.entity kind own as)

/-- The step fails. -/
def Fails {α : Type} (outcome : Except Fault α) : Prop := ∃ fault, outcome = .error fault

mutual

/-- A record becomes an object, and so do the tuples that hold one. -/
theorem takeApart_of_holdsEntity : ∀ v : Value, v.holdsEntity s.isRecord = true →
    ∀ isObject, s.takeApart v = .ok isObject → isObject = true
  | .entity kind own as, hv, isObject, h => by
    rw [Value.holdsEntity] at hv
    rw [takeApart, if_pos hv] at h
    obtain ⟨-, -, rfl⟩ := map_eq_ok.mp h
    rfl
  | .tuple xs, hv, isObject, h => by
    rw [Value.holdsEntity] at hv
    rw [takeApart] at h
    exact takeApartEach_of_holdsEntity xs hv isObject h

theorem takeApartEach_of_holdsEntity : ∀ xs : List Value,
    Value.anyHoldsEntity s.isRecord xs = true →
    ∀ areObjects, s.takeApartEach xs = .ok areObjects → areObjects = true
  | x :: xs, hxs, areObjects, h => by
    rw [takeApartEach] at h
    obtain ⟨first, hfirst, h⟩ := bind_eq_ok.mp h
    obtain ⟨rest, hrest, h⟩ := bind_eq_ok.mp h
    cases h
    rw [Value.anyHoldsEntity, Bool.or_eq_true] at hxs
    rw [Bool.or_eq_true]
    exact hxs.imp (fun hx => takeApart_of_holdsEntity x hx _ hfirst)
      fun hxs => takeApartEach_of_holdsEntity xs hxs _ hrest

end

/-- Two steps fail if the second one does after any result of the first. -/
theorem Fails.bind {α β : Type} {x : Except Fault α} {g : α → Except Fault β}
    (h : ∀ a, x = .ok a → Fails (g a)) : Fails (x >>= g) := by
  cases x with
  | error fault => exact ⟨fault, rfl⟩
  | ok a => exact h a rfl

theorem Fails.map {α β : Type} {x : Except Fault α} (h : Fails x) (g : α → β) :
    Fails (x.map g) := by
  obtain ⟨fault, rfl⟩ := h
  exact ⟨fault, rfl⟩

theorem Fails.forM {α : Type} {xs : List α} {f : α → Except Fault Unit} {x : α} (hx : x ∈ xs)
    (h : Fails (f x)) : Fails (xs.forM f) := by
  induction xs with
  | nil => cases hx
  | cons y ys ih =>
    rw [show (y :: ys).forM f = (f y >>= fun _ => ys.forM f) from rfl]
    refine .bind fun a ha => ?_
    rcases List.mem_cons.mp hx with rfl | hx
    · obtain ⟨fault, hfault⟩ := h
      cases ha.symm.trans hfault
    · exact ih hx

theorem takeApartEach_fails {xs : List Value} {x : Value} (hx : x ∈ xs)
    (h : Fails (s.takeApart x)) : Fails (s.takeApartEach xs) := by
  induction xs with
  | nil => cases hx
  | cons y ys ih =>
    rw [takeApartEach]
    refine .bind fun first hfirst => .bind fun rest hrest => ?_
    rcases List.mem_cons.mp hx with rfl | hx
    · obtain ⟨fault, hfault⟩ := h
      cases hfirst.symm.trans hfault
    · obtain ⟨fault, hfault⟩ := ih hx
      cases hrest.symm.trans hfault

/-- An object cannot be taken apart if a key becomes an object, or if a key or a value cannot be
taken apart. -/
theorem takeApartEntries_fails {es : Entries} {e : Value × Value} (he : e ∈ es)
    (h : ∀ isObject, s.takeApart e.1 = .ok isObject → isObject = true ∨ Fails (s.takeApart e.2)) :
    Fails (s.takeApartEntries es) := by
  induction es with
  | nil => cases he
  | cons y ys ih =>
    obtain ⟨k, v⟩ := y
    rw [takeApartEntries]
    refine .bind fun isObject hkey => .bind fun isValueObject hvalue => ?_
    cases isObject with
    | true => exact ⟨.wrongType, rfl⟩
    | false =>
      rcases List.mem_cons.mp he with rfl | he
      · rcases h false hkey with h | ⟨fault, hfault⟩
        · cases h
        · cases hvalue.symm.trans hfault
      · exact ih he

/-- A record that opens to an object with a record for a key, on its own or in a tuple, cannot be
taken apart. -/
theorem takeApart_fails {es : Entries} {e : Value × Value} {v : Value}
    (hopens : s.Opens (.dict es) v) (he : e ∈ es) (hholds : e.1.holdsEntity s.isRecord = true) :
    Fails (s.takeApart v) := by
  induction hopens with
  | here =>
    rw [takeApart]
    exact (takeApartEntries_fails he fun isObject h =>
      .inl (takeApart_of_holdsEntity e.1 hholds isObject h)).map _
  | list hx _ ih =>
    rw [takeApart]
    exact (takeApartEach_fails hx ih).map _
  | tuple hx _ ih =>
    rw [takeApart]
    exact takeApartEach_fails hx ih
  | key he' _ ih =>
    rw [takeApart]
    refine (takeApartEntries_fails he' fun isObject h => ?_).map _
    obtain ⟨fault, hfault⟩ := ih
    cases h.symm.trans hfault
  | value he' _ ih =>
    rw [takeApart]
    exact (takeApartEntries_fails he' fun _ _ => .inr ih).map _
  | field hr hg hlookup _ ih =>
    rw [takeApart, if_pos hr]
    refine Fails.map (Fails.forM hg ?_) _
    rw [lookup_takeApartAttributes, hlookup]
    exact ih.map _

end Schema

end TypedSearch
