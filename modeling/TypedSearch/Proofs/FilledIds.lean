import TypedSearch.Proofs.MadeAttributes
import TypedSearch.Proofs.Renaming
import TypedSearch.Schema.Conversion

/-!
# Filled ids

The engine's id is put into the document that is read where the document lacks an entry under the
attribute name of the application's id. A class looks for its attributes under other names too:
under their aliases, and only a model that says so under their own names. So the id may come to
nothing, and it may come to an attribute that has the name of the application's id as its alias.

* `Schema.takesId`: the attribute is read from the engine's id.
* `Schema.has_storedKey_of_rename`: what the renaming back makes of the application's id.
* `Schema.findSome?_of_takesId`, `Schema.findSome?_of_not_takesId`: what is found under the names of
  an attribute.
* `Schema.filled_id_spec`: **the engine's id comes to exactly the attributes that take it.**
-/

namespace TypedSearch

namespace Schema

variable {s : Schema} {naming : Option Naming} {cls appId : String}

/-! ## Attributes that take the id -/

/-- The engine's id is filled in, and no name under which the attribute is looked for before is
there. -/
def takesId (s : Schema) (cls appId : String) (back : Entries) (name : String) : Bool :=
  !back.has appId &&
    (s.givenNames cls name).find? (fun key => key == appId || back.has key) == some appId

/-- The class has the application's id among its fields, with a wire name, and its stored keys and
wire names do not get in each other's way. -/
structure DeclaresId (s : Schema) (naming : Option Naming) (cls appId wire : String) : Prop where
  wire : s.wireName naming cls appId = .ok wire
  fields : ∀ fs, s.fieldsOf naming (.named cls) = .ok fs →
    s.WellNamed cls fs ∧ ∃ g ∈ fs, g.name = appId

/-! ## The renaming back -/

variable {r : Renamer} {direction : Direction} {g : FieldEntry} {fs : List FieldEntry}
  {es es' : Entries}

/-- The new key of a field is there after the renaming exactly if one of its keys was there before. -/
theorem has_target_of_renameFields (hw : s.WellNamed cls fs) (hg : g ∈ fs)
    (h : s.renameFields r direction cls fs es = .ok es') :
    es'.has (s.targetKey direction cls g) =
      (es.has (s.sourceKey direction cls g) || es.has (s.targetKey direction cls g)) := by
  have hmoves := movesFields_of_wellNamed hw h
  cases hget : es.get? (s.sourceKey direction cls g) with
  | none =>
    have hkept := hmoves.absent g hg hget
    rw [Entries.get?_eq_none_iff.mp hget, Bool.false_or, Bool.eq_iff_iff, Entries.has_iff,
      Entries.has_iff, hkept]
  | some v =>
    obtain ⟨w, -, hw'⟩ := hmoves.moved g hg v hget
    rw [Entries.has_iff.mpr ⟨v, hget⟩, Entries.has_iff.mpr ⟨w, hw'⟩]
    rfl

theorem rename_some_object (f : Naming) (direction : Direction) (cls : String) (es : Entries) :
    s.rename (some f) direction (.type (.named cls)) (.dict es) =
      ((s.fieldsOf (some f) (.named cls)).bind fun fields =>
        s.renameFields (s.renamer f direction) direction cls fields es).map .dict :=
  renamer_object

/-- The renaming of an object fails, or gives an object. -/
theorem rename_object_cases (s : Schema) (naming : Option Naming) (direction : Direction)
    (cls : String) (es : Entries) :
    (∃ fault, s.rename naming direction (.type (.named cls)) (.dict es) = .error fault) ∨
      ∃ back, s.rename naming direction (.type (.named cls)) (.dict es) = .ok (.dict back) := by
  cases naming with
  | none => exact .inr ⟨es, rfl⟩
  | some f =>
    rw [rename_some_object]
    cases (s.fieldsOf (some f) (.named cls)).bind fun fields =>
        s.renameFields (s.renamer f direction) direction cls fields es with
    | error fault => exact .inl ⟨fault, rfl⟩
    | ok back => exact .inr ⟨back, rfl⟩

/-- The stored key of the application's id is in the document that was renamed back if it has the
id under its wire name, or this key itself. -/
theorem has_storedKey_of_rename {wire : String} (hd : s.DeclaresId naming cls appId wire)
    {back : Entries}
    (h : s.rename naming .fromWire (.type (.named cls)) (.dict es) = .ok (.dict back)) :
    back.has (s.storedKey cls appId) = (es.has wire || es.has (s.storedKey cls appId)) := by
  cases naming with
  | none =>
    cases h
    have hwire := hd.wire
    rw [wireName_none, Except.ok.injEq] at hwire
    rw [hwire, Bool.or_self]
  | some f =>
    rw [rename_some_object] at h
    obtain ⟨_, hback, heq⟩ := map_eq_ok.mp h
    cases heq
    obtain ⟨fs, hfs, hrenamed⟩ := bind_eq_ok.mp hback
    obtain ⟨hw, g, hg, rfl⟩ := hd.fields fs hfs
    have hwire := (fieldsOf_spec hfs).2 g hg
    rw [hd.wire, Except.ok.injEq] at hwire
    exact hwire ▸ has_target_of_renameFields hw hg hrenamed

/-! ## The filled document -/

variable {back : Entries} {id : Value} {name : String}

theorem get?_filled (hid : id.isNull = false) (hlacks : back.has appId = false) (key : String) :
    (fillId appId id back).get? key = if key = appId then some id else back.get? key := by
  have hfill : fillId appId id back = back.put appId id := by simp [fillId, hid, hlacks]
  rw [hfill, Entries.get?_put]
  simp only [eq_comm]

theorem fillId_of_has (hhas : back.has appId = true) : fillId appId id back = back := by
  simp [fillId, hhas]

theorem fillId_of_isNull (hid : id.isNull = true) : fillId appId id back = back := by
  simp [fillId, hid]

/-- What is found under the first of some names that is there: the id if none before the name of the
application's id is there, and what the document holds otherwise. -/
theorem findSome?_get?_filled (hid : id.isNull = false) (hlacks : back.has appId = false)
    (names : List String) :
    names.findSome? (fun key => (fillId appId id back).get? key) =
      if names.find? (fun key => key == appId || back.has key) = some appId then some id
      else names.findSome? fun key => back.get? key := by
  induction names with
  | nil => rfl
  | cons key names ih =>
    rw [List.findSome?_cons, List.find?_cons, List.findSome?_cons, get?_filled hid hlacks]
    by_cases hkey : key = appId
    · subst hkey
      simp
    · cases hget : back.get? key with
      | none =>
        have habsent : back.has key = false := Entries.get?_eq_none_iff.mp hget
        simp only [if_neg hkey, beq_eq_false_iff_ne.mpr hkey, habsent, Bool.or_false]
        exact ih
      | some v =>
        have hthere : back.has key = true := Entries.has_iff.mpr ⟨v, hget⟩
        simp [hkey, hthere]

/-- Under the names of an attribute that takes the id stands the id. -/
theorem findSome?_of_takesId (hid : id.isNull = false) (h : s.takesId cls appId back name = true) :
    (s.givenNames cls name).findSome? (fun key => (fillId appId id back).get? key) = some id := by
  simp only [takesId, Bool.and_eq_true, Bool.not_eq_true', beq_iff_eq] at h
  rw [findSome?_get?_filled hid h.1, if_pos h.2]

/-- Under the names of an attribute that does not take the id stands what stood there before. -/
theorem findSome?_of_not_takesId (h : s.takesId cls appId back name = false) (id : Value) :
    (s.givenNames cls name).findSome? (fun key => (fillId appId id back).get? key) =
      (s.givenNames cls name).findSome? fun key => back.get? key := by
  cases hid : id.isNull with
  | true => rw [fillId_of_isNull hid]
  | false =>
    cases hlacks : back.has appId with
    | true => rw [fillId_of_has hlacks]
    | false =>
      rw [findSome?_get?_filled hid hlacks, if_neg]
      intro hfind
      simp [takesId, hlacks, hfind] at h

/-- The application's id takes the engine's if its class looks for it under its own name at all, and
neither that name nor the key that goes before it is there. -/
theorem takesId_iff {key : String} (hfirst : (s.givenNames cls appId).head? = some key) :
    s.takesId cls appId back appId = true ↔
      appId ∈ s.givenNames cls appId ∧ back.has key = false ∧ back.has appId = false := by
  by_cases hkey : key = appId
  · subst hkey
    rcases givenNames_cases hfirst with hnames | hnames <;> simp [takesId, hnames]
  · cases hhas : back.has key with
    | true => rcases givenNames_cases hfirst with hnames | hnames <;> simp [takesId, hnames, hhas, hkey]
    | false =>
      rcases givenNames_cases hfirst with hnames | hnames <;>
        simp [takesId, hnames, hhas, hkey, Ne.symm hkey]

/-- Where no attribute takes the id, it does not matter. -/
theorem instantiate_filled (h : ∀ name, s.takesId cls appId back name = false) (id : Value) :
    s.instantiate (.type (.named cls)) (fillId appId id back) =
      s.instantiate (.type (.named cls)) back := by
  cases hm : s.isModel cls with
  | true =>
    rw [instantiate_of_isModel hm, instantiate_of_isModel hm]
    exact validated_congr hm fun name => findSome?_of_not_takesId (h name) id
  | false =>
    refine instantiate_congr hm ?_
    cases hid : id.isNull with
    | true => rw [fillId_of_isNull hid]
    | false =>
      cases hlacks : back.has appId with
      | true => rw [fillId_of_has hlacks]
      | false =>
        have hnot : appId ∉ s.annotatedNames cls := by
          intro hmem
          have htakes := h appId
          simp [takesId, givenNames_of_not_isModel hm, hmem, hlacks] at htakes
        have hfill : fillId appId id back = back ++ [(.str appId, id)] := by
          simp [fillId, hid, hlacks, Entries.put_of_has_eq_false hlacks]
        rw [hfill]
        simp [namedArguments, Value.asText?, hnot]

/-! ## Entities that are restored -/

theorem restore_of_rename (hback :
      s.rename naming .fromWire (.type (.named cls)) (.dict es) = .ok (.dict back)) (id : Value) :
    s.restore naming appId (.type (.named cls)) (.dict es) id =
      s.instantiate (.type (.named cls)) (fillId appId id back) := by
  have hobject : (Value.dict es).isNull = false := rfl
  rw [restore, hobject, hback]
  rfl

/-- **The engine's id comes to exactly the attributes that take it.** Such an attribute holds what
its class makes of the id, which is the id itself where the type keeps texts, and what validation
converts it to where the type is one of numbers, say; no other attribute depends on the id, and
where none takes it the id does not matter at all. The application's id takes it if and only if the
class looks for it under its own name, and the document has it neither under its wire name nor under
its stored key, nor anything else that comes under its own name. If the document has it, the id does
not matter, unless the stored key is an alias and the own name is that of another attribute. -/
theorem filled_id_spec {wire : String} (hd : s.DeclaresId naming cls appId wire) (es : Entries) :
    let restored (id : Value) := s.restore naming appId (.type (.named cls)) (.dict es) id
    (∃ fault, ∀ id, restored id = .error fault) ∨
    ∃ back : Entries, s.rename naming .fromWire (.type (.named cls)) (.dict es) = .ok (.dict back) ∧
      (∀ name text e, s.takesId cls appId back name = true → restored (.str text) = .ok e →
        ∃ v, s.taken? cls name (.str text) = some v ∧ e.attribute? name = some v ∧
          (s.KeepsTexts cls name → v = .str text)) ∧
      (∀ name id id' e e', s.takesId cls appId back name = false → restored id = .ok e →
        restored id' = .ok e' → e.attribute? name = e'.attribute? name) ∧
      ((∀ name, s.takesId cls appId back name = false) → ∀ id id', restored id = restored id') ∧
      ((s.givenNames cls appId).head? = some (s.storedKey cls appId) →
        (s.takesId cls appId back appId = true ↔ appId ∈ s.givenNames cls appId ∧
          (es.has wire || es.has (s.storedKey cls appId)) = false ∧ back.has appId = false) ∧
        ((es.has wire || es.has (s.storedKey cls appId)) = true →
          (s.storedKey cls appId = appId ∨
            ∀ name, name ≠ appId → appId ∉ s.givenNames cls name) →
          ∀ id id', restored id = restored id')) := by
  intro restored
  rcases s.rename_object_cases naming .fromWire cls es with ⟨fault, hfault⟩ | ⟨back, hback⟩
  · refine .inl ⟨fault, fun id => ?_⟩
    have hobject : (Value.dict es).isNull = false := rfl
    change s.restore naming appId _ _ id = _
    rw [restore, hobject, hfault]
    rfl
  · have hrestored : ∀ id, restored id =
        s.instantiate (.type (.named cls)) (fillId appId id back) := restore_of_rename hback
    have hkey := has_storedKey_of_rename hd hback
    have hnowhere : (∀ name, s.takesId cls appId back name = false) →
        ∀ id id', restored id = restored id' := by
      intro hnone id id'
      rw [hrestored, hrestored, instantiate_filled hnone, instantiate_filled hnone]
    refine .inr ⟨back, hback, ?_, ?_, hnowhere, ?_⟩
    · intro name text e htakes he
      rw [hrestored] at he
      obtain ⟨v, hv, hattribute⟩ := attribute?_of_found (findSome?_of_takesId rfl htakes) he
      exact ⟨v, hv, hattribute, fun hkeeps => taken?_text hkeeps hv⟩
    · intro name id id' e e' htakes he he'
      rw [hrestored] at he he'
      refine attribute?_congr ?_ he he'
      rw [findSome?_of_not_takesId htakes, findSome?_of_not_takesId htakes]
    · intro hfirst
      have hiff : s.takesId cls appId back appId = true ↔ _ := takesId_iff hfirst
      rw [hkey] at hiff
      refine ⟨hiff, fun hhas hothers => hnowhere fun name => ?_⟩
      rw [hhas] at hkey hiff
      rcases hothers with hown | hothers
      · rw [takesId, ← hown, hkey]
        rfl
      · rw [← Bool.not_eq_true]
        intro htakes
        by_cases hname : name = appId
        · subst hname
          exact Bool.false_ne_true (hiff.mp htakes).2.1.symm
        · simp only [takesId, Bool.and_eq_true, beq_iff_eq] at htakes
          exact hothers name hname (List.mem_of_find?_eq_some htakes.2)

/-- An alias keeps the id away from a model, unless the model is read under the own names of its
attributes too. A number for an id is read from the engine's. -/
theorem filled_id_spec_persons :
    let person (idType : BasicType) (readsNames : Bool) : ClassDecl TypeExpr :=
      ⟨"Person", .model, none,
        [⟨"id", .union [.basic idType, .null], some .null, some "identifier", none, none⟩,
          ⟨"full_name", .basic .text, none, none, none, none⟩], [], readsNames⟩
    let s (idType : BasicType) (readsNames : Bool) : Schema :=
      ⟨[person idType readsNames], [], [], .scalars⟩
    let f : Naming := Naming.ofFunction camelCase
    let es : Entries := [(.str "fullName", .str "A")]
    let restored (idType : BasicType) (readsNames : Bool) (id : Value) :=
      (s idType readsNames).restore (some f) "id" (.type (.named "Person")) (.dict es) id
    (∀ idType readsNames,
        (s idType readsNames).DeclaresId (some f) "Person" "id" "identifier") ∧
      (∃ e, restored .text false (.str "7") = .ok e ∧ e.attribute? "id" = some .null) ∧
      (∃ e, restored .text true (.str "7") = .ok e ∧
        e.attribute? "id" = some (.str "7")) ∧
      ∃ e, restored .integer true (.str "7") = .ok e ∧
        e.attribute? "id" = some (.int 7) := by
  intro person s f es restored
  have hfields : ∀ t b, (s t b).fieldsOf (some f) (.named "Person") =
      .ok [⟨"id", "identifier", .union [.basic t, .null]⟩,
        ⟨"full_name", "fullName", .basic .text⟩] := by
    intro t b
    unfold s person f
    cases t <;> rfl
  have hkeys : ∀ t b, (s t b).storedKey "Person" "id" = "identifier" ∧
      (s t b).storedKey "Person" "full_name" = "full_name" := by
    intro t b
    unfold s person
    constructor <;> cases t <;> rfl
  have hd : ∀ t b, (s t b).DeclaresId (some f) "Person" "id" "identifier" := by
    intro t b
    have hwire : (s t b).wireName (some f) "Person" "id" = .ok "identifier" := by
      unfold s person
      cases t <;> rfl
    refine ⟨hwire, fun fs hfs => ?_⟩
    rw [hfields, Except.ok.injEq] at hfs
    subst hfs
    refine ⟨?_, _, List.mem_cons_self, rfl⟩
    constructor <;> simp [hkeys]
  have hback : ∀ t b, (s t b).rename (some f) .fromWire (.type (.named "Person")) (.dict es) =
      .ok (.dict [(.str "full_name", .str "A")]) := by
    intro t b
    unfold s person f es
    cases t <;> rfl
  have hsettled : ∀ t b, (s t b).settledFields "Person" = (person t b).fields := by
    intro t b
    unfold s person
    cases t <;> rfl
  have hnull : restored .text false .null = .ok (.entity .model "Person"
      [("id", .null), ("full_name", .str "A")]) := by
    unfold restored s person f es
    rfl
  obtain ⟨e, he⟩ : ∃ e, restored .text false (.str "7") = .ok e := by
    unfold restored s person f es
    exact ⟨_, rfl⟩
  refine ⟨hd, ⟨e, he, ?_⟩, ?_, ?_⟩
  · rcases filled_id_spec (hd .text false) es with
      ⟨fault, hfault⟩ | ⟨back, hrename, -, hother, -⟩
    · cases (hfault .null).symm.trans hnull
    · cases (hback .text false).symm.trans hrename
      exact hother "id" (.str "7") .null e _ rfl he hnull
  · obtain ⟨e, he⟩ : ∃ e, restored .text true (.str "7") = .ok e := by
      unfold restored s person f es
      exact ⟨_, rfl⟩
    refine ⟨e, he, ?_⟩
    rcases filled_id_spec (hd .text true) es with ⟨fault, hfault⟩ | ⟨back, hrename, htaken, -⟩
    · cases (hfault (.str "7")).symm.trans he
    · cases (hback .text true).symm.trans hrename
      obtain ⟨v, -, hattribute, hkeeps⟩ := htaken "id" "7" e rfl he
      have htexts : (s .text true).KeepsTexts "Person" "id" := by
        intro _ g hg hname
        rw [hsettled] at hg
        simp only [person, List.mem_cons, List.not_mem_nil, or_false] at hg
        rcases hg with rfl | rfl
        · exact .inl (by decide)
        · exact absurd hname (by decide)
      rw [hattribute, hkeeps htexts]
  · obtain ⟨e, he⟩ : ∃ e, restored .integer true (.str "7") = .ok e := by
      unfold restored s person f es
      exact ⟨_, rfl⟩
    refine ⟨e, he, ?_⟩
    rcases filled_id_spec (hd .integer true) es with ⟨fault, hfault⟩ | ⟨back, hrename, htaken, -⟩
    · cases (hfault (.str "7")).symm.trans he
    · cases (hback .integer true).symm.trans hrename
      obtain ⟨v, hv, hattribute, -⟩ := htaken "id" "7" e rfl he
      have hseven : (s .integer true).taken? "Person" "id" (.str "7") = some (.int 7) := by
        unfold s person
        rfl
      rw [hattribute, ← hv, hseven]

end Schema

end TypedSearch
