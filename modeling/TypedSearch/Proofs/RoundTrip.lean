import Mathlib.Tactic.Choose
import TypedSearch.Context.Documents
import TypedSearch.Proofs.Fits
import TypedSearch.Proofs.ModelObstacles

/-!
# The round trip of an entity

An entity becomes a document: it is written under its stored names, and these are renamed to the
names that the engine indexes. The document becomes the entity again: the names are renamed back,
and the model reads what is left.

* `Schema.KeepsEntities`: a naming under which the entities of a model survive.
* `Schema.renamed_object`: an object is renamed field by field, in both directions.
* `Schema.survives_prepareAs`: stored values are renamed and renamed back.
* `Schema.KeepsEntities.isComplete`: the model can read data.
* `SearchContext.document_restored`: an entity is restored from its document.
-/

namespace TypedSearch

namespace Schema

variable {s : Schema} {naming : Option Naming} {root : String}

/-! ## Models and their entities -/

/-- A naming under which the entities of the model `root` survive being stored, as do those of the
models it leads to: the types of the fields can be stored, a field is read under the name that it
is written under, and neither this name nor the indexed one gets in the way of another field. -/
structure KeepsEntities (s : Schema) (naming : Option Naming) (root : String) : Prop where
  model : s.isModel root = true
  storableRoot : s.Storable (.named root)
  storable : ∀ {cls}, s.Reaches TypeExpr.Holds root cls → s.isModel cls = true →
    ∀ g ∈ s.settledFields cls, s.Storable g.type
  named : ∀ {cls}, s.Reaches TypeExpr.Holds root cls → s.isModel cls = true →
    ∀ g ∈ s.settledFields cls, g.storedName ≠ "" ∧ g.readName = g.storedName
  apart : s.KeepsApart naming root
  total : NeverFails naming

theorem mem_classNames_of_isModel {cls : String} (h : s.isModel cls = true) :
    cls ∈ s.classNames := by
  by_contra hmem
  have hlineage : s.lineage cls = [] :=
    lineageIn_eq_nil fun h => hmem (List.mem_eraseDups.mpr h)
  rw [isModel, hlineage] at h
  cases h

/-- A naming keeps the entities of a model if it keeps those of all declared models. -/
theorem keepsEntities_of_classNames (hmodel : s.isModel root = true)
    (hroot : s.Storable (.named root)) (hn : NeverFails naming)
    (hfields : ∀ cls ∈ s.classNames, ∀ g ∈ s.settledFields cls,
      s.Storable g.type ∧ g.storedName ≠ "" ∧ g.readName = g.storedName)
    (hapart : ∀ cls ∈ s.classNames, ∃ fs,
      s.fieldsOf naming (.named cls) = .ok fs ∧ s.WellNamed cls fs) :
    s.KeepsEntities naming root where
  model := hmodel
  storableRoot := hroot
  storable := fun _ hm g hg => (hfields _ (mem_classNames_of_isModel hm) g hg).1
  named := fun _ hm g hg => (hfields _ (mem_classNames_of_isModel hm) g hg).2
  apart := keepsApart_of_classNames hapart
  total := hn

/-- The fields of a model are those it writes, and they have wire names. -/
theorem fieldsOf_of_isModel (hn : NeverFails naming) {cls : String} (hm : s.isModel cls = true) :
    ∃ fs, s.fieldsOf naming (.named cls) = .ok fs ∧
      fs.map (fun g => (g.name, g.type)) = (s.settledFields cls).map fun g => (g.name, g.type) := by
  obtain ⟨fs, hfs⟩ := fieldsOf_isOk hn (hints_of_isModel hm)
  have hspec := (fieldsOf_spec hfs).1
  rw [hints_of_isModel hm, Except.ok.injEq] at hspec
  exact ⟨fs, hfs, hspec.symm⟩

theorem KeepsEntities.fields (hk : s.KeepsEntities naming root) {cls : String}
    (hreach : s.Reaches TypeExpr.Holds root cls) (hm : s.isModel cls = true) :
    ∃ fs, s.fieldsOf naming (.named cls) = .ok fs ∧ s.WellNamed cls fs ∧
      fs.map (fun g => (g.name, g.type)) = (s.settledFields cls).map fun g => (g.name, g.type) := by
  obtain ⟨fs, hfs, hmap⟩ := fieldsOf_of_isModel hk.total hm
  exact ⟨fs, hfs, hk.apart hreach hfs, hmap⟩

theorem map_fields {cls : String} {fs : List FieldEntry} {β : Type}
    (h : fs.map (fun g => (g.name, g.type)) = (s.settledFields cls).map fun g => (g.name, g.type))
    (k : String → TypeExpr → β) :
    fs.map (fun g => k g.name g.type) = (s.settledFields cls).map fun g => k g.name g.type := by
  have hmap := congrArg (List.map fun e => k e.1 e.2) h
  rwa [List.map_map, List.map_map] at hmap

theorem settled_of_field {cls : String} {fs : List FieldEntry}
    (h : fs.map (fun g => (g.name, g.type)) = (s.settledFields cls).map fun g => (g.name, g.type))
    {g : FieldEntry} (hg : g ∈ fs) :
    ∃ g' ∈ s.settledFields cls, g'.name = g.name ∧ g'.type = g.type := by
  have hmem : (g.name, g.type) ∈ (s.settledFields cls).map fun g => (g.name, g.type) :=
    h ▸ List.mem_map.mpr ⟨g, hg, rfl⟩
  obtain ⟨g', hg', heq⟩ := List.mem_map.mp hmem
  exact ⟨g', hg', Prod.mk.inj heq⟩

/-- The names under which a model writes its fields are their stored keys. -/
theorem map_storedName {cls : String} (hm : s.isModel cls = true)
    (hne : ∀ g ∈ s.settledFields cls, g.storedName ≠ "") {fs : List FieldEntry}
    (hmap : fs.map (fun g => (g.name, g.type)) =
      (s.settledFields cls).map fun g => (g.name, g.type)) :
    (s.settledFields cls).map (·.storedName) = fs.map fun g => s.storedKey cls g.name := by
  rw [map_fields hmap fun name _ => s.storedKey cls name]
  exact List.map_congr_left fun g hg => (storedKey_eq_storedName hm hg (hne g hg)).symm

theorem KeepsEntities.readsBack (hk : s.KeepsEntities naming root) {cls : String}
    (hreach : s.Reaches TypeExpr.Holds root cls) (hm : s.isModel cls = true) : s.ReadsBack cls where
  storable := hk.storable hreach hm
  named := fun g hg => (hk.named hreach hm g hg).2
  stored := by
    obtain ⟨fs, -, hw, hmap⟩ := hk.fields hreach hm
    rw [map_storedName hm (fun g hg => (hk.named hreach hm g hg).1) hmap]
    exact hw.stored

/-- What is stored of an entity, in terms of the fields with their wire names. -/
theorem storedObject_eq {cls : String} (hm : s.isModel cls = true)
    (hne : ∀ g ∈ s.settledFields cls, g.storedName ≠ "") {fs : List FieldEntry}
    (hmap : fs.map (fun g => (g.name, g.type)) =
      (s.settledFields cls).map fun g => (g.name, g.type)) (as : List (String × Value)) :
    s.storedObject cls as = fs.map fun g => (.str (s.storedKey cls g.name),
      s.prepareAs ((as.lookup g.name).getD .null) (some g.type)) := by
  rw [map_fields hmap fun name type =>
    (Value.str (s.storedKey cls name), s.prepareAs ((as.lookup name).getD .null) (some type))]
  refine List.map_congr_left fun g hg => ?_
  rw [storedKey_eq_storedName hm hg (hne g hg)]
  rfl

theorem structuredClass?_model {cls : String} (hm : s.isModel cls = true) :
    s.structuredClass? (.named cls) = some cls :=
  structuredClass?_eq_some_iff.mpr ⟨rfl, isStructured_of_isModel hm⟩

/-! ## There and back -/

/-- The value under a naming, if there is one: renamed in a direction by the type of its field. -/
def renamed (s : Schema) (naming : Option Naming) (direction : Direction) (t : TypeExpr)
    (v : Value) : Except Fault Value :=
  match naming with
  | none => .ok v
  | some f => s.renameValue (s.renamer f direction) t v

/-- The value is renamed to the other one, and this one back to it. -/
structure Survives (s : Schema) (naming : Option Naming) (t : TypeExpr) (v w : Value) : Prop where
  there : s.renamed naming .toWire t v = .ok w
  back : s.renamed naming .fromWire t w = .ok v
  comparable : w.isComparable = true

theorem Survives.of_kept {t : TypeExpr} {v : Value} (hc : v.isComparable = true)
    (h : ∀ f ∈ naming, ∀ direction, s.renameValue (s.renamer f direction) t v = .ok v) :
    s.Survives naming t v v := by
  cases naming with
  | none => exact ⟨rfl, rfl, hc⟩
  | some f => exact ⟨h f rfl .toWire, h f rfl .fromWire, hc⟩

theorem Survives.of_isPlain {t : TypeExpr} {v : Value} (hv : v.isPlain = true)
    (hc : v.isComparable = true) : s.Survives naming t v v :=
  .of_kept hc fun _ _ _ => renameValue_of_isPlain hv

theorem Survives.of_none {t : TypeExpr} {v : Value} (ht : s.structuredClass? t = none)
    (hc : v.isComparable = true) : s.Survives naming t v v :=
  .of_kept hc fun _ _ _ => renameValue_of_none ht v

theorem Survives.of_stripped_eq {t u : TypeExpr} {v w : Value} (h : s.Survives naming t v w)
    (htu : t.stripped = u.stripped) : s.Survives naming u v w := by
  have hsame : ∀ direction x, s.renamed naming direction t x = s.renamed naming direction u x := by
    intro direction x
    simp only [renamed, renameValue, htu]
  exact ⟨hsame _ _ ▸ h.there, hsame _ _ ▸ h.back, h.comparable⟩

theorem renameAll_survives {there back : Value → Except Fault Value} {xs : List Value}
    (h : ∀ x ∈ xs, ∃ w, there x = .ok w ∧ back w = .ok x ∧ w.isComparable = true) :
    ∃ ws, renameAll there xs = .ok ws ∧ renameAll back ws = .ok xs ∧ areComparable ws = true := by
  induction xs with
  | nil => exact ⟨[], rfl, rfl, rfl⟩
  | cons x xs ih =>
    rw [List.forall_mem_cons] at h
    obtain ⟨w, hthere, hback, hw⟩ := h.1
    obtain ⟨ws, hthere', hback', hws⟩ := ih h.2
    refine ⟨w :: ws, ?_, ?_, ?_⟩
    · rw [renameAll, hthere, hthere']
      rfl
    · rw [renameAll, hback, hback']
      rfl
    · rw [areComparable, hw, hws]
      rfl

theorem Survives.list {c : Container} (hc : c = .list ∨ c = .plainList) {t : TypeExpr}
    {xs : List Value} (hxs : areComparable xs = true) (h : ∀ x ∈ xs, ∃ w, s.Survives naming t x w) :
    ∃ w, s.Survives naming (.apply c [t]) (.list xs) w := by
  have hi := item?_list hc t
  cases hcls : s.structuredClass? (.apply c [t]) with
  | none => exact ⟨_, .of_none hcls (by rwa [Value.isComparable])⟩
  | some cls =>
    cases naming with
    | none => exact ⟨_, rfl, rfl, by rwa [Value.isComparable]⟩
    | some f =>
      obtain ⟨hitem, hclsItem⟩ := structuredClass?_item hcls hi
      have hnone : t.stripped.item? = none := by rw [hitem]; rfl
      have helement : ∀ direction x, s.renamed (some f) direction t x =
          s.renamer f direction (.named cls) x := fun _ x => renameValue_single hclsItem hnone x
      have helements : ∀ x ∈ xs, ∃ w, s.renamer f .toWire (.named cls) x = .ok w ∧
          s.renamer f .fromWire (.named cls) w = .ok x ∧ w.isComparable = true := by
        intro x hx
        obtain ⟨w, hw⟩ := h x hx
        exact ⟨w, helement .toWire x ▸ hw.there, helement .fromWire w ▸ hw.back, hw.comparable⟩
      obtain ⟨ws, hthere, hback, hws⟩ := renameAll_survives helements
      refine ⟨.list ws, ?_, ?_, by rwa [Value.isComparable]⟩
      · rw [renamed, renameValue_list hcls hi, hthere]
        rfl
      · rw [renamed, renameValue_list hcls hi, hback]
        rfl

theorem wire_eq_storedKey {cls : String} {fs : List FieldEntry}
    (hfs : s.fieldsOf none (.named cls) = .ok fs) :
    ∀ g ∈ fs, g.wire = s.storedKey cls g.name := by
  intro g hg
  have hwire := (fieldsOf_spec hfs).2 g hg
  rw [wireName_none] at hwire
  exact (Except.ok.inj hwire).symm

/-- An object that has all its fields in order is renamed field by field. -/
theorem renamed_object {cls : String} (hm : s.isModel cls = true) {fs : List FieldEntry}
    (hfs : s.fieldsOf naming (.named cls) = .ok fs) (hw : s.WellNamed cls fs)
    (direction : Direction) {value value' : FieldEntry → Value}
    (h : ∀ g ∈ fs, s.renamed naming direction g.type (value g) = .ok (value' g)) :
    s.renamed naming direction (.named cls)
        (.dict (fs.map fun g => (.str (s.sourceKey direction cls g), value g))) =
      .ok (.dict (fs.map fun g => (.str (s.targetKey direction cls g), value' g))) := by
  cases naming with
  | none =>
    have hkeys : ∀ g ∈ fs, s.sourceKey direction cls g = s.targetKey direction cls g := by
      intro g hg
      cases direction with
      | toWire => exact (wire_eq_storedKey hfs g hg).symm
      | fromWire => exact wire_eq_storedKey hfs g hg
    refine congrArg (Except.ok ∘ Value.dict) (List.map_congr_left fun g hg => ?_)
    rw [hkeys g hg, Except.ok.inj (h g hg)]
  | some f =>
    have hall : s.renameFields (s.renamer f direction) direction cls fs
        (fs.map fun g => (.str (s.sourceKey direction cls g), value g)) =
        .ok (fs.map fun g => (.str (s.targetKey direction cls g), value' g)) :=
      renameFields_complete hw h
    rw [renamed, renameValue_single (structuredClass?_model hm) rfl, renamer_object, hfs]
    exact congrArg (Except.map Value.dict) hall

/-- An object that has all its fields in order survives if their values do. -/
theorem Survives.object {cls : String} (hm : s.isModel cls = true) {fs : List FieldEntry}
    (hfs : s.fieldsOf naming (.named cls) = .ok fs) (hw : s.WellNamed cls fs)
    {value value' : FieldEntry → Value}
    (h : ∀ g ∈ fs, s.Survives naming g.type (value g) (value' g)) :
    s.Survives naming (.named cls)
      (.dict (fs.map fun g => (.str (s.storedKey cls g.name), value g)))
      (.dict (fs.map fun g => (.str g.wire, value' g))) where
  there := renamed_object hm hfs hw .toWire fun g hg => (h g hg).there
  back := renamed_object hm hfs hw .fromWire fun g hg => (h g hg).back
  comparable := by
    rw [Value.isComparable, areComparableEntries_iff]
    intro e he
    obtain ⟨g, hg, rfl⟩ := List.mem_map.mp he
    exact (h g hg).comparable

/-- What is stored of an entity survives if the values of its fields do. It becomes an object with
the wire names of the fields in order. -/
theorem survives_storedObject (hk : s.KeepsEntities naming root) {cls : String}
    (hreach : s.Reaches TypeExpr.Holds root cls) (hm : s.isModel cls = true)
    (as : List (String × Value)) (h : ∀ g ∈ s.settledFields cls,
      (s.prepareAs (attributeOf as g) (some g.type)).isComparable = true ∧
        ∃ w, s.Survives naming g.type (s.prepareAs (attributeOf as g) (some g.type)) w) :
    (Value.dict (s.storedObject cls as)).isComparable = true ∧
      ∃ (fs : List FieldEntry) (value' : FieldEntry → Value),
        s.fieldsOf naming (.named cls) = .ok fs ∧ (fs.map (·.wire)).Nodup ∧
        s.Survives naming (.named cls) (.dict (s.storedObject cls as))
          (.dict (fs.map fun g => (.str g.wire, value' g))) := by
  obtain ⟨fs, hfs, hw, hmap⟩ := hk.fields hreach hm
  have hfields : ∀ g ∈ fs, ∃ w, s.Survives naming g.type
      (s.prepareAs ((as.lookup g.name).getD .null) (some g.type)) w := by
    intro g hg
    obtain ⟨g', hg', hname, htype⟩ := settled_of_field hmap hg
    rw [← hname, ← htype]
    exact (h g' hg').2
  choose! value' hvalue' using hfields
  refine ⟨?_, fs, value', hfs, hw.wires, ?_⟩
  · rw [Value.isComparable, areComparableEntries_iff]
    intro e he
    obtain ⟨g, hg, rfl⟩ := List.mem_map.mp he
    exact (h g hg).1
  · rw [storedObject_eq hm (fun g hg => (hk.named hreach hm g hg).1) hmap]
    exact .object hm hfs hw hvalue'

/-- What is stored of a value survives the naming. -/
theorem survives_prepareAs (hk : s.KeepsEntities naming root) {t : TypeExpr} {v : Value}
    (h : s.Inhabits t v) (ht : s.Storable t)
    (hreach : ∀ {cls}, t.Holds cls → s.Reaches TypeExpr.Holds root cls) :
    (s.prepareAs v (some t)).isComparable = true ∧
      ∃ w, s.Survives naming t (s.prepareAs v (some t)) w := by
  induction h with
  | @scalar b v hb =>
    have hsame : s.prepareAs v (some (.basic b)) = v ∧ v.isPlain = true ∧ v.isComparable = true := by
      cases b <;> cases v <;> first | exact ⟨rfl, rfl, rfl⟩ | cases hb
    rw [hsame.1]
    exact ⟨hsame.2.2, v, .of_isPlain hsame.2.1 hsame.2.2⟩
  | any hv =>
    rw [prepareAs_json _ hv]
    exact ⟨isComparable_of_isJson hv, _, .of_none rfl (isComparable_of_isJson hv)⟩
  | @member cls e m he hm =>
    cases ht with
    | enumeration he' _ hc =>
      rw [he, Option.some.injEq] at he'
      subst he'
      have hvalue : m.2.isPlain = true ∧ m.2.isComparable = true := by
        rcases hc.plain m hm with ⟨a, ha⟩ | ⟨a, ha⟩ <;> rw [ha] <;> exact ⟨rfl, rfl⟩
      rw [prepareAs_member hc hm]
      exact ⟨hvalue.2, m.2, .of_isPlain hvalue.1 hvalue.2⟩
    | model _ _ hnone =>
      rw [he] at hnone
      cases hnone
  | @entity cls as hm hnames has ih =>
    have hself : s.Reaches TypeExpr.Holds root cls := hreach (.core rfl)
    have hback := hk.readsBack hself hm
    obtain ⟨hcomparable, fs, value', -, -, hw⟩ :=
      survives_storedObject hk hself hm as fun g hg =>
        ih g hg _ (attributeOf_mem (settledFields_nodup s cls) hnames hg) (hback.storable g hg)
          fun hc => hself.model hm hg hc
    rw [prepareAs_entity ht hm hnames hback.stored]
    exact ⟨hcomparable, _, hw⟩
  | absent => exact ⟨rfl, _, .of_isPlain rfl rfl⟩
  | present hmem htnull hv ih =>
    cases ht with
    | optional hts hu ht' =>
      obtain rfl := eq_of_mem_optional hts hmem htnull
      obtain ⟨hcomparable, w, hw⟩ := ih ht' fun hc =>
        hreach (hc.of_core_eq (core_optional hts ht').symm)
      rw [prepareAs_optional hts ht' hu]
      exact ⟨hcomparable, w, hw.of_stripped_eq (stripped_optional hts ht').symm⟩
  | @list c t xs hxs ih =>
    cases ht with
    | list hc ht' =>
      have hall := fun x hx => ih x hx ht' fun hcls =>
        hreach (hcls.of_core_eq (TypeExpr.core_of_item? (item?_list hc t)).symm)
      have hxs' : areComparable (xs.map fun x => s.prepareAs x (some t)) = true := by
        rw [areComparable_iff]
        intro y hy
        obtain ⟨x, hx, rfl⟩ := List.mem_map.mp hy
        exact (hall x hx).1
      rw [prepareAs_list hc ht']
      refine ⟨by rwa [Value.isComparable], Survives.list hc hxs' fun y hy => ?_⟩
      obtain ⟨x, hx, rfl⟩ := List.mem_map.mp hy
      exact (hall x hx).2
  | @dict c es hes =>
    cases ht with
    | dict hc =>
      have hcomparable : (Value.dict es).isComparable = true := by
        rw [Value.isComparable, areComparableEntries_of_json hes]
      have hnone : s.structuredClass? (.apply c [.basic .text, .any]) = none := by
        rcases hc with rfl | rfl <;> rfl
      rw [prepareAs_dict hes]
      exact ⟨hcomparable, _, .of_none hnone hcomparable⟩

/-! ## Entities that can be stored -/

theorem Storable.isRecord {cls : String} (h : s.Storable (.named cls)) :
    s.isRecord cls = false := by
  cases h with
  | enumeration _ hnone _ => rw [Schema.isRecord, lineage_of_class?_none hnone]; rfl
  | model _ hr _ => exact hr

theorem isJson_of_mem_parts {v x : Value} (hv : v.isJson = true) (hx : x ∈ v.parts) :
    x.isJson = true := by
  cases v with
  | list xs =>
    rw [Value.isJson] at hv
    exact Value.isJson_of_mem_list hv x hx
  | dict es =>
    rw [Value.isJson] at hv
    obtain ⟨e, he, hmem⟩ := List.mem_flatMap.mp hx
    obtain ⟨⟨k, hk⟩, hjson⟩ := Value.isJson_of_mem_dict hv e he
    rcases List.mem_pair.mp hmem with rfl | rfl
    · rw [hk]
      rfl
    · exact hjson
  | null | bool _ | int _ | double _ | str _ => cases hx
  | _ => cases hv

/-- Nothing in plain data stands in the way of storing it. -/
theorem isEasy_of_isJson {v part : Value} (hv : v.isJson = true) (h : part.PartOf v) :
    s.IsEasy part := by
  have hpart : part.isJson = true := by
    induction h with
    | refl => exact hv
    | tail _ hmem ih => exact ih (isJson_of_mem_parts hv hmem)
  cases part with
  | dict es =>
    intro e he
    rw [Value.isJson] at hpart
    obtain ⟨⟨k, hk⟩, -⟩ := Value.isJson_of_mem_dict hpart e he
    rw [hk]
    rfl
  | list _ | null | bool _ | int _ | double _ | str _ => trivial
  | _ => cases hpart

/-- Nothing in the values of an entity stands in the way of storing it. -/
theorem isEasy_of_inhabits (hk : s.KeepsEntities naming root) {t : TypeExpr} {v : Value}
    (h : s.Inhabits t v) (ht : s.Storable t)
    (hreach : ∀ {cls}, t.Holds cls → s.Reaches TypeExpr.Holds root cls) :
    ∀ part : Value, part.PartOf v → s.IsEasy part := by
  induction h with
  | @scalar b v hb =>
    have hatom : v.parts = [] ∧ s.IsEasy v := by
      cases b <;> cases v <;> first | exact ⟨rfl, trivial⟩ | cases hb
    exact isEasy_of_parts hatom.2 (hatom.1 ▸ nofun)
  | any hv => exact fun _ => isEasy_of_isJson hv
  | @member cls e m he hm =>
    cases ht with
    | enumeration he' _ hc =>
      rw [he, Option.some.injEq] at he'
      subst he'
      refine isEasy_of_parts trivial fun x hx => ?_
      obtain rfl := List.mem_singleton.mp hx
      rcases hc.plain m hm with ⟨a, ha⟩ | ⟨a, ha⟩ <;> rw [ha] <;>
        exact isEasy_of_parts trivial nofun
    | model _ _ hnone =>
      rw [he] at hnone
      cases hnone
  | @entity cls as hm hnames has ih =>
    have hself : s.Reaches TypeExpr.Holds root cls := hreach (.core rfl)
    refine isEasy_of_parts ⟨hm, ht.isRecord⟩ fun x hx => ?_
    obtain ⟨a, ha, rfl⟩ := List.mem_map.mp hx
    obtain ⟨g, hg, hname⟩ := List.mem_map.mp (hnames ▸ List.mem_map_of_mem ha)
    exact ih g hg a.2 (hname ▸ ha) (hk.storable hself hm g hg) fun hc => hself.model hm hg hc
  | absent => exact isEasy_of_parts trivial nofun
  | present hmem htnull hv ih =>
    cases ht with
    | optional hts hu ht' =>
      obtain rfl := eq_of_mem_optional hts hmem htnull
      exact ih ht' fun hc => hreach (hc.of_core_eq (core_optional hts ht').symm)
  | @list c t xs hxs ih =>
    cases ht with
    | list hc ht' =>
      exact isEasy_of_parts trivial fun x hx => ih x hx ht' fun hcls =>
        hreach (hcls.of_core_eq (TypeExpr.core_of_item? (item?_list hc t)).symm)
  | @dict c es hes =>
    have hjson : (Value.dict es).isJson = true := by rwa [Value.isJson]
    exact fun _ => isEasy_of_isJson hjson

/-! ## Models that can read data -/

theorem Storable.resolve_isOk {t : TypeExpr} (h : s.Storable t) (known : String → Bool) :
    ∃ u, t.resolve known = .ok u := by
  induction h with
  | basic _ | any | enumeration _ _ _ | model _ _ _ => exact ⟨_, rfl⟩
  | dict _ => exact ⟨_, rfl⟩
  | list _ _ ih =>
    obtain ⟨u, hu⟩ := ih
    exact ⟨_, by rw [TypeExpr.resolve, resolveAll, hu]; rfl⟩
  | optional hts _ _ ih =>
    obtain ⟨u, hu⟩ := ih
    rcases hts with rfl | rfl
    · exact ⟨_, by rw [TypeExpr.resolve, resolveAll, hu]; rfl⟩
    · exact ⟨_, by rw [TypeExpr.resolve, resolveAll, resolveAll, hu]; rfl⟩

theorem Storable.isOpen {t : TypeExpr} (h : s.Storable t) : t.isOpen = false := by
  obtain ⟨u, hu⟩ := h.resolve_isOk fun _ => false
  rw [TypeExpr.isOpen, hu]
  rfl

/-- The classes of a type whose values are stored are models, or enumerations. -/
theorem Storable.classes {t : TypeExpr} (h : s.Storable t) :
    ∀ cls ∈ t.classes, t.Holds cls ∧ (s.isModel cls = true ∨ s.class? cls = none) := by
  induction h with
  | basic _ | any =>
    intro cls hcls
    cases hcls
  | enumeration _ hnone _ =>
    intro cls hcls
    rw [List.mem_singleton.mp hcls]
    exact ⟨.core rfl, Or.inr hnone⟩
  | model hm _ _ =>
    intro cls hcls
    rw [List.mem_singleton.mp hcls]
    exact ⟨.core rfl, Or.inl hm⟩
  | @optional t ts hts _ ht ih =>
    intro cls hcls
    have hmem : cls ∈ t.classes := by
      rcases hts with rfl | rfl <;> simpa [TypeExpr.classes, TypeExpr.classesOf] using hcls
    exact (ih cls hmem).imp_left (·.of_core_eq (core_optional hts ht).symm)
  | @list c t hc _ ih =>
    intro cls hcls
    have hmem : cls ∈ t.classes := by
      simpa [TypeExpr.classes, TypeExpr.classesOf] using hcls
    exact (ih cls hmem).imp_left (·.of_core_eq (TypeExpr.core_of_item? (item?_list hc t)).symm)
  | dict _ =>
    intro cls hcls
    cases hcls

/-- The types that a class without declaration reads are none, and those of a model are the types
of its fields. -/
theorem readTypes_mem {cls : String} (h : s.isModel cls = true ∨ s.class? cls = none)
    {t : TypeExpr} (ht : t ∈ s.readTypes cls) :
    s.isModel cls = true ∧ ∃ g ∈ s.settledFields cls, g.type = t := by
  rcases h with hm | hnone
  · rw [readTypes, if_pos hm] at ht
    exact ⟨hm, List.mem_map.mp ht⟩
  · have hlineage := lineage_of_class?_none hnone
    simp [readTypes, isModel, settledRecordFields, recordFields, hlineage] at ht

/-- The classes through which data of the model passes are models it leads to, or enumerations. -/
theorem KeepsEntities.reachable (hk : s.KeepsEntities naming root) (steps : Nat)
    {found : List String} (h : ∀ cls ∈ found, s.Reaches TypeExpr.Holds root cls ∧
      (s.isModel cls = true ∨ s.class? cls = none)) :
    ∀ cls ∈ s.reachable steps found, s.Reaches TypeExpr.Holds root cls ∧
      (s.isModel cls = true ∨ s.class? cls = none) := by
  induction steps generalizing found with
  | zero => exact h
  | succ steps ih =>
    refine ih fun cls hcls => ?_
    rw [List.mem_eraseDups, List.mem_append] at hcls
    rcases hcls with hcls | hcls
    · exact h cls hcls
    · obtain ⟨c, hc, hcls⟩ := List.mem_flatMap.mp hcls
      obtain ⟨t, ht, hcls⟩ := List.mem_flatMap.mp hcls
      obtain ⟨hreach, hc⟩ := h c hc
      obtain ⟨hm, g, hg, rfl⟩ := readTypes_mem hc ht
      exact ((hk.storable hreach hm g hg).classes cls hcls).imp_left fun hl => hreach.model hm hg hl

/-- The model can read data. -/
theorem KeepsEntities.isComplete (hk : s.KeepsEntities naming root) : s.isComplete root = true := by
  rw [Schema.isComplete, List.all_eq_true]
  intro cls hcls
  have hself : ∀ cls ∈ [root], s.Reaches TypeExpr.Holds root cls ∧
      (s.isModel cls = true ∨ s.class? cls = none) := by
    intro cls hcls
    rw [List.mem_singleton.mp hcls]
    exact ⟨.root, Or.inl hk.model⟩
  obtain ⟨hreach, hc⟩ := hk.reachable _ hself cls hcls
  rw [List.all_eq_true]
  intro t ht
  obtain ⟨hm, g, hg, rfl⟩ := readTypes_mem hc ht
  rw [(hk.storable hreach hm g hg).isOpen]
  rfl

/-! ## Restoring -/

theorem get?_fillId {appId name : String} {id v : Value} {es : Entries}
    (h : es.get? name = some v) : (fillId appId id es).get? name = some v := by
  unfold fillId
  split
  · exact h
  · rename_i hkept
    rw [Bool.or_eq_true, not_or, Bool.not_eq_true, Bool.not_eq_true] at hkept
    rw [Entries.put_of_has_eq_false hkept.2, Entries.get?_append, h, Option.some_or]

theorem KeepsEntities.eq_entity (hk : s.KeepsEntities naming root) {e : Value}
    (he : s.Inhabits (.named root) e) : ∃ as, e = .entity .model root as := by
  cases he with
  | entity => exact ⟨_, rfl⟩
  | member he hm =>
    have hm := hk.model
    cases hk.storableRoot with
    | enumeration _ hnone _ =>
      rw [isModel, lineage_of_class?_none hnone] at hm
      cases hm
    | model _ _ hnone =>
      rw [he] at hnone
      cases hnone

theorem attributes_of_inhabits {cls : String} {as : List (String × Value)}
    (he : s.Inhabits (.named cls) (.entity .model cls as)) :
    as.map (·.1) = (s.settledFields cls).map (·.name) ∧
      ∀ g ∈ s.settledFields cls, s.Inhabits g.type (attributeOf as g) := by
  cases he with
  | entity _ hnames has =>
    exact ⟨hnames, fun g hg => has g hg _ (attributeOf_mem (settledFields_nodup s cls) hnames hg)⟩

/-- An entity of the model is read from what is stored of it, whatever id is filled in. -/
theorem KeepsEntities.validated (hk : s.KeepsEntities naming root) {as : List (String × Value)}
    (he : s.Inhabits (.named root) (.entity .model root as)) (appId : String) (id : Value) :
    s.validated root (fillId appId id (s.storedObject root as)) = .ok (.entity .model root as) := by
  have hback := hk.readsBack .root hk.model
  obtain ⟨hnames, has⟩ := attributes_of_inhabits he
  have hread : ∀ g ∈ s.settledFields root, ∃ w,
      (fillId appId id (s.storedObject root as)).get? g.readName = some w ∧
        ∃ f, s.fit w g.type = some f ∧ f.value = attributeOf as g := by
    intro g hg
    refine ⟨_, get?_fillId (hback.named g hg ▸ get?_storedObject hback.stored hg), ?_⟩
    exact fit_prepareAs hk.readsBack (has g hg) (hback.storable g hg)
      fun hc => Reaches.root.model hk.model hg hc
  obtain ⟨f, hf, hvalue⟩ := acceptReaders_complete hk.model hread
  rw [Schema.validated, if_pos hk.isComplete, acceptModel, hf, Option.map_some, hvalue,
    ← attributes_eq (settledFields_nodup s root) hnames]

/-- The value is an object with the wire names of the fields of a class as its keys, in order. It
can be compared with any other such object. -/
structure IsDocument (s : Schema) (naming : Option Naming) (cls : String) (d : Value) : Prop where
  comparable : d.isComparable = true
  object : ∃ (fs : List FieldEntry) (value : FieldEntry → Value),
    s.fieldsOf naming (.named cls) = .ok fs ∧ (fs.map (·.wire)).Nodup ∧
      d = .dict (fs.map fun g => (.str g.wire, value g))

theorem rename_named {cls : String} (hm : s.isModel cls = true) (direction : Direction)
    (es : Entries) : s.rename naming direction (.type (.named cls)) (.dict es) =
      s.renamed naming direction (.named cls) (.dict es) := by
  cases naming with
  | none => rfl
  | some f =>
    have hsingle := renameValue_single (r := s.renamer f direction) (structuredClass?_model hm) rfl
    exact (hsingle (.dict es)).symm

end Schema

/-- **An entity of the model becomes a document with the wire names of its fields, and this
document is restored as the entity, whatever id the engine gives.** -/
theorem SearchContext.document_restored {ctx : SearchContext} {root : String}
    (hk : ctx.schema.KeepsEntities ctx.defaults.naming root) {e : Value}
    (he : ctx.schema.Inhabits (.named root) e) :
    ∃ d, ctx.document e = .ok d ∧ ctx.schema.IsDocument ctx.defaults.naming root d ∧
      ∀ appId id, ctx.schema.restore ctx.defaults.naming appId (.type (.named root)) d id = .ok e := by
  obtain ⟨as, rfl⟩ := hk.eq_entity he
  have hback := hk.readsBack .root hk.model
  obtain ⟨hnames, has⟩ := Schema.attributes_of_inhabits he
  obtain ⟨-, fs, value, hfs, hwires, hsurvives⟩ :=
    Schema.survives_storedObject hk .root hk.model as fun g hg =>
      Schema.survives_prepareAs hk (has g hg) (hback.storable g hg)
        fun hc => Schema.Reaches.root.model hk.model hg hc
  refine ⟨_, ?_, ⟨hsurvives.comparable, fs, value, hfs, hwires, rfl⟩, fun appId id => ?_⟩
  · have hclass : Value.classOf (.entity .model root as) = .named root := rfl
    have hprepare := Schema.prepare_of_isEasy
      (Schema.isEasy_of_inhabits hk he hk.storableRoot fun hc => hc.eq_named ▸ .root)
    rw [Schema.prepareAs_entity_none hk.model hk.storableRoot.isRecord hnames hback.stored]
      at hprepare
    simp only [document, hprepare, hclass, Schema.rename_named hk.model, hsurvives.there]
  · have hgiven : ctx.schema.modelGiven? (.type (.named root)) = some root := if_pos hk.model
    rw [Schema.restore, Schema.rename_named hk.model, hsurvives.back]
    change ctx.schema.instantiate _ (Schema.fillId appId id _) = _
    unfold Schema.instantiate
    rw [hgiven]
    exact hk.validated he appId id

end TypedSearch
