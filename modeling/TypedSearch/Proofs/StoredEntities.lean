import TypedSearch.Document.Prepare
import TypedSearch.Proofs.Results
import TypedSearch.Proofs.StoredForm

/-!
# Entities of models and their stored form

The types whose values survive storage, the values they have, and what is stored of such a value:
the data as it is, members as their values, and an entity as the object of its fields in order.

* `Value.isJson`: data that is stored as it is.
* `Schema.Storable`, `Schema.Inhabits`: the types, and their values.
* `Schema.prepareAs_entity`: the stored form of an entity.
* `Schema.prepareAs_list`, `Schema.prepareAs_optional`: those of a list and of an optional value.
-/

namespace TypedSearch

/-! ## Data -/

mutual

/-- The value is plain data: null, a truth value, a number, a text, or a list or an object with
text keys of such. -/
def Value.isJson : Value → Bool
  | .null | .bool _ | .int _ | .double _ | .str _ => true
  | .list xs => areJson xs
  | .dict es => areJsonEntries es
  | _ => false
termination_by structural v => v

/-- All values of a list are plain data. -/
def areJson : List Value → Bool
  | [] => true
  | x :: xs => x.isJson && areJson xs
termination_by structural xs => xs

/-- All keys are texts, and all values plain data. -/
def areJsonEntries : List (Value × Value) → Bool
  | [] => true
  | (.str _, v) :: es => v.isJson && areJsonEntries es
  | _ :: _ => false
termination_by structural es => es

end

namespace Value

theorem isJson_of_mem_list {xs : List Value} (h : areJson xs = true) : ∀ x ∈ xs, x.isJson = true := by
  induction xs with
  | nil => nofun
  | cons x xs ih =>
    rw [areJson, Bool.and_eq_true] at h
    exact List.forall_mem_cons.mpr ⟨h.1, ih h.2⟩

theorem isJson_of_mem_dict {es : Entries} (h : areJsonEntries es = true) :
    ∀ e ∈ es, (∃ k, e.1 = .str k) ∧ e.2.isJson = true := by
  induction es with
  | nil => nofun
  | cons e es ih =>
    obtain ⟨k, v⟩ := e
    cases k with
    | str k =>
      rw [areJsonEntries, Bool.and_eq_true] at h
      exact List.forall_mem_cons.mpr ⟨⟨⟨k, rfl⟩, h.1⟩, ih h.2⟩
    | _ => cases h

end Value

namespace Schema

variable {s : Schema}

mutual

theorem prepareAs_json : ∀ v : Value, v.isJson = true → ∀ t, s.prepareAs v t = v
  | .list xs, h, t => by
    rw [Value.isJson] at h
    rw [prepareAs, prepareEach_json xs h]
  | .dict es, h, t => by
    rw [Value.isJson] at h
    rw [prepareAs, prepareEntries_json es h]
  | .null, _, _ | .bool _, _, _ | .int _, _, _ | .double _, _, _ | .str _, _, _ => rfl

theorem prepareEach_json : ∀ xs : List Value, areJson xs = true → ∀ ts, s.prepareEach xs ts = xs
  | [], _, _ => rfl
  | x :: xs, h, [] => by
    rw [areJson, Bool.and_eq_true] at h
    rw [prepareEach, prepareAs_json x h.1, prepareEach_json xs h.2]
  | x :: xs, h, t :: ts => by
    rw [areJson, Bool.and_eq_true] at h
    rw [prepareEach, prepareAs_json x h.1, prepareEach_json xs h.2]

theorem prepareEntries_json : ∀ es : List (Value × Value), areJsonEntries es = true →
    ∀ t, s.prepareEntries es t = es
  | [], _, _ => rfl
  | (.str key, v) :: es, h, t => by
    rw [areJsonEntries, Bool.and_eq_true] at h
    rw [prepareEntries, prepareAs_json v h.1, prepareEntries_json es h.2]

end

/-! ## Types and values -/

/-- The value is of the basic class. -/
def isScalarOf : BasicType → Value → Bool
  | .text, .str _ | .integer, .int _ | .double, .double _ | .boolean, .bool _
  | .datetime, .datetime _ | .date, .date _ => true
  | _, _ => false

/-- The basic classes whose values are stored. -/
def scalarTypes : List BasicType := [.text, .integer, .double, .boolean, .datetime, .date]

end Schema

/-- The values of the members are texts or integers, each of one member only. -/
structure Enumeration.IsChoice (e : Enumeration) : Prop where
  plain : ∀ m ∈ e.members, (∃ text, m.2 = .str text) ∨ ∃ n, m.2 = .int n
  nodup : (e.members.map (·.2)).Nodup

/-- The type is a union, so that it has alternatives. -/
def TypeExpr.isUnion : TypeExpr → Bool
  | .union _ => true
  | _ => false

namespace Schema

variable {s : Schema}

/-- The types whose values are stored such that they can be read back. An enumeration has no class
of its name, and a model is neither a record nor an enumeration. -/
inductive Storable (s : Schema) : TypeExpr → Prop
  | basic {b : BasicType} : b ∈ scalarTypes → Storable s (.basic b)
  | any : Storable s .any
  | enumeration {cls : String} {e : Enumeration} :
      s.enumeration? cls = some e → s.class? cls = none → e.IsChoice → Storable s (.named cls)
  | model {cls : String} : s.isModel cls = true → s.isRecord cls = false →
      s.enumeration? cls = none → Storable s (.named cls)
  | optional {t : TypeExpr} {ts : List TypeExpr} : ts = [t, .null] ∨ ts = [.null, t] →
      t.isUnion = false → Storable s t → Storable s (.union ts)
  | list {c : Container} {t : TypeExpr} :
      c = .list ∨ c = .plainList → Storable s t → Storable s (.apply c [t])
  | dict {c : Container} : c = .dict ∨ c = .plainDict → Storable s (.apply c [.basic .text, .any])

/-- The values of these types. An entity has its class's fields as attributes, in order. -/
inductive Inhabits (s : Schema) : TypeExpr → Value → Prop
  | scalar {b : BasicType} {v : Value} : isScalarOf b v = true → Inhabits s (.basic b) v
  | any {v : Value} : v.isJson = true → Inhabits s .any v
  | member {cls : String} {e : Enumeration} {m : String × Value} :
      s.enumeration? cls = some e → m ∈ e.members → Inhabits s (.named cls) (e.toValue m)
  | entity {cls : String} {as : List (String × Value)} : s.isModel cls = true →
      as.map (·.1) = (s.settledFields cls).map (·.name) →
      (∀ g ∈ s.settledFields cls, ∀ v, (g.name, v) ∈ as → Inhabits s g.type v) →
      Inhabits s (.named cls) (.entity .model cls as)
  | absent {ts : List TypeExpr} : Inhabits s (.union ts) .null
  | present {t : TypeExpr} {ts : List TypeExpr} {v : Value} :
      t ∈ ts → t.isNull = false → Inhabits s t v → Inhabits s (.union ts) v
  | list {c : Container} {t : TypeExpr} {xs : List Value} :
      (∀ x ∈ xs, Inhabits s t x) → Inhabits s (.apply c [t]) (.list xs)
  | dict {c : Container} {es : Entries} :
      areJsonEntries es = true → Inhabits s (.apply c [.basic .text, .any]) (.dict es)

theorem Storable.isNull {t : TypeExpr} (h : s.Storable t) : t.isNull = false := by
  cases h <;> rfl

/-- A type that is not optional has one alternative: itself. -/
theorem Storable.alternatives {t : TypeExpr} (h : s.Storable t) (hu : t.isUnion = false) :
    t.alternatives = [t] := by
  cases h <;> first | rfl | cases hu

theorem Storable.alternatives_optional {t : TypeExpr} {ts : List TypeExpr}
    (hts : ts = [t, .null] ∨ ts = [.null, t]) (h : s.Storable t) (hu : t.isUnion = false) :
    (TypeExpr.union ts).alternatives = ts := by
  rcases hts with rfl | rfl <;>
    simp [TypeExpr.alternatives, TypeExpr.alternativesOf, h.alternatives hu]

theorem Storable.writtenAs? {t : TypeExpr} (h : s.Storable t) (hu : t.isUnion = false)
    (v : Value) : s.writtenAs? t v = some t := by
  rw [Schema.writtenAs?, h.alternatives hu]
  simp [h.isNull]

theorem Storable.writtenAs?_optional {t : TypeExpr} {ts : List TypeExpr}
    (hts : ts = [t, .null] ∨ ts = [.null, t]) (h : s.Storable t) (hu : t.isUnion = false)
    (v : Value) : s.writtenAs? (.union ts) v = some t := by
  have hnull : TypeExpr.null.isNull = true := rfl
  have hfilter : (ts.filter fun h => !h.isNull) = [t] := by
    rcases hts with rfl | rfl <;> simp [h.isNull, hnull]
  rw [Schema.writtenAs?, h.alternatives_optional hts hu, hfilter]

theorem stripped_optional {t : TypeExpr} {ts : List TypeExpr}
    (hts : ts = [t, .null] ∨ ts = [.null, t]) (h : s.Storable t) :
    (TypeExpr.union ts).stripped = t.stripped := by
  have hnull : TypeExpr.null.isNull = true := rfl
  rcases hts with rfl | rfl <;>
    simp [TypeExpr.stripped, TypeExpr.unwrap, TypeExpr.unwrapPresent, TypeExpr.isOptional, h.isNull,
      hnull]

theorem core_optional {t : TypeExpr} {ts : List TypeExpr}
    (hts : ts = [t, .null] ∨ ts = [.null, t]) (h : s.Storable t) :
    (TypeExpr.union ts).core = t.core := by
  rw [← TypeExpr.core_stripped, stripped_optional hts h, TypeExpr.core_stripped]

theorem item?_list {c : Container} (hc : c = .list ∨ c = .plainList) (t : TypeExpr) :
    (TypeExpr.apply c [t]).item? = some t := by
  rcases hc with rfl | rfl <;> rfl

/-! ## Stored forms -/

/-- An optional value is stored as a value of the type without the option. -/
theorem prepareAs_optional {t : TypeExpr} {ts : List TypeExpr}
    (hts : ts = [t, .null] ∨ ts = [.null, t]) (h : s.Storable t) (hu : t.isUnion = false)
    (v : Value) : s.prepareAs v (some (.union ts)) = s.prepareAs v (some t) := by
  cases v <;>
    simp only [prepareAs, Option.bind_some, h.writtenAs? hu, h.writtenAs?_optional hts hu]

theorem prepareEach_replicate (xs : List Value) (t : TypeExpr) :
    s.prepareEach xs (List.replicate xs.length (some t)) =
      xs.map fun x => s.prepareAs x (some t) := by
  induction xs with
  | nil => rfl
  | cons x xs ih => rw [List.length_cons, List.replicate_succ, prepareEach, ih, List.map_cons]

/-- A list is stored element by element. -/
theorem prepareAs_list {c : Container} {t : TypeExpr} (hc : c = .list ∨ c = .plainList)
    (h : s.Storable t) (xs : List Value) :
    s.prepareAs (.list xs) (some (.apply c [t])) =
      .list (xs.map fun x => s.prepareAs x (some t)) := by
  have hlist : s.Storable (.apply c [t]) := .list hc h
  have hc' : elementTypes xs.length (some (.apply c [t])) =
      List.replicate xs.length (some t) := by
    rcases hc with rfl | rfl <;> rfl
  rw [prepareAs, Option.bind_some, hlist.writtenAs? rfl]
  simp only [hc', prepareEach_replicate]

theorem prepareAs_dict {es : Entries} (h : areJsonEntries es = true)
    (t : Option TypeExpr) : s.prepareAs (.dict es) t = .dict es :=
  prepareAs_json (.dict es) (by rwa [Value.isJson]) t

/-! ## Fields of models -/

theorem lineage_of_class?_none {cls : String} (h : s.class? cls = none) : s.lineage cls = [] := by
  refine lineageIn_eq_nil fun hmem => ?_
  obtain ⟨c, hc, hname⟩ := List.mem_map.mp hmem
  have hnone := List.find?_eq_none.mp h c hc
  rw [hname] at hnone
  exact hnone (beq_self_eq_true cls)

theorem isStructured_of_isModel {cls : String} (hm : s.isModel cls = true) :
    s.isStructured (.named cls) = true := by
  cases hc : s.class? cls with
  | none =>
    rw [isModel, lineage_of_class?_none hc] at hm
    cases hm
  | some c => simp [isStructured, hc, hm]

theorem resolveFields_mem {fs gs : List (FieldDecl TypeExpr)} (h : resolveFields s fs = .ok gs) :
    ∀ g ∈ gs, ∃ m ∈ fs, g = { m with type := g.type } := by
  induction fs generalizing gs with
  | nil =>
    cases h
    intro g hg
    cases hg
  | cons f fs ih =>
    obtain ⟨t, -, h⟩ := bind_eq_ok.mp h
    obtain ⟨rest, hrest, h⟩ := bind_eq_ok.mp h
    cases h
    intro g hg
    rcases List.mem_cons.mp hg with rfl | hg
    · exact ⟨f, List.mem_cons_self, rfl⟩
    · obtain ⟨m, hm, heq⟩ := ih hrest g hg
      exact ⟨m, List.mem_cons_of_mem _ hm, heq⟩

/-- Settling the types of a model changes nothing else of its fields. -/
theorem settledFields_mem {cls : String} {g : FieldDecl TypeExpr} (hg : g ∈ s.settledFields cls) :
    ∃ m ∈ s.modelFields cls, g = { m with type := g.type } := by
  unfold settledFields at hg
  cases hr : resolveFields s (s.modelFields cls) with
  | error e =>
    rw [hr] at hg
    exact ⟨g, hg, rfl⟩
  | ok gs =>
    rw [hr] at hg
    exact resolveFields_mem hr g hg

theorem getD_wireAlias? {g : FieldDecl TypeExpr} (h : g.storedName ≠ "") :
    g.wireAlias?.getD g.name = g.storedName := by
  unfold FieldDecl.wireAlias? FieldDecl.storedName at *
  cases hs : g.storedAlias with
  | some a =>
    rw [hs] at h
    have ha : a ≠ "" := h
    by_cases hname : a = g.name
    · subst hname
      simp [ha, Option.filter]
    · simp [ha, hname, Option.filter]
  | none =>
    rw [hs] at h
    cases hc : g.commonAlias with
    | none => simp
    | some a =>
      rw [hc] at h
      have ha : a ≠ "" := h
      by_cases hname : a = g.name
      · subst hname
        simp [ha, Option.filter]
      · simp [ha, hname, Option.filter]

/-- The stored key of a model's field is the name under which the model writes it. -/
theorem storedKey_eq_storedName {cls : String} (hm : s.isModel cls = true)
    {g : FieldDecl TypeExpr} (hg : g ∈ s.settledFields cls) (hne : g.storedName ≠ "") :
    s.storedKey cls g.name = g.storedName := by
  obtain ⟨m, hmem, heq⟩ := settledFields_mem hg
  have hname : m.name = g.name := by rw [heq]
  have hfind := find?_of_mem (modelFields_nodup s cls) hmem
  have halias : m.wireAlias? = g.wireAlias? := by rw [heq]; rfl
  rw [hname] at hfind
  rw [storedKey, alias?, if_pos hm, hfind, Option.bind_some, halias, getD_wireAlias? hne]

/-! ## Stored entities -/

/-- An entity whose attributes are values of its class's fields, one by one. -/
theorem Inhabits.of_attributes {cls : String} {as : List (String × Value)}
    (hm : s.isModel cls = true) (h : List.Forall₂ (fun g a => a.1 = g.name ∧ s.Inhabits g.type a.2)
      (s.settledFields cls) as) : s.Inhabits (.named cls) (.entity .model cls as) := by
  have hrow : ∀ {fs : List (FieldDecl TypeExpr)} {as : List (String × Value)},
      List.Forall₂ (fun g a => a.1 = g.name ∧ s.Inhabits g.type a.2) fs as →
      as.map (·.1) = fs.map (·.name) := by
    intro fs as h
    induction h with
    | nil => rfl
    | cons ha _ ih => rw [List.map_cons, List.map_cons, ha.1, ih]
  have hnames := hrow h
  refine .entity hm hnames fun g hg v hv => ?_
  obtain ⟨a, ha, hname, hvalue⟩ := exists_of_forall₂ h hg
  have hn : (as.map (·.1)).Nodup := hnames ▸ settledFields_nodup s cls
  have hlookup := lookup_of_mem hn (hname ▸ ha : (g.name, a.2) ∈ as)
  rw [lookup_of_mem hn hv, Option.some.injEq] at hlookup
  exact hlookup ▸ hvalue

/-- The attribute of a field. -/
def attributeOf (as : List (String × Value)) (g : FieldDecl TypeExpr) : Value :=
  (as.lookup g.name).getD .null

/-- The attributes of an entity are those of its class's fields. -/
theorem attributes_eq {fs : List (FieldDecl TypeExpr)} {as : List (String × Value)}
    (hn : (fs.map (·.name)).Nodup) (h : as.map (·.1) = fs.map (·.name)) :
    as = fs.map fun g => (g.name, attributeOf as g) := by
  have hself : ∀ a ∈ as, a = (a.1, (as.lookup a.1).getD .null) := by
    intro a ha
    rw [lookup_of_mem (h ▸ hn) ha]
    rfl
  have hmap : as.map (fun a => (a.1, (as.lookup a.1).getD .null)) =
      (as.map (·.1)).map fun name => (name, (as.lookup name).getD .null) := by
    rw [List.map_map]
    rfl
  calc as = as.map (fun a => (a.1, (as.lookup a.1).getD .null)) := by
        conv_lhs => rw [← List.map_id as]
        exact List.map_congr_left hself
    _ = (fs.map (·.name)).map fun name => (name, (as.lookup name).getD .null) := by
        rw [hmap, h]
    _ = fs.map fun g => (g.name, attributeOf as g) := by
        rw [List.map_map]
        rfl

theorem attributeOf_mem {fs : List (FieldDecl TypeExpr)} {as : List (String × Value)}
    (hn : (fs.map (·.name)).Nodup) (h : as.map (·.1) = fs.map (·.name)) {g : FieldDecl TypeExpr}
    (hg : g ∈ fs) : (g.name, attributeOf as g) ∈ as := by
  have hmem : (g.name, attributeOf as g) ∈ fs.map fun g => (g.name, attributeOf as g) :=
    List.mem_map.mpr ⟨g, hg, rfl⟩
  rwa [← attributes_eq hn h] at hmem

theorem foldl_put {es : List (String × Value)} {kept : Entries} (hn : (es.map (·.1)).Nodup)
    (hnew : ∀ e ∈ es, kept.has e.1 = false) :
    es.foldl (fun kept e => Entries.put e.1 e.2 kept) kept =
      kept ++ es.map fun e => (.str e.1, e.2) := by
  induction es generalizing kept with
  | nil => simp
  | cons e es ih =>
    rw [List.map_cons, List.nodup_cons] at hn
    rw [List.forall_mem_cons] at hnew
    have hrest : ∀ e' ∈ es, (kept ++ [(.str e.1, e.2)] : Entries).has e'.1 = false := by
      intro e' he'
      have hne : e.1 ≠ e'.1 := fun heq => hn.1 (List.mem_map.mpr ⟨e', he', heq.symm⟩)
      rw [Entries.has_append, hnew.2 e' he']
      simp [Entries.has, hne]
    rw [List.foldl_cons, Entries.put_of_has_eq_false hnew.1, ih hn.2 hrest]
    simp

theorem ofNamed_eq {es : List (String × Value)} (hn : (es.map (·.1)).Nodup) :
    Entries.ofNamed es = es.map fun e => (.str e.1, e.2) := by
  rw [Entries.ofNamed, foldl_put hn fun e _ => rfl, List.nil_append]

theorem prepareAttributes_eq {layout : Layout} {fs : List (FieldDecl TypeExpr)}
    (value : FieldDecl TypeExpr → Value)
    (hl : ∀ g ∈ fs, layout g.name = some (g.storedName, some g.type)) :
    s.prepareAttributes (fs.map fun g => (g.name, value g)) layout =
      fs.map fun g => (g.storedName, s.prepareAs (value g) (some g.type)) := by
  induction fs with
  | nil => rfl
  | cons g fs ih =>
    rw [List.forall_mem_cons] at hl
    rw [List.map_cons, List.map_cons, prepareAttributes, hl.1, ih hl.2]

/-- What is stored of an entity: its fields in order under the names by which the model writes
them. -/
def storedObject (s : Schema) (cls : String) (as : List (String × Value)) : Entries :=
  (s.settledFields cls).map fun g =>
    (.str g.storedName, s.prepareAs (attributeOf as g) (some g.type))

theorem ofNamed_prepareAttributes {cls : String} {as : List (String × Value)}
    (hnames : as.map (·.1) = (s.settledFields cls).map (·.name))
    (hstored : ((s.settledFields cls).map (·.storedName)).Nodup) :
    Entries.ofNamed (s.prepareAttributes as (s.modelLayout cls)) = s.storedObject cls as := by
  have hn := settledFields_nodup s cls
  have hl : ∀ g ∈ s.settledFields cls,
      s.modelLayout cls g.name = some (g.storedName, some g.type) := by
    intro g hg
    rw [modelLayout, find?_of_mem hn hg]
    rfl
  have has := prepareAttributes_eq (s := s) (attributeOf as) hl
  rw [← attributes_eq hn hnames] at has
  rw [has, ofNamed_eq (by rwa [List.map_map]), List.map_map]
  rfl

/-- The stored form of an entity where its class is declared. -/
theorem prepareAs_entity {cls : String} {as : List (String × Value)} (h : s.Storable (.named cls))
    (hm : s.isModel cls = true) (hnames : as.map (·.1) = (s.settledFields cls).map (·.name))
    (hstored : ((s.settledFields cls).map (·.storedName)).Nodup) :
    s.prepareAs (.entity .model cls as) (some (.named cls)) = .dict (s.storedObject cls as) := by
  have hlayout : s.layout (some (.named cls)) cls = s.modelLayout cls := by
    rw [layout, if_pos hm]
  rw [prepareAs, Option.bind_some, h.writtenAs? rfl]
  simp only [hlayout, ofNamed_prepareAttributes hnames hstored]

/-- The stored form of an entity where no class is declared. -/
theorem prepareAs_entity_none {cls : String} {as : List (String × Value)} (hm : s.isModel cls = true)
    (hr : s.isRecord cls = false) (hnames : as.map (·.1) = (s.settledFields cls).map (·.name))
    (hstored : ((s.settledFields cls).map (·.storedName)).Nodup) :
    s.prepareAs (.entity .model cls as) none = .dict (s.storedObject cls as) := by
  have hlayout : s.layout none cls = s.modelLayout cls := by
    simp [layout, ownLayout, hm, hr]
  rw [prepareAs]
  simp only [Option.bind_none, hlayout, ofNamed_prepareAttributes hnames hstored]

end Schema

end TypedSearch
