import TypedSearch.Proofs.Entries
import TypedSearch.Proofs.Results
import TypedSearch.Proofs.Walks

/-!
# Mappings and paths

A mapping is built over the fields of a class and goes on below a field whose values are objects
of a class; a path is walked name by name. Both look at the same fields: an entry of the mapping
is the end of exactly one row of fields, and that row is walked to a type of the kind that the
entry tells.

* `Value.entryAt?`, `Value.HasEntry`: the entry under a row of keys, and the entries anywhere.
* `Schema.FieldChain`: rows of fields, each but the last of objects of the class of the next one.
* `Schema.collect_fold`, `Schema.collect_eq`: the properties of fields, one after the other.
* `Schema.properties_fold`: the properties of a class can be listed where annotations resolve.
* `Schema.properties_spec`: the properties of a class are the ends of the rows of fields.
* `Schema.mapping_entry_iff_path`: **the mapping of a model and the walks along its paths agree.**
-/

namespace TypedSearch

open Text

/-! ## Entries of a mapping -/

namespace Value

/-- The properties that a mapping or one of its entries lists. -/
def properties? (v : Value) : Option Entries :=
  v.asEntries?.bind fun es => (es.get? "properties").bind asEntries?

/-- The entry of a mapping that a row of keys leads to. -/
def entryAt? : Value → List String → Option Value
  | v, [] => some v
  | v, key :: keys => (v.properties?.bind (Entries.get? key)).bind (entryAt? · keys)

/-- The entries anywhere in a mapping, each with the keys that stand above it. -/
inductive HasEntry : Value → List Value → Value → Prop
  | direct {v key e : Value} {es : Entries} :
      v.properties? = some es → (key, e) ∈ es → HasEntry v [key] e
  | inside {v key e inner : Value} {es : Entries} {keys : List Value} :
      v.properties? = some es → (key, e) ∈ es → HasEntry e keys inner →
      HasEntry v (key :: keys) inner

/-- The kind that an entry tells. -/
def kindText? (v : Value) : Option Value := v.asEntries?.bind (Entries.get? "type")

theorem properties?_object (es : Entries) :
    (object [("properties", .dict es)]).properties? = some es := rfl

theorem entryAt?_append (v : Value) (keys more : List String) :
    v.entryAt? (keys ++ more) = (v.entryAt? keys).bind (entryAt? · more) := by
  induction keys generalizing v with
  | nil => rfl
  | cons key keys ih =>
    rw [List.cons_append, entryAt?, entryAt?]
    cases v.properties?.bind (Entries.get? key) with
    | none => rfl
    | some e => exact ih e

end Value

namespace Schema

variable {s : Schema} {naming : Option Naming} {fresh : List String}

/-! ## Rows of fields -/

/-- The kind of the type is that of objects or of arrays of objects, and the objects are of a
class. -/
structure LeadsTo (s : Schema) (t : TypeExpr) (cls : String) : Prop where
  kind : s.classify t = .object ∨ s.classify t = .nested
  core : t.core = .named cls
  structured : s.isStructured (.named cls) = true

theorem LeadsTo.structuredClass? {t : TypeExpr} {cls : String} (h : s.LeadsTo t cls) :
    s.structuredClass? t = some cls := structuredClass?_of_kind h.kind h.core

theorem LeadsTo.unique {t : TypeExpr} {cls other : String} (h : s.LeadsTo t cls)
    (h' : s.LeadsTo t other) : cls = other := TypeExpr.named.inj (h.core.symm.trans h'.core)

theorem leadsTo_iff {t : TypeExpr} {cls : String} :
    s.LeadsTo t cls ↔ (s.classify t = .object ∨ s.classify t = .nested) ∧
      s.structuredClass? t = some cls := by
  constructor
  · exact fun h => ⟨h.kind, h.structuredClass?⟩
  · rintro ⟨hk, hc⟩
    exact ⟨hk, structuredClass?_core hc, (structuredClass?_eq_some_iff.mp hc).2⟩

/-- Rows of fields from a class on, with the classes that they pass: each field but the last leads
to the class of the next one. -/
inductive FieldChain (s : Schema) (naming : Option Naming) :
    String → List FieldEntry → List String → Prop
  | last {cls : String} {fs : List FieldEntry} {f : FieldEntry} :
      s.fieldsOf naming (.named cls) = .ok fs → f ∈ fs → FieldChain s naming cls [f] [cls]
  | step {cls next : String} {fs chain : List FieldEntry} {f : FieldEntry}
      {classes : List String} :
      s.fieldsOf naming (.named cls) = .ok fs → f ∈ fs → s.LeadsTo f.type next →
      FieldChain s naming next chain classes →
      FieldChain s naming cls (f :: chain) (cls :: classes)

theorem FieldChain.ne_nil {cls : String} {chain : List FieldEntry} {classes : List String}
    (h : s.FieldChain naming cls chain classes) : chain ≠ [] := by
  cases h <;> exact List.cons_ne_nil _ _

theorem FieldChain.classes_eq {cls : String} {chain : List FieldEntry} {classes : List String}
    (h : s.FieldChain naming cls chain classes) : classes = cls :: classes.tail := by
  cases h <;> rfl

theorem FieldChain.structured_tail {cls : String} {chain : List FieldEntry}
    {classes : List String} (h : s.FieldChain naming cls chain classes) :
    ∀ c ∈ classes.tail, s.isStructured (.named c) = true := by
  induction h with
  | last => simp
  | step _ _ hl hrest ih =>
    intro c hc
    rw [List.tail_cons, hrest.classes_eq] at hc
    rcases List.mem_cons.mp hc with rfl | hc
    · exact hl.structured
    · exact ih c hc

/-- A row of fields is walked to the type of its last field, by the wire names of its fields. -/
theorem FieldChain.walkFrom {cls : String} {chain : List FieldEntry} {classes : List String}
    (h : s.FieldChain naming cls chain classes) {t : TypeExpr} (hcore : t.core = .named cls)
    (hcls : s.isStructured (.named cls) = true) (hnames : ∀ f ∈ chain, IsAttributeName f.name)
    (before : List String) :
    s.walkFrom naming before t (chain.map (·.name)) =
      .ok ((chain.getLast h.ne_nil).type, chain.map (·.wire)) := by
  have step : ∀ {cls : String} {fs : List FieldEntry} {f : FieldEntry} {t : TypeExpr},
      s.fieldsOf naming (.named cls) = .ok fs → f ∈ fs → t.core = .named cls →
      s.isStructured (.named cls) = true → IsAttributeName f.name → ∀ before,
      s.step naming before t f.name = .ok (.into f.type f.wire) := by
    intro cls fs f t hfs hf hcore hcls hname before
    obtain ⟨hhints, hwires⟩ := fieldsOf_spec hfs
    have hlookup := lookup_of_mem (hints_nodup hhints) (List.mem_map.mpr ⟨f, hf, rfl⟩)
    exact step_field hcore hcls hhints hlookup (hwires f hf) hname.no_position
  induction h generalizing t before with
  | last hfs hf =>
    rw [List.map_singleton, walkFrom_cons_into (step hfs hf hcore hcls (hnames _ (by simp)) before)]
    rfl
  | step hfs hf hl hrest ih =>
    rw [List.forall_mem_cons] at hnames
    rw [List.map_cons, walkFrom_cons_into (step hfs hf hcore hcls hnames.1 before),
      ih hl.core hl.structured hnames.2, List.getLast_cons hrest.ne_nil]
    rfl

/-- The path of a row of fields leads to the type of its last field. -/
theorem FieldChain.walk {cls : String} {chain : List FieldEntry} {classes : List String}
    (h : s.FieldChain naming cls chain classes) (hcls : s.isStructured (.named cls) = true)
    (hnames : ∀ f ∈ chain, IsAttributeName f.name) :
    s.walk naming (.named cls) (join "." (chain.map (·.name))) =
      .ok ((chain.getLast h.ne_nil).type, chain.map (·.wire)) :=
  walk_of_walkFrom (by simpa using h.ne_nil) (by simpa using hnames) (h.walkFrom rfl hcls hnames [])

/-! ## Properties of fields -/

/-- What an entry lists below its kind: the properties of the class that the field leads to. -/
def listedBelow (s : Schema) (naming : Option Naming) (fresh : List String) (f : FieldEntry) :
    List (String × Value) :=
  match s.classify f.type with
  | .object | .nested => (s.expansion naming fresh (s.structuredClass? f.type)).toOption.getD []
  | _ => []

/-- The entry of a field. -/
def fieldProperty (s : Schema) (naming : Option Naming) (fresh : List String) (f : FieldEntry) :
    Value :=
  .object (("type", .str (s.classify f.type).name) :: s.listedBelow naming fresh f)

/-- The properties that a field adds: none if its kind is not known. -/
def propertiesOf (s : Schema) (naming : Option Naming) (fresh : List String) (f : FieldEntry) :
    Entries :=
  if s.classify f.type = .unknown then [] else [(.str f.wire, s.fieldProperty naming fresh f)]

/-- The properties below the field can be listed. -/
def Expands (s : Schema) (naming : Option Naming) (fresh : List String) (f : FieldEntry) : Prop :=
  s.classify f.type = .object ∨ s.classify f.type = .nested →
    ∃ below, s.expansion naming fresh (s.structuredClass? f.type) = .ok below

/-- The properties with that of one more field: under its wire name it takes the place of one that
is there. -/
def addProperty (s : Schema) (naming : Option Naming) (fresh : List String) (found : Entries)
    (f : FieldEntry) : Entries :=
  if s.classify f.type = .unknown then found
  else found.put f.wire (s.fieldProperty naming fresh f)

theorem collect_cons_add {f : FieldEntry} {fs : List FieldEntry} {found : Entries}
    (hx : s.Expands naming fresh f) : s.collect naming fresh found (f :: fs) =
      s.collect naming fresh (s.addProperty naming fresh found f) fs := by
  rw [collect]
  unfold addProperty fieldProperty listedBelow
  unfold Expands at hx
  cases hk : s.classify f.type with
  | unknown => simp
  | object | nested =>
    obtain ⟨below, hbelow⟩ := hx (by simp [hk])
    simp [hbelow, Except.toOption]
  | _ => simp

/-- The properties of fields are added one after the other. -/
theorem collect_fold {fs : List FieldEntry} {found : Entries}
    (hx : ∀ f ∈ fs, s.Expands naming fresh f) : s.collect naming fresh found fs =
      .ok (fs.foldl (s.addProperty naming fresh) found) := by
  induction fs generalizing found with
  | nil => rw [collect, List.foldl_nil]
  | cons f fs ih =>
    rw [List.forall_mem_cons] at hx
    rw [collect_cons_add hx.1, ih hx.2, List.foldl_cons]

theorem collect_cons {f : FieldEntry} {fs : List FieldEntry} {found : Entries}
    (hx : s.Expands naming fresh f) (hnew : found.has f.wire = false) :
    s.collect naming fresh found (f :: fs) =
      s.collect naming fresh (found ++ s.propertiesOf naming fresh f) fs := by
  rw [collect_cons_add hx, addProperty, propertiesOf]
  split
  · rw [List.append_nil]
  · rw [Entries.put_of_has_eq_false hnew]

theorem has_propertiesOf {f : FieldEntry} {wire : String} (hne : wire ≠ f.wire) :
    (s.propertiesOf naming fresh f).has wire = false := by
  unfold propertiesOf Entries.has
  split
  · rfl
  · simp [hne.symm]

theorem collect_eq {fs : List FieldEntry} {found : Entries}
    (hx : ∀ f ∈ fs, s.Expands naming fresh f) (hwires : (fs.map (·.wire)).Nodup)
    (hnew : ∀ f ∈ fs, found.has f.wire = false) :
    s.collect naming fresh found fs =
      .ok (found ++ fs.flatMap (s.propertiesOf naming fresh)) := by
  induction fs generalizing found with
  | nil =>
    rw [collect]
    simp
  | cons f fs ih =>
    rw [List.forall_mem_cons] at hx hnew
    rw [List.map_cons, List.nodup_cons] at hwires
    have hnew' : ∀ g ∈ fs, (found ++ s.propertiesOf naming fresh f).has g.wire = false := by
      intro g hg
      have hne : g.wire ≠ f.wire := fun heq => hwires.1 (List.mem_map.mpr ⟨g, hg, heq⟩)
      rw [Entries.has_append, hnew.2 g hg, has_propertiesOf hne]
      rfl
    rw [collect_cons hx.1 hnew.1, ih hx.2 hwires.2 hnew', List.flatMap_cons, List.append_assoc]

theorem expands_of_collect {fs : List FieldEntry} {found es : Entries}
    (h : s.collect naming fresh found fs = .ok es) : ∀ f ∈ fs, s.Expands naming fresh f := by
  induction fs generalizing found with
  | nil =>
    intro f hf
    cases hf
  | cons f fs ih =>
    rw [collect] at h
    rw [List.forall_mem_cons]
    unfold Expands
    cases hk : s.classify f.type with
    | object | nested =>
      cases hx : s.expansion naming fresh (s.structuredClass? f.type) with
      | error e => simp [hk, hx] at h
      | ok below =>
        simp only [hk, hx] at h
        exact ⟨fun _ => ⟨below, rfl⟩, ih h⟩
    | _ =>
      simp only [hk] at h
      exact ⟨by simp, ih h⟩

/-- The properties of a class, where they can be listed, are those of its fields. -/
theorem properties_eq_ok {cls : String} {fs : List FieldEntry} {es : Entries}
    (hfs : s.fieldsOf naming (.named cls) = .ok fs) (hwires : (fs.map (·.wire)).Nodup)
    (h : s.properties naming fresh (.named cls) = .ok es) :
    (∀ f ∈ fs, s.Expands naming fresh f) ∧ es = fs.flatMap (s.propertiesOf naming fresh) := by
  rw [properties, hfs] at h
  have hx := expands_of_collect h
  have hall := collect_eq hx hwires (fun _ _ => rfl : ∀ f ∈ fs, Entries.has f.wire [] = false)
  rw [List.nil_append] at hall
  exact ⟨hx, Except.ok.inj (h.symm.trans hall)⟩

/-- The properties are listed under the wire names of the fields of a known kind. -/
theorem keys_flatMap_propertiesOf (fs : List FieldEntry) :
    (fs.flatMap (s.propertiesOf naming fresh)).map (·.1) =
      (fs.filter fun g => s.classify g.type ≠ .unknown).map fun g => .str g.wire := by
  induction fs with
  | nil => rfl
  | cons f fs ih =>
    rw [List.flatMap_cons, List.map_append, ih, propertiesOf, List.filter_cons]
    split <;> simp_all

theorem mem_flatMap_propertiesOf {fs : List FieldEntry} {key e : Value} :
    (key, e) ∈ fs.flatMap (s.propertiesOf naming fresh) ↔ ∃ f ∈ fs,
      s.classify f.type ≠ .unknown ∧ key = .str f.wire ∧ e = s.fieldProperty naming fresh f := by
  rw [List.mem_flatMap]
  constructor
  · rintro ⟨f, hf, hmem⟩
    unfold propertiesOf at hmem
    split at hmem
    · cases hmem
    · rename_i hk
      rw [List.mem_singleton, Prod.mk.injEq] at hmem
      exact ⟨f, hf, hk, hmem.1, hmem.2⟩
  · rintro ⟨f, hf, hk, rfl, rfl⟩
    exact ⟨f, hf, by simp [propertiesOf, hk]⟩

theorem get?_flatMap_propertiesOf {fs : List FieldEntry} {f : FieldEntry} (hf : f ∈ fs)
    (hwires : (fs.map (·.wire)).Nodup) :
    Entries.get? f.wire (fs.flatMap (s.propertiesOf naming fresh)) =
      if s.classify f.type = .unknown then none else some (s.fieldProperty naming fresh f) := by
  induction fs with
  | nil => cases hf
  | cons g fs ih =>
    rw [List.map_cons, List.nodup_cons] at hwires
    rw [List.flatMap_cons, Entries.get?_append]
    rcases List.mem_cons.mp hf with rfl | hf
    · unfold propertiesOf
      split
      · rw [Entries.get?_nil, Option.none_or, Entries.get?_eq_none_iff]
        rw [Entries.has, List.any_eq_false]
        rintro ⟨key, e⟩ hmem
        obtain ⟨h, hh, -, rfl, -⟩ := mem_flatMap_propertiesOf.mp hmem
        have hne : h.wire ≠ f.wire := fun heq => hwires.1 (List.mem_map.mpr ⟨h, hh, heq⟩)
        simp [hne]
      · simp [Entries.get?_cons]
    · have hne : f.wire ≠ g.wire := fun heq => hwires.1 (List.mem_map.mpr ⟨f, hf, heq⟩)
      rw [Entries.get?_eq_none_iff.mpr (has_propertiesOf hne), Option.none_or]
      exact ih hf hwires.2

theorem kindText?_fieldProperty (f : FieldEntry) :
    (s.fieldProperty naming fresh f).kindText? = some (.str (s.classify f.type).name) := rfl

/-- Below its kind an entry lists the properties of the class that its field leads to, or nothing if
this class may not be expanded. -/
theorem listedBelow_cases {f : FieldEntry} (hx : s.Expands naming fresh f) :
    (∃ next es, s.LeadsTo f.type next ∧ next ∈ fresh ∧
        s.properties naming (fresh.erase next) (.named next) = .ok es ∧
        s.listedBelow naming fresh f = [("properties", .dict es)]) ∨
      (∀ next, s.LeadsTo f.type next → next ∉ fresh) ∧ s.listedBelow naming fresh f = [] := by
  by_cases hk : s.classify f.type = .object ∨ s.classify f.type = .nested
  · obtain ⟨below, hbelow⟩ := hx hk
    have hlisted : s.listedBelow naming fresh f = below := by
      unfold listedBelow
      rcases hk with hk | hk <;> simp [hk, hbelow, Except.toOption]
    rw [hlisted]
    cases hc : s.structuredClass? f.type with
    | none =>
      rw [hc, expansion, Except.ok.injEq] at hbelow
      refine .inr ⟨fun next hl => ?_, hbelow.symm⟩
      cases hc.symm.trans hl.structuredClass?
    | some next =>
      have hl : s.LeadsTo f.type next := leadsTo_iff.mpr ⟨hk, hc⟩
      rw [hc, expansion] at hbelow
      split at hbelow
      · rename_i hfresh
        obtain ⟨es, hes, rfl⟩ := map_eq_ok.mp hbelow
        exact .inl ⟨next, es, hl, hfresh, hes, rfl⟩
      · rename_i hfresh
        cases hbelow
        exact .inr ⟨fun other hother => hl.unique hother ▸ hfresh, rfl⟩
  · refine .inr ⟨fun next hl => absurd hl.kind hk, ?_⟩
    unfold listedBelow
    split <;> simp_all

/-- An entry lists the properties of the class that its field leads to, unless this class is
expanded above. -/
theorem properties?_fieldProperty {f : FieldEntry} {es : Entries}
    (hx : s.Expands naming fresh f) :
    (s.fieldProperty naming fresh f).properties? = some es ↔ ∃ next, s.LeadsTo f.type next ∧
      next ∈ fresh ∧ s.properties naming (fresh.erase next) (.named next) = .ok es := by
  unfold fieldProperty
  rcases listedBelow_cases hx with ⟨next, inner, hl, hfresh, hinner, hlisted⟩ | ⟨hnone, hlisted⟩
  · have hread : (Value.object [("type", .str (s.classify f.type).name),
        ("properties", .dict inner)]).properties? = some inner := rfl
    rw [hlisted, hread, Option.some.injEq]
    constructor
    · rintro rfl
      exact ⟨next, hl, hfresh, hinner⟩
    · rintro ⟨other, hother, -, hes⟩
      rw [← hl.unique hother, hinner] at hes
      exact Except.ok.inj hes
  · have hread : (Value.object [("type", .str (s.classify f.type).name)]).properties? = none := rfl
    rw [hlisted, hread]
    constructor
    · intro hes
      cases hes
    · rintro ⟨next, hl, hfresh, -⟩
      exact absurd hfresh (hnone next hl)

/-! ## Properties of classes -/

/-- The annotations of the classes that a model leads to resolve. -/
def Resolves (s : Schema) (model : String) : Prop :=
  ∀ cls, s.Reaches s.LeadsTo model cls → ∃ hs, s.hints cls = .ok hs

/-- The classes that a model leads to can be mapped: their annotations resolve, and the fields of
each have different wire names. -/
structure Mappable (s : Schema) (naming : Option Naming) (model : String) : Prop where
  resolves : ∀ {cls}, s.Reaches s.LeadsTo model cls → ∃ hs, s.hints cls = .ok hs
  wires : ∀ {cls fs}, s.Reaches s.LeadsTo model cls → s.fieldsOf naming (.named cls) = .ok fs →
    (fs.map (·.wire)).Nodup

variable {model : String}

/-- The properties of a class can be listed where annotations resolve. The list of classes that may
be expanded gets shorter on the way down, so the induction is on its length. -/
theorem properties_fold (hn : NeverFails naming) (hm : s.Resolves model) (fresh : List String)
    {cls : String} (hr : s.Reaches s.LeadsTo model cls) :
    ∃ fs, s.fieldsOf naming (.named cls) = .ok fs ∧ (∀ f ∈ fs, s.Expands naming fresh f) ∧
      s.properties naming fresh (.named cls) =
        .ok (fs.foldl (s.addProperty naming fresh) []) := by
  induction hlen : fresh.length using Nat.strongRecOn generalizing fresh cls with
  | ind n ih =>
    obtain ⟨hs, hhints⟩ := hm cls hr
    obtain ⟨fs, hfs⟩ := fieldsOf_isOk hn hhints
    have hx : ∀ f ∈ fs, s.Expands naming fresh f := by
      intro f hf hk
      cases hc : s.structuredClass? f.type with
      | none => exact ⟨[], by rw [expansion]⟩
      | some next =>
        rw [expansion]
        by_cases hfresh : next ∈ fresh
        · have hl : s.LeadsTo f.type next := leadsTo_iff.mpr ⟨hk, hc⟩
          have hpos := List.length_pos_of_mem hfresh
          have hshort : (fresh.erase next).length < n := by
            rw [List.length_erase_of_mem hfresh]
            omega
          obtain ⟨_, -, -, hp⟩ := ih _ hshort (fresh.erase next) (hr.through hfs hf hl) rfl
          exact ⟨_, by rw [if_pos hfresh, hp]; rfl⟩
        · exact ⟨[], if_neg hfresh⟩
    refine ⟨fs, hfs, hx, ?_⟩
    rw [properties, hfs]
    exact collect_fold hx

/-- The properties of a class are those of its fields. -/
theorem properties_eq (hn : NeverFails naming) (hm : s.Mappable naming model)
    (fresh : List String) {cls : String} (hr : s.Reaches s.LeadsTo model cls) :
    ∃ fs, s.fieldsOf naming (.named cls) = .ok fs ∧ (∀ f ∈ fs, s.Expands naming fresh f) ∧
      s.properties naming fresh (.named cls) = .ok (fs.flatMap (s.propertiesOf naming fresh)) := by
  obtain ⟨fs, hfs, hx, -⟩ := properties_fold hn (fun _ hr => hm.resolves hr) fresh hr
  refine ⟨fs, hfs, hx, ?_⟩
  rw [properties, hfs]
  exact (collect_eq hx (hm.wires hr hfs) fun f hf => rfl).trans (by rw [List.nil_append])

/-- What a list of properties holds: the entry of each field of a known kind, and nothing else. -/
theorem properties_spec {cls : String} {fs : List FieldEntry} {es : Entries}
    (hfs : s.fieldsOf naming (.named cls) = .ok fs) (hwires : (fs.map (·.wire)).Nodup)
    (hes : s.properties naming fresh (.named cls) = .ok es) :
    (∀ f ∈ fs, s.Expands naming fresh f) ∧
      (∀ f ∈ fs, es.get? f.wire = if s.classify f.type = .unknown then none
        else some (s.fieldProperty naming fresh f)) ∧
      ∀ {key e}, (key, e) ∈ es → ∃ f ∈ fs, s.classify f.type ≠ .unknown ∧ key = .str f.wire ∧
        e = s.fieldProperty naming fresh f := by
  obtain ⟨hx, rfl⟩ := properties_eq_ok hfs hwires hes
  exact ⟨hx, fun f hf => get?_flatMap_propertiesOf hf hwires,
    fun h => mem_flatMap_propertiesOf.mp h⟩

/-- At the end of a row of fields a list of properties holds an entry, which tells the kind of the
last field, unless this kind is not known. -/
theorem entryAt?_of_chain (hn : NeverFails naming) (hm : s.Mappable naming model) {cls : String}
    {chain : List FieldEntry} {classes : List String}
    (h : s.FieldChain naming cls chain classes) {v : Value} {es : Entries}
    (hr : s.Reaches s.LeadsTo model cls) (hdistinct : classes.Nodup)
    (htail : ∀ c ∈ classes.tail, c ∈ fresh) (hv : v.properties? = some es)
    (hes : s.properties naming fresh (.named cls) = .ok es) :
    ((v.entryAt? (chain.map (·.wire))).isSome ↔
        s.classify (chain.getLast h.ne_nil).type ≠ .unknown) ∧
      ∀ e, v.entryAt? (chain.map (·.wire)) = some e →
        e.kindText? = some (.str (s.classify (chain.getLast h.ne_nil).type).name) := by
  induction h generalizing fresh v es with
  | @last cls fs f hfs hf =>
    obtain ⟨-, hget, -⟩ := properties_spec hfs (hm.wires hr hfs) hes
    have hat : v.entryAt? [f.wire] = if s.classify f.type = .unknown then none
        else some (s.fieldProperty naming fresh f) := by
      simp [Value.entryAt?, hv, hget f hf]
    rw [List.map_singleton, List.getLast_singleton, hat]
    split
    · simp_all
    · rename_i hk
      refine ⟨by simp [hk], ?_⟩
      rintro e ⟨⟩
      exact kindText?_fieldProperty f
  | @step cls next fs chain f classes hfs hf hl hrest ih =>
    obtain ⟨hx, hget, -⟩ := properties_spec hfs (hm.wires hr hfs) hes
    rw [List.nodup_cons] at hdistinct
    rw [List.tail_cons] at htail
    have hclasses := hrest.classes_eq
    have hnext : next ∈ fresh := htail next (hclasses ▸ List.mem_cons_self)
    have hk : s.classify f.type ≠ .unknown := by
      rcases hl.kind with h | h <;> simp [h]
    obtain ⟨fs', hfs', hx', hp⟩ :=
      properties_eq hn hm (fresh.erase next) (hr.through hfs hf hl)
    have hbelow := (properties?_fieldProperty (hx f hf)).mpr ⟨next, hl, hnext, hp⟩
    have htail' : ∀ c ∈ classes.tail, c ∈ fresh.erase next := by
      intro c hc
      have hne : c ≠ next := by
        rintro rfl
        rw [hclasses, List.nodup_cons] at hdistinct
        exact hdistinct.2.1 hc
      exact (List.mem_erase_of_ne hne).mpr (htail c (List.mem_of_mem_tail hc))
    have hat : v.entryAt? (f.wire :: chain.map (·.wire)) =
        (s.fieldProperty naming fresh f).entryAt? (chain.map (·.wire)) := by
      rw [Value.entryAt?, hv, Option.bind_some, hget f hf, if_neg hk, Option.bind_some]
    rw [List.map_cons, hat, List.getLast_cons hrest.ne_nil]
    exact ih (hr.through hfs hf hl) hdistinct.2 htail' hbelow hp

/-- Every entry anywhere in a list of properties stands at the end of a row of fields. -/
theorem chain_of_hasEntry (hn : NeverFails naming) (hm : s.Mappable naming model) {v e : Value}
    {keys : List Value} (h : v.HasEntry keys e) {fresh : List String} {cls : String} {es : Entries}
    (hr : s.Reaches s.LeadsTo model cls) (hfresh : fresh.Nodup) (hcls : cls ∉ fresh)
    (hv : v.properties? = some es) (hes : s.properties naming fresh (.named cls) = .ok es) :
    ∃ chain classes, s.FieldChain naming cls chain classes ∧ classes.Nodup ∧
      (∀ c ∈ classes.tail, c ∈ fresh) ∧ keys = chain.map (fun f => .str f.wire) ∧
      v.entryAt? (chain.map (·.wire)) = some e := by
  obtain ⟨fs, hfs, -, -⟩ := properties_eq hn hm fresh hr
  induction h generalizing fresh cls es fs with
  | @direct v key e es' hv' hmem =>
    rw [hv] at hv'
    cases hv'
    obtain ⟨hx, hget, hof⟩ := properties_spec hfs (hm.wires hr hfs) hes
    obtain ⟨f, hf, hk, rfl, rfl⟩ := hof hmem
    refine ⟨[f], [cls], .last hfs hf, List.nodup_singleton _, by simp, rfl, ?_⟩
    simp [Value.entryAt?, hv, hget f hf, hk]
  | @inside v key e inner es' keys hv' hmem hin ih =>
    rw [hv] at hv'
    cases hv'
    obtain ⟨hx, hget, hof⟩ := properties_spec hfs (hm.wires hr hfs) hes
    obtain ⟨f, hf, hk, rfl, rfl⟩ := hof hmem
    obtain ⟨es', hbelow⟩ : ∃ es', (s.fieldProperty naming fresh f).properties? = some es' := by
      cases hin <;> exact ⟨_, by assumption⟩
    obtain ⟨next, hl, hnext, hp⟩ := (properties?_fieldProperty (hx f hf)).mp hbelow
    have hr' := hr.through hfs hf hl
    obtain ⟨fs', hfs', -, -⟩ := properties_eq hn hm (fresh.erase next) hr'
    obtain ⟨chain, classes, hchain, hdistinct, htail, rfl, hat⟩ :=
      ih hr' (hfresh.erase next) hfresh.not_mem_erase hbelow hp fs' hfs'
    have hclasses := hchain.classes_eq
    have hsub : ∀ c ∈ classes, c ∈ fresh := by
      intro c hc
      rw [hclasses] at hc
      rcases List.mem_cons.mp hc with rfl | hc
      · exact hnext
      · exact List.mem_of_mem_erase (htail c hc)
    refine ⟨f :: chain, cls :: classes, .step hfs hf hl hchain, ?_, hsub, rfl, ?_⟩
    · exact List.nodup_cons.mpr ⟨fun hc => hcls (hsub cls hc), hdistinct⟩
    · rw [List.map_cons, Value.entryAt?, hv, Option.bind_some, hget f hf, if_neg hk,
        Option.bind_some, hat]

/-! ## Mappings -/

theorem mem_classNames {cls : String} (h : s.isStructured (.named cls) = true) :
    cls ∈ s.classNames := by
  unfold isStructured class? at h
  unfold classNames
  rw [List.mem_eraseDups]
  cases hf : s.classes.find? (·.name == cls) with
  | none =>
    simp only [hf] at h
    cases h
  | some c =>
    have hname : c.name = cls := by simpa using List.find?_some hf
    exact List.mem_map.mpr ⟨c, List.mem_of_find?_eq_some hf, hname⟩

theorem eraseDups_nodup (names : List String) : names.eraseDups.Nodup := by
  induction h : names.length using Nat.strongRecOn generalizing names with
  | ind n ih =>
    cases names with
    | nil => exact List.nodup_nil
    | cons name names =>
      have hshort := List.length_filter_le (fun other => !other == name) names
      have hrest := ih _ (by rw [List.length_cons] at h; omega)
        (names.filter fun other => !other == name) rfl
      rw [List.eraseDups_cons, List.nodup_cons]
      exact ⟨by simp [List.mem_eraseDups], hrest⟩

theorem Reaches.structured {cls : String} (h : s.Reaches s.LeadsTo model cls)
    (hmodel : s.isStructured (.named model) = true) : s.isStructured (.named cls) = true := by
  cases h with
  | root => exact hmodel
  | field _ _ _ hl => exact hl.structured

theorem mappable_of_classNames (hmodel : s.isStructured (.named model) = true)
    (h : ∀ cls ∈ s.classNames, ∃ fs, s.fieldsOf naming (.named cls) = .ok fs ∧
      (fs.map (·.wire)).Nodup) : s.Mappable naming model := by
  constructor
  · intro cls hr
    obtain ⟨fs, hfs, -⟩ := h cls (mem_classNames (hr.structured hmodel))
    exact ⟨_, (fieldsOf_spec hfs).1⟩
  · intro cls fs hr hfs
    obtain ⟨fs', hfs', hwires⟩ := h cls (mem_classNames (hr.structured hmodel))
    rw [hfs] at hfs'
    cases hfs'
    exact hwires

/-- **The mapping of a model and the walks along its paths agree.** At the end of a row of fields
that passes no class twice stands an entry if and only if the field at the path has a known kind,
and the entry tells this kind. Every entry stands at the end of such a row. -/
theorem mapping_entry_iff_path (hmodel : s.isStructured (.named model) = true)
    (hn : NeverFails naming) (hm : s.Mappable naming model) :
    ∃ m, s.mapping naming (.named model) = .ok m ∧
      (∀ chain classes, s.FieldChain naming model chain classes → classes.Nodup →
        (∀ f ∈ chain, IsAttributeName f.name) →
        ∃ kind wires, s.kindAt naming (.named model) (join "." (chain.map (·.name))) = .ok kind ∧
          (s.walk naming (.named model) (join "." (chain.map (·.name)))).map (·.2) = .ok wires ∧
          ((m.entryAt? wires).isSome ↔ kind ≠ .unknown) ∧
          ∀ e, m.entryAt? wires = some e → e.kindText? = some (.str kind.name)) ∧
      ∀ keys e, m.HasEntry keys e → ∃ chain classes, s.FieldChain naming model chain classes ∧
        classes.Nodup ∧ keys = chain.map (fun f => .str f.wire) ∧
        m.entryAt? (chain.map (·.wire)) = some e := by
  let fresh := s.classNames.filter fun c => some c != classOf? (.named model)
  have hmem : ∀ {c}, c ∈ fresh ↔ c ∈ s.classNames ∧ c ≠ model := by
    intro c
    simp [fresh, classOf?]
  have hfresh : fresh.Nodup := List.Nodup.filter _ (eraseDups_nodup _)
  obtain ⟨fs, hfs, -, hp⟩ := properties_eq hn hm fresh .root
  have hv := Value.properties?_object (fs.flatMap (s.propertiesOf naming fresh))
  refine ⟨.object [("properties", .dict (fs.flatMap (s.propertiesOf naming fresh)))], ?_, ?_, ?_⟩
  · change (s.properties naming fresh (.named model)).map _ = _
    rw [hp]
    rfl
  · intro chain classes hchain hdistinct hnames
    have htail : ∀ c ∈ classes.tail, c ∈ fresh := by
      intro c hc
      rw [hchain.classes_eq, List.nodup_cons] at hdistinct
      refine hmem.mpr ⟨mem_classNames (hchain.structured_tail c hc), ?_⟩
      rintro rfl
      exact hdistinct.1 hc
    have hwalk := hchain.walk hmodel hnames
    refine ⟨s.classify (chain.getLast hchain.ne_nil).type, chain.map (·.wire), ?_, ?_, ?_⟩
    · rw [kindAt, typeAt, hwalk]
      rfl
    · rw [hwalk]
      rfl
    · exact entryAt?_of_chain hn hm hchain .root hdistinct htail hv hp
  · intro keys e hentry
    have hcls : model ∉ fresh := fun h => (hmem.mp h).2 rfl
    obtain ⟨chain, classes, hchain, hdistinct, -, hkeys, hat⟩ :=
      chain_of_hasEntry hn hm hentry .root hfresh hcls hv hp
    exact ⟨chain, classes, hchain, hdistinct, hkeys, hat⟩

/-- Two classes that refer to each other, through arrays and optional types, with an alias. -/
theorem mapping_entry_iff_path_circle :
    let field (name : String) (type : TypeSyntax) (name? : Option String) :
        FieldDecl TypeSyntax := ⟨name, type, none, name?, none, none⟩
    let person : ClassDecl TypeSyntax := ⟨"Person", .model, none,
      [field "first_name" (.basic .text) none,
        field "homes" (.optional (.apply .list [.reference "Address"])) (some "places")], [], false⟩
    let address : ClassDecl TypeSyntax := ⟨"Address", .model, none,
      [field "lives_here" (.apply .list [.optional (.reference "Person")]) none,
        field "note" .any none], [], false⟩
    let s := (Schema.empty.declare person).declare address
    let f : Naming := Naming.ofFunction camelCase
    s.isStructured (.named "Person") = true ∧ NeverFails (some f) ∧
      s.Mappable (some f) "Person" ∧
      ∃ m, s.mapping (some f) (.named "Person") = .ok m ∧
        (∃ e, m.entryAt? ["places", "livesHere"] = some e ∧
          e.kindText? = some (.str "nested")) ∧
        m.entryAt? ["places", "note"] = none ∧
        ∀ keys e, m.HasEntry keys e → ∃ chain classes,
          s.FieldChain (some f) "Person" chain classes ∧ classes.Nodup ∧
          keys = chain.map (fun f => .str f.wire) ∧ m.entryAt? (chain.map (·.wire)) = some e := by
  intro field person address s f
  let homes : FieldEntry := ⟨"homes", "places", .union [.apply .list [.named "Address"], .null]⟩
  let livesHere : FieldEntry :=
    ⟨"lives_here", "livesHere", .apply .list [.union [.named "Person", .null]]⟩
  let note : FieldEntry := ⟨"note", "note", .any⟩
  have hperson : s.fieldsOf (some f) (.named "Person") =
      .ok [⟨"first_name", "firstName", .basic .text⟩, homes] := by
    unfold s f address person field
    rfl
  have haddress : s.fieldsOf (some f) (.named "Address") = .ok [livesHere, note] := by
    unfold s f address person field
    rfl
  have hmodel : s.isStructured (.named "Person") = true := rfl
  have hn : NeverFails (some f) := by
    rintro g ⟨⟩ name
    exact ⟨camelCase name, rfl⟩
  have hm : s.Mappable (some f) "Person" := by
    refine mappable_of_classNames hmodel ?_
    have hnames : s.classNames = ["Address", "Person"] := rfl
    have hwires : ["livesHere", "note"].Nodup ∧ ["firstName", "places"].Nodup := by decide
    rw [hnames, List.forall_mem_cons, List.forall_mem_singleton]
    exact ⟨⟨_, haddress, hwires.1⟩, ⟨_, hperson, hwires.2⟩⟩
  obtain ⟨m, hmap, hpaths, hentries⟩ := mapping_entry_iff_path hmodel hn hm
  have hchain (last : FieldEntry) (hlast : last ∈ [livesHere, note]) :
      s.FieldChain (some f) "Person" [homes, last] ["Person", "Address"] := by
    have hleads : s.LeadsTo homes.type "Address" := ⟨.inr (by rfl), rfl, rfl⟩
    exact .step hperson (by simp) hleads (.last haddress hlast)
  have hname : ∀ g ∈ [homes, livesHere, note], IsAttributeName g.name := by
    have hhomes : IsAttributeName "homes" := ⟨by decide, by decide, by decide⟩
    have hlives : IsAttributeName "lives_here" := ⟨by decide, by decide, by decide⟩
    have hnote : IsAttributeName "note" := ⟨by decide, by decide, by decide⟩
    exact List.forall_mem_cons.mpr
      ⟨hhomes, List.forall_mem_cons.mpr ⟨hlives, List.forall_mem_singleton.mpr hnote⟩⟩
  -- what stands at the end of the path of the homes and one of their fields
  have hend (last : FieldEntry) (hlast : last ∈ [livesHere, note]) :
      ((m.entryAt? ["places", last.wire]).isSome ↔ s.classify last.type ≠ .unknown) ∧
        ∀ e, m.entryAt? ["places", last.wire] = some e →
          e.kindText? = some (.str (s.classify last.type).name) := by
    have hnames : ∀ g ∈ [homes, last], IsAttributeName g.name := List.forall_mem_cons.mpr
      ⟨hname homes (by simp), List.forall_mem_singleton.mpr
        (hname last (List.mem_cons_of_mem _ hlast))⟩
    obtain ⟨kind, wires, hkind, hwires, hfound⟩ :=
      hpaths [homes, last] _ (hchain last hlast) (by decide) hnames
    rw [kindAt, typeAt, (hchain last hlast).walk hmodel hnames] at hkind
    rw [(hchain last hlast).walk hmodel hnames] at hwires
    cases hkind
    cases hwires
    exact hfound
  have hnested : ∃ e, m.entryAt? ["places", "livesHere"] = some e ∧
      e.kindText? = some (.str "nested") := by
    obtain ⟨hsome, hkind⟩ := hend livesHere (by simp)
    have hlives : s.classify livesHere.type = .nested := by rfl
    rw [hlives] at hsome hkind
    obtain ⟨e, he⟩ := Option.isSome_iff_exists.mp (hsome.mpr (by decide))
    exact ⟨e, he, hkind e he⟩
  have hnone : m.entryAt? ["places", "note"] = none := by
    obtain ⟨hsome, -⟩ := hend note (by simp)
    rw [← Option.not_isSome_iff_eq_none]
    exact fun h => hsome.mp h (by rfl)
  exact ⟨hmodel, hn, hm, m, hmap, hnested, hnone, hentries⟩

end Schema

end TypedSearch
