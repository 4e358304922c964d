import TypedSearch.Proofs.ExactEntities
import TypedSearch.Proofs.MappingPaths
import TypedSearch.Proofs.RoundTrip

/-!
# The keys of stored documents

The document of an entity holds an object at each place of a class. Its keys are the wire names of
the fields of this class as long as the renaming comes along: it goes into a field whose type is a
class or an array of a class. Below any other type, such as an array of arrays or an object with
arbitrary keys, the objects keep the names that the models write. Where a mapping lists the
properties of a place, the renaming has come along.

* `Schema.renamer_total`: a renaming never fails where the fields of the classes can be listed.
* `Schema.KeepsKeys`: a naming under which no two fields get in each other's way.
* `Schema.StandsAt`: what stands at the places of classes in a document.
* `Schema.StandsAt.storedAt`: it is the stored form of an entity, renamed as long as the renaming
  comes along.
* `SearchContext.document_keys`: **the keys of the objects in a document, and the properties that
  the mapping lists for them.**
-/

namespace TypedSearch

namespace Schema

variable {s : Schema} {naming : Option Naming} {root : String} {f : Naming}
  {direction : Direction}

/-! ## Renaming never fails -/

theorem renamer_shrinks : Renamer.Shrinks (s.renamer f direction) := by
  intro t v w h
  cases v with
  | dict es =>
    obtain ⟨u, -, h⟩ := bind_eq_ok.mp h
    exact renameWithin_shrinks _ _ _ _ h
  | _ =>
    rw [renamer_of_not_object rfl] at h
    cases h
    exact Nat.le_refl _

theorem renameValue_total {r : Renamer} {t : TypeExpr} {v : Value}
    (h : ∀ cls ∈ s.structuredClass? t, ∀ x : Value, x.depth ≤ v.depth →
      ∃ y, r (.named cls) x = .ok y) : ∃ w, s.renameValue r t v = .ok w := by
  cases hc : s.structuredClass? t with
  | none => exact ⟨v, renameValue_of_none hc v⟩
  | some cls =>
    cases hi : t.stripped.item? with
    | none =>
      rw [renameValue_single hc hi]
      exact h cls hc v (Nat.le_refl _)
    | some item =>
      by_cases hv : ∃ xs, v = .list xs
      · obtain ⟨xs, rfl⟩ := hv
        have hxs : ∀ x ∈ xs, x.depth ≤ (Value.list xs).depth := by
          intro x hx
          have hdepth := depthOfAll_le_iff.mp (Nat.le_refl _) x hx
          rw [Value.depth]
          omega
        obtain ⟨ys, hys⟩ := renameAll_isOk fun x hx => h cls hc x (hxs x hx)
        exact ⟨.list ys, by rw [renameValue_list hc hi, hys]; rfl⟩
      · exact ⟨v, renameValue_of_not_list hi fun xs hxs => hv ⟨xs, hxs⟩⟩

theorem renameFields_total {r : Renamer} (hr : r.Shrinks) {cls : String} {fs : List FieldEntry}
    {d : Nat} (h : ∀ g ∈ fs, ∀ v : Value, v.depth ≤ d → ∃ w, s.renameValue r g.type v = .ok w)
    {es : Entries} (hes : depthOfEntries es ≤ d) :
    ∃ es', s.renameFields r direction cls fs es = .ok es' := by
  induction fs generalizing es with
  | nil => exact ⟨es, rfl⟩
  | cons g fs ih =>
    rw [List.forall_mem_cons] at h
    unfold renameFields
    dsimp only
    split
    · exact ih h.2 hes
    · rename_i v hv
      obtain ⟨w, hw⟩ := h.1 v (Nat.le_trans (depth_of_get? hv) hes)
      have hdepth := Nat.le_trans (renameValue_depth hr hw) (Nat.le_trans (depth_of_get? hv) hes)
      rw [hw]
      exact ih h.2 (depthOfEntries_put hdepth (Nat.le_trans (depthOfEntries_erase _ _) hes))

/-- Whatever stands in a document, it is renamed if the fields of the classes can be listed. -/
theorem renamer_total {leads : TypeExpr → String → Prop}
    (hleads : ∀ {t c}, s.structuredClass? t = some c → leads t c)
    (hfields : ∀ {cls}, s.Reaches leads root cls →
      ∃ fs, s.fieldsOf (some f) (.named cls) = .ok fs) {cls : String}
    (hreach : s.Reaches leads root cls) (v : Value) :
    ∃ w, s.renamer f direction (.named cls) v = .ok w := by
  induction hd : v.depth using Nat.strongRecOn generalizing cls v with
  | ind d ih =>
    cases v with
    | dict es =>
      rw [Value.depth] at hd
      obtain ⟨fs, hfs⟩ := hfields hreach
      have hvalues : ∀ g ∈ fs, ∀ v : Value, v.depth ≤ depthOfEntries es →
          ∃ w, s.renameValue (s.renamer f direction) g.type v = .ok w := by
        intro g hg v hv
        refine renameValue_total fun c hc x hx => ih x.depth (by omega) ?_ x rfl
        exact hreach.through hfs hg (hleads hc)
      obtain ⟨es', hes'⟩ : ∃ es',
          s.renameFields (s.renamer f direction) direction cls fs es = .ok es' :=
        renameFields_total renamer_shrinks hvalues (Nat.le_refl _)
      refine ⟨.dict es', ?_⟩
      rw [renamer_object, hfs]
      exact congrArg (Except.map Value.dict) hes'
    | _ => exact ⟨_, renamer_of_not_object rfl⟩

/-! ## Namings that keep the keys -/

/-- A naming under which the keys of stored documents are kept apart: in every class that the model
`root` leads to, no field gets in the way of another one, neither by the name under which it is
written nor by the wire name. -/
structure KeepsKeys (s : Schema) (naming : Option Naming) (root : String) : Prop where
  model : s.isModel root = true
  total : NeverFails naming
  resolves : ∀ {cls}, s.Reaches TypeExpr.Holds root cls → ∃ hs, s.hints cls = .ok hs
  named : ∀ {cls}, s.Reaches TypeExpr.Holds root cls → s.isModel cls = true →
    ∀ g ∈ s.settledFields cls, g.storedName ≠ ""
  apart : s.KeepsApart naming root

/-- The fields are kept apart by the names under which they are written. -/
theorem WellNamed.written {cls : String} {fs gs : List FieldEntry} (hw : s.WellNamed cls fs)
    (hfs : s.fieldsOf naming (.named cls) = .ok fs) (hgs : s.fieldsOf none (.named cls) = .ok gs) :
    s.WellNamed cls gs := by
  have hsame : gs.map (·.name) = fs.map (·.name) := by
    have hhints := (fieldsOf_spec hfs).1.symm.trans (fieldsOf_spec hgs).1
    have hnames := congrArg (List.map (·.1)) (Except.ok.inj hhints)
    rw [List.map_map, List.map_map] at hnames
    exact hnames.symm
  have hstored : (gs.map fun g => s.storedKey cls g.name).Nodup := by
    have hkeys := congrArg (List.map (s.storedKey cls)) hsame
    rw [List.map_map, List.map_map] at hkeys
    exact (congrArg List.Nodup hkeys).mpr hw.stored
  have hwires : ∀ g ∈ gs, g.wire = s.storedKey cls g.name := wire_eq_storedKey hgs
  refine ⟨hstored, List.map_congr_left hwires ▸ hstored, fun g hg h hh heq => ?_⟩
  rw [hwires g hg] at heq
  exact List.inj_on_of_nodup_map hstored hg hh heq

/-- Without the naming the keys are kept apart just as well. -/
theorem KeepsKeys.written (hk : s.KeepsKeys naming root) : s.KeepsKeys none root where
  model := hk.model
  total := nofun
  resolves := hk.resolves
  named := hk.named
  apart := by
    intro cls gs hreach hgs
    obtain ⟨fs, hfs⟩ := fieldsOf_isOk hk.total (fieldsOf_spec hgs).1
    exact (hk.apart hreach hfs).written hfs hgs

theorem KeepsKeys.stored (hk : s.KeepsKeys naming root) {cls : String}
    (hreach : s.Reaches TypeExpr.Holds root cls) (hm : s.isModel cls = true) :
    ((s.settledFields cls).map (·.storedName)).Nodup := by
  obtain ⟨fs, hfs, hmap⟩ := fieldsOf_of_isModel hk.total hm
  rw [map_storedName hm (hk.named hreach hm) hmap]
  exact (hk.apart hreach hfs).stored

/-! ## Renamed values -/

theorem renamed_of_isPlain {t : TypeExpr} {v : Value} (hv : v.isPlain = true) :
    s.renamed naming direction t v = .ok v := by
  cases naming with
  | none => rfl
  | some f => exact renameValue_of_isPlain hv

theorem renamed_of_none {t : TypeExpr} (ht : s.structuredClass? t = none) (v : Value) :
    s.renamed naming direction t v = .ok v := by
  cases naming with
  | none => rfl
  | some f => exact renameValue_of_none ht v

theorem renamed_of_stripped {t u : TypeExpr} (h : t.stripped = u.stripped) (v : Value) :
    s.renamed naming direction t v = s.renamed naming direction u v := by
  simp only [renamed, renameValue, h]

/-- The elements of an array of a class are renamed one by one. -/
theorem mem_renamed_list {t item : TypeExpr} {cls : String} {xs ys : List Value}
    (hc : s.structuredClass? t = some cls) (hi : t.stripped.item? = some item)
    (h : s.renamed naming direction t (.list xs) = .ok (.list ys)) :
    ∀ y ∈ ys, ∃ x ∈ xs, s.renamed naming direction (.named cls) x = .ok y := by
  cases naming with
  | none =>
    cases h
    exact fun y hy => ⟨y, hy, rfl⟩
  | some f =>
    have hcls : s.structuredClass? (.named cls) = some cls :=
      structuredClass?_eq_some_iff.mpr ⟨rfl, (structuredClass?_eq_some_iff.mp hc).2⟩
    rw [renamed, renameValue_list hc hi] at h
    obtain ⟨zs, hzs, heq⟩ := map_eq_ok.mp h
    cases heq
    intro y hy
    obtain ⟨x, hx, hxy⟩ := exists_of_forall₂ (renameAll_forall₂ hzs).flip hy
    exact ⟨x, hx, by rw [renamed, renameValue_single hcls rfl, hxy]⟩

theorem renamed_not_list {t item : TypeExpr} {v w : Value} (hi : t.stripped.item? = some item)
    (hv : ∀ xs, v ≠ .list xs) (h : s.renamed naming direction t v = .ok w) : w = v := by
  cases naming with
  | none => exact (Except.ok.inj h).symm
  | some f =>
    rw [renamed, renameValue_of_not_list hi hv] at h
    exact (Except.ok.inj h).symm

theorem KeepsKeys.renamed_isOk (hk : s.KeepsKeys naming root) {t : TypeExpr}
    (hreach : ∀ {cls}, t.Holds cls → s.Reaches TypeExpr.Holds root cls) (v : Value) :
    ∃ w, s.renamed naming direction t v = .ok w := by
  cases naming with
  | none => exact ⟨v, rfl⟩
  | some f =>
    have holds : ∀ {u cls}, s.structuredClass? u = some cls → u.Holds cls := fun hc =>
      .core (structuredClass?_core hc)
    have hfields : ∀ {cls}, s.Reaches TypeExpr.Holds root cls →
        ∃ fs, s.fieldsOf (some f) (.named cls) = .ok fs := by
      intro cls hcls
      obtain ⟨hs, hhints⟩ := hk.resolves hcls
      exact fieldsOf_isOk hk.total hhints
    exact renameValue_total fun cls hc x _ => renamer_total holds hfields (hreach (holds hc)) x

/-! ## Stored entities -/

/-- The value is what is stored of an exact entity of the class under the naming, or no object. -/
inductive StoredAt (s : Schema) (naming : Option Naming) (cls : String) : Value → Prop
  | plain {o : Value} : o.isPlain = true → StoredAt s naming cls o
  | object {as : List (String × Value)} {o : Value} : s.isModel cls = true →
      s.IsExact (.named cls) (.entity .model cls as) →
      s.renamed naming .toWire (.named cls) (.dict (s.storedObject cls as)) = .ok o →
      StoredAt s naming cls o

/-- What is stored of an exact entity has the wire names of the fields as its keys, in order, and
the values of the fields, renamed. -/
theorem StoredAt.fields (hk : s.KeepsKeys naming root) {cls : String}
    (hreach : s.Reaches TypeExpr.Holds root cls) {es : Entries}
    (h : s.StoredAt naming cls (.dict es)) :
    ∃ fs, s.fieldsOf naming (.named cls) = .ok fs ∧ ∃ value : FieldEntry → Value,
      es = fs.map (fun g => (.str g.wire, value g)) ∧ ∀ g ∈ fs, ∃ v, s.IsExact g.type v ∧
        s.renamed naming .toWire g.type (s.prepareAs v (some g.type)) = .ok (value g) := by
  generalize hd : Value.dict es = d at h
  cases h with
  | plain hv =>
    subst hd
    cases hv
  | @object as _ hm he h =>
    subst hd
    obtain ⟨fs, hfs, hmap⟩ := fieldsOf_of_isModel hk.total hm
    have hfields : ∀ g ∈ fs, ∃ w, s.renamed naming .toWire g.type
        (s.prepareAs ((as.lookup g.name).getD .null) (some g.type)) = .ok w := fun g hg =>
      hk.renamed_isOk (fun hc => hreach.through hfs hg hc) _
    choose! value hvalue using hfields
    have hexact : ∀ g ∈ fs, s.IsExact g.type ((as.lookup g.name).getD .null) := by
      obtain ⟨-, -, has⟩ := he.attributes hm
      intro g hg
      obtain ⟨g', hg', hname, htype⟩ := settled_of_field hmap hg
      rw [← hname, ← htype]
      exact has g' hg'
    refine ⟨fs, hfs, value, ?_, fun g hg => ⟨_, hexact g hg, hvalue g hg⟩⟩
    rw [storedObject_eq hm (hk.named hreach hm) hmap] at h
    have hall := renamed_object hm hfs (hk.apart hreach hfs) .toWire hvalue
    exact Value.dict.inj (Except.ok.inj (h.symm.trans hall))

/-- The stored form of a value at the place of a class, renamed. -/
theorem storedAt_of_stripped (hk : s.KeepsKeys naming root) {t : TypeExpr} {cls : String}
    (hreach : s.Reaches TypeExpr.Holds root cls) {v o : Value} (h : s.IsExact t v)
    (ht : t.stripped = .named cls) (hs : s.isStructured (.named cls) = true)
    {t? : Option TypeExpr} (ht? : ∀ u ∈ t?, u = t)
    (ho : s.renamed naming .toWire (.named cls) (s.prepareAs v t?) = .ok o) :
    s.StoredAt naming cls o := by
  cases h with
  | leaf hv =>
    have hplain := prepareAs_isLeaf (s := s) v t? hv
    rw [renamed_of_isPlain hplain] at ho
    cases ho
    exact .plain hplain
  | @entity _ c as hc hm hr hnames has =>
    rw [ht, TypeExpr.named.injEq] at hc
    subst hc
    rw [prepareAs_exact (fun u hu => ht? u hu ▸ ht) hm hr hnames (hk.stored hreach hm)] at ho
    exact .object hm (.entity rfl hm hr hnames has) ho
  | array hn | entries hn | free hn =>
    rw [ht, hs] at hn
    cases hn

/-- What stands at a place of a class in the stored form of a value that is not renamed. -/
theorem storedAt_of_within (hk : s.KeepsKeys none root) {t : TypeExpr} {v : Value}
    (h : s.IsExact t v) (hreach : ∀ {cls}, t.Holds cls → s.Reaches TypeExpr.Holds root cls)
    {t? : Option TypeExpr} (ht? : ∀ u ∈ t?, u = t) {path : List String} {cls : String} {o : Value}
    (hw : s.Within t (s.prepareAs v t?) path cls o) : s.StoredAt none cls o := by
  generalize hd : s.prepareAs v t? = d at hw
  induction hw generalizing v t? with
  | @here t d cls ht hs =>
    subst hd
    exact storedAt_of_stripped hk (hreach (.core (TypeExpr.core_of_stripped ht))) h ht hs ht? rfl
  | @element t item ys y o path cls ht hy hw ih =>
    obtain ⟨x, u?, hx, hu, rfl⟩ := h.element ht ht? hd y hy
    exact ih hx (fun hc => hreach (hc.of_core_eq ht.core)) hu rfl
  | @entry t k u es e o path cls hdict hargs he hw ih =>
    have hcore := TypeExpr.core_of_item?_none (TypeExpr.item?_of_isDict hdict)
    obtain ⟨x, u?, hx, hu, heq⟩ := h.entry hdict hargs ht? hd e he
    exact ih hx (fun hc => hreach (.entries (hcore ▸ hargs) hc)) hu heq.symm

/-! ## Places in documents -/

/-- The naming under which the objects below a field are stored: it goes on into a class, or into
an array of a class, and nowhere else. -/
def namingBelow (s : Schema) (naming : Option Naming) (t : TypeExpr) : Option Naming :=
  if (s.structuredClass? t).isSome then naming else none

theorem KeepsKeys.below (hk : s.KeepsKeys naming root) (t : TypeExpr) :
    s.KeepsKeys (s.namingBelow naming t) root := by
  unfold namingBelow
  split
  · exact hk
  · exact hk.written

/-- What stands at a place of a class in the renamed stored form of the value of a field. -/
theorem storedAt_below (hk : s.KeepsKeys naming root) {t : TypeExpr} {v w : Value}
    (h : s.IsExact t v) (hreach : ∀ {cls}, t.Holds cls → s.Reaches TypeExpr.Holds root cls)
    (hr : s.renamed naming .toWire t (s.prepareAs v (some t)) = .ok w) {path : List String}
    {cls : String} {o : Value} (hw : s.Within t w path cls o) :
    s.StoredAt (s.namingBelow naming t) cls o := by
  unfold namingBelow
  cases hc : s.structuredClass? t with
  | none =>
    rw [renamed_of_none hc] at hr
    cases hr
    exact storedAt_of_within hk.written h hreach (by simp) hw
  | some c =>
    have hreach' := hreach hw.holds
    rw [Option.isSome_some, if_pos rfl]
    cases hw with
    | here ht hs =>
      have hsame : t.stripped = (TypeExpr.named cls).stripped := ht
      rw [renamed_of_stripped hsame] at hr
      exact storedAt_of_stripped hk hreach' h ht hs (by simp) hr
    | @element _ item ys y _ _ _ ht hy hw =>
      obtain ⟨hitem, -⟩ := structuredClass?_item hc ht.item?
      have hs := (structuredClass?_eq_some_iff.mp hc).2
      obtain ⟨rfl, rfl⟩ := hw.eq_core (TypeExpr.core_of_stripped hitem)
      have hy' : y = o := by
        cases hw with
        | here => rfl
        | element ht =>
          obtain ⟨_, _, happly, -⟩ := ht
          rw [hitem] at happly
          cases happly
      subst hy'
      by_cases hlist : ∃ xs, s.prepareAs v (some t) = .list xs
      · obtain ⟨zs, hzs⟩ := hlist
        rw [hzs] at hr
        obtain ⟨z, hz, hzy⟩ := mem_renamed_list hc ht.item? hr y hy
        obtain ⟨x, u?, hx, hu, rfl⟩ := h.element ht (by simp) hzs z hz
        exact storedAt_of_stripped hk hreach' hx hitem hs hu hzy
      · have hsame := renamed_not_list ht.item? (fun xs hxs => hlist ⟨xs, hxs⟩) hr
        exact absurd ⟨ys, hsame.symm⟩ hlist
    | entry hd =>
      have hcore := structuredClass?_core hc
      rw [← TypeExpr.core_stripped, TypeExpr.core_of_isDict hd] at hcore
      rw [hcore] at hd
      cases hd

/-- What stands at the places of classes in the document `d` of the model `root`: at the end of a
row of keys, the class and the naming under which the object is stored. A field is found under its
wire name. -/
inductive StandsAt (s : Schema) (naming : Option Naming) (root : String) (d : Value) :
    Option Naming → List String → String → Value → Prop
  | root : StandsAt s naming root d naming [] root d
  | field {names : Option Naming} {path below : List String} {cls next : String} {es : Entries}
      {fs : List FieldEntry} {g : FieldEntry} {v o : Value} :
      StandsAt s naming root d names path cls (.dict es) →
      s.fieldsOf names (.named cls) = .ok fs → g ∈ fs → es.get? g.wire = some v →
      s.Within g.type v below next o →
      StandsAt s naming root d (s.namingBelow names g.type) (path ++ g.wire :: below) next o

variable {d o : Value} {names : Option Naming} {path : List String} {cls : String}

/-- What stands at the place of a class is the stored form of an entity of this class, under the
naming as long as it comes along. -/
theorem StandsAt.storedAt (h : s.StandsAt naming root d names path cls o)
    (hk : s.KeepsKeys naming root) (hd : s.StoredAt naming root d) :
    s.Reaches TypeExpr.Holds root cls ∧ s.KeepsKeys names root ∧ s.StoredAt names cls o := by
  induction h with
  | root => exact ⟨.root, hk, hd⟩
  | @field names path below cls next es fs g v o _ hfs hg hget hw ih =>
    obtain ⟨hreach, hk', hat⟩ := ih
    obtain ⟨fs', hfs', value, rfl, hvalue⟩ := hat.fields hk' hreach
    obtain rfl := Except.ok.inj (hfs.symm.trans hfs')
    have hwires := (hk'.apart hreach hfs).wires
    rw [get?_map_of_nodup hwires value hg, Option.some.injEq] at hget
    subst hget
    obtain ⟨x, hx, hr⟩ := hvalue g hg
    exact ⟨hreach.through hfs hg hw.holds, hk'.below g.type,
      storedAt_below hk' hx (fun hc => hreach.through hfs hg hc) hr hw⟩

/-! ## Places in mappings -/

/-- Where a mapping lists properties for a place, the naming has come along to it, and the
properties are those of the class. -/
theorem StandsAt.properties (h : s.StandsAt naming root d names path cls o)
    (hk : s.KeepsKeys naming root) (hd : s.StoredAt naming root d) {m : Value}
    (hm : s.mapping naming (.named root) = .ok m) {props : Entries}
    (hp : (m.entryAt? path).bind Value.properties? = some props) :
    names = naming ∧ ∃ fresh, s.properties naming fresh (.named cls) = .ok props := by
  induction h generalizing props with
  | root =>
    obtain ⟨es, hes, rfl⟩ := map_eq_ok.mp hm
    obtain rfl := Option.some.inj hp
    exact ⟨rfl, _, hes⟩
  | @field names path below cls next es fs g v o hstands hfs hg _ hw ih =>
    rw [Value.entryAt?_append, Option.bind_assoc] at hp
    obtain ⟨e, he, hp⟩ := Option.bind_eq_some_iff.mp hp
    rw [Value.entryAt?, Option.bind_assoc, Option.bind_assoc] at hp
    obtain ⟨above, habove, hp⟩ := Option.bind_eq_some_iff.mp hp
    obtain ⟨entry, hentry, hp⟩ := Option.bind_eq_some_iff.mp hp
    have hlisting : (m.entryAt? path).bind Value.properties? = some above := by
      rw [he]
      exact habove
    obtain ⟨rfl, fresh, hprops⟩ := ih hlisting
    obtain ⟨hreach, -, -⟩ := hstands.storedAt hk hd
    obtain ⟨hx, hget, -⟩ := properties_spec hfs (hk.apart hreach hfs).wires hprops
    rw [hget g hg] at hentry
    split at hentry
    · cases hentry
    cases hentry
    -- the keys below the field, if there are any, lead through the properties of its entry
    have hlisted : ∃ es, (s.fieldProperty names fresh g).properties? = some es := by
      cases below with
      | nil => exact ⟨props, hp⟩
      | cons key keys =>
        rw [Value.entryAt?] at hp
        cases hes : (s.fieldProperty names fresh g).properties? with
        | none => simp [hes] at hp
        | some es => exact ⟨es, rfl⟩
    obtain ⟨es', hes'⟩ := hlisted
    obtain ⟨c, hl, -, hbelow⟩ := (properties?_fieldProperty (hx g hg)).mp hes'
    obtain ⟨rfl, rfl⟩ := hw.eq_core hl.core
    have hsame : es' = props := Option.some.inj (hes'.symm.trans hp)
    have hcls := hl.structuredClass?
    exact ⟨by simp [namingBelow, hcls], _, hsame ▸ hbelow⟩

end Schema

/-- **The keys of the objects in a document, and the properties that the mapping lists for them.**
An exact entity has a document exactly if it can be prepared. An object at the place of a class has
the names of the fields as its keys, in order: the wire names as long as the naming comes along, and
behind that the names under which the model writes the fields. Where the mapping lists properties
for the place, the keys are wire names, and the properties are those of the fields of a known
kind. -/
theorem SearchContext.document_keys {ctx : SearchContext} {root : String}
    (hk : ctx.schema.KeepsKeys ctx.defaults.naming root) {as : List (String × Value)}
    (he : ctx.schema.IsExact (.named root) (.entity .model root as)) :
    (∀ fault, ctx.document (.entity .model root as) = .error fault ↔
      ctx.schema.prepare (.entity .model root as) = .error fault) ∧
    ∀ d, ctx.document (.entity .model root as) = .ok d → ∀ names path cls es,
      ctx.schema.StandsAt ctx.defaults.naming root d names path cls (.dict es) →
      (∃ fs, ctx.schema.fieldsOf names (.named cls) = .ok fs ∧
        es.map (·.1) = fs.map fun g => .str g.wire) ∧
      ∀ m props, ctx.schema.mapping ctx.defaults.naming (.named root) = .ok m →
        (m.entryAt? path).bind Value.properties? = some props →
        ∃ fs, ctx.schema.fieldsOf ctx.defaults.naming (.named cls) = .ok fs ∧
          es.map (·.1) = fs.map (fun g => .str g.wire) ∧
          props.map (·.1) = (fs.filter fun g => ctx.schema.classify g.type ≠ .unknown).map
            fun g => .str g.wire := by
  obtain ⟨hrecord, hnames, -⟩ := he.attributes hk.model
  have hroot : ∀ {cls}, (TypeExpr.named root).Holds cls →
      ctx.schema.Reaches TypeExpr.Holds root cls := by
    intro cls hc
    obtain rfl := hc.eq_named
    exact .root
  obtain ⟨d, hd⟩ : ∃ d, ctx.schema.renamed ctx.defaults.naming .toWire (.named root)
      (.dict (ctx.schema.storedObject root as)) = .ok d := hk.renamed_isOk hroot _
  have hdocument : ctx.document (.entity .model root as) =
      (ctx.schema.prepare (.entity .model root as)).map fun _ => d := by
    have hclass : Value.classOf (.entity .model root as) = .named root := rfl
    cases hprepare : ctx.schema.prepare (.entity .model root as) with
    | error fault => simp only [document, hprepare, Except.map]
    | ok stored =>
      obtain rfl := Schema.prepare_eq_ok hprepare
      rw [Schema.prepareAs_entity_none hk.model hrecord hnames (hk.stored .root hk.model)]
        at hprepare
      simp only [document, hprepare, hclass, Schema.rename_named hk.model, hd, Except.map]
  refine ⟨fun fault => by rw [hdocument, map_eq_error], fun d' hd' names path cls es h => ?_⟩
  rw [hdocument] at hd'
  obtain ⟨-, -, rfl⟩ := map_eq_ok.mp hd'
  have hstored : ctx.schema.StoredAt ctx.defaults.naming root d := .object hk.model he hd
  obtain ⟨hreach, hk', hat⟩ := h.storedAt hk hstored
  obtain ⟨fs, hfs, value, rfl, -⟩ := hat.fields hk' hreach
  have hkeys : (fs.map fun g => ((.str g.wire, value g) : Value × Value)).map (·.1) =
      fs.map fun g => .str g.wire := by
    rw [List.map_map]
    rfl
  refine ⟨⟨fs, hfs, hkeys⟩, fun m props hm hp => ?_⟩
  obtain ⟨rfl, fresh, hprops⟩ := h.properties hk hstored hm hp
  obtain ⟨-, rfl⟩ := Schema.properties_eq_ok hfs (hk.apart hreach hfs).wires hprops
  exact ⟨fs, hfs, hkeys, Schema.keys_flatMap_propertiesOf fs⟩

/-- The label of a row has its wire name in a field of the class, and the name under which it is
written in an array of arrays. -/
theorem SearchContext.document_keys_groups :
    let label : ClassDecl TypeExpr := ⟨"Label", .model, none,
      [⟨"full_text", .basic .text, none, none, none, none⟩], [], false⟩
    let row : ClassDecl TypeExpr := ⟨"Row", .model, none,
      [⟨"own_label", .named "Label", none, none, none, none⟩], [], false⟩
    let order : ClassDecl TypeExpr := ⟨"Order", .model, none,
      [⟨"first", .union [.named "Row", .null], none, some "head", none, none⟩,
        ⟨"groups", .apply .list [.apply .list [.named "Row"]], none, none, none, none⟩], [], false⟩
    let s : Schema := ⟨[order, row, label], [], [], .strict⟩
    let f : Naming := Naming.ofFunction fun name => "d_" ++ name
    let ctx : SearchContext := ⟨s, { SearchDefaults.standard with naming := some f }⟩
    let entry : Value := .entity .model "Row"
      [("own_label", .entity .model "Label" [("full_text", .str "x")])]
    let attributes := [("first", entry), ("groups", .list [.list [entry]])]
    s.KeepsKeys (some f) "Order" ∧ s.IsExact (.named "Order") (.entity .model "Order" attributes) ∧
      ∃ d, ctx.document (.entity .model "Order" attributes) = .ok d ∧
        (∃ es, s.StandsAt (some f) "Order" d (some f) ["head", "d_own_label"] "Label" (.dict es) ∧
          es.map (·.1) = [.str "d_full_text"]) ∧
        ∃ es, s.StandsAt (some f) "Order" d none ["d_groups", "own_label"] "Label" (.dict es) ∧
          es.map (·.1) = [.str "full_text"] := by
  intro label row order s f ctx entry attributes
  have hnames : s.classNames = ["Order", "Row", "Label"] := rfl
  have hlabel : s.settledFields "Label" = label.fields := rfl
  have hrow : s.settledFields "Row" = row.fields := rfl
  have horder : s.settledFields "Order" = order.fields := rfl
  have hn : NeverFails (some f) := by
    rintro g ⟨⟩ name
    exact ⟨"d_" ++ name, rfl⟩
  have hk : s.KeepsKeys (some f) "Order" := by
    refine ⟨rfl, hn, fun {cls} _ => ?_, fun {cls} _ hm g hg => ?_, ?_⟩
    · by_cases hcls : cls ∈ s.classNames
      · rw [hnames] at hcls
        simp only [List.mem_cons, List.not_mem_nil, or_false] at hcls
        rcases hcls with rfl | rfl | rfl <;> exact ⟨_, rfl⟩
      · exact ⟨[], Schema.hints_of_notMem hcls⟩
    · have hcls := Schema.mem_classNames_of_isModel hm
      rw [hnames] at hcls
      simp only [List.mem_cons, List.not_mem_nil, or_false] at hcls
      rcases hcls with rfl | rfl | rfl
      · rw [horder] at hg
        revert g
        decide
      · rw [hrow] at hg
        revert g
        decide
      · rw [hlabel] at hg
        revert g
        decide
    · refine Schema.keepsApart_of_classNames ?_
      have hkeys : s.storedKey "Order" "first" = "head" ∧ s.storedKey "Order" "groups" = "groups" ∧
          s.storedKey "Row" "own_label" = "own_label" ∧
          s.storedKey "Label" "full_text" = "full_text" := ⟨rfl, rfl, rfl, rfl⟩
      rw [hnames]
      simp only [List.forall_mem_cons]
      refine ⟨⟨_, rfl, ?_⟩, ⟨_, rfl, ?_⟩, ⟨_, rfl, ?_⟩, nofun⟩ <;>
        constructor <;> simp [hkeys]
  have hentry : ∀ t, t.stripped = .named "Row" → s.IsExact t entry := by
    intro t ht
    refine .entity ht rfl rfl rfl ?_
    rw [hrow]
    simp only [row, List.forall_mem_singleton]
    refine .entity rfl rfl rfl rfl ?_
    rw [hlabel]
    simp only [label, List.forall_mem_singleton]
    exact .leaf rfl
  have he : s.IsExact (.named "Order") (.entity .model "Order" attributes) := by
    refine .entity rfl rfl rfl rfl ?_
    rw [horder]
    simp only [order, List.forall_mem_cons]
    refine ⟨hentry _ rfl, .array rfl rfl ?_, nofun⟩
    rintro item ⟨c, args, ⟨⟩, -, -, hitem⟩ x hx
    rw [List.mem_singleton.mp hx, ← hitem _ List.mem_cons_self]
    refine .array rfl rfl ?_
    rintro item ⟨c, args, ⟨⟩, -, -, hitem⟩ x hx
    rw [List.mem_singleton.mp hx, ← hitem _ List.mem_cons_self]
    exact hentry _ rfl
  let text (key : String) : Entries := [(.str key, .str "x")]
  let line (key inner : String) : Entries := [(.str key, .dict (text inner))]
  let whole : Entries := [(.str "head", .dict (line "d_own_label" "d_full_text")),
    (.str "d_groups", .list [.list [.dict (line "own_label" "full_text")]])]
  have hdocument : ctx.document (.entity .model "Order" attributes) = .ok (.dict whole) := by
    unfold ctx s f attributes entry order row label
    rfl
  have hkeeps : ctx.schema.KeepsKeys ctx.defaults.naming "Order" := hk
  have hall := (document_keys hkeeps he).2 _ hdocument
  have hhead : s.StandsAt (some f) "Order" (.dict whole) (some f) ["head"] "Row"
      (.dict (line "d_own_label" "d_full_text")) :=
    .field .root (g := ⟨"first", "head", .union [.named "Row", .null]⟩) rfl List.mem_cons_self rfl
      (.here rfl rfl)
  have hlive : s.StandsAt (some f) "Order" (.dict whole) (some f) ["head", "d_own_label"] "Label"
      (.dict (text "d_full_text")) :=
    .field hhead (g := ⟨"own_label", "d_own_label", .named "Label"⟩) rfl List.mem_cons_self rfl
      (.here rfl rfl)
  have hlist : ∀ t : TypeExpr, (TypeExpr.apply .list [t]).IsArrayOf t := fun t =>
    ⟨.list, [t], rfl, rfl, by simp, by simp⟩
  have hgroups : s.Within (.apply .list [.apply .list [.named "Row"]])
      (.list [.list [.dict (line "own_label" "full_text")]]) [] "Row"
      (.dict (line "own_label" "full_text")) :=
    .element (hlist _) List.mem_cons_self (.element (hlist _) List.mem_cons_self (.here rfl rfl))
  have hgroup : s.StandsAt (some f) "Order" (.dict whole) none ["d_groups"] "Row"
      (.dict (line "own_label" "full_text")) :=
    .field .root (g := ⟨"groups", "d_groups", .apply .list [.apply .list [.named "Row"]]⟩) rfl
      (List.mem_cons_of_mem _ List.mem_cons_self) rfl hgroups
  have hkept : s.StandsAt (some f) "Order" (.dict whole) none ["d_groups", "own_label"] "Label"
      (.dict (text "full_text")) :=
    .field hgroup (g := ⟨"own_label", "own_label", .named "Label"⟩) rfl List.mem_cons_self rfl
      (.here rfl rfl)
  refine ⟨hk, he, _, hdocument, ⟨_, hlive, ?_⟩, ⟨_, hkept, ?_⟩⟩
  · obtain ⟨⟨fs, hfs, hkeys⟩, -⟩ := hall _ _ _ _ hlive
    cases hfs
    exact hkeys
  · obtain ⟨⟨fs, hfs, hkeys⟩, -⟩ := hall _ _ _ _ hkept
    cases hfs
    exact hkeys

end TypedSearch
