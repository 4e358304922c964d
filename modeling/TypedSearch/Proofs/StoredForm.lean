import TypedSearch.Proofs.Renaming

/-!
# Documents in stored form

What the documents of a class look like: arrays where the types are arrays, and objects whose keys
are the stored keys of the fields. Such a document can be renamed.

* `Value.spread`, `Value.reached`: the values that a row of keys leads to, through arrays of any
  depth.
* `Schema.IsStored`: the value has the form that its type asks for.
* `TypeExpr.Holds`: the classes whose objects the values of a type hold.
* `Schema.renameValue_isOk`: a value in stored form can be renamed.
-/

namespace TypedSearch

/-! ## Values below a row of keys -/

namespace Value

mutual

/-- The values that an array is distributed over, at every depth. -/
def spread : Value → List Value
  | .list xs => spreadAll xs
  | v => [v]
termination_by structural v => v

/-- The values that the elements of an array are distributed over. -/
def spreadAll : List Value → List Value
  | [] => []
  | x :: xs => x.spread ++ spreadAll xs
termination_by structural xs => xs

end

/-- The value under a key of an object. -/
def member? (key : String) (v : Value) : Option Value := v.asEntries?.bind (Entries.get? key)

/-- The values that a row of keys leads to. -/
def reached : List String → Value → List Value
  | [], v => [v]
  | key :: keys, v => v.spread.flatMap fun o => ((o.member? key).map (reached keys)).getD []

theorem spreadAll_eq_flatMap (xs : List Value) : spreadAll xs = xs.flatMap spread := by
  induction xs with
  | nil => rfl
  | cons x xs ih => rw [spreadAll, ih, List.flatMap_cons]

theorem spread_of_not_list {v : Value} (h : ∀ xs, v ≠ .list xs) : v.spread = [v] := by
  cases v with
  | list xs => exact absurd rfl (h xs)
  | _ => rfl

/-- The value is neither a list nor an object. -/
def isPlain : Value → Bool
  | .list _ | .dict _ => false
  | _ => true

theorem member?_eq_some {key : String} {v w : Value} (h : v.member? key = some w) :
    ∃ es, v = .dict es ∧ Entries.get? key es = some w := by
  cases v with
  | dict es => exact ⟨es, rfl, h⟩
  | _ => cases h

theorem asEntries?_of_isPlain {v : Value} (h : v.isPlain = true) : v.asEntries? = none := by
  cases v <;> first | rfl | cases h

theorem ne_list_of_isPlain {v : Value} (h : v.isPlain = true) (xs : List Value) :
    v ≠ .list xs := by
  rintro rfl
  cases h

end Value

/-! ## Classes that a type holds -/

/-- The classes whose objects the values of a type hold, in arrays or in objects with arbitrary
keys. -/
inductive TypeExpr.Holds : TypeExpr → String → Prop
  | core {t : TypeExpr} {cls : String} : t.core = .named cls → Holds t cls
  | entries {t k v : TypeExpr} {cls : String} :
      t.core.dictArgs? = some (k, v) → Holds v cls → Holds t cls

namespace TypeExpr

theorem Holds.of_core_eq {t u : TypeExpr} {cls : String} (hcore : t.core = u.core)
    (h : t.Holds cls) : u.Holds cls := by
  cases h with
  | core h => exact .core (hcore ▸ h)
  | entries hargs h => exact .entries (hcore ▸ hargs) h

theorem Holds.eq_named {c cls : String} (h : (named c).Holds cls) : cls = c := by
  cases h with
  | core h => exact (named.inj h).symm
  | entries h => cases h

end TypeExpr

namespace Schema

variable {s : Schema}

/-! ## Stored form -/

/-- The value has the form in which values of the type are stored. Values that are neither lists
nor objects stand for themselves, and below a type without structure everything does. -/
inductive IsStored (s : Schema) : TypeExpr → Value → Prop
  | plain {t : TypeExpr} {v : Value} : v.isPlain = true → IsStored s t v
  | array {t item : TypeExpr} {xs : List Value} :
      t.stripped.item? = some item → (∀ x ∈ xs, IsStored s item x) → IsStored s t (.list xs)
  | object {t : TypeExpr} {cls : String} {hs : List (String × TypeExpr)} {es : Entries} :
      t.stripped = .named cls → s.isStructured (.named cls) = true → s.hints cls = .ok hs →
      (∀ e ∈ es, ∃ h ∈ hs, e.1 = .str (s.storedKey cls h.1)) →
      (∀ h ∈ hs, ∀ v, (.str (s.storedKey cls h.1), v) ∈ es → IsStored s h.2 v) →
      IsStored s t (.dict es)
  | entries {t : TypeExpr} {es : Entries} :
      t.stripped.isDict = true →
      (∀ k v, t.stripped.dictArgs? = some (k, v) → ∀ e ∈ es, IsStored s v e.2) →
      IsStored s t (.dict es)
  | free {t : TypeExpr} {v : Value} :
      t.stripped.item? = none → t.stripped.isDict = false →
      s.isStructured t.stripped = false → IsStored s t v

theorem IsStored.of_stripped_eq {t u : TypeExpr} {v : Value} (h : s.IsStored t v)
    (ht : t.stripped = u.stripped) : s.IsStored u v := by
  cases h with
  | plain hv => exact .plain hv
  | array hi hxs => exact .array (ht ▸ hi) hxs
  | object hc hs hh hkeys hvalues => exact .object (ht ▸ hc) hs hh hkeys hvalues
  | entries hd hvalues => exact .entries (ht ▸ hd) (ht ▸ hvalues)
  | free hi hd hs => exact .free (ht ▸ hi) (ht ▸ hd) (ht ▸ hs)

/-- What an array in stored form is distributed over has the form of the core of its type. -/
theorem IsStored.spread {t : TypeExpr} {v : Value} (h : s.IsStored t v) :
    ∀ o ∈ v.spread, s.IsStored t.core o := by
  have single : ∀ {t : TypeExpr} {v : Value}, t.stripped.item? = none → s.IsStored t v →
      s.IsStored t.core v := by
    intro t v hi hv
    rw [TypeExpr.core_of_item?_none hi]
    exact hv.of_stripped_eq (TypeExpr.stripped_stripped t).symm
  induction h with
  | plain hv =>
    intro o ho
    rw [Value.spread_of_not_list (Value.ne_list_of_isPlain hv), List.mem_singleton] at ho
    subst ho
    exact .plain hv
  | @array t item xs hi _ ih =>
    intro o ho
    rw [Value.spread, Value.spreadAll_eq_flatMap] at ho
    obtain ⟨x, hx, hxo⟩ := List.mem_flatMap.mp ho
    rw [← TypeExpr.core_stripped, TypeExpr.core_of_item? hi]
    exact ih x hx o hxo
  | object hc hs hh hkeys hvalues _ =>
    intro o ho
    rw [List.mem_singleton.mp ho]
    exact single (by rw [hc]; rfl) (.object hc hs hh hkeys hvalues)
  | entries hd hvalues _ =>
    intro o ho
    rw [List.mem_singleton.mp ho]
    exact single (TypeExpr.item?_of_isDict hd) (.entries hd hvalues)
  | @free t v hi hd hs =>
    intro o ho
    exact single hi (.free hi hd hs)

/-- An object of a class in stored form has only stored keys, and values of the fields' types. -/
theorem IsStored.fields {t : TypeExpr} {cls : String} {es : Entries} {naming : Option Naming}
    {fs : List FieldEntry} (h : s.IsStored t (.dict es)) (hc : t.stripped = .named cls)
    (hs : s.isStructured (.named cls) = true) (hfs : s.fieldsOf naming (.named cls) = .ok fs) :
    (∀ e ∈ es, ∃ g ∈ fs, e.1 = .str (s.storedKey cls g.name)) ∧
      ∀ g ∈ fs, ∀ v, es.get? (s.storedKey cls g.name) = some v → s.IsStored g.type v := by
  have hhints := (fieldsOf_spec hfs).1
  cases h with
  | plain hv => cases hv
  | @object _ cls' hs' _ hc' _ hh hkeys hvalues =>
    rw [hc, TypeExpr.named.injEq] at hc'
    subst hc'
    rw [hhints] at hh
    cases hh
    have hkeys' : ∀ e ∈ es, ∃ g ∈ fs, e.1 = .str (s.storedKey cls g.name) := by
      intro e he
      obtain ⟨h, hmem, hkey⟩ := hkeys e he
      obtain ⟨g, hg, rfl⟩ := List.mem_map.mp hmem
      exact ⟨g, hg, hkey⟩
    refine ⟨hkeys', fun g hg v hget => ?_⟩
    have htexts : ∀ e ∈ es, ∃ k, e.1 = .str k := by
      intro e he
      obtain ⟨g, -, hkey⟩ := hkeys' e he
      exact ⟨_, hkey⟩
    have hmem := Entries.mem_str_of_get? htexts hget
    exact hvalues _ (List.mem_map.mpr ⟨g, hg, rfl⟩) v hmem
  | entries hd _ =>
    rw [hc] at hd
    cases hd
  | free _ _ hn =>
    rw [hc, hs] at hn
    cases hn

theorem IsStored.fieldsOf_isOk {t : TypeExpr} {cls : String} {es : Entries}
    {naming : Option Naming} (h : s.IsStored t (.dict es)) (hn : NeverFails naming)
    (hc : t.stripped = .named cls) (hs : s.isStructured (.named cls) = true) :
    ∃ fs, s.fieldsOf naming (.named cls) = .ok fs := by
  cases h with
  | plain hv => cases hv
  | object hc' _ hh =>
    rw [hc, TypeExpr.named.injEq] at hc'
    subst hc'
    exact Schema.fieldsOf_isOk hn hh
  | entries hd _ =>
    rw [hc] at hd
    cases hd
  | free _ _ hns =>
    rw [hc, hs] at hns
    cases hns

/-- The values of an object with arbitrary keys have the form of the type of its values. -/
theorem IsStored.values {t k v : TypeExpr} {es : Entries} (h : s.IsStored t (.dict es))
    (hd : t.stripped.isDict = true) (hargs : t.stripped.dictArgs? = some (k, v)) :
    ∀ e ∈ es, s.IsStored v e.2 := by
  cases h with
  | plain hv => cases hv
  | object hc =>
    rw [hc] at hd
    cases hd
  | entries _ hvalues => exact hvalues k v hargs
  | free _ hnd =>
    rw [hd] at hnd
    cases hnd

/-! ## Stored values can be renamed -/

theorem structuredClass?_of_isDict {t : TypeExpr} (h : t.core.isDict = true) :
    s.structuredClass? t = none := by
  cases hc : s.structuredClass? t with
  | none => rfl
  | some cls =>
    rw [structuredClass?_core hc] at h
    cases h

theorem structuredClass?_of_free {t : TypeExpr} (hi : t.stripped.item? = none)
    (hs : s.isStructured t.stripped = false) : s.structuredClass? t = none := by
  cases hc : s.structuredClass? t with
  | none => rfl
  | some cls =>
    obtain ⟨hholder, hcls⟩ := structuredClass?_eq_some_iff.mp hc
    rw [TypeExpr.holder_of_item?_none hi] at hholder
    rw [hholder, hcls] at hs
    cases hs

/-- The elements of an array of objects of a class are single objects of this class. -/
theorem structuredClass?_item {t item : TypeExpr} {cls : String}
    (h : s.structuredClass? t = some cls) (hi : t.stripped.item? = some item) :
    item.stripped = .named cls ∧ s.structuredClass? item = some cls := by
  obtain ⟨hholder, hs⟩ := structuredClass?_eq_some_iff.mp h
  rw [TypeExpr.holder_of_item? hi] at hholder
  have hnone : item.stripped.item? = none := by rw [hholder]; rfl
  refine ⟨hholder, structuredClass?_eq_some_iff.mpr ⟨?_, hs⟩⟩
  rw [TypeExpr.holder_of_item?_none hnone, hholder]

variable {f : Naming} {direction : Direction} {root : String}

theorem renameValue_of_isPlain {t : TypeExpr} {v : Value} (hv : v.isPlain = true) :
    s.renameValue (s.renamer f direction) t v = .ok v := by
  cases hc : s.structuredClass? t with
  | none => exact renameValue_of_none hc v
  | some cls =>
    cases hi : t.stripped.item? with
    | none =>
      rw [renameValue_single hc hi]
      exact renamer_of_not_object (Value.asEntries?_of_isPlain hv)
    | some item => exact renameValue_of_not_list hi (Value.ne_list_of_isPlain hv)

theorem renameAll_isOk {g : Value → Except Fault Value} {xs : List Value}
    (h : ∀ x ∈ xs, ∃ y, g x = .ok y) : ∃ ys, renameAll g xs = .ok ys := by
  induction xs with
  | nil => exact ⟨[], rfl⟩
  | cons x xs ih =>
    rw [List.forall_mem_cons] at h
    obtain ⟨y, hy⟩ := h.1
    obtain ⟨ys, hys⟩ := ih h.2
    exact ⟨y :: ys, by simp [renameAll, hy, hys, bind, Except.bind, pure, Except.pure]⟩

/-- The wire name of a field is not among the keys of an object in stored form, unless it is the
stored key of the field. -/
theorem WellNamed.free {cls : String} {fs : List FieldEntry} {es : Entries}
    (hw : s.WellNamed cls fs) (hkeys : ∀ e ∈ es, ∃ g ∈ fs, e.1 = .str (s.storedKey cls g.name)) :
    ∀ g ∈ fs, s.targetKey .toWire cls g = s.sourceKey .toWire cls g ∨
      es.has (s.targetKey .toWire cls g) = false := by
  intro g hg
  cases hhas : es.has (s.targetKey .toWire cls g) with
  | false => exact Or.inr rfl
  | true =>
    obtain ⟨e, he, hkey⟩ := List.any_eq_true.mp hhas
    obtain ⟨h, hh, hek⟩ := hkeys e he
    rw [hek, Entries.keyIs_str, beq_iff_eq] at hkey
    have hgh : g = h := hw.apart g hg h hh hkey.symm
    exact Or.inl (hgh ▸ hkey.symm)

/-- The naming keeps the keys apart in every class that the class `root` leads to. -/
def KeepsApart (s : Schema) (naming : Option Naming) (root : String) : Prop :=
  ∀ {cls fs}, s.Reaches TypeExpr.Holds root cls → s.fieldsOf naming (.named cls) = .ok fs →
    s.WellNamed cls fs

theorem lineageIn_eq_nil {classes : List (ClassDecl TypeExpr)} {cls : String}
    (h : cls ∉ classes.map (·.name)) : lineageIn classes cls = [] := by
  induction classes with
  | nil => rfl
  | cons c classes ih =>
    rw [List.map_cons, List.mem_cons, not_or] at h
    rw [lineageIn, if_neg (Ne.symm h.1), ih h.2]

theorem hints_of_notMem {cls : String} (h : cls ∉ s.classNames) : s.hints cls = .ok [] := by
  have hlineage : s.lineage cls = [] :=
    lineageIn_eq_nil fun hmem => h (List.mem_eraseDups.mpr hmem)
  simp [hints, isModel, resolvedAnnotations, hlineage, resolveFields, Except.map]

theorem wellNamed_nil (s : Schema) (cls : String) : s.WellNamed cls [] :=
  ⟨List.nodup_nil, List.nodup_nil, fun g hg => by cases hg⟩

theorem keepsApart_of_classNames {naming : Option Naming} (h : ∀ cls ∈ s.classNames, ∃ fs,
    s.fieldsOf naming (.named cls) = .ok fs ∧ s.WellNamed cls fs) : s.KeepsApart naming root := by
  intro cls fs _ hfs
  by_cases hcls : cls ∈ s.classNames
  · obtain ⟨fs', hfs', hw⟩ := h cls hcls
    rw [hfs, Except.ok.injEq] at hfs'
    exact hfs' ▸ hw
  · have hhints := (fieldsOf_spec hfs).1
    rw [hints_of_notMem hcls, Except.ok.injEq] at hhints
    rw [List.map_eq_nil_iff.mp hhints.symm]
    exact wellNamed_nil s cls

/-- The renamed entries of an object in stored form. -/
theorem renamer_of_isStored {cls : String} {fs : List FieldEntry} {es : Entries}
    (hfs : s.fieldsOf (some f) (.named cls) = .ok fs) (hw : s.WellNamed cls fs)
    (hkeys : ∀ e ∈ es, ∃ g ∈ fs, e.1 = .str (s.storedKey cls g.name))
    (hvalues : ∀ g ∈ fs, ∀ v, es.get? (s.storedKey cls g.name) = some v →
      ∃ w, s.renameValue (s.renamer f .toWire) g.type v = .ok w) :
    s.renamer f .toWire (.named cls) (.dict es) =
      .ok (.dict (s.unclaimed .toWire cls fs es ++
        fs.filterMap (s.moved (s.renamer f .toWire) .toWire cls es))) := by
  rw [renamer_object, hfs]
  change (s.renameFields (s.renamer f .toWire) .toWire cls fs es).map Value.dict = _
  rw [renameFields_eq hw (hw.free hkeys) hvalues]
  rfl

theorem renameValue_isOk (hn : NeverFails (some f)) (hw : s.KeepsApart (some f) root) {t : TypeExpr}
    {v : Value} (h : s.IsStored t v)
    (hreach : ∀ {cls}, t.Holds cls → s.Reaches TypeExpr.Holds root cls) :
    ∃ w, s.renameValue (s.renamer f .toWire) t v = .ok w := by
  induction h with
  | plain hv => exact ⟨_, renameValue_of_isPlain hv⟩
  | @array t item xs hi hxs ih =>
    cases hc : s.structuredClass? t with
    | none => exact ⟨_, renameValue_of_none hc _⟩
    | some cls =>
      obtain ⟨hitem, hcitem⟩ := structuredClass?_item hc hi
      have hnone : item.stripped.item? = none := by rw [hitem]; rfl
      have hcore : item.core = t.core := by
        rw [← TypeExpr.core_of_item? hi, TypeExpr.core_stripped]
      have hall : ∀ x ∈ xs, ∃ y, s.renamer f .toWire (.named cls) x = .ok y := by
        intro x hx
        obtain ⟨y, hy⟩ := ih x hx fun hc => hreach (hc.of_core_eq hcore)
        rw [renameValue_single hcitem hnone] at hy
        exact ⟨y, hy⟩
      obtain ⟨ys, hys⟩ := renameAll_isOk hall
      exact ⟨.list ys, by rw [renameValue_list hc hi, hys]; rfl⟩
  | @object t cls hs es hc hs' hh hkeys hvalues ih =>
    obtain ⟨fs, hfs⟩ := Schema.fieldsOf_isOk hn hh
    have hnone : t.stripped.item? = none := by rw [hc]; rfl
    have hcls : s.structuredClass? t = some cls := by
      rw [structuredClass?_eq_some_iff, TypeExpr.holder_of_item?_none hnone]
      exact ⟨hc, hs'⟩
    have hr := hreach (.core (structuredClass?_core hcls))
    have hform : s.IsStored t (.dict es) := .object hc hs' hh hkeys hvalues
    obtain ⟨hkeys', -⟩ := hform.fields hc hs' hfs
    have hall : ∀ g ∈ fs, ∀ v, es.get? (s.storedKey cls g.name) = some v →
        ∃ w, s.renameValue (s.renamer f .toWire) g.type v = .ok w := by
      intro g hg v hget
      have hhs := (fieldsOf_spec hfs).1
      rw [hh, Except.ok.injEq] at hhs
      have hg' : (g.name, g.type) ∈ hs := hhs ▸ List.mem_map.mpr ⟨g, hg, rfl⟩
      have htexts : ∀ e ∈ es, ∃ k, e.1 = .str k := by
        intro e he
        obtain ⟨h, -, hkey⟩ := hkeys e he
        exact ⟨_, hkey⟩
      have hmem := Entries.mem_str_of_get? htexts hget
      exact ih _ hg' v hmem fun hc' => hr.through hfs hg hc'
    exact ⟨_, by rw [renameValue_single hcls hnone, renamer_of_isStored hfs (hw hr hfs) hkeys' hall]⟩
  | entries hd hvalues =>
    have hcore := TypeExpr.core_of_item?_none (TypeExpr.item?_of_isDict hd)
    exact ⟨_, renameValue_of_none (structuredClass?_of_isDict (hcore ▸ hd)) _⟩
  | free hi hd hs => exact ⟨_, renameValue_of_none (structuredClass?_of_free hi hs) _⟩

end Schema

end TypedSearch
