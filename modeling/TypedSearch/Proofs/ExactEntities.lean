import TypedSearch.Proofs.StoredEntities

/-!
# Entities of the very classes that are declared

Where a class is declared an entity may also be of a class that extends it. Here are the entities
that are not: wherever a type tells the class, on its own or below arrays and objects with
arbitrary keys, there is an entity of this very class. What other types hold may be anything.

Such an entity is stored as the object of its fields, whether or not its class is declared where it
stands.

* `TypeExpr.alternatives_stripped`: the wrappers of a type do not matter to what is stored.
* `Schema.IsExact`: the values whose entities are of the classes that are declared.
* `Schema.prepareAs_exact`: the stored form of such an entity.
* `Schema.IsExact.element`, `Schema.IsExact.entry`: what a stored array and a stored object hold.
* `Schema.Within`: what stands at the places of classes in a value of a type.
-/

namespace TypedSearch

/-! ## Types without wrappers -/

namespace TypeExpr

theorem alternatives_of_isNull {t : TypeExpr} (h : t.isNull = true) :
    t.alternatives.filter (fun u => !u.isNull) = [] := by
  cases t <;> first | rfl | cases h

theorem alternativesOf_of_isNull {ts : List TypeExpr} (h : ∀ t ∈ ts, t.isNull = true) :
    (alternativesOf ts).filter (fun u => !u.isNull) = [] := by
  induction ts with
  | nil => rfl
  | cons t ts ih =>
    rw [List.forall_mem_cons] at h
    rw [alternativesOf, List.filter_append, alternatives_of_isNull h.1, ih h.2]
    rfl

mutual

/-- A type offers the same as the type without optional and markers, null apart. -/
theorem alternatives_stripped : ∀ t : TypeExpr,
    t.alternatives.filter (fun u => !u.isNull) =
      t.stripped.alternatives.filter (fun u => !u.isNull)
  | .annotated t ms => by
    have ih := alternatives_stripped t
    simpa only [stripped, unwrap, alternatives] using ih
  | .union ts => by
    have ih := alternatives_unwrapPresent ts
    simp only [stripped, unwrap]
    split
    · rename_i h
      rw [isOptional, Bool.and_eq_true, beq_iff_eq] at h
      exact ih h.2
    · rfl
  | .basic _ | .null | .any | .variable | .bare _ | .bareConstant | .named _ | .forward _
  | .apply _ _ | .pipe _ | .literal _ | .constant _ | .generic _ _ => rfl

theorem alternatives_unwrapPresent : ∀ ts : List TypeExpr,
    (ts.filter fun t => !t.isNull).length = 1 →
      (alternativesOf ts).filter (fun u => !u.isNull) =
        (unwrapPresent ts).1.alternatives.filter (fun u => !u.isNull)
  | [], h => by cases h
  | t :: ts, h => by
    have ih := alternatives_unwrapPresent ts
    have iht := alternatives_stripped t
    rw [List.filter_cons] at h
    rw [alternativesOf, List.filter_append, unwrapPresent]
    by_cases ht : t.isNull = true
    · simp only [ht, Bool.not_true, Bool.false_eq_true, if_false] at h
      rw [if_pos ht, alternatives_of_isNull ht, ih h]
      rfl
    · have hrest : ∀ u ∈ ts, u.isNull = true := by
        simp only [ht, Bool.not_false, if_true, List.length_cons] at h
        have hnil := List.length_eq_zero_iff.mp (Nat.succ.inj h)
        simpa using hnil
      rw [if_neg ht, alternativesOf_of_isNull hrest, List.append_nil]
      exact iht

end

/-- The type is an array, all elements of which are of one type. -/
def IsArrayOf (t item : TypeExpr) : Prop :=
  ∃ c args, t.stripped = .apply c args ∧ c.isArray = true ∧ args ≠ [] ∧ ∀ u ∈ args, u = item

theorem IsArrayOf.item? {t item : TypeExpr} (h : t.IsArrayOf item) :
    t.stripped.item? = some item := by
  obtain ⟨c, args, ht, hc, hne, hall⟩ := h
  cases args with
  | nil => exact absurd rfl hne
  | cons u us =>
    rw [ht, TypeExpr.item?, if_pos hc, hall u List.mem_cons_self]
    rfl

theorem IsArrayOf.core {t item : TypeExpr} (h : t.IsArrayOf item) : item.core = t.core := by
  rw [← core_of_item? h.item?, core_stripped]

theorem core_of_stripped {t : TypeExpr} {cls : String} (h : t.stripped = .named cls) :
    t.core = .named cls := by
  rw [← core_stripped, h]
  rfl

theorem isDict_of_dictArgs? {t k u : TypeExpr} (hd : t.isDict = true)
    (h : t.dictArgs? = some (k, u)) :
    ∃ c, t = .apply c [k, u] ∧ (c = .dict ∨ c = .plainDict) := by
  unfold dictArgs? at h
  split at h
  · rename_i c k' u'
    cases h
    refine ⟨c, rfl, ?_⟩
    cases c <;> first | exact Or.inl rfl | exact Or.inr rfl | cases hd
  · cases h

end TypeExpr

/-! ## Exact entities -/

namespace Value

/-- The value is neither an entity nor a part of a query, and it is stored neither as an array nor
as an object. -/
def isLeaf : Value → Bool
  | .list _ | .tuple _ | .set _ | .dict _ | .entity _ _ _ | .field _ | .condition _ _ _ => false
  | .member _ _ _ v => v.isLeaf
  | _ => true
termination_by structural v => v

/-- The elements of a value that is stored as an array. -/
def asArray? : Value → Option (List Value)
  | .list xs | .tuple xs | .set xs => some xs
  | _ => none

end Value

namespace Schema

variable {s : Schema}

/-- Wherever the type tells the class of an entity, the value has an entity of this very class, or
none. An entity has its class's fields as attributes, in order. -/
inductive IsExact (s : Schema) : TypeExpr → Value → Prop
  | leaf {t : TypeExpr} {v : Value} : v.isLeaf = true → IsExact s t v
  | entity {t : TypeExpr} {cls : String} {as : List (String × Value)} :
      t.stripped = .named cls → s.isModel cls = true → s.isRecord cls = false →
      as.map (·.1) = (s.settledFields cls).map (·.name) →
      (∀ g ∈ s.settledFields cls, IsExact s g.type (attributeOf as g)) →
      IsExact s t (.entity .model cls as)
  | array {t : TypeExpr} {v : Value} {xs : List Value} :
      s.isStructured t.stripped = false → v.asArray? = some xs →
      (∀ item, t.IsArrayOf item → ∀ x ∈ xs, IsExact s item x) → IsExact s t v
  | entries {t : TypeExpr} {es : Entries} :
      s.isStructured t.stripped = false →
      (∀ k u, t.stripped.isDict = true → t.stripped.dictArgs? = some (k, u) →
        ∀ e ∈ es, IsExact s u e.2) →
      IsExact s t (.dict es)
  | free {t : TypeExpr} {v : Value} :
      s.isStructured t.stripped = false → (∀ item, ¬ t.IsArrayOf item) →
      t.stripped.isDict = false → IsExact s t v

/-- What an entity of a model holds, if it is exact. -/
theorem IsExact.attributes {cls : String} {as : List (String × Value)} (hm : s.isModel cls = true)
    (h : s.IsExact (.named cls) (.entity .model cls as)) : s.isRecord cls = false ∧
      as.map (·.1) = (s.settledFields cls).map (·.name) ∧
      ∀ g ∈ s.settledFields cls, s.IsExact g.type (attributeOf as g) := by
  have hs := isStructured_of_isModel hm
  cases h with
  | leaf h => cases h
  | entity _ _ hr hnames has => exact ⟨hr, hnames, has⟩
  | array hn | free hn =>
    rw [show (TypeExpr.named cls).stripped = .named cls from rfl, hs] at hn
    cases hn

/-! ## Stored forms -/

/-- A type is written as the type without optional and markers. -/
theorem writtenAs?_of_stripped {t u : TypeExpr} (h : t.stripped = u) (hu : u.alternatives = [u])
    (hnull : u.isNull = false) (v : Value) : s.writtenAs? t v = some u := by
  have hfilter : t.alternatives.filter (fun u => !u.isNull) = [u] := by
    rw [TypeExpr.alternatives_stripped, h, hu]
    simp [hnull]
  rw [writtenAs?, hfilter]

theorem prepareAs_isLeaf : ∀ (v : Value) (t? : Option TypeExpr), v.isLeaf = true →
    (s.prepareAs v t?).isPlain = true
  | .member _ _ _ v, t?, h => by
    rw [prepareAs]
    exact prepareAs_isLeaf v none (by rwa [Value.isLeaf] at h)
  | .null, _, _ | .bool _, _, _ | .int _, _, _ | .double _, _, _ | .decimal _, _, _
  | .str _, _, _ | .bytes _, _, _ | .uuid _, _, _ | .date _, _, _ | .datetime _, _, _
  | .url _, _, _ | .frozenset _, _, _ | .operation _ _, _, _ | .featureless, _, _ => rfl

/-- The stored form of an entity, where its class is declared or none is. -/
theorem prepareAs_exact {cls : String} {as : List (String × Value)} {t? : Option TypeExpr}
    (ht : ∀ t ∈ t?, t.stripped = .named cls) (hm : s.isModel cls = true)
    (hr : s.isRecord cls = false) (hnames : as.map (·.1) = (s.settledFields cls).map (·.name))
    (hstored : ((s.settledFields cls).map (·.storedName)).Nodup) :
    s.prepareAs (.entity .model cls as) t? = .dict (s.storedObject cls as) := by
  cases t? with
  | none => exact prepareAs_entity_none hm hr hnames hstored
  | some t =>
    have hlayout : s.layout (some (.named cls)) cls = s.modelLayout cls := by
      rw [layout, if_pos hm]
    rw [prepareAs, Option.bind_some, writtenAs?_of_stripped (ht t rfl) rfl rfl]
    simp only [hlayout, ofNamed_prepareAttributes hnames hstored]

theorem prepareAs_asArray? {v : Value} {xs : List Value} (h : v.asArray? = some xs)
    (t? : Option TypeExpr) : s.prepareAs v t? =
      .list (s.prepareEach xs (elementTypes xs.length (t?.bind (s.writtenAs? · v)))) := by
  cases v <;> first | (cases h; rfl) | cases h

theorem mem_prepareEach {xs : List Value} {types : List (Option TypeExpr)} {y : Value}
    (h : y ∈ s.prepareEach xs types) :
    ∃ x ∈ xs, ∃ t?, (∀ t ∈ t?, some t ∈ types) ∧ y = s.prepareAs x t? := by
  induction xs generalizing types with
  | nil =>
    rw [prepareEach] at h
    cases h
  | cons x xs ih =>
    cases types with
    | nil =>
      rw [prepareEach] at h
      rcases List.mem_cons.mp h with rfl | h
      · exact ⟨x, List.mem_cons_self, none, nofun, rfl⟩
      · obtain ⟨z, hz, t?, ht, rfl⟩ := ih h
        exact ⟨z, List.mem_cons_of_mem _ hz, t?, ht, rfl⟩
    | cons t? types =>
      rw [prepareEach] at h
      rcases List.mem_cons.mp h with rfl | h
      · refine ⟨x, List.mem_cons_self, t?, fun t ht => ?_, rfl⟩
        rw [Option.mem_def.mp ht]
        exact List.mem_cons_self
      · obtain ⟨z, hz, u?, hu, rfl⟩ := ih h
        exact ⟨z, List.mem_cons_of_mem _ hz, u?, fun u hm => List.mem_cons_of_mem _ (hu u hm), rfl⟩

theorem mem_prepareEntries {es : Entries} {u? : Option TypeExpr} {e : Value × Value}
    (h : e ∈ s.prepareEntries es u?) : ∃ e' ∈ es, e = (e'.1, s.prepareAs e'.2 u?) := by
  induction es with
  | nil =>
    rw [prepareEntries] at h
    cases h
  | cons e' es ih =>
    rw [prepareEntries] at h
    rcases List.mem_cons.mp h with rfl | h
    · exact ⟨e', List.mem_cons_self, rfl⟩
    · obtain ⟨a, ha, heq⟩ := ih h
      exact ⟨a, List.mem_cons_of_mem _ ha, heq⟩

/-- The elements of an array of one type are written as this type, or without one. -/
theorem elementTypes_of_isArrayOf {item : TypeExpr} {t? : Option TypeExpr}
    (ht : ∀ t ∈ t?, t.IsArrayOf item) (v : Value) (count : Nat) :
    ∀ u, some u ∈ elementTypes count (t?.bind (s.writtenAs? · v)) → u = item := by
  cases t? with
  | none =>
    intro u hu
    cases hu
  | some t =>
    obtain ⟨c, args, hstripped, hc, -, hall⟩ := ht t rfl
    rw [Option.bind_some, writtenAs?_of_stripped hstripped rfl rfl]
    intro u hu
    refine hall u ?_
    unfold elementTypes at hu
    split at hu
    · rename_i heq
      cases heq
      simpa using hu
    all_goals first
      | (rename_i heq; cases heq; rw [List.eq_of_mem_replicate hu |> Option.some.inj]; simp)
      | cases hu

theorem entryType?_of_dictArgs? {k u : TypeExpr} {t? : Option TypeExpr}
    (ht : ∀ t ∈ t?, t.stripped.isDict = true ∧ t.stripped.dictArgs? = some (k, u)) (v : Value) :
    ∀ w ∈ entryType? (t?.bind (s.writtenAs? · v)), w = u := by
  cases t? with
  | none => nofun
  | some t =>
    obtain ⟨hd, hargs⟩ := ht t rfl
    obtain ⟨c, hstripped, hc⟩ := TypeExpr.isDict_of_dictArgs? hd hargs
    rw [Option.bind_some, writtenAs?_of_stripped hstripped rfl rfl]
    intro w hw
    rcases hc with rfl | rfl <;> exact (Option.some.inj hw).symm

/-- The elements of a stored array of one type are the stored forms of exact values. -/
theorem IsExact.element {t item : TypeExpr} {v : Value} (h : s.IsExact t v) (ht : t.IsArrayOf item)
    {t? : Option TypeExpr} (ht? : ∀ u ∈ t?, u = t) {ys : List Value}
    (hv : s.prepareAs v t? = .list ys) :
    ∀ y ∈ ys, ∃ x u?, s.IsExact item x ∧ (∀ u ∈ u?, u = item) ∧ y = s.prepareAs x u? := by
  cases h with
  | leaf hleaf =>
    have hplain := prepareAs_isLeaf (s := s) v t? hleaf
    rw [hv] at hplain
    cases hplain
  | entity hc =>
    obtain ⟨_, _, happly, -⟩ := ht
    rw [hc] at happly
    cases happly
  | @array _ _ xs _ hxs hall =>
    rw [prepareAs_asArray? hxs, Value.list.injEq] at hv
    subst hv
    intro y hy
    obtain ⟨x, hx, u?, hu, rfl⟩ := mem_prepareEach hy
    have hitem := elementTypes_of_isArrayOf (s := s) (fun u hu => ht? u hu ▸ ht) v xs.length
    exact ⟨x, u?, hall item ht x hx, fun u hmem => hitem u (hu u hmem), rfl⟩
  | entries =>
    rw [prepareAs] at hv
    cases hv
  | free _ hno => exact absurd ht (hno item)

/-- The values of a stored object with arbitrary keys are the stored forms of exact values. -/
theorem IsExact.entry {t k u : TypeExpr} {v : Value} (h : s.IsExact t v)
    (hd : t.stripped.isDict = true) (hargs : t.stripped.dictArgs? = some (k, u))
    {t? : Option TypeExpr} (ht? : ∀ w ∈ t?, w = t) {es : Entries}
    (hv : s.prepareAs v t? = .dict es) :
    ∀ e ∈ es, ∃ x u?, s.IsExact u x ∧ (∀ w ∈ u?, w = u) ∧ e.2 = s.prepareAs x u? := by
  cases h with
  | leaf hleaf =>
    have hplain := prepareAs_isLeaf (s := s) v t? hleaf
    rw [hv] at hplain
    cases hplain
  | entity hc =>
    rw [hc] at hd
    cases hd
  | array _ hxs =>
    rw [prepareAs_asArray? hxs] at hv
    cases hv
  | entries _ hall =>
    rw [prepareAs, Value.dict.injEq] at hv
    subst hv
    intro e he
    obtain ⟨e', he', rfl⟩ := mem_prepareEntries he
    have hdict : ∀ w ∈ t?, w.stripped.isDict = true ∧ w.stripped.dictArgs? = some (k, u) := by
      intro w hw
      rw [ht? w hw]
      exact ⟨hd, hargs⟩
    exact ⟨e'.2, _, hall k u hd hargs e' he', entryType?_of_dictArgs? hdict _, rfl⟩
  | free _ _ hno =>
    rw [hd] at hno
    cases hno

/-! ## Places of classes -/

/-- What stands at a place of the class `cls` in a value of the type, with the keys of objects with
arbitrary keys that lead there. -/
inductive Within (s : Schema) : TypeExpr → Value → List String → String → Value → Prop
  | here {t : TypeExpr} {v : Value} {cls : String} : t.stripped = .named cls →
      s.isStructured (.named cls) = true → Within s t v [] cls v
  | element {t item : TypeExpr} {xs : List Value} {x o : Value} {path : List String}
      {cls : String} : t.IsArrayOf item → x ∈ xs → Within s item x path cls o →
      Within s t (.list xs) path cls o
  | entry {t k u : TypeExpr} {es : Entries} {e : Value × Value} {o : Value} {path : List String}
      {cls : String} : t.stripped.isDict = true → t.stripped.dictArgs? = some (k, u) → e ∈ es →
      Within s u e.2 path cls o → Within s t (.dict es) (e.1.plainText :: path) cls o

theorem Within.holds {t : TypeExpr} {v o : Value} {path : List String} {cls : String}
    (h : s.Within t v path cls o) : t.Holds cls := by
  induction h with
  | here ht => exact .core (TypeExpr.core_of_stripped ht)
  | element ht _ _ ih => exact ih.of_core_eq ht.core
  | entry hd hargs _ _ ih =>
    have hcore := TypeExpr.core_of_item?_none (TypeExpr.item?_of_isDict hd)
    exact .entries (hcore ▸ hargs) ih

/-- Below arrays alone, what the value of a type holds is of the class at the core. -/
theorem Within.eq_core {t : TypeExpr} {v o : Value} {path : List String} {cls next : String}
    (h : s.Within t v path cls o) (hcore : t.core = .named next) : cls = next ∧ path = [] := by
  induction h with
  | here ht =>
    rw [TypeExpr.core_of_stripped ht] at hcore
    exact ⟨TypeExpr.named.inj hcore, rfl⟩
  | element ht _ _ ih => exact ih (ht.core.trans hcore)
  | entry hd =>
    rw [← TypeExpr.core_stripped, TypeExpr.core_of_isDict hd] at hcore
    rw [hcore] at hd
    cases hd

end Schema

end TypedSearch
