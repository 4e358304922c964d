import TypedSearch.Proofs.Comparison

/-!
# Reading of stored values

A type reads what is stored of its values as these values again. A type reads a value by its
alternatives; where all alternatives that take a value make the same of it, so does the type.

* `Schema.fit_eq_best?`: a type reads by its alternatives.
* `Schema.acceptReaders_complete`: a model reads an object that has all its fields.
* `Schema.fit_prepareAs`: stored values are read back.
-/

namespace TypedSearch

/-! ## Fits -/

namespace Fit

@[simp] theorem best?_singleton (f : Fit) : best? [f] = some f := by
  unfold best?
  by_cases hf : f.isFinal = true <;> simp [hf]

theorem best?_filterMap (read : TypeExpr → Option Fit) (t : TypeExpr) :
    best? ([t].filterMap read) = read t := by
  cases hread : read t with
  | none => rw [List.filterMap_cons_none hread]; rfl
  | some f => rw [List.filterMap_cons_some hread, List.filterMap_nil, best?_singleton]

/-- The first final fit holds. -/
theorem best?_of_find? {fits : List Fit} {f : Fit} (h : fits.find? isFinal = some f) :
    best? fits = some f := by
  simp [best?, h]

theorem best?_mem {fits : List Fit} (h : fits ≠ []) : ∃ f ∈ fits, best? fits = some f := by
  unfold best?
  cases hfinal : fits.find? isFinal with
  | some f => exact ⟨f, List.mem_of_find?_eq_some hfinal, rfl⟩
  | none =>
    cases fits with
    | nil => exact absurd rfl h
    | cons f fits =>
      clear h hfinal
      -- The fit that is kept so far is one of those that have been looked at.
      have hkept : ∀ (rest : List Fit) (kept : Fit),
          rest.foldl (fun f g => if f.isImproved g then g else f) kept ∈ kept :: rest := by
        intro rest
        induction rest with
        | nil =>
          intro kept
          exact List.mem_singleton_self kept
        | cons g rest ih =>
          intro kept
          rw [List.foldl_cons]
          split
          · exact List.mem_cons_of_mem _ (ih g)
          · rcases List.mem_cons.mp (ih kept) with heq | hmem
            · rw [heq]
              exact List.mem_cons_self
            · exact List.mem_cons_of_mem _ (List.mem_cons_of_mem _ hmem)
      exact ⟨_, hkept fits f, rfl⟩

/-- Where all fits make the same value, this value is made. -/
theorem best?_value {fits : List Fit} {v : Value} (h : fits ≠ [])
    (hv : ∀ f ∈ fits, f.value = v) : ∃ f, best? fits = some f ∧ f.value = v := by
  obtain ⟨f, hf, hbest⟩ := best?_mem h
  exact ⟨f, hbest, hv f hf⟩

@[simp] theorem withPart_value (whole part : Fit) : (whole.withPart part).value = whole.value := rfl

@[simp] theorem withParts_value (whole : Fit) (parts : List Fit) :
    (whole.withParts parts).value = whole.value := by
  unfold withParts
  induction parts generalizing whole with
  | nil => rfl
  | cons part parts ih => rw [List.foldl_cons, ih, withPart_value]

theorem ofParts_value (make : List Value → Value) (parts : List Fit) :
    (ofParts make parts).value = make (parts.map (·.value)) := withParts_value _ _

end Fit

/-! ## Alternatives -/

namespace TypeExpr

mutual

theorem alternatives_of_mem : ∀ (t : TypeExpr) {h : TypeExpr},
    h ∈ t.alternatives → h.alternatives = [h]
  | .annotated t _, _, hmem => alternatives_of_mem t hmem
  | .union ts, _, hmem => alternativesOf_of_mem ts hmem
  | .pipe ts, _, hmem => alternativesOf_of_mem ts hmem
  | .basic _, h, hmem | .null, h, hmem | .any, h, hmem | .variable, h, hmem | .bare _, h, hmem
  | .bareConstant, h, hmem | .named _, h, hmem | .forward _, h, hmem | .apply _ _, h, hmem
  | .literal _, h, hmem | .constant _, h, hmem | .generic _ _, h, hmem => by
    rw [List.mem_singleton.mp hmem]
    rfl

theorem alternativesOf_of_mem : ∀ (ts : List TypeExpr) {h : TypeExpr},
    h ∈ alternativesOf ts → h.alternatives = [h]
  | [], h, hmem => by cases hmem
  | t :: ts, h, hmem => by
    rw [alternativesOf, List.mem_append] at hmem
    exact hmem.elim (alternatives_of_mem t) (alternativesOf_of_mem ts)

end

end TypeExpr

namespace Schema

variable {s : Schema}

/-- The types that read a value without a look at its parts. -/
def isWhole : TypeExpr → Bool
  | .basic _ | .null | .any => true
  | _ => false

/-- Of any value the alternatives of a type make something each. -/
theorem exists_reading (s : Schema) (v : Value) : ∃ read : TypeExpr → Option Fit,
    (∀ t, s.fit v t = Fit.best? (t.alternatives.filterMap read)) ∧
      ∀ t, isWhole t = true → read t = s.acceptWhole t v := by
  cases v <;> refine ⟨_, fun t => rfl, fun t ht => ?_⟩ <;> cases t <;> first | rfl | cases ht

/-- The value has no parts. -/
def isAtom : Value → Bool
  | .list _ | .tuple _ | .set _ | .frozenset _ | .dict _ => false
  | _ => true

theorem fit_of_isAtom {v : Value} (hv : isAtom v = true) {t : TypeExpr}
    (ht : t.alternatives = [t]) : s.fit v t = s.acceptWhole t v := by
  have hread : s.fit v t = Fit.best? (t.alternatives.filterMap fun h => s.acceptWhole h v) := by
    cases v <;> first | rfl | cases hv
  rw [hread, ht, Fit.best?_filterMap]

/-- A type reads a value as the best of its alternatives does. -/
theorem fit_eq_best? (v : Value) (t : TypeExpr) :
    s.fit v t = Fit.best? (t.alternatives.filterMap (s.fit v)) := by
  obtain ⟨read, hread, -⟩ := s.exists_reading v
  have hself : ∀ h ∈ t.alternatives, s.fit v h = read h := by
    intro h hmem
    rw [hread h, TypeExpr.alternatives_of_mem t hmem, Fit.best?_filterMap]
  rw [hread t, List.filterMap_congr hself]

theorem fit_of_isWhole {t : TypeExpr} (ht : isWhole t = true) (v : Value) :
    s.fit v t = s.acceptWhole t v := by
  obtain ⟨read, hread, hwhole⟩ := s.exists_reading v
  have hself : t.alternatives = [t] := by cases t <;> first | rfl | cases ht
  rw [hread t, hself, Fit.best?_filterMap, hwhole t ht]

/-! ## Conversions -/

/-- What a type takes by itself does not go through the conversions. -/
theorem acceptWhole_of_takeWhole {t : TypeExpr} {v : Value} {f : Fit}
    (h : s.takeWhole t v = some f) : s.acceptWhole t v = some f := by
  rw [acceptWhole, h]
  rfl

theorem acceptWhole_of_convert_eq_none {t : TypeExpr} {v : Value} (h : s.convert t v = none) :
    s.acceptWhole t v = s.takeWhole t v := by
  rw [acceptWhole, h]
  cases s.takeWhole t v <;> rfl

theorem convert_of_not_isConverting {t : TypeExpr} (h : s.isConverting t = false) (v : Value) :
    s.convert t v = none := by
  rw [convert, h]
  rfl

theorem convert_null (t : TypeExpr) : s.convert t .null = none := by
  unfold convert
  cases s.isConverting t <;> rfl

theorem fit_null (v : Value) :
    s.fit v .null = if v.isNull then some (.exactly .null) else none := by
  rw [fit_of_isWhole rfl,
    acceptWhole_of_convert_eq_none (convert_of_not_isConverting rfl v)]
  rfl

theorem fit_any (v : Value) : s.fit v .any = some (.kindred v) := by
  rw [fit_of_isWhole rfl, acceptWhole_of_takeWhole rfl]

theorem fit_basic {v : Value} {b : BasicType} {f : Fit} (h : takeBasic b v = some f) :
    s.fit v (.basic b) = some f := by
  rw [fit_of_isWhole rfl]
  exact acceptWhole_of_takeWhole h

theorem fit_list {c : Container} (hc : c = .list ∨ c = .plainList) (xs : List Value)
    (t : TypeExpr) :
    s.fit (.list xs) (.apply c [t]) = (s.fitAll xs t).map (.ofParts .list) := by
  have hself : (TypeExpr.apply c [t]).alternatives = [.apply c [t]] := rfl
  rw [fit, hself, Fit.best?_filterMap]
  rcases hc with rfl | rfl <;> rfl

theorem fit_dict {c : Container} (hc : c = .dict ∨ c = .plainDict) (es : Entries)
    (k t : TypeExpr) :
    s.fit (.dict es) (.apply c [k, t]) = (s.fitEntries es k t).map dictOfFits := by
  have hself : (TypeExpr.apply c [k, t]).alternatives = [.apply c [k, t]] := rfl
  rw [fit, hself, Fit.best?_filterMap]
  rcases hc with rfl | rfl <;> rfl

theorem fit_object (es : Entries) (cls : String) :
    s.fit (.dict es) (.named cls) =
      (s.acceptReaders cls (s.readersOf es)).or (s.acceptWhole (.named cls) (.dict es)) := by
  have hself : (TypeExpr.named cls).alternatives = [.named cls] := rfl
  rw [fit, hself, Fit.best?_filterMap]
  exact Option.orElse_eq_or

/-! ## Parts -/

/-- The elements of a list are read one by one. -/
theorem fitAll_map {xs : List Value} {t : TypeExpr} {p : Value → Value}
    (h : ∀ x ∈ xs, ∃ f, s.fit (p x) t = some f ∧ f.value = x) :
    ∃ parts, s.fitAll (xs.map p) t = some parts ∧ parts.map (·.value) = xs := by
  induction xs with
  | nil => exact ⟨[], rfl, rfl⟩
  | cons x xs ih =>
    rw [List.forall_mem_cons] at h
    obtain ⟨f, hf, hx⟩ := h.1
    obtain ⟨parts, hparts, hxs⟩ := ih h.2
    refine ⟨f :: parts, ?_, by rw [List.map_cons, hx, hxs]⟩
    rw [List.map_cons, fitAll, hf, hparts]
    rfl

/-- Any object with text keys is read as it is. -/
theorem fitEntries_json {es : Entries} (h : areJsonEntries es = true) :
    ∃ parts, s.fitEntries es (.basic .text) .any = some parts ∧
      parts.map (fun e => (e.1.value, e.2.value)) = es := by
  induction es with
  | nil => exact ⟨[], rfl, rfl⟩
  | cons e es ih =>
    obtain ⟨key, v⟩ := e
    cases key with
    | str key =>
      rw [areJsonEntries, Bool.and_eq_true] at h
      obtain ⟨parts, hparts, hes⟩ := ih h.2
      refine ⟨(.exactly (.str key), .kindred v) :: parts, ?_, by rw [List.map_cons, hes]; rfl⟩
      have hkey : s.fit (.str key) (.basic .text) = some (.exactly (.str key)) := fit_basic rfl
      rw [fitEntries, hkey, fit_any, hparts]
      rfl
    | _ => cases h

theorem dictOfFits_value (parts : List (Fit × Fit)) :
    (dictOfFits parts).value = .dict (parts.map fun e => (e.1.value, e.2.value)) :=
  Fit.withParts_value _ _

/-! ## Models -/

theorem find?_readersOf (key : String) (es : Entries) :
    (s.readersOf es).find? (fun r => Entries.keyIs key r.1) =
      (es.find? fun e => Entries.keyIs key e.1).map fun e => (e.1, fun t => s.fit e.2 t) := by
  induction es with
  | nil => rfl
  | cons e es ih =>
    rw [readersOf, List.find?_cons, List.find?_cons, ih]
    cases Entries.keyIs key e.1 <;> rfl

/-- Data are read from the first of the names that is there. -/
theorem reader?_readersOf (es : Entries) (names : List String) :
    reader? (s.readersOf es) names =
      (names.findSome? fun key => es.get? key).map fun v t => s.fit v t := by
  induction names with
  | nil => rfl
  | cons key names ih =>
    rw [reader?, find?_readersOf, List.findSome?_cons, Entries.get?]
    cases es.find? fun e => Entries.keyIs key e.1 with
    | none => exact ih
    | some e => rfl

/-- A field is read from the entry under the first of its names, if there is one. -/
theorem reader?_cons_of_get? {es : Entries} {name : String} {v : Value}
    (h : es.get? name = some v) (names : List String) :
    reader? (s.readersOf es) (name :: names) = some fun t => s.fit v t := by
  rw [reader?_readersOf, List.findSome?_cons, h]
  rfl

/-- The fields of a complete object are read one by one. -/
theorem acceptFields_complete {es : Entries} (names : FieldDecl TypeExpr → List String)
    {fs : List (FieldDecl TypeExpr)} {value : FieldDecl TypeExpr → Value}
    (h : ∀ g ∈ fs, ∃ w rest, names g = g.readName :: rest ∧ es.get? g.readName = some w ∧
      ∃ f, s.fit w g.type = some f ∧ f.value = value g) :
    ∃ read, acceptFields (s.readersOf es) names fs = some read ∧
      read.map (fun f => (f.1, f.2.1)) = fs.map fun g => (g.name, value g) := by
  induction fs with
  | nil => exact ⟨[], rfl, rfl⟩
  | cons g fs ih =>
    rw [List.forall_mem_cons] at h
    obtain ⟨w, rest, hnames, hget, f, hf, hvalue⟩ := h.1
    obtain ⟨read, hread, hmap⟩ := ih h.2
    refine ⟨(g.name, f.value, some f) :: read, ?_, by rw [List.map_cons, List.map_cons, hmap, hvalue]⟩
    rw [acceptFields, hnames, reader?_cons_of_get? hget, hread]
    simp only [hf]
    rfl

/-- A model reads an object that has all its fields as the entity with these attributes. Further
entries do not matter. -/
theorem acceptReaders_complete {cls : String} {es : Entries} (hm : s.isModel cls = true)
    {value : FieldDecl TypeExpr → Value}
    (h : ∀ g ∈ s.settledFields cls, ∃ w, es.get? g.readName = some w ∧
      ∃ f, s.fit w g.type = some f ∧ f.value = value g) :
    ∃ f, s.acceptReaders cls (s.readersOf es) = some f ∧ f.value =
      .entity .model cls ((s.settledFields cls).map fun g => (g.name, value g)) := by
  have hnames : ∀ g ∈ s.settledFields cls, ∃ w rest, s.dataNames cls g = g.readName :: rest ∧
      es.get? g.readName = some w ∧ ∃ f, s.fit w g.type = some f ∧ f.value = value g := by
    intro g hg
    obtain ⟨w, hget, hfit⟩ := h g hg
    exact ⟨w, _, rfl, hget, hfit⟩
  obtain ⟨read, hread, hmap⟩ := acceptFields_complete (s.dataNames cls) hnames
  refine ⟨entityFit .model cls .converted read, ?_, ?_⟩
  · rw [acceptReaders, if_pos hm, hread]
    rfl
  · rw [entityFit, Fit.withParts_value, hmap]

end Schema

/-! ## Choices -/

theorem Enumeration.IsChoice.accept? {e : Enumeration} (h : e.IsChoice) {m : String × Value}
    (hm : m ∈ e.members) : e.accept? m.2 = some (e.toValue m) := by
  have heq : ∀ k ∈ e.members, k.2.equals m.2 = true ↔ k.2 = m.2 := by
    intro k hk
    rcases h.plain k hk with ⟨a, ha⟩ | ⟨a, ha⟩ <;> rcases h.plain m hm with ⟨b, hb⟩ | ⟨b, hb⟩ <;>
      rw [ha, hb]
    · rw [Value.equals_str, beq_iff_eq, Value.str.injEq]
    · simp [Value.equals, Value.sameScalar, Value.magnitude?, Value.asText?, Value.asInt?]
    · simp [Value.equals, Value.sameScalar, Value.magnitude?, Value.asText?, Value.asInt?]
    · rw [Value.equals_int, beq_iff_eq, Value.int.injEq]
  have hself := Schema.find?_of_nodup h.nodup hm heq
  rcases h.plain m hm with ⟨a, ha⟩ | ⟨a, ha⟩ <;>
    simp [Enumeration.accept?, ha, ha ▸ hself]

namespace Schema

variable {s : Schema}

theorem prepareAs_member {e : Enumeration} (h : e.IsChoice) {m : String × Value}
    (hm : m ∈ e.members) (t : Option TypeExpr) : s.prepareAs (e.toValue m) t = m.2 := by
  have hvalue : s.prepareAs (e.toValue m) t = s.prepareAs m.2 none := rfl
  rw [hvalue]
  rcases h.plain m hm with ⟨a, ha⟩ | ⟨a, ha⟩ <;> rw [ha] <;> rfl

theorem fit_member {cls : String} {e : Enumeration} (he : s.enumeration? cls = some e)
    (h : e.IsChoice) {m : String × Value} (hm : m ∈ e.members) :
    ∃ f, s.fit m.2 (.named cls) = some f ∧ f.value = e.toValue m := by
  have hatom : isAtom m.2 = true := by
    rcases h.plain m hm with ⟨a, ha⟩ | ⟨a, ha⟩ <;> rw [ha] <;> rfl
  have hwhole : s.takeWhole (.named cls) m.2 = acceptMember e m.2 := by
    simp only [takeWhole, he]
  rw [acceptMember, h.accept? hm] at hwhole
  rw [fit_of_isAtom hatom rfl, acceptWhole_of_takeWhole hwhole]
  refine ⟨_, rfl, ?_⟩
  split <;> rfl

/-! ## Optional values -/

theorem eq_of_mem_optional {t t' : TypeExpr} {ts : List TypeExpr}
    (hts : ts = [t', .null] ∨ ts = [.null, t']) (h : t ∈ ts) (hnull : t.isNull = false) :
    t = t' := by
  have hne : t ≠ .null := by
    rintro rfl
    cases hnull
  rcases hts with rfl | rfl <;> simpa [hne] using h

/-- Only null is stored as null. -/
theorem prepareAs_isNull {t : TypeExpr} {v : Value} (h : s.Inhabits t v) (ht : s.Storable t)
    (hnull : (s.prepareAs v (some t)).isNull = true) : v = .null := by
  induction h with
  | @scalar b v hb =>
    cases v <;> first | rfl | cases hnull | cases b <;> cases hb
  | @any v hv =>
    rw [prepareAs_json _ hv] at hnull
    cases v <;> first | rfl | cases hnull
  | member he hm =>
    cases ht with
    | enumeration he' _ hc =>
      rw [he, Option.some.injEq] at he'
      subst he'
      rw [prepareAs_member hc hm] at hnull
      rcases hc.plain _ hm with ⟨a, ha⟩ | ⟨a, ha⟩ <;> rw [ha] at hnull <;> cases hnull
    | model _ _ hnone =>
      rw [he] at hnone
      cases hnone
  | absent => rfl
  | present hmem htnull hv ih =>
    cases ht with
    | optional hts hu ht' =>
      obtain rfl := eq_of_mem_optional hts hmem htnull
      rw [prepareAs_optional hts ht' hu] at hnull
      exact ih ht' hnull
  | entity => cases hnull
  | list => cases hnull
  | dict => cases hnull

theorem fit_null_value {t : TypeExpr} (ht : s.Storable t) (hu : t.isUnion = false) {f : Fit}
    (h : s.fit .null t = some f) : f.value = .null := by
  rw [fit_of_isAtom rfl (ht.alternatives hu),
    acceptWhole_of_convert_eq_none (convert_null t)] at h
  cases ht with
  | @basic b hb => cases b <;> first | exact absurd hb (by decide) | cases h
  | any =>
    cases h
    rfl
  | @enumeration cls e he _ hc =>
    have hnone : e.accept? .null = none := by
      have hfind : e.members.find? (fun m => m.2.equals .null) = none := by
        rw [List.find?_eq_none]
        intro m hm
        rcases hc.plain m hm with ⟨a, ha⟩ | ⟨a, ha⟩ <;> rw [ha] <;>
          simp [Value.equals, Value.sameScalar, Value.magnitude?, Value.asText?, Value.asInt?]
      rw [Enumeration.accept?, hfind]
      · rfl
      · intro _ _ _ _ h
        cases h
    simp [takeWhole, he, acceptMember, hnone] at h
  | @model cls _ _ hnone => simp [takeWhole, hnone, acceptInstance, isInstance] at h
  | optional => cases hu
  | list => cases h
  | dict => cases h

/-- An optional type reads a value as the type without the option does. Null is read as null. -/
theorem fit_optional {t : TypeExpr} {ts : List TypeExpr}
    (hts : ts = [t, .null] ∨ ts = [.null, t]) (ht : s.Storable t) (hu : t.isUnion = false)
    {v w : Value} (hsome : (∃ f, s.fit w t = some f) ∨ w.isNull = true)
    (hfit : ∀ f, s.fit w t = some f → f.value = v) (hnull : w.isNull = true → v = .null) :
    ∃ f, s.fit w (.union ts) = some f ∧ f.value = v := by
  have hmem : ∀ t', t' ∈ ts ↔ t' = t ∨ t' = .null := by
    intro t'
    rcases hts with rfl | rfl <;> simp [or_comm]
  rw [fit_eq_best?, ht.alternatives_optional hts hu]
  refine Fit.best?_value ?_ fun f hf => ?_
  · rcases hsome with ⟨f, hf⟩ | hw
    · exact List.ne_nil_of_mem (List.mem_filterMap.mpr ⟨t, (hmem t).mpr (Or.inl rfl), hf⟩)
    · have hread : s.fit w .null = some (.exactly .null) := by rw [fit_null, if_pos hw]
      exact List.ne_nil_of_mem
        (List.mem_filterMap.mpr ⟨.null, (hmem .null).mpr (Or.inr rfl), hread⟩)
  · obtain ⟨t', ht', hf⟩ := List.mem_filterMap.mp hf
    rcases (hmem t').mp ht' with rfl | rfl
    · exact hfit f hf
    · rw [fit_null] at hf
      split at hf
      · rename_i hw
        cases hf
        rw [hnull hw]
        rfl
      · cases hf

/-! ## Reading back -/

/-- A model reads back what it writes: the types of its fields can be stored, and each is read
under the key that only it is written under. -/
structure ReadsBack (s : Schema) (cls : String) : Prop where
  storable : ∀ g ∈ s.settledFields cls, s.Storable g.type
  named : ∀ g ∈ s.settledFields cls, g.readName = g.storedName
  stored : ((s.settledFields cls).map (·.storedName)).Nodup

theorem get?_storedObject {cls : String} {as : List (String × Value)}
    (hn : ((s.settledFields cls).map (·.storedName)).Nodup) {g : FieldDecl TypeExpr}
    (hg : g ∈ s.settledFields cls) :
    (s.storedObject cls as).get? g.storedName =
      some (s.prepareAs (attributeOf as g) (some g.type)) :=
  get?_map_of_nodup hn (fun g => s.prepareAs (attributeOf as g) (some g.type)) hg

/-- What is stored of a value of a type is read back as that value. -/
theorem fit_prepareAs {root : String}
    (hr : ∀ {cls}, s.Reaches TypeExpr.Holds root cls → s.isModel cls = true → s.ReadsBack cls)
    {t : TypeExpr} {v : Value} (h : s.Inhabits t v) (ht : s.Storable t)
    (hreach : ∀ {cls}, t.Holds cls → s.Reaches TypeExpr.Holds root cls) :
    ∃ f, s.fit (s.prepareAs v (some t)) t = some f ∧ f.value = v := by
  induction h with
  | @scalar b v hb =>
    refine ⟨.exactly v, fit_basic ?_, rfl⟩
    cases b <;> cases v <;> first | rfl | cases hb
  | any hv => exact ⟨_, fit_any _, prepareAs_json _ hv _⟩
  | member he hm =>
    cases ht with
    | enumeration he' _ hc =>
      rw [he, Option.some.injEq] at he'
      subst he'
      rw [prepareAs_member hc hm]
      exact fit_member he hc hm
    | model _ _ hnone =>
      rw [he] at hnone
      cases hnone
  | @entity cls as hm hnames has ih =>
    have hself : s.Reaches TypeExpr.Holds root cls := hreach (.core rfl)
    have hback := hr hself hm
    rw [prepareAs_entity ht hm hnames hback.stored, fit_object]
    have hread : ∀ g ∈ s.settledFields cls, ∃ w, (s.storedObject cls as).get? g.readName = some w ∧
        ∃ f, s.fit w g.type = some f ∧ f.value = attributeOf as g := by
      intro g hg
      have hmem := attributeOf_mem (settledFields_nodup s cls) hnames hg
      refine ⟨_, hback.named g hg ▸ get?_storedObject hback.stored hg, ?_⟩
      exact ih g hg _ hmem (hback.storable g hg) fun hc => hself.model hm hg hc
    obtain ⟨f, hf, hvalue⟩ := acceptReaders_complete hm hread
    exact ⟨f, by rw [hf]; rfl, by rw [hvalue, ← attributes_eq (settledFields_nodup s cls) hnames]⟩
  | absent =>
    cases ht with
    | optional hts hu ht' =>
      exact fit_optional hts ht' hu (Or.inr rfl) (fun f hf => fit_null_value ht' hu hf) fun _ => rfl
  | present hmem htnull hv ih =>
    cases ht with
    | optional hts hu ht' =>
      obtain rfl := eq_of_mem_optional hts hmem htnull
      rw [prepareAs_optional hts ht' hu]
      obtain ⟨f, hf, hvalue⟩ := ih ht' fun hc =>
        hreach (hc.of_core_eq (core_optional hts ht').symm)
      refine fit_optional hts ht' hu (Or.inl ⟨f, hf⟩) (fun f' hf' => ?_) (prepareAs_isNull hv ht')
      rw [hf, Option.some.injEq] at hf'
      exact hf' ▸ hvalue
  | @list c t xs hxs ih =>
    cases ht with
    | list hc ht' =>
      obtain ⟨parts, hparts, hvalues⟩ := fitAll_map fun x hx => ih x hx ht' fun hcls =>
        hreach (hcls.of_core_eq (TypeExpr.core_of_item? (item?_list hc t)).symm)
      rw [prepareAs_list hc ht', fit_list hc, hparts]
      exact ⟨_, rfl, by rw [Fit.ofParts_value, hvalues]⟩
  | @dict c es hes =>
    cases ht with
    | dict hc =>
      obtain ⟨parts, hparts, hvalues⟩ := fitEntries_json (s := s) hes
      rw [prepareAs_dict hes, fit_dict hc, hparts]
      exact ⟨_, rfl, by rw [dictOfFits_value, hvalues]⟩

end Schema

end TypedSearch
