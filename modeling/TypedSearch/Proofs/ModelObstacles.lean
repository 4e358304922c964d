import TypedSearch.Proofs.RecordObstacles

/-!
# Values that cannot be stored

A value that cannot be stored holds a record or a model that cannot be taken apart. Within a model
no set takes an entity as its element and no object one as its key if it becomes an object, and a
record there must have the fields of the class that is declared for it. Where there is nothing of
the kind, a value can be stored.

* `Schema.ModelObstacle`: the parts at which a model cannot be taken apart.
* `Schema.explains_dump`: nothing else stands in the way of taking it apart.
* `Schema.hasPart_of_prepare_error`: **a value cannot be stored only for a record or a model in
  it.**
* `Schema.prepare_of_isEasy`: values without anything of the kind can be stored.
* `Schema.prepare_fails`: a record with an object whose keys are records cannot.
-/

namespace TypedSearch

/-! ## Classes that are declared -/

mutual

/-- The classes that a type names where values are written by it. -/
def TypeExpr.names : TypeExpr → List String
  | .named cls => [cls]
  | .apply _ ts | .union ts | .pipe ts => namesOf ts
  | .annotated t _ => t.names
  | _ => []
termination_by structural t => t

/-- The classes that several types name. -/
def namesOf : List TypeExpr → List String
  | [] => []
  | t :: ts => t.names ++ namesOf ts
termination_by structural ts => ts

end

namespace TypeExpr

theorem mem_namesOf {ts : List TypeExpr} {cls : String} :
    cls ∈ namesOf ts ↔ ∃ t ∈ ts, cls ∈ t.names := by
  induction ts with
  | nil => simp [namesOf]
  | cons t ts ih => simp [namesOf, ih]

mutual

theorem names_of_alternative : ∀ (t : TypeExpr) {h : TypeExpr}, h ∈ t.alternatives →
    ∀ cls ∈ h.names, cls ∈ t.names
  | .annotated t _, _, hmem => names_of_alternative t hmem
  | .union ts, _, hmem => names_of_alternativesOf ts hmem
  | .pipe ts, _, hmem => names_of_alternativesOf ts hmem
  | .basic _, h, hmem | .null, h, hmem | .any, h, hmem | .variable, h, hmem | .bare _, h, hmem
  | .bareConstant, h, hmem | .named _, h, hmem | .forward _, h, hmem | .apply _ _, h, hmem
  | .literal _, h, hmem | .constant _, h, hmem | .generic _ _, h, hmem => by
    rw [List.mem_singleton.mp hmem]
    exact fun _ => id

theorem names_of_alternativesOf : ∀ (ts : List TypeExpr) {h : TypeExpr},
    h ∈ alternativesOf ts → ∀ cls ∈ h.names, cls ∈ namesOf ts
  | [], _, hmem => by cases hmem
  | t :: ts, _, hmem => by
    intro cls hcls
    rw [alternativesOf, List.mem_append] at hmem
    rw [namesOf, List.mem_append]
    exact hmem.imp (fun h => names_of_alternative t h cls hcls)
      fun h => names_of_alternativesOf ts h cls hcls

end

end TypeExpr

namespace Schema

variable {s : Schema}

/-- A field of some class names the class in its type. -/
def Declares (s : Schema) (cls : String) : Prop :=
  ∃ own, ∃ g ∈ s.settledFields own ++ s.settledRecordFields own, cls ∈ g.type.names

/-- All classes that the type names, if there is one, are named in the type of a field. -/
def AllDeclared (s : Schema) (t : Option TypeExpr) : Prop :=
  ∀ u ∈ t, ∀ cls ∈ u.names, s.Declares cls

theorem AllDeclared.none : s.AllDeclared none := nofun

theorem AllDeclared.of_names {t u : TypeExpr} (h : s.AllDeclared (some t))
    (hu : ∀ cls ∈ u.names, cls ∈ t.names) : s.AllDeclared (some u) := by
  rintro _ ⟨⟩ cls hcls
  exact h t rfl cls (hu cls hcls)

theorem AllDeclared.written {t : Option TypeExpr} (h : s.AllDeclared t) (v : Value) :
    s.AllDeclared (t.bind (s.writtenAs? · v)) := by
  cases t with
  | none => exact .none
  | some t =>
    intro u hu
    have hmem : u ∈ t.alternatives := by
      rw [Option.bind_some, Option.mem_def, writtenAs?] at hu
      have hfilter : ∀ {u}, u ∈ t.alternatives.filter (fun h => !h.isNull) → u ∈ t.alternatives :=
        fun h => (List.mem_filter.mp h).1
      split at hu
      · rename_i heq
        cases hu
        exact hfilter (heq ▸ List.mem_singleton_self u)
      · rename_i hs _
        rw [Option.orElse_eq_orElse, Option.orElse_eq_or, Option.or_eq_some_iff] at hu
        rcases hu with hu | ⟨-, hu⟩ <;> exact hfilter (List.mem_of_find?_eq_some hu)
    exact h.of_names (TypeExpr.names_of_alternative t hmem) u rfl

theorem AllDeclared.of_mem_replicate {t : TypeExpr} (h : s.AllDeclared (some t)) {count : Nat} :
    ∀ u ∈ List.replicate count (some t), s.AllDeclared u :=
  fun _ hu => List.eq_of_mem_replicate hu ▸ h

theorem AllDeclared.argument {c : Container} {ts : List TypeExpr} {t : TypeExpr}
    (h : s.AllDeclared (some (.apply c ts))) (ht : t ∈ ts) : s.AllDeclared (some t) :=
  h.of_names fun _ hcls => TypeExpr.mem_namesOf.mpr ⟨t, ht, hcls⟩

theorem AllDeclared.elements {t : Option TypeExpr} (h : s.AllDeclared t) (count : Nat) :
    ∀ u ∈ elementTypes count t, s.AllDeclared u := by
  unfold elementTypes
  split
  · intro u hu
    obtain ⟨t, ht, rfl⟩ := List.mem_map.mp hu
    exact h.argument ht
  iterate 5 exact (h.argument List.mem_cons_self).of_mem_replicate
  · nofun

theorem AllDeclared.frozen {t : Option TypeExpr} (h : s.AllDeclared t) (count : Nat) :
    ∀ u ∈ frozenTypes count t, s.AllDeclared u := by
  unfold frozenTypes
  split
  · exact (h.argument List.mem_cons_self).of_mem_replicate
  · nofun

theorem AllDeclared.key {t : Option TypeExpr} (h : s.AllDeclared t) :
    s.AllDeclared (keyType? t) := by
  unfold keyType?
  split
  iterate 3 exact h.argument List.mem_cons_self
  iterate 2 exact h.of_names nofun
  · exact .none

theorem AllDeclared.entry {t : Option TypeExpr} (h : s.AllDeclared t) :
    s.AllDeclared (entryType? t) := by
  unfold entryType?
  split
  iterate 3 exact h.argument (List.mem_cons_of_mem _ List.mem_cons_self)
  · exact .none

theorem AllDeclared.modelLayout {cls name key : String} {t : Option TypeExpr}
    (h : s.modelLayout cls name = some (key, t)) : s.AllDeclared t := by
  obtain ⟨g, hg, heq⟩ := Option.map_eq_some_iff.mp h
  cases heq
  rintro _ ⟨⟩ c hc
  exact ⟨cls, g, List.mem_append_left _ (List.mem_of_find?_eq_some hg), hc⟩

theorem AllDeclared.recordLayout {cls name key : String} {isDeclared : Bool} {t : Option TypeExpr}
    (h : s.recordLayout cls isDeclared name = some (key, t)) : s.AllDeclared t := by
  obtain ⟨g, hg, heq⟩ := Option.map_eq_some_iff.mp h
  cases heq
  split
  · rintro _ ⟨⟩ c hc
    exact ⟨cls, g, List.mem_append_right _ (List.mem_of_find?_eq_some hg), hc⟩
  · exact .none

theorem AllDeclared.ownLayout {own name key : String} {t : Option TypeExpr}
    (h : s.ownLayout own name = some (key, t)) : s.AllDeclared t := by
  unfold Schema.ownLayout at h
  split at h
  · exact .recordLayout h
  split at h
  · exact .modelLayout h
  · unfold plainLayout at h
    split at h
    · cases h
    · cases h
      exact .none

/-- All types with which a layout writes attributes are declared. -/
theorem AllDeclared.layout (declared : Option TypeExpr) (own : String) {name key : String}
    {t : Option TypeExpr} (h : s.layout declared own name = some (key, t)) : s.AllDeclared t := by
  unfold Schema.layout at h
  split at h
  · split at h
    · exact .modelLayout h
    split at h
    · exact .recordLayout h
    · exact .ownLayout h
  · exact .ownLayout h

/-! ## Obstacles -/

/-- What cannot be taken apart with a model around it, and the fault: a record without an attribute
for a field of its class or of one that is declared, and a set or an object with an entity for an
element or a key, on its own or in a tuple. -/
inductive ModelObstacle (s : Schema) : Fault → Value → Prop
  | missing {kind : EntityKind} {own cls : String} {as : List (String × Value)}
      {g : FieldDecl TypeExpr} : s.isRecord own = true → cls = own ∨ s.Declares cls →
      g ∈ s.settledRecordFields cls → as.lookup g.name = none →
      ModelObstacle s .missingAttribute (.entity kind own as)
  | key {es : Entries} {e : Value × Value} : e ∈ es → e.1.holdsEntity (fun _ => true) = true →
      ModelObstacle s .wrongType (.dict es)
  | element {xs : List Value} {x : Value} : x ∈ xs → x.holdsEntity (fun _ => true) = true →
      ModelObstacle s .wrongType (.set xs)
  | frozenElement {xs : List Value} {x : Value} : x ∈ xs →
      x.holdsEntity (fun _ => true) = true → ModelObstacle s .wrongType (.frozenset xs)

/-! ## Attributes that are written -/

/-- What comes of the attributes that are written. -/
def writtenOutcomes {α : Type} (outcome : Value → Option TypeExpr → α) (layout : Layout)
    (as : List (String × Value)) : List (String × α) :=
  as.filterMap fun a => (layout a.1).map fun place => (a.1, outcome a.2 place.2)

theorem lookup_writtenOutcomes {α : Type} {outcome : Value → Option TypeExpr → α} {layout : Layout}
    {name key : String} {t : Option TypeExpr} (h : layout name = some (key, t))
    (as : List (String × Value)) :
    (writtenOutcomes outcome layout as).lookup name = (as.lookup name).map (outcome · t) := by
  induction as with
  | nil => rfl
  | cons a as ih =>
    rw [writtenOutcomes, List.filterMap_cons, List.lookup_cons]
    by_cases hname : name = a.1
    · subst hname
      simp [h]
    · rw [beq_eq_false_iff_ne.mpr hname]
      cases layout a.1 with
      | none => exact ih
      | some place =>
        rw [Option.map_some, List.lookup_cons, beq_eq_false_iff_ne.mpr hname]
        exact ih

theorem ownWriter?_eq_record {own cls : String} (h : s.ownWriter? own = some (.record, cls)) :
    s.isRecord own = true ∧ cls = own ∧ s.ownLayout own = s.recordLayout cls false := by
  unfold ownWriter? at h
  split at h
  · rename_i hr
    cases h
    exact ⟨hr, rfl, if_pos hr⟩
  split at h <;> cases h

/-- A record is written by the fields of its class, or by those of one that is declared. -/
theorem writer?_eq_record {declared : Option TypeExpr} {own cls : String}
    (h : s.writer? declared own = some (.record, cls)) : s.isRecord own = true ∧
      (cls = own ∨ declared = some (.named cls)) ∧
      ∃ isDeclared, s.layout declared own = s.recordLayout cls isDeclared := by
  unfold writer? at h
  unfold layout
  split at h
  · rename_i c
    split at h
    · cases h
    · rename_i hm
      rw [if_neg hm]
      split at h
      · rename_i hr
        cases h
        rw [if_pos hr]
        exact ⟨(Bool.and_eq_true_iff.mp hr).2, .inr rfl, true, rfl⟩
      · rename_i hr
        rw [if_neg hr]
        obtain ⟨hr, hcls, hlayout⟩ := ownWriter?_eq_record h
        exact ⟨hr, .inl hcls, false, hlayout⟩
  · obtain ⟨hr, hcls, hlayout⟩ := ownWriter?_eq_record h
    exact ⟨hr, .inl hcls, false, hlayout⟩

theorem recordLayout_of_mem {cls : String} {g : FieldDecl TypeExpr} (isDeclared : Bool)
    (hg : g ∈ s.settledRecordFields cls) :
    ∃ t, s.recordLayout cls isDeclared g.name = some (g.name, t) := by
  have hfound : ((s.settledRecordFields cls).find? (·.name == g.name)).isSome :=
    List.find?_isSome.mpr ⟨g, hg, beq_self_eq_true g.name⟩
  obtain ⟨f, hf⟩ := Option.isSome_iff_exists.mp hfound
  exact ⟨_, by rw [recordLayout, hf, Option.map_some]⟩

/-- A record whose fields do not all have an outcome misses an attribute. -/
theorem lookup_of_writer?_record {α : Type} {outcome : Value → Option TypeExpr → α}
    {declared : Option TypeExpr} {own cls : String} {as : List (String × Value)}
    (hwriter : s.writer? declared own = some (.record, cls)) {g : FieldDecl TypeExpr}
    (hg : g ∈ s.settledRecordFields cls)
    (h : (writtenOutcomes outcome (s.layout declared own) as).lookup g.name = none) :
    as.lookup g.name = none := by
  obtain ⟨-, -, isDeclared, hlayout⟩ := writer?_eq_record hwriter
  obtain ⟨t, ht⟩ := recordLayout_of_mem isDeclared hg
  rw [hlayout, lookup_writtenOutcomes ht, Option.map_eq_none_iff] at h
  exact h

/-- The class by whose fields a record is written is its own or a declared one. -/
theorem AllDeclared.writer {declared : Option TypeExpr} {own cls : String}
    (h : s.AllDeclared declared) (hwriter : s.writer? declared own = some (.record, cls)) :
    cls = own ∨ s.Declares cls := by
  obtain ⟨-, hcls, -⟩ := writer?_eq_record hwriter
  exact hcls.imp_right fun hnamed => h (.named cls) hnamed cls (List.mem_singleton_self cls)

/-! ## Models that are written -/

theorem dumpAttributes_eq (as : List (String × Value)) (layout : Layout) :
    s.dumpAttributes as layout = writtenOutcomes s.dump layout as := by
  induction as with
  | nil => rfl
  | cons a as ih =>
    rw [dumpAttributes, writtenOutcomes, List.filterMap_cons]
    cases layout a.1 with
    | none => exact ih
    | some place => exact congrArg _ ih

theorem AllDeclared.headD {ts : List (Option TypeExpr)} (h : ∀ u ∈ ts, s.AllDeclared u) :
    s.AllDeclared (ts.headD Option.none) := by
  cases ts with
  | nil => exact .none
  | cons t ts => exact h t List.mem_cons_self

mutual

/-- Only an obstacle keeps a value from being written, and only entities become objects. -/
theorem explains_dump : ∀ (v : Value) (t : Option TypeExpr), s.AllDeclared t →
    Explains s.ModelObstacle (fun _ => true) v (s.dump v t)
  | .list xs, t, ht => by
    rw [dump]
    exact ExplainsEach.collection (v := .list xs)
      (explains_dumpEach xs _ ((ht.written _).elements _))
  | .tuple xs, t, ht => by
    rw [dump]
    exact (explains_dumpEach xs _ ((ht.written _).elements _)).tuple
  | .set xs, t, ht => by
    rw [dump]
    exact ExplainsEach.keys (v := .set xs) (explains_dumpEach xs _ ((ht.written _).elements _))
      fun x hx hholds => .element hx hholds
  | .frozenset xs, t, ht => by
    rw [dump]
    exact ExplainsEach.keys (v := .frozenset xs)
      (explains_dumpEach xs _ ((ht.written _).frozen _)) fun x hx hholds => .frozenElement hx hholds
  | .dict es, t, ht => by
    rw [dump]
    exact (explains_dumpEntries es _ _ (ht.written _).key (ht.written _).entry).object
      fun e he hholds => .key he hholds
  | .entity kind own as, t, ht => by
    rw [dump]
    split
    · refine .entity (explains_dumpAttributes as fun name key u h => .layout _ own h) ?_ rfl
      intro cls hwriter g hg hnone
      rw [dumpAttributes_eq] at hnone
      exact .missing (writer?_eq_record hwriter).1 ((ht.written _).writer hwriter) hg
        (lookup_of_writer?_record hwriter hg hnone)
    · nofun
  | .condition _ _ _, _, _ | .null, _, _ | .bool _, _, _ | .int _, _, _ | .double _, _, _
  | .decimal _, _, _ | .str _, _, _ | .bytes _, _, _ | .uuid _, _, _ | .date _, _, _
  | .datetime _, _, _ | .url _, _, _ | .member _ _ _ _, _, _ | .field _, _, _
  | .operation _ _, _, _ | .featureless, _, _ => nofun

theorem explains_dumpEach : ∀ (xs : List Value) (ts : List (Option TypeExpr)),
    (∀ u ∈ ts, s.AllDeclared u) →
    ExplainsEach s.ModelObstacle (fun _ => true) xs (s.dumpEach xs ts)
  | [], _, _ => nofun
  | x :: xs, ts, hts => by
    rw [dumpEach]
    exact .cons (explains_dump x _ (.headD hts))
      (explains_dumpEach xs _ fun u hu => hts u (List.mem_of_mem_tail hu))

theorem explains_dumpEntries : ∀ (es : List (Value × Value)) (key item : Option TypeExpr),
    s.AllDeclared key → s.AllDeclared item →
    ExplainsEntries s.ModelObstacle (fun _ => true) es (s.dumpEntries es key item)
  | [], _, _, _, _ => trivial
  | (k, v) :: es, key, item, hkey, hitem => by
    rw [dumpEntries]
    refine .cons ?_ (explains_dump v _ hitem) (explains_dumpEntries es _ _ hkey hitem)
    split
    · exact explains_dump k _ hkey
    · nofun

theorem explains_dumpAttributes : ∀ (as : List (String × Value)) {layout : Layout},
    (∀ name key t, layout name = some (key, t) → s.AllDeclared t) →
    ∀ o ∈ s.dumpAttributes as layout, ∃ a ∈ as,
      Explains s.ModelObstacle (fun _ => true) a.2 o.2
  | [], _, _, _, ho => by
    rw [dumpAttributes] at ho
    cases ho
  | (name, v) :: as, layout, hlayout, o, ho => by
    rw [dumpAttributes] at ho
    split at ho
    · rename_i key t hplace
      rcases List.mem_cons.mp ho with rfl | ho
      · exact ⟨(name, v), List.mem_cons_self, explains_dump v t (hlayout _ _ _ hplace)⟩
      · obtain ⟨a, ha, hexplains⟩ := explains_dumpAttributes as hlayout o ho
        exact ⟨a, List.mem_cons_of_mem _ ha, hexplains⟩
    · obtain ⟨a, ha, hexplains⟩ := explains_dumpAttributes as hlayout o ho
      exact ⟨a, List.mem_cons_of_mem _ ha, hexplains⟩

end

/-! ## Values that cannot be stored -/

/-- A record or a model with something in it that keeps it from being taken apart, and the fault. -/
inductive Resists (s : Schema) (fault : Fault) : Value → Prop
  | record {kind : EntityKind} {own : String} {as : List (String × Value)} :
      s.isRecord own = true → (Value.entity kind own as).HasPart (s.RecordObstacle fault) →
      Resists s fault (.entity kind own as)
  | model {kind : EntityKind} {own : String} {as : List (String × Value)} :
      s.isModel own = true → (Value.entity kind own as).HasPart (s.ModelObstacle fault) →
      Resists s fault (.entity kind own as)

/-- What a value holds that cannot be stored: an entity that cannot be taken apart or, within a
model, what cannot be taken apart with the model. -/
def Hinders (s : Schema) (isInModel : Bool) (fault : Fault) (v : Value) : Prop :=
  v.HasPart (s.Resists fault) ∨ isInModel = true ∧ v.HasPart (s.ModelObstacle fault)

variable {isInModel : Bool} {fault : Fault}

theorem Hinders.of_mem {x v : Value} (h : s.Hinders isInModel fault x) (hx : x ∈ v.parts) :
    s.Hinders isInModel fault v :=
  h.imp (·.of_mem hx) (And.imp_right (·.of_mem hx))

/-- What stands in no model anymore may stand in a model again. -/
theorem Hinders.outside {v : Value} (h : s.Hinders false fault v) : s.Hinders isInModel fault v :=
  .inl (h.resolve_right nofun)

theorem checkAttributes_eq (as : List (String × Value)) (isInModel : Bool) (layout : Layout) :
    s.checkAttributes as isInModel layout = writtenOutcomes (s.checkAs · isInModel ·) layout as := by
  induction as with
  | nil => rfl
  | cons a as ih =>
    rw [checkAttributes, writtenOutcomes, List.filterMap_cons]
    cases layout a.1 with
    | none => exact ih
    | some place => exact congrArg _ ih

/-- An entity that is not taken apart by itself stands in a model, or it is a plain one. -/
theorem resists_of_enter {kind : EntityKind} {own : String} {as : List (String × Value)}
    (h : s.enter isInModel kind own as = .error fault) :
    s.Resists fault (.entity kind own as) := by
  unfold enter at h
  split at h
  · cases h
  split at h
  · rename_i hr
    have hexplains := explains_takeApart (s := s) (.entity kind own as)
    rw [map_eq_error.mp h] at hexplains
    exact .record hr hexplains
  split at h
  · rename_i hm
    have hexplains := explains_dump (s := s) (.entity kind own as) none .none
    rw [map_eq_error.mp h] at hexplains
    exact .model hm hexplains
  · cases h

theorem elementTypes_free {t : Option TypeExpr} (h : isInModel = false → t = none) (v : Value)
    (count : Nat) : isInModel = false → elementTypes count (t.bind (s.writtenAs? · v)) = [] := by
  intro hfalse
  rw [h hfalse]
  rfl

/-- No types are declared for what a record or a plain entity writes by itself. -/
theorem ownLayout_free {own name key : String} {t : Option TypeExpr}
    (hown : s.isRecord own = true ∨ s.isModel own = false)
    (h : s.ownLayout own name = some (key, t)) : t = none := by
  unfold ownLayout at h
  split at h
  · obtain ⟨g, -, heq⟩ := Option.map_eq_some_iff.mp h
    cases heq
    rfl
  · rename_i hr
    rw [if_neg (by simpa using hown.resolve_left hr)] at h
    unfold plainLayout at h
    split at h <;> cases h
    rfl

theorem isModel_of_ownWriter?_eq_none {own : String} (h : s.ownWriter? own = none) :
    s.isModel own = false := by
  unfold ownWriter? at h
  split at h
  · cases h
  split at h
  · cases h
  · rename_i hm
    exact Bool.eq_false_iff.mpr hm

/-- An entity that is not written is a plain one. -/
theorem writer?_eq_none {declared : Option TypeExpr} {own : String}
    (h : s.writer? declared own = none) :
    s.layout declared own = s.ownLayout own ∧ s.isModel own = false := by
  unfold writer? at h
  unfold layout
  split at h
  · split at h
    · cases h
    · rename_i hm
      rw [if_neg hm]
      split at h
      · cases h
      · rename_i hr
        rw [if_neg hr]
        exact ⟨rfl, isModel_of_ownWriter?_eq_none h⟩
  · exact ⟨rfl, isModel_of_ownWriter?_eq_none h⟩

/-- No types are declared for what stands in no model. -/
theorem layout_free {declared : Option TypeExpr} {own : String}
    (hnone : isInModel = false → declared = none)
    (h : s.isWithinModel isInModel declared own = false) {name key : String}
    {t : Option TypeExpr} (ht : s.layout declared own name = some (key, t)) : t = none := by
  cases isInModel with
  | true =>
    have hnot := Option.not_isSome_iff_eq_none.mp (Bool.eq_false_iff.mp h)
    obtain ⟨hlayout, hm⟩ := writer?_eq_none hnot
    exact ownLayout_free (.inr hm) (hlayout ▸ ht)
  | false =>
    rw [hnone rfl] at ht
    refine ownLayout_free ?_ ht
    rw [isWithinModel, if_neg Bool.false_ne_true, Bool.and_eq_false_iff, Bool.not_eq_false'] at h
    exact h

/-- What hinders an entity is missing, or hinders one of its attributes. -/
theorem hinders_entity {declared : Option TypeExpr} {kind : EntityKind} {own : String}
    {as : List (String × Value)} (hdeclared : s.AllDeclared declared)
    (hnone : isInModel = false → declared = none)
    (has : ∀ o ∈ s.checkAttributes as (s.isWithinModel isInModel declared own)
        (s.layout declared own), o.2 = .error fault →
      ∃ a ∈ as, s.Hinders (s.isWithinModel isInModel declared own) fault a.2)
    (h : s.throughFields (s.writer? declared own) (s.checkAttributes as
      (s.isWithinModel isInModel declared own) (s.layout declared own)) = .error fault) :
    s.Hinders isInModel fault (.entity kind own as) := by
  rcases throughFields_error h with ⟨o, ho, hfault⟩ | ⟨rfl, cls, hwriter, g, hg, hlacks⟩
  · obtain ⟨a, ha, hstuck | ⟨hwithin, hobstacle⟩⟩ := has o ho hfault
    · exact .inl (hstuck.of_mem (Value.attribute_mem_parts ha))
    · have hpart : (Value.entity kind own as).HasPart (s.ModelObstacle fault) :=
        hobstacle.of_mem (Value.attribute_mem_parts ha)
      cases isInModel with
      | true => exact .inr ⟨rfl, hpart⟩
      | false =>
        rw [isWithinModel, if_neg Bool.false_ne_true, Bool.and_eq_true] at hwithin
        exact .inl (.here (.model hwithin.2 hpart))
  · rw [checkAttributes_eq] at hlacks
    obtain ⟨hr, hcls, -⟩ := writer?_eq_record hwriter
    have hlookup := lookup_of_writer?_record hwriter hg hlacks
    cases isInModel with
    | true => exact .inr ⟨rfl, .here (.missing hr (hdeclared.writer hwriter) hg hlookup)⟩
    | false =>
      obtain rfl : cls = own := hcls.resolve_right fun hnamed => by
        rw [hnone rfl] at hnamed
        cases hnamed
      exact .inl (.here (.record hr (.here (.missing hr hg hlookup))))

mutual

/-- A value cannot be stored only for a record or a model in it. The types count only within a
model. -/
theorem checkAs_error : ∀ (v : Value) (isInModel : Bool) (t : Option TypeExpr),
    (isInModel = false → t = none) → s.AllDeclared t →
    s.checkAs v isInModel t = .error fault → s.Hinders isInModel fault v
  | .list xs, _, t, hfree, ht, h | .tuple xs, _, t, hfree, ht, h
  | .set xs, _, t, hfree, ht, h => by
    rw [checkAs] at h
    obtain ⟨x, hx, hhinders⟩ := checkEach_error xs _ _ (elementTypes_free hfree _ _)
      ((ht.written _).elements _) h
    exact hhinders.of_mem hx
  | .dict es, _, t, hfree, ht, h => by
    rw [checkAs] at h
    obtain ⟨e, he, hhinders⟩ := checkEntries_error es _ _ (fun hfalse => by rw [hfree hfalse]; rfl)
      (ht.written _).entry h
    exact hhinders.of_mem (Value.value_mem_parts he)
  | .member _ _ _ v, _, t, _, _, h => by
    rw [checkAs] at h
    exact ((checkAs_error v false none (fun _ => rfl) .none h).outside).of_mem
      (List.mem_singleton_self v)
  | .entity kind own as, isInModel, t, hfree, ht, h => by
    rw [checkAs] at h
    have hwritten := ht.written (.entity kind own as)
    have hnone : isInModel = false → t.bind (s.writtenAs? · (.entity kind own as)) = none :=
      fun hfalse => by rw [hfree hfalse, Option.bind_none]
    rcases bind_eq_error.mp h with h | ⟨-, -, h⟩
    · exact .inl (.here (resists_of_enter h))
    · refine hinders_entity hwritten hnone ?_ h
      exact checkAttributes_error as _ _ (fun hfalse _ _ _ => layout_free hnone hfalse)
        fun _ _ _ => .layout _ own
  | .condition path operator operand, isInModel, _, _, _, h => by
    rw [checkAs] at h
    have hpart : ∀ x ∈ [path, operator, operand], s.Hinders false fault x →
        s.Hinders isInModel fault (.condition path operator operand) := fun x hx hhinders =>
      Hinders.of_mem hhinders.outside hx
    rcases bind_eq_error.mp h with h | ⟨-, -, h⟩
    · exact hpart path (by simp) (checkAs_error path false none (fun _ => rfl) .none h)
    rcases bind_eq_error.mp h with h | ⟨-, -, h⟩
    · exact hpart operator (by simp) (checkAs_error operator false none (fun _ => rfl) .none h)
    · exact hpart operand (by simp) (checkAs_error operand false none (fun _ => rfl) .none h)
  | .frozenset _, _, _, _, _, h | .null, _, _, _, _, h | .bool _, _, _, _, _, h
  | .int _, _, _, _, _, h | .double _, _, _, _, _, h | .decimal _, _, _, _, _, h
  | .str _, _, _, _, _, h | .bytes _, _, _, _, _, h | .uuid _, _, _, _, _, h
  | .date _, _, _, _, _, h | .datetime _, _, _, _, _, h | .url _, _, _, _, _, h
  | .field _, _, _, _, _, h | .operation _ _, _, _, _, _, h | .featureless, _, _, _, _, h => by
    cases h

theorem checkEach_error : ∀ (xs : List Value) (isInModel : Bool) (ts : List (Option TypeExpr)),
    (isInModel = false → ts = []) → (∀ u ∈ ts, s.AllDeclared u) →
    s.checkEach xs isInModel ts = .error fault → ∃ x ∈ xs, s.Hinders isInModel fault x
  | [], _, _, _, _, h => by cases h
  | x :: xs, isInModel, ts, hfree, hts, h => by
    rw [checkEach] at h
    rcases bind_eq_error.mp h with h | ⟨-, -, h⟩
    · exact ⟨x, List.mem_cons_self,
        checkAs_error x isInModel _ (fun hfalse => by rw [hfree hfalse]; rfl) (.headD hts) h⟩
    · obtain ⟨y, hy, hhinders⟩ := checkEach_error xs isInModel _
        (fun hfalse => by rw [hfree hfalse]; rfl) (fun u hu => hts u (List.mem_of_mem_tail hu)) h
      exact ⟨y, List.mem_cons_of_mem _ hy, hhinders⟩

theorem checkEntries_error : ∀ (es : List (Value × Value)) (isInModel : Bool)
    (t : Option TypeExpr), (isInModel = false → t = none) → s.AllDeclared t →
    s.checkEntries es isInModel t = .error fault → ∃ e ∈ es, s.Hinders isInModel fault e.2
  | [], _, _, _, _, h => by cases h
  | (k, v) :: es, isInModel, t, hfree, ht, h => by
    rw [checkEntries] at h
    rcases bind_eq_error.mp h with h | ⟨-, -, h⟩
    · exact ⟨(k, v), List.mem_cons_self, checkAs_error v isInModel t hfree ht h⟩
    · obtain ⟨e, he, hhinders⟩ := checkEntries_error es isInModel t hfree ht h
      exact ⟨e, List.mem_cons_of_mem _ he, hhinders⟩

theorem checkAttributes_error : ∀ (as : List (String × Value)) (isInModel : Bool)
    (layout : Layout),
    (isInModel = false → ∀ name key t, layout name = some (key, t) → t = none) →
    (∀ name key t, layout name = some (key, t) → s.AllDeclared t) →
    ∀ o ∈ s.checkAttributes as isInModel layout, o.2 = .error fault →
      ∃ a ∈ as, s.Hinders isInModel fault a.2
  | [], _, _, _, _, _, ho, _ => by
    rw [checkAttributes] at ho
    cases ho
  | (name, v) :: as, isInModel, layout, hfree, hlayout, o, ho, hfault => by
    rw [checkAttributes] at ho
    split at ho
    · rename_i key t hplace
      rcases List.mem_cons.mp ho with rfl | ho
      · exact ⟨(name, v), List.mem_cons_self, checkAs_error v isInModel t
          (fun hfalse => hfree hfalse _ _ _ hplace) (hlayout _ _ _ hplace) hfault⟩
      · obtain ⟨a, ha, hhinders⟩ :=
          checkAttributes_error as isInModel layout hfree hlayout o ho hfault
        exact ⟨a, List.mem_cons_of_mem _ ha, hhinders⟩
    · obtain ⟨a, ha, hhinders⟩ :=
        checkAttributes_error as isInModel layout hfree hlayout o ho hfault
      exact ⟨a, List.mem_cons_of_mem _ ha, hhinders⟩

end

/-- A value that cannot be stored holds a record or a model that cannot be taken apart. -/
theorem hasPart_of_prepare_error {v : Value} (h : s.prepare v = .error fault) :
    v.HasPart (s.Resists fault) :=
  (checkAs_error v false none (fun _ => rfl) .none (map_eq_error.mp h)).resolve_right nofun

/-! ## Values that can be stored -/

theorem prepare_eq_ok {v d : Value} (h : s.prepare v = .ok d) : d = s.prepareAs v none := by
  obtain ⟨-, -, rfl⟩ := map_eq_ok.mp h
  rfl

/-- What stands in the way neither by itself nor as a key: neither a record nor a plain entity, no
set, and no object with an entity for a key. -/
def IsEasy (s : Schema) : Value → Prop
  | .entity _ own _ => s.isModel own = true ∧ s.isRecord own = false
  | .dict es => ∀ e ∈ es, e.1.holdsEntity (fun _ => true) = false
  | .set _ | .frozenset _ => False
  | _ => True

/-- All parts of a value are easy if it is, and all parts of its parts are. -/
theorem isEasy_of_parts {v : Value} (hv : s.IsEasy v)
    (hparts : ∀ x ∈ v.parts, ∀ part : Value, part.PartOf x → s.IsEasy part) :
    ∀ part : Value, part.PartOf v → s.IsEasy part := by
  intro part hpart
  rcases hpart.cases_tail with rfl | ⟨x, hx, hmem⟩
  · exact hv
  · exact hparts x hmem part hx

/-- Where all parts are easy, nothing stands in the way. -/
theorem prepare_of_isEasy {v : Value} (h : ∀ part : Value, part.PartOf v → s.IsEasy part) :
    s.prepare v = .ok (s.prepareAs v none) := by
  cases hprepare : s.prepare v with
  | ok d =>
    rw [prepare_eq_ok hprepare]
  | error fault =>
    obtain ⟨e, he, hresists⟩ := hasPart_of_prepare_error hprepare
    have heasy := h e he
    cases hresists with
    | record hr => exact absurd hr (by simp [heasy.2])
    | model _ hpart =>
      obtain ⟨part, hpart, hobstacle⟩ := hpart
      have heasy := h part (hpart.trans he)
      cases hobstacle with
      | missing hr => exact absurd hr (by simp [heasy.2])
      | key hmem hholds => exact absurd hholds (by simp [heasy _ hmem])
      | element => exact heasy.elim
      | frozenElement => exact heasy.elim

/-- A record that opens to an object with a record for a key cannot be stored. -/
theorem prepare_fails {kind : EntityKind} {own : String} {as : List (String × Value)} {es : Entries}
    {e : Value × Value} (hr : s.isRecord own = true)
    (hopens : s.Opens (.dict es) (.entity kind own as)) (he : e ∈ es)
    (hholds : e.1.holdsEntity s.isRecord = true) : Fails (s.prepare (.entity kind own as)) := by
  obtain ⟨fault, hfault⟩ := takeApart_fails hopens he hholds
  refine Fails.map ⟨fault, ?_⟩ _
  rw [checkAs, enter, if_neg Bool.false_ne_true, if_pos hr, hfault]
  rfl

end Schema

end TypedSearch
