import TypedSearch.Proofs.Spellings

/-!
# Models in other spellings

Two models that are spelled alike give one answer to whatever does not come to an overlooked type:
the kinds of fields whose holders are not overlooked, the walks that meet no overlooked type, and
the mapping, if no field is overlooked. Where one of them does come to an overlooked type, nothing
is known there: the kind is left to the markers, and the walk ends with a fault of the path.

* `Schema.SpelledAlike`: the two schemas describe the same classes, in other spellings.
* `Schema.spelledAlike_of_declared`: schemas whose declared types are spelled alike.
* `Schema.classify_spelledAlike`: kinds.
* `Schema.Overlooks`, `Schema.walkFrom_of_overlooks`, `Schema.walkFrom_spelledAlike`: walks.
* `Schema.mapping_spelledAlike`: mappings.
* `Schema.respelled_agrees`: **what a spelling changes.**
-/

namespace TypedSearch

open Text

/-- The field with its type spelled out. -/
def FieldDecl.spelledOut (f : FieldDecl TypeExpr) : FieldDecl TypeExpr :=
  { f with type := f.type.spelledOut }

/-- The class with the types of its fields spelled out. -/
def ClassDecl.spelledOut (c : ClassDecl TypeExpr) : ClassDecl TypeExpr :=
  { c with fields := c.fields.map FieldDecl.spelledOut }

namespace TypeExpr

variable {t u : TypeExpr}

/-! ## Wrappers of types that are spelled alike -/

theorem SpelledAlike.unwrap (h : t.SpelledAlike u) (ht : t.stripped.isOverlooked = false)
    (hu : u.stripped.isOverlooked = false) :
    t.stripped.SpelledAlike u.stripped ∧ t.unwrap.2 = u.unwrap.2 := by
  have hunwrap := congrArg TypeExpr.unwrap h
  rw [unwrap_spelledOut t ht, unwrap_spelledOut u hu, Prod.mk.injEq] at hunwrap
  exact hunwrap

theorem SpelledAlike.item? (h : t.SpelledAlike u) :
    t.item?.map spelledOut = u.item?.map spelledOut := by
  rw [← item?_spelledOut, ← item?_spelledOut, h]

theorem SpelledAlike.holder (h : t.SpelledAlike u) (ht : t.holder.isOverlooked = false)
    (hu : u.holder.isOverlooked = false) : t.holder.SpelledAlike u.holder := by
  unfold SpelledAlike
  rw [← holder_spelledOut ht, ← holder_spelledOut hu, h]

theorem SpelledAlike.core (h : t.SpelledAlike u) (ht : t.core.isOverlooked = false)
    (hu : u.core.isOverlooked = false) : t.core.SpelledAlike u.core := by
  unfold SpelledAlike
  rw [← core_spelledOut t ht, ← core_spelledOut u hu, h]

/-- What is spelled as a type that is not made of others is that type. -/
theorem SpelledAlike.eq_iff {v : TypeExpr} (h : t.SpelledAlike u) (hv : v.isMade = false) :
    t = v ↔ u = v := by
  constructor
  · rintro rfl
    exact (h.eq_of_not_isMade hv).symm
  · rintro rfl
    exact (SpelledAlike.eq_of_not_isMade h.symm hv).symm

end TypeExpr

namespace Schema

variable {s s' : Schema} {naming : Option Naming} {t u : TypeExpr}

/-! ## Schemas that are spelled alike -/

/-- The declared classes with the types of their fields spelled out. -/
def spelledOut (s : Schema) : Schema :=
  ⟨s.classes.map ClassDecl.spelledOut, s.enumerations, [], s.conversion⟩

/-- The fields of a class with their types spelled out. -/
def spelledHints (hs : List (String × TypeExpr)) : List (String × TypeExpr) :=
  hs.map fun h => (h.1, h.2.spelledOut)

/-- The two schemas describe the same classes with the same fields; the types of the fields may be
spelled in other ways. -/
structure SpelledAlike (s s' : Schema) : Prop where
  structured : ∀ t, s.isStructured t = s'.isStructured t
  enumerated : ∀ t, s.isEnumeration t = s'.isEnumeration t
  stored : ∀ cls name, s.alias? cls name = s'.alias? cls name
  classes : s.classNames = s'.classNames
  typed : ∀ cls, (s.hints cls).map spelledHints = (s'.hints cls).map spelledHints

/-! ## Declared classes -/

theorem lineageIn_spelledOut (classes : List (ClassDecl TypeExpr)) (cls : String) :
    lineageIn (classes.map ClassDecl.spelledOut) cls =
      (lineageIn classes cls).map ClassDecl.spelledOut := by
  induction classes generalizing cls with
  | nil => rfl
  | cons c classes ih =>
    have hname : c.spelledOut.name = c.name := rfl
    have hparent : c.spelledOut.parent = c.parent := rfl
    rw [List.map_cons, lineageIn, lineageIn, hname, hparent]
    split
    · cases c.parent with
      | none => rfl
      | some parent =>
        dsimp only
        rw [ih, List.map_append]
        rfl
    · exact ih cls

theorem isModel_spelledOut (s : Schema) (cls : String) :
    s.spelledOut.isModel cls = s.isModel cls := by
  change (lineageIn (s.classes.map ClassDecl.spelledOut) cls).any _ = _
  rw [lineageIn_spelledOut, List.any_map]
  rfl

theorem isRecord_spelledOut (s : Schema) (cls : String) :
    s.spelledOut.isRecord cls = s.isRecord cls := by
  change (lineageIn (s.classes.map ClassDecl.spelledOut) cls).any _ = _
  rw [lineageIn_spelledOut, List.any_map]
  rfl

theorem classNames_spelledOut (s : Schema) : s.spelledOut.classNames = s.classNames := by
  unfold classNames spelledOut
  rw [List.map_map]
  rfl

theorem isStructured_spelledOut (s : Schema) (t : TypeExpr) :
    s.spelledOut.isStructured t = s.isStructured t := by
  cases t with
  | named cls =>
    have hclass : s.spelledOut.class? cls = (s.class? cls).map ClassDecl.spelledOut :=
      List.find?_map
    cases hfound : s.class? cls with
    | none => simp only [isStructured, hclass, hfound, Option.map_none]
    | some c =>
      have hfields : c.spelledOut.fields.isEmpty = c.fields.isEmpty := List.isEmpty_map
      simp only [isStructured, hclass, hfound, Option.map_some, isModel_spelledOut,
        isRecord_spelledOut, hfields]
  | _ => rfl

theorem foldl_overriding_spelledOut (fs kept : List (FieldDecl TypeExpr)) :
    (fs.map FieldDecl.spelledOut).foldl overriding (kept.map FieldDecl.spelledOut) =
      (fs.foldl overriding kept).map FieldDecl.spelledOut := by
  have hone (kept : List (FieldDecl TypeExpr)) (f : FieldDecl TypeExpr) :
      overriding (kept.map FieldDecl.spelledOut) f.spelledOut =
        (overriding kept f).map FieldDecl.spelledOut := by
    have hany : ((kept.map FieldDecl.spelledOut).any fun g => g.name == f.spelledOut.name) =
        kept.any fun g => g.name == f.name := List.any_map
    unfold overriding
    rw [hany]
    split
    · rw [List.map_map, List.map_map]
      refine List.map_congr_left fun g _ => ?_
      change (if g.name == f.name then f.spelledOut else g.spelledOut) = _
      rw [Function.comp_apply]
      split <;> rfl
    · rw [List.map_append]
      rfl
  induction fs generalizing kept with
  | nil => rfl
  | cons f fs ih => rw [List.map_cons, List.foldl_cons, List.foldl_cons, hone, ih]

theorem annotations_spelledOut (s : Schema) (cls : String) :
    s.spelledOut.annotations cls = (s.annotations cls).map FieldDecl.spelledOut := by
  have hfields : (s.spelledOut.lineage cls).flatMap (·.fields) =
      ((s.lineage cls).flatMap (·.fields)).map FieldDecl.spelledOut := by
    unfold lineage
    change (lineageIn (s.classes.map ClassDecl.spelledOut) cls).flatMap (·.fields) = _
    rw [lineageIn_spelledOut, List.flatMap_map, List.map_flatMap]
    rfl
  unfold annotations
  rw [hfields]
  exact foldl_overriding_spelledOut _ []

theorem isConstant_spelledOut (t : TypeExpr) : isConstant t.spelledOut = isConstant t := by
  cases t <;> rfl

theorem modelFields_spelledOut (s : Schema) (cls : String) :
    s.spelledOut.modelFields cls = (s.modelFields cls).map FieldDecl.spelledOut := by
  unfold modelFields
  rw [annotations_spelledOut, List.filter_map]
  refine congrArg _ (List.filter_congr fun f _ => ?_)
  obtain ⟨name, type, fallback, common, stored, read⟩ := f
  cases type <;> rfl

theorem alias?_spelledOut (s : Schema) (cls name : String) :
    s.spelledOut.alias? cls name = s.alias? cls name := by
  unfold alias?
  rw [isModel_spelledOut, modelFields_spelledOut, List.find?_map, Option.bind_map]
  rfl

/-- Every declared type is resolved: it names no class that is declared later. -/
def IsSettled (s : Schema) : Prop :=
  ∀ c ∈ s.classes, ∀ f ∈ c.fields, f.type.resolve s.isDeclared = .ok f.type

/-- The fields of a class as their types are declared. -/
def declaredHints (s : Schema) (cls : String) : List (String × TypeExpr) :=
  if s.isModel cls then (s.modelFields cls).map fun f => (f.name, f.type)
  else ((s.annotations cls).filter fun f => !isPrivate f.name && !isConstant f.type).map
    fun f => (f.name, f.type)

theorem declaredHints_spelledOut (s : Schema) (cls : String) :
    s.spelledOut.declaredHints cls = spelledHints (s.declaredHints cls) := by
  unfold declaredHints spelledHints
  rw [isModel_spelledOut, modelFields_spelledOut, annotations_spelledOut]
  split
  · rw [List.map_map, List.map_map]
    rfl
  · rw [List.filter_map, List.map_map, List.map_map]
    refine congrArg _ (List.filter_congr fun f _ => ?_)
    change (!isPrivate f.name && !isConstant f.type.spelledOut) = _
    rw [isConstant_spelledOut]

theorem mem_of_mem_lineageIn {classes : List (ClassDecl TypeExpr)} {cls : String}
    {c : ClassDecl TypeExpr} (h : c ∈ lineageIn classes cls) : c ∈ classes := by
  induction classes generalizing cls with
  | nil => exact h
  | cons d classes ih =>
    rw [lineageIn] at h
    split at h
    · split at h
      · rcases List.mem_append.mp h with hold | hlast
        · exact List.mem_cons_of_mem _ (ih hold)
        · exact List.mem_singleton.mp hlast ▸ List.mem_cons_self
      · exact List.mem_singleton.mp h ▸ List.mem_cons_self
    · exact List.mem_cons_of_mem _ (ih h)

theorem mem_of_mem_foldl_overriding {fs kept : List (FieldDecl TypeExpr)} {f : FieldDecl TypeExpr}
    (h : f ∈ fs.foldl overriding kept) : f ∈ fs ∨ f ∈ kept := by
  induction fs generalizing kept with
  | nil => exact .inr h
  | cons g fs ih =>
    rcases ih h with hrest | hkept
    · exact .inl (List.mem_cons_of_mem _ hrest)
    · unfold overriding at hkept
      split at hkept
      · obtain ⟨k, hk, heq⟩ := List.mem_map.mp hkept
        split at heq
        · exact .inl (heq ▸ List.mem_cons_self)
        · exact .inr (heq ▸ hk)
      · rcases List.mem_append.mp hkept with hk | hlast
        · exact .inr hk
        · exact .inl (List.mem_singleton.mp hlast ▸ List.mem_cons_self)

/-- What a class annotates is a field of a declared class. -/
theorem mem_of_mem_annotations {cls : String} {f : FieldDecl TypeExpr}
    (h : f ∈ s.annotations cls) : ∃ c ∈ s.classes, f ∈ c.fields := by
  rcases mem_of_mem_foldl_overriding h with hmem | hnone
  · obtain ⟨c, hc, hf⟩ := List.mem_flatMap.mp hmem
    exact ⟨c, mem_of_mem_lineageIn hc, hf⟩
  · cases hnone

theorem resolveFields_of_resolved {fs : List (FieldDecl TypeExpr)}
    (h : ∀ f ∈ fs, f.type.resolve s.isDeclared = .ok f.type) : resolveFields s fs = .ok fs := by
  induction fs with
  | nil => rfl
  | cons f fs ih =>
    obtain ⟨hf, hfs⟩ := List.forall_mem_cons.mp h
    rw [resolveFields, hf, ih hfs]
    rfl

/-- The fields of a class are read as they are declared. -/
theorem hints_of_isSettled (h : s.IsSettled) (cls : String) :
    s.hints cls = .ok (s.declaredHints cls) := by
  have hlineage : ∀ f ∈ (s.lineage cls).flatMap (·.fields),
      f.type.resolve s.isDeclared = .ok f.type := by
    intro f hf
    obtain ⟨c, hc, hmem⟩ := List.mem_flatMap.mp hf
    exact h c (mem_of_mem_lineageIn hc) f hmem
  have hmodel : resolveFields s (s.modelFields cls) = .ok (s.modelFields cls) := by
    refine resolveFields_of_resolved fun f hf => ?_
    obtain ⟨c, hc, hmem⟩ := mem_of_mem_annotations (List.mem_filter.mp hf).1
    exact h c hc f hmem
  unfold hints declaredHints settledFields resolvedAnnotations
  rw [hmodel, resolveFields_of_resolved hlineage]
  dsimp only
  split <;> rfl

/-- Schemas with the same classes, whose declared types are spelled alike and resolved, are spelled
alike. -/
theorem spelledAlike_of_declared (h : s.spelledOut = s'.spelledOut) (hs : s.IsSettled)
    (hs' : s'.IsSettled) : s.SpelledAlike s' where
  structured t := by rw [← isStructured_spelledOut, ← isStructured_spelledOut s', h]
  enumerated t := by
    have henumerations : s.spelledOut.enumerations = s'.spelledOut.enumerations := by rw [h]
    cases t with
    | named cls =>
      change ((s.spelledOut.enumerations.find? _).isSome) = _
      rw [henumerations]
      rfl
    | _ => rfl
  stored cls name := by rw [← alias?_spelledOut, ← alias?_spelledOut s', h]
  classes := by rw [← classNames_spelledOut, ← classNames_spelledOut s', h]
  typed cls := by
    rw [hints_of_isSettled hs, hints_of_isSettled hs']
    change Except.ok (spelledHints _) = Except.ok (spelledHints _)
    rw [← declaredHints_spelledOut, ← declaredHints_spelledOut, h]

/-! ## Kinds -/

theorem isStructured_spelledAlike (h : s.SpelledAlike s') (ht : t.SpelledAlike u) :
    s.isStructured t = s'.isStructured u := by
  cases hmade : t.isMade with
  | false => rw [← ht.eq_of_not_isMade hmade, h.structured]
  | true => rw [isStructured_of_isMade hmade, isStructured_of_isMade (ht.isMade ▸ hmade)]

theorem kindOf_spelledAlike (h : s.SpelledAlike s') (halike : t.SpelledAlike u)
    (ht : t.isOverlooked = false) (hu : u.isOverlooked = false) (markers : List Marker) :
    s.kindOf markers t = s'.kindOf markers u := by
  rcases halike.cases ht hu with rfl | ⟨hmade, hdict, hmade', hdict'⟩ | ⟨c, as, bs, rfl, rfl, -, -⟩
  · simp only [kindOf, h.structured, h.enumerated]
  · rw [kindOf_of_isMade hmade hdict, kindOf_of_isMade hmade' hdict']
  · rfl

/-- Types that are spelled alike are of one kind if neither of them has an overlooked holder. -/
theorem classify_spelledAlike (h : s.SpelledAlike s') (halike : t.SpelledAlike u)
    (ht : t.holder.isOverlooked = false) (hu : u.holder.isOverlooked = false) :
    s.classify t = s'.classify u := by
  obtain ⟨hbare, hmarkers⟩ := halike.unwrap (TypeExpr.stripped_isOverlooked ht)
    (TypeExpr.stripped_isOverlooked hu)
  have hitems := hbare.item?
  cases hitem : t.stripped.item? with
  | none =>
    rw [hitem] at hitems
    have hitem' : u.stripped.item? = none := Option.map_eq_none_iff.mp hitems.symm
    rw [TypeExpr.holder_of_item?_none hitem] at ht
    rw [TypeExpr.holder_of_item?_none hitem'] at hu
    rw [classify_of_item?_none hitem, classify_of_item?_none hitem', hmarkers]
    exact kindOf_spelledAlike h hbare ht hu _
  | some item =>
    rw [hitem] at hitems
    obtain ⟨item', hitem', halike'⟩ := Option.map_eq_some_iff.mp hitems.symm
    have hinner : item.SpelledAlike item' := halike'.symm
    rw [TypeExpr.holder_of_item? hitem] at ht
    rw [TypeExpr.holder_of_item? hitem'] at hu
    obtain ⟨hinnerbare, hinnermarkers⟩ := hinner.unwrap ht hu
    rw [classify_of_item? hitem, classify_of_item? hitem', hmarkers, hinnermarkers,
      isStructured_spelledAlike h hinnerbare, kindOf_spelledAlike h hinnerbare ht hu]

theorem structuredClass?_spelledAlike (h : s.SpelledAlike s') (halike : t.SpelledAlike u)
    (ht : t.holder.isOverlooked = false) (hu : u.holder.isOverlooked = false) :
    s.structuredClass? t = s'.structuredClass? u := by
  refine Option.ext fun cls => ?_
  rw [structuredClass?_eq_some_iff, structuredClass?_eq_some_iff,
    (halike.holder ht hu).eq_iff rfl, h.structured]

/-! ## Steps -/

/-- Where a step leads, with types spelled out. -/
def Step.spelledOut : Step → Step
  | .anything => .anything
  | .into t wire => .into t.spelledOut wire

theorem wireName_spelledAlike (h : s.SpelledAlike s') (cls name : String) :
    s.wireName naming cls name = s'.wireName naming cls name := by
  unfold wireName
  rw [h.stored]

theorem lookup_spelledHints (hs : List (String × TypeExpr)) (name : String) :
    (spelledHints hs).lookup name = (hs.lookup name).map TypeExpr.spelledOut := by
  induction hs with
  | nil => rfl
  | cons hint hs ih =>
    obtain ⟨given, t⟩ := hint
    rw [spelledHints] at ih ⊢
    rw [List.map_cons, List.lookup_cons, List.lookup_cons]
    cases name == given
    · exact ih
    · rfl

/-- The same class has the same fields in both schemas, or they cannot be read in either. -/
theorem hints_spelledAlike_cases (h : s.SpelledAlike s') (cls : String) :
    (∃ e, s.hints cls = .error e ∧ s'.hints cls = .error e) ∨
      ∃ hs hs', s.hints cls = .ok hs ∧ s'.hints cls = .ok hs' ∧
        ∀ name, (hs.lookup name).map TypeExpr.spelledOut =
          (hs'.lookup name).map TypeExpr.spelledOut := by
  rcases map_eq_map (h.typed cls) with hfails | ⟨hs, hs', hok, hok', halike⟩
  · exact .inl hfails
  · refine .inr ⟨hs, hs', hok, hok', fun name => ?_⟩
    rw [← lookup_spelledHints, ← lookup_spelledHints, halike]

theorem isDeadEnd_of_isMade (h : t.isMade = true) (hdict : t.isDict = false) :
    t.isDeadEnd = true := by
  unfold TypeExpr.isDeadEnd
  split
  · cases h
  · cases h
  · cases h
  · rw [hdict]
    rfl

/-- The outcome of a step or a walk up to what is said about a fault of the path. -/
def outcome {α β : Type} (f : α → β) (x : Except (PathFault ⊕ Fault) α) :
    Except (Option Fault) β :=
  (placeless x).map f

/-- A step in an object with arbitrary keys leads to its values. -/
theorem step_dict {c : Container} {args : List TypeExpr} (hcore : t.core = .apply c args)
    (hc : c.isDict = true) (before : List String) (segment : String) :
    s.step naming before t segment =
      if isDigits segment then .error (.inl (.positional segment (join "." (before ++ [segment]))))
      else match (TypeExpr.apply c args).dictArgs? with
        | some (.basic .text, v) => .ok (.into v segment)
        | some (k, _) => .error (.inl (.dictKey (join "." (before ++ [segment])) k.name))
        | none => .ok (.into .any segment) := by
  have hdict : (TypeExpr.apply c args).isDict = true := hc
  unfold step
  rw [hcore]
  dsimp only
  rw [hdict]
  rfl

/-- A step in a class leads to the type of a field. -/
theorem step_spelledAlike_named (h : s.SpelledAlike s') {cls : String} (ht : t.core = .named cls)
    (hu : u.core = .named cls) (before others : List String) (segment : String) :
    outcome Step.spelledOut (s.step naming before t segment) =
      outcome Step.spelledOut (s'.step naming others u segment) := by
  have hdict : (TypeExpr.named cls).isDict = false := rfl
  unfold step
  rw [ht, hu]
  dsimp only
  rw [hdict, h.structured]
  split
  · rfl
  · rw [if_neg Bool.false_ne_true, if_neg Bool.false_ne_true]
    split
    · rcases hints_spelledAlike_cases h cls with ⟨e, hs, hs'⟩ | ⟨hs, hs', hhs, hhs', hlookup⟩
      · rw [hs, hs']
      · rw [hhs, hhs']
        dsimp only
        specialize hlookup segment
        cases hfound : hs.lookup segment with
        | none =>
          rw [hfound] at hlookup
          rw [Option.map_eq_none_iff.mp hlookup.symm]
          rfl
        | some next =>
          rw [hfound] at hlookup
          obtain ⟨next', hfound', halike⟩ := Option.map_eq_some_iff.mp hlookup.symm
          rw [hfound', wireName_spelledAlike h]
          dsimp only
          split
          · rfl
          · change Except.ok (Step.into next.spelledOut _) = Except.ok (.into next'.spelledOut _)
            rw [halike]
    · rfl

/-- From types that are spelled alike a step leads to types that are spelled alike, if the walk is
not at an overlooked type. -/
theorem step_spelledAlike (h : s.SpelledAlike s') (halike : t.SpelledAlike u)
    (ht : t.core.isOverlooked = false) (hu : u.core.isOverlooked = false)
    (before others : List String) (segment : String) :
    outcome Step.spelledOut (s.step naming before t segment) =
      outcome Step.spelledOut (s'.step naming others u segment) := by
  rcases (halike.core ht hu).cases ht hu with hcore | ⟨hmade, hdict, hmade', hdict'⟩ |
      ⟨c, as, bs, hcore, hcore', hc, hargs⟩
  · by_cases hnamed : ∃ cls, t.core = .named cls
    · obtain ⟨cls, hcls⟩ := hnamed
      exact step_spelledAlike_named h hcls (hcore ▸ hcls) before others segment
    · -- no other type is looked up in the schema
      unfold step
      rw [← hcore]
      revert hnamed
      generalize t.core = core
      intro hnamed
      dsimp only
      split
      · rfl
      · split
        · rfl
        · rfl
        · split
          · split <;> rfl
          · split
            · rfl
            · exact absurd ⟨_, rfl⟩ hnamed
            · rfl
  · obtain ⟨fault, hstep⟩ : ∃ fault, s.step naming before t segment = .error (.inl fault) :=
      step_of_isDeadEnd (isDeadEnd_of_isMade hmade hdict) before segment
    obtain ⟨fault', hstep'⟩ : ∃ fault, s'.step naming others u segment = .error (.inl fault) :=
      step_of_isDeadEnd (isDeadEnd_of_isMade hmade' hdict') others segment
    rw [hstep, hstep']
    rfl
  · rw [step_dict hcore hc, step_dict hcore' hc]
    split
    · rfl
    · match as, bs, hargs with
      | [], [], _ => rfl
      | [_], [_], _ => rfl
      | [k, v], [k', v'], .cons hk (.cons hv .nil) =>
        by_cases hkey : k = .basic .text
        · rw [hkey, (hk.eq_iff rfl).mp hkey]
          change Except.ok (Step.into v.spelledOut _) = Except.ok (.into v'.spelledOut _)
          rw [hv]
        · have hkey' : k' ≠ .basic .text := fun heq => hkey ((hk.eq_iff rfl).mpr heq)
          simp only [TypeExpr.dictArgs?]
          rfl
      | _ :: _ :: _ :: _, _ :: _ :: _ :: _, _ => rfl

/-! ## Walks -/

/-- The walk comes to an overlooked type with segments still to go. -/
inductive Overlooks (s : Schema) (naming : Option Naming) : TypeExpr → List String → Prop
  | here {t : TypeExpr} {segment : String} {rest : List String} :
      t.core.isOverlooked = true → Overlooks s naming t (segment :: rest)
  | later {t next : TypeExpr} {before rest : List String} {segment wire : String} :
      s.step naming before t segment = .ok (.into next wire) → Overlooks s naming next rest →
      Overlooks s naming t (segment :: rest)

theorem step_ok_anywhere {before : List String} {segment : String} {next : Step}
    (h : s.step naming before t segment = .ok next) (others : List String) :
    s.step naming others t segment = .ok next := by
  have hstep : placeless (s.step naming before t segment) =
      placeless (s.step naming others t segment) := step_placeless rfl before others segment
  rw [h] at hstep
  cases hother : s.step naming others t segment with
  | error e =>
    rw [hother] at hstep
    cases hstep
  | ok next' =>
    rw [hother] at hstep
    cases hstep
    rfl

/-- A walk that comes to an overlooked type ends there. -/
theorem walkFrom_of_overlooks {segments : List String} (h : s.Overlooks naming t segments)
    (before : List String) :
    ∃ fault, s.walkFrom naming before t segments = .error (.inl fault) := by
  induction h generalizing before with
  | here hover =>
    exact walkFrom_of_isDeadEnd (TypeExpr.isDeadEnd_of_isOverlooked hover) before
      (List.cons_ne_nil _ _)
  | later hstep _ ih =>
    rw [walkFrom_cons_into (step_ok_anywhere hstep before)]
    obtain ⟨fault, hwalk⟩ := ih (before ++ [_])
    exact ⟨fault, by rw [hwalk]; rfl⟩

/-- The end of a walk, with its type spelled out. -/
def spelledEnd (r : TypeExpr × List String) : TypeExpr × List String := (r.1.spelledOut, r.2)

theorem outcome_cons (x : Except (PathFault ⊕ Fault) (TypeExpr × List String)) (wire : String) :
    outcome spelledEnd (x.map fun r => (r.1, wire :: r.2)) =
      (outcome spelledEnd x).map fun r => (r.1, wire :: r.2) := by
  cases x <;> rfl

/-- Walks from types that are spelled alike, which meet no overlooked type, come to the same stored
names and to types that are spelled alike, or to the same kind of fault. -/
theorem walkFrom_spelledAlike (h : s.SpelledAlike s') (halike : t.SpelledAlike u)
    {segments : List String} (ht : ¬s.Overlooks naming t segments)
    (hu : ¬s'.Overlooks naming u segments) (before others : List String) :
    outcome spelledEnd (s.walkFrom naming before t segments) =
      outcome spelledEnd (s'.walkFrom naming others u segments) := by
  induction segments generalizing t u before others with
  | nil =>
    change Except.ok (t.spelledOut, []) = Except.ok (u.spelledOut, [])
    rw [halike]
  | cons segment rest ih =>
    have htcore : t.core.isOverlooked = false := Bool.eq_false_iff.mpr fun hover => ht (.here hover)
    have hucore : u.core.isOverlooked = false := Bool.eq_false_iff.mpr fun hover => hu (.here hover)
    have hstep : outcome Step.spelledOut (s.step naming before t segment) =
        outcome Step.spelledOut (s'.step naming others u segment) :=
      step_spelledAlike h halike htcore hucore before others segment
    cases hs : s.step naming before t segment with
    | error e =>
      rw [hs] at hstep
      cases hs' : s'.step naming others u segment with
      | error e' =>
        rw [hs'] at hstep
        rw [walkFrom, walkFrom, hs, hs']
        exact congrArg Except.error (Except.error.inj hstep)
      | ok next' =>
        rw [hs'] at hstep
        cases hstep
    | ok next =>
      rw [hs] at hstep
      cases hs' : s'.step naming others u segment with
      | error e' =>
        rw [hs'] at hstep
        cases hstep
      | ok next' =>
        rw [hs'] at hstep
        have hnext : next.spelledOut = next'.spelledOut := Except.ok.inj hstep
        cases next with
        | anything =>
          cases next' with
          | anything =>
            rw [walkFrom_cons_anything hs, walkFrom_cons_anything hs']
          | into next' wire' => cases hnext
        | into next wire =>
          cases next' with
          | anything => cases hnext
          | into next' wire' =>
            obtain ⟨hinner, rfl⟩ := Step.into.inj hnext
            rw [walkFrom_cons_into hs, walkFrom_cons_into hs', outcome_cons, outcome_cons,
              ih hinner (fun hover => ht (.later hs hover)) fun hover => hu (.later hs' hover)]

/-! ## Mappings -/

/-- The field with its type spelled out. -/
def FieldEntry.spelledOut (f : FieldEntry) : FieldEntry := { f with type := f.type.spelledOut }

/-- No field of a class has an overlooked holder. -/
def OverlooksNoField (s : Schema) : Prop :=
  ∀ cls hs, s.hints cls = .ok hs → ∀ hint ∈ hs, hint.2.holder.isOverlooked = false

theorem overlooksNoField_of_isSettled (h : s.IsSettled)
    (hall : ∀ c ∈ s.classes, ∀ f ∈ c.fields, f.type.holder.isOverlooked = false) :
    s.OverlooksNoField := by
  intro cls hs hhints hint hmem
  rw [hints_of_isSettled h, Except.ok.injEq] at hhints
  subst hhints
  unfold declaredHints at hmem
  split at hmem
  · obtain ⟨f, hf, rfl⟩ := List.mem_map.mp hmem
    obtain ⟨c, hc, hfield⟩ := mem_of_mem_annotations (List.mem_filter.mp hf).1
    exact hall c hc f hfield
  · obtain ⟨f, hf, rfl⟩ := List.mem_map.mp hmem
    obtain ⟨c, hc, hfield⟩ := mem_of_mem_annotations (List.mem_filter.mp hf).1
    exact hall c hc f hfield

theorem entriesOf_spelledAlike (h : s.SpelledAlike s') (cls : String)
    {hs hs' : List (String × TypeExpr)} (halike : spelledHints hs = spelledHints hs') :
    (s.entriesOf naming cls hs).map (·.map FieldEntry.spelledOut) =
      (s'.entriesOf naming cls hs').map (·.map FieldEntry.spelledOut) := by
  induction hs generalizing hs' with
  | nil =>
    cases hs' with
    | nil => rfl
    | cons hint' hs' => cases halike
  | cons hint hs ih =>
    cases hs' with
    | nil => cases halike
    | cons hint' hs' =>
      obtain ⟨name, t⟩ := hint
      obtain ⟨name', u⟩ := hint'
      obtain ⟨hhead, hrest⟩ := List.cons.inj halike
      obtain ⟨rfl, htype⟩ := Prod.mk.inj hhead
      have hlater := ih hrest
      rw [entriesOf, entriesOf, wireName_spelledAlike h]
      cases s'.wireName naming cls name with
      | error e => rfl
      | ok wire =>
        dsimp only
        rcases map_eq_map hlater with ⟨e, hfs, hfs'⟩ | ⟨fs, fs', hfs, hfs', hfields⟩
        · rw [hfs, hfs']
          rfl
        · rw [hfs, hfs']
          change Except.ok (FieldEntry.spelledOut ⟨name, wire, t⟩ :: fs.map _) =
            Except.ok (FieldEntry.spelledOut ⟨name, wire, u⟩ :: fs'.map _)
          rw [hfields, FieldEntry.spelledOut, FieldEntry.spelledOut, htype]

theorem hintsOf_spelledAlike (h : s.SpelledAlike s') (target : TypeExpr) :
    (s.hintsOf target).map spelledHints = (s'.hintsOf target).map spelledHints := by
  cases target with
  | named cls | generic cls _ => exact h.typed cls
  | basic b => cases b <;> rfl
  | _ => rfl

/-- The same target has the same fields in both schemas, or they cannot be read in either. -/
theorem fieldsOf_spelledAlike (h : s.SpelledAlike s') (target : TypeExpr) :
    (s.fieldsOf naming target).map (·.map FieldEntry.spelledOut) =
      (s'.fieldsOf naming target).map (·.map FieldEntry.spelledOut) := by
  unfold fieldsOf
  rcases map_eq_map (hintsOf_spelledAlike h target) with ⟨e, hs, hs'⟩ | ⟨hs, hs', hok, hok', halike⟩
  · rw [hs, hs']
    rfl
  · rw [hok, hok']
    exact entriesOf_spelledAlike h _ halike

theorem holder_of_fieldsOf (hall : s.OverlooksNoField) {target : TypeExpr} {fs : List FieldEntry}
    (h : s.fieldsOf naming target = .ok fs) : ∀ f ∈ fs, f.type.holder.isOverlooked = false := by
  intro f hf
  unfold fieldsOf at h
  cases hs : s.hintsOf target with
  | error e =>
    rw [hs] at h
    cases h
  | ok hints =>
    rw [hs] at h
    obtain ⟨hmap, -⟩ := entriesOf_spec h
    have hmem : (f.name, f.type) ∈ hints := hmap ▸ List.mem_map.mpr ⟨f, hf, rfl⟩
    have hconditions : ∀ hint ∈ conditionHints, hint.2.holder.isOverlooked = false := by decide
    cases target with
    | named cls | generic cls _ => exact hall cls hints hs _ hmem
    | basic b =>
      cases b with
      | condition =>
        cases hs
        exact hconditions _ hmem
      | _ => cases hs; cases hmem
    | apply _ _ | bare _ | pipe _ | annotated _ _ | null | any => cases hs; cases hmem
    | _ => cases hs

theorem collect_spelledAlike (h : s.SpelledAlike s') {fresh : List String}
    (hexpansion : ∀ cls, s.expansion naming fresh cls = s'.expansion naming fresh cls)
    {fs gs : List FieldEntry}
    (hfields : fs.map FieldEntry.spelledOut = gs.map FieldEntry.spelledOut)
    (hfs : ∀ f ∈ fs, f.type.holder.isOverlooked = false)
    (hgs : ∀ g ∈ gs, g.type.holder.isOverlooked = false) (found : Entries) :
    s.collect naming fresh found fs = s'.collect naming fresh found gs := by
  induction fs generalizing gs found with
  | nil =>
    cases gs with
    | nil => rw [collect, collect]
    | cons g gs => cases hfields
  | cons f fs ih =>
    cases gs with
    | nil => cases hfields
    | cons g gs =>
      obtain ⟨hhead, hrest⟩ := List.cons.inj hfields
      obtain ⟨hf, hfs⟩ := List.forall_mem_cons.mp hfs
      obtain ⟨hg, hgs⟩ := List.forall_mem_cons.mp hgs
      obtain ⟨-, hwire, halike⟩ := FieldEntry.mk.inj hhead
      have hkind : s.classify f.type = s'.classify g.type := classify_spelledAlike h halike hf hg
      have hclass : s.structuredClass? f.type = s'.structuredClass? g.type :=
        structuredClass?_spelledAlike h halike hf hg
      have hlater := fun found => ih hrest hfs hgs found
      rw [collect, collect, hkind, hclass, hexpansion, hwire]
      simp only [hlater]

/-- The properties of a class do not hang on spellings, if no field is overlooked. -/
theorem properties_spelledAlike (h : s.SpelledAlike s') (hs : s.OverlooksNoField)
    (hs' : s'.OverlooksNoField) (fresh : List String) (target : TypeExpr) :
    s.properties naming fresh target = s'.properties naming fresh target := by
  -- the classes that are not expanded above become fewer
  induction hn : fresh.length using Nat.strongRecOn generalizing fresh target with
  | ind n ih =>
    have hexpansion : ∀ cls, s.expansion naming fresh cls = s'.expansion naming fresh cls := by
      intro cls
      cases cls with
      | none => rw [expansion, expansion]
      | some cls =>
        rw [expansion, expansion]
        by_cases hmem : cls ∈ fresh
        · have hfewer : (fresh.erase cls).length < n := by
            have hpos := List.length_pos_of_mem hmem
            rw [List.length_erase_of_mem hmem]
            omega
          rw [if_pos hmem, if_pos hmem, ih _ hfewer (fresh.erase cls) (.named cls) rfl]
        · rw [if_neg hmem, if_neg hmem]
    rw [properties, properties]
    rcases map_eq_map (fieldsOf_spelledAlike h target) with ⟨e, hfs, hgs⟩ |
        ⟨fs, gs, hfs, hgs, hfields⟩
    · rw [hfs, hgs]
    · rw [hfs, hgs]
      exact collect_spelledAlike h hexpansion hfields (holder_of_fieldsOf hs hfs)
        (holder_of_fieldsOf hs' hgs) []

theorem mapping_spelledAlike (h : s.SpelledAlike s') (hs : s.OverlooksNoField)
    (hs' : s'.OverlooksNoField) (naming : Option Naming) (model : TypeExpr) :
    s.mapping naming model = s'.mapping naming model := by
  unfold mapping
  dsimp only
  rw [h.classes, properties_spelledAlike h hs hs']

/-! ## What a spelling changes -/

/-- **A spelling changes what is overlooked, and nothing else.** Let a type be respelled any number
of times, in a schema whose types may be respelled as well. If neither holder is overlooked, both
types are of one kind; above an overlooked holder the kind is left to the markers. Walks that meet
no overlooked type come to the same stored names and to types that are spelled alike, or to the same
kind of fault; a walk that comes to an overlooked type ends there with a fault of the path. If no
field is overlooked, the mappings of every model are the same. -/
theorem respelled_agrees (h : s.SpelledAlike s')
    (hrespelled : Relation.ReflTransGen TypeExpr.Respells t u) :
    (t.holder.isOverlooked = false → u.holder.isOverlooked = false →
        s.classify t = s'.classify u) ∧
      (u.holder.isOverlooked = true → s'.classify u = markedKind u.holderMarkers) ∧
      (∀ naming before others segments,
        (¬s.Overlooks naming t segments → ¬s'.Overlooks naming u segments →
          outcome spelledEnd (s.walkFrom naming before t segments) =
            outcome spelledEnd (s'.walkFrom naming others u segments)) ∧
        (s'.Overlooks naming u segments →
          ∃ fault, s'.walkFrom naming others u segments = .error (.inl fault))) ∧
      (s.OverlooksNoField → s'.OverlooksNoField →
        ∀ naming model, s.mapping naming model = s'.mapping naming model) := by
  have halike := TypeExpr.spelledOut_of_respells hrespelled
  refine ⟨classify_spelledAlike h halike, classify_of_isOverlooked,
    fun naming before others segments => ⟨fun ht hu => ?_, fun hover => ?_⟩, ?_⟩
  · exact walkFrom_spelledAlike h halike ht hu before others
  · exact walkFrom_of_overlooks hover others
  · exact mapping_spelledAlike h

/-- Objects whose values are optional labels, in both spellings: the kinds, the mappings and the
walks to a value are the same, and the walk goes on to the name of the label in the first spelling
only. An optional label by itself is an object in the first spelling, and unknown in the second. -/
theorem respelled_agrees_labels :
    let label : ClassDecl TypeExpr :=
      ⟨"Label", .model, none, [⟨"name", .basic .text, none, none, none, none⟩], [], false⟩
    let order (t : TypeExpr) : ClassDecl TypeExpr :=
      ⟨"Order", .model, none, [⟨"labels", t, none, none, none, none⟩], [], false⟩
    let t : TypeExpr := .apply .dict [.basic .text, .union [.named "Label", .null]]
    let u : TypeExpr := .apply .dict [.basic .text, .pipe [.named "Label", .null]]
    let s : Schema := ⟨[order t, label], [], [], .strict⟩
    let s' : Schema := ⟨[order u, label], [], [], .strict⟩
    s.SpelledAlike s' ∧ Relation.ReflTransGen TypeExpr.Respells t u ∧
      s.classify t = s'.classify u ∧
      s.mapping none (.named "Order") = s'.mapping none (.named "Order") ∧
      outcome spelledEnd (s.walkFrom none ["labels"] t ["red"]) =
        outcome spelledEnd (s'.walkFrom none ["labels"] u ["red"]) ∧
      s.walkFrom none ["labels"] t ["red", "name"] = .ok (.basic .text, ["red", "name"]) ∧
      (∃ fault, s'.walkFrom none ["labels"] u ["red", "name"] = .error (.inl fault)) ∧
      s.classify (.union [.named "Label", .null]) = .object ∧
      s'.classify (.pipe [.named "Label", .null]) = .unknown := by
  intro label order t u s s'
  have hlabel : ∀ known, ∀ f ∈ label.fields, f.type.resolve known = .ok f.type :=
    fun _ => List.forall_mem_singleton.mpr rfl
  have hsettled : s.IsSettled := List.forall_mem_cons.mpr
    ⟨List.forall_mem_singleton.mpr rfl, List.forall_mem_singleton.mpr (hlabel _)⟩
  have hsettled' : s'.IsSettled := List.forall_mem_cons.mpr
    ⟨List.forall_mem_singleton.mpr rfl, List.forall_mem_singleton.mpr (hlabel _)⟩
  have halike : s.SpelledAlike s' := spelledAlike_of_declared rfl hsettled hsettled'
  have hrespelled : Relation.ReflTransGen TypeExpr.Respells t u :=
    .single (.apply .dict [.basic .text] [] (.bars _))
  have hnone : s.OverlooksNoField := overlooksNoField_of_isSettled hsettled (by decide)
  have hnone' : s'.OverlooksNoField := overlooksNoField_of_isSettled hsettled' (by decide)
  have hover : ¬s.Overlooks none t ["red"] := by
    rintro (hcore | ⟨-, hrest⟩)
    · cases hcore
    · cases hrest
  have hover' : ¬s'.Overlooks none u ["red"] := by
    rintro (hcore | ⟨-, hrest⟩)
    · cases hcore
    · cases hrest
  have hstep : s'.step none [] u "red" = .ok (.into (.pipe [.named "Label", .null]) "red") := by
    rfl
  have hmet : s'.Overlooks none u ["red", "name"] := .later hstep (.here rfl)
  obtain ⟨hkind, -, hwalks, hmapping⟩ := respelled_agrees halike hrespelled
  exact ⟨halike, hrespelled, hkind rfl rfl, hmapping hnone hnone' none (.named "Order"),
    (hwalks none ["labels"] ["labels"] ["red"]).1 hover hover', by rfl,
    (hwalks none [] ["labels"] ["red", "name"]).2 hmet, rfl, rfl⟩

end Schema

end TypedSearch
