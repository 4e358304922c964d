import TypedSearch.Schema.Mapping

/-!
# Wrappers and the class behind them

Walks, mappings and renamings each take the wrappers off a type in their own way. A walk goes to
the core of a type, through every layer of arrays; a mapping and a renaming look through one layer
only. Where they look at the same class, the class is the core.

* `TypeExpr.core_stripped`, `TypeExpr.core_of_item?`, `TypeExpr.core_of_item?_none`: how the core
  follows from the type without wrappers.
* `TypeExpr.holder`: the type below one layer of arrays at most.
* `TypeExpr.arrayDepth`: the number of layers of arrays above the core.
* `Schema.structuredClass?_core`: the class that a mapping expands is the core.
* `Schema.structuredClass?_of_kind`: below an object or a nested array, the core is the class that
  a mapping expands.
-/

namespace TypedSearch

namespace TypeExpr

/-! ## The core of a type -/

mutual

theorem core_stripped : ∀ t : TypeExpr, t.stripped.core = t.core
  | .annotated t ms => by
    have ih := core_stripped t
    simpa only [stripped, unwrap, core] using ih
  | .union ts => by
    have ih := core_unwrapPresent ts
    simp only [stripped, unwrap, core]
    split
    · exact ih
    · rename_i h
      simp only [core, h]
      rfl
  | .basic _ | .null | .any | .variable | .bare _ | .bareConstant | .named _ | .forward _
  | .apply _ _ | .pipe _ | .literal _ | .constant _ | .generic _ _ => rfl

theorem core_unwrapPresent : ∀ ts : List TypeExpr, (unwrapPresent ts).1.core = corePresent ts
  | [] => rfl
  | t :: ts => by
    have ih := core_unwrapPresent ts
    have iht := core_stripped t
    simp only [unwrapPresent, corePresent]
    split
    · exact ih
    · exact iht

end

theorem core_of_item? {t item : TypeExpr} (h : t.item? = some item) : t.core = item.core := by
  unfold item? at h
  split at h
  · rename_i c args
    split at h
    · rename_i hc
      cases h
      simp only [core, hc, if_true]
      cases args <;> rfl
    · cases h
  · rename_i a
    split at h
    · cases h
    · rename_i ha
      cases h
      simp [core, ha]
  · rename_i b
    split at h
    · rename_i hb
      cases h
      simp [core, hb]
    · cases h
  · cases h

/-- The type is optional or carries markers. -/
def isWrapped : TypeExpr → Bool
  | .annotated _ _ => true
  | .union ts => isOptional ts
  | _ => false

mutual

theorem isWrapped_stripped : ∀ t : TypeExpr, t.stripped.isWrapped = false
  | .annotated t ms => by
    have ih := isWrapped_stripped t
    simpa only [stripped, unwrap] using ih
  | .union ts => by
    have ih := isWrapped_unwrapPresent ts
    simp only [stripped, unwrap]
    split
    · exact ih
    · rename_i h
      simpa only [isWrapped, Bool.not_eq_true] using h
  | .basic _ | .null | .any | .variable | .bare _ | .bareConstant | .named _ | .forward _
  | .apply _ _ | .pipe _ | .literal _ | .constant _ | .generic _ _ => rfl

theorem isWrapped_unwrapPresent : ∀ ts : List TypeExpr, (unwrapPresent ts).1.isWrapped = false
  | [] => rfl
  | t :: ts => by
    have ih := isWrapped_unwrapPresent ts
    have iht := isWrapped_stripped t
    simp only [unwrapPresent]
    split
    · exact ih
    · exact iht

end

theorem stripped_of_isWrapped {t : TypeExpr} (h : t.isWrapped = false) : t.stripped = t := by
  cases t with
  | annotated t ms => cases h
  | union ts =>
    simp only [isWrapped] at h
    simp [stripped, unwrap, h]
  | _ => rfl

theorem stripped_stripped (t : TypeExpr) : t.stripped.stripped = t.stripped :=
  stripped_of_isWrapped (isWrapped_stripped t)

theorem core_eq_self {t : TypeExpr} (hw : t.isWrapped = false) (hi : t.item? = none) :
    t.core = t := by
  cases t with
  | annotated t ms => cases hw
  | union ts =>
    simp only [isWrapped] at hw
    simp [core, hw]
  | apply c args =>
    by_cases hc : c.isArray = true
    · simp [item?, hc] at hi
    · simp [core, hc]
  | bare a => cases a <;> first | rfl | cases hi
  | basic b =>
    by_cases hb : isBasicArray b = true
    · simp [item?, hb] at hi
    · simp [core, hb]
  | _ => rfl

theorem core_of_item?_none {t : TypeExpr} (h : t.stripped.item? = none) :
    t.core = t.stripped := by
  rw [← core_stripped, core_eq_self (isWrapped_stripped t) h]

theorem stripped_of_isDict {t : TypeExpr} (h : t.isDict = true) : t.stripped = t := by
  refine stripped_of_isWrapped ?_
  cases t <;> first | rfl | cases h

theorem item?_of_isDict {t : TypeExpr} (h : t.isDict = true) : t.item? = none := by
  cases t with
  | apply c args =>
    have hc : c.isArray = false := by
      cases c <;> first | rfl | cases h
    simp [item?, hc]
  | bare a =>
    have ha : a = .dict := by simpa [isDict] using h
    simp [item?, ha]
  | basic b =>
    simp only [isDict, decide_eq_true_eq] at h
    subst h
    rfl
  | _ => rfl

theorem core_of_isDict {t : TypeExpr} (h : t.isDict = true) : t.core = t := by
  cases t with
  | apply c args =>
    have hc : c.isArray = false := by
      cases c <;> first | rfl | cases h
    simp [core, hc]
  | bare a => simp_all [isDict, core]
  | basic b =>
    simp only [isDict, decide_eq_true_eq] at h
    subst h
    rfl
  | _ => cases h

/-! ## The holder of objects -/

/-- The type below optionals, markers and at most one layer of arrays. -/
def holder (t : TypeExpr) : TypeExpr :=
  match t.stripped.item? with
  | some item => item.stripped
  | none => t.stripped

theorem holder_of_item? {t item : TypeExpr} (h : t.stripped.item? = some item) :
    t.holder = item.stripped := by
  rw [holder, h]

theorem holder_of_item?_none {t : TypeExpr} (h : t.stripped.item? = none) :
    t.holder = t.stripped := by
  rw [holder, h]

theorem core_holder (t : TypeExpr) : t.holder.core = t.core := by
  cases h : t.stripped.item? with
  | none => rw [holder_of_item?_none h, core_stripped]
  | some item =>
    rw [holder_of_item? h, core_stripped, ← core_of_item? h, core_stripped]

/-! ## Layers of arrays -/

mutual

/-- How many layers of arrays stand above the core of a type. -/
def arrayDepth : TypeExpr → Nat
  | .annotated t _ => t.arrayDepth
  | .union ts => if isOptional ts then arrayDepthPresent ts else 0
  | .apply c args => if c.isArray then arrayDepthFirst args + 1 else 0
  | .bare a => if a = .dict then 0 else 1
  | .basic b => if isBasicArray b then 1 else 0
  | _ => 0
termination_by structural t => t

/-- The layers of the first type that is not null. -/
def arrayDepthPresent : List TypeExpr → Nat
  | [] => 0
  | t :: ts => if t.isNull then arrayDepthPresent ts else t.arrayDepth
termination_by structural ts => ts

/-- The layers of the first type. -/
def arrayDepthFirst : List TypeExpr → Nat
  | [] => 0
  | t :: _ => t.arrayDepth
termination_by structural ts => ts

end

mutual

theorem arrayDepth_stripped : ∀ t : TypeExpr, t.stripped.arrayDepth = t.arrayDepth
  | .annotated t ms => by
    have ih := arrayDepth_stripped t
    simpa only [stripped, unwrap, arrayDepth] using ih
  | .union ts => by
    have ih := arrayDepth_unwrapPresent ts
    simp only [stripped, unwrap, arrayDepth]
    split
    · exact ih
    · rename_i h
      simp only [arrayDepth, h]
      rfl
  | .basic _ | .null | .any | .variable | .bare _ | .bareConstant | .named _ | .forward _
  | .apply _ _ | .pipe _ | .literal _ | .constant _ | .generic _ _ => rfl

theorem arrayDepth_unwrapPresent : ∀ ts : List TypeExpr,
    (unwrapPresent ts).1.arrayDepth = arrayDepthPresent ts
  | [] => rfl
  | t :: ts => by
    have ih := arrayDepth_unwrapPresent ts
    have iht := arrayDepth_stripped t
    simp only [unwrapPresent, arrayDepthPresent]
    split
    · exact ih
    · exact iht

end

theorem arrayDepth_of_item? {t item : TypeExpr} (h : t.item? = some item) :
    t.arrayDepth = item.arrayDepth + 1 := by
  unfold item? at h
  split at h
  · rename_i c args
    split at h
    · rename_i hc
      cases h
      simp only [arrayDepth, hc, if_true]
      cases args <;> rfl
    · cases h
  · rename_i a
    split at h
    · cases h
    · rename_i ha
      cases h
      simp [arrayDepth, ha]
  · rename_i b
    split at h
    · rename_i hb
      cases h
      simp [arrayDepth, hb]
    · cases h
  · cases h

theorem arrayDepth_eq_zero {t : TypeExpr} (hw : t.isWrapped = false) (hi : t.item? = none) :
    t.arrayDepth = 0 := by
  cases t with
  | annotated t ms => cases hw
  | union ts =>
    simp only [isWrapped] at hw
    simp [arrayDepth, hw]
  | apply c args =>
    by_cases hc : c.isArray = true
    · simp [item?, hc] at hi
    · simp [arrayDepth, hc]
  | bare a => cases a <;> first | rfl | cases hi
  | basic b =>
    by_cases hb : isBasicArray b = true
    · simp [item?, hb] at hi
    · simp [arrayDepth, hb]
  | _ => rfl

theorem arrayDepth_of_stripped {t item : TypeExpr} (h : t.stripped.item? = some item) :
    t.arrayDepth = item.arrayDepth + 1 := by
  rw [← arrayDepth_stripped, arrayDepth_of_item? h]

theorem arrayDepth_of_item?_none {t : TypeExpr} (h : t.stripped.item? = none) :
    t.arrayDepth = 0 := by
  rw [← arrayDepth_stripped, arrayDepth_eq_zero (isWrapped_stripped t) h]

/-- The type without optionals and markers is its own core if there are no arrays. -/
theorem stripped_of_arrayDepth {t : TypeExpr} (h : t.arrayDepth = 0) :
    t.stripped.item? = none ∧ t.stripped = t.core := by
  cases hi : t.stripped.item? with
  | none => exact ⟨rfl, (core_of_item?_none hi).symm⟩
  | some item =>
    rw [arrayDepth_of_stripped hi] at h
    omega

theorem item?_of_arrayDepth {t : TypeExpr} {n : Nat} (h : t.arrayDepth = n + 1) :
    ∃ item, t.stripped.item? = some item ∧ item.arrayDepth = n ∧ item.core = t.core := by
  cases hi : t.stripped.item? with
  | none =>
    rw [arrayDepth_of_item?_none hi] at h
    omega
  | some item =>
    rw [arrayDepth_of_stripped hi] at h
    exact ⟨item, rfl, by omega, by rw [← core_of_item? hi, core_stripped]⟩

end TypeExpr

/-! ## The class behind a type -/

namespace Schema

variable {s : Schema}

theorem isStructured_eq_true {t : TypeExpr} (h : s.isStructured t = true) :
    ∃ cls, t = .named cls := by
  cases t with
  | named cls => exact ⟨cls, rfl⟩
  | _ => cases h

theorem some_if_structured_iff {c cls : String} :
    (if s.isStructured (.named c) then some c else none) = some cls ↔
      TypeExpr.named c = .named cls ∧ s.isStructured (.named cls) = true := by
  by_cases hs : s.isStructured (.named c) = true
  · simp only [hs, if_true, Option.some.injEq, TypeExpr.named.injEq]
    constructor
    · rintro rfl
      exact ⟨rfl, hs⟩
    · exact And.left
  · simp only [hs, TypeExpr.named.injEq]
    constructor
    · intro h
      cases h
    · rintro ⟨rfl, h⟩
      exact absurd h hs

theorem structuredClass?_eq_some_iff {t : TypeExpr} {cls : String} :
    s.structuredClass? t = some cls ↔
      t.holder = .named cls ∧ s.isStructured (.named cls) = true := by
  rw [structuredClass?, TypeExpr.holder]
  cases t.stripped.item? <;> dsimp only <;> split
  case h_1 c hc | h_1 c hc =>
    simp only [hc]
    exact some_if_structured_iff
  case h_2 hne | h_2 hne =>
    constructor
    · intro h
      cases h
    · rintro ⟨h, -⟩
      exact absurd h (hne cls)

/-- The class that is looked at below at most one layer of arrays is the core. -/
theorem structuredClass?_core {t : TypeExpr} {cls : String}
    (h : s.structuredClass? t = some cls) : t.core = .named cls := by
  rw [← TypeExpr.core_holder, (structuredClass?_eq_some_iff.mp h).1]
  rfl

/-- The class at the core is looked at if at most one layer of arrays stands above it. -/
theorem structuredClass?_eq_some_iff_core {t : TypeExpr} {cls : String} :
    s.structuredClass? t = some cls ↔
      t.core = .named cls ∧ t.arrayDepth ≤ 1 ∧ s.isStructured (.named cls) = true := by
  rw [structuredClass?_eq_some_iff]
  constructor
  · rintro ⟨hh, hs⟩
    have hcore : t.core = .named cls := by rw [← TypeExpr.core_holder, hh]; rfl
    refine ⟨hcore, ?_, hs⟩
    cases hi : t.stripped.item? with
    | none =>
      rw [TypeExpr.arrayDepth_of_item?_none hi]
      omega
    | some item =>
      rw [TypeExpr.holder_of_item? hi] at hh
      have hzero : item.arrayDepth = 0 := by rw [← TypeExpr.arrayDepth_stripped, hh]; rfl
      rw [TypeExpr.arrayDepth_of_stripped hi]
      omega
  · rintro ⟨hcore, hdepth, hs⟩
    refine ⟨?_, hs⟩
    cases hi : t.stripped.item? with
    | none => rw [TypeExpr.holder_of_item?_none hi, ← TypeExpr.core_of_item?_none hi, hcore]
    | some item =>
      rw [TypeExpr.arrayDepth_of_stripped hi] at hdepth
      obtain ⟨-, hstripped⟩ := TypeExpr.stripped_of_arrayDepth (t := item) (by omega)
      rw [TypeExpr.holder_of_item? hi, hstripped, ← TypeExpr.core_of_item? hi,
        TypeExpr.core_stripped, hcore]

/-! ## Kinds -/

theorem classify_of_item? {t item : TypeExpr} (h : t.stripped.item? = some item) :
    s.classify t = if s.isStructured item.stripped then .nested
      else s.kindOf (t.unwrap.2 ++ item.unwrap.2) item.stripped := by
  have h' : t.unwrap.1.item? = some item := h
  simp only [classify, h']
  rfl

theorem classify_of_item?_none {t : TypeExpr} (h : t.stripped.item? = none) :
    s.classify t = s.kindOf t.unwrap.2 t.stripped := by
  have h' : t.unwrap.1.item? = none := h
  simp only [classify, h']
  rfl

/-- No marker and no type makes anything nested: only arrays are. -/
theorem kindOf_ne_nested {markers : List Marker} {t : TypeExpr} :
    s.kindOf markers t ≠ .nested := by
  unfold kindOf
  repeat' split
  any_goals simp
  rename_i b _
  cases b <;> simp [BasicType.kind]

theorem kindOf_eq_object {markers : List Marker} {t : TypeExpr}
    (h : s.kindOf markers t = .object) : t.isDict = true ∨ s.isStructured t = true := by
  unfold kindOf at h
  split at h
  · cases h
  · split at h
    · cases h
    · split at h
      · rename_i hd
        exact Or.inl hd
      · split at h
        · rename_i b hd
          cases b <;> simp_all [BasicType.kind, TypeExpr.isDict]
        · split at h
          · cases h
          · split at h
            · rename_i hs
              exact Or.inr hs
            · cases h
        · cases h

/-- Below an object or a nested array the core, if it is a class, is the class that is looked at
below at most one layer of arrays. -/
theorem structuredClass?_of_kind {t : TypeExpr} {cls : String}
    (hk : s.classify t = .object ∨ s.classify t = .nested) (hc : t.core = .named cls) :
    s.structuredClass? t = some cls := by
  have of_structured : ∀ {u : TypeExpr}, u = t.holder → s.isStructured u = true →
      s.structuredClass? t = some cls := by
    rintro u rfl hs
    obtain ⟨c, hu⟩ := isStructured_eq_true hs
    have hcore : t.core = .named c := by rw [← TypeExpr.core_holder, hu]; rfl
    rw [hc, TypeExpr.named.injEq] at hcore
    subst hcore
    rw [hu] at hs
    exact structuredClass?_eq_some_iff.mpr ⟨hu, hs⟩
  have not_dict : t.holder.isDict = true → False := by
    intro hd
    have := TypeExpr.core_of_isDict hd
    rw [TypeExpr.core_holder, hc] at this
    rw [← this] at hd
    cases hd
  have of_kindOf : ∀ {markers : List Marker}, s.kindOf markers t.holder = .object ∨
      s.kindOf markers t.holder = .nested → s.structuredClass? t = some cls := by
    rintro markers (h | h)
    · rcases kindOf_eq_object h with hd | hs
      · exact absurd hd not_dict
      · exact of_structured rfl hs
    · exact absurd h kindOf_ne_nested
  cases hi : t.stripped.item? with
  | none =>
    rw [classify_of_item?_none hi, ← TypeExpr.holder_of_item?_none hi] at hk
    exact of_kindOf hk
  | some item =>
    rw [classify_of_item? hi, ← TypeExpr.holder_of_item? hi] at hk
    split at hk
    · rename_i hs
      exact of_structured rfl hs
    · exact of_kindOf hk

end Schema

end TypedSearch
