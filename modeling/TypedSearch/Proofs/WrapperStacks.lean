import TypedSearch.Proofs.NestedFields
import TypedSearch.Proofs.UnionForms

/-!
# Stacks of wrappers

Optionals, markers and arrays around a type, any number of them in any order, change nothing for a
walk that goes on below the type. The stack cannot be taken off as it was put on: an optional around
a union is another union, markers around markers are one row of markers, and an optional around the
type of null is that type. What stays is where a walk leads from the type, or that it leads nowhere.

* `TypeExpr.isDeadEnd`, `Schema.walkFrom_of_isDeadEnd`: types from which no segment leads on.
* `Wrapper`, `Wrapper.around`: what is put around a type.
* `TypeExpr.optional_cases`: what an optional makes of a type in normal form.
* `Wrapper.leadsAlike_around`, `Wrapper.classify_around`, `Wrapper.resolve_around`: one wrapper.
* `TypeExpr.wrapped_transparent`: **a stack of wrappers.**
-/

namespace TypedSearch

namespace TypeExpr

variable {t u v : TypeExpr}

/-! ## Dead ends -/

/-- No segment leads on from the type below its wrappers: it is known, and neither a class nor an
object with arbitrary keys. -/
def isDeadEnd : TypeExpr → Bool
  | .any | .variable | .named _ => false
  | t => !t.isDict

theorem isDict_of_isDeadEnd (h : t.isDeadEnd = true) : t.isDict = false := by
  unfold isDeadEnd at h
  split at h
  · cases h
  · cases h
  · cases h
  · simpa using h

/-- A walk goes on from both types in the same way: they have one core, or both are dead ends. -/
def LeadsAlike (t u : TypeExpr) : Prop :=
  t.core = u.core ∨ t.core.isDeadEnd = true ∧ u.core.isDeadEnd = true

theorem LeadsAlike.trans (h : LeadsAlike t u) (h' : LeadsAlike u v) : LeadsAlike t v := by
  rcases h with heq | ⟨ht, hu⟩
  · unfold LeadsAlike
    rwa [heq]
  · rcases h' with heq | ⟨-, hv⟩
    · exact .inr ⟨ht, heq ▸ hu⟩
    · exact .inr ⟨ht, hv⟩

end TypeExpr

namespace Schema

variable {s : Schema} {naming : Option Naming} {t u : TypeExpr}

theorem step_of_isDeadEnd (h : t.core.isDeadEnd = true) (before : List String) (segment : String) :
    ∃ fault, s.step naming before t segment = .error (.inl fault) := by
  have hdict := TypeExpr.isDict_of_isDeadEnd h
  unfold step
  dsimp only
  split
  · exact ⟨_, rfl⟩
  · split
    · rename_i hcore
      rw [hcore] at h
      cases h
    · rename_i hcore
      rw [hcore] at h
      cases h
    · rw [hdict, if_neg Bool.false_ne_true]
      split
      · exact ⟨_, rfl⟩
      · rename_i hcore
        rw [hcore] at h
        cases h
      · exact ⟨_, rfl⟩

theorem walkFrom_of_isDeadEnd (h : t.core.isDeadEnd = true) (before : List String)
    {segments : List String} (hne : segments ≠ []) :
    ∃ fault, s.walkFrom naming before t segments = .error (.inl fault) := by
  obtain ⟨segment, rest, rfl⟩ := List.exists_cons_of_ne_nil hne
  obtain ⟨fault, hstep⟩ := step_of_isDeadEnd h before segment
  exact ⟨fault, by rw [walkFrom, hstep]⟩

/-- From types that lead alike a walk has one outcome. -/
theorem walkFrom_placeless_of_leadsAlike (h : t.LeadsAlike u) (before others : List String)
    {segments : List String} (hne : segments ≠ []) :
    placeless (s.walkFrom naming before t segments) =
      placeless (s.walkFrom naming others u segments) := by
  rcases h with hcore | ⟨ht, hu⟩
  · exact walkFrom_placeless_of_core hcore before others hne
  · obtain ⟨fault, hwalk⟩ := walkFrom_of_isDeadEnd ht before hne
    obtain ⟨fault', hwalk'⟩ := walkFrom_of_isDeadEnd hu others hne
    rw [hwalk, hwalk']
    rfl

/-! ## Markers that decide about the kind -/

/-- The markers that decide about a kind are in both rows or in neither. -/
def MarksAlike (ms ns : List Marker) : Prop :=
  ms.contains .text = ns.contains .text ∧ ms.contains .keyword = ns.contains .keyword

theorem kindOf_of_marksAlike {ms ns : List Marker} (h : MarksAlike ms ns) (t : TypeExpr) :
    s.kindOf ms t = s.kindOf ns t := by
  unfold kindOf
  rw [h.1, h.2]

theorem MarksAlike.append {ms ns : List Marker} (h : MarksAlike ms ns) (others : List Marker) :
    MarksAlike (ms ++ others) (ns ++ others) := by
  unfold MarksAlike
  simp only [List.contains_append, h.1, h.2, and_self]

theorem classify_of_marksAlike (hbare : t.stripped = u.stripped)
    (hmarks : MarksAlike t.unwrap.2 u.unwrap.2) : s.classify t = s.classify u := by
  cases hitem : u.stripped.item? with
  | none =>
    rw [classify_of_item?_none hitem, classify_of_item?_none (hbare ▸ hitem), hbare]
    exact kindOf_of_marksAlike hmarks _
  | some item =>
    rw [classify_of_item? hitem, classify_of_item? (hbare ▸ hitem)]
    rw [kindOf_of_marksAlike (hmarks.append item.unwrap.2)]

end Schema

/-! ## Wrappers -/

/-- What can be put around a type: an optional, markers, or an array of any sort. -/
inductive Wrapper where
  | optional
  | annotated (markers : List Marker)
  | array (c : Container) (isArray : c.isArray = true)

/-- The type with the wrapper around it, in normal form. -/
def Wrapper.around : Wrapper → TypeExpr → TypeExpr
  | .optional, t => .unionOf [t, .null]
  | .annotated ms, t => t.annotate ms
  | .array c _, t => .apply c [t]

/-- The wrapper written around a type. -/
def Wrapper.write : Wrapper → TypeSyntax → TypeSyntax
  | .optional, x => .optional x
  | .annotated ms, x => .annotated x ms
  | .array c _, x => .apply c [x]

/-- The wrapper is no array, and none of its markers decides about the kind. -/
def Wrapper.keepsKind : Wrapper → Bool
  | .optional => true
  | .annotated ms => !ms.contains .text && !ms.contains .keyword
  | .array _ _ => false

/-- The type in a stack of wrappers, the outermost first. -/
def TypeExpr.wrapped (t : TypeExpr) (stack : List Wrapper) : TypeExpr :=
  stack.foldr Wrapper.around t

namespace TypeExpr

variable {t : TypeExpr}

/-! ## Optionals in normal form -/

/-- The type is that of null or a union that is no optional. -/
def isInert : TypeExpr → Bool
  | .null => true
  | .union ts => !isOptional ts
  | _ => false

theorem core_of_isInert (h : t.isInert = true) : t.core = t := by
  cases t with
  | null => rfl
  | union ts =>
    have hopt : isOptional ts = false := by simpa [isInert] using h
    rw [core, hopt]
    rfl
  | _ => cases h

theorem isDeadEnd_of_isInert (h : t.isInert = true) : t.core.isDeadEnd = true := by
  rw [core_of_isInert h]
  cases t <;> first | rfl | cases h

theorem classify_of_isInert {s : Schema} (h : t.isInert = true) : s.classify t = .unknown := by
  cases t with
  | null => rfl
  | union ts =>
    have hopt : isOptional ts = false := by simpa [isInert] using h
    have hunwrap : (TypeExpr.union ts).unwrap = (.union ts, []) := by
      rw [unwrap, hopt]
      rfl
    unfold Schema.classify
    rw [hunwrap]
    rfl
  | _ => cases h

theorem same_null (t : TypeExpr) : t.same .null = t.isNull := by
  cases t <;> rfl

theorem isOptional_of_any_isNull_eq_false {ts : List TypeExpr} (h : ts.any isNull = false) :
    isOptional ts = false := by
  rw [isOptional, h]
  rfl

theorem isOptional_pair_null (h : t.isNull = false) : isOptional [t, .null] = true := by
  have hnull : isNull .null = true := rfl
  simp [isOptional, h, hnull]

theorem core_pair_null (h : t.isNull = false) : (TypeExpr.union [t, .null]).core = t.core := by
  rw [core, isOptional_pair_null h, if_pos rfl, corePresent, h]
  rfl

theorem unwrap_pair_null (h : t.isNull = false) :
    (TypeExpr.union [t, .null]).unwrap = t.unwrap := by
  rw [unwrap, isOptional_pair_null h, if_pos rfl, unwrapPresent, h]
  rfl

theorem unionOf_null_of_not_isJoined (hunion : t.isJoined = false) (hnull : t.isNull = false) :
    unionOf [t, .null] = .union [t, .null] := by
  have hmembers : [t, .null].flatMap members = [t] ++ [.null] := by
    rw [List.flatMap_cons, members_of_not_isJoined hunion]
    rfl
  have hdistinct : distinct ([t] ++ [.null]) = [t, .null] := by
    rw [distinct_append_singleton, distinct_of_areDistinct (List.pairwise_singleton _ _)]
    simp [same_null, hnull]
  rw [unionOf, hmembers, hdistinct]

/-- An optional around a normal union adds null, unless it is there. -/
theorem distinct_union_null {ts : List TypeExpr} (h : AreMembers ts) :
    distinct ([.union ts, .null].flatMap members) =
      if ts.any isNull then ts else ts ++ [.null] := by
  change distinct (ts ++ [.null]) = _
  rw [distinct_append_singleton, distinct_of_areDistinct h.distinct]
  simp only [same_null]

theorem unionOf_null_of_any {ts : List TypeExpr} (h : AreMembers ts)
    (hany : ts.any isNull = true) : unionOf [.union ts, .null] = .union ts := by
  unfold unionOf
  rw [distinct_union_null h, if_pos hany]
  split
  · exact absurd rfl h.several
  · rfl

theorem unionOf_null_of_not_any {ts : List TypeExpr} (h : AreMembers ts) (hne : ts ≠ [])
    (hany : ts.any isNull = false) : unionOf [.union ts, .null] = .union (ts ++ [.null]) := by
  unfold unionOf
  rw [distinct_union_null h, hany, if_neg Bool.false_ne_true]
  split
  · rename_i u hu
    have hlength := congrArg List.length hu
    rw [List.length_append] at hlength
    exact absurd (List.eq_nil_of_length_eq_zero (Nat.succ.inj hlength)) hne
  · rfl

/-- No type of two or more besides null makes an optional. -/
theorem isOptional_append_null {ts : List TypeExpr} (h : AreMembers ts)
    (hany : ts.any isNull = false) : isOptional (ts ++ [.null]) = false := by
  have hfilter : (ts.filter fun u => !u.isNull) = ts := by
    rw [List.filter_eq_self]
    intro u hu
    rw [List.any_eq_false] at hany
    simpa using hany u hu
  have hlast : ([TypeExpr.null].filter fun u => !u.isNull) = [] := rfl
  rw [isOptional, List.filter_append, hfilter, hlast, List.append_nil]
  simp [h.several]

/-- An optional around a normal type is that type, or an optional of it; or both the type and the
optional around it lead nowhere. -/
theorem optional_cases (hnormal : t.IsNormal) (hbar : ∀ ts, t ≠ .pipe ts) :
    unionOf [t, .null] = t ∨ (unionOf [t, .null] = .union [t, .null] ∧ t.isNull = false) ∨
      (t.isInert = true ∧ (unionOf [t, .null]).isInert = true) := by
  cases hunion : t.isJoined with
  | false =>
    cases hnull : t.isNull with
    | true =>
      cases t with
      | null => exact .inl rfl
      | _ => cases hnull
    | false => exact .inr (.inl ⟨unionOf_null_of_not_isJoined hunion hnull, rfl⟩)
  | true =>
    cases t with
    | pipe ts => exact absurd rfl (hbar ts)
    | union ts =>
      have hmembers : AreMembers ts := hnormal
      cases hany : ts.any isNull with
      | true => exact .inl (unionOf_null_of_any hmembers hany)
      | false =>
        -- neither of the two unions has null and just one other type
        have hinert : (TypeExpr.union ts).isInert = true := by
          rw [isInert, isOptional_of_any_isNull_eq_false hany]
          rfl
        refine .inr (.inr ⟨hinert, ?_⟩)
        by_cases hne : ts = []
        · subst hne
          rfl
        · rw [unionOf_null_of_not_any hmembers hne hany, isInert,
            isOptional_append_null hmembers hany]
          rfl
    | _ => cases hunion

/-! ## Resolved optionals -/

section Resolution

variable {declared : String → Bool}

theorem unionOf_append_null {ts : List TypeExpr} (h : ∀ t ∈ ts, t.IsNormal) :
    unionOf (ts ++ [.null]) = unionOf [unionOf ts, .null] := by
  have hmembers : [unionOf ts, .null].flatMap members =
      distinct (ts.flatMap members) ++ [.null] := by
    rw [List.flatMap_cons, members_unionOf h]
    rfl
  have hrow : (ts ++ [TypeExpr.null]).flatMap members = ts.flatMap members ++ [.null] := by
    rw [List.flatMap_append]
    rfl
  rw [unionOf, unionOf, hmembers, hrow, distinct_distinct_append]

theorem unionOf_null_of_mem {ts : List TypeExpr} (h : ∀ t ∈ ts, t.IsNormal) (hnull : .null ∈ ts) :
    unionOf [unionOf ts, .null] = unionOf ts := by
  have hmem : TypeExpr.null ∈ ts.flatMap members :=
    List.mem_flatMap.mpr ⟨.null, hnull, List.mem_singleton_self _⟩
  have hrow : (ts ++ [TypeExpr.null]).flatMap members = ts.flatMap members ++ [.null] := by
    rw [List.flatMap_append]
    rfl
  rw [← unionOf_append_null h, unionOf, unionOf, hrow, distinct_append_singleton,
    any_same_distinct hmem rfl, if_pos rfl]

theorem resolveAll_append_null (ts : List TypeExpr) :
    resolveAll declared (ts ++ [.null]) = (resolveAll declared ts).map (· ++ [.null]) := by
  induction ts with
  | nil => rfl
  | cons t ts ih =>
    rw [List.cons_append, resolveAll, ih, resolveAll]
    cases t.resolve declared with
    | error e => rfl
    | ok u => cases resolveAll declared ts <;> rfl

theorem null_mem_of_resolveAll {ts us : List TypeExpr} (h : resolveAll declared ts = .ok us)
    (hnull : .null ∈ ts) : .null ∈ us := by
  induction ts generalizing us with
  | nil => cases hnull
  | cons t ts ih =>
    obtain ⟨v, hv, h⟩ := bind_eq_ok.mp h
    obtain ⟨vs, hvs, hus⟩ := bind_eq_ok.mp h
    cases hus
    rcases List.mem_cons.mp hnull with rfl | hrest
    · cases hv
      exact List.mem_cons_self
    · exact List.mem_cons_of_mem _ (ih hvs hrest)

theorem mem_null_of_any {ts : List TypeExpr} (h : ts.any isNull = true) : .null ∈ ts := by
  obtain ⟨t, ht, hnull⟩ := List.any_eq_true.mp h
  cases t with
  | null => exact ht
  | _ => cases hnull

/-- An optional around a type is resolved to an optional around the resolved type. -/
theorem resolve_unionOf_null (hnormal : t.IsNormal) (hbar : ∀ ts, t ≠ .pipe ts) :
    (unionOf [t, .null]).resolve declared =
      (t.resolve declared).map fun u => unionOf [u, .null] := by
  cases hunion : t.isJoined with
  | false =>
    cases hnull : t.isNull with
    | true =>
      cases t with
      | null => rfl
      | _ => cases hnull
    | false =>
      rw [unionOf_null_of_not_isJoined hunion hnull]
      cases ht : t.resolve declared <;> simp only [resolve, resolveAll, ht] <;> rfl
  | true =>
    cases t with
    | pipe ts => exact absurd rfl (hbar ts)
    | union ts =>
      have hmembers : AreMembers ts := hnormal
      have hresolve (vs : List TypeExpr) : (TypeExpr.union vs).resolve declared =
          (resolveAll declared vs).map unionOf := by
        rw [resolve]
        cases resolveAll declared vs <;> rfl
      by_cases hne : ts = []
      · subst hne
        rfl
      cases hany : ts.any isNull with
      | true =>
        rw [unionOf_null_of_any hmembers hany, hresolve]
        cases hus : resolveAll declared ts with
        | error e => rfl
        | ok us =>
          have hmem := null_mem_of_resolveAll hus (mem_null_of_any hany)
          exact congrArg Except.ok
            (unionOf_null_of_mem (resolveAll_isNormal declared ts hus) hmem).symm
      | false =>
        rw [unionOf_null_of_not_any hmembers hne hany, hresolve, hresolve, resolveAll_append_null]
        cases hus : resolveAll declared ts with
        | error e => rfl
        | ok us =>
          exact congrArg Except.ok (unionOf_append_null (resolveAll_isNormal declared ts hus))
    | _ => cases hunion

theorem annotate_annotate (t : TypeExpr) (ms ns : List Marker) :
    (t.annotate ms).annotate ns = t.annotate (ms ++ ns) := by
  cases t with
  | annotated t ls => simp only [annotate, List.append_assoc]
  | _ => rfl

theorem resolve_annotate (t : TypeExpr) (ms : List Marker) :
    (t.annotate ms).resolve declared = (t.resolve declared).map (·.annotate ms) := by
  have hresolve (u : TypeExpr) (ns : List Marker) : (TypeExpr.annotated u ns).resolve declared =
      (u.resolve declared).map (·.annotate ns) := by
    rw [resolve]
    cases u.resolve declared <;> rfl
  cases t with
  | annotated t ns =>
    rw [annotate, hresolve, hresolve]
    cases t.resolve declared with
    | error e => rfl
    | ok u => exact congrArg Except.ok (annotate_annotate u ns ms).symm
  | _ => exact hresolve _ ms

theorem unionOf_ne_pipe {ts : List TypeExpr} (h : ∀ t ∈ ts, t.IsNormal) (us : List TypeExpr) :
    unionOf ts ≠ .pipe us := by
  unfold unionOf
  split
  · rename_i u hu
    have hmem : u ∈ ts.flatMap members := mem_of_mem_distinct (hu ▸ List.mem_singleton_self u)
    obtain ⟨t, ht, hut⟩ := List.mem_flatMap.mp hmem
    have hflat := (h t ht).flat_members u hut
    rintro rfl
    cases hflat
  · nofun

theorem annotate_ne_pipe (t : TypeExpr) (ms : List Marker) (ts : List TypeExpr) :
    t.annotate ms ≠ .pipe ts := by
  cases t <;> nofun

/-- Resolving references makes no union of plain classes. -/
theorem resolve_ne_pipe {u : TypeExpr} (hbar : ∀ ts, t ≠ .pipe ts)
    (h : t.resolve declared = .ok u) (ts : List TypeExpr) : u ≠ .pipe ts := by
  cases t with
  | forward cls =>
    rw [resolve] at h
    split at h <;> cases h
    nofun
  | union ts =>
    obtain ⟨us, hus, hu⟩ := bind_eq_ok.mp h
    cases hu
    exact unionOf_ne_pipe (resolveAll_isNormal declared ts hus) _
  | annotated t ms =>
    obtain ⟨v, -, hu⟩ := bind_eq_ok.mp h
    cases hu
    exact annotate_ne_pipe v ms _
  | pipe ts => exact absurd rfl (hbar ts)
  | apply _ _ | constant _ | generic _ _ =>
    obtain ⟨v, -, hu⟩ := bind_eq_ok.mp h
    cases hu
    nofun
  | _ =>
    cases h
    nofun

end Resolution

end TypeExpr

open TypeExpr

namespace Wrapper

variable {t : TypeExpr}

/-! ## One wrapper -/

theorem around_isNormal (w : Wrapper) (hnormal : t.IsNormal) : (w.around t).IsNormal := by
  cases w with
  | optional =>
    have hnull : TypeExpr.null.IsNormal := trivial
    exact unionOf_isNormal
      (List.forall_mem_cons.mpr ⟨hnormal, List.forall_mem_singleton.mpr hnull⟩)
  | annotated ms => exact annotate_isNormal t ms
  | array c hc => trivial

theorem around_ne_pipe (w : Wrapper) (hnormal : t.IsNormal) (hbar : ∀ ts, t ≠ .pipe ts) :
    ∀ ts, w.around t ≠ .pipe ts := by
  intro ts
  cases w with
  | optional =>
    change unionOf [t, .null] ≠ _
    rcases optional_cases hnormal hbar with heq | ⟨heq, -⟩ | ⟨-, hinert⟩
    · rw [heq]
      exact hbar ts
    · rw [heq]
      nofun
    · intro heq
      rw [heq] at hinert
      cases hinert
  | annotated ms => exact annotate_ne_pipe t ms ts
  | array c hc => nofun

/-- A wrapper around a type leads to where the type leads. -/
theorem leadsAlike_around (w : Wrapper) (hnormal : t.IsNormal) (hbar : ∀ ts, t ≠ .pipe ts) :
    (w.around t).LeadsAlike t := by
  cases w with
  | optional =>
    change (unionOf [t, .null]).LeadsAlike t
    rcases optional_cases hnormal hbar with heq | ⟨heq, hnull⟩ | ⟨ht, hinert⟩
    · exact .inl (by rw [heq])
    · exact .inl (by rw [heq, core_pair_null hnull])
    · exact .inr ⟨isDeadEnd_of_isInert hinert, isDeadEnd_of_isInert ht⟩
  | annotated ms => exact .inl (by cases t <;> rfl)
  | array c hc => exact .inl (by rw [around, core, if_pos hc, coreFirst])

theorem stripped_annotate (t : TypeExpr) (ms : List Marker) :
    (t.annotate ms).stripped = t.stripped := by
  cases t <;> rfl

theorem marksAlike_annotate {ms : List Marker} (h : (Wrapper.annotated ms).keepsKind = true)
    (t : TypeExpr) : Schema.MarksAlike (t.annotate ms).unwrap.2 t.unwrap.2 := by
  have hms : ms.contains .text = false ∧ ms.contains .keyword = false := by
    simpa only [keepsKind, Bool.and_eq_true, Bool.not_eq_true'] using h
  unfold Schema.MarksAlike
  cases t with
  | annotated t ns =>
    simp only [annotate, unwrap, List.contains_append, hms.1, hms.2, Bool.or_false, and_self]
  | _ => simp only [annotate, unwrap, List.contains_append, hms.1, hms.2, Bool.false_or, and_self]

/-- An optional, or markers that say nothing about the kind, leave the kind as it is. -/
theorem classify_around {s : Schema} (w : Wrapper) (h : w.keepsKind = true)
    (hnormal : t.IsNormal) (hbar : ∀ ts, t ≠ .pipe ts) :
    s.classify (w.around t) = s.classify t := by
  cases w with
  | optional =>
    change s.classify (unionOf [t, .null]) = s.classify t
    rcases optional_cases hnormal hbar with heq | ⟨heq, hnull⟩ | ⟨ht, hinert⟩
    · rw [heq]
    · unfold Schema.classify
      rw [heq, unwrap_pair_null hnull]
    · rw [classify_of_isInert hinert, classify_of_isInert ht]
  | annotated ms =>
    exact Schema.classify_of_marksAlike (stripped_annotate t ms) (marksAlike_annotate h t)
  | array c hc => cases h

/-- The wrapper is put around the resolved type, or the type cannot be resolved. -/
theorem resolve_around (declared : String → Bool) (w : Wrapper) (hnormal : t.IsNormal)
    (hbar : ∀ ts, t ≠ .pipe ts) :
    (w.around t).resolve declared = (t.resolve declared).map w.around := by
  cases w with
  | optional => exact resolve_unionOf_null hnormal hbar
  | annotated ms => exact resolve_annotate t ms
  | array c hc =>
    change (TypeExpr.apply c [t]).resolve declared = _
    cases ht : t.resolve declared <;> simp only [resolve, resolveAll, ht] <;> rfl

end Wrapper

/-! ## Stacks -/

namespace TypeExpr

variable {t : TypeExpr}

theorem wrapped_normal (hnormal : t.IsNormal) (hbar : ∀ ts, t ≠ .pipe ts) (stack : List Wrapper) :
    (t.wrapped stack).IsNormal ∧ ∀ ts, t.wrapped stack ≠ .pipe ts := by
  induction stack with
  | nil => exact ⟨hnormal, hbar⟩
  | cons w stack ih => exact ⟨w.around_isNormal ih.1, w.around_ne_pipe ih.1 ih.2⟩

theorem leadsAlike_wrapped (hnormal : t.IsNormal) (hbar : ∀ ts, t ≠ .pipe ts)
    (stack : List Wrapper) : (t.wrapped stack).LeadsAlike t := by
  induction stack with
  | nil => exact .inl rfl
  | cons w stack ih =>
    obtain ⟨hinner, hinnerbar⟩ := wrapped_normal hnormal hbar stack
    exact (w.leadsAlike_around hinner hinnerbar).trans ih

theorem classify_wrapped {s : Schema} (hnormal : t.IsNormal) (hbar : ∀ ts, t ≠ .pipe ts)
    {stack : List Wrapper} (h : ∀ w ∈ stack, w.keepsKind = true) :
    s.classify (t.wrapped stack) = s.classify t := by
  induction stack with
  | nil => rfl
  | cons w stack ih =>
    obtain ⟨hw, hstack⟩ := List.forall_mem_cons.mp h
    obtain ⟨hinner, hinnerbar⟩ := wrapped_normal hnormal hbar stack
    exact (w.classify_around hw hinner hinnerbar).trans (ih hstack)

theorem resolve_wrapped (declared : String → Bool) (hnormal : t.IsNormal)
    (hbar : ∀ ts, t ≠ .pipe ts) (stack : List Wrapper) :
    (t.wrapped stack).resolve declared = (t.resolve declared).map (·.wrapped stack) := by
  induction stack with
  | nil =>
    change t.resolve declared = (t.resolve declared).map id
    cases t.resolve declared <;> rfl
  | cons w stack ih =>
    obtain ⟨hinner, hinnerbar⟩ := wrapped_normal hnormal hbar stack
    change (w.around (t.wrapped stack)).resolve declared = _
    rw [w.resolve_around declared hinner hinnerbar, ih]
    cases t.resolve declared <;> rfl

/-- **Wrappers are transparent.** Let `t` be a type in normal form, and no union of plain classes
joined by bars. With a stack of optionals, markers and arrays around it, its references are resolved
as they are without the stack. A walk that goes on from the type in the stack, as it was declared or
resolved, comes to the same stored names and the same type as a walk from the type itself, or both
fail with a fault of the path, or with the same other fault. If there are no arrays in the stack and
no markers that name a kind, the kind stays the same as well. -/
theorem wrapped_transparent (hnormal : t.IsNormal) (hbar : ∀ ts, t ≠ .pipe ts)
    (stack : List Wrapper) (declared : String → Bool) :
    (t.wrapped stack).resolve declared = (t.resolve declared).map (·.wrapped stack) ∧
      ∀ u, u = t ∨ t.resolve declared = .ok u →
        (∀ (s : Schema) naming before others segments, segments ≠ [] →
          Schema.placeless (s.walkFrom naming before (u.wrapped stack) segments) =
            Schema.placeless (s.walkFrom naming others u segments)) ∧
        ((∀ w ∈ stack, w.keepsKind = true) →
          ∀ s : Schema, s.classify (u.wrapped stack) = s.classify u) := by
  refine ⟨resolve_wrapped declared hnormal hbar stack, fun u hu => ?_⟩
  obtain ⟨hunormal, hubar⟩ : u.IsNormal ∧ ∀ ts, u ≠ .pipe ts := by
    rcases hu with rfl | hresolved
    · exact ⟨hnormal, hbar⟩
    · exact ⟨resolve_isNormal declared t hresolved, resolve_ne_pipe hbar hresolved⟩
  refine ⟨fun s naming before others segments hne => ?_, fun hstack s => ?_⟩
  · exact Schema.walkFrom_placeless_of_leadsAlike (leadsAlike_wrapped hunormal hubar stack)
      before others hne
  · exact classify_wrapped hunormal hubar hstack

/-- An optional label, written before its class is declared: an optional array of marked optional
labels leads to the name as a label does, and marked optional labels are objects. -/
theorem wrapped_transparent_label :
    let label : ClassDecl TypeExpr :=
      ⟨"Label", .model, none, [⟨"name", .basic .text, none, none, none, none⟩], [], false⟩
    let s : Schema := ⟨[label], [], [], .strict⟩
    let written : TypeSyntax := .optional (.reference "Label")
    let stack : List Wrapper := [.optional, .array .list rfl, .annotated [.note], .optional]
    let t := ((written.elaborate fun _ => false).run []).1
    let read : TypeExpr := .union [.named "Label", .null]
    let labels : TypeExpr := .union [.apply .list [.annotated read [.note]], .null]
    let marked : TypeExpr := .union [.annotated read [.note], .null]
    t.IsNormal ∧ (∀ ts, t ≠ .pipe ts) ∧ t.resolve s.isDeclared = .ok read ∧
      (((stack.foldr Wrapper.write written).elaborate fun _ => false).run []).1 = t.wrapped stack ∧
      (t.wrapped stack).resolve s.isDeclared = .ok labels ∧
      Schema.placeless (s.walkFrom none [] labels ["name"]) = .ok (.basic .text, ["name"]) ∧
      s.classify marked = .object := by
  intro label s written stack t read labels marked
  have hnormal : t.IsNormal :=
    (TypeSyntax.elaborate_isNormal (fun _ => false) written [] nofun).1
  have hbar : ∀ ts, t ≠ .pipe ts := nofun
  have hread : t.resolve s.isDeclared = .ok read := rfl
  obtain ⟨hlabels, halike⟩ := wrapped_transparent hnormal hbar stack s.isDeclared
  obtain ⟨-, hmarked⟩ :=
    wrapped_transparent hnormal hbar [.optional, .annotated [.note]] s.isDeclared
  have hwalk := (halike read (.inr hread)).1 s none [] ["label"] ["name"] (List.cons_ne_nil _ _)
  have hkind := (hmarked read (.inr hread)).2 (by decide) s
  exact ⟨hnormal, hbar, hread, rfl, hlabels, hwalk, hkind⟩

end TypeExpr

end TypedSearch
