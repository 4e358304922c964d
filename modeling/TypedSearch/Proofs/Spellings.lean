import Mathlib.Logic.Relation
import TypedSearch.Proofs.ArrayLayers
import TypedSearch.Proofs.WrapperStacks

/-!
# Spellings of a type

A union of plain classes can be spelled with bars, and an object with arbitrary keys as a `Mapping`.
Neither spelling is seen: an optional with bars is not taken off, and a `Mapping` is no object. What
a spelling changes is decided where the wrappers end. If an overlooked type stands there, nothing is
known about it; otherwise the type is read as if it were spelled out.

* `TypeExpr.Respells`: one occurrence in a type is spelled in the other way.
* `TypeExpr.spelledOut`, `TypeExpr.spelledOut_of_respells`: the spelling that types with other
  spellings share.
* `TypeExpr.isOverlooked`: a type that is read in another way than it is meant.
* `TypeExpr.unwrap_spelledOut`, `TypeExpr.core_spelledOut`, `TypeExpr.holder_spelledOut`: wrappers
  come off a type as they come off the type spelled out.
* `TypeExpr.spelledAlike_cases`: types that are spelled alike and not overlooked.
* `Schema.classify_of_isOverlooked`: the kind of an overlooked type is left to its markers.
-/

namespace TypedSearch

/-- An object with keys and values of given types is a `Dict`, not a `Mapping`. -/
def Container.spelledOut (c : Container) (arity : Nat) : Container :=
  if c = .mapping ∧ arity = 2 then .dict else c

namespace TypeExpr

variable {t u : TypeExpr}

/-! ## Respelling -/

/-- One occurrence in the type is spelled in the other way. -/
inductive Respells : TypeExpr → TypeExpr → Prop
  | bars (ts : List TypeExpr) : Respells (.union ts) (.pipe ts)
  | mapping (k v : TypeExpr) : Respells (.apply .dict [k, v]) (.apply .mapping [k, v])
  | apply {t u : TypeExpr} (c : Container) (before after : List TypeExpr) :
      Respells t u → Respells (.apply c (before ++ t :: after)) (.apply c (before ++ u :: after))
  | union {t u : TypeExpr} (before after : List TypeExpr) :
      Respells t u → Respells (.union (before ++ t :: after)) (.union (before ++ u :: after))
  | pipe {t u : TypeExpr} (before after : List TypeExpr) :
      Respells t u → Respells (.pipe (before ++ t :: after)) (.pipe (before ++ u :: after))
  | annotated {t u : TypeExpr} (ms : List Marker) :
      Respells t u → Respells (.annotated t ms) (.annotated u ms)
  | constant {t u : TypeExpr} : Respells t u → Respells (.constant t) (.constant u)
  | generic {t u : TypeExpr} (cls : String) :
      Respells t u → Respells (.generic cls t) (.generic cls u)

mutual

/-- The type with its unions written out and its objects as `Dict`. -/
def spelledOut : TypeExpr → TypeExpr
  | .apply c args => .apply (c.spelledOut args.length) (spelledOutAll args)
  | .union ts | .pipe ts => .union (spelledOutAll ts)
  | .annotated t ms => .annotated t.spelledOut ms
  | .constant t => .constant t.spelledOut
  | .generic cls t => .generic cls t.spelledOut
  | t => t
termination_by structural t => t

/-- The types, each spelled out. -/
def spelledOutAll : List TypeExpr → List TypeExpr
  | [] => []
  | t :: ts => t.spelledOut :: spelledOutAll ts
termination_by structural ts => ts

end

theorem spelledOutAll_eq_map (ts : List TypeExpr) : spelledOutAll ts = ts.map spelledOut := by
  induction ts with
  | nil => rfl
  | cons t ts ih => rw [spelledOutAll, ih, List.map_cons]

/-- The types are spelled out to one type. -/
def SpelledAlike (t u : TypeExpr) : Prop := t.spelledOut = u.spelledOut

theorem spelledAlike_of_respells (h : Respells t u) : t.SpelledAlike u := by
  unfold SpelledAlike
  induction h with
  | bars ts => rfl
  | mapping k v => rfl
  | apply c before after _ ih | union before after _ ih | pipe before after _ ih =>
    simp only [spelledOut, spelledOutAll_eq_map, List.map_append, List.map_cons, ih,
      List.length_append, List.length_cons]
  | annotated ms _ ih | constant _ ih | generic cls _ ih => rw [spelledOut, spelledOut, ih]

/-- Types that come from each other by any number of respellings are spelled out to one type. -/
theorem spelledOut_of_respells (h : Relation.ReflTransGen Respells t u) : t.SpelledAlike u := by
  induction h with
  | refl => rfl
  | tail _ hlast ih => exact ih.trans (spelledAlike_of_respells hlast)

/-! ## Overlooked types -/

/-- The type is spelled so that it is read in another way than it is meant: an optional with bars,
or a `Mapping`. -/
def isOverlooked : TypeExpr → Bool
  | .pipe ts => isOptional ts
  | .apply .mapping [_, _] => true
  | _ => false

theorem isDeadEnd_of_isOverlooked (h : t.isOverlooked = true) : t.isDeadEnd = true := by
  unfold isOverlooked at h
  split at h
  · rfl
  · rfl
  · cases h

theorem item?_of_isOverlooked (h : t.isOverlooked = true) : t.item? = none := by
  unfold isOverlooked at h
  split at h
  · rfl
  · rfl
  · cases h

/-! ## Wrappers in both spellings -/

theorem isNull_spelledOut (t : TypeExpr) : t.spelledOut.isNull = t.isNull := by
  cases t <;> rfl

theorem isOptional_spelledOutAll (ts : List TypeExpr) :
    isOptional (spelledOutAll ts) = isOptional ts := by
  rw [spelledOutAll_eq_map, isOptional, isOptional, List.any_map, List.filter_map, List.length_map]
  simp only [Function.comp_def, isNull_spelledOut]

theorem isArray_spelledOut (c : Container) (arity : Nat) :
    (c.spelledOut arity).isArray = c.isArray := by
  unfold Container.spelledOut
  split
  · rename_i h
    rw [h.1]
    rfl
  · rfl

mutual

/-- Down to a type that is not overlooked, optionals and markers come off as they do spelled out. -/
theorem unwrap_spelledOut : ∀ t : TypeExpr, t.stripped.isOverlooked = false →
    t.spelledOut.unwrap = (t.stripped.spelledOut, t.unwrap.2)
  | .annotated t ms, h => by
    rw [spelledOut, unwrap, unwrap_spelledOut t h]
    rfl
  | .union ts, h => by
    rw [spelledOut, unwrap, isOptional_spelledOutAll]
    unfold stripped at h ⊢
    rw [unwrap] at h ⊢
    split
    · rename_i hopt
      rw [if_pos hopt] at h
      exact unwrapPresent_spelledOut ts h
    · rfl
  | .pipe ts, h => by
    have hopt : isOptional ts = false := h
    rw [spelledOut, unwrap, isOptional_spelledOutAll, hopt]
    rfl
  | .apply _ _, _ | .constant _, _ | .generic _ _, _ | .basic _, _ | .null, _ | .any, _
  | .variable, _ | .bare _, _ | .bareConstant, _ | .named _, _ | .forward _, _
  | .literal _, _ => rfl

theorem unwrapPresent_spelledOut : ∀ ts : List TypeExpr,
    (unwrapPresent ts).1.isOverlooked = false →
    unwrapPresent (spelledOutAll ts) = ((unwrapPresent ts).1.spelledOut, (unwrapPresent ts).2)
  | [], _ => rfl
  | t :: ts, h => by
    rw [unwrapPresent] at h
    rw [spelledOutAll, unwrapPresent, unwrapPresent, isNull_spelledOut]
    split
    · rename_i hnull
      rw [if_pos hnull] at h
      exact unwrapPresent_spelledOut ts h
    · rename_i hnull
      rw [if_neg hnull] at h
      exact unwrap_spelledOut t h

end

theorem stripped_spelledOut (h : t.stripped.isOverlooked = false) :
    t.spelledOut.stripped = t.stripped.spelledOut := by
  rw [stripped, unwrap_spelledOut t h]

theorem item?_spelledOut (t : TypeExpr) : t.spelledOut.item? = t.item?.map spelledOut := by
  cases t with
  | apply c args =>
    rw [spelledOut, item?, item?, isArray_spelledOut]
    split
    · cases args <;> rfl
    · rfl
  | bare a => cases a <;> rfl
  | basic b => cases b <;> rfl
  | _ => rfl

/-- An overlooked type below a type without optionals and markers is its holder. -/
theorem stripped_isOverlooked (h : t.holder.isOverlooked = false) :
    t.stripped.isOverlooked = false := by
  cases hover : t.stripped.isOverlooked with
  | false => rfl
  | true =>
    rw [holder_of_item?_none (item?_of_isOverlooked hover), hover] at h
    cases h

theorem holder_spelledOut (h : t.holder.isOverlooked = false) :
    t.spelledOut.holder = t.holder.spelledOut := by
  have hbare := stripped_spelledOut (stripped_isOverlooked h)
  cases hitem : t.stripped.item? with
  | none =>
    have hspelled : t.spelledOut.stripped.item? = none := by
      rw [hbare, item?_spelledOut, hitem]
      rfl
    rw [holder_of_item?_none hspelled, holder_of_item?_none hitem, hbare]
  | some item =>
    have hspelled : t.spelledOut.stripped.item? = some item.spelledOut := by
      rw [hbare, item?_spelledOut, hitem]
      rfl
    rw [holder_of_item? hitem] at h ⊢
    rw [holder_of_item? hspelled, stripped_spelledOut h]

/-- The markers above the holder, from outside in. -/
def holderMarkers (t : TypeExpr) : List Marker :=
  match t.stripped.item? with
  | some item => t.unwrap.2 ++ item.unwrap.2
  | none => t.unwrap.2

mutual

/-- Down to a type that is not overlooked, all wrappers come off as they do spelled out. -/
theorem core_spelledOut : ∀ t : TypeExpr, t.core.isOverlooked = false →
    t.spelledOut.core = t.core.spelledOut
  | .annotated t ms, h => by
    rw [spelledOut, core, core_spelledOut t h]
    rfl
  | .union ts, h => by
    rw [core] at h
    rw [spelledOut, core, core, isOptional_spelledOutAll]
    split
    · rename_i hopt
      rw [if_pos hopt] at h
      exact corePresent_spelledOut ts h
    · rfl
  | .pipe ts, h => by
    have hopt : isOptional ts = false := h
    rw [spelledOut, core, isOptional_spelledOutAll, hopt]
    rfl
  | .apply c args, h => by
    rw [core] at h
    rw [spelledOut, core, core, isArray_spelledOut]
    split
    · rename_i hc
      rw [if_pos hc] at h
      exact coreFirst_spelledOut args h
    · rfl
  | .bare a, _ => by cases a <;> rfl
  | .basic b, _ => by cases b <;> rfl
  | .constant _, _ | .generic _ _, _ | .null, _ | .any, _ | .variable, _ | .bareConstant, _
  | .named _, _ | .forward _, _ | .literal _, _ => rfl

theorem corePresent_spelledOut : ∀ ts : List TypeExpr, (corePresent ts).isOverlooked = false →
    corePresent (spelledOutAll ts) = (corePresent ts).spelledOut
  | [], _ => rfl
  | t :: ts, h => by
    rw [corePresent] at h
    rw [spelledOutAll, corePresent, corePresent, isNull_spelledOut]
    split
    · rename_i hnull
      rw [if_pos hnull] at h
      exact corePresent_spelledOut ts h
    · rename_i hnull
      rw [if_neg hnull] at h
      exact core_spelledOut t h

theorem coreFirst_spelledOut : ∀ ts : List TypeExpr, (coreFirst ts).isOverlooked = false →
    coreFirst (spelledOutAll ts) = (coreFirst ts).spelledOut
  | [], _ => rfl
  | t :: _, h => core_spelledOut t h

end

/-! ## Types that are spelled alike -/

/-- The type is made of other types. -/
def isMade : TypeExpr → Bool
  | .apply _ _ | .union _ | .pipe _ | .annotated _ _ | .constant _ | .generic _ _ => true
  | _ => false

theorem isMade_spelledOut (t : TypeExpr) : t.spelledOut.isMade = t.isMade := by
  cases t <;> rfl

theorem spelledOut_of_not_isMade (h : t.isMade = false) : t.spelledOut = t := by
  cases t <;> first | rfl | cases h

theorem SpelledAlike.isMade (h : t.SpelledAlike u) : t.isMade = u.isMade := by
  rw [← isMade_spelledOut t, ← isMade_spelledOut u, h]

theorem SpelledAlike.eq_of_not_isMade (h : t.SpelledAlike u) (ht : t.isMade = false) : t = u := by
  have hu : u.isMade = false := h.isMade ▸ ht
  rw [← spelledOut_of_not_isMade ht, ← spelledOut_of_not_isMade hu, h]

/-- A collection that is not overlooked keeps its spelling. -/
theorem container_spelledOut {c : Container} {args : List TypeExpr}
    (h : (TypeExpr.apply c args).isOverlooked = false) : c.spelledOut args.length = c := by
  unfold Container.spelledOut
  split
  · rename_i hpair
    obtain ⟨rfl, hlength⟩ := hpair
    obtain ⟨k, v, rfl⟩ := List.length_eq_two.mp hlength
    cases h
  · rfl

theorem isDict_spelledOut (h : t.isOverlooked = false) : t.spelledOut.isDict = t.isDict := by
  cases t with
  | apply c args => rw [spelledOut, isDict, isDict, container_spelledOut h]
  | _ => rfl

/-- Types that are spelled alike, neither of them overlooked, are one type that is not made of
others, or no objects, or objects with keys and values that are spelled alike. -/
theorem SpelledAlike.cases (h : t.SpelledAlike u) (ht : t.isOverlooked = false)
    (hu : u.isOverlooked = false) :
    t = u ∨ (t.isMade = true ∧ t.isDict = false ∧ u.isMade = true ∧ u.isDict = false) ∨
      ∃ c args others, t = .apply c args ∧ u = .apply c others ∧ c.isDict = true ∧
        List.Forall₂ SpelledAlike args others := by
  cases hmade : t.isMade with
  | false => exact .inl (h.eq_of_not_isMade hmade)
  | true =>
    have hmade' : u.isMade = true := h.isMade ▸ hmade
    have hdict : t.isDict = u.isDict := by rw [← isDict_spelledOut ht, ← isDict_spelledOut hu, h]
    cases hd : t.isDict with
    | false => exact .inr (.inl ⟨rfl, rfl, hmade', hdict ▸ hd⟩)
    | true =>
      refine .inr (.inr ?_)
      have hd' : u.isDict = true := hdict ▸ hd
      cases t with
      | apply c args =>
        cases u with
        | apply c' others =>
          unfold SpelledAlike at h
          rw [spelledOut, spelledOut, container_spelledOut ht, container_spelledOut hu,
            TypeExpr.apply.injEq, spelledOutAll_eq_map, spelledOutAll_eq_map] at h
          obtain ⟨rfl, hargs⟩ := h
          refine ⟨c, args, others, rfl, rfl, hd, ?_⟩
          rwa [← List.forall₂_eq_eq_eq, List.forall₂_map_left_iff, List.forall₂_map_right_iff]
            at hargs
        | bare a => cases hmade'
        | basic b => cases hmade'
        | _ => cases hd'
      | bare a => cases hmade
      | basic b => cases hmade
      | _ => cases hd

end TypeExpr

/-! ## Kinds -/

namespace Schema

variable {s s' : Schema} {t u : TypeExpr}

/-- An object type apart, a type that is made of others has a kind by markers alone. -/
theorem kindOf_of_isMade (h : t.isMade = true) (hdict : t.isDict = false) (markers : List Marker) :
    s.kindOf markers t = markedKind markers := by
  unfold kindOf markedKind
  rw [hdict]
  cases t <;> first | rfl | cases h

theorem isStructured_of_isMade (h : t.isMade = true) : s.isStructured t = false := by
  cases t <;> first | rfl | cases h

theorem isMade_of_isOverlooked (h : t.isOverlooked = true) : t.isMade = true := by
  unfold TypeExpr.isOverlooked at h
  split at h
  · rfl
  · rfl
  · cases h

/-- Nothing is known about an overlooked type but what the markers above it say. -/
theorem classify_of_isOverlooked (h : t.holder.isOverlooked = true) :
    s.classify t = markedKind t.holderMarkers := by
  have hmade := isMade_of_isOverlooked h
  have hdict := TypeExpr.isDict_of_isDeadEnd (TypeExpr.isDeadEnd_of_isOverlooked h)
  unfold TypeExpr.holderMarkers
  cases hitem : t.stripped.item? with
  | none =>
    rw [TypeExpr.holder_of_item?_none hitem] at hmade hdict
    rw [classify_of_item?_none hitem]
    exact kindOf_of_isMade hmade hdict _
  | some item =>
    rw [TypeExpr.holder_of_item? hitem] at hmade hdict
    rw [classify_of_item? hitem, isStructured_of_isMade hmade]
    exact kindOf_of_isMade hmade hdict _

end Schema

end TypedSearch
