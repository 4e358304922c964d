import Mathlib.Data.List.Induction
import TypedSearch.Proofs.Results
import TypedSearch.Schema.Declaration

/-!
# The normal form of unions

Writing out a type and resolving its references leave no union inside a union, no type twice in a
union, and no union of a single type.

* `TypeExpr.distinct_of_areDistinct`, `TypeExpr.areDistinct_distinct`: the types of a row, each
  once.
* `TypeExpr.IsNormal`: a type whose union, if it is one, is in normal form.
* `TypeExpr.unionOf_isNormal`, `TypeExpr.pipeOf_isNormal`: unions that are made are normal.
* `Coined.IsMade`, `KeepsMade`: coined types that are made of normal types.
* `TypeSyntax.elaborate_isNormal`, `TypeExpr.resolve_isNormal`: so is every type that is read.
-/

namespace TypedSearch

namespace TypeExpr

/-! ## Rows without repetition -/

/-- No type of the row is the same as one behind it. -/
def AreDistinct (ts : List TypeExpr) : Prop := ts.Pairwise fun s t => s.same t = false

theorem distinct_append_singleton (ts : List TypeExpr) (t : TypeExpr) :
    distinct (ts ++ [t]) =
      if (distinct ts).any fun s => s.same t then distinct ts else distinct ts ++ [t] := by
  unfold distinct
  rw [List.foldl_append]
  rfl

theorem distinct_of_areDistinct {ts : List TypeExpr} (h : AreDistinct ts) : distinct ts = ts := by
  induction ts using List.reverseRecOn with
  | nil => rfl
  | append_singleton ts t ih =>
    obtain ⟨hts, -, hlast⟩ := List.pairwise_append.mp h
    have hnone : (ts.any fun s => s.same t) = false := by
      rw [List.any_eq_false]
      intro s hs
      rw [hlast s hs t (List.mem_singleton_self t)]
      exact Bool.false_ne_true
    rw [distinct_append_singleton, ih hts, hnone]
    rfl

theorem areDistinct_distinct (ts : List TypeExpr) : AreDistinct (distinct ts) := by
  induction ts using List.reverseRecOn with
  | nil => exact List.Pairwise.nil
  | append_singleton ts t ih =>
    rw [distinct_append_singleton]
    split
    · exact ih
    · rename_i hnone
      refine List.pairwise_append.mpr ⟨ih, List.pairwise_singleton _ _, fun s hs u hu => ?_⟩
      rw [List.mem_singleton.mp hu]
      rw [List.any_eq_true] at hnone
      cases hsame : s.same t with
      | false => rfl
      | true => exact absurd ⟨s, hs, hsame⟩ hnone

theorem mem_of_mem_distinct {ts : List TypeExpr} {t : TypeExpr} (h : t ∈ distinct ts) : t ∈ ts := by
  induction ts using List.reverseRecOn with
  | nil => exact h
  | append_singleton ts u ih =>
    rw [distinct_append_singleton] at h
    split at h
    · exact List.mem_append_left _ (ih h)
    · rcases List.mem_append.mp h with hold | hnew
      · exact List.mem_append_left _ (ih hold)
      · exact List.mem_append_right _ hnew

theorem any_same_distinct {ts : List TypeExpr} {t : TypeExpr} (h : t ∈ ts)
    (hsame : t.same t = true) : ((distinct ts).any fun s => s.same t) = true := by
  induction ts using List.reverseRecOn with
  | nil => cases h
  | append_singleton ts u ih =>
    rw [distinct_append_singleton]
    rcases List.mem_append.mp h with hold | hnew
    · split
      · exact ih hold
      · rw [List.any_append, ih hold]
        rfl
    · obtain rfl := List.mem_singleton.mp hnew
      split
      · assumption
      · simp [hsame]

theorem distinct_distinct_append (ts : List TypeExpr) (t : TypeExpr) :
    distinct (distinct ts ++ [t]) = distinct (ts ++ [t]) := by
  rw [distinct_append_singleton, distinct_append_singleton,
    distinct_of_areDistinct (areDistinct_distinct ts)]

/-! ## Normal unions -/

/-- The type is a union, in either spelling. -/
def isJoined : TypeExpr → Bool
  | .union _ | .pipe _ => true
  | _ => false

/-- A row that can be the members of a normal union. -/
structure AreMembers (ts : List TypeExpr) : Prop where
  distinct : AreDistinct ts
  several : ts.length ≠ 1
  flat : ∀ t ∈ ts, t.isJoined = false

/-- If the type is a union, it is flat, without repetition, and not of a single type. -/
def IsNormal : TypeExpr → Prop
  | .union ts | .pipe ts => AreMembers ts
  | _ => True

theorem isNormal_of_not_isJoined {t : TypeExpr} (h : t.isJoined = false) : t.IsNormal := by
  cases t with
  | union ts | pipe ts => cases h
  | _ => trivial

theorem members_of_not_isJoined {t : TypeExpr} (h : t.isJoined = false) : t.members = [t] := by
  cases t <;> first | rfl | cases h

theorem IsNormal.flat_members {t : TypeExpr} (h : t.IsNormal) :
    ∀ u ∈ t.members, u.isJoined = false := by
  cases ht : t.isJoined with
  | false =>
    rw [members_of_not_isJoined ht]
    exact List.forall_mem_singleton.mpr ht
  | true =>
    cases t with
    | union ts | pipe ts => exact AreMembers.flat h
    | _ => cases ht

/-- Flat types make a normal union, or are one type. -/
theorem isNormal_of_flat {make : List TypeExpr → TypeExpr} {ts : List TypeExpr}
    (hmake : ∀ us, AreMembers us → (make us).IsNormal) (hflat : ∀ t ∈ ts, t.isJoined = false) :
    (match distinct ts with
      | [t] => t
      | us => make us).IsNormal := by
  have hdistinct := areDistinct_distinct ts
  have hmem : ∀ t ∈ distinct ts, t.isJoined = false := fun t ht => hflat t (mem_of_mem_distinct ht)
  revert hdistinct hmem
  generalize distinct ts = us
  intro hdistinct hmem
  split
  · exact isNormal_of_not_isJoined (hmem _ (List.mem_singleton_self _))
  · rename_i hne
    refine hmake us ⟨hdistinct, fun hlength => ?_, hmem⟩
    obtain ⟨u, rfl⟩ := List.length_eq_one_iff.mp hlength
    exact hne u rfl

theorem unionOf_isNormal {ts : List TypeExpr} (h : ∀ t ∈ ts, t.IsNormal) :
    (unionOf ts).IsNormal := by
  refine isNormal_of_flat (fun us hus => hus) fun u hu => ?_
  obtain ⟨t, ht, hut⟩ := List.mem_flatMap.mp hu
  exact (h t ht).flat_members u hut

theorem members_unionOf {ts : List TypeExpr} (h : ∀ t ∈ ts, t.IsNormal) :
    (unionOf ts).members = distinct (ts.flatMap members) := by
  unfold unionOf
  split
  · rename_i u hu
    have hmem : u ∈ ts.flatMap members := mem_of_mem_distinct (hu ▸ List.mem_singleton_self u)
    obtain ⟨t, ht, hut⟩ := List.mem_flatMap.mp hmem
    rw [hu, members_of_not_isJoined ((h t ht).flat_members u hut)]
  · rfl

theorem orElse_isNormal {s t : TypeExpr} (hs : s.IsNormal) (ht : t.IsNormal) :
    (s.orElse t).IsNormal := by
  unfold orElse
  split
  · refine isNormal_of_flat (fun us hus => hus) fun u hu => ?_
    rcases List.mem_append.mp hu with hu | hu
    · exact hs.flat_members u hu
    · exact ht.flat_members u hu
  · exact unionOf_isNormal (List.forall_mem_cons.mpr ⟨hs, List.forall_mem_singleton.mpr ht⟩)

theorem pipeOf_isNormal {ts : List TypeExpr} (h : ∀ t ∈ ts, t.IsNormal) :
    (pipeOf ts).IsNormal := by
  cases ts with
  | nil => trivial
  | cons t ts =>
    obtain ⟨ht, hts⟩ := List.forall_mem_cons.mp h
    change (ts.foldl orElse t).IsNormal
    induction ts generalizing t with
    | nil => exact ht
    | cons u ts ih =>
      obtain ⟨hu, hts⟩ := List.forall_mem_cons.mp hts
      have hjoined := orElse_isNormal ht hu
      exact ih (t.orElse u) (List.forall_mem_cons.mpr ⟨hjoined, hts⟩) hjoined hts

theorem annotate_isNormal (t : TypeExpr) (ms : List Marker) : (t.annotate ms).IsNormal := by
  cases t <;> trivial

end TypeExpr

/-! ## Types that are written out -/

/-- A type that was made of the same parts is given again; else the type is coined. -/
theorem run_coin (maker : Maker) (parts : List TypeExpr) (t : TypeExpr) (coined : List Coined) :
    (coin maker parts t).run coined =
      match coined.find? fun (c : Coined) =>
          c.maker == maker && TypeExpr.sameLists c.parts parts with
      | some c => (c.type, coined)
      | none => (t, coined ++ [⟨maker, parts, t⟩]) := by
  unfold coin
  cases hfound : coined.find? fun (c : Coined) =>
      c.maker == maker && TypeExpr.sameLists c.parts parts with
  | some c =>
    simp only [StateT.run_bind, StateT.run_get, pure_bind, hfound]
    rfl
  | none =>
    simp only [StateT.run_bind, StateT.run_get, pure_bind, hfound]
    rfl

/-- The type that is made of the parts. -/
def Maker.make : Maker → List TypeExpr → TypeExpr
  | .apply c, ts => .apply c ts
  | .union, ts => .unionOf ts
  | .annotated ms, [t] => t.annotate ms
  | .constant, [t] => .constant t
  | .generic cls, [t] => .generic cls t
  | _, _ => .null

/-- The type is the one that is made of its parts, and these are normal. -/
structure Coined.IsMade (c : Coined) : Prop where
  type_eq : c.type = c.maker.make c.parts
  parts_isNormal : ∀ t ∈ c.parts, t.IsNormal

theorem Maker.make_isNormal (maker : Maker) {parts : List TypeExpr}
    (h : ∀ t ∈ parts, t.IsNormal) : (maker.make parts).IsNormal := by
  unfold make
  split
  · trivial
  · exact TypeExpr.unionOf_isNormal h
  · exact TypeExpr.annotate_isNormal _ _
  · trivial
  · trivial
  · trivial

/-- From coined types that are made of normal ones the computation goes on to such types, and gives
what has the property. -/
def KeepsMade {α : Type} (x : Coinage α) (P : α → Prop) : Prop :=
  ∀ coined : List Coined, (∀ c ∈ coined, c.IsMade) →
    P (x.run coined).1 ∧ ∀ c ∈ (x.run coined).2, c.IsMade

namespace KeepsMade

variable {α β : Type} {P : α → Prop} {Q : β → Prop}

theorem pure {a : α} (h : P a) : KeepsMade (Pure.pure a) P := fun _ hcoined => ⟨h, hcoined⟩

theorem bind {x : Coinage α} {g : α → Coinage β} (hx : KeepsMade x P)
    (hg : ∀ a, P a → KeepsMade (g a) Q) : KeepsMade (x >>= g) Q := by
  intro coined hcoined
  obtain ⟨ha, hlater⟩ := hx coined hcoined
  exact hg _ ha _ hlater

/-- What is coined of normal types is normal, whether it is new or was made before. -/
theorem coin (maker : Maker) {parts : List TypeExpr} (h : ∀ t ∈ parts, t.IsNormal) :
    KeepsMade (coin maker parts (maker.make parts)) TypeExpr.IsNormal := by
  intro coined hcoined
  rw [run_coin]
  split
  · rename_i c hfound
    have hmade := hcoined c (List.mem_of_find?_eq_some hfound)
    refine ⟨?_, hcoined⟩
    change c.type.IsNormal
    rw [hmade.type_eq]
    exact c.maker.make_isNormal hmade.parts_isNormal
  · refine ⟨maker.make_isNormal h, fun c hc => ?_⟩
    rcases List.mem_append.mp hc with hold | hnew
    · exact hcoined c hold
    · rw [List.mem_singleton.mp hnew]
      exact ⟨rfl, h⟩

end KeepsMade

open TypeExpr

theorem joinAll_isNormal {t : TypeExpr} {ts : List TypeExpr} (ht : t.IsNormal)
    (hts : ∀ u ∈ ts, u.IsNormal) : KeepsMade (joinAll t ts) IsNormal := by
  induction ts generalizing t with
  | nil => exact .pure ht
  | cons u ts ih =>
    obtain ⟨hu, hts⟩ := List.forall_mem_cons.mp hts
    rw [joinAll]
    split
    · exact KeepsMade.bind (.pure (orElse_isNormal ht hu)) fun v hv => ih hv hts
    · rename_i hplain
      rw [orElse, if_neg hplain]
      have hparts := List.forall_mem_cons.mpr ⟨ht, List.forall_mem_singleton.mpr hu⟩
      exact KeepsMade.bind (.coin .union hparts) fun v hv => ih hv hts

mutual

/-- Every type is normal once it is written out, if those coined before are made of normal types. -/
theorem TypeSyntax.elaborate_isNormal (declared : String → Bool) :
    ∀ x : TypeSyntax, KeepsMade (x.elaborate declared) IsNormal
  | .basic _ | .null | .any | .variable | .bare _ | .bareConstant => .pure trivial
  | .reference cls => by
    rw [TypeSyntax.elaborate]
    exact .pure (by split <;> trivial)
  | .apply c args => by
    rw [TypeSyntax.elaborate]
    refine (elaborateAll_isNormal declared args).bind fun ts hts => ?_
    split
    · exact .pure trivial
    · exact .coin (.apply c) hts
  | .optional x => by
    rw [TypeSyntax.elaborate]
    refine (TypeSyntax.elaborate_isNormal declared x).bind fun t ht => .coin .union ?_
    exact List.forall_mem_cons.mpr ⟨ht, List.forall_mem_singleton.mpr trivial⟩
  | .union xs => by
    rw [TypeSyntax.elaborate]
    exact (elaborateAll_isNormal declared xs).bind fun ts hts => .coin .union hts
  | .pipe xs => by
    rw [TypeSyntax.elaborate]
    refine (elaborateAll_isNormal declared xs).bind fun ts hts => ?_
    split
    · exact .pure trivial
    · obtain ⟨ht, hts⟩ := List.forall_mem_cons.mp hts
      exact joinAll_isNormal ht hts
  | .annotated x ms => by
    rw [TypeSyntax.elaborate]
    exact (TypeSyntax.elaborate_isNormal declared x).bind fun t ht =>
      .coin (.annotated ms) (List.forall_mem_singleton.mpr ht)
  | .literal vs => .pure trivial
  | .constant x => by
    rw [TypeSyntax.elaborate]
    exact (TypeSyntax.elaborate_isNormal declared x).bind fun t ht =>
      .coin .constant (List.forall_mem_singleton.mpr ht)
  | .generic cls x => by
    rw [TypeSyntax.elaborate]
    exact (TypeSyntax.elaborate_isNormal declared x).bind fun t ht =>
      .coin (.generic cls) (List.forall_mem_singleton.mpr ht)

theorem elaborateAll_isNormal (declared : String → Bool) :
    ∀ xs : List TypeSyntax, KeepsMade (elaborateAll declared xs) fun ts => ∀ t ∈ ts, t.IsNormal
  | [] => .pure nofun
  | x :: xs => by
    rw [elaborateAll]
    refine (TypeSyntax.elaborate_isNormal declared x).bind fun t ht => ?_
    exact (elaborateAll_isNormal declared xs).bind fun ts hts =>
      .pure (List.forall_mem_cons.mpr ⟨ht, hts⟩)

end

/-! ## Types that are resolved -/

mutual

/-- Every type is normal once its references are resolved. -/
theorem TypeExpr.resolve_isNormal (declared : String → Bool) :
    ∀ (t : TypeExpr) {u : TypeExpr}, t.resolve declared = .ok u → u.IsNormal
  | .forward cls, u, h => by
    rw [TypeExpr.resolve] at h
    split at h <;> cases h
    trivial
  | .apply c args, u, h => by
    obtain ⟨us, -, hu⟩ := bind_eq_ok.mp h
    cases hu
    trivial
  | .union ts, u, h => by
    obtain ⟨us, hus, hu⟩ := bind_eq_ok.mp h
    cases hu
    exact unionOf_isNormal (resolveAll_isNormal declared ts hus)
  | .pipe ts, u, h => by
    obtain ⟨us, hus, hu⟩ := bind_eq_ok.mp h
    cases hu
    exact pipeOf_isNormal (resolveAll_isNormal declared ts hus)
  | .annotated t ms, u, h => by
    obtain ⟨v, -, hu⟩ := bind_eq_ok.mp h
    cases hu
    exact annotate_isNormal v ms
  | .constant t, u, h | .generic _ t, u, h => by
    obtain ⟨v, -, hu⟩ := bind_eq_ok.mp h
    cases hu
    trivial
  | .basic _, u, h | .null, u, h | .any, u, h | .variable, u, h | .bare _, u, h
  | .bareConstant, u, h | .named _, u, h | .literal _, u, h => by
    cases h
    trivial

theorem resolveAll_isNormal (declared : String → Bool) :
    ∀ (ts : List TypeExpr) {us : List TypeExpr}, resolveAll declared ts = .ok us →
      ∀ u ∈ us, u.IsNormal
  | [], us, h => by
    cases h
    nofun
  | t :: ts, us, h => by
    obtain ⟨v, hv, h⟩ := bind_eq_ok.mp h
    obtain ⟨vs, hvs, hus⟩ := bind_eq_ok.mp h
    cases hus
    exact List.forall_mem_cons.mpr
      ⟨TypeExpr.resolve_isNormal declared t hv, resolveAll_isNormal declared ts hvs⟩

end

end TypedSearch
