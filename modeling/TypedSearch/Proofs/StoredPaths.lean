import TypedSearch.Proofs.StoredForm
import TypedSearch.Proofs.Walks

/-!
# Stored values under their wire names

A path of attribute names leads to values of a document by the stored keys on the way. A query
uses the wire names instead, and finds the values in the renamed document if the renaming has
renamed every object on the way. It does so through one layer of arrays, and it stops at a second
layer and at an object with arbitrary keys; a walk goes on through both. So the wire names lead to
the values exactly if the fields below such a place keep their stored keys as wire names.

* `Schema.renamedKeys`: the keys that the renamed document has along a path.
* `Schema.RenamedTo`: what the renaming makes of a value.
* `Schema.Trail`: the steps of a walk with the keys of each.
* `Schema.trail_of_walkFrom`: every walk is such a row of steps.
* `Schema.Trail.reached`: the renamed document has the values under the renamed keys.
* `Schema.Trail.sample`: a document in which no other keys lead anywhere.
* `Schema.wire_reaches_iff`: **the wire names of a path lead to the renamed values if and only if
  they are the renamed keys.**
-/

namespace TypedSearch

open Text

namespace Schema

variable {s : Schema} {f : Naming}

/-! ## Keys along a path -/

/-- The keys that the renamed document has along a path from the type `t` on, where `live` tells
whether the renaming gets to the values of this type. Beside the keys, whether it gets to the end
of the path. It renames objects below one layer of arrays at most, and nothing below an object with
arbitrary keys. -/
def renamedKeys (s : Schema) (f : Naming) (live : Bool) (t : TypeExpr) :
    List String → List String × Bool
  | [] => ([], live)
  | segment :: rest =>
    let renamed := live && decide (t.arrayDepth ≤ 1)
    match s.step (if renamed then some f else none) [] t segment with
    | .ok (.into next key) =>
      let below := renamedKeys s f (renamed && !t.core.isDict) next rest
      (key :: below.1, below.2)
    | _ => (segment :: rest, false)

/-- What the renaming makes of a value of a type, if it gets there: the renamed value, or the value
itself. -/
def RenamedTo (s : Schema) (f : Naming) (live : Bool) (t : TypeExpr) (v w : Value) : Prop :=
  (if live then s.renameValue (s.renamer f .toWire) t v else .ok v) = .ok w

/-- A step of a path: the key in stored documents, the key that queries use, and the key in
renamed documents. -/
structure Hop where
  stored : String
  wire : String
  kept : String

/-- A step by a segment that is the key everywhere. -/
def Hop.verbatim (segment : String) : Hop := ⟨segment, segment, segment⟩

/-- The steps of a walk from a type to another one. The truth values tell whether the renaming gets
to the values at either end. -/
inductive Trail (s : Schema) (f : Naming) :
    Bool → TypeExpr → List Hop → Bool → TypeExpr → Prop
  | here {live : Bool} {t : TypeExpr} : Trail s f live t [] live t
  | anything {live : Bool} {t : TypeExpr} {segment : String} {rest : List String} :
      t.core = .any ∨ t.core = .variable →
      Trail s f live t ((segment :: rest).map Hop.verbatim) false .any
  | entry {live live' : Bool} {t v t' : TypeExpr} {segment : String} {hops : List Hop} :
      t.core.isDict = true → EntryType t.core v → Trail s f false v hops live' t' →
      Trail s f live t (Hop.verbatim segment :: hops) live' t'
  | field {live live' : Bool} {t t' : TypeExpr} {cls : String} {fs : List FieldEntry}
      {g : FieldEntry} {hops : List Hop} {renamed : Bool} :
      t.core = .named cls → s.isStructured (.named cls) = true →
      s.fieldsOf (some f) (.named cls) = .ok fs → g ∈ fs →
      renamed = (live && decide (t.arrayDepth ≤ 1)) → Trail s f renamed g.type hops live' t' →
      Trail s f live t (⟨s.storedKey cls g.name, g.wire,
        if renamed then g.wire else s.storedKey cls g.name⟩ :: hops) live' t'

/-! ## Walks as rows of steps -/

theorem renamedKeys_anything {live : Bool} {t : TypeExpr} {segment : String} {rest : List String}
    (hcore : t.core = .any ∨ t.core = .variable) (hdigits : isDigits segment = false) :
    s.renamedKeys f live t (segment :: rest) = (segment :: rest, false) := by
  rw [renamedKeys]
  simp only [step_anything hcore hdigits]

theorem renamedKeys_into {live : Bool} {t next : TypeExpr} {segment key : String}
    {rest : List String}
    (h : s.step (if live && decide (t.arrayDepth ≤ 1) then some f else none) [] t segment =
      .ok (.into next key)) :
    s.renamedKeys f live t (segment :: rest) =
      (key :: (s.renamedKeys f (live && decide (t.arrayDepth ≤ 1) && !t.core.isDict) next rest).1,
        (s.renamedKeys f (live && decide (t.arrayDepth ≤ 1) && !t.core.isDict) next rest).2) := by
  rw [renamedKeys]
  simp only [h]

/-- Every walk is a row of steps. The walk by stored keys takes the same ones. -/
theorem trail_of_walkFrom (hn : NeverFails (some f)) {segments : List String} {before : List String}
    {t final : TypeExpr} {wires : List String} (live : Bool)
    (h : s.walkFrom (some f) before t segments = .ok (final, wires)) :
    ∃ hops, s.Trail f live t hops (s.renamedKeys f live t segments).2 final ∧
      s.walkFrom none before t segments = .ok (final, hops.map (·.stored)) ∧
      hops.map (·.wire) = wires ∧
      hops.map (·.kept) = (s.renamedKeys f live t segments).1 := by
  induction segments generalizing before t wires live with
  | nil =>
    cases h
    exact ⟨[], .here, rfl, rfl, rfl⟩
  | cons segment rest ih =>
    cases hstep : s.step (some f) before t segment with
    | error e =>
      rw [walkFrom, hstep] at h
      cases h
    | ok next =>
      obtain ⟨hdigits, ⟨hcore, rfl⟩ | ⟨hdict, v, hv, rfl⟩ | ⟨cls, hs, type, wire, hcore, hcls, hhints,
        hlookup, hwire, rfl⟩⟩ := step_ok_cases hstep
      · rw [walkFrom_cons_anything hstep] at h
        cases h
        rw [renamedKeys_anything hcore hdigits]
        refine ⟨(segment :: rest).map Hop.verbatim, .anything hcore, ?_, ?_, ?_⟩
        · rw [walkFrom_cons_anything (step_anything hcore hdigits)]
          simp [Function.comp_def, Hop.verbatim]
        · simp [Function.comp_def, Hop.verbatim]
        · simp [Function.comp_def, Hop.verbatim]
      · rw [walkFrom_cons_into hstep] at h
        obtain ⟨⟨final', wires'⟩, hrest, heq⟩ := map_eq_ok.mp h
        cases heq
        obtain ⟨hops, htrail, hstored, hwires, hkept⟩ := ih false hrest
        rw [renamedKeys_into (step_entry hdict hv hdigits)]
        simp only [hdict, Bool.not_true, Bool.and_false]
        refine ⟨Hop.verbatim segment :: hops, .entry hdict hv htrail, ?_, ?_, ?_⟩
        · rw [walkFrom_cons_into (step_entry hdict hv hdigits), hstored]
          rfl
        · rw [List.map_cons, hwires]
          rfl
        · rw [List.map_cons, hkept]
          rfl
      · rw [walkFrom_cons_into hstep] at h
        obtain ⟨⟨final', wires'⟩, hrest, heq⟩ := map_eq_ok.mp h
        cases heq
        obtain ⟨fs, hfs⟩ := fieldsOf_isOk hn hhints
        obtain ⟨g, hg, rfl, rfl, rfl⟩ := field_of_lookup hfs hhints hlookup hwire
        obtain ⟨hops, htrail, hstored, hwires, hkept⟩ :=
          ih (live && decide (t.arrayDepth ≤ 1)) hrest
        have hdict : t.core.isDict = false := by rw [hcore]; rfl
        have hkey : s.step (if live && decide (t.arrayDepth ≤ 1) then some f else none) [] t g.name =
            .ok (.into g.type (if live && decide (t.arrayDepth ≤ 1) then g.wire
              else s.storedKey cls g.name)) := by
          refine step_field hcore hcls hhints hlookup ?_ hdigits
          split
          · exact hwire
          · exact wireName_none cls g.name
        rw [renamedKeys_into hkey]
        simp only [hdict, Bool.not_false, Bool.and_true]
        refine ⟨_ :: hops, .field hcore hcls hfs hg rfl htrail, ?_, ?_, ?_⟩
        · rw [walkFrom_cons_into (step_field hcore hcls hhints hlookup (wireName_none cls g.name)
            hdigits), hstored]
          rfl
        · rw [List.map_cons, hwires]
        · rw [List.map_cons, hkept]

/-! ## Where the values are afterwards -/

variable {root : String} {live : Bool} {t : TypeExpr}

theorem renamedTo_iff_of_none {v w : Value} (hc : s.structuredClass? t = none) :
    s.RenamedTo f live t v w ↔ w = v := by
  unfold RenamedTo
  rw [renameValue_of_none hc, ite_self, Except.ok.injEq, eq_comm]

theorem structuredClass?_of_open (hcore : t.core = .any ∨ t.core = .variable) :
    s.structuredClass? t = none := by
  cases hc : s.structuredClass? t with
  | none => rfl
  | some cls =>
    rw [structuredClass?_core hc] at hcore
    rcases hcore with hcore | hcore <;> cases hcore

theorem structuredClass?_of_core {cls : String} (hcore : t.core = .named cls)
    (hcls : s.isStructured (.named cls) = true) :
    s.structuredClass? t = if t.arrayDepth ≤ 1 then some cls else none := by
  split
  · rename_i hdepth
    exact structuredClass?_eq_some_iff_core.mpr ⟨hcore, hdepth, hcls⟩
  · rename_i hdepth
    cases hc : s.structuredClass? t with
    | none => rfl
    | some c => exact absurd (structuredClass?_eq_some_iff_core.mp hc).2.1 hdepth

/-- The renaming keeps a value of objects of a class, unless it gets to them. -/
theorem renamedTo_iff_of_not_renamed {cls : String} {v w : Value} (hcore : t.core = .named cls)
    (hcls : s.isStructured (.named cls) = true)
    (hrenamed : (live && decide (t.arrayDepth ≤ 1)) = false) :
    s.RenamedTo f live t v w ↔ w = v := by
  cases live with
  | false => rw [RenamedTo, if_neg Bool.false_ne_true, Except.ok.injEq, eq_comm]
  | true =>
    have hdepth : ¬ t.arrayDepth ≤ 1 := by simpa using hrenamed
    refine renamedTo_iff_of_none ?_
    rw [structuredClass?_of_core hcore hcls, if_neg hdepth]

/-- A stored value where a single object of a class stands is no list, and stays none. -/
theorem spread_single {cls : String} {v w : Value} (hform : s.IsStored t v)
    (ht : t.stripped = .named cls) (hcls : s.isStructured (.named cls) = true)
    (h : s.renamer f .toWire (.named cls) v = .ok w) : v.spread = [v] ∧ w.spread = [w] := by
  cases v with
  | list xs =>
    cases hform with
    | plain hv => cases hv
    | array hi _ =>
      rw [ht] at hi
      cases hi
    | free _ _ hs =>
      rw [ht, hcls] at hs
      cases hs
  | dict es =>
    rw [renamer_object] at h
    obtain ⟨es', -, rfl⟩ := map_eq_ok.mp h
    exact ⟨rfl, rfl⟩
  | _ =>
    cases h
    exact ⟨rfl, rfl⟩

theorem IsStored.isPlain_of_item? {v : Value} {item : TypeExpr} (hform : s.IsStored t v)
    (hi : t.stripped.item? = some item) (hv : ∀ xs, v ≠ .list xs) : v.isPlain = true := by
  cases hform with
  | plain h => exact h
  | array => exact absurd rfl (hv _)
  | object hc =>
    rw [hc] at hi
    cases hi
  | entries hd =>
    rw [TypeExpr.item?_of_isDict hd] at hi
    cases hi
  | free hnone =>
    rw [hi] at hnone
    cases hnone

/-- The objects of a class in a stored value are renamed one by one. -/
theorem spread_renamed {cls : String} {v w : Value} (hform : s.IsStored t v)
    (hc : s.structuredClass? t = some cls)
    (h : s.renameValue (s.renamer f .toWire) t v = .ok w) :
    List.Forall₂ (fun o o' => s.renamer f .toWire (.named cls) o = .ok o') v.spread w.spread := by
  obtain ⟨hholder, hcls⟩ := structuredClass?_eq_some_iff.mp hc
  cases hi : t.stripped.item? with
  | none =>
    rw [TypeExpr.holder_of_item?_none hi] at hholder
    rw [renameValue_single hc hi] at h
    obtain ⟨hv, hw⟩ := spread_single hform hholder hcls h
    rw [hv, hw]
    exact .cons h .nil
  | some item =>
    obtain ⟨hitem, -⟩ := structuredClass?_item hc hi
    by_cases hlist : ∃ xs, v = .list xs
    · obtain ⟨xs, rfl⟩ := hlist
      rw [renameValue_list hc hi] at h
      obtain ⟨ys, hys, rfl⟩ := map_eq_ok.mp h
      have hxs : ∀ x ∈ xs, s.IsStored item x := by
        cases hform with
        | plain hv => cases hv
        | array hi' hxs =>
          rw [hi, Option.some.injEq] at hi'
          exact hi' ▸ hxs
        | free hnone =>
          rw [hi] at hnone
          cases hnone
      have hall := renameAll_forall₂ hys
      rw [Value.spread, Value.spread]
      clear h hform hys
      induction hall with
      | nil => exact .nil
      | @cons x y xs ys hxy _ ih =>
        rw [List.forall_mem_cons] at hxs
        obtain ⟨hx, hy⟩ := spread_single hxs.1 hitem hcls hxy
        rw [Value.spreadAll, Value.spreadAll, hx, hy]
        exact .cons hxy (ih hxs.2)
    · rw [not_exists] at hlist
      have hplain := hform.isPlain_of_item? hi hlist
      rw [renameValue_of_isPlain hplain] at h
      cases h
      rw [Value.spread_of_not_list hlist]
      exact .cons (renamer_of_not_object (Value.asEntries?_of_isPlain hplain)) .nil

/-- A field of a renamed object stands under its wire name. -/
theorem member?_renamed {cls : String} {fs : List FieldEntry} {g : FieldEntry} {o o' : Value}
    (hn : NeverFails (some f)) (hw : s.KeepsApart (some f) root) (hr : s.Reaches TypeExpr.Holds root cls)
    (hcls : s.isStructured (.named cls) = true) (hfs : s.fieldsOf (some f) (.named cls) = .ok fs)
    (hg : g ∈ fs) (hform : s.IsStored (.named cls) o)
    (h : s.renamer f .toWire (.named cls) o = .ok o') :
    o'.member? g.wire = (o.member? (s.storedKey cls g.name)).bind fun v =>
      (s.renameValue (s.renamer f .toWire) g.type v).toOption := by
  cases o with
  | dict es =>
    obtain ⟨hkeys, hvalues⟩ := hform.fields rfl hcls hfs
    have hall : ∀ g ∈ fs, ∀ v, Entries.get? (s.storedKey cls g.name) es = some v →
        ∃ w, s.renameValue (s.renamer f .toWire) g.type v = .ok w := fun g hg v hget =>
      renameValue_isOk hn hw (hvalues g hg v hget) fun hc => hr.through hfs hg hc
    rw [renamer_of_isStored hfs (hw hr hfs) hkeys hall] at h
    cases h
    exact get?_renamed hg (hw hr hfs) ((hw hr hfs).free hkeys g hg)
  | _ =>
    cases h
    rfl

theorem IsStored.entry {v : TypeExpr} {es : Entries} (h : s.IsStored t (.dict es))
    (hd : t.isDict = true) (hv : EntryType t v) : ∀ e ∈ es, s.IsStored v e.2 := by
  have ht := TypeExpr.stripped_of_isDict hd
  cases hv with
  | given hargs => exact h.values (ht.symm ▸ hd) (ht.symm ▸ hargs)
  | any => exact fun e _ => .free rfl rfl rfl

theorem EntryType.holds {v : TypeExpr} {cls : String} (hv : EntryType t.core v)
    (h : v.Holds cls) : t.Holds cls := by
  cases hv with
  | given hargs => exact .entries hargs h
  | any =>
    cases h with
    | core hc => cases hc
    | entries hargs => cases hargs

/-- Two values are walked alike if what their arrays are distributed over is walked alike. -/
theorem forall₂_reached {P R : Value → Value → Prop} {key key' : String} {keys keys' : List String}
    {v w : Value} (hvw : List.Forall₂ P v.spread w.spread)
    (hmember : ∀ {o o'}, P o o' → (o.member? key = none ∧ o'.member? key' = none) ∨
      ∃ u u', o.member? key = some u ∧ o'.member? key' = some u' ∧
        List.Forall₂ R (u.reached keys) (u'.reached keys')) :
    List.Forall₂ R (v.reached (key :: keys)) (w.reached (key' :: keys')) := by
  refine List.rel_flatMap hvw fun o o' ho => ?_
  obtain ⟨hnone, hnone'⟩ | ⟨u, u', hu, hu', hrest⟩ := hmember ho
  · rw [hnone, hnone']
    exact .nil
  · rw [hu, hu']
    exact hrest

/-- The values that the stored keys of a path lead to are, as the renaming makes them, the values
that the renamed keys lead to afterwards. -/
theorem Trail.reached {live' : Bool} {t' : TypeExpr} {hops : List Hop}
    (h : s.Trail f live t hops live' t') (hn : NeverFails (some f)) (hw : s.KeepsApart (some f) root)
    {v w : Value} (hform : s.IsStored t v)
    (hreach : ∀ {cls}, t.Holds cls → s.Reaches TypeExpr.Holds root cls)
    (hvw : s.RenamedTo f live t v w) :
    List.Forall₂ (s.RenamedTo f live' t') (v.reached (hops.map (·.stored)))
      (w.reached (hops.map (·.kept))) := by
  induction h generalizing v w with
  | here => exact .cons hvw .nil
  | @anything live t segment rest hcore =>
    rw [(renamedTo_iff_of_none (structuredClass?_of_open hcore)).mp hvw, List.map_map,
      List.map_map]
    exact List.forall₂_same.mpr fun u _ => rfl
  | @entry live live' t u t' segment hops hdict hu _ ih =>
    rw [(renamedTo_iff_of_none (structuredClass?_of_isDict hdict)).mp hvw, List.map_cons,
      List.map_cons]
    have hspread : List.Forall₂ (fun o o' => o = o' ∧ s.IsStored t.core o) v.spread v.spread :=
      List.forall₂_same.mpr fun o ho => ⟨rfl, hform.spread o ho⟩
    refine forall₂_reached hspread ?_
    rintro o _ ⟨rfl, ho⟩
    cases hm : o.member? segment with
    | none => exact Or.inl ⟨hm, hm⟩
    | some x =>
      obtain ⟨es, rfl, hget⟩ := Value.member?_eq_some hm
      obtain ⟨key, hmem, -⟩ := Entries.mem_of_get? hget
      have hx : s.IsStored u x := ho.entry hdict hu _ hmem
      exact Or.inr ⟨x, x, hm, hm, ih hx (fun hc => hreach (hu.holds hc)) rfl⟩
  | @field live live' t t' cls fs g hops renamed hcore hcls hfs hg hrenamed _ ih =>
    have hr := hreach (.core hcore)
    rw [List.map_cons, List.map_cons]
    have hspread : ∀ o ∈ v.spread, s.IsStored (.named cls) o := hcore ▸ hform.spread
    cases renamed with
    | false =>
      rw [(renamedTo_iff_of_not_renamed hcore hcls hrenamed.symm).mp hvw]
      have hsame : List.Forall₂ (fun o o' => o = o' ∧ s.IsStored (.named cls) o) v.spread v.spread :=
        List.forall₂_same.mpr fun o ho => ⟨rfl, hspread o ho⟩
      refine forall₂_reached hsame ?_
      rintro o _ ⟨rfl, ho⟩
      cases hm : o.member? (s.storedKey cls g.name) with
      | none => exact Or.inl ⟨rfl, hm⟩
      | some x =>
        obtain ⟨es, rfl, hget⟩ := Value.member?_eq_some hm
        have hx := (ho.fields rfl hcls hfs).2 g hg x hget
        exact Or.inr ⟨x, x, rfl, hm, ih hx (fun hc => hr.through hfs hg hc) rfl⟩
    | true =>
      obtain ⟨rfl, hdepth⟩ : live = true ∧ t.arrayDepth ≤ 1 := by simpa using hrenamed.symm
      have hc := structuredClass?_eq_some_iff_core.mpr ⟨hcore, hdepth, hcls⟩
      have hboth := (List.forall₂_and_left _ _).mpr ⟨hspread, spread_renamed hform hc hvw⟩
      refine forall₂_reached hboth ?_
      rintro o o' ⟨ho, hrenamer⟩
      have hmember := member?_renamed hn hw hr hcls hfs hg ho hrenamer
      cases hm : o.member? (s.storedKey cls g.name) with
      | none =>
        rw [hm] at hmember
        exact Or.inl ⟨rfl, hmember⟩
      | some x =>
        obtain ⟨es, rfl, hget⟩ := Value.member?_eq_some hm
        have hx := (ho.fields rfl hcls hfs).2 g hg x hget
        obtain ⟨y, hy⟩ := renameValue_isOk hn hw hx fun hc => hr.through hfs hg hc
        rw [hm, Option.bind_some, hy] at hmember
        exact Or.inr ⟨x, y, rfl, hmember, ih hx (fun hc => hr.through hfs hg hc) hy⟩

/-! ## A document for a path -/

/-- The value below layers of arrays with one element each. -/
def layered : Nat → Value → Value
  | 0, v => v
  | n + 1, v => .list [layered n v]

/-- Objects with one key each. -/
def nested : List String → Value
  | [] => .null
  | key :: keys => .dict [(.str key, nested keys)]

theorem spread_layered (n : Nat) (v : Value) : (layered n v).spread = v.spread := by
  induction n with
  | zero => rfl
  | succ n ih => rw [layered, Value.spread, Value.spreadAll, Value.spreadAll, List.append_nil, ih]

theorem reached_layered (n : Nat) (v : Value) (key : String) (keys : List String) :
    (layered n v).reached (key :: keys) = v.reached (key :: keys) := by
  rw [Value.reached, Value.reached, spread_layered]

theorem reached_object (es : Entries) (key : String) (keys : List String) :
    (Value.dict es).reached (key :: keys) = ((es.get? key).map (Value.reached keys)).getD [] :=
  List.append_nil _

theorem get?_single (key k : String) (v : Value) :
    Entries.get? key [(.str k, v)] = if key = k then some v else none := by
  rw [Entries.get?_cons, Entries.keyIs_str]
  by_cases h : key = k
  · simp [h]
  · simp [h, Ne.symm h]

/-- An object in which one key only can be read is walked by this key. -/
theorem reached_of_get? {es : Entries} {v : Value} {k : String}
    (h : ∀ key, Entries.get? key es = if key = k then some v else none) (n : Nat)
    {keys kept : List String} (hrest : ∀ keys, keys.length = kept.length → v.reached keys ≠ [] →
      keys = kept) (hlen : keys.length = (k :: kept).length)
    (hreached : (layered n (.dict es)).reached keys ≠ []) : keys = k :: kept := by
  cases keys with
  | nil => cases hlen
  | cons key keys =>
    rw [reached_layered, reached_object, h] at hreached
    by_cases hkey : key = k
    · rw [if_pos hkey] at hreached
      rw [hkey, hrest keys (Nat.succ.inj hlen) hreached]
    · rw [if_neg hkey] at hreached
      exact absurd rfl hreached

theorem reached_nested (keys : List String) : (nested keys).reached keys = [.null] := by
  induction keys with
  | nil => rfl
  | cons key keys ih => rw [nested, reached_object, get?_single, if_pos rfl, Option.map_some, ih]; rfl

theorem eq_of_reached_nested {keys : List String} : ∀ others, others.length = keys.length →
    (nested keys).reached others ≠ [] → others = keys := by
  induction keys with
  | nil => exact fun others hlen _ => List.length_eq_zero_iff.mp hlen
  | cons key keys ih =>
    exact fun others hlen h => reached_of_get? (fun k => get?_single k key _) 0 ih hlen h

theorem isStored_layered {n : Nat} {v : Value} (hdepth : t.arrayDepth = n)
    (h : s.IsStored t.core v) : s.IsStored t (layered n v) := by
  induction n generalizing t with
  | zero =>
    obtain ⟨-, hcore⟩ := TypeExpr.stripped_of_arrayDepth hdepth
    exact h.of_stripped_eq (by rw [← hcore, TypeExpr.stripped_stripped])
  | succ n ih =>
    obtain ⟨item, hi, hitem, hcore⟩ := TypeExpr.item?_of_arrayDepth hdepth
    refine .array hi fun x hx => ?_
    rw [List.mem_singleton.mp hx]
    exact ih hitem (hcore ▸ h)

theorem eq_of_storedKey {cls : String} {fs : List FieldEntry} {g h : FieldEntry}
    (hw : s.WellNamed cls fs) (hg : g ∈ fs) (hh : h ∈ fs)
    (heq : s.storedKey cls g.name = s.storedKey cls h.name) : g = h :=
  List.inj_on_of_nodup_map hw.stored hg hh heq

theorem isStored_single {cls : String} {fs : List FieldEntry} {g : FieldEntry} {v : Value}
    (hcls : s.isStructured (.named cls) = true) (hfs : s.fieldsOf (some f) (.named cls) = .ok fs)
    (hw : s.WellNamed cls fs) (hg : g ∈ fs) (hv : s.IsStored g.type v) :
    s.IsStored (.named cls) (.dict [(.str (s.storedKey cls g.name), v)]) := by
  refine .object rfl hcls (fieldsOf_spec hfs).1 ?_ ?_
  · intro e he
    rw [List.mem_singleton.mp he]
    exact ⟨_, List.mem_map.mpr ⟨g, hg, rfl⟩, rfl⟩
  · intro hint hhint u hu
    obtain ⟨h, hh, rfl⟩ := List.mem_map.mp hhint
    rw [List.mem_singleton, Prod.mk.injEq, Value.str.injEq] at hu
    obtain ⟨hkey, rfl⟩ := hu
    rw [eq_of_storedKey hw hh hg hkey]
    exact hv

theorem renamer_single {cls : String} {fs : List FieldEntry} {g : FieldEntry} {v w : Value}
    (hfs : s.fieldsOf (some f) (.named cls) = .ok fs) (hw : s.WellNamed cls fs) (hg : g ∈ fs)
    (hvw : s.renameValue (s.renamer f .toWire) g.type v = .ok w) :
    ∃ es, s.renamer f .toWire (.named cls) (.dict [(.str (s.storedKey cls g.name), v)]) =
        .ok (.dict es) ∧
      ∀ key, Entries.get? key es = if key = g.wire then some w else none := by
  have hkeys : ∀ e ∈ [(Value.str (s.storedKey cls g.name), v)], ∃ h ∈ fs,
      e.1 = .str (s.storedKey cls h.name) := by
    intro e he
    rw [List.mem_singleton.mp he]
    exact ⟨g, hg, rfl⟩
  have honly : ∀ h ∈ fs, ∀ u, Entries.get? (s.storedKey cls h.name)
      [(.str (s.storedKey cls g.name), v)] = some u → h = g ∧ u = v := by
    intro h hh u hu
    rw [get?_single] at hu
    split at hu
    · rename_i heq
      cases hu
      exact ⟨eq_of_storedKey hw hh hg heq, rfl⟩
    · cases hu
  have hvalues : ∀ h ∈ fs, ∀ u, Entries.get? (s.storedKey cls h.name)
      [(.str (s.storedKey cls g.name), v)] = some u →
      ∃ w, s.renameValue (s.renamer f .toWire) h.type u = .ok w := by
    intro h hh u hu
    obtain ⟨rfl, rfl⟩ := honly h hh u hu
    exact ⟨w, hvw⟩
  refine ⟨_, renamer_of_isStored hfs hw hkeys hvalues, fun key => ?_⟩
  split
  · rename_i hkey
    rw [hkey]
    refine (get?_renamed hg hw (hw.free hkeys g hg)).trans ?_
    change (Entries.get? (s.storedKey cls g.name) _).bind _ = _
    rw [get?_single, if_pos rfl, Option.bind_some, hvw]
    rfl
  · rename_i hkey
    rw [Entries.get?_eq_none_iff, Entries.has_append, Bool.or_eq_false_iff]
    constructor
    · refine List.any_eq_false.mpr fun e he => ?_
      obtain ⟨hmem, hunclaimed⟩ := List.mem_filter.mp he
      rw [List.mem_singleton.mp hmem, Bool.not_eq_true', List.any_eq_false] at hunclaimed
      exact absurd (beq_self_eq_true _) (hunclaimed g hg)
    · refine List.any_eq_false.mpr fun e he => ?_
      obtain ⟨h, hh, hmoved⟩ := List.mem_filterMap.mp he
      obtain ⟨u, hu, -⟩ := Option.bind_eq_some_iff.mp hmoved
      obtain ⟨rfl, -⟩ := honly h hh u hu
      rw [key_of_moved hmoved, Entries.keyIs_str, beq_iff_eq]
      exact fun heq => hkey heq.symm

theorem renameValue_layered {cls : String} {v w : Value} (hc : s.structuredClass? t = some cls)
    (hvw : s.renamer f .toWire (.named cls) v = .ok w) :
    s.renameValue (s.renamer f .toWire) t (layered t.arrayDepth v) =
      .ok (layered t.arrayDepth w) := by
  cases hi : t.stripped.item? with
  | none => rw [TypeExpr.arrayDepth_of_item?_none hi, renameValue_single hc hi, layered, layered, hvw]
  | some item =>
    obtain ⟨hitem, -⟩ := structuredClass?_item hc hi
    have hzero : item.arrayDepth = 0 := by
      rw [← TypeExpr.arrayDepth_stripped, hitem]
      rfl
    rw [TypeExpr.arrayDepth_of_stripped hi, hzero]
    change s.renameValue _ t (.list [v]) = .ok (.list [w])
    rw [renameValue_list hc hi, renameAll, hvw]
    rfl

/-- For every path there is a stored document with a value at its end, and in the renamed document
no keys but the renamed ones lead anywhere. -/
theorem Trail.sample {live' : Bool} {t' : TypeExpr} {hops : List Hop}
    (h : s.Trail f live t hops live' t') (hw : s.KeepsApart (some f) root)
    (hreach : ∀ {cls}, t.Holds cls → s.Reaches TypeExpr.Holds root cls) :
    ∃ v w, s.IsStored t v ∧ s.RenamedTo f live t v w ∧
      v.reached (hops.map (·.stored)) = [.null] ∧
      ∀ keys, keys.length = (hops.map (·.kept)).length → w.reached keys ≠ [] →
        keys = hops.map (·.kept) := by
  induction h with
  | @here live t =>
    refine ⟨.null, .null, .plain rfl, ?_, rfl, fun keys hlen _ => List.length_eq_zero_iff.mp hlen⟩
    have hnull : Value.null.isPlain = true := rfl
    unfold RenamedTo
    rw [renameValue_of_isPlain hnull, ite_self]
  | @anything live t segment rest hcore =>
    have hform : s.IsStored t.core (nested (segment :: rest)) := by
      rcases hcore with hcore | hcore <;> exact hcore ▸ .free rfl rfl rfl
    have hkeys : ((segment :: rest).map Hop.verbatim).map (·.stored) = segment :: rest := by
      simp [Function.comp_def, Hop.verbatim]
    have hkept : ((segment :: rest).map Hop.verbatim).map (·.kept) = segment :: rest := by
      simp [Function.comp_def, Hop.verbatim]
    refine ⟨layered t.arrayDepth (nested (segment :: rest)), _, isStored_layered rfl hform,
      (renamedTo_iff_of_none (structuredClass?_of_open hcore)).mpr rfl, ?_, ?_⟩
    · rw [hkeys, reached_layered, reached_nested]
    · intro keys hlen h
      rw [hkept] at hlen ⊢
      exact reached_of_get? (fun k => get?_single k segment _) _ eq_of_reached_nested hlen h
  | @entry live live' t u t' segment hops hdict hu _ ih =>
    obtain ⟨v, w, hv, hvw, hreached, honly⟩ := ih fun hc => hreach (hu.holds hc)
    cases hvw
    have hform : s.IsStored t.core (.dict [(.str segment, v)]) := by
      have hdict' : t.core.stripped.isDict = true := (TypeExpr.stripped_of_isDict hdict).symm ▸ hdict
      refine .entries hdict' fun k u' hargs e he => ?_
      rw [List.mem_singleton.mp he]
      rw [TypeExpr.stripped_of_isDict hdict] at hargs
      cases hu with
      | given h =>
        rw [h] at hargs
        cases hargs
        exact hv
      | any h =>
        rw [h] at hargs
        cases hargs
    refine ⟨layered t.arrayDepth (.dict [(.str segment, v)]), _, isStored_layered rfl hform,
      (renamedTo_iff_of_none (structuredClass?_of_isDict hdict)).mpr rfl, ?_, fun keys hlen h => ?_⟩
    · rw [List.map_cons, reached_layered, reached_object]
      change ((Entries.get? segment [(.str segment, v)]).map _).getD [] = _
      rw [get?_single, if_pos rfl]
      exact hreached
    · exact reached_of_get? (fun k => get?_single k segment v) _ honly hlen h
  | @field live live' t t' cls fs g hops renamed hcore hcls hfs hg hrenamed _ ih =>
    have hr := hreach (.core hcore)
    obtain ⟨v, w, hv, hvw, hreached, honly⟩ := ih fun hc => hr.through hfs hg hc
    have hform : s.IsStored t.core (.dict [(.str (s.storedKey cls g.name), v)]) :=
      hcore.symm ▸ isStored_single hcls hfs (hw hr hfs) hg hv
    have hread : (layered t.arrayDepth (.dict [(.str (s.storedKey cls g.name), v)])).reached
        (s.storedKey cls g.name :: hops.map (·.stored)) = [.null] := by
      rw [reached_layered, reached_object, get?_single, if_pos rfl]
      exact hreached
    cases renamed with
    | false =>
      cases hvw
      exact ⟨layered t.arrayDepth (.dict [(.str (s.storedKey cls g.name), v)]), _,
        isStored_layered rfl hform,
        (renamedTo_iff_of_not_renamed hcore hcls hrenamed.symm).mpr rfl, hread, fun keys hlen h =>
          reached_of_get? (fun k => get?_single k (s.storedKey cls g.name) v) _ honly hlen h⟩
    | true =>
      obtain ⟨rfl, hdepth⟩ : live = true ∧ t.arrayDepth ≤ 1 := by simpa using hrenamed.symm
      have hc := structuredClass?_eq_some_iff_core.mpr ⟨hcore, hdepth, hcls⟩
      obtain ⟨es, hes, hget⟩ := renamer_single hfs (hw hr hfs) hg hvw
      exact ⟨layered t.arrayDepth (.dict [(.str (s.storedKey cls g.name), v)]),
        layered t.arrayDepth (.dict es), isStored_layered rfl hform, renameValue_layered hc hes,
        hread, fun keys hlen h => reached_of_get? hget _ honly hlen h⟩

/-! ## Wire names -/

theorem renameValue_named {model : String} (hmodel : s.isStructured (.named model) = true)
    (v : Value) : s.renameValue (s.renamer f .toWire) (.named model) v =
      s.rename (some f) .toWire (.type (.named model)) v :=
  renameValue_single (structuredClass?_eq_some_iff.mpr ⟨rfl, hmodel⟩) rfl v

/-- **The wire names of a path lead to the renamed values if and only if they are the renamed
keys.** The renamed keys always do: they lead to what the renaming makes of the values under the
stored keys, value by value. -/
theorem wire_reaches_iff {model path : String} {final : TypeExpr} {wires : List String}
    (hmodel : s.isStructured (.named model) = true) (hn : NeverFails (some f))
    (hw : s.KeepsApart (some f) model)
    (hwalk : s.walk (some f) (.named model) path = .ok (final, wires)) :
    ∃ stored kept live, s.walk none (.named model) path = .ok (final, stored) ∧
      s.renamedKeys f true (.named model) (split '.' path) = (kept, live) ∧
      (∀ d, s.IsStored (.named model) d →
        ∃ r, s.rename (some f) .toWire (.type (.named model)) d = .ok r ∧
          List.Forall₂ (s.RenamedTo f live final) (d.reached stored) (r.reached kept)) ∧
      ((∀ d, s.IsStored (.named model) d →
        ∃ r, s.rename (some f) .toWire (.type (.named model)) d = .ok r ∧
          ∀ v ∈ d.reached stored, ∃ w ∈ r.reached wires, s.RenamedTo f live final v w) ↔
        kept = wires) := by
  obtain ⟨hpath, hfrom⟩ := walk_eq_ok_iff.mp hwalk
  obtain ⟨hops, htrail, hstored, hwires, hkept⟩ := trail_of_walkFrom hn true hfrom
  have hreach : ∀ {cls}, (TypeExpr.named model).Holds cls → s.Reaches TypeExpr.Holds model cls := by
    rintro cls (hc | hargs)
    · cases hc
      exact .root
    · cases hargs
  have hfollows : ∀ d, s.IsStored (.named model) d →
      ∃ r, s.rename (some f) .toWire (.type (.named model)) d = .ok r ∧
        List.Forall₂ (s.RenamedTo f (s.renamedKeys f true (.named model) (split '.' path)).2 final)
          (d.reached (hops.map (·.stored))) (r.reached (hops.map (·.kept))) := by
    intro d hd
    obtain ⟨r, hr⟩ := renameValue_isOk hn hw hd hreach
    exact ⟨r, renameValue_named hmodel d ▸ hr, htrail.reached hn hw hd hreach hr⟩
  refine ⟨_, hops.map (·.kept), _, walk_eq_ok_iff.mpr ⟨hpath, hstored⟩, by rw [hkept], hfollows, ?_⟩
  constructor
  · intro hclaim
    obtain ⟨d, r, hd, hdr, hreached, honly⟩ := htrail.sample hw hreach
    obtain ⟨r', hr', hvalues⟩ := hclaim d hd
    have heq : r' = r := by
      rw [← renameValue_named hmodel d] at hr'
      exact Except.ok.inj (hr'.symm.trans hdr)
    rw [heq, hreached] at hvalues
    obtain ⟨w, hmem, -⟩ := hvalues .null (List.mem_singleton_self _)
    refine (honly wires ?_ (List.ne_nil_of_mem hmem)).symm
    rw [← hwires, List.length_map, List.length_map]
  · rintro rfl d hd
    obtain ⟨r, hr, hall⟩ := hfollows d hd
    exact ⟨r, hr, fun v hv => exists_of_forall₂ hall hv⟩

/-- Two layers of arrays above a class, where the wire names lead nowhere. -/
theorem wire_reaches_iff_layers :
    let cell : ClassDecl TypeSyntax := ⟨"Cell", .record, none,
      [⟨"name", .basic .text, none, none, none, none⟩,
        ⟨"rows", .apply .list [.apply .list [.reference "Cell"]], none, none, none, none⟩], [], false⟩
    let s := Schema.empty.declare cell
    let f : Naming := Naming.ofFunction fun name => "d_" ++ name
    s.isStructured (.named "Cell") = true ∧ NeverFails (some f) ∧ s.KeepsApart (some f) "Cell" ∧
      s.walk (some f) (.named "Cell") "rows.name" = .ok (.basic .text, ["d_rows", "d_name"]) ∧
      ∃ stored live, s.walk none (.named "Cell") "rows.name" = .ok (.basic .text, stored) ∧
        ¬ ∀ d, s.IsStored (.named "Cell") d →
          ∃ r, s.rename (some f) .toWire (.type (.named "Cell")) d = .ok r ∧
            ∀ v ∈ d.reached stored, ∃ w ∈ r.reached ["d_rows", "d_name"],
              s.RenamedTo f live (.basic .text) v w := by
  intro cell s f
  have hmodel : s.isStructured (.named "Cell") = true := rfl
  have hn : NeverFails (some f) := by
    rintro g ⟨⟩ name
    exact ⟨"d_" ++ name, rfl⟩
  have hw : s.KeepsApart (some f) "Cell" := by
    refine keepsApart_of_classNames ?_
    have hnames : s.classNames = ["Cell"] := rfl
    have hstored : ∀ name, s.storedKey "Cell" name = name := fun name => rfl
    rw [hnames, List.forall_mem_singleton]
    refine ⟨_, by rfl, ?_⟩
    constructor
    · simp [hstored]
    · simp
    · simp [hstored]
  have hwalk : s.walk (some f) (.named "Cell") "rows.name" =
      .ok (.basic .text, ["d_rows", "d_name"]) := by rfl
  have hkeys : s.renamedKeys f true (.named "Cell") (split '.' "rows.name") =
      (["d_rows", "name"], false) := by rfl
  obtain ⟨stored, kept, live, hstored, hkept, -, hiff⟩ := wire_reaches_iff hmodel hn hw hwalk
  refine ⟨hmodel, hn, hw, hwalk, stored, live, hstored, fun hleads => ?_⟩
  have heq := hiff.mp hleads
  rw [hkeys] at hkept
  cases hkept
  simp at heq

end Schema

end TypedSearch
