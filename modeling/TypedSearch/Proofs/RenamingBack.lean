import TypedSearch.Proofs.StoredKeys

/-!
# Renaming back

A document that is renamed to the indexed names and back again is the document it was, up to the
order of the keys in its objects. Both renamings come to the same objects: the first one leaves in
place whatever it does not rename, and puts what it renames where the second one looks for it. What
could go wrong is a key that stands in the way, so the keys of the fields are kept apart, and an
object has no key where the wire name of a field is to go.

* `Value.SameData`: the same data, up to the order of the keys in objects.
* `Schema.Visits`: the objects that the renaming of a document comes to.
* `Schema.renamed_back`: an object that is renamed and renamed back, where its values return.
* `Schema.rename_back`: **a renamed document that is renamed back has the data it had.**
-/

namespace TypedSearch

/-! ## The same data -/

namespace Value

/-- The two values are the same as keys: texts count by their characters. -/
def SameKey (a b : Value) : Prop :=
  a = b ∨ ∃ name, a.asText? = some name ∧ b.asText? = some name

mutual

/-- The two values hold the same data, up to the order of the keys in objects. -/
inductive SameData : Value → Value → Prop
  | refl (v : Value) : SameData v v
  | list {xs ys : List Value} : List.Forall₂ SameData xs ys → SameData (.list xs) (.list ys)
  | object {es gs fs : Entries} :
      List.Forall₂ SameEntry es gs → gs.Perm fs → SameData (.dict es) (.dict fs)

/-- The two entries have the same key, and their values hold the same data. -/
inductive SameEntry : Value × Value → Value × Value → Prop
  | mk {k l v w : Value} : SameKey k l → SameData v w → SameEntry (k, v) (l, w)

end

theorem SameEntry.refl (e : Value × Value) : SameEntry e e := .mk (.inl rfl) (.refl _)

end Value

/-! ## Keys that are listed once -/

namespace Entries

variable {es : Entries} {name : String}

/-- The entry that is found under a key. -/
def held? (name : String) (es : Entries) : Option (Value × Value) :=
  es.find? fun e => keyIs name e.1

/-- No text is a key twice. -/
def KeysOnce (es : Entries) : Prop :=
  es.Pairwise fun e g => ∀ name, keyIs name e.1 = true → keyIs name g.1 = false

/-- A key that is there once belongs to one entry. -/
theorem KeysOnce.filter_eq (h : es.KeysOnce) (name : String) :
    es.filter (fun e => keyIs name e.1) = (es.held? name).toList := by
  induction es with
  | nil => rfl
  | cons e es ih =>
    obtain ⟨hhead, hrest⟩ := List.pairwise_cons.mp h
    unfold held? at ih ⊢
    cases hkey : keyIs name e.1 with
    | false => simp [hkey, ih hrest]
    | true =>
      have hnone : es.filter (fun e => keyIs name e.1) = [] := by
        rw [List.filter_eq_nil_iff]
        intro g hg
        simp [hhead g hg name hkey]
      simp [hkey, hnone]

theorem keyIs_of_held? {e : Value × Value} (h : es.held? name = some e) :
    keyIs name e.1 = true := by
  unfold held? at h
  simpa using List.find?_some h

theorem KeysOnce.erase (h : es.KeysOnce) (name : String) : (es.erase name).KeysOnce :=
  h.sublist List.filter_sublist

/-- Taking out an entry and putting it behind the others keeps the entries. -/
theorem KeysOnce.perm_erase (h : es.KeysOnce) (name : String) :
    (es.erase name ++ (es.held? name).toList).Perm es := by
  rw [← h.filter_eq name]
  exact (List.perm_append_comm).trans (List.filter_append_perm _ es)

theorem held?_erase_of_ne {other : String} (h : name ≠ other) :
    (es.erase name).held? other = es.held? other := by
  unfold held? Entries.erase
  rw [List.find?_filter]
  congr 1
  funext e
  cases hkey : keyIs other e.1 with
  | false => simp
  | true => simp [keyIs_ne hkey h.symm]

end Entries

namespace Schema

variable {s : Schema} {naming : Option Naming} {root : String} {f : Naming}
  {direction : Direction} {cls : String} {fs : List FieldEntry}

/-- The entries that belong to no field, and behind them those of the fields, are the entries of the
object. -/
theorem perm_unclaimed {es : Entries} (hstored : (fs.map fun g => s.storedKey cls g.name).Nodup)
    (hes : es.KeysOnce) :
    (s.unclaimed .toWire cls fs es ++
      fs.filterMap fun g => es.held? (s.storedKey cls g.name)).Perm es := by
  induction fs generalizing es with
  | nil => simp [unclaimed]
  | cons g fs ih =>
    rw [List.map_cons, List.nodup_cons] at hstored
    -- without the first field, the others are found as before
    let rest := es.erase (s.storedKey cls g.name)
    have hothers : (fs.filterMap fun h => es.held? (s.storedKey cls h.name)) =
        fs.filterMap fun h => rest.held? (s.storedKey cls h.name) := by
      refine List.filterMap_congr fun h hh => ?_
      have hne : s.storedKey cls g.name ≠ s.storedKey cls h.name := fun heq =>
        hstored.1 (List.mem_map.mpr ⟨h, hh, heq.symm⟩)
      exact (Entries.held?_erase_of_ne hne).symm
    have hrest := ih hstored.2 (hes.erase (s.storedKey cls g.name))
    have hfirst : (g :: fs).filterMap (fun h => es.held? (s.storedKey cls h.name)) =
        (es.held? (s.storedKey cls g.name)).toList ++
          fs.filterMap fun h => rest.held? (s.storedKey cls h.name) := by
      rw [← hothers, List.filterMap_cons]
      cases es.held? (s.storedKey cls g.name) <;> rfl
    rw [unclaimed_cons, hfirst]
    refine List.Perm.trans ?_ (hes.perm_erase (s.storedKey cls g.name))
    refine (List.perm_append_comm_assoc _ _ _).trans ?_
    exact List.perm_append_comm.trans (hrest.append_right _)

/-! ## An object renamed and renamed back -/

/-- A value returns from one renaming through another one. -/
def Returns (r r' : Value → Except Fault Value) (v : Value) : Prop :=
  ∃ w u, r v = .ok w ∧ r' w = .ok u ∧ Value.SameData u v

/-- No key of the object stands where the wire name of a field is to go. -/
def IsFree (s : Schema) (cls : String) (fs : List FieldEntry) (es : Entries) : Prop :=
  ∀ g ∈ fs, g.wire = s.storedKey cls g.name ∨ es.has g.wire = false

variable {r r' : Renamer} {es : Entries}

/-- What belongs to no field keeps its key, and belongs to no field afterwards. -/
theorem unclaimed_renamed (hfree : s.IsFree cls fs es) :
    s.unclaimed .fromWire cls fs
        (s.unclaimed .toWire cls fs es ++ fs.filterMap (s.moved r .toWire cls es)) =
      s.unclaimed .toWire cls fs es := by
  have hmoved : s.unclaimed .fromWire cls fs (fs.filterMap (s.moved r .toWire cls es)) = [] := by
    refine List.filter_eq_nil_iff.mpr fun e he => ?_
    obtain ⟨g, hg, hge⟩ := List.mem_filterMap.mp he
    rw [Bool.not_eq_true', Bool.not_eq_false]
    refine List.any_eq_true.mpr ⟨g, hg, ?_⟩
    rw [key_of_moved hge, Entries.keyIs_str]
    exact beq_self_eq_true _
  have hkept : s.unclaimed .fromWire cls fs (s.unclaimed .toWire cls fs es) =
      s.unclaimed .toWire cls fs es := by
    refine List.filter_eq_self.mpr fun e he => ?_
    obtain ⟨hmem, hnone⟩ := List.mem_filter.mp he
    rw [Bool.not_eq_true', List.any_eq_false] at hnone ⊢
    intro g hg hkey
    rcases hfree g hg with hsame | hfree
    · have hstored : Entries.keyIs g.wire e.1 = true := hkey
      rw [hsame] at hstored
      exact hnone g hg hstored
    · exact List.any_eq_false.mp hfree e hmem hkey
  rw [unclaimed_append, hkept, hmoved, List.append_nil]

/-- On the way back no stored key is taken: what stands under it belongs to its field. -/
theorem free_renamed (hw : s.WellNamed cls fs) :
    ∀ g ∈ fs, s.targetKey .fromWire cls g = s.sourceKey .fromWire cls g ∨
      Entries.has (s.targetKey .fromWire cls g)
        (s.unclaimed .toWire cls fs es ++ fs.filterMap (s.moved r .toWire cls es)) = false := by
  intro g hg
  by_cases hsame : s.storedKey cls g.name = g.wire
  · exact .inl hsame
  right
  refine List.any_eq_false.mpr fun e he hkey => ?_
  rcases List.mem_append.mp he with he | he
  · obtain ⟨-, hnone⟩ := List.mem_filter.mp he
    rw [Bool.not_eq_true', List.any_eq_false] at hnone
    exact hnone g hg hkey
  · obtain ⟨h, hh, hhe⟩ := List.mem_filterMap.mp he
    rw [key_of_moved hhe, Entries.keyIs_str, beq_iff_eq] at hkey
    have hgh : h = g := hw.apart h hh g hg hkey
    exact hsame (hgh ▸ hkey.symm)

/-- What the way back finds under a wire name is the renamed value of the field. -/
theorem get?_wire (hw : s.WellNamed cls fs) (hfree : s.IsFree cls fs es) {g : FieldEntry}
    (hg : g ∈ fs) :
    Entries.get? g.wire
        (s.unclaimed .toWire cls fs es ++ fs.filterMap (s.moved r .toWire cls es)) =
      (es.get? (s.storedKey cls g.name)).bind fun v => (s.renameValue r g.type v).toOption :=
  get?_renamed hg hw (show s.targetKey .toWire cls g = s.sourceKey .toWire cls g ∨ _ from hfree g hg)

/-- A field whose value returns is back under its stored key. -/
theorem moved_back (hw : s.WellNamed cls fs) (hfree : s.IsFree cls fs es) {g : FieldEntry}
    (hg : g ∈ fs) (hvalue : ∀ v, es.get? (s.storedKey cls g.name) = some v →
      Returns (s.renameValue r g.type) (s.renameValue r' g.type) v) :
    Option.Rel Value.SameEntry
      (s.moved r' .fromWire cls
        (s.unclaimed .toWire cls fs es ++ fs.filterMap (s.moved r .toWire cls es)) g)
      (es.held? (s.storedKey cls g.name)) := by
  have hfound : es.get? (s.storedKey cls g.name) =
      (es.held? (s.storedKey cls g.name)).map (·.2) := rfl
  let renamed := s.unclaimed .toWire cls fs es ++ fs.filterMap (s.moved r .toWire cls es)
  have hmoved : s.moved r' .fromWire cls renamed g = (Entries.get? g.wire renamed).bind fun w =>
    (s.renameValue r' g.type w).toOption.map fun u => (.str (s.storedKey cls g.name), u) := rfl
  rw [hmoved, get?_wire hw hfree hg, hfound]
  cases hentry : es.held? (s.storedKey cls g.name) with
  | none => exact .none
  | some e =>
    rw [hentry] at hfound
    obtain ⟨w, u, hw, hu, hsame⟩ := hvalue e.2 hfound
    have hkey := eq_of_beq (Entries.keyIs_of_held? hentry)
    simp only [Option.map_some, Option.bind_some, hw, hu, Except.toOption]
    exact .some (.mk (.inr ⟨_, rfl, hkey⟩) hsame)

/-- An object whose values return is renamed and renamed back to the same data. -/
theorem renamed_back (hw : s.WellNamed cls fs) (hes : es.KeysOnce) (hfree : s.IsFree cls fs es)
    (hvalues : ∀ g ∈ fs, ∀ v, es.get? (s.storedKey cls g.name) = some v →
      Returns (s.renameValue r g.type) (s.renameValue r' g.type) v) :
    ∃ es₁ es₂, s.renameFields r .toWire cls fs es = .ok es₁ ∧
      s.renameFields r' .fromWire cls fs es₁ = .ok es₂ ∧ Value.SameData (.dict es₂) (.dict es) := by
  let es₁ := s.unclaimed .toWire cls fs es ++ fs.filterMap (s.moved r .toWire cls es)
  have hto : s.renameFields r .toWire cls fs es = .ok es₁ := by
    refine renameFields_eq hw hfree fun g hg v hv => ?_
    obtain ⟨w, -, hw, -⟩ := hvalues g hg v hv
    exact ⟨w, hw⟩
  have hvalues' : ∀ g ∈ fs, ∀ w, es₁.get? g.wire = some w →
      ∃ u, s.renameValue r' g.type w = .ok u := by
    intro g hg w hget
    rw [get?_wire hw hfree hg] at hget
    obtain ⟨v, hv, hvw⟩ := Option.bind_eq_some_iff.mp hget
    obtain ⟨w', u, hw', hu, -⟩ := hvalues g hg v hv
    rw [hw'] at hvw
    cases hvw
    exact ⟨u, hu⟩
  have hback : s.renameFields r' .fromWire cls fs es₁ = .ok (s.unclaimed .fromWire cls fs es₁ ++
      fs.filterMap (s.moved r' .fromWire cls es₁)) :=
    renameFields_eq hw (free_renamed hw) hvalues'
  rw [unclaimed_renamed hfree] at hback
  have hothers : List.Forall₂ Value.SameEntry (s.unclaimed .toWire cls fs es)
      (s.unclaimed .toWire cls fs es) := List.forall₂_same.mpr fun e _ => .refl e
  have hfields : List.Forall₂ Value.SameEntry (fs.filterMap (s.moved r' .fromWire cls es₁))
      (fs.filterMap fun g => es.held? (s.storedKey cls g.name)) := by
    refine List.rel_filterMap (R := fun g h => Option.Rel Value.SameEntry
      (s.moved r' .fromWire cls es₁ g) (es.held? (s.storedKey cls h.name))) (fun _ _ h => h) ?_
    exact List.forall₂_same.mpr fun g hg => moved_back hw hfree hg (hvalues g hg)
  exact ⟨es₁, _, hto, hback, .object (List.rel_append hothers hfields) (perm_unclaimed hw.stored hes)⟩

/-! ## Values of fields -/

/-- The renaming of a value of the type hands on what is inside it to the renaming of a class: the
value itself, or each element of an array. -/
inductive HandsOn (s : Schema) (t : TypeExpr) : Value → String → Value → Prop
  | single {v : Value} {cls : String} :
      s.structuredClass? t = some cls → t.stripped.item? = none → HandsOn s t v cls v
  | element {xs : List Value} {item : TypeExpr} {cls : String} {x : Value} :
      s.structuredClass? t = some cls → t.stripped.item? = some item → x ∈ xs →
      HandsOn s t (.list xs) cls x

theorem HandsOn.structuredClass? {t : TypeExpr} {v x : Value} (h : s.HandsOn t v cls x) :
    s.structuredClass? t = some cls := by
  cases h <;> assumption

theorem HandsOn.depth_le {t : TypeExpr} {v x : Value} (h : s.HandsOn t v cls x) :
    x.depth ≤ v.depth := by
  cases h with
  | single => exact Nat.le_refl _
  | element _ _ hx =>
    have hdepth := depthOfAll_le_iff.mp (Nat.le_refl _) x hx
    rw [Value.depth]
    omega

theorem renameAll_back {g g' : Value → Except Fault Value} {xs : List Value}
    (h : ∀ x ∈ xs, Returns g g' x) :
    ∃ ys zs, renameAll g xs = .ok ys ∧ renameAll g' ys = .ok zs ∧
      List.Forall₂ Value.SameData zs xs := by
  induction xs with
  | nil => exact ⟨[], [], rfl, rfl, .nil⟩
  | cons x xs ih =>
    rw [List.forall_mem_cons] at h
    obtain ⟨y, z, hy, hz, hsame⟩ := h.1
    obtain ⟨ys, zs, hys, hzs, hall⟩ := ih h.2
    refine ⟨y :: ys, z :: zs, ?_, ?_, .cons hsame hall⟩
    · simp [renameAll, hy, hys, bind, Except.bind, pure, Except.pure]
    · simp [renameAll, hz, hzs, bind, Except.bind, pure, Except.pure]

/-- A value returns if whatever its renaming hands on returns. -/
theorem renameValue_back {t : TypeExpr} {v : Value}
    (h : ∀ cls x, s.HandsOn t v cls x → Returns (r (.named cls)) (r' (.named cls)) x) :
    Returns (s.renameValue r t) (s.renameValue r' t) v := by
  cases hc : s.structuredClass? t with
  | none => exact ⟨v, v, renameValue_of_none hc v, renameValue_of_none hc v, .refl v⟩
  | some cls =>
    cases hi : t.stripped.item? with
    | none =>
      obtain ⟨w, u, hw, hu, hsame⟩ := h cls v (.single hc hi)
      exact ⟨w, u, by rw [renameValue_single hc hi, hw], by rw [renameValue_single hc hi, hu], hsame⟩
    | some item =>
      by_cases hlist : ∃ xs, v = .list xs
      · obtain ⟨xs, rfl⟩ := hlist
        obtain ⟨ys, zs, hys, hzs, hall⟩ := renameAll_back fun x hx => h cls x (.element hc hi hx)
        refine ⟨.list ys, .list zs, ?_, ?_, .list hall⟩
        · rw [renameValue_list hc hi, hys]
          rfl
        · rw [renameValue_list hc hi, hzs]
          rfl
      · have hkept : ∀ r : Renamer, s.renameValue r t v = .ok v := fun r =>
          renameValue_of_not_list hi fun xs hxs => hlist ⟨xs, hxs⟩
        exact ⟨v, v, hkept r, hkept r', .refl v⟩

/-! ## Whole documents -/

/-- The renaming of the value `v` of the class `cls` comes to an object of the class `last`. -/
inductive Visits (s : Schema) : String → Value → String → Entries → Prop
  | here {cls : String} {es : Entries} : Visits s cls (.dict es) cls es
  | inside {cls next last name : String} {es fs : Entries} {hs : List (String × TypeExpr)}
      {t : TypeExpr} {v x : Value} :
      s.hints cls = .ok hs → (name, t) ∈ hs → es.get? (s.storedKey cls name) = some v →
      s.HandsOn t v next x → Visits s next x last fs → Visits s cls (.dict es) last fs

/-- What holds of an object, and wherever the renaming comes from its fields, holds wherever it comes
from the object. -/
theorem forall_visits_object {P : String → Entries → Prop} {es : Entries}
    (hfs : s.fieldsOf naming (.named cls) = .ok fs) (hhere : P cls es)
    (hinside : ∀ g ∈ fs, ∀ v, es.get? (s.storedKey cls g.name) = some v →
      ∀ next x, s.HandsOn g.type v next x → ∀ last es', s.Visits next x last es' → P last es') :
    ∀ last es', s.Visits cls (.dict es) last es' → P last es' := by
  intro last es' hvisit
  cases hvisit with
  | here => exact hhere
  | inside hhints hmem hget hx hvisit =>
    obtain rfl := Except.ok.inj ((fieldsOf_spec hfs).1.symm.trans hhints)
    obtain ⟨g, hg, hfield⟩ := List.mem_map.mp hmem
    cases hfield
    exact hinside g hg _ hget _ _ hx last es' hvisit

/-- In every class that the renaming of a document of the class `root` can come to, the fields can
be listed, and their keys are kept apart. -/
def KeepsFamilyApart (s : Schema) (naming : Option Naming) (root : String) : Prop :=
  ∀ cls, s.Reaches (fun t c => s.structuredClass? t = some c) root cls →
    ∃ fs, s.fieldsOf naming (.named cls) = .ok fs ∧ s.WellNamed cls fs

/-- Every object that the renaming of the value comes to has each key once, and no key where the
wire name of a field is to go. -/
def IsUnobstructed (s : Schema) (naming : Option Naming) (cls : String) (v : Value) : Prop :=
  ∀ last es, s.Visits cls v last es → es.KeysOnce ∧
    ∀ fs, s.fieldsOf naming (.named last) = .ok fs → s.IsFree last fs es

theorem isUnobstructed_of_not_object {v : Value} (hv : v.asEntries? = none) :
    s.IsUnobstructed naming cls v := by
  intro last es hvisit
  cases hvisit <;> cases hv

/-- An object is unobstructed if its own keys are in order, and so is what its fields hand on. -/
theorem isUnobstructed_object (hfs : s.fieldsOf naming (.named cls) = .ok fs) (hes : es.KeysOnce)
    (hfree : s.IsFree cls fs es)
    (hinside : ∀ g ∈ fs, ∀ v, es.get? (s.storedKey cls g.name) = some v →
      ∀ next x, s.HandsOn g.type v next x → s.IsUnobstructed naming next x) :
    s.IsUnobstructed naming cls (.dict es) := by
  refine forall_visits_object hfs ⟨hes, fun fs' hfs' => ?_⟩ hinside
  obtain rfl := Except.ok.inj (hfs.symm.trans hfs')
  exact hfree

theorem renamer_back (hroot : s.KeepsFamilyApart (some f) root)
    (hreach : s.Reaches (fun t c => s.structuredClass? t = some c) root cls) {v : Value}
    (hv : s.IsUnobstructed (some f) cls v) :
    Returns (s.renamer f .toWire (.named cls)) (s.renamer f .fromWire (.named cls)) v := by
  induction hd : v.depth using Nat.strongRecOn generalizing cls v with
  | ind d ih =>
    cases v with
    | dict es =>
      obtain ⟨fs, hfs, hw⟩ := hroot cls hreach
      obtain ⟨hes, hfree⟩ := hv cls es .here
      rw [Value.depth] at hd
      have hvalues : ∀ g ∈ fs, ∀ v, Entries.get? (s.storedKey cls g.name) es = some v →
          Returns (s.renameValue (s.renamer f .toWire) g.type)
            (s.renameValue (s.renamer f .fromWire) g.type) v := by
        intro g hg v hget
        refine renameValue_back fun next x hx => ?_
        have hdepth := Nat.le_trans hx.depth_le (depth_of_get? hget)
        have hbelow : s.IsUnobstructed (some f) next x := fun last es' hvisit =>
          hv last es' (.inside (fieldsOf_spec hfs).1 (List.mem_map.mpr ⟨g, hg, rfl⟩) hget hx hvisit)
        exact ih x.depth (by omega) (hreach.through hfs hg hx.structuredClass?) hbelow rfl
      obtain ⟨es₁, es₂, hto, hback, hsame⟩ := renamed_back hw hes (hfree fs hfs) hvalues
      refine ⟨.dict es₁, .dict es₂, ?_, ?_, hsame⟩
      · rw [renamer_object, hfs]
        exact congrArg (Except.map Value.dict) hto
      · rw [renamer_object, hfs]
        exact congrArg (Except.map Value.dict) hback
    | _ => exact ⟨_, _, renamer_of_not_object rfl, renamer_of_not_object rfl, .refl _⟩

/-- **A renamed document that is renamed back has the data it had.** Where the keys of the fields
are kept apart in the family of a class, and no object of a document has a key where the wire name
of a field is to go, the renaming of the document succeeds, and so does the one back. What comes
back is the document, whatever it holds, up to the order of the keys in objects. -/
theorem rename_back (hroot : s.KeepsFamilyApart naming root) {d : Value}
    (hd : s.IsUnobstructed naming root d) :
    ∃ renamed back, s.rename naming .toWire (.type (.named root)) d = .ok renamed ∧
      s.rename naming .fromWire (.type (.named root)) renamed = .ok back ∧
      Value.SameData back d := by
  cases naming with
  | none => exact ⟨d, d, rfl, rfl, .refl d⟩
  | some f => exact renamer_back hroot .root hd

theorem fieldsOf_of_notMem (h : cls ∉ s.classNames) : s.fieldsOf naming (.named cls) = .ok [] := by
  have hhints : s.hintsOf (.named cls) = .ok [] := hints_of_notMem h
  rw [fieldsOf, hhints]
  rfl

theorem keepsFamilyApart_of_classNames (h : ∀ cls ∈ s.classNames, ∃ fs,
    s.fieldsOf naming (.named cls) = .ok fs ∧ s.WellNamed cls fs) :
    s.KeepsFamilyApart naming root := by
  intro cls _
  by_cases hcls : cls ∈ s.classNames
  · exact h cls hcls
  · exact ⟨[], fieldsOf_of_notMem hcls, wellNamed_nil s cls⟩

/-- A key that no class declares stays, an element that is no object stays, and the object with
arbitrary keys is left alone, though one of its keys is the name of a field. -/
theorem rename_back_order :
    let label : ClassDecl TypeExpr := ⟨"Label", .model, none,
      [⟨"full_text", .basic .text, none, none, none, none⟩], [], false⟩
    let order : ClassDecl TypeExpr := ⟨"Order", .model, none,
      [⟨"first", .union [.named "Label", .null], none, some "head", none, none⟩,
        ⟨"parts", .apply .list [.named "Label"], none, none, none, none⟩,
        ⟨"extra", .apply .dict [.basic .text, .any], none, none, none, none⟩], [], false⟩
    let s : Schema := ⟨[order, label], [], [], .strict⟩
    let f : Naming := Naming.ofFunction fun name => "d_" ++ name
    let text (key : String) : Value := .object [(key, .str "x")]
    let d : Value := .object [("parts", .list [text "full_text", .int 5]), ("note", .null),
      ("head", text "full_text"), ("extra", text "full_text")]
    s.KeepsFamilyApart (some f) "Order" ∧ s.IsUnobstructed (some f) "Order" d ∧
      ∃ renamed back, s.rename (some f) .toWire (.type (.named "Order")) d = .ok renamed ∧
        renamed = .object [("note", .null), ("head", text "d_full_text"),
          ("d_parts", .list [text "d_full_text", .int 5]), ("d_extra", text "full_text")] ∧
        s.rename (some f) .fromWire (.type (.named "Order")) renamed = .ok back ∧
        Value.SameData back d := by
  intro label order s f text d
  have hnames : s.classNames = ["Order", "Label"] := rfl
  have hroot : s.KeepsFamilyApart (some f) "Order" := by
    refine keepsFamilyApart_of_classNames ?_
    have hkeys : s.storedKey "Order" "first" = "head" ∧ s.storedKey "Order" "parts" = "parts" ∧
        s.storedKey "Order" "extra" = "extra" ∧ s.storedKey "Label" "full_text" = "full_text" :=
      ⟨rfl, rfl, rfl, rfl⟩
    rw [hnames]
    simp only [List.forall_mem_cons]
    refine ⟨⟨_, rfl, ?_⟩, ⟨_, rfl, ?_⟩, nofun⟩ <;>
      constructor <;> simp [hkeys]
  have hlabel : s.IsUnobstructed (some f) "Label" (text "full_text") := by
    refine isUnobstructed_object rfl (List.pairwise_singleton _ _) ?_ ?_
    · exact List.forall_mem_singleton.mpr (.inr rfl)
    · refine List.forall_mem_singleton.mpr ?_
      rintro v - next x hx
      cases hx.structuredClass?
  have hd : s.IsUnobstructed (some f) "Order" d := by
    refine isUnobstructed_object rfl ?_ ?_ ?_
    · simp [Entries.KeysOnce]
    · unfold IsFree
      simp only [List.forall_mem_cons]
      exact ⟨.inl rfl, .inr rfl, .inr rfl, nofun⟩
    · simp only [List.forall_mem_cons]
      refine ⟨?_, ?_, ?_, nofun⟩
      · rintro v ⟨⟩ next x hx
        obtain rfl : "Label" = next := Option.some.inj hx.structuredClass?
        cases hx with
        | single => exact hlabel
      · rintro v ⟨⟩ next x hx
        obtain rfl : "Label" = next := Option.some.inj hx.structuredClass?
        cases hx with
        | single _ hi => cases hi
        | element _ _ hmem =>
          simp only [List.mem_cons, List.not_mem_nil, or_false] at hmem
          rcases hmem with rfl | rfl
          · exact hlabel
          · exact isUnobstructed_of_not_object rfl
      · rintro v ⟨⟩ next x hx
        cases hx.structuredClass?
  obtain ⟨renamed, back, hto, hback, hsame⟩ := rename_back hroot hd
  refine ⟨hroot, hd, renamed, back, hto, ?_, hback, hsame⟩
  have hrenamed : s.rename (some f) .toWire (.type (.named "Order")) d = .ok (.object
      [("note", .null), ("head", text "d_full_text"),
        ("d_parts", .list [text "d_full_text", .int 5]), ("d_extra", text "full_text")]) := by
    unfold s f d order label text
    rfl
  exact Except.ok.inj (hto.symm.trans hrenamed)

end Schema

end TypedSearch
