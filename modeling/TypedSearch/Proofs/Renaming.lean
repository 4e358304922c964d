import TypedSearch.Document.Rename
import TypedSearch.Proofs.Entries
import TypedSearch.Proofs.Fields
import TypedSearch.Proofs.Results

/-!
# The renaming of an object

Renaming an object renames the values of its fields, and these in turn are renamed by the same
rule: the depth that the definition counts down only bounds the recursion. Where the keys of the
fields do not get in each other's way, the renamed object holds the entries that are no fields,
and behind them the fields under their new keys.

* `Schema.renameWithin_of_depth_le`: counting down from more than the depth changes nothing.
* `Schema.rename_object`: the renaming of an object by the renaming of what it holds.
* `Schema.renameValue_of_none`, `Schema.renameValue_single`, `Schema.renameValue_list`: the value
  of a field.
* `KeysApart`: the old and the new keys of the fields do not get in each other's way.
* `Schema.renameFields_cons_eq_ok`: which keys are there after the renaming of one field.
* `Schema.Undisturbed`: no field of an object is put under the old key of a later one.
* `Schema.renameFields_undisturbed`, `Schema.renameFields_eq`, `Schema.renameFields_complete`: the
  entries of the renamed object.
* `Schema.MovesFields`, `Schema.movesFields_of_wellNamed`: fields that are kept apart are moved to
  their new keys, and nothing else is.
-/

namespace TypedSearch

/-! ## Depth -/

theorem depthOfAll_le_iff {xs : List Value} {d : Nat} :
    depthOfAll xs ≤ d ↔ ∀ x ∈ xs, x.depth ≤ d := by
  induction xs with
  | nil => simp [depthOfAll]
  | cons x xs ih =>
    rw [depthOfAll, List.forall_mem_cons, ← ih]
    omega

theorem depthOfEntries_le_iff {es : Entries} {d : Nat} :
    depthOfEntries es ≤ d ↔ ∀ e ∈ es, e.2.depth ≤ d := by
  induction es with
  | nil => simp [depthOfEntries]
  | cons e es ih =>
    obtain ⟨key, v⟩ := e
    rw [depthOfEntries, List.forall_mem_cons, ← ih]
    exact Nat.max_le

theorem depth_of_get? {name : String} {v : Value} {es : Entries} (h : es.get? name = some v) :
    v.depth ≤ depthOfEntries es := by
  obtain ⟨key, hmem, -⟩ := Entries.mem_of_get? h
  exact depthOfEntries_le_iff.mp (Nat.le_refl _) (key, v) hmem

theorem depthOfEntries_erase (name : String) (es : Entries) :
    depthOfEntries (es.erase name) ≤ depthOfEntries es :=
  depthOfEntries_le_iff.mpr fun e he =>
    depthOfEntries_le_iff.mp (Nat.le_refl _) e (List.mem_filter.mp he).1

theorem depthOfEntries_put {name : String} {v : Value} {es : Entries} {d : Nat} (hv : v.depth ≤ d)
    (hes : depthOfEntries es ≤ d) : depthOfEntries (es.put name v) ≤ d := by
  rw [depthOfEntries_le_iff] at hes ⊢
  intro e he
  unfold Entries.put at he
  split at he
  · obtain ⟨e', he', rfl⟩ := List.mem_map.mp he
    split
    · exact hv
    · exact hes e' he'
  · rcases List.mem_append.mp he with he | he
    · exact hes e he
    · rw [List.mem_singleton] at he
      subst he
      exact hv

namespace Schema

variable {s : Schema} {f : Naming} {direction : Direction}

/-- A renaming of values by their types. -/
abbrev Renamer := TypeExpr → Value → Except Fault Value

/-- The renaming makes no value deeper. -/
def Renamer.Shrinks (r : Renamer) : Prop := ∀ t v w, r t v = .ok w → w.depth ≤ v.depth

/-- Two renamings agree on the objects of classes up to a depth. -/
def Renamer.Agree (s : Schema) (d : Nat) (r r' : Renamer) : Prop :=
  ∀ t v, s.isStructured t = true → v.depth ≤ d → r t v = r' t v

variable {r r' : Renamer}

theorem renameAll_depth {g : Value → Except Fault Value} (hg : ∀ v w, g v = .ok w → w.depth ≤ v.depth)
    {xs ys : List Value} (h : renameAll g xs = .ok ys) : depthOfAll ys ≤ depthOfAll xs := by
  induction xs generalizing ys with
  | nil =>
    cases h
    exact Nat.le_refl _
  | cons x xs ih =>
    obtain ⟨y, hx, hrest⟩ := bind_eq_ok.mp h
    obtain ⟨rest, hxs, hys⟩ := bind_eq_ok.mp hrest
    cases hys
    have hhead := hg x y hx
    have htail := ih hxs
    simp only [depthOfAll]
    omega

theorem renameAll_forall₂ {g : Value → Except Fault Value} {xs ys : List Value}
    (h : renameAll g xs = .ok ys) : List.Forall₂ (fun x y => g x = .ok y) xs ys := by
  induction xs generalizing ys with
  | nil =>
    cases h
    exact .nil
  | cons x xs ih =>
    obtain ⟨y, hx, hrest⟩ := bind_eq_ok.mp h
    obtain ⟨rest, hxs, hys⟩ := bind_eq_ok.mp hrest
    cases hys
    exact .cons hx (ih hxs)

theorem renameAll_congr {g g' : Value → Except Fault Value} {xs : List Value}
    (h : ∀ x ∈ xs, g x = g' x) : renameAll g xs = renameAll g' xs := by
  induction xs with
  | nil => rfl
  | cons x xs ih =>
    rw [List.forall_mem_cons] at h
    rw [renameAll, renameAll, h.1, ih h.2]

theorem renameValue_depth (hr : r.Shrinks) {t : TypeExpr} {v w : Value}
    (h : s.renameValue r t v = .ok w) : w.depth ≤ v.depth := by
  unfold renameValue at h
  dsimp only at h
  split at h
  · rename_i item hi
    split at h
    · rename_i xs
      split at h
      · obtain ⟨ys, hxs, rfl⟩ := map_eq_ok.mp h
        have hdepth := renameAll_depth (hr item.stripped) hxs
        simp only [Value.depth]
        omega
      · cases h
        exact Nat.le_refl _
    · cases h
      exact Nat.le_refl _
  · split at h
    · exact hr _ _ _ h
    · cases h
      exact Nat.le_refl _

theorem renameValue_congr {d : Nat} (hr : Renamer.Agree s d r r') {t : TypeExpr} {v : Value}
    (hv : v.depth ≤ d) : s.renameValue r t v = s.renameValue r' t v := by
  unfold renameValue
  dsimp only
  split
  · split
    · rename_i xs
      split
      · rename_i hs
        rw [Value.depth] at hv
        have hxs : ∀ x ∈ xs, x.depth ≤ d := depthOfAll_le_iff.mp (by omega)
        rw [renameAll_congr fun x hx => hr _ x hs (hxs x hx)]
      · rfl
    · rfl
  · split
    · rename_i hs
      exact hr _ v hs hv
    · rfl

theorem renameFields_depth (hr : r.Shrinks) {cls : String} {fs : List FieldEntry}
    {es es' : Entries} (h : s.renameFields r direction cls fs es = .ok es') :
    depthOfEntries es' ≤ depthOfEntries es := by
  induction fs generalizing es with
  | nil =>
    cases h
    exact Nat.le_refl _
  | cons g fs ih =>
    unfold renameFields at h
    dsimp only at h
    split at h
    · exact ih h
    · rename_i v hv
      obtain ⟨w, hw, hrest⟩ := bind_eq_ok.mp h
      have hdepth := Nat.le_trans (renameValue_depth hr hw) (depth_of_get? hv)
      exact Nat.le_trans (ih hrest) (depthOfEntries_put hdepth (depthOfEntries_erase _ _))

theorem renameFields_congr {d : Nat} (hr : r.Shrinks) (hagree : Renamer.Agree s d r r')
    {cls : String} {fs : List FieldEntry} {es : Entries} (hes : depthOfEntries es ≤ d) :
    s.renameFields r direction cls fs es = s.renameFields r' direction cls fs es := by
  induction fs generalizing es with
  | nil => rfl
  | cons g fs ih =>
    unfold renameFields
    dsimp only
    split
    · exact ih hes
    · rename_i v hv
      have hdepth := Nat.le_trans (depth_of_get? hv) hes
      rw [renameValue_congr hagree hdepth]
      cases hw : s.renameValue r' g.type v with
      | error e => rfl
      | ok w =>
        have hwd : w.depth ≤ d := by
          rw [← renameValue_congr hagree hdepth] at hw
          exact Nat.le_trans (renameValue_depth hr hw) hdepth
        exact ih (depthOfEntries_put hwd (Nat.le_trans (depthOfEntries_erase _ _) hes))

/-! ## Counting down -/

theorem renameWithin_of_not_object {n : Nat} {t : TypeExpr} {v : Value}
    (hv : v.asEntries? = none) : s.renameWithin f direction n t v = .ok v := by
  cases n <;> cases v <;> first | rfl | cases hv

theorem renameWithin_shrinks (n : Nat) :
    Renamer.Shrinks (s.renameWithin f direction n) := by
  induction n with
  | zero =>
    intro t v w h
    cases h
    exact Nat.le_refl _
  | succ n ih =>
    intro t v w h
    cases v with
    | dict es =>
      obtain ⟨fields, -, h⟩ := bind_eq_ok.mp h
      obtain ⟨es', hes', h⟩ := bind_eq_ok.mp h
      cases h
      have hdepth := renameFields_depth ih hes'
      simp only [Value.depth]
      omega
    | _ =>
      cases h
      exact Nat.le_refl _

/-- Counting down from more than the depth of a value changes nothing. -/
theorem renameWithin_of_depth_le {n m : Nat} {t : TypeExpr} {v : Value} (hn : v.depth ≤ n)
    (hm : v.depth ≤ m) : s.renameWithin f direction n t v = s.renameWithin f direction m t v := by
  induction n generalizing m t v with
  | zero =>
    cases v with
    | dict es => simp [Value.depth] at hn
    | _ => rw [renameWithin_of_not_object rfl, renameWithin_of_not_object rfl]
  | succ n ih =>
    cases v with
    | dict es =>
      cases m with
      | zero => simp [Value.depth] at hm
      | succ m =>
        simp only [Value.depth, Nat.add_le_add_iff_right] at hn hm
        have hfields : ∀ {cls fs}, s.renameFields (s.renameWithin f direction n) direction cls fs es =
            s.renameFields (s.renameWithin f direction m) direction cls fs es := by
          intro cls fs
          have hagree : Renamer.Agree s (depthOfEntries es) (s.renameWithin f direction n)
              (s.renameWithin f direction m) := fun t v _ hv =>
            ih (Nat.le_trans hv hn) (Nat.le_trans hv hm)
          exact renameFields_congr (renameWithin_shrinks n) hagree (Nat.le_refl _)
        simp only [renameWithin, hfields]
    | _ => rw [renameWithin_of_not_object rfl, renameWithin_of_not_object rfl]

/-! ## The renaming of an object -/

/-- The renaming of objects of classes, all the way down. -/
def renamer (s : Schema) (f : Naming) (direction : Direction) : Renamer :=
  fun t v => s.rename (some f) direction (.type t) v

theorem renamer_of_not_object {t : TypeExpr} {v : Value} (hv : v.asEntries? = none) :
    s.renamer f direction t v = .ok v := by
  cases v <;> first | rfl | cases hv

theorem renamer_eq_renameWithin {t : TypeExpr} (ht : isClass t = true) (v : Value) :
    s.renamer f direction t v = s.renameWithin f direction v.depth t v := by
  cases v with
  | dict es =>
    unfold renamer rename ModelRef.class?
    simp only [ht, if_true]
    rfl
  | _ => rw [renamer_of_not_object rfl, renameWithin_of_not_object rfl]

/-- The object of a class is renamed field by field, and what it holds by the same rule. -/
theorem renamer_object {cls : String} {es : Entries} :
    s.renamer f direction (.named cls) (.dict es) =
      ((s.fieldsOf (some f) (.named cls)).bind fun fields =>
        s.renameFields (s.renamer f direction) direction cls fields es).map .dict := by
  have hagree : Renamer.Agree s (depthOfEntries es)
      (s.renameWithin f direction (depthOfEntries es)) (s.renamer f direction) := by
    intro t v ht hv
    obtain ⟨c, rfl⟩ := isStructured_eq_true ht
    rw [renamer_eq_renameWithin rfl]
    exact renameWithin_of_depth_le hv (Nat.le_refl _)
  rw [renamer_eq_renameWithin rfl, Value.depth, renameWithin]
  cases s.fieldsOf (some f) (.named cls) with
  | error e => rfl
  | ok fields =>
    have hfields : s.renameFields _ direction cls fields es = s.renameFields _ direction cls fields es :=
      renameFields_congr (renameWithin_shrinks (depthOfEntries es)) hagree (Nat.le_refl _)
    change (s.renameFields _ direction cls fields es >>= fun es => pure (Value.dict es)) =
      (s.renameFields _ direction cls fields es).map Value.dict
    rw [hfields]
    cases s.renameFields (s.renamer f direction) direction cls fields es <;> rfl

/-! ## Values of fields -/

theorem isStructured_holder {t : TypeExpr} (h : s.structuredClass? t = none) :
    s.isStructured t.holder = false := by
  cases hs : s.isStructured t.holder with
  | false => rfl
  | true =>
    obtain ⟨cls, hcls⟩ := isStructured_eq_true hs
    have hsome := structuredClass?_eq_some_iff.mpr ⟨hcls, hcls ▸ hs⟩
    rw [h] at hsome
    cases hsome

theorem renameValue_of_none {t : TypeExpr} (h : s.structuredClass? t = none) (v : Value) :
    s.renameValue r t v = .ok v := by
  have hs := isStructured_holder h
  unfold renameValue
  dsimp only
  cases hi : t.stripped.item? with
  | none =>
    rw [TypeExpr.holder_of_item?_none hi] at hs
    simp [hs]
  | some item =>
    rw [TypeExpr.holder_of_item? hi] at hs
    cases v <;> simp [hs]

variable {t : TypeExpr} {cls : String}

theorem renameValue_single (h : s.structuredClass? t = some cls)
    (hi : t.stripped.item? = none) (v : Value) : s.renameValue r t v = r (.named cls) v := by
  obtain ⟨hholder, hs⟩ := structuredClass?_eq_some_iff.mp h
  rw [TypeExpr.holder_of_item?_none hi] at hholder
  have hitem : (TypeExpr.named cls).item? = none := rfl
  unfold renameValue
  simp [hholder, hitem, hs]

/-- The value of an array field holds the objects to be renamed. -/
theorem renameValue_list {item : TypeExpr} (h : s.structuredClass? t = some cls)
    (hi : t.stripped.item? = some item) (xs : List Value) :
    s.renameValue r t (.list xs) = (renameAll (r (.named cls)) xs).map .list := by
  obtain ⟨hholder, hs⟩ := structuredClass?_eq_some_iff.mp h
  rw [TypeExpr.holder_of_item? hi] at hholder
  unfold renameValue
  simp [hi, hholder, hs]

theorem renameValue_of_not_list {item : TypeExpr} (hi : t.stripped.item? = some item) {v : Value}
    (hv : ∀ xs, v ≠ .list xs) : s.renameValue r t v = .ok v := by
  unfold renameValue
  dsimp only
  rw [hi]
  cases v with
  | list xs => exact absurd rfl (hv xs)
  | _ => rfl

/-! ## Keys of fields -/

/-- The key of a field in stored documents: its alias, or its name. -/
def storedKey (s : Schema) (cls name : String) : String := (s.alias? cls name).getD name

theorem wireName_none (cls name : String) :
    s.wireName none cls name = .ok (s.storedKey cls name) := by
  unfold wireName storedKey
  cases s.alias? cls name <;> rfl

/-- The old and new keys of the fields of a class do not get in each other's way. -/
structure WellNamed (s : Schema) (cls : String) (fs : List FieldEntry) : Prop where
  stored : (fs.map fun g => s.storedKey cls g.name).Nodup
  wires : (fs.map (·.wire)).Nodup
  apart : ∀ g ∈ fs, ∀ h ∈ fs, g.wire = s.storedKey cls h.name → g = h

/-- The key that a field is taken from. -/
abbrev sourceKey (s : Schema) (direction : Direction) (cls : String) (g : FieldEntry) : String :=
  (s.keysFor direction cls g).1

/-- The key that a field is put under. -/
abbrev targetKey (s : Schema) (direction : Direction) (cls : String) (g : FieldEntry) : String :=
  (s.keysFor direction cls g).2

namespace WellNamed

variable {fs : List FieldEntry} {g h : FieldEntry}

theorem sources (hw : s.WellNamed cls fs) (direction : Direction) :
    (fs.map (s.sourceKey direction cls)).Nodup := by
  cases direction with
  | toWire => exact hw.stored
  | fromWire => exact hw.wires

theorem targets (hw : s.WellNamed cls fs) (direction : Direction) :
    (fs.map (s.targetKey direction cls)).Nodup := by
  cases direction with
  | toWire => exact hw.wires
  | fromWire => exact hw.stored

/-- A new key is the old key of no other field. -/
theorem target_ne_source (hw : s.WellNamed cls fs) (hg : g ∈ fs) (hh : h ∈ fs) (hne : g ≠ h) :
    s.targetKey direction cls g ≠ s.sourceKey direction cls h := by
  cases direction with
  | toWire => exact fun heq => hne (hw.apart g hg h hh heq)
  | fromWire => exact fun heq => hne (hw.apart h hh g hg heq.symm).symm

end WellNamed

/-! ## Entries of a renamed object -/

/-- The entries that belong to no field. -/
def unclaimed (s : Schema) (direction : Direction) (cls : String) (fs : List FieldEntry)
    (es : Entries) : Entries :=
  es.filter fun e => !fs.any fun g => Entries.keyIs (s.sourceKey direction cls g) e.1

/-- The entry of a field under its new key, if the field is there. -/
def moved (s : Schema) (r : Renamer) (direction : Direction) (cls : String) (es : Entries)
    (g : FieldEntry) : Option (Value × Value) :=
  (es.get? (s.sourceKey direction cls g)).bind fun v =>
    (s.renameValue r g.type v).toOption.map fun w => (.str (s.targetKey direction cls g), w)

theorem unclaimed_cons (g : FieldEntry) (fs : List FieldEntry) (es : Entries) :
    s.unclaimed direction cls (g :: fs) es =
      s.unclaimed direction cls fs (es.erase (s.sourceKey direction cls g)) := by
  unfold unclaimed Entries.erase
  rw [List.filter_filter]
  congr 1
  funext e
  simp [Bool.and_comm]

theorem unclaimed_append (fs : List FieldEntry) (es es' : Entries) :
    s.unclaimed direction cls fs (es ++ es') =
      s.unclaimed direction cls fs es ++ s.unclaimed direction cls fs es' :=
  List.filter_append ..

/-- One field renamed: its new key is there afterwards if one of its keys was, its old key is gone
unless it is the new one, and the other keys are as before. -/
theorem renameFields_cons_eq_ok {g : FieldEntry} {fs : List FieldEntry} {es es' : Entries}
    (h : s.renameFields r direction cls (g :: fs) es = .ok es') :
    ∃ next, s.renameFields r direction cls fs next = .ok es' ∧ ∀ key, next.has key =
      if key = s.targetKey direction cls g then
        es.has (s.sourceKey direction cls g) || es.has (s.targetKey direction cls g)
      else if key = s.sourceKey direction cls g then false
      else es.has key := by
  unfold renameFields at h
  dsimp only at h
  split at h
  · rename_i hnone
    have habsent : es.has (s.sourceKey direction cls g) = false :=
      Entries.get?_eq_none_iff.mp hnone
    refine ⟨es, h, fun key => ?_⟩
    split
    · rename_i htarget
      rw [htarget, habsent, Bool.false_or]
    · split
      · rename_i hsource
        rw [hsource, habsent]
      · rfl
  · rename_i v hv
    obtain ⟨w, -, h⟩ := bind_eq_ok.mp h
    have hthere : es.has (s.sourceKey direction cls g) = true := Entries.has_iff.mpr ⟨v, hv⟩
    refine ⟨_, h, fun key => ?_⟩
    split
    · rename_i htarget
      rw [htarget, hthere, Bool.true_or]
      exact Entries.has_put_self
    · rename_i htarget
      rw [Entries.has_put_of_ne (Ne.symm htarget)]
      split
      · rename_i hsource
        rw [hsource]
        exact Entries.has_erase_self _ es
      · rename_i hsource
        exact Entries.has_erase_of_ne (Ne.symm hsource)

/-- No field that the object has is put under the old key of a later one. -/
def Undisturbed (s : Schema) (direction : Direction) (cls : String) (fs : List FieldEntry)
    (es : Entries) : Prop :=
  fs.Pairwise fun g h => es.has (s.sourceKey direction cls g) = true →
    s.targetKey direction cls g ≠ s.sourceKey direction cls h

/-- A key that is neither that of a later field nor that of an entry that belongs to no field is
gone with the first field. -/
theorem has_erase_source {g : FieldEntry} {fs : List FieldEntry} {es : Entries} {key : String}
    (hlater : ∀ h ∈ fs, key ≠ s.sourceKey direction cls h)
    (hfree : (s.unclaimed direction cls (g :: fs) es).has key = false) :
    (es.erase (s.sourceKey direction cls g)).has key = false := by
  refine List.any_eq_false.mpr fun e he hkey => ?_
  rw [unclaimed_cons] at hfree
  refine List.any_eq_false.mp hfree e (List.mem_filter.mpr ⟨he, ?_⟩) hkey
  rw [Bool.not_eq_true', List.any_eq_false]
  intro h hh hsource
  exact Bool.false_ne_true ((Entries.keyIs_ne hkey (hlater h hh)).symm.trans hsource)

/-- The renamed object holds the entries that belong to no field, and behind them the fields in
order, under their new keys and with their renamed values, where no field gets in the way of a later
one or of such an entry. -/
theorem renameFields_undisturbed {fs : List FieldEntry} {es : Entries}
    (hsources : (fs.map (s.sourceKey direction cls)).Nodup)
    (htargets : (fs.map (s.targetKey direction cls)).Nodup)
    (hes : s.Undisturbed direction cls fs es)
    (hfree : ∀ g ∈ fs, (s.unclaimed direction cls fs es).has (s.targetKey direction cls g) = false)
    (hvalues : ∀ g ∈ fs, ∀ v, es.get? (s.sourceKey direction cls g) = some v →
      ∃ w, s.renameValue r g.type v = .ok w) :
    s.renameFields r direction cls fs es =
      .ok (s.unclaimed direction cls fs es ++ fs.filterMap (s.moved r direction cls es)) := by
  induction fs generalizing es with
  | nil => simp [renameFields, unclaimed]
  | cons g fs ih =>
    rw [List.map_cons, List.nodup_cons] at hsources htargets
    obtain ⟨hhead, htail⟩ := List.pairwise_cons.mp hes
    rw [List.forall_mem_cons] at hfree hvalues
    rw [renameFields]
    cases hget : es.get? (s.sourceKey direction cls g) with
    | none =>
      have hmoved : s.moved r direction cls es g = none := by simp [moved, hget]
      have hkept := Entries.erase_of_has_eq_false (Entries.get?_eq_none_iff.mp hget)
      have hsame : s.unclaimed direction cls (g :: fs) es = s.unclaimed direction cls fs es := by
        rw [unclaimed_cons, hkept]
      simp only [hget]
      rw [List.filterMap_cons_none hmoved, hsame]
      exact ih hsources.2 htargets.2 htail (hsame ▸ hfree.2) hvalues.2
    | some v =>
      obtain ⟨w, hvw⟩ := hvalues.1 v hget
      have hmoved : s.moved r direction cls es g = some (.str (s.targetKey direction cls g), w) := by
        simp [moved, hget, hvw, Except.toOption]
      have hhas : es.has (s.sourceKey direction cls g) = true := by
        rw [← Bool.not_eq_false, ← Entries.get?_eq_none_iff, hget]
        exact Option.some_ne_none v
      have hlater : ∀ h ∈ fs, s.targetKey direction cls g ≠ s.sourceKey direction cls h :=
        fun h hh => hhead h hh hhas
      have hnew : (es.erase (s.sourceKey direction cls g)).has (s.targetKey direction cls g) =
          false := has_erase_source hlater hfree.1
      let rest := es.erase (s.sourceKey direction cls g) ++ [(.str (s.targetKey direction cls g), w)]
      have hrest : ∀ h ∈ fs, rest.get? (s.sourceKey direction cls h) =
          es.get? (s.sourceKey direction cls h) := by
        intro h hh
        have hsource : s.sourceKey direction cls g ≠ s.sourceKey direction cls h := fun heq =>
          hsources.1 (List.mem_map.mpr ⟨h, hh, heq.symm⟩)
        simp [rest, Entries.get?_append, Entries.get?_cons, Entries.get?_erase_of_ne hsource,
          hlater h hh]
      have hrest' : s.Undisturbed direction cls fs rest := by
        refine htail.imp_of_mem fun {h k} hh _ hhk hrh => hhk ?_
        rw [← Bool.not_eq_false, ← Entries.get?_eq_none_iff, hrest h hh,
          Entries.get?_eq_none_iff, Bool.not_eq_false] at hrh
        exact hrh
      have hone : s.unclaimed direction cls fs [(.str (s.targetKey direction cls g), w)] =
          [(.str (s.targetKey direction cls g), w)] := by
        simpa [unclaimed] using hlater
      have hunclaimed : s.unclaimed direction cls fs rest =
          s.unclaimed direction cls (g :: fs) es ++ [(.str (s.targetKey direction cls g), w)] := by
        rw [unclaimed_append, hone, unclaimed_cons]
      have hfree' : ∀ h ∈ fs,
          (s.unclaimed direction cls fs rest).has (s.targetKey direction cls h) = false := by
        intro h hh
        have htarget : s.targetKey direction cls g ≠ s.targetKey direction cls h := fun heq =>
          htargets.1 (List.mem_map.mpr ⟨h, hh, heq.symm⟩)
        rw [hunclaimed, Entries.has_append, hfree.2 h hh]
        simp [Entries.has, htarget]
      have hvalues' : ∀ h ∈ fs, ∀ u, rest.get? (s.sourceKey direction cls h) = some u →
          ∃ w, s.renameValue r h.type u = .ok w := fun h hh u hu =>
        hvalues.2 h hh u (hrest h hh ▸ hu)
      have hmap : fs.filterMap (s.moved r direction cls rest) =
          fs.filterMap (s.moved r direction cls es) := by
        refine List.filterMap_congr fun h hh => ?_
        unfold moved
        rw [hrest h hh]
      have hput := Entries.put_of_has_eq_false (v := w) hnew
      simp only [hget, hvw, bind, Except.bind, hput]
      change s.renameFields r direction cls fs rest = _
      rw [ih hsources.2 htargets.2 hrest' hfree' hvalues', hmap, hunclaimed,
        List.filterMap_cons_some hmoved, List.append_assoc]
      rfl

theorem has_unclaimed {fs : List FieldEntry} {es : Entries} {g : FieldEntry} (hg : g ∈ fs)
    (hfree : s.targetKey direction cls g = s.sourceKey direction cls g ∨
      es.has (s.targetKey direction cls g) = false) :
    (s.unclaimed direction cls fs es).has (s.targetKey direction cls g) = false := by
  refine List.any_eq_false.mpr fun e he hkey => ?_
  obtain ⟨hmem, hnone⟩ := List.mem_filter.mp he
  rcases hfree with heq | hfree
  · rw [Bool.not_eq_true', List.any_eq_false] at hnone
    exact hnone g hg (heq ▸ hkey)
  · exact List.any_eq_false.mp hfree e hmem hkey

theorem WellNamed.undisturbed {fs : List FieldEntry} (hw : s.WellNamed cls fs) (es : Entries) :
    s.Undisturbed direction cls fs es := by
  refine ((List.pairwise_map.mp (hw.sources direction)).imp_of_mem ?_)
  intro g h hg hh hne _
  refine hw.target_ne_source hg hh ?_
  rintro rfl
  exact hne rfl

/-- Where the keys of the fields are kept apart, only a key of the object could be in the way. -/
theorem renameFields_eq {fs : List FieldEntry} {es : Entries} (hw : s.WellNamed cls fs)
    (hfree : ∀ g ∈ fs, s.targetKey direction cls g = s.sourceKey direction cls g ∨
      es.has (s.targetKey direction cls g) = false)
    (hvalues : ∀ g ∈ fs, ∀ v, es.get? (s.sourceKey direction cls g) = some v →
      ∃ w, s.renameValue r g.type v = .ok w) :
    s.renameFields r direction cls fs es =
      .ok (s.unclaimed direction cls fs es ++ fs.filterMap (s.moved r direction cls es)) := by
  exact renameFields_undisturbed (hw.sources direction) (hw.targets direction) (hw.undisturbed es)
    (fun g hg => has_unclaimed hg (hfree g hg)) hvalues

theorem key_of_moved {es : Entries} {g : FieldEntry} {e : Value × Value}
    (h : s.moved r direction cls es g = some e) : e.1 = .str (s.targetKey direction cls g) := by
  unfold moved at h
  obtain ⟨v, -, h⟩ := Option.bind_eq_some_iff.mp h
  obtain ⟨w, -, rfl⟩ := Option.map_eq_some_iff.mp h
  rfl

theorem get?_filterMap_moved {fs : List FieldEntry} {es : Entries} {g : FieldEntry} (hg : g ∈ fs)
    (htargets : (fs.map (s.targetKey direction cls)).Nodup) :
    Entries.get? (s.targetKey direction cls g) (fs.filterMap (s.moved r direction cls es)) =
      (s.moved r direction cls es g).map (·.2) := by
  induction fs with
  | nil => cases hg
  | cons h fs ih =>
    rw [List.map_cons, List.nodup_cons] at htargets
    rw [List.filterMap_cons]
    rcases List.mem_cons.mp hg with rfl | hg
    · cases hm : s.moved r direction cls es g with
      | none =>
        rw [Option.map_none, Entries.get?_eq_none_iff, Entries.has, List.any_eq_false]
        intro e he
        obtain ⟨k, hk, hke⟩ := List.mem_filterMap.mp he
        have hne : s.targetKey direction cls k ≠ s.targetKey direction cls g := fun heq =>
          htargets.1 (List.mem_map.mpr ⟨k, hk, heq⟩)
        simp [key_of_moved hke, hne]
      | some e =>
        obtain ⟨key, w⟩ := e
        have hkey : key = .str (s.targetKey direction cls g) := key_of_moved hm
        simp [Entries.get?_cons, hkey]
    · have hne : s.targetKey direction cls h ≠ s.targetKey direction cls g := fun heq =>
        htargets.1 (List.mem_map.mpr ⟨g, hg, heq.symm⟩)
      cases hm : s.moved r direction cls es h with
      | none => exact ih hg htargets.2
      | some e =>
        obtain ⟨key, w⟩ := e
        have hkey : key = .str (s.targetKey direction cls h) := key_of_moved hm
        simp only [Entries.get?_cons, hkey, Entries.keyIs_str, beq_eq_false_iff_ne.mpr hne]
        exact ih hg htargets.2

theorem get?_renamed {fs : List FieldEntry} {es : Entries} {g : FieldEntry} (hg : g ∈ fs)
    (hw : s.WellNamed cls fs)
    (hfree : s.targetKey direction cls g = s.sourceKey direction cls g ∨
      es.has (s.targetKey direction cls g) = false) :
    Entries.get? (s.targetKey direction cls g)
        (s.unclaimed direction cls fs es ++ fs.filterMap (s.moved r direction cls es)) =
      (es.get? (s.sourceKey direction cls g)).bind fun v =>
        (s.renameValue r g.type v).toOption := by
  have hkept : Entries.get? (s.targetKey direction cls g) (s.unclaimed direction cls fs es) =
      none := Entries.get?_eq_none_iff.mpr (has_unclaimed hg hfree)
  rw [Entries.get?_append, hkept, Option.none_or, get?_filterMap_moved hg (hw.targets direction)]
  unfold moved
  cases es.get? (s.sourceKey direction cls g) with
  | none => rfl
  | some v =>
    rw [Option.bind_some, Option.bind_some]
    cases s.renameValue r g.type v <;> rfl

/-! ## Complete objects -/

theorem get?_map_of_nodup {α : Type} {xs : List α} {key : α → String} (hn : (xs.map key).Nodup)
    (value : α → Value) {x : α} (hx : x ∈ xs) :
    Entries.get? (key x) (xs.map fun y => (.str (key y), value y)) = some (value x) := by
  have hfind := find?_of_nodup (p := fun y => Entries.keyIs (key x) (.str (key y))) hn hx
    fun y _ => by rw [Entries.keyIs_str, beq_iff_eq]
  rw [Entries.get?, List.find?_map, Function.comp_def, hfind]
  rfl

/-- An object that has all its fields in order is renamed field by field, in the same order. -/
theorem renameFields_complete {fs : List FieldEntry} (hw : s.WellNamed cls fs)
    {value value' : FieldEntry → Value}
    (h : ∀ g ∈ fs, s.renameValue r g.type (value g) = .ok (value' g)) :
    s.renameFields r direction cls fs
        (fs.map fun g => (.str (s.sourceKey direction cls g), value g)) =
      .ok (fs.map fun g => (.str (s.targetKey direction cls g), value' g)) := by
  have hget : ∀ g ∈ fs, Entries.get? (s.sourceKey direction cls g)
      (fs.map fun g => (.str (s.sourceKey direction cls g), value g)) = some (value g) :=
    fun g hg => get?_map_of_nodup (hw.sources direction) value hg
  have hfree : ∀ g ∈ fs, s.targetKey direction cls g = s.sourceKey direction cls g ∨
      Entries.has (s.targetKey direction cls g)
        (fs.map fun g => (.str (s.sourceKey direction cls g), value g)) = false := by
    intro g hg
    by_cases heq : s.targetKey direction cls g = s.sourceKey direction cls g
    · exact Or.inl heq
    · refine Or.inr (List.any_eq_false.mpr fun e he => ?_)
      obtain ⟨k, hk, rfl⟩ := List.mem_map.mp he
      rw [Entries.keyIs_str, beq_iff_eq]
      intro hkey
      by_cases hgk : g = k
      · exact heq (hgk ▸ hkey.symm)
      · exact hw.target_ne_source hg hk hgk hkey.symm
  have hvalues : ∀ g ∈ fs, ∀ v, Entries.get? (s.sourceKey direction cls g)
      (fs.map fun g => (.str (s.sourceKey direction cls g), value g)) = some v →
      ∃ w, s.renameValue r g.type v = .ok w := by
    intro g hg v hv
    rw [hget g hg, Option.some.injEq] at hv
    exact ⟨value' g, hv ▸ h g hg⟩
  have hunclaimed : s.unclaimed direction cls fs
      (fs.map fun g => (.str (s.sourceKey direction cls g), value g)) = [] := by
    refine List.filter_eq_nil_iff.mpr fun e he => ?_
    obtain ⟨g, hg, rfl⟩ := List.mem_map.mp he
    rw [Bool.not_eq_true', Bool.not_eq_false]
    exact List.any_eq_true.mpr ⟨g, hg, by simp⟩
  have hmoved : fs.filterMap (s.moved r direction cls
      (fs.map fun g => (.str (s.sourceKey direction cls g), value g))) =
      fs.filterMap fun g => some (.str (s.targetKey direction cls g), value' g) := by
    refine List.filterMap_congr fun g hg => ?_
    rw [moved, hget g hg, Option.bind_some, h g hg]
    rfl
  rw [renameFields_eq hw hfree hvalues, hunclaimed, List.nil_append, hmoved, List.filterMap_eq_map']

/-! ## Fields that are kept apart -/

/-- The object `es'` is `es` with each field moved from its old key to its new one and its value
renamed. A field that is not there leaves its keys as they are, and so do the other keys. -/
structure MovesFields (s : Schema) (r : Renamer) (direction : Direction) (cls : String)
    (fs : List FieldEntry) (es es' : Entries) : Prop where
  moved : ∀ g ∈ fs, ∀ v, es.get? (s.sourceKey direction cls g) = some v →
    ∃ w, s.renameValue r g.type v = .ok w ∧ es'.get? (s.targetKey direction cls g) = some w
  absent : ∀ g ∈ fs, es.get? (s.sourceKey direction cls g) = none →
    es'.get? (s.targetKey direction cls g) = es.get? (s.targetKey direction cls g)
  gone : ∀ g ∈ fs, s.sourceKey direction cls g ≠ s.targetKey direction cls g →
    es'.get? (s.sourceKey direction cls g) = none
  others : ∀ key, (∀ g ∈ fs, key ≠ s.sourceKey direction cls g ∧
    key ≠ s.targetKey direction cls g) → es'.get? key = es.get? key

/-- One field renamed: its value is renamed and found under its new key if it is there, and the keys
of others hold what they held. -/
theorem get?_of_renameFields_cons {g : FieldEntry} {fs : List FieldEntry} {es es' : Entries}
    (h : s.renameFields r direction cls (g :: fs) es = .ok es') :
    ∃ next, s.renameFields r direction cls fs next = .ok es' ∧
      (∀ v, es.get? (s.sourceKey direction cls g) = some v → ∃ w, s.renameValue r g.type v = .ok w ∧
        next.get? (s.targetKey direction cls g) = some w) ∧
      (es.get? (s.sourceKey direction cls g) = none → next = es) ∧
      (s.sourceKey direction cls g ≠ s.targetKey direction cls g →
        next.get? (s.sourceKey direction cls g) = none) ∧
      ∀ key, key ≠ s.sourceKey direction cls g → key ≠ s.targetKey direction cls g →
        next.get? key = es.get? key := by
  unfold renameFields at h
  dsimp only at h
  split at h
  · rename_i hnone
    refine ⟨es, h, fun v hv => ?_, fun _ => rfl, fun _ => hnone, fun _ _ _ => rfl⟩
    rw [hnone] at hv
    cases hv
  · rename_i v hv
    obtain ⟨w, hw, h⟩ := bind_eq_ok.mp h
    refine ⟨_, h, fun u hu => ?_, fun hnone => ?_, fun hne => ?_, fun key hsource htarget => ?_⟩
    · rw [hv] at hu
      cases hu
      exact ⟨w, hw, by rw [Entries.get?_put, if_pos rfl]⟩
    · rw [hv] at hnone
      cases hnone
    · rw [Entries.get?_put, if_neg hne.symm, Entries.get?_eq_none_iff]
      exact Entries.has_erase_self _ es
    · rw [Entries.get?_put, if_neg htarget.symm, Entries.get?_erase_of_ne hsource.symm]

theorem WellNamed.tail {g : FieldEntry} {fs : List FieldEntry}
    (hw : s.WellNamed cls (g :: fs)) : s.WellNamed cls fs where
  stored := (List.nodup_cons.mp hw.stored).2
  wires := (List.nodup_cons.mp hw.wires).2
  apart k hk h hh := hw.apart k (.tail _ hk) h (.tail _ hh)

/-- The keys of the first field are not those of the others. -/
theorem WellNamed.head_ne {g k : FieldEntry} {fs : List FieldEntry}
    (hw : s.WellNamed cls (g :: fs)) (direction : Direction) (hk : k ∈ fs) :
    (s.sourceKey direction cls g ≠ s.sourceKey direction cls k ∧
      s.sourceKey direction cls g ≠ s.targetKey direction cls k) ∧
    s.targetKey direction cls g ≠ s.sourceKey direction cls k ∧
      s.targetKey direction cls g ≠ s.targetKey direction cls k := by
  have hsource := (List.nodup_cons.mp (hw.sources direction)).1
  have htarget := (List.nodup_cons.mp (hw.targets direction)).1
  have hne : g ≠ k := by
    rintro rfl
    exact hsource (List.mem_map.mpr ⟨g, hk, rfl⟩)
  exact ⟨⟨fun heq => hsource (List.mem_map.mpr ⟨k, hk, heq.symm⟩),
      (hw.target_ne_source (.tail _ hk) (.head _) hne.symm).symm⟩,
    hw.target_ne_source (.head _) (.tail _ hk) hne,
    fun heq => htarget (List.mem_map.mpr ⟨k, hk, heq.symm⟩)⟩

/-- Fields that keep out of each other's way are each moved to their new key. -/
theorem movesFields_of_wellNamed {fs : List FieldEntry} {es es' : Entries} (hw : s.WellNamed cls fs)
    (h : s.renameFields r direction cls fs es = .ok es') :
    s.MovesFields r direction cls fs es es' := by
  induction fs generalizing es with
  | nil =>
    cases h
    exact ⟨nofun, nofun, nofun, fun _ _ => rfl⟩
  | cons g fs ih =>
    obtain ⟨next, hnext, hmoved, habsent, hgone, hothers⟩ := get?_of_renameFields_cons h
    have hrest := ih hw.tail hnext
    have hapart := fun k (hk : k ∈ fs) => hw.head_ne direction hk
    -- the later fields are read from and written to keys that the first one does not touch
    have hsource : ∀ k ∈ fs, next.get? (s.sourceKey direction cls k) =
        es.get? (s.sourceKey direction cls k) := fun k hk =>
      hothers _ (hapart k hk).1.1.symm (hapart k hk).2.1.symm
    have htarget : es'.get? (s.targetKey direction cls g) =
        next.get? (s.targetKey direction cls g) := hrest.others _ fun k hk => (hapart k hk).2
    refine ⟨?_, ?_, ?_, fun key hkey => ?_⟩
    · refine List.forall_mem_cons.mpr ⟨fun v hv => ?_, fun k hk v hv => ?_⟩
      · rw [htarget]
        exact hmoved v hv
      · exact hrest.moved k hk v ((hsource k hk).trans hv)
    · refine List.forall_mem_cons.mpr ⟨fun hnone => ?_, fun k hk hnone => ?_⟩
      · rw [htarget, habsent hnone]
      · rw [hrest.absent k hk ((hsource k hk).trans hnone)]
        exact hothers _ (hapart k hk).1.2.symm (hapart k hk).2.2.symm
    · refine List.forall_mem_cons.mpr ⟨fun hne => ?_, hrest.gone⟩
      rw [hrest.others _ fun k hk => (hapart k hk).1]
      exact hgone hne
    · rw [List.forall_mem_cons] at hkey
      rw [hrest.others key hkey.2, hothers key hkey.1.1 hkey.1.2]

end Schema

end TypedSearch
