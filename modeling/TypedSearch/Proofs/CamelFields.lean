import TypedSearch.Proofs.CamelNames
import TypedSearch.Proofs.RenamingLosses

/-!
# Fields named in camel case

Under a naming in camel case the fields of a class keep out of each other's way as soon as their
stored keys differ and their wire names do. An alias is a stored key and a wire name at once. A name
that is a wire name in camel case is its own wire name, so where it is the stored key of another
field, the two fields have one wire name. So renaming the fields one after the other moves each of
them and overwrites no other one.

* `Schema.isPrivate_of_hints`: no field has a private name.
* `Schema.wellNamed_of_settles`: fields named by a naming that settles keep out of each other's way.
* `Schema.rename_moves`: renaming an object moves each field from its old key to its new one.
* `Schema.camel_keeps_fields_apart`: **the naming in camel case never makes fields interfere.**
-/

namespace TypedSearch

namespace Schema

variable {s : Schema} {r : Renamer} {direction : Direction} {cls : String} {g : FieldEntry}
  {fs : List FieldEntry} {es es' : Entries} {root : String} {f : Naming}

/-! ## Names of fields -/

/-- No field has a private name. -/
theorem isPrivate_of_hints {hs : List (String × TypeExpr)} (h : s.hints cls = .ok hs) :
    ∀ e ∈ hs, isPrivate e.1 = false := by
  intro e he
  unfold hints at h
  dsimp only at h
  split at h
  · cases h
    obtain ⟨d, hd, rfl⟩ := List.mem_map.mp he
    have hname : d.name ∈ (s.modelFields cls).map (·.name) :=
      settledFields_names s cls ▸ List.mem_map.mpr ⟨d, hd, rfl⟩
    obtain ⟨d', hd', hsame⟩ := List.mem_map.mp hname
    have hkept := (List.mem_filter.mp hd').2
    simp only [Bool.and_eq_true, Bool.not_eq_true'] at hkept
    exact hsame ▸ hkept.1.1
  · split at h
    · cases h
      obtain ⟨d, hd, rfl⟩ := List.mem_map.mp he
      have hkept := (List.mem_filter.mp hd).2
      rw [Bool.and_eq_true, Bool.not_eq_true'] at hkept
      exact hkept.1
    · cases h

/-- The wire name of a field is its alias, which is its stored key, or the name that the naming
gives it, and then its stored key is its own name. -/
theorem wireName_cases {camel : String → String} {name wire : String}
    (h : s.wireName (some (Naming.ofFunction camel)) cls name = .ok wire) :
    wire = s.storedKey cls name ∨ (s.storedKey cls name = name ∧ wire = camel name) := by
  unfold wireName at h
  unfold storedKey
  cases ha : s.alias? cls name with
  | some key =>
    rw [ha] at h
    exact .inl (Except.ok.inj h).symm
  | none =>
    rw [ha] at h
    exact .inr ⟨rfl, (Except.ok.inj h).symm⟩

/-- Where the stored keys of the fields differ and so do their wire names, and the naming gives back
the names it gave, no wire name is the stored key of another field. -/
theorem wellNamed_of_settles {camel : String → String}
    (hcamel : ∀ name, isPrivate name = false → camel (camel name) = camel name)
    (hfs : s.fieldsOf (some (Naming.ofFunction camel)) (.named cls) = .ok fs)
    (hstored : (fs.map fun g => s.storedKey cls g.name).Nodup)
    (hwires : (fs.map (·.wire)).Nodup) : s.WellNamed cls fs := by
  refine ⟨hstored, hwires, fun g hg k hk heq => ?_⟩
  obtain ⟨hhints, hwire⟩ := fieldsOf_spec hfs
  have hpublic : isPrivate g.name = false :=
    isPrivate_of_hints hhints (g.name, g.type) (List.mem_map.mpr ⟨g, hg, rfl⟩)
  rcases wireName_cases (hwire g hg) with halias | ⟨-, hnamed⟩
  · -- the alias is the stored key of both
    exact List.inj_on_of_nodup_map hstored hg hk (halias.symm.trans heq)
  · -- both have the same wire name
    refine List.inj_on_of_nodup_map hwires hg hk ?_
    rcases wireName_cases (hwire k hk) with halias | ⟨hkey, hnamed'⟩
    · exact heq.trans halias.symm
    · calc
        g.wire = camel g.name := hnamed
        _ = camel (camel g.name) := (hcamel g.name hpublic).symm
        _ = camel g.wire := by rw [hnamed]
        _ = camel k.name := by rw [heq, hkey]
        _ = k.wire := hnamed'.symm

/-! ## Whole documents -/

theorem Visits.reaches {v : Value} {last : String} (h : s.Visits cls v last es)
    (hreach : s.Reaches (fun t c => s.structuredClass? t = some c) root cls) :
    s.Reaches (fun t c => s.structuredClass? t = some c) root last := by
  induction h with
  | here => exact hreach
  | inside hhints hmem _ hx _ ih => exact ih (.field hreach hhints hmem hx.structuredClass?)

/-- Where the keys of each class keep out of each other's way, a renamed object has each field moved
to its new key. -/
theorem rename_moves (hroot : s.NamesFieldsOnce f root)
    (hreach : s.Reaches (fun t c => s.structuredClass? t = some c) root cls)
    (hfs : s.fieldsOf (some f) (.named cls) = .ok fs) (hw : s.WellNamed cls fs)
    (direction : Direction) (es : Entries) :
    ∃ es', s.rename (some f) direction (.type (.named cls)) (.dict es) = .ok (.dict es') ∧
      s.MovesFields (s.renamer f direction) direction cls fs es es' := by
  obtain ⟨w, hw'⟩ : ∃ w, s.renamer f direction (.named cls) (.dict es) = .ok w := by
    refine renamer_total (fun h => h) (fun {c} hc => ?_) hreach (.dict es)
    obtain ⟨fs, hfs, -⟩ := hroot c hc
    exact ⟨fs, hfs⟩
  have hobject := hw'
  rw [renamer_object, hfs] at hobject
  obtain ⟨es', hes', rfl⟩ := map_eq_ok.mp hobject
  exact ⟨es', hw', movesFields_of_wellNamed hw hes'⟩

/-- **The naming in camel case never makes fields interfere.** Of the case maps it is only asked
that they are regular, as those of the Unicode character database are: a name without a leading
underscore has a name in camel case that has no underscore and stays as it is. Fields never have a
leading underscore. So where the stored keys of the fields of each class differ and so do their wire
names, no wire name is the stored key of another field, and each renaming of an object, to the
indexed names or back, moves each field without overwriting another one. A whole document with
stored keys only loses nothing. -/
theorem camel_keeps_fields_apart (maps : CaseMaps) (hmaps : maps.IsRegular) :
    (CaseMaps.unicode.IsRegular ∧ CaseMaps.unicode.camel = camelCase) ∧
    (∀ name, isPrivate name = false →
      '_' ∉ (maps.camel name).toList ∧ maps.camel (maps.camel name) = maps.camel name) ∧
    let f := Naming.ofFunction maps.camel
    ∀ (s : Schema) (root : String), s.NamesFieldsOnce f root →
      (∀ cls, s.Reaches (fun t c => s.structuredClass? t = some c) root cls →
        ∃ fs, s.fieldsOf (some f) (.named cls) = .ok fs ∧
          (∀ g ∈ fs, ∀ k ∈ fs, g ≠ k → g.wire ≠ s.storedKey cls k.name) ∧
          ∀ direction es, ∃ es',
            s.rename (some f) direction (.type (.named cls)) (.dict es) = .ok (.dict es') ∧
            s.MovesFields (s.renamer f direction) direction cls fs es es') ∧
      ∀ d, s.HoldsStoredKeys f root d → ∃ renamed,
        s.rename (some f) .toWire (.type (.named root)) d = .ok renamed ∧
          s.Keeps f root d renamed := by
  have hsettles : ∀ name, isPrivate name = false → maps.camel (maps.camel name) = maps.camel name :=
    fun name hname => CaseMaps.camel_camel hmaps (by simpa [isPrivate] using hname)
  refine ⟨⟨CaseMaps.unicode_isRegular, CaseMaps.camel_unicode⟩, fun name hname =>
    ⟨CaseMaps.underscore_notMem_camel hmaps name, hsettles name hname⟩, ?_⟩
  intro f s root hroot
  have hwell : ∀ cls, s.Reaches (fun t c => s.structuredClass? t = some c) root cls →
      ∀ fs, s.fieldsOf (some f) (.named cls) = .ok fs → s.WellNamed cls fs := by
    intro cls hreach fs hfs
    obtain ⟨fs', hfs', hstored, hwires⟩ := hroot cls hreach
    cases hfs.symm.trans hfs'
    exact wellNamed_of_settles hsettles hfs hstored hwires
  constructor
  · intro cls hreach
    obtain ⟨fs, hfs, -⟩ := hroot cls hreach
    have hw := hwell cls hreach fs hfs
    refine ⟨fs, hfs, fun g hg k hk hne heq => hne (hw.apart g hg k hk heq), ?_⟩
    exact rename_moves hroot hreach hfs hw
  · intro d hd
    obtain ⟨renamed, hrenamed⟩ := hroot.renamed .root d
    refine ⟨renamed, hrenamed, keeps_renamed hroot .root hd hrenamed ?_⟩
    intro last es hvisit fs hfs
    exact (hwell last (hvisit.reaches .root) fs hfs).undisturbed es

/-- Doubled and trailing underscores are gone, and an alias stays. -/
theorem camel_keeps_fields_apart_person :
    let person : ClassDecl TypeExpr := ⟨"Person", .model, none,
      [⟨"first_name", .basic .text, none, none, none, none⟩,
        ⟨"last_name", .basic .text, none, some "surname", none, none⟩,
        ⟨"home__town_", .basic .text, none, none, none, none⟩], [], false⟩
    let s : Schema := ⟨[person], [], [], .strict⟩
    let f : Naming := Naming.ofFunction CaseMaps.unicode.camel
    let d : Value := .object [("first_name", .str "Ada"), ("surname", .str "King"),
      ("home__town_", .str "London")]
    CaseMaps.unicode.IsRegular ∧ isPrivate "home__town_" = false ∧
      CaseMaps.unicode.camel (CaseMaps.unicode.camel "home__town_") = "homeTown" ∧
      s.NamesFieldsOnce f "Person" ∧ s.HoldsStoredKeys f "Person" d ∧
      ∃ renamed, s.rename (some f) .toWire (.type (.named "Person")) d = .ok renamed ∧
        renamed = .object [("firstName", .str "Ada"), ("surname", .str "King"),
          ("homeTown", .str "London")] ∧ s.Keeps f "Person" d renamed ∧
        ∃ es, s.rename (some f) .fromWire (.type (.named "Person")) renamed = .ok (.dict es) ∧
          .dict es = d := by
  intro person s f d
  have hregular := CaseMaps.unicode_isRegular
  obtain ⟨-, hnames, hkept⟩ := camel_keeps_fields_apart CaseMaps.unicode hregular
  have hfields : s.fieldsOf (some f) (.named "Person") =
      .ok [⟨"first_name", "firstName", .basic .text⟩, ⟨"last_name", "surname", .basic .text⟩,
        ⟨"home__town_", "homeTown", .basic .text⟩] := by
    unfold s f person
    rfl
  have hroot : s.NamesFieldsOnce f "Person" := by
    refine namesFieldsOnce_of_classNames (List.forall_mem_singleton.mpr ⟨_, hfields, ?_, ?_⟩) <;>
      decide
  have hd : s.HoldsStoredKeys f "Person" d := by
    refine forall_visits_object hfields ⟨by simp [Entries.KeysOnce], fun fs hfs => ?_⟩ ?_
    · obtain rfl := Except.ok.inj (hfields.symm.trans hfs)
      refine List.forall_mem_cons.mpr ⟨⟨_, .head _, rfl⟩, ?_⟩
      refine List.forall_mem_cons.mpr ⟨⟨_, .tail _ (.head _), rfl⟩, ?_⟩
      exact List.forall_mem_singleton.mpr ⟨_, .tail _ (.tail _ (.head _)), rfl⟩
    · -- no field holds objects
      simp only [List.forall_mem_cons]
      refine ⟨?_, ?_, ?_, List.forall_mem_nil _⟩ <;>
      · rintro v - next x hx
        cases hx.structuredClass?
  have htown : CaseMaps.unicode.camel "home__town_" = "homeTown" := by rfl
  obtain ⟨renamed, hrenamed, hkeeps⟩ := (hkept s "Person" hroot).2 d hd
  have heq : renamed = .object [("firstName", .str "Ada"), ("surname", .str "King"),
      ("homeTown", .str "London")] := Except.ok.inj (hrenamed.symm.trans (by rfl))
  obtain ⟨fs, -, -, hmoves⟩ := (hkept s "Person" hroot).1 "Person" .root
  obtain ⟨es, hback, -⟩ := hmoves .fromWire [(.str "firstName", .str "Ada"),
    (.str "surname", .str "King"), (.str "homeTown", .str "London")]
  refine ⟨hregular, by decide, ?_, hroot, hd, renamed, hrenamed, heq, hkeeps, es, heq ▸ hback, ?_⟩
  · rw [(hnames "home__town_" (by decide)).2, htown]
  · exact Except.ok.inj (hback.symm.trans (by rfl))

end Schema

end TypedSearch
