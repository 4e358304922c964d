import TypedSearch.Field.Resolver
import TypedSearch.Proofs.Results
import TypedSearch.Proofs.Walks

/-!
# Fields below a nested array

A field that is scoped by a nested array can be given from the root or from the element. Given
from the element it is walked from the element's class: the walk to the array passes through every
optional, marker and layer of arrays into that class, and behind it only messages remember where
the walk began.

* `Text.split_member`, `Text.join_append`: paths behind each other.
* `Schema.walkFrom_append`: a walk along two rows of segments.
* `Schema.walkFrom_placeless`: what a walk does hangs on the core of the type.
* `Schema.walk_member`: a path below an array against the path from the element's class.
* `Resolver.resolve_member`: a field below an array is resolved in the class of the elements.
-/

namespace TypedSearch

open Text

namespace Text

/-! ## Paths behind each other -/

theorem pieces_append_sep (sep : Char) (cs ds : List Char) :
    pieces sep (cs ++ sep :: ds) = pieces sep cs ++ pieces sep ds := by
  induction cs with
  | nil => simp [pieces]
  | cons c cs ih =>
    by_cases hc : c = sep
    · simp [pieces, hc, ih]
    · obtain ⟨p, ps, hp⟩ := List.exists_cons_of_ne_nil (pieces_ne_nil sep cs)
      simp [pieces, hc, ih, hp]

/-- The segments of a path below another path. -/
theorem split_member (path member : String) :
    split '.' (path ++ "." ++ member) = split '.' path ++ split '.' member := by
  have hchars : (path ++ "." ++ member).toList = path.toList ++ '.' :: member.toList := by
    simp
  unfold split
  rw [hchars, pieces_append_sep, List.map_append]

theorem split_ne_nil (path : String) : split '.' path ≠ [] := by
  unfold split
  simpa using pieces_ne_nil '.' path.toList

theorem joinWith_append {glue : List Char} {ps qs : List (List Char)} (hp : ps ≠ [])
    (hq : qs ≠ []) : joinWith glue (ps ++ qs) = joinWith glue ps ++ glue ++ joinWith glue qs := by
  induction ps with
  | nil => exact absurd rfl hp
  | cons p ps ih =>
    cases ps with
    | nil =>
      obtain ⟨q, qs, rfl⟩ := List.exists_cons_of_ne_nil hq
      rfl
    | cons p' ps =>
      have hrest := ih (List.cons_ne_nil p' ps)
      simp only [List.cons_append, joinWith] at hrest ⊢
      rw [hrest]
      simp [List.append_assoc]

/-- Joined names behind each other. -/
theorem join_append {names more : List String} (hn : names ≠ []) (hm : more ≠ []) :
    join "." (names ++ more) = join "." names ++ "." ++ join "." more := by
  unfold join
  rw [List.map_append, joinWith_append (by simpa using hn) (by simpa using hm)]
  simp [String.append_assoc]

end Text

namespace Schema

variable {s : Schema} {naming : Option Naming} {before : List String} {t u : TypeExpr}

/-! ## Walks behind each other -/

/-- A step or a walk where a fault about a path says no longer which. -/
def placeless {α : Type} (x : Except (PathFault ⊕ Fault) α) : Except (Option Fault) α :=
  x.mapError fun
    | .inl _ => none
    | .inr e => some e

/-- What a step does hangs on the core of the type; what stands before it is for messages. -/
theorem step_placeless (hcore : t.core = u.core) (before others : List String) (segment : String) :
    placeless (s.step naming before t segment) = placeless (s.step naming others u segment) := by
  unfold step
  rw [hcore]
  dsimp only
  repeat' split
  all_goals rfl

theorem placeless_map {α β : Type} (x : Except (PathFault ⊕ Fault) α) (f : α → β) :
    placeless (x.map f) = (placeless x).map f := by
  cases x <;> rfl

/-- A first step from types with one core is followed by the same walk. -/
theorem walkFrom_cons_placeless (hcore : t.core = u.core) {others : List String}
    {segment : String} {rest : List String}
    (hrest : ∀ next, placeless (s.walkFrom naming (before ++ [segment]) next rest) =
      placeless (s.walkFrom naming (others ++ [segment]) next rest)) :
    placeless (s.walkFrom naming before t (segment :: rest)) =
      placeless (s.walkFrom naming others u (segment :: rest)) := by
  have hstep : placeless (s.step naming before t segment) =
      placeless (s.step naming others u segment) := step_placeless hcore before others segment
  cases ht : s.step naming before t segment with
  | error e =>
    rw [ht] at hstep
    cases hu : s.step naming others u segment with
    | error e' =>
      rw [hu] at hstep
      rw [walkFrom, walkFrom, ht, hu]
      exact congrArg Except.error (Except.error.inj hstep)
    | ok next =>
      rw [hu] at hstep
      cases hstep
  | ok next =>
    have hu : s.step naming others u segment = .ok next := by
      rw [ht] at hstep
      cases hu : s.step naming others u segment with
      | error e => rw [hu] at hstep; cases hstep
      | ok next' => rw [hu] at hstep; cases hstep; rfl
    cases next with
    | anything => rw [walkFrom_cons_anything ht, walkFrom_cons_anything hu]
    | into next wire =>
      rw [walkFrom_cons_into ht, walkFrom_cons_into hu, placeless_map, placeless_map, hrest next]

theorem walkFrom_placeless (t : TypeExpr) (before others segments : List String) :
    placeless (s.walkFrom naming before t segments) =
      placeless (s.walkFrom naming others t segments) := by
  induction segments generalizing before others t with
  | nil => rfl
  | cons segment rest ih => exact walkFrom_cons_placeless rfl fun next => ih next _ _

/-- What a walk does hangs on the core of the type where it starts. -/
theorem walkFrom_placeless_of_core (hcore : t.core = u.core) (before others : List String)
    {segments : List String} (hne : segments ≠ []) :
    placeless (s.walkFrom naming before t segments) =
      placeless (s.walkFrom naming others u segments) := by
  obtain ⟨segment, rest, rfl⟩ := List.exists_cons_of_ne_nil hne
  exact walkFrom_cons_placeless hcore fun next => walkFrom_placeless next _ _ rest

/-- A walk along two rows of segments goes on where the first one ends. -/
theorem walkFrom_append {segments wires : List String}
    (h : s.walkFrom naming before t segments = .ok (u, wires)) (hu : u ≠ .any)
    (rest : List String) :
    s.walkFrom naming before t (segments ++ rest) =
      (s.walkFrom naming (before ++ segments) u rest).map fun r => (r.1, wires ++ r.2) := by
  induction segments generalizing before t wires with
  | nil =>
    cases h
    rw [List.nil_append, List.append_nil]
    cases s.walkFrom naming before u rest <;> rfl
  | cons segment segments ih =>
    cases hstep : s.step naming before t segment with
    | error e =>
      rw [walkFrom, hstep] at h
      cases h
    | ok next =>
      cases next with
      | anything =>
        rw [walkFrom_cons_anything hstep] at h
        cases h
        exact absurd rfl hu
      | into next wire =>
        rw [walkFrom_cons_into hstep] at h
        obtain ⟨⟨last, wires'⟩, hrest, heq⟩ := map_eq_ok.mp h
        obtain ⟨rfl, rfl⟩ := Prod.mk.inj heq
        rw [List.cons_append, walkFrom_cons_into hstep, ih hrest, List.append_assoc,
          List.singleton_append]
        cases s.walkFrom naming (before ++ segment :: segments) last rest <;> rfl

/-- A walk gives one name for each segment. -/
theorem walkFrom_length {segments : List String} {r : TypeExpr × List String}
    (h : s.walkFrom naming before t segments = .ok r) : r.2.length = segments.length := by
  induction segments generalizing before t r with
  | nil =>
    cases h
    rfl
  | cons segment rest ih =>
    cases hstep : s.step naming before t segment with
    | error e =>
      rw [walkFrom, hstep] at h
      cases h
    | ok next =>
      cases next with
      | anything =>
        rw [walkFrom_cons_anything hstep] at h
        cases h
        rfl
      | into next wire =>
        rw [walkFrom_cons_into hstep] at h
        obtain ⟨r', hrest, rfl⟩ := map_eq_ok.mp h
        rw [List.length_cons, List.length_cons, ih hrest]

theorem wires_ne_nil {segments : List String} (hne : segments ≠ [])
    {r : TypeExpr × List String} (h : s.walkFrom naming before t segments = .ok r) : r.2 ≠ [] := by
  intro hnil
  have hlength := walkFrom_length h
  rw [hnil, List.length_nil] at hlength
  exact hne (List.eq_nil_of_length_eq_zero hlength.symm)

end Schema

/-! ## Failing alike -/

/-- If the first succeeds, so does the second, with what `f` makes of it; if it fails, the second
fails with a fault of the same kind. -/
def Follows {α β : Type} (f : α → β) (x : Except Fault α) (y : Except Fault β) : Prop :=
  match x with
  | .ok a => y = .ok (f a)
  | .error e => ∃ e', y = .error e' ∧ e'.kind = e.kind

theorem Follows.map {α β γ δ : Type} {f : α → β} {x : Except Fault α} {y : Except Fault β}
    (h : Follows f x y) {g : α → γ} {k : β → δ} {f' : γ → δ}
    (hf : ∀ a, x = .ok a → k (f a) = f' (g a)) :
    Follows f' (x.map g) (y.map k) := by
  cases x with
  | ok a =>
    have hy : y = .ok (f a) := h
    rw [hy]
    exact congrArg Except.ok (hf a rfl)
  | error e =>
    obtain ⟨e', rfl, hkind⟩ := h
    exact ⟨e', rfl, hkind⟩

namespace Schema

variable {s : Schema} {naming : Option Naming} {t model : TypeExpr}

/-- Behind the type that a path leads to a walk goes on as from the class at its core. -/
theorem walk_member {path member cls : String} {wires : List String}
    (hpath : s.walk naming model path = .ok (t, wires)) (hcore : t.core = .named cls)
    (hmember : member ≠ "") :
    Follows (fun r => (r.1, wires ++ r.2)) (s.walk naming (.named cls) member)
      (s.walk naming model (path ++ "." ++ member)) := by
  have hne : t ≠ .any := by
    rintro rfl
    cases hcore
  have hwhole : path ++ "." ++ member ≠ "" := by
    intro h
    have hchars := congrArg String.toList h
    simp at hchars
  have hrest : placeless (s.walkFrom naming (split '.' path) t (split '.' member)) =
      placeless (s.walkFrom naming [] (.named cls) (split '.' member)) :=
    walkFrom_placeless_of_core hcore (split '.' path) [] (split_ne_nil member)
  obtain ⟨-, hfirst⟩ := walk_eq_ok_iff.mp hpath
  have hall := walkFrom_append hfirst hne (split '.' member)
  rw [List.nil_append] at hall
  unfold walk
  rw [if_neg hmember, if_neg hwhole, split_member, hall]
  cases hx : s.walkFrom naming [] (.named cls) (split '.' member) with
  | ok r =>
    rw [hx] at hrest
    cases hy : s.walkFrom naming (split '.' path) t (split '.' member) with
    | ok r' => rw [hy] at hrest; cases hrest; rfl
    | error e => rw [hy] at hrest; cases hrest
  | error e =>
    rw [hx] at hrest
    cases hy : s.walkFrom naming (split '.' path) t (split '.' member) with
    | ok r' => rw [hy] at hrest; cases hrest
    | error e' =>
      rw [hy] at hrest
      have hplace := Except.error.inj hrest
      cases e with
      | inl fault =>
        cases e' with
        | inl fault' => exact ⟨_, rfl, rfl⟩
        | inr e' => cases hplace
      | inr e =>
        cases e' with
        | inl fault' => cases hplace
        | inr e' =>
          cases hplace
          refine ⟨_, rfl, ?_⟩
          split <;> rfl

/-- The class of the elements of the array that a path leads to. -/
def elementClass? (s : Schema) (naming : Option Naming) (model : TypeExpr) (path : String) :
    Option String := (s.typeAt naming model path).toOption.bind s.structuredClass?

/-- A nested array is reached by a walk, and has a class of elements. -/
theorem walk_of_isNestedArray {path : String} (h : s.isNestedArray naming model path = .ok true) :
    ∃ t wires, s.walk naming model path = .ok (t, wires) ∧ s.classify t = .nested := by
  obtain ⟨kind, hkind, hnested⟩ := map_eq_ok.mp h
  obtain ⟨t, htype, rfl⟩ := map_eq_ok.mp hkind
  obtain ⟨⟨t, wires⟩, hwalk, rfl⟩ := map_eq_ok.mp htype
  exact ⟨t, wires, hwalk, by simpa using hnested⟩

theorem structuredClass?_isSome (h : s.classify t = .nested) : (s.structuredClass? t).isSome := by
  cases hi : t.stripped.item? with
  | none =>
    rw [classify_of_item?_none hi] at h
    exact absurd h kindOf_ne_nested
  | some item =>
    rw [classify_of_item? hi] at h
    split at h
    · rename_i hs
      obtain ⟨cls, hcls⟩ := isStructured_eq_true hs
      rw [Option.isSome_iff_exists]
      refine ⟨cls, structuredClass?_eq_some_iff.mpr ⟨?_, hcls ▸ hs⟩⟩
      rw [TypeExpr.holder_of_item? hi, hcls]
    · exact absurd h kindOf_ne_nested

end Schema

/-! ## Descriptors -/

/-- The text is names with dots between them. -/
def IsMemberChain (path : String) : Prop := (pieces '.' path.toList).all isName = true

theorem isChain_of_descriptorPath {v : Value} {path : String} (h : descriptorPath v = .ok path) :
    isChain path = true := by
  have of_checked : ∀ {text : String}, checkedChain text = .ok path → isChain path = true := by
    intro text hc
    unfold checkedChain at hc
    split at hc
    · rename_i hchain
      cases hc
      exact hchain
    · cases hc
  unfold descriptorPath at h
  split at h
  · exact of_checked h
  · split at h
    · exact of_checked h
    · cases h

theorem ne_empty_of_isChain {path : String} (h : isChain path = true) : path ≠ "" := by
  rintro rfl
  cases h

/-- Names below names. -/
theorem IsMemberChain.member {path member : String} (hpath : IsMemberChain path)
    (hmember : IsMemberChain member) : IsMemberChain (path ++ "." ++ member) := by
  have hchars : (path ++ "." ++ member).toList = path.toList ++ '.' :: member.toList := by
    simp
  unfold IsMemberChain
  rw [hchars, pieces_append_sep, List.all_append, hpath, hmember]
  rfl

theorem mem_joinWith {glue : List Char} {ps : List (List Char)} {c : Char}
    (h : c ∈ joinWith glue ps) : c ∈ glue ∨ ∃ p ∈ ps, c ∈ p := by
  induction ps with
  | nil => cases h
  | cons p ps ih =>
    cases ps with
    | nil => exact .inr ⟨p, List.mem_cons_self, h⟩
    | cons q ps =>
      rw [joinWith, List.mem_append, List.mem_append] at h
      rcases h with (hp | hglue) | hrest
      · exact .inr ⟨p, List.mem_cons_self, hp⟩
      · exact .inl hglue
      · rcases ih hrest with hglue | ⟨p', hp', hc⟩
        · exact .inl hglue
        · exact .inr ⟨p', List.mem_cons_of_mem _ hp', hc⟩

theorem isNamePart_of_isName {cs : List Char} (h : isName cs = true) :
    ∀ c ∈ cs, isNamePart c = true := by
  cases cs with
  | nil => cases h
  | cons d cs =>
    unfold isName at h
    rw [Bool.and_eq_true, List.all_eq_true] at h
    refine List.forall_mem_cons.mpr ⟨?_, h.2⟩
    unfold isNamePart
    rw [h.1, Bool.true_or]

theorem toNat_of_isNameStart {c : Char} (h : isNameStart c = true) :
    65 ≤ c.toNat ∧ c.toNat ≤ 122 := by
  unfold isNameStart Char.isAlpha Char.isUpper Char.isLower at h
  simp only [Bool.or_eq_true, Bool.and_eq_true, decide_eq_true_eq, ge_iff_le,
    UInt32.le_iff_toNat_le] at h
  rcases h with (h | h) | rfl
  · exact ⟨Nat.le_trans (by decide) h.1, Nat.le_trans h.2 (by decide)⟩
  · exact ⟨Nat.le_trans (by decide) h.1, Nat.le_trans h.2 (by decide)⟩
  · decide

theorem isBlank_of_isNamePart {c : Char} (h : isNamePart c = true) : isBlank c = false := by
  have hrange : 48 ≤ c.toNat ∧ c.toNat ≤ 122 := by
    rcases (Bool.or_eq_true _ _).mp h with hstart | hdigit
    · obtain ⟨hlow, hhigh⟩ := toNat_of_isNameStart hstart
      exact ⟨Nat.le_trans (by decide) hlow, hhigh⟩
    · unfold Char.isDigit at hdigit
      simp only [Bool.and_eq_true, decide_eq_true_eq, ge_iff_le, UInt32.le_iff_toNat_le] at hdigit
      exact ⟨Nat.le_trans (by decide) hdigit.1, Nat.le_trans hdigit.2 (by decide)⟩
  unfold isBlank blankRanges
  simp only [List.any_cons, List.any_nil, Bool.or_eq_false_iff, Bool.and_eq_false_iff,
    decide_eq_false_iff_not, and_true]
  omega

/-- Names with dots between them have no blanks. -/
theorem IsMemberChain.not_isBlank {path : String} (h : IsMemberChain path) :
    ∀ c ∈ path.toList, isBlank c = false := by
  intro c hc
  rw [← joinWith_pieces '.' path.toList] at hc
  rcases mem_joinWith hc with hdot | ⟨p, hp, hcp⟩
  · rw [List.mem_singleton] at hdot
    subst hdot
    rfl
  · exact isBlank_of_isNamePart (isNamePart_of_isName (List.all_eq_true.mp h p hp) c hcp)

theorem trimWhere_of_forall {blank : Char → Bool} {cs : List Char}
    (h : ∀ c ∈ cs, blank c = false) : trimWhere blank cs = cs := by
  have hkeep : ∀ ds : List Char, (∀ d ∈ ds, blank d = false) → ds.dropWhile blank = ds := by
    intro ds hds
    cases ds with
    | nil => rfl
    | cons d ds => rw [List.dropWhile_cons, hds d List.mem_cons_self]; rfl
  unfold trimWhere
  rw [hkeep cs h, hkeep cs.reverse (by simpa using h), List.reverse_reverse]

theorem dropLineEnd_of_forall {cs : List Char} (h : ∀ c ∈ cs, isBlank c = false) :
    dropLineEnd cs = cs := by
  induction cs with
  | nil => rfl
  | cons c cs ih =>
    rw [List.forall_mem_cons] at h
    cases cs with
    | nil =>
      refine if_neg ?_
      rintro rfl
      cases h.1
    | cons d cs => exact congrArg (c :: ·) (ih h.2)

theorem IsMemberChain.isChain_eq_true {path : String} (h : IsMemberChain path) :
    isChain path = true := by
  unfold isChain
  rw [dropLineEnd_of_forall h.not_isBlank]
  exact h

/-- A text of names with dots between them denotes itself. -/
theorem descriptorPath_str {path : String} (h : IsMemberChain path) :
    descriptorPath (.str path) = .ok path := by
  have htrim : trim path = path := by
    unfold trim
    rw [trimWhere_of_forall h.not_isBlank, String.ofList_toList]
  change checkedChain (trim path) = .ok path
  rw [htrim]
  exact if_pos h.isChain_eq_true

namespace Resolver

variable {s : Schema} {naming : Option Naming} {t model : TypeExpr}

/-- A field without a scope, in a model. -/
theorem resolve_unscoped {field : Value} {path : String} (h : descriptorPath field = .ok path) :
    resolve ⟨s, naming, some model⟩ field none =
      (s.walk naming model path).map fun r => ⟨join "." r.2, s.classify r.1, none⟩ := by
  unfold resolve
  rw [h]
  change ((s.walk naming model path).map _ >>= fun wire => ((s.walk naming model path).map _).map _
    >>= fun kind => pure _) = _
  cases s.walk naming model path <;> rfl

/-- A field in the scope of a nested array, in a model. -/
theorem resolve_scoped {field scope : Value} {path member : String} {wires : List String}
    (hscope : descriptorPath scope = .ok path) (hfield : descriptorPath field = .ok member)
    (hne : member ≠ path) (hnested : s.isNestedArray naming model path = .ok true)
    (hwalk : s.walk naming model path = .ok (t, wires)) :
    resolve ⟨s, naming, some model⟩ field (some scope) =
      (s.walk naming model (underAncestor path member)).map fun r =>
        ⟨join "." r.2, s.classify r.1, some (join "." wires)⟩ := by
  have hcheck : checkScope ⟨s, naming, some model⟩ path = .ok () := by
    unfold checkScope
    dsimp only
    rw [hnested]
  unfold resolve
  rw [hfield]
  dsimp only [bind, Except.bind]
  rw [hscope]
  dsimp only
  rw [if_neg hne, hcheck]
  unfold wire kind
  dsimp only
  unfold Schema.wirePath Schema.kindAt Schema.typeAt
  rw [hwalk]
  cases s.walk naming model (underAncestor path member) <;> rfl

theorem startsWith_member (path member : String) :
    startsWith (path ++ ".") (path ++ "." ++ member) = true := by
  unfold startsWith
  rw [List.isPrefixOf_iff_prefix]
  simp

theorem underAncestor_member (path member : String) :
    underAncestor path (path ++ "." ++ member) = path ++ "." ++ member :=
  if_pos (startsWith_member path member)

/-- **A field below a nested array is resolved in the class of the elements.** Given relative to
the array, a field is found just when it is found in the class, with its kind there and its name
there behind the name of the array; otherwise both fail with a fault of the same kind. Given from
the root it is the same field. -/
theorem resolve_member {path member cls : String} {scope field : Value}
    (hscope : descriptorPath scope = .ok path)
    (hnested : s.isNestedArray naming model path = .ok true)
    (hcls : s.elementClass? naming model path = some cls)
    (hfield : descriptorPath field = .ok member) (hne : member ≠ path)
    (hapart : startsWith (path ++ ".") member = false) :
    ∃ wire, s.wirePath naming model path = .ok wire ∧
      Follows (fun f => ⟨wire ++ "." ++ f.wire, f.kind, some wire⟩)
        (resolve ⟨s, naming, some (.named cls)⟩ field none)
        (resolve ⟨s, naming, some model⟩ field (some scope)) ∧
      (∀ whole, descriptorPath whole = .ok (path ++ "." ++ member) →
        resolve ⟨s, naming, some model⟩ whole (some scope) =
          resolve ⟨s, naming, some model⟩ field (some scope)) ∧
      (IsMemberChain path → IsMemberChain member →
        descriptorPath (.str (path ++ "." ++ member)) = .ok (path ++ "." ++ member)) := by
  obtain ⟨t, wires, hwalk, -⟩ := Schema.walk_of_isNestedArray hnested
  have hcore : t.core = .named cls := by
    unfold Schema.elementClass? Schema.typeAt at hcls
    rw [hwalk] at hcls
    exact Schema.structuredClass?_core hcls
  have hmember := ne_empty_of_isChain (isChain_of_descriptorPath hfield)
  have hunder : underAncestor path member = path ++ "." ++ member := if_neg (by simp [hapart])
  have hscoped := resolve_scoped hscope hfield hne hnested hwalk
  rw [hunder] at hscoped
  refine ⟨join "." wires, ?_, ?_, ?_, fun hp hm => descriptorPath_str (hp.member hm)⟩
  · unfold Schema.wirePath
    rw [hwalk]
    rfl
  · rw [hscoped, resolve_unscoped hfield]
    refine (Schema.walk_member hwalk hcore hmember).map fun r hr => ?_
    have hwires : wires ≠ [] :=
      Schema.wires_ne_nil (split_ne_nil path) (Schema.walk_eq_ok_iff.mp hwalk).2
    have hrest : r.2 ≠ [] :=
      Schema.wires_ne_nil (split_ne_nil member) (Schema.walk_eq_ok_iff.mp hr).2
    simp only [join_append hwires hrest]
  · intro whole hwhole
    have hother : path ++ "." ++ member ≠ path := by
      intro heq
      have hlength := congrArg (fun p => p.toList.length) heq
      simp at hlength
    rw [hscoped, resolve_scoped hscope hwhole hother hnested hwalk, underAncestor_member]

/-- An array behind an alias, an optional and a marker; the field is behind another class. -/
theorem resolve_member_wrapped :
    let label : ClassDecl TypeExpr :=
      ⟨"Label", .record, none, [⟨"full_text", .basic .text, none, none, none, none⟩], [], false⟩
    let row : ClassDecl TypeExpr := ⟨"Row", .model, none,
      [⟨"first_label", .named "Label", none, none, none, none⟩], [], false⟩
    let order : ClassDecl TypeExpr := ⟨"Order", .model, none, [⟨"all_rows",
      .union [.apply .list [.annotated (.named "Row") []], .null], none, some "lines", none,
        none⟩], [], false⟩
    let s : Schema := ⟨[order, row, label], [], [], .strict⟩
    let r : Resolver := ⟨s, some (.ofFunction fun name => "d_" ++ name), some (.named "Order")⟩
    r.resolve (.str "first_label.full_text") (some (.str "all_rows")) =
        .ok ⟨"lines.d_first_label.d_full_text", .keyword, some "lines"⟩ ∧
      r.resolve (.str "all_rows.first_label.full_text") (some (.str "all_rows")) =
        .ok ⟨"lines.d_first_label.d_full_text", .keyword, some "lines"⟩ := by
  intro label row order s r
  have hscope : descriptorPath (.str "all_rows") = .ok "all_rows" := rfl
  have hfield : descriptorPath (.str "first_label.full_text") = .ok "first_label.full_text" := rfl
  have hwhole : descriptorPath (.str "all_rows.first_label.full_text") =
      .ok ("all_rows" ++ "." ++ "first_label.full_text") := rfl
  have hwalk : s.walk r.naming (.named "Order") "all_rows" =
      .ok (.union [.apply .list [.annotated (.named "Row") []], .null], ["lines"]) := rfl
  have hnested : s.isNestedArray r.naming (.named "Order") "all_rows" = .ok true := by
    unfold Schema.isNestedArray Schema.kindAt Schema.typeAt
    rw [hwalk]
    rfl
  have hcls : s.elementClass? r.naming (.named "Order") "all_rows" = some "Row" := by
    unfold Schema.elementClass? Schema.typeAt
    rw [hwalk]
    rfl
  have hmember : s.walk r.naming (.named "Row") "first_label.full_text" =
      .ok (.basic .text, ["d_first_label", "d_full_text"]) := rfl
  have hinner : resolve ⟨s, r.naming, some (.named "Row")⟩ (.str "first_label.full_text") none =
      .ok ⟨"d_first_label.d_full_text", .keyword, none⟩ := by
    rw [resolve_unscoped hfield, hmember]
    rfl
  obtain ⟨wire, hwire, hfollows, hroot, -⟩ :=
    resolve_member hscope hnested hcls hfield (by decide) (by decide)
  have hlines : s.wirePath r.naming (.named "Order") "all_rows" = .ok "lines" := by
    unfold Schema.wirePath
    rw [hwalk]
    rfl
  rw [hlines] at hwire
  cases hwire
  rw [hinner] at hfollows
  exact ⟨hfollows, (hroot _ hwhole).trans hfollows⟩

end Resolver

end TypedSearch
