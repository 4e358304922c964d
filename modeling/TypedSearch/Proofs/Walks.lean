import TypedSearch.Proofs.Fields

/-!
# Walks along attributes

A path of attribute names is cut into the names again, and each name that leads through a class
takes one step into the type of the field.

* `Text.split_join`: a path is cut into its names.
* `IsAttributeName`: a name that can be a segment of a path.
* `Schema.step_ok_cases`: the three ways of a step.
* `Schema.step_anything`, `Schema.step_entry`, `Schema.step_field`: when each of them is taken.
* `Schema.walk_of_walkFrom`: a path is walked name by name.
-/

namespace TypedSearch

open Text

namespace Text

/-! ## Cutting what was joined -/

theorem pieces_of_notMem {sep : Char} {cs : List Char} (h : sep ∉ cs) : pieces sep cs = [cs] := by
  induction cs with
  | nil => rfl
  | cons c cs ih =>
    rw [List.mem_cons, not_or] at h
    simp [pieces, ih h.2, Ne.symm h.1]

theorem pieces_append_cons {sep : Char} {p : List Char} (h : sep ∉ p) (cs : List Char) :
    pieces sep (p ++ sep :: cs) = p :: pieces sep cs := by
  induction p with
  | nil => simp [pieces]
  | cons c p ih =>
    rw [List.mem_cons, not_or] at h
    simp [pieces, ih h.2, Ne.symm h.1]

theorem pieces_joinWith {sep : Char} {ps : List (List Char)} (hne : ps ≠ [])
    (h : ∀ p ∈ ps, sep ∉ p) : pieces sep (joinWith [sep] ps) = ps := by
  induction ps with
  | nil => exact absurd rfl hne
  | cons p ps ih =>
    rw [List.forall_mem_cons] at h
    cases ps with
    | nil => exact pieces_of_notMem h.1
    | cons q ps =>
      have hrest := ih (List.cons_ne_nil q ps) h.2
      rw [joinWith, List.append_assoc, List.singleton_append, pieces_append_cons h.1, hrest]

/-- Names without dots are what a path of them is cut into. -/
theorem split_join {names : List String} (hne : names ≠ [])
    (h : ∀ n ∈ names, '.' ∉ n.toList) : split '.' (join "." names) = names := by
  have hps : ∀ p ∈ names.map String.toList, '.' ∉ p := by
    intro p hp
    obtain ⟨n, hn, rfl⟩ := List.mem_map.mp hp
    exact h n hn
  have hdot : ".".toList = ['.'] := rfl
  unfold split join
  rw [String.toList_ofList, hdot, pieces_joinWith (by simpa using hne) hps, List.map_map]
  simp [Function.comp_def]

theorem join_ne_empty {names : List String} (hne : names ≠ []) (h : ∀ n ∈ names, n ≠ "") :
    join "." names ≠ "" := by
  intro hjoin
  have hnil : joinWith ".".toList (names.map String.toList) = [] := by
    rw [← String.toList_ofList (l := joinWith ".".toList (names.map String.toList))]
    exact congrArg String.toList hjoin
  match names with
  | [] => exact hne rfl
  | [n] => exact h n (List.mem_singleton_self n) (String.toList_eq_nil_iff.mp hnil)
  | n :: m :: names =>
    have hdot : ".".toList = ['.'] := rfl
    simp [joinWith, hdot] at hnil

end Text

/-! ## Segments that are attribute names -/

/-- The name can be a segment of a path: it is not empty, has no dot, and is no position. -/
structure IsAttributeName (name : String) : Prop where
  ne_empty : name ≠ ""
  no_dot : '.' ∉ name.toList
  no_position : isDigits name = false

namespace Schema

variable {s : Schema} {naming : Option Naming} {before : List String} {t : TypeExpr}

/-! ## Steps and walks -/

/-- A segment that names a field of the class leads to the type of the field. -/
theorem step_field {cls name wire : String} {next : TypeExpr} {hs : List (String × TypeExpr)}
    (hcore : t.core = .named cls) (hcls : s.isStructured (.named cls) = true)
    (hhints : s.hints cls = .ok hs) (hlookup : hs.lookup name = some next)
    (hwire : s.wireName naming cls name = .ok wire) (hdigits : isDigits name = false) :
    s.step naming before t name = .ok (.into next wire) := by
  have hdict : (TypeExpr.named cls).isDict = false := rfl
  simp [step, hcore, hdigits, hdict, hcls, hhints, hlookup, hwire]

/-- The type of the values of an object with arbitrary keys, where its keys are texts. -/
inductive EntryType (t : TypeExpr) : TypeExpr → Prop
  | given {v : TypeExpr} : t.dictArgs? = some (.basic .text, v) → EntryType t v
  | any : t.dictArgs? = none → EntryType t .any

/-- The three ways of a step: to anything, to a value of an object with arbitrary keys, and
through a field of a class. -/
theorem step_ok_cases {segment : String} {next : Step}
    (h : s.step naming before t segment = .ok next) : isDigits segment = false ∧
      (((t.core = .any ∨ t.core = .variable) ∧ next = .anything) ∨
        (t.core.isDict = true ∧ ∃ v, EntryType t.core v ∧ next = .into v segment) ∨
        ∃ cls hs type wire, t.core = .named cls ∧ s.isStructured (.named cls) = true ∧
          s.hints cls = .ok hs ∧ hs.lookup segment = some type ∧
          s.wireName naming cls segment = .ok wire ∧ next = .into type wire) := by
  unfold step at h
  dsimp only at h
  split at h
  · cases h
  · rename_i hdigits
    refine ⟨by simpa using hdigits, ?_⟩
    split at h
    · rename_i hcore
      cases h
      exact Or.inl ⟨Or.inl hcore, rfl⟩
    · rename_i hcore
      cases h
      exact Or.inl ⟨Or.inr hcore, rfl⟩
    · split at h
      · rename_i hdict
        refine Or.inr (Or.inl ⟨hdict, ?_⟩)
        split at h
        · rename_i v hargs
          cases h
          exact ⟨v, .given hargs, rfl⟩
        · cases h
        · rename_i hargs
          cases h
          exact ⟨.any, .any hargs, rfl⟩
      · split at h
        · cases h
        · rename_i cls hcore
          split at h
          · rename_i hs
            split at h
            · cases h
            · rename_i hints hhints
              split at h
              · cases h
              · rename_i type hlookup
                split at h
                · cases h
                · rename_i wire hwire
                  cases h
                  rw [hcore] at hs
                  exact Or.inr (Or.inr ⟨cls, hints, type, wire, hcore, hs, hhints, hlookup, hwire,
                    rfl⟩)
          · cases h
        · cases h

theorem step_anything {segment : String} (hcore : t.core = .any ∨ t.core = .variable)
    (hdigits : isDigits segment = false) : s.step naming before t segment = .ok .anything := by
  rcases hcore with hcore | hcore <;> simp [step, hcore, hdigits]

theorem step_entry {segment : String} {v : TypeExpr} (hdict : t.core.isDict = true)
    (hv : EntryType t.core v) (hdigits : isDigits segment = false) :
    s.step naming before t segment = .ok (.into v segment) := by
  unfold step
  dsimp only
  rw [if_neg (by simp [hdigits])]
  split
  · rename_i hcore
    rw [hcore] at hdict
    cases hdict
  · rename_i hcore
    rw [hcore] at hdict
    cases hdict
  · rw [if_pos hdict]
    cases hv with
    | given hargs => rw [hargs]
    | any hargs => rw [hargs]

theorem walkFrom_cons_anything {segment : String} {rest : List String}
    (h : s.step naming before t segment = .ok .anything) :
    s.walkFrom naming before t (segment :: rest) = .ok (.any, segment :: rest) := by
  rw [walkFrom, h]

theorem walkFrom_cons_into {segment wire : String} {next : TypeExpr} {rest : List String}
    (h : s.step naming before t segment = .ok (.into next wire)) :
    s.walkFrom naming before t (segment :: rest) =
      (s.walkFrom naming (before ++ [segment]) next rest).map fun r => (r.1, wire :: r.2) := by
  rw [walkFrom, h]
  dsimp only
  cases s.walkFrom naming (before ++ [segment]) next rest <;> rfl

theorem walk_eq_ok_iff {path : String} {r : TypeExpr × List String} :
    s.walk naming t path = .ok r ↔
      path ≠ "" ∧ s.walkFrom naming [] t (split '.' path) = .ok r := by
  unfold walk
  by_cases hpath : path = ""
  · simp [hpath]
  · rw [if_neg hpath]
    split <;> simp_all

/-- A path of attribute names is walked name by name. -/
theorem walk_of_walkFrom {names : List String} {r : TypeExpr × List String} (hne : names ≠ [])
    (hnames : ∀ n ∈ names, IsAttributeName n) (h : s.walkFrom naming [] t names = .ok r) :
    s.walk naming t (join "." names) = .ok r := by
  have hjoin := join_ne_empty hne fun n hn => (hnames n hn).ne_empty
  have hsplit := split_join hne fun n hn => (hnames n hn).no_dot
  rw [walk_eq_ok_iff, hsplit]
  exact ⟨hjoin, h⟩

end Schema

end TypedSearch
