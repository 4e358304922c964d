import TypedSearch.Proofs.ClauseFormation

/-!
# Clauses inside nested arrays

A condition on a member of a nested array is the condition on the same field at the root, put once
inside a scope. Two conditions on texts are put in other words there: a likeness asks for one match
at the root only, and a text that equals is matched as a phrase inside.

* `Clause.scopeAround`: the scope around a condition.
* `Clause.InnerBody`: the condition inside for the one at the root.
* `Clause.OnlyWraps`: what comes of a combination at the root and inside an array.
* `Clause.form_onlyWraps`: an operator, a value and a field are answered so.
* `Clause.build_onlyWraps`: **nesting only wraps**, whatever is given as the operator.
-/

namespace TypedSearch

namespace Clause

/-! ## Conditions at the root and inside -/

/-- The operator and the value make a membership. -/
def isMembership (op : Operator) (v : Value) : Bool :=
  match op with
  | .like | .notLike => v.asCollection?.isSome
  | _ => false

/-- A matching of words, with what else stands in it. -/
def wordsMatched (wire : String) (words : Value) (options : List (String × Value)) : Value :=
  .object [("query_string", .object ([("default_field", .str wire), ("query", words)] ++ options))]

/-- The condition inside an array for a condition at the root: the same, but for texts. A likeness
with one asks at the root that one word matches; one that equals is a phrase inside. -/
def InnerBody (wire : String) (kind : FieldKind) (op : Operator) (v body inner : Value) : Prop :=
  match op, kind, v.asText? with
  | .like, _, some _ | .notLike, _, some _ =>
    body = wordsMatched wire v [("minimum_should_match", .int 1)] ∧ inner = wordsMatched wire v []
  | .equal, .text, some s | .notEqual, .text, some s =>
    body = wordsMatched wire v [] ∧ inner = wordsMatched wire (.str (phrase s)) []
  | _, _, _ => inner = body

/-- The scope of the array at a path around a condition. A membership asks for the elements that
match; any other condition is the only one of a conjunction. -/
def scopeAround (path : String) (op : Operator) (v : Value) (hitsName : Option String)
    (inner : Value) : Value :=
  let hits := (hitsName.map fun name => ("name", Value.str name)).toList
  if isMembership op v then
    .object [("nested", .object [("path", .str path),
      ("inner_hits", .object (hits ++ [("explain", .bool true)])), ("query", inner)])]
  else
    .object [("nested", .object [("path", .str path),
      ("query", .object [("bool", .object [("must", .list [inner])])])])]

/-- What comes of an operator and a value for a field at the root, and for the same field inside the
array at a path: both are refused alike, or both give a clause, and the one inside is the one at the
root within the scope. -/
inductive OnlyWraps (wire : String) (kind : FieldKind) (path : String) (op : Operator) (v : Value) :
    Except Fault Clause → Except Fault Clause → Prop
  | refused (e : Fault) : OnlyWraps wire kind path op v (.error e) (.error e)
  | wrapped {root nested : Clause} : nested.kind = root.kind →
      (∀ hitsName, ∃ body inner, root.compile hitsName = .ok body ∧
        InnerBody wire kind op v body inner ∧
        nested.compile hitsName = .ok (scopeAround path op v hitsName inner)) →
      OnlyWraps wire kind path op v (.ok root) (.ok nested)

/-! ## Moving a clause inside -/

/-- The clause on the field inside the array at a path. -/
def within (path : String) (c : Clause) : Clause :=
  { c with field := { c.field with nested := some path } }

variable {wire path : String} {kind : FieldKind} {op : Operator} {v : Value} {c : Clause}

theorem compile_root {hitsName : Option String} (h : c.field.nested = none) :
    c.compile hitsName = c.body := by
  unfold compile
  rw [h]
  cases c.body <;> rfl

theorem body_within (path : String) (c : Clause) : (c.within path).body = c.body := by
  obtain ⟨kind, field, value, rangeWord, timeZone, rounding, minimumMatch⟩ := c
  cases kind <;> rfl

theorem compile_nested {hitsName : Option String} {inner : Value}
    (hpath : c.field.nested = some path) (hkind : c.kind.isMembership = isMembership op v)
    (hbody : c.body = .ok inner) :
    c.compile hitsName = .ok (scopeAround path op v hitsName inner) := by
  have hasks : c.requestsInnerHits = isMembership op v := by
    rw [requestsInnerHits, FieldPath.isNested, hpath, hkind]
    rfl
  unfold compile scopeAround
  rw [hbody, hpath, hasks]
  cases isMembership op v <;> rfl

/-- Two clauses of one form, one on the field at the root and one inside the array. -/
theorem onlyWraps_of_bodies {root nested : Clause} {body inner : Value}
    (hroot : root.field.nested = none) (hpath : nested.field.nested = some path)
    (hkinds : nested.kind = root.kind) (hkind : root.kind.isMembership = isMembership op v)
    (hbody : root.body = .ok body) (hinner : nested.body = .ok inner)
    (hsame : InnerBody wire kind op v body inner) :
    OnlyWraps wire kind path op v (.ok root) (.ok nested) := by
  refine .wrapped hkinds fun hitsName => ⟨body, inner, ?_, hsame, ?_⟩
  · rw [compile_root hroot, hbody]
  · exact compile_nested hpath (hkinds ▸ hkind) hinner

/-- A clause that is only moved inside, where the condition is the same there. -/
theorem onlyWraps_map {x : Except Fault Clause} (hsame : ∀ body, InnerBody wire kind op v body body)
    (hx : ∀ c, x = .ok c → c.HasBody ∧ c.field.nested = none ∧
      c.kind.isMembership = isMembership op v) :
    OnlyWraps wire kind path op v x (x.map (within path)) := by
  cases x with
  | error e => exact .refused e
  | ok c =>
    obtain ⟨⟨body, hbody⟩, hroot, hkind⟩ := hx c rfl
    have hinner : (c.within path).body = .ok body := (body_within path c).trans hbody
    exact onlyWraps_of_bodies hroot rfl rfl hkind hbody hinner (hsame body)

theorem body_matching (h : c.kind.positive = .matching) : c.body = .ok (wordsMatched c.field.wire
    c.value (c.minimumMatch.map fun n => ("minimum_should_match", Value.int n)).toList) := by
  obtain ⟨kind, field, value, rangeWord, timeZone, rounding, minimumMatch⟩ := c
  cases kind <;> cases h <;> rfl

/-! ## The three families -/

theorem ordering_within (word : String) (timeZone rounding : Value) :
    ordering ⟨wire, kind, some path⟩ word v timeZone rounding =
      (ordering ⟨wire, kind, none⟩ word v timeZone rounding).map (within path) := by
  unfold ordering
  dsimp only
  repeat' split
  · rfl
  · cases anchored _ rounding <;> rfl
  all_goals rfl

theorem ordering_root {word : String} {timeZone rounding : Value}
    (h : ordering ⟨wire, kind, none⟩ word v timeZone rounding = .ok c) :
    c.field.nested = none ∧ c.kind.isMembership = false := by
  unfold ordering at h
  dsimp only at h
  repeat' split at h
  · cases h
  · obtain ⟨text, -, rfl⟩ := map_eq_ok.mp h
    exact ⟨rfl, rfl⟩
  all_goals cases h
  all_goals exact ⟨rfl, rfl⟩

theorem ordering_onlyWraps {word : String} (hop : op.rangeWord? = some word)
    (timeZone rounding : Value) :
    OnlyWraps wire kind path op v (ordering ⟨wire, kind, none⟩ word v timeZone rounding)
      (ordering ⟨wire, kind, some path⟩ word v timeZone rounding) := by
  have hmembership : isMembership op v = false := by
    cases op <;> cases hop <;> rfl
  rw [ordering_within]
  refine onlyWraps_map ?_ ?_
  · intro body
    cases op <;> cases hop <;> rfl
  · intro c hc
    obtain ⟨hroot, hkind⟩ := ordering_root hc
    exact ⟨ordering_hasBody hc, hroot, hkind.trans hmembership.symm⟩

theorem equality_within {negated : Bool} (h : ¬(kind = .text ∧ v.asText?.isSome)) :
    equality ⟨wire, kind, some path⟩ negated v =
      (equality ⟨wire, kind, none⟩ negated v).map (within path) := by
  unfold equality
  split
  · rfl
  · split
    · rfl
    · split
      · rename_i s hkind htext
        exact absurd ⟨hkind, by rw [htext]; rfl⟩ h
      · cases scalar v <;> rfl

theorem equality_root {negated : Bool} (h : equality ⟨wire, kind, none⟩ negated v = .ok c) :
    c.field.nested = none ∧ c.kind.isMembership = false := by
  unfold equality at h
  split at h
  · cases h
  · split at h
    · cases h
    · split at h
      · cases h
        cases negated <;> exact ⟨rfl, rfl⟩
      · obtain ⟨w, -, rfl⟩ := map_eq_ok.mp h
        cases negated <;> exact ⟨rfl, rfl⟩

theorem equality_text {field : FieldPath} {s : String} (negated : Bool) (h : v.asText? = some s)
    (hkind : field.kind = .text) : equality field negated v =
      .ok (plain (if negated then .matchingNot else .matching) field
        (if field.isNested then .str (phrase s) else v)) := by
  obtain ⟨wire, kind, nested⟩ := field
  subst hkind
  rcases Value.asText?_eq_some h with rfl | ⟨enumeration, name, rfl⟩ <;> rfl

theorem equality_onlyWraps {negated : Bool} (hop : op = if negated then .notEqual else .equal) :
    OnlyWraps wire kind path op v (equality ⟨wire, kind, none⟩ negated v)
      (equality ⟨wire, kind, some path⟩ negated v) := by
  have hmembership : isMembership op v = false := by
    subst hop
    cases negated <;> rfl
  by_cases hword : kind = .text ∧ v.asText?.isSome
  · obtain ⟨rfl, hsome⟩ := hword
    obtain ⟨s, htext⟩ := Option.isSome_iff_exists.mp hsome
    have hsame : InnerBody wire .text op v (wordsMatched wire v [])
        (wordsMatched wire (.str (phrase s)) []) := by
      subst hop
      cases negated <;> simp [InnerBody, htext]
    rw [equality_text negated htext rfl, equality_text negated htext rfl]
    refine onlyWraps_of_bodies rfl rfl rfl ?_ (body_matching ?_) (body_matching ?_) hsame
    · rw [hmembership]
      cases negated <;> rfl
    · cases negated <;> rfl
    · cases negated <;> rfl
  · rw [equality_within hword]
    refine onlyWraps_map ?_ ?_
    · intro body
      subst hop
      cases htext : v.asText? with
      | none => cases negated <;> simp [InnerBody, htext]
      | some s =>
        have hkind : kind ≠ .text := fun hkind => hword ⟨hkind, by rw [htext]; rfl⟩
        cases kind with
        | text => exact absurd rfl hkind
        | _ => cases negated <;> simp [InnerBody, htext]
    · intro c hc
      obtain ⟨hroot, hkind⟩ := equality_root hc
      exact ⟨equality_hasBody hc, hroot, hkind.trans hmembership.symm⟩

theorem likeness_within {negated : Bool} (h : v.asText? = none) :
    likeness ⟨wire, kind, some path⟩ negated v =
      (likeness ⟨wire, kind, none⟩ negated v).map (within path) := by
  unfold likeness
  rw [h]
  cases v.asCollection? with
  | none => rfl
  | some xs => dsimp only; cases scalars xs <;> rfl

theorem likeness_root {negated : Bool} (h : likeness ⟨wire, kind, none⟩ negated v = .ok c)
    (htext : v.asText? = none) :
    c.field.nested = none ∧ c.kind.isMembership = v.asCollection?.isSome := by
  unfold likeness at h
  rw [htext] at h
  cases hcollection : v.asCollection? with
  | none =>
    rw [hcollection] at h
    cases h
  | some xs =>
    rw [hcollection] at h
    obtain ⟨ys, -, rfl⟩ := map_eq_ok.mp h
    cases negated <;> exact ⟨rfl, rfl⟩

theorem likeness_onlyWraps {negated : Bool} (hop : op = if negated then .notLike else .like) :
    OnlyWraps wire kind path op v (likeness ⟨wire, kind, none⟩ negated v)
      (likeness ⟨wire, kind, some path⟩ negated v) := by
  have hmembership : isMembership op v = v.asCollection?.isSome := by
    subst hop
    cases negated <;> rfl
  cases htext : v.asText? with
  | some s =>
    have hcollection : v.asCollection? = none := by
      rcases Value.asText?_eq_some htext with rfl | ⟨enumeration, name, rfl⟩ <;> rfl
    have hsame : InnerBody wire kind op v
        (wordsMatched wire v [("minimum_should_match", .int 1)]) (wordsMatched wire v []) := by
      subst hop
      cases negated <;> simp [InnerBody, htext]
    unfold likeness
    rw [htext]
    refine onlyWraps_of_bodies rfl rfl rfl ?_ (body_matching ?_) (body_matching ?_) hsame
    · rw [hmembership, hcollection]
      cases negated <;> rfl
    · cases negated <;> rfl
    · cases negated <;> rfl
  | none =>
    rw [likeness_within htext]
    refine onlyWraps_map ?_ ?_
    · intro body
      subst hop
      cases negated <;> simp [InnerBody, htext]
    · intro c hc
      obtain ⟨hroot, hkind⟩ := likeness_root hc htext
      exact ⟨likeness_hasBody hc, hroot, hkind.trans hmembership.symm⟩

/-! ## All operators -/

theorem form_onlyWraps (wire : String) (kind : FieldKind) (path : String) (op : Operator)
    (v timeZone rounding : Value) :
    OnlyWraps wire kind path op v (form ⟨wire, kind, none⟩ op v timeZone rounding)
      (form ⟨wire, kind, some path⟩ op v timeZone rounding) := by
  unfold form
  split
  · cases op with
    | equal | notEqual => exact equality_onlyWraps rfl
    | like | notLike => exact likeness_onlyWraps rfl
    | greater | greaterOrEqual | less | lessOrEqual =>
      exact ordering_onlyWraps rfl timeZone rounding
  · exact .refused _

/-- **Nesting only wraps.** A field at the root and the same field inside the array at a path: with
any value, an operator is refused for both, with the same fault, or gives both a clause, and the one
inside is the one at the root within the scope. What is given in place of an operator is read as
one for both, and leaves the same line, or is refused for both. -/
theorem build_onlyWraps (wire : String) (kind : FieldKind) (path : String)
    (v timeZone rounding : Value) :
    (∀ op, OnlyWraps wire kind path op v (form ⟨wire, kind, none⟩ op v timeZone rounding)
      (form ⟨wire, kind, some path⟩ op v timeZone rounding)) ∧
    ∀ operator : OperatorArgument,
      let root := (build ⟨wire, kind, none⟩ operator v timeZone rounding).outcome
      let nested := (build ⟨wire, kind, some path⟩ operator v timeZone rounding).outcome
      nested.2 = root.2 ∧
      match operator.read with
      | .ok op => OnlyWraps wire kind path op v root.1 nested.1
      | .error e => nested.1 = root.1 ∧ root.1 = .error e := by
  refine ⟨fun op => form_onlyWraps wire kind path op v timeZone rounding, fun operator => ?_⟩
  rw [build_outcome, build_outcome]
  cases operator.read with
  | error e => exact ⟨rfl, rfl, rfl⟩
  | ok op => exact ⟨rfl, form_onlyWraps wire kind path op v timeZone rounding⟩

end Clause

end TypedSearch
