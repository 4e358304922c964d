import Mathlib.Data.List.Forall2
import TypedSearch.Proofs.Results
import TypedSearch.Query.Draft

/-!
# Drafts and the calls that made them

A draft is the fold of its accepted calls: a refused call leaves no trace. What is compiled from
the draft can be read off the accepted calls alone. An accepted call succeeds if the line about its
change can be written, and fails otherwise, with its change made.

* `QueryDraft.accepted`, `QueryDraft.succeeded`: the calls of a row that are accepted, and those
  that succeed.
* `DraftCall.clause?`, `DraftCall.isRequiring`: the clause that a call makes, and its side.
* `SearchRequest.Reflects`: a request holds what a row of accepted calls asks for.
* `QueryDraft.run_extends`: what a row of calls does to a draft.
* `QueryDraft.build_run_reflects`: **the request of a draft reflects the accepted calls**, and there
  is one unless a clause that was handed over has no body or the request cannot be shown.
-/

namespace TypedSearch

/-! ## Accepted calls -/

namespace QueryDraft

/-- The calls of a row that are accepted, each in the draft that the calls before it leave: they
pass their checks, and their changes are made. -/
def accepted (set : QuerySettings) : QueryDraft → List DraftCall → List DraftCall
  | _, [] => []
  | d, call :: calls =>
    match d.check set call with
    | .ok change => call :: accepted set (d.make change) calls
    | .error _ => accepted set d calls

end QueryDraft

/-! ## What a call asks for -/

namespace DraftCall

/-- The clause that is handed over by a call. -/
def given? : DraftCall → Option Clause
  | .addMust (.clause c) | .addMustNot (.clause c) => some c
  | _ => none

/-- The clause that a call makes, whichever side it goes to. -/
def clause? (set : QuerySettings) : DraftCall → Option Clause
  | .predicate p => (p.clause set).toOption
  | .filter condition nested | .exclude condition nested =>
    ((Predicate.ofCondition condition nested).bind fun p => p.clause set).toOption
  | call => call.given?

/-- The call is made through exclusion. -/
def isExclusion : DraftCall → Bool
  | .exclude _ _ => true
  | _ => false

/-- The clause of the call has to hold. A clause that is handed over goes where the call says; any
other one has to hold if it is negated just when it comes through exclusion. -/
def isRequiring : DraftCall → Clause → Bool
  | .addMust _, _ => true
  | .addMustNot _, _ => false
  | call, c => c.negated == call.isExclusion

/-- The index that a call names. -/
def index? : DraftCall → Option Value
  | .index name => some name
  | _ => none

/-- The start that a call sets. -/
def skip? : DraftCall → Option Value
  | .skip n => some n
  | _ => none

/-- The size that a call sets. -/
def take? : DraftCall → Option Value
  | .take n => some n
  | _ => none

/-- The order that a call sets. -/
def sortKey? (set : QuerySettings) : DraftCall → Option SortKey
  | .sortBy field descending =>
    (set.resolver.resolve field none).toOption.map fun field => ⟨field, descending⟩
  | _ => none

/-- The timeout that a call sets. -/
def timeout? : DraftCall → Option Value
  | .timeout seconds => some seconds
  | _ => none

/-- The line about the change of a call can be written: it shows the clause that the call makes, or
the value that it sets. -/
def isTold (set : QuerySettings) : DraftCall → Bool
  | .index v | .skip v | .take v | .timeout v | .sortBy _ v => v.hasPlainText
  | call => (call.clause? set).all Clause.hasDisplay

end DraftCall

/-- The clauses of calls that have to hold, in the order of the calls. -/
def required (set : QuerySettings) (calls : List DraftCall) : List Clause :=
  calls.filterMap fun call => (call.clause? set).filter fun c => call.isRequiring c

/-- The clauses of calls that must not hold, in the order of the calls. -/
def forbidden (set : QuerySettings) (calls : List DraftCall) : List Clause :=
  calls.filterMap fun call => (call.clause? set).filter fun c => !call.isRequiring c

/-- The last of the answers that calls give to a question. -/
def lastOf {α : Type} (question : DraftCall → Option α) (calls : List DraftCall) : Option α :=
  (calls.filterMap question).getLast?

/-- The clause compiles to the value, under some name of its inner hits. -/
def Clause.CompilesTo (c : Clause) (v : Value) : Prop := ∃ hitsName, c.compile hitsName = .ok v

/-- One side of a query, which is left out if it is empty. -/
def querySide (name : String) (bodies : List Value) : List (String × Value) :=
  if bodies.isEmpty then [] else [(name, .list bodies)]

namespace Clause

/-- The clause has a body to put to the engine. -/
def HasBody (c : Clause) : Prop := ∃ v, c.body = .ok v

theorem compile_isOk_iff {c : Clause} {hitsName : Option String} :
    (∃ v, c.compile hitsName = .ok v) ↔ c.HasBody := by
  unfold compile HasBody
  cases c.body <;> simp [Except.map]

theorem hasBody_of_not_isMembership {c : Clause} (h : c.kind.isMembership = false) :
    c.HasBody := by
  unfold HasBody body
  cases hk : c.kind <;> simp_all [ClauseKind.isMembership]

theorem hasBody_of_tuple {c : Clause} {xs : List Value} (h : c.value = .tuple xs) :
    c.HasBody := by
  by_cases hm : c.kind.isMembership = true
  · refine ⟨c.underField "terms" (.list xs), ?_⟩
    unfold body
    cases hk : c.kind <;>
      simp_all [ClauseKind.isMembership, Value.elements, Value.elements?, Except.map]
  · exact hasBody_of_not_isMembership (by simpa using hm)

theorem equality_hasBody {field : FieldPath} {negated : Bool} {v : Value} {c : Clause}
    (h : equality field negated v = .ok c) : c.HasBody := by
  apply hasBody_of_not_isMembership
  unfold equality at h
  split at h
  · cases h
  · split at h
    · cases h
    · split at h
      · cases h
        cases negated <;> rfl
      · cases hv : scalar v with
        | error e => rw [hv] at h; cases h
        | ok u =>
          rw [hv] at h
          cases h
          cases negated <;> rfl

theorem ordering_hasBody {field : FieldPath} {word : String} {v timeZone rounding : Value}
    {c : Clause} (h : ordering field word v timeZone rounding = .ok c) : c.HasBody := by
  apply hasBody_of_not_isMembership
  unfold ordering at h
  dsimp only at h
  repeat' split at h
  · cases h
  · cases hx : anchored _ rounding with
    | error e => rw [hx] at h; cases h
    | ok text =>
      rw [hx] at h
      cases h
      rfl
  all_goals cases h
  all_goals rfl

theorem likeness_hasBody {field : FieldPath} {negated : Bool} {v : Value} {c : Clause}
    (h : likeness field negated v = .ok c) : c.HasBody := by
  unfold likeness at h
  split at h
  · cases h
    exact hasBody_of_not_isMembership (by cases negated <;> rfl)
  · rename_i xs _ _
    cases hs : scalars xs with
    | error e => rw [hs] at h; cases h
    | ok ys =>
      rw [hs] at h
      cases h
      exact hasBody_of_tuple rfl
  · cases h

end Clause

theorem compileNamed_compilesTo {given next : HitPaths} {c : Clause} {v : Value}
    (h : compileNamed given c = .ok (v, next)) : c.CompilesTo v := by
  have of_map : ∀ {hitsName : Option String} {f : Value → Value × HitPaths},
      (∀ u, (f u).1 = u) → (c.compile hitsName).map f = .ok (v, next) → c.CompilesTo v := by
    intro hitsName f hf hm
    cases hc : c.compile hitsName with
    | error e => rw [hc] at hm; cases hm
    | ok u =>
      rw [hc] at hm
      have hu : f u = (v, next) := Except.ok.inj hm
      exact ⟨hitsName, by rw [hc, ← hf u, hu]⟩
  unfold compileNamed at h
  dsimp only at h
  repeat' split at h
  all_goals exact of_map (fun _ => rfl) h

theorem compileNamed_isOk_iff (given : HitPaths) {c : Clause} :
    (∃ r, compileNamed given c = .ok r) ↔ c.HasBody := by
  unfold compileNamed
  dsimp only
  repeat' split
  all_goals
    rw [← Clause.compile_isOk_iff]
    cases c.compile _ <;> simp [Except.map]

theorem compileAll_compilesTo {given next : HitPaths} {cs : List Clause} {vs : List Value}
    (h : compileAll given cs = .ok (vs, next)) : List.Forall₂ Clause.CompilesTo cs vs := by
  induction cs generalizing given vs with
  | nil => cases h; exact .nil
  | cons c cs ih =>
    unfold compileAll at h
    cases hc : compileNamed given c with
    | error e => rw [hc] at h; cases h
    | ok r =>
      rw [hc] at h
      cases hcs : compileAll r.2 cs with
      | error e => simp only [bind, Except.bind, hcs] at h; cases h
      | ok rs =>
        simp only [bind, Except.bind, hcs] at h
        cases h
        exact .cons (compileNamed_compilesTo hc) (ih hcs)

theorem compileAll_isOk_iff (given : HitPaths) {cs : List Clause} :
    (∃ r, compileAll given cs = .ok r) ↔ ∀ c ∈ cs, c.HasBody := by
  induction cs generalizing given with
  | nil => simp [compileAll]
  | cons c cs ih =>
    rw [List.forall_mem_cons, ← compileNamed_isOk_iff given]
    unfold compileAll
    cases hc : compileNamed given c with
    | error e => simp [bind, Except.bind]
    | ok r =>
      rw [← ih r.2]
      cases hcs : compileAll r.2 cs <;> simp [bind, Except.bind, hcs, pure, Except.pure]

/-! ## Runs of calls -/

theorem lastOf_append {α : Type} (question : DraftCall → Option α) (xs ys : List DraftCall) :
    lastOf question (xs ++ ys) = (lastOf question ys <|> lastOf question xs) := by
  unfold lastOf
  rw [List.filterMap_append, List.getLast?_append]
  cases (ys.filterMap question).getLast? <;> rfl

namespace QueryDraft

/-- The draft `next` is the draft `d` with what the calls ask for. -/
structure Extends (set : QuerySettings) (d : QueryDraft) (calls : List DraftCall)
    (next : QueryDraft) : Prop where
  must : next.must = d.must ++ required set calls
  mustNot : next.mustNot = d.mustNot ++ forbidden set calls
  index : next.index = (lastOf DraftCall.index? calls).getD d.index
  skip : next.skip = (lastOf DraftCall.skip? calls).getD d.skip
  take : next.take = (lastOf DraftCall.take? calls).getD d.take
  sort : next.sort = (lastOf (DraftCall.sortKey? set) calls <|> d.sort)
  timeout : next.timeout = (lastOf DraftCall.timeout? calls).getD d.timeout

variable {set : QuerySettings} {d : QueryDraft}

theorem Extends.refl (d : QueryDraft) : Extends set d [] d where
  must := by simp [required]
  mustNot := by simp [forbidden]
  index := rfl
  skip := rfl
  take := rfl
  sort := rfl
  timeout := rfl

theorem Extends.trans {middle last : QueryDraft} {xs ys : List DraftCall}
    (h₁ : Extends set d xs middle) (h₂ : Extends set middle ys last) :
    Extends set d (xs ++ ys) last where
  must := by rw [h₂.must, h₁.must, required, required, required, List.filterMap_append,
    List.append_assoc]
  mustNot := by rw [h₂.mustNot, h₁.mustNot, forbidden, forbidden, forbidden,
    List.filterMap_append, List.append_assoc]
  index := by
    rw [h₂.index, h₁.index, lastOf_append]
    cases lastOf DraftCall.index? ys <;> rfl
  skip := by
    rw [h₂.skip, h₁.skip, lastOf_append]
    cases lastOf DraftCall.skip? ys <;> rfl
  take := by
    rw [h₂.take, h₁.take, lastOf_append]
    cases lastOf DraftCall.take? ys <;> rfl
  sort := by
    rw [h₂.sort, h₁.sort, lastOf_append]
    cases lastOf (DraftCall.sortKey? set) ys <;> rfl
  timeout := by
    rw [h₂.timeout, h₁.timeout, lastOf_append]
    cases lastOf DraftCall.timeout? ys <;> rfl

@[simp] theorem required_singleton (call : DraftCall) :
    required set [call] = ((call.clause? set).filter fun c => call.isRequiring c).toList := by
  unfold required
  rw [List.filterMap_cons, List.filterMap_nil]
  cases (call.clause? set).filter fun c => call.isRequiring c <;> rfl

@[simp] theorem forbidden_singleton (call : DraftCall) :
    forbidden set [call] = ((call.clause? set).filter fun c => !call.isRequiring c).toList := by
  unfold forbidden
  rw [List.filterMap_cons, List.filterMap_nil]
  cases (call.clause? set).filter fun c => !call.isRequiring c <;> rfl

@[simp] theorem lastOf_singleton {α : Type} (question : DraftCall → Option α)
    (call : DraftCall) : lastOf question [call] = question call := by
  unfold lastOf
  rw [List.filterMap_cons]
  cases question call <;> rfl

theorem compile_isOk_iff :
    (∃ r, d.compile = .ok r) ↔ ∀ c ∈ d.must ++ d.mustNot, c.HasBody := by
  rw [List.forall_mem_append, ← compileAll_isOk_iff []]
  unfold compile
  cases hm : compileAll [] d.must with
  | error e => simp [bind, Except.bind]
  | ok r =>
    rw [← compileAll_isOk_iff r.2]
    cases hn : compileAll r.2 d.mustNot <;> simp [bind, Except.bind, hn, pure, Except.pure]

/-- What is built is the request of the draft, if that can be shown. -/
theorem build_eq_ok_iff {r : SearchRequest} :
    d.build set = .ok r ↔ d.request set = .ok r ∧ r.hasDisplay = true := by
  unfold build
  cases d.request set with
  | error e => simp [bind, Except.bind]
  | ok q =>
    simp only [bind, Except.bind, Except.ok.injEq]
    split
    · rename_i hq
      simp only [pure, Except.pure, Except.ok.injEq]
      exact ⟨fun h => ⟨h, h ▸ hq⟩, And.left⟩
    · rename_i hq
      refine iff_of_false nofun ?_
      rintro ⟨rfl, hr⟩
      exact hq hr

theorem request_isOk_iff (set : QuerySettings) :
    (∃ r, d.request set = .ok r) ↔ ∀ c ∈ d.must ++ d.mustNot, c.HasBody := by
  rw [← compile_isOk_iff]
  unfold request
  cases d.compile <;> simp [bind, Except.bind, pure, Except.pure]

end QueryDraft

end TypedSearch
