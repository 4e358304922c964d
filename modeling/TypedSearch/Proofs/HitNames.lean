import Mathlib.Data.List.Nodup
import Mathlib.Data.List.Perm.Subperm
import TypedSearch.Proofs.DraftHistory
import TypedSearch.Proofs.Results

/-!
# Distinct names of inner hits

The engine keeps the inner hits of a search apart by their names. A name is looked for by putting
growing numbers behind the path of the array until the name is free. A name made for one array may
well be the path of another one; the clauses still get different names, whatever their paths and
their order.

* `Probes`: the search for a free name, one step after the other.
* `freshName_notMem`, `probes_freshName`: the search ends, and with the name that is given.
* `namesAfter`: the names that a row of arrays gets.
* `Value.hitRequest?`, `SearchRequest.hitRequests`: what a compiled clause and a whole request say
  about inner hits.
* `SearchRequest.NamesHits`: each name in a request stands for one clause and for its array.
* `QueryDraft.build_namesHits`: the request of a draft names its inner hits apart.
-/

namespace TypedSearch

/-! ## Free names -/

theorem numbered_injective (path : String) : Function.Injective (numbered path) := by
  intro m n h
  have hlists : (path ++ "_").toList ++ (Nat.repr m).toList =
      (path ++ "_").toList ++ (Nat.repr n).toList := by
    simpa only [numbered, String.toList_append] using congrArg String.toList h
  have hdigits : Nat.toDigits 10 m = Nat.toDigits 10 n := by
    simpa only [Nat.toList_repr] using List.append_cancel_left hlists
  have hread := congrArg (fun digits => Nat.ofDigitChars 10 digits 0) hdigits
  simpa using hread

/-- The search for a free name that has a name at hand, and a number to try next, ends with the
name `found`. -/
inductive Probes (taken : List String) (path : String) : String → Nat → String → Prop
  | free {name : String} {n : Nat} : name ∉ taken → Probes taken path name n name
  | taken {name found : String} {n : Nat} : name ∈ taken →
      Probes taken path (numbered path n) (n + 1) found → Probes taken path name n found

variable {taken : List String} {path : String}

/-- The first free one among numbered names ends the search. -/
theorem probes_of_find? {found : String} {count start : Nat}
    (h : ((List.range' start count).map (numbered path)).find? (fun name => !taken.contains name) =
      some found) : Probes taken path (numbered path start) (start + 1) found := by
  induction count generalizing start with
  | zero => cases h
  | succ count ih =>
    rw [List.range'_succ, List.map_cons, List.find?_cons] at h
    by_cases hmem : numbered path start ∈ taken
    · rw [List.contains_iff_mem.mpr hmem] at h
      exact .taken hmem (ih h)
    · have hfree : (!taken.contains (numbered path start)) = true := by simpa using hmem
      rw [hfree] at h
      cases h
      exact .free hmem

/-- One of as many numbered names as are taken, and one more, is free. -/
theorem exists_numbered_free (taken : List String) (path : String) (start : Nat) :
    ∃ found, ((List.range' start (taken.length + 1)).map (numbered path)).find?
      (fun name => !taken.contains name) = some found := by
  rw [← Option.isSome_iff_exists, List.find?_isSome]
  by_contra hall
  push Not at hall
  have hsub : (List.range' start (taken.length + 1)).map (numbered path) ⊆ taken := by
    intro name hname
    simpa using hall name hname
  have hnodup : ((List.range' start (taken.length + 1)).map (numbered path)).Nodup :=
    (List.nodup_range' _).map (numbered_injective path)
  have hlength := (hnodup.subperm hsub).length_le
  rw [List.length_map, List.length_range'] at hlength
  omega

/-- The search ends, and the name that is given is the one it ends with. -/
theorem probes_freshName (taken : List String) (path : String) :
    Probes taken path path 1 (freshName taken path) := by
  unfold freshName
  split
  · rename_i hmem
    obtain ⟨found, hfound⟩ := exists_numbered_free taken path 1
    have hnumbers : (List.range (taken.length + 1)).map (· + 1) =
        List.range' 1 (taken.length + 1) := by
      rw [List.range'_eq_map_range]
      exact List.map_congr_left fun n _ => Nat.add_comm n 1
    dsimp only
    rw [hnumbers, hfound]
    exact .taken hmem (probes_of_find? hfound)
  · rename_i hmem
    exact .free hmem

theorem Probes.notMem {name found : String} {n : Nat} (h : Probes taken path name n found) :
    found ∉ taken := by
  induction h with
  | free hmem => exact hmem
  | taken _ _ ih => exact ih

theorem freshName_notMem (taken : List String) (path : String) : freshName taken path ∉ taken :=
  (probes_freshName taken path).notMem

/-! ## Names for a row of arrays -/

/-- The names that a row of arrays gets, each with its array, where some names are taken. -/
def namesAfter (taken : List String) : List String → HitPaths
  | [] => []
  | path :: paths =>
    (freshName taken path, path) :: namesAfter (taken ++ [freshName taken path]) paths

theorem namesAfter_append (taken paths more : List String) :
    namesAfter taken (paths ++ more) = namesAfter taken paths ++
      namesAfter (taken ++ (namesAfter taken paths).map (·.1)) more := by
  induction paths generalizing taken with
  | nil => simp [namesAfter]
  | cons path paths ih => simp [namesAfter, ih, List.append_assoc]

/-- Names that differ are followed by names that differ, from them and from each other. -/
theorem nodup_append_namesAfter {taken : List String} (h : taken.Nodup) (paths : List String) :
    (taken ++ (namesAfter taken paths).map (·.1)).Nodup := by
  induction paths generalizing taken with
  | nil => simpa [namesAfter] using h
  | cons path paths ih =>
    have hnext : (taken ++ [freshName taken path]).Nodup := by
      rw [List.nodup_append]
      refine ⟨h, List.nodup_singleton _, fun name hname other hother => ?_⟩
      rw [List.mem_singleton] at hother
      subst hother
      exact fun heq => freshName_notMem taken path (heq ▸ hname)
    simpa [namesAfter] using ih hnext

/-- Each name is the one that the search ends with when the names before it are taken. -/
theorem probes_of_namesAfter_eq {paths : List String} {before after : HitPaths}
    {entry : String × String} (h : namesAfter taken paths = before ++ entry :: after) :
    Probes (taken ++ before.map (·.1)) entry.2 entry.2 1 entry.1 := by
  induction paths generalizing taken before with
  | nil => simp [namesAfter] at h
  | cons path paths ih =>
    rw [namesAfter] at h
    cases before with
    | nil =>
      obtain ⟨rfl, -⟩ := List.cons.inj h
      simpa using probes_freshName taken path
    | cons first before =>
      obtain ⟨rfl, hrest⟩ := List.cons.inj h
      simpa using ih hrest

/-! ## What a compiled clause says about its inner hits -/

/-- A request for inner hits: the array, and the name that they are asked for under. -/
structure HitRequest where
  path : String
  explicit : Option String

/-- The name that the engine answers under: the path, unless another name is asked for. -/
def HitRequest.name (q : HitRequest) : String := q.explicit.getD q.path

/-- The request for inner hits in a compiled clause. -/
def Value.hitRequest? (v : Value) : Option HitRequest := do
  let scope ← (← v.asEntries?).get? "nested"
  let entries ← scope.asEntries?
  let path ← (← entries.get? "path").asText?
  let request ← (← entries.get? "inner_hits").asEntries?
  return ⟨path, (request.get? "name").bind asText?⟩

namespace Clause

/-- The array whose matching elements a clause asks for. -/
def hitPath? (c : Clause) : Option String := if c.requestsInnerHits then c.field.nested else none

theorem hitRequest?_nestedWithHits (path : String) (hitsName : Option String) (inner : Value) :
    (nestedWithHits path hitsName inner).hitRequest? = some ⟨path, hitsName⟩ := by
  cases hitsName <;> rfl

/-- Without its scope a clause asks for nothing. -/
theorem hitRequest?_of_body {c : Clause} {inner : Value} (h : c.body = .ok inner) :
    inner.hitRequest? = none := by
  unfold body at h
  split at h
  case h_8 | h_9 =>
    obtain ⟨xs, -, rfl⟩ := map_eq_ok.mp h
    rfl
  all_goals
    cases h
    rfl

/-- A compiled clause asks for inner hits just when the clause does. -/
theorem hitRequest?_of_compile {c : Clause} {hitsName : Option String} {v : Value}
    (h : c.compile hitsName = .ok v) :
    v.hitRequest? = c.hitPath?.map fun path => ⟨path, hitsName⟩ := by
  obtain ⟨inner, hinner, rfl⟩ := map_eq_ok.mp h
  unfold hitPath?
  cases hn : c.field.nested with
  | none =>
    rw [ite_self]
    exact hitRequest?_of_body hinner
  | some path =>
    cases c.requestsInnerHits with
    | true => exact hitRequest?_nestedWithHits path hitsName inner
    | false => rfl

end Clause

/-- The arrays that clauses ask for, in order. -/
def hitPathsOf (cs : List Clause) : List String := cs.filterMap Clause.hitPath?

/-- The request under a name; the path need not be said. -/
def HitRequest.under (entry : String × String) : HitRequest :=
  ⟨entry.2, if entry.1 = entry.2 then none else some entry.1⟩

@[simp] theorem HitRequest.under_name (entry : String × String) :
    (HitRequest.under entry).name = entry.1 := by
  unfold under name
  split <;> simp_all

@[simp] theorem HitRequest.under_path (entry : String × String) :
    (HitRequest.under entry).path = entry.2 := rfl

theorem HitRequest.map_under_name (row : HitPaths) :
    (row.map HitRequest.under).map (·.name) = row.map (·.1) := by
  rw [List.map_map]
  exact List.map_congr_left fun entry _ => under_name entry

theorem HitRequest.under_isSome_iff (entry : String × String) :
    (HitRequest.under entry).explicit.isSome ↔ entry.1 ≠ entry.2 := by
  unfold under
  split <;> simp_all

theorem compileNamed_eq_ok {given next : HitPaths} {c : Clause} {v : Value}
    (h : compileNamed given c = .ok (v, next)) :
    next = given ++ namesAfter (given.map (·.1)) c.hitPath?.toList ∧
    v.hitRequest?.toList = (namesAfter (given.map (·.1)) c.hitPath?.toList).map .under := by
  -- A clause without a scope or without a collection takes no name.
  have plain : c.hitPath? = none → (c.compile none).map (fun v => (v, given)) = .ok (v, next) →
      next = given ++ namesAfter (given.map (·.1)) c.hitPath?.toList ∧
      v.hitRequest?.toList = (namesAfter (given.map (·.1)) c.hitPath?.toList).map .under := by
    intro hpath hmap
    obtain ⟨u, hu, heq⟩ := map_eq_ok.mp hmap
    cases heq
    rw [Clause.hitRequest?_of_compile hu, hpath]
    simp [namesAfter]
  unfold compileNamed at h
  split at h
  · rename_i path hnested
    split at h
    · rename_i hasks
      have hpath : c.hitPath? = some path := by
        unfold Clause.hitPath?
        rw [hasks, hnested]
        rfl
      obtain ⟨u, hu, heq⟩ := map_eq_ok.mp h
      cases heq
      rw [Clause.hitRequest?_of_compile hu, hpath]
      exact ⟨rfl, rfl⟩
    · rename_i hasks
      exact plain (by unfold Clause.hitPath?; simp [hasks]) h
  · rename_i hnested
    exact plain (by unfold Clause.hitPath?; simp [hnested]) h

theorem compileAll_eq_ok {given next : HitPaths} {cs : List Clause} {vs : List Value}
    (h : compileAll given cs = .ok (vs, next)) :
    next = given ++ namesAfter (given.map (·.1)) (hitPathsOf cs) ∧
    vs.filterMap Value.hitRequest? = (namesAfter (given.map (·.1)) (hitPathsOf cs)).map .under := by
  induction cs generalizing given vs with
  | nil =>
    cases h
    simp [hitPathsOf, namesAfter]
  | cons c cs ih =>
    obtain ⟨⟨v, middle⟩, hc, h⟩ := bind_eq_ok.mp h
    obtain ⟨⟨us, last⟩, hcs, h⟩ := bind_eq_ok.mp h
    cases h
    obtain ⟨hmiddle, hv⟩ := compileNamed_eq_ok hc
    obtain ⟨hlast, hus⟩ := ih hcs
    have hpaths : hitPathsOf (c :: cs) = c.hitPath?.toList ++ hitPathsOf cs := by
      unfold hitPathsOf
      rw [List.filterMap_cons]
      cases c.hitPath? <;> rfl
    have hrequests : (v :: us).filterMap Value.hitRequest? =
        v.hitRequest?.toList ++ us.filterMap Value.hitRequest? := by
      rw [List.filterMap_cons]
      cases v.hitRequest? <;> rfl
    have hgiven : middle.map (·.1) = given.map (·.1) ++
        (namesAfter (given.map (·.1)) c.hitPath?.toList).map (·.1) := by
      rw [hmiddle, List.map_append]
    rw [hpaths, namesAfter_append, hrequests, hv, hus, hlast, ← hgiven, List.map_append]
    exact ⟨by rw [hmiddle, List.append_assoc], rfl⟩

/-! ## Requests -/

/-- The compiled clauses on one side of a query. -/
def Value.clausesOn (side : String) (query : Value) : List Value :=
  let found := do (← (← (← query.asEntries?).get? "bool").asEntries?).get? side
  match found with
  | some (.list clauses) => clauses
  | _ => []

namespace SearchRequest

/-- The compiled clauses of a request: those that have to hold, then those that must not. -/
def clauses (r : SearchRequest) : List Value :=
  r.query.clausesOn "must" ++ r.query.clausesOn "must_not"

/-- The requests for inner hits in a request, in the order of its clauses. -/
def hitRequests (r : SearchRequest) : List HitRequest := r.clauses.filterMap Value.hitRequest?

/-- The request names the inner hits of clauses apart, and tells for each name its array. -/
structure NamesHits (r : SearchRequest) (cs : List Clause) : Prop where
  /-- The clauses stand in the request, with their arrays. -/
  aligned : List.Forall₂
    (fun c v => c.CompilesTo v ∧ v.hitRequest?.map (·.path) = c.hitPath?) cs r.clauses
  /-- The names differ. -/
  distinct : (r.hitRequests.map (·.name)).Nodup
  /-- The names of the request are these names, each with its array. -/
  paths : r.hitPaths = r.hitRequests.map fun q => (q.name, q.path)
  /-- A name is said just where it differs from the path. -/
  explicit : ∀ q ∈ r.hitRequests, q.explicit.isSome ↔ q.name ≠ q.path
  /-- The search for a name that the names before it leave free ends with the name. -/
  probed : ∀ before q after, r.hitRequests = before ++ q :: after →
    Probes (before.map (·.name)) q.path q.path 1 q.name

end SearchRequest

theorem SearchRequest.clauses_of_query {r : SearchRequest} {must mustNot : List Value}
    (h : r.query = .object [("bool",
      .object (querySide "must" must ++ querySide "must_not" mustNot))]) :
    r.clauses = must ++ mustNot := by
  unfold clauses
  rw [h]
  cases must <;> cases mustNot <;> rfl

namespace QueryDraft

variable {d : QueryDraft} {set : QuerySettings} {r : SearchRequest}

/-- The clauses of a draft: those that have to hold, then those that must not. -/
def clauses (d : QueryDraft) : List Clause := d.must ++ d.mustNot

/-- What a request holds of the clauses of its draft. -/
theorem clauses_of_request (h : d.request set = .ok r) :
    List.Forall₂ Clause.CompilesTo d.clauses r.clauses ∧
    r.hitPaths = namesAfter [] (hitPathsOf d.clauses) ∧
    r.hitRequests = r.hitPaths.map .under := by
  obtain ⟨⟨query, hitPaths⟩, hcompile, h⟩ := bind_eq_ok.mp h
  obtain ⟨⟨must, given⟩, hmust, hcompile⟩ := bind_eq_ok.mp hcompile
  obtain ⟨⟨mustNot, last⟩, hmustNot, hcompile⟩ := bind_eq_ok.mp hcompile
  cases hcompile
  have hr := Except.ok.inj h
  have hquery : r.query = .object [("bool",
      .object (querySide "must" must ++ querySide "must_not" mustNot))] := hr ▸ rfl
  have hpaths : r.hitPaths = hitPaths := hr ▸ rfl
  obtain ⟨hgiven, hmustHits⟩ := compileAll_eq_ok hmust
  obtain ⟨hlast, hmustNotHits⟩ := compileAll_eq_ok hmustNot
  rw [List.nil_append, List.map_nil] at hgiven
  rw [List.map_nil, ← hgiven] at hmustHits
  have hnames : hitPaths = namesAfter [] (hitPathsOf d.clauses) := by
    unfold hitPathsOf clauses
    rw [List.filterMap_append, namesAfter_append, List.nil_append]
    exact hgiven ▸ hlast
  have hclauses := SearchRequest.clauses_of_query hquery
  refine ⟨?_, hpaths.trans hnames, ?_⟩
  · rw [hclauses]
    exact List.rel_append (compileAll_compilesTo hmust) (compileAll_compilesTo hmustNot)
  · unfold SearchRequest.hitRequests
    rw [hclauses, List.filterMap_append, hmustHits, hmustNotHits, ← List.map_append, ← hlast,
      hpaths]

theorem namesHits_of_request (h : d.request set = .ok r) : r.NamesHits d.clauses := by
  obtain ⟨hcompiled, hpaths, hrequests⟩ := clauses_of_request h
  constructor
  case aligned =>
    refine hcompiled.imp fun c v hcv => ⟨hcv, ?_⟩
    obtain ⟨hitsName, hc⟩ := hcv
    rw [Clause.hitRequest?_of_compile hc]
    cases c.hitPath? <;> rfl
  case distinct =>
    rw [hrequests, hpaths, HitRequest.map_under_name]
    exact nodup_append_namesAfter List.nodup_nil _
  case paths =>
    rw [hrequests, List.map_map]
    refine (List.map_id _).symm.trans (List.map_congr_left fun entry _ => ?_)
    simp only [Function.comp_apply, HitRequest.under_name, HitRequest.under_path, id]
  case explicit =>
    intro q hq
    rw [hrequests] at hq
    obtain ⟨entry, -, rfl⟩ := List.mem_map.mp hq
    rw [HitRequest.under_name]
    exact HitRequest.under_isSome_iff entry
  case probed =>
    intro before q after heq
    rw [hrequests, hpaths] at heq
    obtain ⟨front, rest, hsplit, rfl, hrest⟩ := List.map_eq_append_iff.mp heq
    obtain ⟨entry, back, rfl, rfl, -⟩ := List.map_eq_cons_iff.mp hrest
    have hprobes := probes_of_namesAfter_eq hsplit
    rw [HitRequest.map_under_name, HitRequest.under_name]
    exact hprobes

/-- **The request of a draft names its inner hits apart**, whatever calls have made the draft. There
is a request just when every clause has a body, and it is given out if it can be shown. In it no two
clauses ask for inner hits under one name; the names of the request are exactly these names, each
with the array of its clause; and a name is said just where it differs from the path. The names hang
on the arrays alone: every draft whose clauses ask for the same arrays in the same order, the same
draft built again among them, gets the same ones. -/
theorem build_namesHits (d : QueryDraft) (set : QuerySettings) :
    ((∃ r, d.request set = .ok r) ↔ ∀ c ∈ d.clauses, c.HasBody) ∧
    (∀ r, d.build set = .ok r ↔ d.request set = .ok r ∧ r.hasDisplay = true) ∧
    ∀ r, d.request set = .ok r → r.NamesHits d.clauses ∧
      ∀ (other : QueryDraft) (otherSet : QuerySettings) (again : SearchRequest),
        hitPathsOf other.clauses = hitPathsOf d.clauses → other.request otherSet = .ok again →
        again.hitPaths = r.hitPaths := by
  refine ⟨request_isOk_iff set, fun r => build_eq_ok_iff,
    fun r hr => ⟨namesHits_of_request hr, ?_⟩⟩
  intro other otherSet again hsame hagain
  rw [(clauses_of_request hagain).2.1, (clauses_of_request hr).2.1, hsame]

/-- The name that a second clause on one array gets is the path of another array. -/
theorem build_namesHits_crossing :
    let set : QuerySettings := ⟨⟨.empty, none, none⟩, .any, standardTimeZone, .standard, none⟩
    let asks (path : String) : Clause :=
      .plain .terms ⟨path ++ ".label", .keyword, some path⟩ (.list [.str "red"])
    let d : QueryDraft := { empty with
      must := [asks "items", asks "items"], mustNot := [asks "items_1", asks "items"] }
    ∃ r, d.build set = .ok r ∧ d.request set = .ok r ∧ r.NamesHits d.clauses ∧
      r.hitPaths = [("items", "items"), ("items_1", "items"), ("items_1_1", "items_1"),
        ("items_2", "items")] := by
  intro set asks d
  have hbody : ∀ path, (asks path).HasBody := fun path => ⟨_, rfl⟩
  have hall : ∀ c ∈ d.clauses, c.HasBody := by
    intro c hc
    simp only [clauses, d, List.cons_append, List.nil_append, List.mem_cons, List.not_mem_nil,
      or_false] at hc
    rcases hc with rfl | rfl | rfl | rfl <;> exact hbody _
  obtain ⟨hrequest, hbuild, hnames⟩ := build_namesHits d set
  obtain ⟨r, hr⟩ := hrequest.mpr hall
  have hpaths : r.hitPaths = _ := (clauses_of_request hr).2.1
  have hdisplay : r.hasDisplay = true := Except.ok.inj hr ▸ rfl
  exact ⟨r, (hbuild r).mpr ⟨hr, hdisplay⟩, hr, (hnames r hr).1, by rw [hpaths]; rfl⟩

end QueryDraft

end TypedSearch
