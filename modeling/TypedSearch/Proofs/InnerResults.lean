import Mathlib.Algebra.GroupWithZero.Nat
import TypedSearch.Proofs.Comparison
import TypedSearch.Proofs.HitNames
import TypedSearch.Proofs.ReplyReading

/-!
# Inner hits under their arrays

The engine answers each request for inner hits under its name. A reader collects the sources of
the answers under the arrays that the names stand for. Several names can stand for one array, and
the name for one array can be the path of another; every source still ends up under the array of
the clause that has asked for it, once.

* `Value.namedHits`, `payloadSources`: the inner hits of a hit by name, and the sources in them.
* `Value.IsHit`: the form of a hit.
* `InnerSources.Collects`: the sources of named inner hits stand under their arrays.
* `innerSources_collects`: what is read of the inner hits of a hit.
* `InnerSources.Collects.perm_requested`: the sources under an array are those of its clauses.
* `ResultReader.ofReply_innerHits`: the inner hits of an outcome.
-/

namespace TypedSearch

/-! ## The form of hits -/

namespace Value

/-- The value under a key of an object; null for a missing key and below what is no object. -/
def inside (key : String) (v : Value) : Value := Entries.getD key (v.asEntries?.getD [])

/-- The elements of a list; there are none in any other value. -/
def row : Value → List Value
  | .list xs => xs
  | _ => []

/-- The value is null or an object. -/
def IsObjectOrNull (v : Value) : Prop := v = .null ∨ ∃ es, v = .dict es

/-- The value is null or a list of objects. -/
def IsRowOrNull (v : Value) : Prop := v = .null ∨ ∃ xs, v = .list xs ∧ ∀ x ∈ xs, ∃ es, x = .dict es

/-- The form of what is answered under a name of inner hits. Each level may be missing or null. -/
structure IsPayload (v : Value) : Prop where
  payload : v.IsObjectOrNull
  outer : (v.inside "hits").IsObjectOrNull
  hits : ((v.inside "hits").inside "hits").IsRowOrNull

/-- The entries for the inner hits of a hit. -/
def innerEntries (hit : Value) : Entries := ((hit.inside "inner_hits").asEntries?).getD []

/-- The inner hits of a hit, by name. -/
def namedHits (hit : Value) : List (String × Value) :=
  hit.innerEntries.filterMap fun e => e.1.asText?.map fun name => (name, e.2)

/-- The form of a hit: an object, whose inner hits are missing, null or an object with an answer
under each name. -/
structure IsHit (hit : Value) : Prop where
  object : ∃ es, hit = .dict es
  inner : (hit.inside "inner_hits").IsObjectOrNull
  answers : ∀ e ∈ hit.innerEntries, (∃ name, e.1 = .str name) ∧ e.2.IsPayload

theorem orObject_lookup {v : Value} (h : v.IsObjectOrNull) (key : String) :
    v.orObject.lookup key .null = .ok (v.inside key) := by
  rcases h with rfl | ⟨es, rfl⟩
  · rfl
  · cases es <;> rfl

theorem orObject_demandEntries {v : Value} (h : v.IsObjectOrNull) :
    v.orObject.demandEntries = .ok (v.asEntries?.getD []) := by
  rcases h with rfl | ⟨es, rfl⟩
  · rfl
  · cases es <;> rfl

theorem IsRowOrNull.elementsOrNone {v : Value} (h : v.IsRowOrNull) :
    v.elementsOrNone = .ok v.row := by
  rcases h with rfl | ⟨xs, rfl, -⟩
  · rfl
  · cases xs <;> rfl

theorem IsRowOrNull.forall_row {v : Value} (h : v.IsRowOrNull) :
    ∀ x ∈ v.row, ∃ es, x = .dict es := by
  rcases h with rfl | ⟨xs, rfl, hxs⟩
  · exact fun x hx => by cases hx
  · exact hxs

end Value

/-! ## Sources of one answer -/

/-- The source of an inner hit; an empty object if there is none. -/
def innerSource (hit : Value) : Value :=
  (hit.asEntries?.bind (Entries.get? "_source")).getD (.dict [])

/-- The sources of what is answered under a name. -/
def payloadSources (payload : Value) : List Value :=
  ((payload.inside "hits").inside "hits").row.map innerSource

theorem hitsWithin_eq {payload : Value} (h : payload.IsPayload) :
    hitsWithin payload = .ok ((payload.inside "hits").inside "hits").row := by
  unfold hitsWithin
  rw [Value.orObject_lookup h.payload]
  change (payload.inside "hits").orObject.lookup "hits" .null >>= Value.elementsOrNone = _
  rw [Value.orObject_lookup h.outer]
  exact h.hits.elementsOrNone

theorem sourcesOf_eq {hits : List Value} (h : ∀ hit ∈ hits, ∃ es, hit = .dict es) :
    sourcesOf hits = .ok (hits.map innerSource) := by
  induction hits with
  | nil => rfl
  | cons hit hits ih =>
    rw [List.forall_mem_cons] at h
    obtain ⟨⟨es, rfl⟩, hrest⟩ := h
    unfold sourcesOf
    rw [ih hrest]
    rfl

/-! ## Rows of arrays -/

/-- The array that a name of inner hits stands for; a name that is not known stands for itself. -/
def HitPaths.arrayOf (paths : HitPaths) (name : String) : String :=
  (List.lookup name paths).getD name

theorem HitPaths.pathOf_str (paths : HitPaths) (name : String) :
    paths.pathOf (.str name) = .str (paths.arrayOf name) := by
  change ((List.lookup name paths).map Value.str).getD (.str name) = _
  unfold arrayOf
  cases List.lookup name paths <;> rfl

namespace InnerSources

variable {found : InnerSources} {path other : String} {sources : List Value}

/-- The sources under an array; none if the array is not there. -/
def at? (found : InnerSources) (path : String) : Option (List Value) :=
  (found.find? fun e => e.1.equals (.str path)).map (·.2)

/-- The number of sources under all arrays. -/
def count (found : InnerSources) : Nat := (found.map fun e => e.2.length).sum

/-- The arrays are texts, and each one is there once. -/
structure IsIndexed (found : InnerSources) : Prop where
  texts : ∀ e ∈ found, ∃ path, e.1 = .str path
  apart : (found.map (·.1)).Nodup

theorem IsIndexed.equals_iff (h : found.IsIndexed) {e : Value × List Value} (he : e ∈ found) :
    e.1.equals (.str path) = true ↔ e.1 = .str path := by
  obtain ⟨key, hkey⟩ := h.texts e he
  rw [hkey, Value.equals_str, beq_iff_eq, Value.str.injEq]

theorem IsIndexed.any_iff (h : found.IsIndexed) :
    (found.any fun e => e.1.equals (.str path)) = true ↔ .str path ∈ found.map (·.1) := by
  rw [List.any_eq_true, List.mem_map]
  exact exists_congr fun e => and_congr_right fun he => h.equals_iff he

/-- Adds sources to an entry, if it is the one for the array. -/
def extend (path : String) (sources : List Value) (e : Value × List Value) : Value × List Value :=
  if e.1.equals (.str path) then (e.1, e.2 ++ sources) else e

@[simp] theorem extend_fst (path : String) (sources : List Value) (e : Value × List Value) :
    (extend path sources e).1 = e.1 := by
  unfold extend
  split <;> rfl

theorem add_of_any (h : (found.any fun e => e.1.equals (.str path)) = true) :
    found.add (.str path) sources = found.map (extend path sources) := if_pos h

theorem add_of_not_any (h : ¬(found.any fun e => e.1.equals (.str path)) = true) :
    found.add (.str path) sources = found ++ [(.str path, sources)] := if_neg h

theorem map_fst_extend (found : InnerSources) (path : String) (sources : List Value) :
    (found.map (extend path sources)).map (·.1) = found.map (·.1) := by
  rw [List.map_map]
  exact List.map_congr_left fun e _ => extend_fst path sources e

theorem IsIndexed.add (h : found.IsIndexed) (path : String) (sources : List Value) :
    (found.add (.str path) sources).IsIndexed := by
  by_cases hany : (found.any fun e => e.1.equals (.str path)) = true
  · rw [add_of_any hany]
    refine ⟨fun e he => ?_, map_fst_extend found path sources ▸ h.apart⟩
    obtain ⟨e', he', rfl⟩ := List.mem_map.mp he
    rw [extend_fst]
    exact h.texts e' he'
  · rw [add_of_not_any hany]
    rw [h.any_iff] at hany
    refine ⟨fun e he => ?_, ?_⟩
    · rcases List.mem_append.mp he with he | he
      · exact h.texts e he
      · rw [List.mem_singleton] at he
        exact ⟨path, he ▸ rfl⟩
    · rw [List.map_append, List.nodup_append]
      refine ⟨h.apart, List.nodup_singleton _, fun key hkey last hlast => ?_⟩
      rw [List.map_singleton, List.mem_singleton] at hlast
      subst hlast
      rintro rfl
      exact hany hkey

/-- What stands under an array behind an addition. -/
theorem IsIndexed.at?_add (h : found.IsIndexed) (path other : String) (sources : List Value) :
    (found.add (.str path) sources).at? other =
      if path = other then some ((found.at? path).getD [] ++ sources) else found.at? other := by
  unfold at?
  by_cases hany : (found.any fun e => e.1.equals (.str path)) = true
  · have hsame : (fun e : Value × List Value => e.1.equals (.str other)) ∘ extend path sources =
        fun e => e.1.equals (.str other) := by
      funext e
      rw [Function.comp_apply, extend_fst]
    rw [add_of_any hany, List.find?_map, hsame]
    split
    case isTrue heq =>
      subst heq
      obtain ⟨e, he⟩ := Option.isSome_iff_exists.mp
        (List.find?_isSome.mpr (List.any_eq_true.mp hany))
      have hkey : e.1.equals (.str path) = true := by simpa using List.find?_some he
      simp [he, extend, hkey]
    case isFalse hne =>
      cases he : found.find? fun e => e.1.equals (.str other) with
      | none => rfl
      | some e =>
        have hkey : e.1 = .str other :=
          (h.equals_iff (List.mem_of_find?_eq_some he)).mp (by simpa using List.find?_some he)
        have hstays : e.1.equals (.str path) = false := by
          rw [hkey, Value.equals_str, beq_eq_false_iff_ne]
          exact Ne.symm hne
        simp [extend, hstays]
  · rw [add_of_not_any hany, List.find?_append]
    have hnone : (found.find? fun e => e.1.equals (.str path)) = none := by
      rw [List.find?_eq_none]
      exact fun e he hkey => hany (List.any_eq_true.mpr ⟨e, he, hkey⟩)
    split
    case isTrue heq =>
      subst heq
      rw [hnone]
      simp [Value.equals_str]
    case isFalse hne =>
      have hlast : (Value.str path).equals (.str other) = false := by
        rw [Value.equals_str, beq_eq_false_iff_ne]
        exact hne
      simp [hlast]

/-- An addition adds as many sources as are added. -/
theorem IsIndexed.count_add (h : found.IsIndexed) (path : String) (sources : List Value) :
    (found.add (.str path) sources).count = found.count + sources.length := by
  by_cases hany : (found.any fun e => e.1.equals (.str path)) = true
  · rw [add_of_any hany]
    -- The array stands in the row once, before entries that stay as they are.
    induction found with
    | nil => cases hany
    | cons e found ih =>
      have hrest : IsIndexed found :=
        ⟨fun e he => h.texts e (List.mem_cons_of_mem _ he), (List.nodup_cons.mp h.apart).2⟩
      unfold count at ih ⊢
      rw [List.map_cons, List.map_cons, List.map_cons, List.sum_cons, List.sum_cons]
      by_cases he : e.1.equals (.str path) = true
      · have hkey := (h.equals_iff List.mem_cons_self).mp he
        have hstays : found.map (extend path sources) = found := by
          refine (List.map_congr_left fun e' he' => ?_).trans (List.map_id found)
          have hne : ¬e'.1.equals (.str path) = true := by
            rw [hrest.equals_iff he']
            intro hkey'
            exact (List.nodup_cons.mp h.apart).1
              (List.mem_map.mpr ⟨e', he', hkey'.trans hkey.symm⟩)
          exact if_neg hne
        rw [hstays]
        simp only [extend, he, if_true, List.length_append]
        omega
      · have hany' : (List.any found fun e => e.1.equals (.str path)) = true := by
          simpa [he] using hany
        rw [ih hrest hany']
        simp only [extend, he, Bool.false_eq_true, if_false]
        omega
  · rw [add_of_not_any hany]
    simp [count]

/-! ## Inner hits of one hit -/

/-- The sources that named inner hits have for an array, in the order of the names. -/
def ofNamed (paths : HitPaths) (path : String) (named : List (String × Value)) : List Value :=
  (named.filter fun e => paths.arrayOf e.1 = path).flatMap fun e => payloadSources e.2

/-- The sources of named inner hits stand under their arrays, in the order of the names, and none
is lost or there twice. -/
structure Collects (found : InnerSources) (paths : HitPaths) (named : List (String × Value)) :
    Prop where
  indexed : found.IsIndexed
  /-- Under an array stands what the names that stand for it have; no other array is there. -/
  sources : ∀ path, found.at? path =
    if ∃ e ∈ named, paths.arrayOf e.1 = path then some (ofNamed paths path named) else none
  count : found.count = (named.map fun e => (payloadSources e.2).length).sum

variable {paths : HitPaths} {named : List (String × Value)}

theorem ofNamed_snoc (paths : HitPaths) (path : String) (named : List (String × Value))
    (name : String) (payload : Value) :
    ofNamed paths path (named ++ [(name, payload)]) = ofNamed paths path named ++
      if paths.arrayOf name = path then payloadSources payload else [] := by
  unfold ofNamed
  rw [List.filter_append, List.flatMap_append]
  by_cases heq : paths.arrayOf name = path <;> simp [heq]

theorem ofNamed_eq_nil (h : ¬∃ e ∈ named, paths.arrayOf e.1 = path) :
    ofNamed paths path named = [] := by
  have hempty : (named.filter fun e => paths.arrayOf e.1 = path) = [] := by
    rw [List.filter_eq_nil_iff]
    exact fun e he hpath => h ⟨e, he, by simpa using hpath⟩
  unfold ofNamed
  rw [hempty]
  rfl

theorem Collects.at?_getD (h : found.Collects paths named) (path : String) :
    (found.at? path).getD [] = ofNamed paths path named := by
  rw [h.sources path]
  split
  · rfl
  · rename_i hnone
    exact (ofNamed_eq_nil hnone).symm

theorem Collects.nil (paths : HitPaths) : Collects [] paths [] where
  indexed := ⟨fun _ he => absurd he List.not_mem_nil, List.nodup_nil⟩
  sources path := by simp [at?]
  count := rfl

/-- One more name. -/
theorem Collects.snoc (h : found.Collects paths named) (name : String) (payload : Value) :
    (found.add (.str (paths.arrayOf name)) (payloadSources payload)).Collects paths
      (named ++ [(name, payload)]) where
  indexed := h.indexed.add _ _
  sources path := by
    rw [h.indexed.at?_add, ofNamed_snoc]
    by_cases heq : paths.arrayOf name = path
    · have hthere : ∃ e ∈ named ++ [(name, payload)], paths.arrayOf e.1 = path :=
        ⟨_, List.mem_append_right _ List.mem_cons_self, heq⟩
      rw [if_pos heq, if_pos hthere, if_pos heq, heq, h.at?_getD]
    · have hiff : (∃ e ∈ named ++ [(name, payload)], paths.arrayOf e.1 = path) ↔
          ∃ e ∈ named, paths.arrayOf e.1 = path := by
        simp [or_and_right, exists_or, heq]
      rw [if_neg heq, if_neg heq, List.append_nil, h.sources path]
      simp only [hiff]
  count := by
    rw [h.indexed.count_add, h.count]
    simp

end InnerSources

/-- The inner hits of all names are gathered behind those of the names before. -/
theorem gather_collects {paths : HitPaths} {es : Entries}
    (h : ∀ e ∈ es, (∃ name, e.1 = .str name) ∧ e.2.IsPayload) {found : InnerSources}
    {before : List (String × Value)} (hfound : found.Collects paths before) :
    ∃ all, gather paths found es = .ok all ∧ all.Collects paths
      (before ++ es.filterMap fun e => e.1.asText?.map fun name => (name, e.2)) := by
  induction es generalizing found before with
  | nil => exact ⟨found, rfl, by simpa using hfound⟩
  | cons e es ih =>
    rw [List.forall_mem_cons] at h
    obtain ⟨⟨⟨name, hname⟩, hpayload⟩, hrest⟩ := h
    obtain ⟨key, payload⟩ := e
    subst hname
    obtain ⟨all, hall, hcollects⟩ := ih hrest (hfound.snoc name payload)
    refine ⟨all, ?_, ?_⟩
    · unfold gather
      rw [hitsWithin_eq hpayload, HitPaths.pathOf_str]
      change (sourcesOf _ >>= fun sources =>
        gather paths (found.add (.str (paths.arrayOf name)) sources) es) = .ok all
      rw [sourcesOf_eq hpayload.hits.forall_row]
      exact hall
    · simpa [Value.asText?] using hcollects

/-- What is read of the inner hits of a hit: their sources, under their arrays. -/
theorem innerSources_collects (paths : HitPaths) {hit : Value} (h : hit.IsHit) :
    ∃ found, innerSources paths hit = .ok found ∧ found.Collects paths hit.namedHits := by
  obtain ⟨found, hfound, hcollects⟩ := gather_collects h.answers (.nil paths)
  refine ⟨found, ?_, hcollects⟩
  obtain ⟨es, rfl⟩ := h.object
  unfold innerSources
  change ((Value.dict es).inside "inner_hits").orObject.demandEntries >>= _ = _
  rw [Value.orObject_demandEntries h.inner]
  exact hfound

/-! ## Answers to clauses -/

/-- The sources that are answered under a name. -/
def answered (named : List (String × Value)) (name : String) : List Value :=
  ((List.lookup name named).map payloadSources).getD []

/-- The inner hits of a hit stand under names that are asked for, each under its own. -/
structure Value.Answers (hit : Value) (requests : List HitRequest) : Prop where
  known : ∀ e ∈ hit.namedHits, e.1 ∈ requests.map (·.name)
  apart : (hit.namedHits.map (·.1)).Nodup

theorem flatMap_filter_of_eq_nil {α β : Type} {p : α → Bool} {f : α → List β} {xs : List α}
    (h : ∀ x ∈ xs, p x = false → f x = []) : (xs.filter p).flatMap f = xs.flatMap f := by
  induction xs with
  | nil => rfl
  | cons x xs ih =>
    rw [List.forall_mem_cons] at h
    rw [List.filter_cons, List.flatMap_cons]
    cases hx : p x with
    | true => simp [ih h.2]
    | false => simp [ih h.2, h.1 hx]

theorem answered_eq_nil {named : List (String × Value)} {name : String}
    (h : name ∉ named.map (·.1)) : answered named name = [] := by
  have hnone : List.lookup name named = none := by
    rw [List.lookup_eq_none_iff]
    intro e he
    rw [bne_iff_ne]
    rintro rfl
    exact h (List.mem_map_of_mem he)
  unfold answered
  rw [hnone]
  rfl

/-- Rows of names hold the same answers if they hold the same of the names that are answered. -/
theorem perm_flatMap_answered {named : List (String × Value)} {names others : List String}
    (hn : names.Nodup) (ho : others.Nodup)
    (hsame : ∀ name ∈ named.map (·.1), name ∈ names ↔ name ∈ others) :
    (names.flatMap (answered named)).Perm (others.flatMap (answered named)) := by
  have hheld : ∀ names : List String,
      (names.filter fun name => name ∈ named.map (·.1)).flatMap (answered named) =
        names.flatMap (answered named) := fun names =>
    flatMap_filter_of_eq_nil fun name _ hname => answered_eq_nil (by simpa using hname)
  rw [← hheld names, ← hheld others]
  refine List.Perm.flatMap_right _ ?_
  rw [List.perm_ext_iff_of_nodup (hn.filter _) (ho.filter _)]
  intro name
  simp only [List.mem_filter, decide_eq_true_eq]
  exact and_congr_left fun hname => hsame name hname

theorem HitPaths.arrayOf_request {requests : List HitRequest}
    (hnames : (requests.map (·.name)).Nodup) {q : HitRequest} (hq : q ∈ requests) :
    arrayOf (requests.map fun q => (q.name, q.path)) q.name = q.path := by
  have hlookup : List.lookup q.name (requests.map fun q => (q.name, q.path)) = some q.path :=
    Schema.lookup_of_mem (by simpa [List.map_map, Function.comp_def] using hnames)
      (List.mem_map.mpr ⟨q, hq, rfl⟩)
  unfold arrayOf
  rw [hlookup]
  rfl

/-- Under an array stand the answers to the clauses of the array, all of them and no others. -/
theorem InnerSources.Collects.perm_requested {found : InnerSources} {paths : HitPaths}
    {hit : Value} {requests : List HitRequest} (h : found.Collects paths hit.namedHits)
    (hpaths : paths = requests.map fun q => (q.name, q.path))
    (hnames : (requests.map (·.name)).Nodup) (hanswers : hit.Answers requests) (path : String) :
    ((found.at? path).getD []).Perm ((requests.filter fun q => q.path = path).flatMap
      fun q => answered hit.namedHits q.name) := by
  obtain ⟨hknown, happart⟩ := hanswers
  generalize hit.namedHits = named at h hknown happart ⊢
  -- Both rows hold what is answered under some names: the names that stand for the array, and
  -- those that the clauses of the array ask for.
  have hfound : (found.at? path).getD [] =
      ((named.filter fun e => paths.arrayOf e.1 = path).map (·.1)).flatMap (answered named) := by
    rw [h.at?_getD, List.flatMap_map]
    refine List.flatMap_congr fun e he => ?_
    unfold answered
    rw [Schema.lookup_of_mem happart (List.mem_filter.mp he).1]
    rfl
  have hasked : ((requests.filter fun q => q.path = path).flatMap fun q => answered named q.name) =
      ((requests.filter fun q => q.path = path).map (·.name)).flatMap (answered named) := by
    rw [List.flatMap_map]
  rw [hfound, hasked]
  refine perm_flatMap_answered (happart.sublist (List.filter_sublist.map _))
    (hnames.sublist (List.filter_sublist.map _)) fun name hname => ?_
  obtain ⟨e, he, rfl⟩ := List.mem_map.mp hname
  obtain ⟨q, hq, hqname⟩ := List.mem_map.mp (hknown e he)
  have harray : paths.arrayOf e.1 = q.path := by
    rw [hpaths, ← hqname]
    exact HitPaths.arrayOf_request hnames hq
  simp only [List.mem_map, List.mem_filter, decide_eq_true_eq]
  constructor
  · rintro ⟨e', ⟨-, hpath⟩, heq⟩
    exact ⟨q, ⟨hq, by rw [← harray, ← heq, hpath]⟩, hqname⟩
  · rintro ⟨q', ⟨hq', hpath⟩, heq⟩
    have hsame : q' = q := List.inj_on_of_nodup_map hnames hq' hq (heq.trans hqname.symm)
    exact ⟨e, ⟨he, by rw [harray, ← hsame, hpath]⟩, rfl⟩

/-! ## Inner hits of an outcome -/

namespace ResultReader

open Logged

/-- **Inner hits are attributed to their arrays.** The outcome of a reply has one entry for each
hit that becomes a document, in order. Under an array stand, in the order of the reply, the sources
of the names that the request maps to the array, and only the arrays of names that occur are there;
so as many sources are kept as there are. Where the engine answers under the names that the clauses
ask for, the sources under an array are those for its clauses. With a logger that works there is an
outcome unless a number in the reply is none. -/
theorem ofReply_innerHits (r : ResultReader) {d : QueryDraft} {set : QuerySettings}
    {request : SearchRequest} (hbuild : d.build set = .ok request) {reply : Reply}
    {hits : List Value} (hhits : hitsOf reply.entries = .ok hits)
    (hform : ∀ hit ∈ hits, hit.IsHit) (logger : Logger) (lines : List LogLine) :
    (logger.IsWorking → (Succeeds (r.ofReply request reply logger) lines ↔
      (∃ failed, failedShards reply.entries = .ok failed) ∧
        ∃ total, totalOf reply.entries = .ok total)) ∧
    ∀ o later, Gives (r.ofReply request reply logger) lines o later →
      List.Forall₂ (fun hit document => r.documentOf hit = .ok document) (hits.filter r.keeps)
        o.documents ∧
      List.Forall₂ (fun (hit : Value) (found : InnerSources) =>
          found.Collects request.hitPaths hit.namedHits ∧
          (hit.Answers request.hitRequests → ∀ path, ((found.at? path).getD []).Perm
            ((request.hitRequests.filter fun q => q.path = path).flatMap fun q =>
              answered hit.namedHits q.name)))
        (hits.filter r.keeps) o.innerHits := by
  constructor
  · intro hl
    refine ofReply_succeeds_iff hhits (fun lines => ?_) lines
    refine collect_succeeds hl (fun hit hhit => (hform hit hhit).object) (fun hit hhit => ?_) lines
    obtain ⟨found, hfound, -⟩ := innerSources_collects request.hitPaths (hform hit hhit)
    exact ⟨found, hfound⟩
  · intro o later h
    obtain ⟨-, -, hits', found, hhits', hdocuments, hinner, hreads⟩ := ofReply_gives h
    cases hhits.symm.trans hhits'
    rw [hdocuments, hinner, List.forall₂_map_right_iff, List.forall₂_map_right_iff]
    refine ⟨hreads.imp fun hit entry hread => hread.1, ?_⟩
    have hforms : ∀ hit ∈ hits.filter r.keeps, hit.IsHit := fun hit hhit =>
      hform hit (List.mem_filter.mp hhit).1
    refine ((List.forall₂_and_left _ _).mpr ⟨hforms, hreads⟩).imp fun hit entry hentry => ?_
    obtain ⟨hhit, -, hread⟩ := hentry
    obtain ⟨inner, heq, hcollects⟩ := innerSources_collects request.hitPaths hhit
    cases heq.symm.trans hread
    refine ⟨hcollects, fun hanswers path => ?_⟩
    have hnames := QueryDraft.namesHits_of_request (QueryDraft.build_eq_ok_iff.mp hbuild).1
    exact hcollects.perm_requested hnames.paths hnames.distinct hanswers path

/-- A second clause on one array, a clause on another array, and a hit that is left out. -/
theorem ofReply_innerHits_crossing :
    let set : QuerySettings := ⟨⟨.empty, none, none⟩, .any, standardTimeZone, .standard, none⟩
    let asks (path : String) : Clause :=
      .plain .terms ⟨path ++ ".label", .keyword, some path⟩ (.list [.str "red"])
    let d : QueryDraft := { QueryDraft.empty with
      must := [asks "items", asks "items", asks "items_1"] }
    let source (label : String) : Value := .object [("_source", .object [("label", .str label)])]
    let answer (labels : List String) : Value :=
      .object [("hits", .object [("hits", .list (labels.map source))])]
    let hit : Value := .object [("_source", .object [("id", .str "a")]), ("inner_hits", .object
      [("items_1", answer ["red"]), ("items_1_1", answer ["tall"]), ("items", answer ["blue"])])]
    let reply := Reply.ofBody (.object [("hits", .object [("hits", .list
      [.object [("_source", .int 5)], hit])])])
    let r : ResultReader := ⟨.empty, .absent, "id", none⟩
    ∃ request o later found, d.build set = .ok request ∧
      Gives (r.ofReply request reply .complete) [] o later ∧ o.innerHits = [found] ∧
      found.at? "items" = some [.object [("label", .str "red")], .object [("label", .str "blue")]] ∧
      found.at? "items_1" = some [.object [("label", .str "tall")]] := by
  intro set asks d source answer hit reply r
  obtain ⟨request, hbuild⟩ : ∃ request, d.build set = .ok request := ⟨_, rfl⟩
  have hpaths : request.hitPaths =
      [("items", "items"), ("items_1", "items"), ("items_1_1", "items_1")] := by
    rw [(QueryDraft.clauses_of_request (QueryDraft.build_eq_ok_iff.mp hbuild).1).2.1]
    rfl
  have hhits : hitsOf reply.entries = .ok [.object [("_source", .int 5)], hit] := rfl
  have hpayload : ∀ labels, (answer labels).IsPayload := fun labels =>
    ⟨.inr ⟨_, rfl⟩, .inr ⟨_, rfl⟩, .inr ⟨_, rfl, fun x hx => by
      obtain ⟨label, -, rfl⟩ := List.mem_map.mp hx
      exact ⟨_, rfl⟩⟩⟩
  have hform : ∀ h ∈ [Value.object [("_source", .int 5)], hit], h.IsHit := by
    have hanswers : ∀ e ∈ hit.innerEntries, (∃ name, e.1 = .str name) ∧ e.2.IsPayload :=
      List.forall_mem_cons.mpr ⟨⟨⟨_, rfl⟩, hpayload _⟩, List.forall_mem_cons.mpr
        ⟨⟨⟨_, rfl⟩, hpayload _⟩, List.forall_mem_singleton.mpr ⟨⟨_, rfl⟩, hpayload _⟩⟩⟩
    refine List.forall_mem_cons.mpr ⟨⟨⟨_, rfl⟩, .inl rfl, ?_⟩,
      List.forall_mem_singleton.mpr ⟨⟨_, rfl⟩, .inr ⟨_, rfl⟩, hanswers⟩⟩
    exact fun e he => absurd he List.not_mem_nil
  obtain ⟨hsucceeds, hgives⟩ := ofReply_innerHits r hbuild hhits hform .complete []
  obtain ⟨o, later, ho⟩ := (hsucceeds fun _ => ⟨true, rfl⟩).mpr ⟨⟨0, rfl⟩, _, rfl⟩
  obtain ⟨-, hinner⟩ := hgives o later ho
  have hkept : [Value.object [("_source", .int 5)], hit].filter r.keeps = [hit] := rfl
  rw [hkept] at hinner
  obtain ⟨found, rest, ⟨hcollects, -⟩, hrest, hfound⟩ := List.forall₂_cons_left_iff.mp hinner
  rw [List.forall₂_nil_left_iff.mp hrest] at hfound
  rw [hpaths] at hcollects
  exact ⟨request, o, later, found, hbuild, ho, hfound, hcollects.sources "items",
    hcollects.sources "items_1"⟩

end ResultReader

end TypedSearch
