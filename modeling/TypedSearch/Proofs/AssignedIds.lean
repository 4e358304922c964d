import TypedSearch.Context.Search
import TypedSearch.Proofs.DocumentRuns
import TypedSearch.Proofs.ReplyReading

/-!
# Entities that are stored without an id

The engine gives an id to a document that comes without one. The document of an entity holds all
fields of its class, also those that are null, so the place of the id is taken when the document is
read back: the entity that is read is the one that was stored, and it still has no id. It cannot be
updated.

* `Memory.search_yields`: the outcome of a search in the engine in memory.
* `SearchContext.IsReadWithoutId`: an entity is read from a place and has no id.
* `SearchContext.read_without_id`: an entity that is stored without an id is read without one.
-/

namespace TypedSearch

open Logged

/-! ## Searches in memory -/

theorem Work.Yields.ofLogged {σ α : Type} {x : Logged α} {P : α → Prop}
    (hx : ∀ lines, Succeeds x lines) (hP : ∀ lines a later, Gives x lines a later → P a)
    (state : σ) : Yields (Work.ofLogged x) state P state := by
  intro w hw
  obtain ⟨a, later, h⟩ := hx w.lines
  refine ⟨a, { w with lines := later }, ?_, hw, hP w.lines a later h⟩
  change ((x.run.run w.lines).1, { w with lines := (x.run.run w.lines).2 }) = _
  rw [h]

namespace Memory

variable {m : Memory} {logger : Logger}

theorem hitsOf_searchBody (hits : List Value) :
    hitsOf (Reply.ofBody (searchBody hits)).entries = .ok hits := by
  cases hits <;> rfl

theorem innerSources_hit (paths : HitPaths) (d : StoredDocument) :
    innerSources paths (hit d) = .ok [] := rfl

theorem mem_documents_of_find? {index id : String} {document : Value}
    (h : m.find? index id = some document) : ⟨index, id, document⟩ ∈ m.documents := by
  obtain ⟨d, hd, rfl⟩ := Option.map_eq_some_iff.mp h
  obtain ⟨rfl, rfl⟩ := isAt_iff.mp (by simpa using List.find?_some hd)
  exact List.mem_of_find?_eq_some hd

/-- A search of an index has an outcome. Its documents are what the documents of the index are
read as, in order and without those that cannot be read. -/
theorem search_yields (hl : logger.IsWorking) (ctx : SearchContext) (model : ModelRef)
    (request : SearchRequest) (seconds : Value) (m : Memory) :
    Work.Yields (ctx.search answer logger request model seconds) m (fun o =>
      List.Forall₂ (fun hit document => (ctx.reader model).documentOf hit = .ok document)
        (((m.documents.filter fun d => request.index.asText? == some d.index).map hit).filter
          (ctx.reader model).keeps) o.documents) m := by
  let hits := (m.documents.filter fun d => request.index.asText? == some d.index).map hit
  have hread : ∀ lines, Succeeds
      ((ctx.reader model).ofReply request (.ofBody (searchBody hits)) logger) lines := by
    intro lines
    refine (ResultReader.ofReply_succeeds lines).mpr
      ⟨⟨0, rfl⟩, ⟨hits, hitsOf_searchBody hits, ?_⟩, ⟨_, rfl⟩⟩
    rw [ResultReader.collect_succeeds_iff hl]
    intro h hh
    obtain ⟨d, -, rfl⟩ := List.mem_map.mp hh
    exact ⟨⟨_, rfl⟩, fun _ => ⟨[], innerSources_hit _ d⟩⟩
  have hpart : Work.Yields (Work.ofLogged
      ((ctx.reader model).ofReply request (.ofBody (searchBody hits)) logger)) m (fun o =>
        List.Forall₂ (fun hit document => (ctx.reader model).documentOf hit = .ok document)
          (hits.filter (ctx.reader model).keeps) o.documents) m := by
    refine .ofLogged hread (fun lines o later ho => ?_) m
    obtain ⟨-, -, hits', found, hhits, hdocuments, -, hfound⟩ := ResultReader.ofReply_gives ho
    rw [hitsOf_searchBody, Except.ok.injEq] at hhits
    subst hhits
    rw [hdocuments, List.forall₂_map_right_iff]
    exact hfound.imp fun _ _ h => h.1
  have hanswer : answer (.search request.index request.bodyEntries) m =
      (.ok (.ofBody (searchBody hits)), m) := rfl
  unfold SearchContext.search
  dsimp only
  -- the time that is allowed is recorded, and the engine does not look at it
  generalize (if seconds.isTruthy = true then seconds else request.timeout) = allowed
  split
  · refine (Work.Leads.record _ m).bind_yields ((Work.Leads.ask_ok hanswer).bind_yields ?_)
    exact hpart
  · refine (Work.Leads.ask_ok hanswer).bind_yields ?_
    exact hpart

end Memory

/-! ## Entities without an id -/

namespace SearchContext

variable {ctx : SearchContext} {root target id : String} {logger : Logger} {m : Memory} {e : Value}

/-- The entity is what a place of the engine is read as, by the id of the place and by searches of
its index. It has no id itself, so it cannot be updated. -/
structure IsReadWithoutId (ctx : SearchContext) (logger : Logger) (root target id : String)
    (m : Memory) (e : Value) : Prop where
  got : ∀ index, ctx.resolveIndex index = .ok target →
    Work.Leads (ctx.get Memory.answer logger id (.type (.named root)) index) m (.ok e) m
  listed : ⟨target, id, ctx.documentOf e⟩ ∈ m.documents
  hit : (ctx.reader (.type (.named root))).documentOf
    (Memory.hit ⟨target, id, ctx.documentOf e⟩) = .ok e
  searched : ∀ request seconds, request.index.asText? = some target →
    Work.Yields (ctx.search Memory.answer logger request (.type (.named root)) seconds) m
      (fun o => e ∈ o.documents) m
  without : ctx.documentId e = none
  refused : ∀ index place, ctx.resolveIndex index = .ok place →
    Work.Leads (ctx.update Memory.answer logger e index) m
      (.error (.missingId e.typeName ctx.defaults.appId)) m

/-- The id of the place does not get into the entity, as the document has the null of the entity
where its id would be. -/
theorem documentOf_hit (hk : ctx.schema.KeepsEntities ctx.defaults.naming root)
    (he : ctx.schema.Inhabits (.named root) e) (target id : String) :
    (ctx.reader (.type (.named root))).documentOf
      (Memory.hit ⟨target, id, ctx.documentOf e⟩) = .ok e :=
  (document_eq hk he).2.2 ctx.defaults.appId (.str id)

/-- A search of an index finds the entities that stand in it. -/
theorem search_finds (hk : ctx.schema.KeepsEntities ctx.defaults.naming root)
    (hl : logger.IsWorking) (he : ctx.schema.Inhabits (.named root) e)
    (hlisted : ⟨target, id, ctx.documentOf e⟩ ∈ m.documents) {request : SearchRequest}
    (hrequest : request.index.asText? = some target) (seconds : Value) :
    Work.Yields (ctx.search Memory.answer logger request (.type (.named root)) seconds) m
      (fun o => e ∈ o.documents) m := by
  intro w hw
  obtain ⟨o, w', hrun, hw', hdocuments⟩ := Memory.search_yields hl ctx _ request seconds m w hw
  refine ⟨o, w', hrun, hw', ?_⟩
  have hread := documentOf_hit hk he target id
  have hkept : Memory.hit ⟨target, id, ctx.documentOf e⟩ ∈
      ((m.documents.filter fun d => request.index.asText? == some d.index).map Memory.hit).filter
        (ctx.reader (.type (.named root))).keeps := by
    refine List.mem_filter.mpr ⟨List.mem_map.mpr ⟨_, List.mem_filter.mpr ⟨hlisted, ?_⟩, rfl⟩, ?_⟩
    · simp [hrequest]
    · exact ResultReader.keeps_iff.mpr ⟨e, hread⟩
  obtain ⟨document, hmem, hdocument⟩ := Schema.exists_of_forall₂ hdocuments hkept
  rw [hread, Except.ok.injEq] at hdocument
  exact hdocument ▸ hmem

theorem update_leads_missingId (he : ctx.documentId e = none) {index : Option String}
    (htarget : ctx.resolveIndex index = .ok target) (m : Memory) :
    Work.Leads (ctx.update Memory.answer logger e index) m
      (.error (.missingId e.typeName ctx.defaults.appId)) m := by
  unfold update
  rw [he]
  exact .bind (.ofExcept htarget m) (.throw _ m)

/-- Wherever the document of an entity without an id is found, the entity is read without one. -/
theorem isReadWithoutId_of_find? (hk : ctx.schema.KeepsEntities ctx.defaults.naming root)
    (hl : logger.IsWorking) (he : ctx.schema.Inhabits (.named root) e)
    (hid : ctx.documentId e = none) (hfound : m.find? target id = some (ctx.documentOf e)) :
    ctx.IsReadWithoutId logger root target id m e where
  got := fun _ htarget => get_leads_found hk hl he htarget hfound
  listed := Memory.mem_documents_of_find? hfound
  hit := documentOf_hit hk he target id
  searched := fun _ seconds hrequest =>
    search_finds hk hl he (Memory.mem_documents_of_find? hfound) hrequest seconds
  without := hid
  refused := fun _ _ hplace => update_leads_missingId hid hplace m

/-- The places of entities that are stored in bulk, and the state behind it. -/
def storedIn (ctx : SearchContext) (target : String) (es : List Value) (m : Memory) :
    List (String × String) × Memory :=
  m.storeAll (es.map fun e => ⟨target, ctx.documentId e, ctx.documentOf e⟩)

/-- **An entity that is stored without an id is read back without one, so it cannot be updated.**
The engine chooses an id, and the entity can be read by it, but neither what is read nor what a
search finds has got the id. In bulk the same holds of every entity whose place is not taken by a
later one. -/
theorem read_without_id (hk : ctx.schema.KeepsEntities ctx.defaults.naming root)
    (hl : logger.IsWorking) {index : Option String} (htarget : ctx.resolveIndex index = .ok target)
    (m : Memory) :
    (∀ e, ctx.schema.Inhabits (.named root) e → ctx.documentId e = none →
      Work.Leads (ctx.store Memory.answer logger e index) m (.ok true)
          (m.store target none (ctx.documentOf e)).2 ∧
        ctx.IsReadWithoutId logger root target (m.store target none (ctx.documentOf e)).1
          (m.store target none (ctx.documentOf e)).2 e) ∧
    ∀ entities es, entities.elements = .ok es → (∀ e ∈ es, ctx.schema.Inhabits (.named root) e) →
      Work.Leads (ctx.storeMany Memory.answer logger entities index) m (.ok true)
          (ctx.storedIn target es m).2 ∧
        ∀ i e, es[i]? = some e → ctx.documentId e = none →
          ∃ id, (ctx.storedIn target es m).1[i]? = some (target, id) ∧
            ((target, id) ∉ (ctx.storedIn target es m).1.drop (i + 1) →
              ctx.IsReadWithoutId logger root target id (ctx.storedIn target es m).2 e) := by
  constructor
  · intro e he hid
    have hstored := store_leads_placed hk hl he htarget m
    rw [hid] at hstored
    refine ⟨hstored, isReadWithoutId_of_find? hk hl he hid ?_⟩
    rw [Memory.find?_store, if_pos ⟨rfl, rfl⟩]
  · intro entities es helements hes
    refine ⟨storeMany_leads_placed hk hl helements hes htarget m, fun i e hi hid => ?_⟩
    have hitem : (es.map fun e => (⟨target, ctx.documentId e, ctx.documentOf e⟩ : BulkItem))[i]? =
        some ⟨target, ctx.documentId e, ctx.documentOf e⟩ := by
      rw [List.getElem?_map, hi, Option.map_some]
    obtain ⟨id, hplace, hfound⟩ := Memory.find?_storeAll (m := m) hitem
    have he : ctx.schema.Inhabits (.named root) e := hes e (List.mem_of_getElem? hi)
    exact ⟨id, hplace, fun hlast => isReadWithoutId_of_find? hk hl he hid (hfound hlast)⟩

/-- Persons whose id may be missing: one without an id is stored alone, and another one in bulk
behind a person with an id. -/
theorem read_without_id_persons :
    let person : ClassDecl TypeExpr := ⟨"Person", .model, none,
      [⟨"id", .union [.basic .text, .null], some .null, none, none, none⟩,
        ⟨"full_name", .basic .text, none, none, none, none⟩], [], false⟩
    let s : Schema := ⟨[person], [], [], .strict⟩
    let f : Naming := Naming.ofFunction fun name => "d_" ++ name
    let ctx : SearchContext :=
      ⟨s, { SearchDefaults.standard with index := some "people", naming := some f }⟩
    let known : Value := .entity .model "Person" [("id", .str "7"), ("full_name", .str "Ada")]
    let unknown : Value := .entity .model "Person" [("id", .null), ("full_name", .str "Bo")]
    let crowd : Value := .list [known, unknown]
    let m : Memory := .empty
    let alone : Memory := (m.store "people" none (ctx.documentOf unknown)).2
    let together : Memory := (ctx.storedIn "people" [known, unknown] m).2
    ctx.schema.KeepsEntities ctx.defaults.naming "Person" ∧ Logger.complete.IsWorking ∧
      ctx.resolveIndex none = .ok "people" ∧ ctx.schema.Inhabits (.named "Person") unknown ∧
      ctx.documentId unknown = none ∧ crowd.elements = .ok [known, unknown] ∧
      Work.Leads (ctx.store Memory.answer .complete unknown none) m (.ok true) alone ∧
      ctx.IsReadWithoutId .complete "Person" "people" "auto-1" alone unknown ∧
      Work.Leads (ctx.storeMany Memory.answer .complete crowd none) m (.ok true) together ∧
      ctx.IsReadWithoutId .complete "Person" "people" "auto-1" together unknown := by
  intro person s f ctx known unknown crowd m alone together
  have hperson : s.settledFields "Person" =
      [⟨"id", .union [.basic .text, .null], some .null, none, none, none⟩,
        ⟨"full_name", .basic .text, none, none, none, none⟩] := by rfl
  have hmodel : s.isModel "Person" = true := by rfl
  have hnames : s.classNames = ["Person"] := by rfl
  have hpersons : s.KeepsEntities (some f) "Person" := by
    refine Schema.keepsEntities_of_classNames hmodel (.model hmodel rfl rfl)
      (neverFails_ofFunction _) ?_ ?_
    · rw [hnames, List.forall_mem_singleton, hperson]
      simp only [List.forall_mem_cons]
      exact ⟨⟨.optional (Or.inl rfl) rfl (.basic (by decide)), by decide, rfl⟩,
        ⟨.basic (by decide), by decide, rfl⟩, nofun⟩
    · have hkeys : s.storedKey "Person" "id" = "id" ∧
          s.storedKey "Person" "full_name" = "full_name" := ⟨rfl, rfl⟩
      rw [hnames, List.forall_mem_singleton]
      refine ⟨_, rfl, ?_⟩
      constructor <;> simp [hkeys]
  have hk : ctx.schema.KeepsEntities ctx.defaults.naming "Person" := hpersons
  have hl : Logger.complete.IsWorking := fun _ => ⟨true, rfl⟩
  have hunknown : s.Inhabits (.named "Person") unknown := by
    refine .of_attributes hmodel ?_
    rw [hperson]
    exact .cons ⟨rfl, .absent⟩ (.cons ⟨rfl, .scalar rfl⟩ .nil)
  have hknown : s.Inhabits (.named "Person") known := by
    refine .of_attributes hmodel ?_
    rw [hperson]
    exact .cons ⟨rfl, .present List.mem_cons_self rfl (.scalar rfl)⟩
      (.cons ⟨rfl, .scalar rfl⟩ .nil)
  have htarget : ctx.resolveIndex none = .ok "people" := rfl
  obtain ⟨hone, hmany⟩ := read_without_id hk hl htarget m
  obtain ⟨hstored, hread⟩ := hone unknown hunknown rfl
  have hfirst : "auto-" ++ Nat.repr 1 = "auto-1" := by decide
  have hchosen : (m.store "people" none (ctx.documentOf unknown)).1 = "auto-1" :=
    Eq.trans rfl hfirst
  rw [hchosen] at hread
  obtain ⟨hstoredAll, hreadAll⟩ := hmany crowd _ rfl (by simpa using ⟨hknown, hunknown⟩)
  have hplaces : (ctx.storedIn "people" [known, unknown] m).1 =
      [("people", "7"), ("people", "auto-1")] := by
    rw [← hfirst]
    rfl
  obtain ⟨id, hplace, hlast⟩ := hreadAll 1 unknown rfl rfl
  rw [hplaces] at hplace hlast
  obtain rfl : "auto-1" = id := congrArg Prod.snd (Option.some.inj hplace)
  exact ⟨hk, hl, htarget, hunknown, rfl, rfl, hstored, hread, hstoredAll, hlast (by simp)⟩

end SearchContext

end TypedSearch
