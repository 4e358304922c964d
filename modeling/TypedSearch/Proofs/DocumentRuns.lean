import TypedSearch.Proofs.MemoryStore
import TypedSearch.Proofs.RoundTrip
import TypedSearch.Proofs.WorkCalls

/-!
# Runs of calls about documents

Entities of a model are stored, stored in bulk and changed in the engine in memory, in any order. A
journal tells what has been written and where. What the engine holds is at any time what the
journal says, so an entity that is read back is the one that was written last.

* `DocumentCall.expected`: the answer of a call, and what it writes.
* `Agrees`: the engine holds what the journal says.
* `DocumentCall.perform_leads`: a call does what is expected, and the engine agrees afterwards.
* `DocumentCall.get_after_run`: what is read after a run.
-/

namespace TypedSearch

/-! ## Journals -/

/-- An entity that was written, and where. -/
structure Write where
  index : String
  id : String
  entity : Value

/-- What has been written, the latest first. -/
abbrev Journal := List Write

/-- The entity that was written last under an index and an id. -/
def Journal.last? (journal : Journal) (index id : String) : Option Value :=
  (journal.find? fun w => w.index == index && w.id == id).map (·.entity)

/-- The application's id of an entity, if it is a text. -/
def SearchContext.idOf (ctx : SearchContext) (entity : Value) : String :=
  match entity.getAttribute? ctx.defaults.appId with
  | some (.str id) => id
  | _ => ""

/-- An entity is written to an index under its id. -/
def SearchContext.writeTo (ctx : SearchContext) (index : String) (entity : Value) : Write :=
  ⟨index, ctx.idOf entity, entity⟩

/-- The value is an entity of the model with an id. -/
structure SearchContext.IsIdentified (ctx : SearchContext) (root : String) (entity : Value) :
    Prop where
  inhabits : ctx.schema.Inhabits (.named root) entity
  id : ctx.idOf entity ≠ ""

/-! ## Calls -/

/-- A call that writes documents, with the index it names. -/
inductive DocumentCall where
  | store (entity : Value) (index : Option String)
  | storeMany (entities : Value) (index : Option String)
  | update (entity : Value) (index : Option String)

namespace DocumentCall

/-- The index that the call names. -/
def index : DocumentCall → Option String
  | .store _ index | .storeMany _ index | .update _ index => index

/-- The entities that the call goes through. -/
def entities : DocumentCall → Except Fault (List Value)
  | .store e _ | .update e _ => .ok [e]
  | .storeMany es _ => es.elements

/-- The call is about entities of the model with ids. -/
def IsAbout (ctx : SearchContext) (root : String) (call : DocumentCall) : Prop :=
  ∃ es, call.entities = .ok es ∧ ∀ e ∈ es, ctx.IsIdentified root e

/-- The work of the call. -/
def perform {σ : Type} (ctx : SearchContext) (engine : Engine σ) (logger : Logger) :
    DocumentCall → Work σ Bool
  | .store e index => ctx.store engine logger e index
  | .storeMany es index => ctx.storeMany engine logger es index
  | .update e index => ctx.update engine logger e index

/-- The answer of a call behind a journal, and the journal behind the call. Without an index the
call fails. An update where nothing has been written is answered by false and writes nothing. Any
other call is answered by true and writes its entities in order. -/
def expected (ctx : SearchContext) (call : DocumentCall) (journal : Journal) :
    Except Fault Bool × Journal :=
  match ctx.resolveIndex call.index, call with
  | .error fault, _ => (.error fault, journal)
  | .ok target, .update e _ =>
    if (journal.last? target (ctx.idOf e)).isSome then (.ok true, ctx.writeTo target e :: journal)
    else (.ok false, journal)
  | .ok target, .store e _ => (.ok true, ctx.writeTo target e :: journal)
  | .ok target, .storeMany es _ =>
    (.ok true, ((es.elements.toOption.getD []).map (ctx.writeTo target)).reverse ++ journal)

/-- The answers of calls, one after the other, and the state behind them. What a call fails with is
its answer. -/
def runAll {τ : Type} (step : DocumentCall → τ → Except Fault Bool × τ) :
    List DocumentCall → τ → List (Except Fault Bool) × τ
  | [], state => ([], state)
  | call :: calls, state =>
    let (answer, next) := step call state
    let (answers, last) := runAll step calls next
    (answer :: answers, last)

end DocumentCall

/-! ## Agreement -/

namespace SearchContext

variable {ctx : SearchContext} {root : String} {m : Memory} {journal : Journal}

/-- The document of an entity that has one. -/
def documentOf (ctx : SearchContext) (e : Value) : Value := (ctx.document e).toOption.getD .null

/-- The engine holds the documents of the entities that were written last. -/
structure Agrees (ctx : SearchContext) (root : String) (m : Memory) (journal : Journal) : Prop where
  inhabits : ∀ w ∈ journal, ctx.schema.Inhabits (.named root) w.entity
  found : ∀ index id, m.find? index id = (journal.last? index id).map ctx.documentOf

theorem agrees_empty (ctx : SearchContext) (root : String) : ctx.Agrees root .empty [] where
  inhabits := fun w hw => by cases hw
  found := fun _ _ => rfl

theorem last?_writeTo (journal : Journal) (target index id : String) (e : Value) :
    Journal.last? (ctx.writeTo target e :: journal) index id =
      if target = index ∧ ctx.idOf e = id then some e else journal.last? index id := by
  unfold Journal.last?
  rw [List.find?_cons]
  by_cases hsame : target = index ∧ ctx.idOf e = id
  · simp [writeTo, hsame]
  · have hother : ((ctx.writeTo target e).index == index && (ctx.writeTo target e).id == id) = false := by
      rw [Bool.eq_false_iff, ne_eq, Bool.and_eq_true, beq_iff_eq, beq_iff_eq]
      exact hsame
    rw [hother, if_neg hsame]

/-- Storing the document of an entity keeps the engine and the journal in agreement. -/
theorem Agrees.put (h : ctx.Agrees root m journal) {e : Value}
    (he : ctx.schema.Inhabits (.named root) e) (target : String) :
    ctx.Agrees root (m.put target (ctx.idOf e) (ctx.documentOf e))
      (ctx.writeTo target e :: journal) where
  inhabits := List.forall_mem_cons.mpr ⟨he, h.inhabits⟩
  found := by
    intro index id
    rw [Memory.find?_put, last?_writeTo, h.found]
    split <;> rfl

theorem Agrees.inhabits_last (h : ctx.Agrees root m journal) {index id : String} {e : Value}
    (he : journal.last? index id = some e) : ctx.schema.Inhabits (.named root) e := by
  obtain ⟨w, hw, rfl⟩ := Option.map_eq_some_iff.mp he
  exact h.inhabits w (List.mem_of_find?_eq_some hw)

theorem documentId_of_idOf {e : Value} (h : ctx.idOf e ≠ "") :
    ctx.documentId e = some (ctx.idOf e) := by
  unfold documentId
  unfold idOf at h ⊢
  split at h
  · rename_i id hid
    rw [hid]
    rfl
  · exact absurd rfl h

theorem document_eq (hk : ctx.schema.KeepsEntities ctx.defaults.naming root) {e : Value}
    (he : ctx.schema.Inhabits (.named root) e) : ctx.document e = .ok (ctx.documentOf e) ∧
      ctx.schema.IsDocument ctx.defaults.naming root (ctx.documentOf e) ∧
      ∀ appId id, ctx.schema.restore ctx.defaults.naming appId (.type (.named root))
        (ctx.documentOf e) id = .ok e := by
  obtain ⟨d, hd, hdocument, hrestore⟩ := document_restored hk he
  have hself : ctx.documentOf e = d := by rw [documentOf, hd]; rfl
  rw [hself]
  exact ⟨hd, hdocument, hrestore⟩

/-! ## Single calls -/

variable {logger : Logger} {target : String} {e : Value}

/-- An entity with a document is stored by one call. -/
theorem store_does (hl : logger.IsWorking) {document : Value}
    (hdocument : ctx.document e = .ok document) {index : Option String}
    (htarget : ctx.resolveIndex index = .ok target) (m : Memory) :
    Work.Does (ctx.store Memory.answer logger e index) m [.store target (ctx.documentId e) document]
      (.ok true) (m.store target (ctx.documentId e) document).2 := by
  let given := (m.store target (ctx.documentId e) document).1
  have hanswer : Memory.answer (.store target (ctx.documentId e) document) m =
      (Memory.written target given (if (m.find? target given).isSome then "updated" else "created"),
        (m.store target (ctx.documentId e) document).2) := rfl
  unfold store
  refine .bind_silent (.ofExcept htarget m) (.bind_silent (.ofExcept hdocument m) ?_)
  refine .bind (.ask_ok hanswer) (.bind_silent (.write hl _ _ _) ?_)
  have hresult : ∀ found : Bool, (Reply.ofBody (.object (Memory.placeEntries target given ++
      [("result", .str (if found then "updated" else "created"))]))).hasResult
      ["created", "updated"] = true := by
    intro found
    cases found <;> rfl
  exact (hresult _).symm ▸ .pure _ _

/-- An entity is stored under its id, or under one that the engine chooses. -/
theorem store_leads_placed (hk : ctx.schema.KeepsEntities ctx.defaults.naming root)
    (hl : logger.IsWorking) (he : ctx.schema.Inhabits (.named root) e) {index : Option String}
    (htarget : ctx.resolveIndex index = .ok target) (m : Memory) :
    Work.Leads (ctx.store Memory.answer logger e index) m (.ok true)
      (m.store target (ctx.documentId e) (ctx.documentOf e)).2 :=
  (store_does hl (document_eq hk he).1 htarget m).leads

/-- An entity is stored under its id. -/
theorem store_leads (hk : ctx.schema.KeepsEntities ctx.defaults.naming root)
    (hl : logger.IsWorking) (he : ctx.IsIdentified root e) {index : Option String}
    (htarget : ctx.resolveIndex index = .ok target) (m : Memory) :
    Work.Leads (ctx.store Memory.answer logger e index) m (.ok true)
      (m.put target (ctx.idOf e) (ctx.documentOf e)) := by
  have hstore := store_leads_placed hk hl he.inhabits htarget m
  rwa [documentId_of_idOf he.id, Memory.store_some he.id] at hstore

/-- What is sent for an entity in a bulk call. -/
def bulkItem (ctx : SearchContext) (target : String) (e : Value) : BulkItem :=
  ⟨target, ctx.documentId e, ctx.documentOf e⟩

theorem bulkItems_eq {es : List Value} (hes : ∀ e ∈ es, ctx.document e = .ok (ctx.documentOf e))
    (target : String) : ctx.bulkItems target es = .ok (es.map (ctx.bulkItem target)) := by
  induction es with
  | nil => rfl
  | cons e es ih =>
    rw [List.forall_mem_cons] at hes
    rw [bulkItems, hes.1, ih hes.2]
    rfl

/-- Storing in bulk keeps the engine and the journal in agreement. -/
theorem Agrees.storeAll (h : ctx.Agrees root m journal) {es : List Value}
    (hes : ∀ e ∈ es, ctx.IsIdentified root e) (target : String) :
    ctx.Agrees root
      (m.storeAll (es.map fun e => ⟨target, some (ctx.idOf e), ctx.documentOf e⟩)).2
      ((es.map (ctx.writeTo target)).reverse ++ journal) := by
  induction es generalizing m journal with
  | nil => exact h
  | cons e es ih =>
    rw [List.forall_mem_cons] at hes
    rw [List.map_cons, Memory.storeAll, Memory.store_some hes.1.id, List.map_cons,
      List.reverse_cons, List.append_assoc]
    exact ih (h.put hes.1.inhabits target) hes.2

/-- Entities with documents are stored in order by one call; without entities none is made. -/
theorem storeMany_does (hl : logger.IsWorking) {entities : Value} {es : List Value}
    (helements : entities.elements = .ok es)
    (hes : ∀ e ∈ es, ctx.document e = .ok (ctx.documentOf e)) {index : Option String}
    (htarget : ctx.resolveIndex index = .ok target) (m : Memory) :
    Work.Does (ctx.storeMany Memory.answer logger entities index) m
      (if es.isEmpty then [] else [.storeAll (es.map (ctx.bulkItem target))]) (.ok true)
      (m.storeAll (es.map (ctx.bulkItem target))).2 := by
  have hitems : entities.elements.bind (ctx.bulkItems target) =
      .ok (es.map (ctx.bulkItem target)) := by
    rw [helements]
    exact bulkItems_eq hes target
  unfold storeMany
  refine .bind_silent (.ofExcept htarget m) (.bind_silent (.ofExcept hitems m) ?_)
  cases es with
  | nil => exact .bind_silent (.write hl _ _ _) (.pure _ _)
  | cons e es =>
    have hcall : Work.Does (Work.ask Memory.answer
        (.storeAll ((e :: es).map (ctx.bulkItem target)))) m _ _ _ := .ask_ok rfl
    exact hcall.bind (.bind_silent (.write hl _ _ _) (.pure _ _))

/-- Entities are stored in order, each under its id or under one that the engine chooses. -/
theorem storeMany_leads_placed (hk : ctx.schema.KeepsEntities ctx.defaults.naming root)
    (hl : logger.IsWorking) {entities : Value} {es : List Value}
    (helements : entities.elements = .ok es) (hes : ∀ e ∈ es, ctx.schema.Inhabits (.named root) e)
    {index : Option String} (htarget : ctx.resolveIndex index = .ok target) (m : Memory) :
    Work.Leads (ctx.storeMany Memory.answer logger entities index) m (.ok true)
      (m.storeAll (es.map (ctx.bulkItem target))).2 :=
  (storeMany_does hl helements (fun e he => (document_eq hk (hes e he)).1) htarget m).leads

/-- Entities are stored in order under their ids. -/
theorem storeMany_leads (hk : ctx.schema.KeepsEntities ctx.defaults.naming root)
    (hl : logger.IsWorking) {entities : Value} {es : List Value}
    (helements : entities.elements = .ok es) (hes : ∀ e ∈ es, ctx.IsIdentified root e)
    {index : Option String} (htarget : ctx.resolveIndex index = .ok target) (m : Memory) :
    Work.Leads (ctx.storeMany Memory.answer logger entities index) m (.ok true)
      (m.storeAll (es.map fun e => ⟨target, some (ctx.idOf e), ctx.documentOf e⟩)).2 := by
  have hids : es.map (ctx.bulkItem target) =
      es.map fun e => ⟨target, some (ctx.idOf e), ctx.documentOf e⟩ :=
    List.map_congr_left fun e he => by rw [bulkItem, documentId_of_idOf (hes e he).id]
  rw [← hids]
  exact storeMany_leads_placed hk hl helements (fun e he => (hes e he).inhabits) htarget m

/-- A document that is changed by one of the same model becomes that one. -/
theorem merge_documents {s : Schema} {naming : Option Naming} {d d' : Value}
    (hd : s.IsDocument naming root d) (hd' : s.IsDocument naming root d') :
    Memory.merge d d' = d' ∧
      ∃ same, Memory.changesNothing (d'.asEntries?.getD []) (d.asEntries?.getD []) = .ok same := by
  obtain ⟨hcomparable, fs, value, hfs, hwires, rfl⟩ := hd
  obtain ⟨hcomparable', fs', value', hfs', -, rfl⟩ := hd'
  rw [hfs, Except.ok.injEq] at hfs'
  subst hfs'
  rw [Value.isComparable] at hcomparable hcomparable'
  exact ⟨congrArg Value.dict (Memory.mergeEntries_row hwires value value'),
    Memory.changesNothing_isOk hcomparable' hcomparable⟩

/-- An entity changes the document that is there. -/
theorem update_leads (hk : ctx.schema.KeepsEntities ctx.defaults.naming root)
    (hl : logger.IsWorking) (h : ctx.Agrees root m journal) (he : ctx.IsIdentified root e)
    {index : Option String} (htarget : ctx.resolveIndex index = .ok target) {e' : Value}
    (hlast : journal.last? target (ctx.idOf e) = some e') :
    Work.Leads (ctx.update Memory.answer logger e index) m (.ok true)
      (m.put target (ctx.idOf e) (ctx.documentOf e)) := by
  have hfound : m.find? target (ctx.idOf e) = some (ctx.documentOf e') := by
    rw [h.found, hlast, Option.map_some]
  obtain ⟨hdocument, hnew, -⟩ := document_eq hk he.inhabits
  obtain ⟨-, hold, -⟩ := document_eq hk (h.inhabits_last hlast)
  obtain ⟨hmerge, same, hsame⟩ := merge_documents hold hnew
  have hanswer : Memory.answer (.update target (ctx.idOf e) (ctx.documentOf e)) m =
      (Memory.written target (ctx.idOf e) (if same then "noop" else "updated"),
        m.put target (ctx.idOf e) (ctx.documentOf e)) := by
    simp only [Memory.answer, hfound, hsame, hmerge]
  unfold update
  rw [documentId_of_idOf he.id]
  refine .bind (.ofExcept htarget m) (.bind (.ofExcept hdocument m) ?_)
  refine .bind (.ask_ok hanswer) (.bind (.write hl _ _ _) ?_)
  have hresult : (Reply.ofBody (.object (Memory.placeEntries target (ctx.idOf e) ++
      [("result", .str (if same then "noop" else "updated"))]))).hasResult
      ["updated", "noop"] = true := by
    cases same <;> rfl
  exact hresult.symm ▸ .pure _ _

/-- Without a document there is nothing to change. -/
theorem update_leads_false (hk : ctx.schema.KeepsEntities ctx.defaults.naming root)
    (hl : logger.IsWorking) (h : ctx.Agrees root m journal) (he : ctx.IsIdentified root e)
    {index : Option String} (htarget : ctx.resolveIndex index = .ok target)
    (hlast : journal.last? target (ctx.idOf e) = none) :
    Work.Leads (ctx.update Memory.answer logger e index) m (.ok false) m := by
  have hfound : m.find? target (ctx.idOf e) = none := by rw [h.found, hlast, Option.map_none]
  have hdocument := (document_eq hk he.inhabits).1
  have hanswer : Memory.answer (.update target (ctx.idOf e) (ctx.documentOf e)) m =
      (.error (Memory.missing [("error", .str "document_missing_exception")]), m) := by
    simp only [Memory.answer, hfound]
  unfold update
  rw [documentId_of_idOf he.id]
  refine .bind (.ofExcept htarget m) (.bind (.ofExcept hdocument m) ?_)
  exact .bind (.ask_refusal hanswer) (.bind (.write hl _ _ _) (.pure _ _))

/-- An entity is read back from its document, whatever its id. -/
theorem get_leads_found (hk : ctx.schema.KeepsEntities ctx.defaults.naming root)
    (hl : logger.IsWorking) (he : ctx.schema.Inhabits (.named root) e) {index : Option String}
    (htarget : ctx.resolveIndex index = .ok target) {id : String}
    (hfound : m.find? target id = some (ctx.documentOf e)) :
    Work.Leads (ctx.get Memory.answer logger id (.type (.named root)) index) m (.ok e) m := by
  have hname : ModelRef.className? (.type (.named root)) = .ok root := rfl
  have hanswer : Memory.answer (.get target id) m =
      (.ok (.ofBody (.object (Memory.placeEntries target id ++
        [("_source", ctx.documentOf e), ("found", .bool true)]))), m) := by
    simp only [Memory.answer, hfound]
  obtain ⟨-, -, hrestore⟩ := document_eq hk he
  unfold get
  refine .bind (.ofExcept htarget m) (.bind (.ofExcept hname m) (.bind (.ask_ok hanswer) ?_))
  refine .bind (.ofExcept ?_ m) (.bind (.write hl _ _ _) (.pure _ _))
  exact hrestore _ _

/-- The entity that was written last is read back. Where none was written, none is found. -/
theorem get_leads (hk : ctx.schema.KeepsEntities ctx.defaults.naming root)
    (hl : logger.IsWorking) (h : ctx.Agrees root m journal) {index : Option String}
    (htarget : ctx.resolveIndex index = .ok target) (id : String) :
    Work.Leads (ctx.get Memory.answer logger id (.type (.named root)) index) m
      (match journal.last? target id with
        | some e => .ok e
        | none => .error (.documentMissing root id)) m := by
  cases hlast : journal.last? target id with
  | none =>
    have hname : ModelRef.className? (.type (.named root)) = .ok root := rfl
    have hanswer : Memory.answer (.get target id) m =
        (.error (Memory.missing (Memory.placeEntries target id ++ [("found", .bool false)])), m) := by
      simp only [Memory.answer, h.found, hlast, Option.map_none]
    unfold get
    refine .bind (.ofExcept htarget m) (.bind (.ofExcept hname m) ?_)
    exact .bind (.ask_refusal hanswer) (.bind (.write hl _ _ _) (.throw _ _))
  | some e =>
    refine get_leads_found hk hl (h.inhabits_last hlast) htarget ?_
    rw [h.found, hlast, Option.map_some]

end SearchContext

/-! ## Runs -/

open Schema

namespace DocumentCall

variable {ctx : SearchContext} {root : String} {logger : Logger}

/-- A call is answered as expected, and the engine agrees with the journal behind it. -/
theorem perform_leads (hk : ctx.schema.KeepsEntities ctx.defaults.naming root)
    (hl : logger.IsWorking) {call : DocumentCall} (hcall : call.IsAbout ctx root) {m : Memory}
    {journal : Journal} (h : ctx.Agrees root m journal) :
    ∃ m', Work.Leads (call.perform ctx Memory.answer logger) m (call.expected ctx journal).1 m' ∧
      ctx.Agrees root m' (call.expected ctx journal).2 := by
  obtain ⟨es, hentities, hes⟩ := hcall
  cases htarget : ctx.resolveIndex call.index with
  | error fault =>
    refine ⟨m, ?_, by simpa only [expected, htarget] using h⟩
    have hanswer : (call.expected ctx journal).1 = .error fault := by simp only [expected, htarget]
    rw [hanswer]
    cases call <;> exact .bind_error (.ofExcept htarget m)
  | ok target =>
    cases call with
    | store e index =>
      obtain rfl := Except.ok.inj hentities
      have he := hes e (List.mem_singleton_self e)
      have htold : (DocumentCall.store e index).expected ctx journal =
          (.ok true, ctx.writeTo target e :: journal) := by simp only [expected, htarget]
      rw [htold]
      exact ⟨_, SearchContext.store_leads hk hl he htarget m, h.put he.inhabits target⟩
    | storeMany entities index =>
      have helements : entities.elements = .ok es := hentities
      have htold : (DocumentCall.storeMany entities index).expected ctx journal =
          (.ok true, (es.map (ctx.writeTo target)).reverse ++ journal) := by
        simp only [expected, htarget, helements]
        rfl
      rw [htold]
      exact ⟨_, SearchContext.storeMany_leads hk hl helements hes htarget m, h.storeAll hes target⟩
    | update e index =>
      obtain rfl := Except.ok.inj hentities
      have he := hes e (List.mem_singleton_self e)
      cases hlast : journal.last? target (ctx.idOf e) with
      | none =>
        have htold : (DocumentCall.update e index).expected ctx journal = (.ok false, journal) := by
          simp [expected, htarget, hlast]
        rw [htold]
        exact ⟨m, SearchContext.update_leads_false hk hl h he htarget hlast, h⟩
      | some e' =>
        have htold : (DocumentCall.update e index).expected ctx journal =
            (.ok true, ctx.writeTo target e :: journal) := by
          simp [expected, htarget, hlast]
        rw [htold]
        exact ⟨_, SearchContext.update_leads hk hl h he htarget hlast, h.put he.inhabits target⟩

/-- The calls made in a world. -/
abbrev made (ctx : SearchContext) (logger : Logger) (calls : List DocumentCall)
    (w : World Memory) : List (Except Fault Bool) × World Memory :=
  runAll (fun call => (call.perform ctx Memory.answer logger).run.run) calls w

/-- What is expected of the calls behind a journal. -/
abbrev told (ctx : SearchContext) (calls : List DocumentCall) (journal : Journal) :
    List (Except Fault Bool) × Journal :=
  runAll (expected ctx) calls journal

/-- All calls of a run are answered as expected, and the engine agrees with the journal behind
them. -/
theorem made_eq_told (hk : ctx.schema.KeepsEntities ctx.defaults.naming root)
    (hl : logger.IsWorking) {calls : List DocumentCall}
    (hcalls : ∀ call ∈ calls, call.IsAbout ctx root) {w : World Memory} {journal : Journal}
    (h : ctx.Agrees root w.state journal) :
    (made ctx logger calls w).1 = (told ctx calls journal).1 ∧
      ctx.Agrees root (made ctx logger calls w).2.state (told ctx calls journal).2 := by
  induction calls generalizing w journal with
  | nil => exact ⟨rfl, h⟩
  | cons call calls ih =>
    rw [List.forall_mem_cons] at hcalls
    obtain ⟨m, hleads, hagrees⟩ := perform_leads hk hl hcalls.1 h
    obtain ⟨w', hrun, hstate⟩ := hleads w rfl
    obtain ⟨hanswers, hlast⟩ := ih hcalls.2 (hstate ▸ hagrees)
    have hmade : made ctx logger (call :: calls) w = ((call.expected ctx journal).1 ::
        (made ctx logger calls w').1, (made ctx logger calls w').2) := by
      rw [made, runAll, hrun]
    rw [hmade]
    exact ⟨congrArg (_ :: ·) hanswers, hlast⟩

/-- **After any run of calls about entities of a model, an entity that is read back is the one that
was written last under its index and id. If none was written there, none is found.** The calls
themselves are answered as expected. -/
theorem get_after_run (hk : ctx.schema.KeepsEntities ctx.defaults.naming root)
    (hl : logger.IsWorking) {calls : List DocumentCall}
    (hcalls : ∀ call ∈ calls, call.IsAbout ctx root) {w : World Memory} (hw : w.state = .empty) :
    (made ctx logger calls w).1 = (told ctx calls []).1 ∧
      ∀ index target id, ctx.resolveIndex index = .ok target →
        ((ctx.get Memory.answer logger id (.type (.named root)) index).run.run
            (made ctx logger calls w).2).1 =
          match (told ctx calls []).2.last? target id with
          | some e => .ok e
          | none => .error (.documentMissing root id) := by
  have hstart : ctx.Agrees root w.state [] := hw ▸ SearchContext.agrees_empty ctx root
  obtain ⟨hanswers, hagrees⟩ := made_eq_told hk hl hcalls hstart
  refine ⟨hanswers, fun index target id htarget => ?_⟩
  obtain ⟨w', hrun, -⟩ := SearchContext.get_leads hk hl hagrees htarget id _ rfl
  rw [hrun]

/-- Boxes with parts: what is updated before it is stored is not there, and the entity that is stored
last under an id is the one that is read. -/
theorem get_after_run_boxes :
    let color : Enumeration := ⟨"Color", .text, [("RED", .str "red"), ("BLUE", .str "blue")], []⟩
    let part : ClassDecl TypeExpr := ⟨"Part", .model, none,
      [⟨"label", .basic .text, none, some "tag", none, none⟩,
        ⟨"tint", .union [.named "Color", .null], some .null, none, none, none⟩], [], false⟩
    let box : ClassDecl TypeExpr := ⟨"Box", .model, none,
      [⟨"id", .basic .text, none, none, none, none⟩,
        ⟨"parts", .apply .list [.named "Part"], none, none, none, none⟩,
        ⟨"content", .apply .dict [.basic .text, .any], none, none, none, none⟩], [], false⟩
    let s : Schema := ⟨[box, part], [color], [], .strict⟩
    let f : Naming := Naming.ofFunction fun name => "d_" ++ name
    let defaults := { SearchDefaults.standard with index := some "boxes", naming := some f }
    let ctx : SearchContext := ⟨s, defaults⟩
    let red : Value := .entity .model "Part"
      [("label", .str "lid"), ("tint", .member "Color" "RED" .text (.str "red"))]
    let plain : Value := .entity .model "Part" [("label", .str "rim"), ("tint", .null)]
    let first : Value := .entity .model "Box"
      [("id", .str "1"), ("parts", .list [red]), ("content", .dict [(.str "n", .list [.int 1])])]
    let last : Value := .entity .model "Box"
      [("id", .str "1"), ("parts", .list [plain, red]), ("content", .dict [])]
    let other : Value := .entity .model "Box"
      [("id", .str "2"), ("parts", .list []), ("content", .dict [])]
    let calls : List DocumentCall := [.update first none, .store first none,
      .storeMany (.list [other, last]) (some "boxes"), .update other (some "crates")]
    let w : World Memory := ⟨.empty, [], []⟩
    let read (id : String) (index : Option String) : Except Fault Value :=
      ((ctx.get Memory.answer .complete id (.type (.named "Box")) index).run.run
        (made ctx .complete calls w).2).1
    ctx.schema.KeepsEntities ctx.defaults.naming "Box" ∧ Logger.complete.IsWorking ∧
      (∀ call ∈ calls, call.IsAbout ctx "Box") ∧ w.state = .empty ∧
      (made ctx .complete calls w).1 = [.ok false, .ok true, .ok true, .ok false] ∧
      read "1" none = .ok last ∧ read "2" (some "crates") = .error (.documentMissing "Box" "2") := by
  intro color part box s f defaults ctx red plain first last other calls w read
  have hnames : s.classNames = ["Box", "Part"] := by rfl
  have hbox : s.settledFields "Box" = [⟨"id", .basic .text, none, none, none, none⟩,
      ⟨"parts", .apply .list [.named "Part"], none, none, none, none⟩,
      ⟨"content", .apply .dict [.basic .text, .any], none, none, none, none⟩] := by rfl
  have hpart : s.settledFields "Part" = [⟨"label", .basic .text, none, some "tag", none, none⟩,
      ⟨"tint", .union [.named "Color", .null], some .null, none, none, none⟩] := by rfl
  have hcolor : s.enumeration? "Color" = some color := by rfl
  have hmodel : s.isModel "Box" = true := by rfl
  have hmodelPart : s.isModel "Part" = true := by rfl
  have hchoice : color.IsChoice := ⟨by simp [color], by simp [color]⟩
  have hstorableColor : s.Storable (.named "Color") := .enumeration hcolor rfl hchoice
  have hstorablePart : s.Storable (.named "Part") := .model hmodelPart rfl rfl
  have hstorableBox : s.Storable (.named "Box") := .model hmodel rfl rfl
  have hn : NeverFails (some f) := by
    rintro g ⟨⟩ name
    exact ⟨"d_" ++ name, rfl⟩
  have hk : s.KeepsEntities (some f) "Box" := by
    refine keepsEntities_of_classNames hmodel hstorableBox hn ?_ ?_
    · rw [hnames, List.forall_mem_cons, List.forall_mem_singleton, hbox, hpart]
      simp only [List.forall_mem_cons]
      exact ⟨⟨⟨.basic (by decide), by decide, rfl⟩,
          ⟨.list (Or.inl rfl) hstorablePart, by decide, rfl⟩, ⟨.dict (Or.inl rfl), by decide, rfl⟩,
          nofun⟩, ⟨.basic (by decide), by decide, rfl⟩,
        ⟨.optional (Or.inl rfl) rfl hstorableColor, by decide, rfl⟩, nofun⟩
    · have hkeys : s.storedKey "Box" "id" = "id" ∧ s.storedKey "Box" "parts" = "parts" ∧
          s.storedKey "Box" "content" = "content" := ⟨rfl, rfl, rfl⟩
      have hkeysPart : s.storedKey "Part" "label" = "tag" ∧ s.storedKey "Part" "tint" = "tint" :=
        ⟨rfl, rfl⟩
      rw [hnames, List.forall_mem_cons, List.forall_mem_singleton]
      refine ⟨⟨_, rfl, ?_⟩, ⟨_, rfl, ?_⟩⟩
      · constructor <;> simp [hkeys]
      · constructor <;> simp [hkeysPart]
  have hred : s.Inhabits (.named "Part") red := by
    refine .of_attributes hmodelPart ?_
    rw [hpart]
    exact .cons ⟨rfl, .scalar rfl⟩ (.cons ⟨rfl, .present List.mem_cons_self rfl
      (.member hcolor List.mem_cons_self)⟩ .nil)
  have hplain : s.Inhabits (.named "Part") plain := by
    refine .of_attributes hmodelPart ?_
    rw [hpart]
    exact .cons ⟨rfl, .scalar rfl⟩ (.cons ⟨rfl, .absent⟩ .nil)
  have hentity : ∀ id parts content, (∀ p ∈ parts, s.Inhabits (.named "Part") p) →
      areJsonEntries content = true → id ≠ "" → ctx.IsIdentified "Box" (.entity .model "Box"
        [("id", .str id), ("parts", .list parts), ("content", .dict content)]) := by
    intro id parts content hparts hcontent hid
    refine ⟨.of_attributes hmodel ?_, hid⟩
    change List.Forall₂ _ (s.settledFields "Box") _
    rw [hbox]
    exact .cons ⟨rfl, .scalar rfl⟩ (.cons ⟨rfl, .list hparts⟩ (.cons ⟨rfl, .dict hcontent⟩ .nil))
  have hfirst : ctx.IsIdentified "Box" first := hentity _ _ _ (by simpa using hred) rfl (by decide)
  have hlast : ctx.IsIdentified "Box" last :=
    hentity _ _ _ (by simpa using ⟨hplain, hred⟩) rfl (by decide)
  have hother : ctx.IsIdentified "Box" other := hentity _ _ _ nofun rfl (by decide)
  have hcalls : ∀ call ∈ calls, call.IsAbout ctx "Box" := by
    simp only [calls, List.forall_mem_cons]
    exact ⟨⟨_, rfl, by simpa using hfirst⟩, ⟨_, rfl, by simpa using hfirst⟩,
      ⟨_, rfl, by simpa using ⟨hother, hlast⟩⟩, ⟨_, rfl, by simpa using hother⟩, nofun⟩
  have hl : Logger.complete.IsWorking := fun _ => ⟨true, rfl⟩
  obtain ⟨hanswers, hread⟩ := get_after_run hk hl hcalls (w := w) rfl
  have htold : (told ctx calls []).1 = [.ok false, .ok true, .ok true, .ok false] := by rfl
  refine ⟨hk, hl, hcalls, rfl, hanswers.trans htold, ?_, ?_⟩
  · exact hread none "boxes" "1" rfl
  · exact hread (some "crates") "crates" "2" rfl

end DocumentCall

end TypedSearch
