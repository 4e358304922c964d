import Mathlib.Data.List.Forall2
import TypedSearch.Outcome.Reading
import TypedSearch.Proofs.Results
import TypedSearch.Proofs.WorkSteps

/-!
# What reading a reply gives

A reply is read in steps that may fail and that write lines. What it gives is put together from
what the steps give; the report and the log can hold nothing up.

* `Logged.Gives`, `Logged.Succeeds`: a computation succeeds, with an answer and with lines.
* `ResultReader.keeps`: the hits that become documents.
* `ResultReader.collect_gives`, `ResultReader.collect_succeeds_iff`: the documents and the inner
  hits of a row of hits.
* `ResultReader.ofReply_gives`, `ResultReader.ofReply_succeeds`: the outcome of a reply.
-/

namespace TypedSearch

/-! ## Steps that write lines -/

namespace Logged

variable {α β : Type} {x : Logged α} {lines later last : List LogLine}

theorem run_bind (x : Logged α) (g : α → Logged β) (lines : List LogLine) :
    (x >>= g).run.run lines =
      (ExceptT.bindCont g (x.run.run lines).1).run (x.run.run lines).2 := rfl

theorem run_tryCatch (x : Logged α) (g : Fault → Logged α) (lines : List LogLine) :
    (tryCatch x g).run.run lines =
      match x.run.run lines with
      | (.ok a, middle) => (.ok a, middle)
      | (.error e, middle) => (g e).run.run middle := by
  change (ExceptT.tryCatch x g).run.run lines = _
  unfold ExceptT.tryCatch ExceptT.run ExceptT.mk StateT.run
  simp only [bind, StateT.bind]
  rcases x lines with ⟨r, middle⟩
  cases r <;> rfl

/-- After the lines so far the computation succeeds with the answer; then there are these lines. -/
def Gives (x : Logged α) (lines : List LogLine) (a : α) (later : List LogLine) : Prop :=
  x.run.run lines = (.ok a, later)

@[simp] theorem gives_pure {a b : α} :
    Gives (pure a : Logged α) lines b later ↔ a = b ∧ lines = later := by
  change (Except.ok a, lines) = (Except.ok b, later) ↔ _
  simp

@[simp] theorem not_gives_throw {e : Fault} {a : α} :
    ¬Gives (throw e : Logged α) lines a later := by
  change ¬(Except.error e, lines) = (Except.ok a, later)
  simp

/-- Two steps give an answer if the first one does and the second one does after it. -/
theorem gives_bind {g : α → Logged β} {b : β} :
    Gives (x >>= g) lines b last ↔
      ∃ a later, Gives x lines a later ∧ Gives (g a) later b last := by
  unfold Gives
  rw [run_bind]
  generalize x.run.run lines = answer
  obtain ⟨r, middle⟩ := answer
  cases r with
  | ok a =>
    constructor
    · exact fun h => ⟨a, middle, rfl, h⟩
    · rintro ⟨a', later, heq, h⟩
      cases heq
      exact h
  | error e =>
    constructor
    · intro h
      cases h
    · rintro ⟨a', later, heq, -⟩
      cases heq

@[simp] theorem gives_ofExcept {r : Except Fault α} {a : α} :
    Gives (ofExcept r) lines a later ↔ r = .ok a ∧ lines = later := by
  cases r with
  | ok b => simp [ofExcept]
  | error e => simp [ofExcept]

/-- After the lines so far the computation succeeds. -/
def Succeeds (x : Logged α) (lines : List LogLine) : Prop := ∃ a later, Gives x lines a later

theorem Gives.succeeds {a : α} (h : Gives x lines a later) : Succeeds x lines := ⟨a, later, h⟩

theorem succeeds_ofExcept_bind {r : Except Fault α} {g : α → Logged β} :
    Succeeds (ofExcept r >>= g) lines ↔ ∃ a, r = .ok a ∧ Succeeds (g a) lines := by
  constructor
  · rintro ⟨b, last, h⟩
    obtain ⟨a, later, ha, hb⟩ := gives_bind.mp h
    obtain ⟨hr, rfl⟩ := gives_ofExcept.mp ha
    exact ⟨a, hr, b, last, hb⟩
  · rintro ⟨a, hr, b, last, hb⟩
    exact ⟨b, last, gives_bind.mpr ⟨a, lines, gives_ofExcept.mpr ⟨hr, rfl⟩, hb⟩⟩

/-- A step that gives an answer is followed by one that succeeds. -/
theorem Gives.bind_succeeds {a : α} {g : α → Logged β} (h : Gives x lines a later)
    (hg : Succeeds (g a) later) : Succeeds (x >>= g) lines := by
  obtain ⟨b, last, hb⟩ := hg
  exact (gives_bind.mpr ⟨a, later, h, hb⟩).succeeds

/-- A logger that works takes any line. -/
theorem write_succeeds {logger : Logger} (hl : logger.IsWorking) (level : LogLevel)
    (text : String) (lines : List LogLine) : Succeeds (write logger level text) lines := by
  obtain ⟨kept, hkept⟩ := hl ⟨level, text⟩
  unfold write
  rw [hkept]
  cases kept with
  | true => exact ⟨(), _, rfl⟩
  | false => exact ⟨(), _, rfl⟩

/-- What catches every fault succeeds if what is done about a fault does. -/
theorem tryCatch_succeeds {g : Fault → Logged α} (hg : ∀ e lines, Succeeds (g e) lines)
    (lines : List LogLine) : Succeeds (tryCatch x g) lines := by
  unfold Succeeds Gives
  rw [run_tryCatch]
  rcases x.run.run lines with ⟨r, middle⟩
  cases r with
  | ok a => exact ⟨a, middle, rfl⟩
  | error e => exact hg e middle

end Logged

open Logged

/-- Logging an outcome always succeeds. -/
theorem SearchOutcome.log_succeeds (o : SearchOutcome) (logger : Logger) (lines : List LogLine) :
    Succeeds (o.log logger) lines :=
  tryCatch_succeeds (fun _ _ => ⟨(), _, rfl⟩) lines

/-- A report that cannot be made is replaced by a line. -/
theorem reportOrNote_succeeds (request : SearchRequest) (locator : String) (status : Option Int)
    (body : Option Value) (failure : Option EngineFailure) (lines : List LogLine) :
    Succeeds (reportOrNote request locator status body failure) lines := by
  unfold reportOrNote
  cases report request locator status body failure with
  | ok text => exact ⟨_, _, rfl⟩
  | error e => exact ⟨_, _, rfl⟩

namespace ResultReader

variable {r : ResultReader} {paths : HitPaths} {logger : Logger} {lines later : List LogLine}

/-! ## Rows of hits -/

/-- The document that a hit becomes. -/
def documentOf (r : ResultReader) (hit : Value) : Except Fault Value := do
  let source ← hit.lookup "_source" .null
  let id ← hit.lookup "_id" .null
  r.document source id

/-- The hit becomes a document. -/
def keeps (r : ResultReader) (hit : Value) : Bool := (r.documentOf hit).toOption.isSome

theorem documentOf_eq {hit source id : Value} (hsource : hit.lookup "_source" .null = .ok source)
    (hid : hit.lookup "_id" .null = .ok id) : r.documentOf hit = r.document source id := by
  unfold documentOf
  rw [hsource, hid]
  rfl

theorem keeps_iff {hit : Value} : r.keeps hit = true ↔ ∃ d, r.documentOf hit = .ok d := by
  unfold keeps
  cases r.documentOf hit <;> simp [Except.toOption]

/-- The hit is read as a document with the sources of its inner hits. -/
def Reads (r : ResultReader) (paths : HitPaths) (hit : Value)
    (entry : Value × InnerSources) : Prop :=
  r.documentOf hit = .ok entry.1 ∧ innerSources paths hit = .ok entry.2

/-- The documents are those of the hits that become one, in order, each with its inner hits. -/
theorem collect_gives {hits : List Value} {found : List (Value × InnerSources)}
    (h : Gives (r.collect paths logger hits) lines found later) :
    List.Forall₂ (r.Reads paths) (hits.filter r.keeps) found := by
  induction hits generalizing found lines later with
  | nil =>
    obtain ⟨rfl, -⟩ := gives_pure.mp h
    exact .nil
  | cons hit hits ih =>
    obtain ⟨source, _, hs, h⟩ := gives_bind.mp h
    obtain ⟨hsource, rfl⟩ := gives_ofExcept.mp hs
    obtain ⟨id, _, hi, h⟩ := gives_bind.mp h
    obtain ⟨hid, rfl⟩ := gives_ofExcept.mp hi
    have hdocument := documentOf_eq (r := r) hsource hid
    cases hd : r.document source id with
    | error cause =>
      simp only [hd] at h
      obtain ⟨_, _, -, h⟩ := gives_bind.mp h
      have hkeeps : ¬r.keeps hit = true := by simp [keeps_iff, hdocument, hd]
      rw [List.filter_cons_of_neg hkeeps]
      exact ih h
    | ok document =>
      simp only [hd] at h
      obtain ⟨inner, _, hin, h⟩ := gives_bind.mp h
      obtain ⟨hinner, rfl⟩ := gives_ofExcept.mp hin
      obtain ⟨rest, _, hrest, h⟩ := gives_bind.mp h
      obtain ⟨rfl, -⟩ := gives_pure.mp h
      rw [List.filter_cons_of_pos (keeps_iff.mpr ⟨document, hdocument.trans hd⟩)]
      exact .cons ⟨hdocument.trans hd, hinner⟩ (ih hrest)

/-- Hits can be read if and only if they are objects, and the inner hits of those that become
documents can be read. -/
theorem collect_succeeds_iff (hl : logger.IsWorking) {hits : List Value} (lines : List LogLine) :
    Succeeds (r.collect paths logger hits) lines ↔
      ∀ hit ∈ hits, (∃ es, hit = .dict es) ∧
        (r.keeps hit = true → ∃ inner, innerSources paths hit = .ok inner) := by
  induction hits generalizing lines with
  | nil => exact ⟨fun _ => nofun, fun _ => ⟨[], lines, rfl⟩⟩
  | cons hit hits ih =>
    rw [List.forall_mem_cons, collect, succeeds_ofExcept_bind]
    constructor
    · rintro ⟨source, hsource, h⟩
      obtain ⟨id, hid, h⟩ := succeeds_ofExcept_bind.mp h
      have hdocument := documentOf_eq (r := r) hsource hid
      have hobject : ∃ es, hit = .dict es := by
        cases hit with
        | dict es => exact ⟨es, rfl⟩
        | _ => cases hsource
      cases hd : r.document source id with
      | error cause =>
        simp only [hd] at h
        obtain ⟨b, last, h⟩ := h
        obtain ⟨_, later, -, hrest⟩ := gives_bind.mp h
        have hkeeps : ¬r.keeps hit = true := by simp [keeps_iff, hdocument, hd]
        exact ⟨⟨hobject, fun hk => absurd hk hkeeps⟩, (ih later).mp ⟨b, last, hrest⟩⟩
      | ok document =>
        simp only [hd] at h
        obtain ⟨inner, hinner, b, last, h⟩ := succeeds_ofExcept_bind.mp h
        obtain ⟨found, later, hrest, -⟩ := gives_bind.mp h
        exact ⟨⟨hobject, fun _ => ⟨inner, hinner⟩⟩, (ih lines).mp ⟨found, later, hrest⟩⟩
    · rintro ⟨⟨⟨es, rfl⟩, hinner⟩, hrest⟩
      refine ⟨_, rfl, succeeds_ofExcept_bind.mpr ⟨_, rfl, ?_⟩⟩
      have hdocument : r.documentOf (.dict es) = r.document ((Entries.get? "_source" es).getD .null)
          ((Entries.get? "_id" es).getD .null) := rfl
      cases hd : r.document ((Entries.get? "_source" es).getD .null)
          ((Entries.get? "_id" es).getD .null) with
      | error cause =>
        obtain ⟨_, written, hwritten⟩ := write_succeeds hl .error
          (r.skipText ((Entries.get? "_id" es).getD .null) cause) lines
        dsimp only
        exact hwritten.bind_succeeds ((ih written).mpr hrest)
      | ok document =>
        obtain ⟨inner, hin⟩ := hinner (keeps_iff.mpr ⟨document, hdocument.trans hd⟩)
        obtain ⟨found, last, hfound⟩ := (ih lines).mpr hrest
        dsimp only
        exact succeeds_ofExcept_bind.mpr ⟨inner, hin, hfound.bind_succeeds ⟨_, last, rfl⟩⟩

/-- Hits that are objects can be read if their inner hits can. -/
theorem collect_succeeds (hl : logger.IsWorking) {hits : List Value}
    (hobjects : ∀ hit ∈ hits, ∃ es, hit = .dict es)
    (hinner : ∀ hit ∈ hits, ∃ inner, innerSources paths hit = .ok inner) (lines : List LogLine) :
    Succeeds (r.collect paths logger hits) lines :=
  (collect_succeeds_iff hl lines).mpr fun hit hhit =>
    ⟨hobjects hit hhit, fun _ => hinner hit hhit⟩

/-! ## Outcomes -/

variable {request : SearchRequest} {reply : Reply}

/-- The outcome is put together from the hits and the total of a reply. -/
theorem ofReply_gives {o : SearchOutcome}
    (h : Gives (r.ofReply request reply logger) lines o later) :
    (∃ failed, failedShards reply.entries = .ok failed) ∧
    totalOf reply.entries = .ok o.total ∧
    ∃ hits found, hitsOf reply.entries = .ok hits ∧ o.documents = found.map (·.1) ∧
      o.innerHits = found.map (·.2) ∧
      List.Forall₂ (r.Reads request.hitPaths) (hits.filter r.keeps) found := by
  obtain ⟨failed, _, hf, h⟩ := gives_bind.mp h
  obtain ⟨hfailed, rfl⟩ := gives_ofExcept.mp hf
  obtain ⟨hits, _, hh, h⟩ := gives_bind.mp h
  obtain ⟨hhits, rfl⟩ := gives_ofExcept.mp hh
  obtain ⟨found, _, hfound, h⟩ := gives_bind.mp h
  obtain ⟨total, _, ht, h⟩ := gives_bind.mp h
  obtain ⟨htotal, rfl⟩ := gives_ofExcept.mp ht
  dsimp only at h
  -- A valid reply has no report; either way the log ends the reading.
  split at h
  all_goals
    obtain ⟨text, _, -, h⟩ := gives_bind.mp h
    obtain ⟨_, _, -, h⟩ := gives_bind.mp h
    obtain ⟨rfl, -⟩ := gives_pure.mp h
    exact ⟨⟨failed, hfailed⟩, htotal, hits, found, hhits, rfl, rfl, collect_gives hfound⟩

/-- There is an outcome if and only if the numbers in the reply are numbers and the hits can be
read. -/
theorem ofReply_succeeds (lines : List LogLine) :
    Succeeds (r.ofReply request reply logger) lines ↔
      (∃ failed, failedShards reply.entries = .ok failed) ∧
      (∃ hits, hitsOf reply.entries = .ok hits ∧
        Succeeds (r.collect request.hitPaths logger hits) lines) ∧
      ∃ total, totalOf reply.entries = .ok total := by
  unfold ofReply
  dsimp only
  rw [succeeds_ofExcept_bind]
  constructor
  · rintro ⟨failed, hfailed, h⟩
    obtain ⟨hits, hhits, o, last, h⟩ := succeeds_ofExcept_bind.mp h
    obtain ⟨found, later, hfound, h⟩ := gives_bind.mp h
    obtain ⟨total, _, ht, -⟩ := gives_bind.mp h
    obtain ⟨htotal, -⟩ := gives_ofExcept.mp ht
    exact ⟨⟨failed, hfailed⟩, ⟨hits, hhits, found, later, hfound⟩, total, htotal⟩
  · rintro ⟨⟨failed, hfailed⟩, ⟨hits, hhits, found, middle, hfound⟩, total, htotal⟩
    have ends : ∀ (o : SearchOutcome) (lines : List LogLine),
        Succeeds (o.log logger >>= fun _ => pure o) lines := by
      intro o lines
      obtain ⟨_, later, hlog⟩ := o.log_succeeds logger lines
      exact hlog.bind_succeeds ⟨o, later, rfl⟩
    refine ⟨failed, hfailed, succeeds_ofExcept_bind.mpr ⟨hits, hhits, ?_⟩⟩
    refine hfound.bind_succeeds (succeeds_ofExcept_bind.mpr ⟨total, htotal, ?_⟩)
    -- A valid reply has no report; either way the log ends the reading.
    split
    · exact (gives_pure.mpr ⟨rfl, rfl⟩).bind_succeeds (ends _ middle)
    · obtain ⟨text, written, hreport⟩ := reportOrNote_succeeds request
        (request.locator reply.info) reply.status (some (.dict reply.entries)) none middle
      exact hreport.bind_succeeds (ends _ written)

/-- Where the hits can be read, there is an outcome just when the numbers in the reply are
numbers. -/
theorem ofReply_succeeds_iff {hits : List Value} (hhits : hitsOf reply.entries = .ok hits)
    (hread : ∀ lines, Succeeds (r.collect request.hitPaths logger hits) lines)
    (lines : List LogLine) :
    Succeeds (r.ofReply request reply logger) lines ↔
      (∃ failed, failedShards reply.entries = .ok failed) ∧
        ∃ total, totalOf reply.entries = .ok total := by
  rw [ofReply_succeeds]
  exact and_congr_right fun _ => and_iff_right ⟨hits, hhits, hread lines⟩

end ResultReader

end TypedSearch
