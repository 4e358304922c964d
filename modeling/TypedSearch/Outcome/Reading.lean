import TypedSearch.Outcome.Hits
import TypedSearch.Value.Json

/-!
# Reading of replies and failures

A reply or a failure of the engine becomes an outcome. An outcome that is not valid carries a
report of the request and of what came back. At the end the outcome is logged; a logger that fails
there changes nothing.

* `ResultReader.ofReply`: the outcome of a reply.
* `ResultReader.ofFailure`: the outcome of a failure.
* `report`: what is said about a search that went wrong.
-/

namespace TypedSearch

open Text

/-! ## Statuses -/

/-- The status says that the engine has done what was asked. -/
def isSuccessStatus (status : Int) : Bool := decide (200 ≤ status ∧ status < 300)

/-- Some status is known and says so. -/
def isKnownSuccess (status : Option Int) : Bool := status.any isSuccessStatus

/-- No status is known, or it says so. -/
def isSuccess (status : Option Int) : Bool := status.all isSuccessStatus

/-! ## Reports -/

/-- What is said about a search that went wrong: the call, the request, the body that came back
and the failure. -/
def report (request : SearchRequest) (locator : String) (status : Option Int)
    (body : Option Value) (failure : Option EngineFailure) : Except Fault String := do
  let result := if isKnownSuccess status then "successful" else "unsuccessful"
  let shown := (status.map toString).getD "no status"
  let sent ← request.body.json
  let received ← match body with
    | some v => v.json
    | none => pure "<none>"
  let cause ← match failure with
    | some f => do pure ["# Exception: " ++ f.name ++ ": " ++ (← f.text)]
    | none => pure []
  return join "\n" ([s!"Invalid response built from a {result} ({shown}) call on POST: {locator}",
    "# Request:", sent, "# Response:", received] ++ cause)

/-- The report, or a line about why there is none. -/
def reportOrNote (request : SearchRequest) (locator : String) (status : Option Int)
    (body : Option Value) (failure : Option EngineFailure) : Logged (Option String) :=
  match report request locator status body failure with
  | .ok text => pure (some text)
  | .error e => do
    Logged.note ⟨.warning, "Could not render debug information: " ++ e.message⟩
    return none

/-! ## Log -/

namespace SearchOutcome

/-- The lines about an outcome. -/
def lines (o : SearchOutcome) : List LogLine :=
  ⟨.info, s!"[Success:{truthWord o.success}]\t[IsValid:{truthWord o.isValid}]\t{o.locator}"⟩ ::
    if o.isValid then []
    else
      ⟨.error, (o.report.filter (· != "")).getD "No debug information available."⟩ ::
        (o.failure.map fun f => LogLine.mk .error ("Original exception: " ++ f.name)).toList

/-- Logs an outcome. A logger that fails leaves a line about it and ends the logging. -/
def log (o : SearchOutcome) (logger : Logger) : Logged Unit :=
  tryCatch (o.lines.forM fun line => Logged.write logger line.level line.text) fun e =>
    Logged.note ⟨.warning, "Diagnostic logging failed: " ++ e.message⟩

end SearchOutcome

namespace ResultReader

/-! ## Replies -/

/-- The number of shards that failed. -/
def failedShards (body : Entries) : Except Fault Int := do
  let failed ← (Entries.getD "_shards" body).orObject.lookup "failed" (.int 0)
  if failed.isTruthy then failed.toInteger else return 0

/-- The outcome of a reply. -/
def ofReply (r : ResultReader) (request : SearchRequest) (reply : Reply) (logger : Logger) :
    Logged SearchOutcome := do
  let body := reply.entries
  let locator := request.locator reply.info
  let success := isSuccess reply.status
  let timedOut := (Entries.getD "timed_out" body).isTruthy
  let failed ← Logged.ofExcept (failedShards body)
  let isValid := success && !timedOut && failed == 0
  let hits ← Logged.ofExcept (hitsOf body)
  let found ← r.collect request.hitPaths logger hits
  let total ← Logged.ofExcept (totalOf body)
  let text ← if isValid then pure none
    else reportOrNote request locator reply.status (some (.dict body)) none
  let outcome : SearchOutcome := {
    success, isValid, total, timedOut, locator
    documents := found.map (·.1)
    innerHits := found.map (·.2)
    report := text
    failure := none }
  outcome.log logger
  return outcome

/-! ## Failures -/

/-- The outcome of a failure. -/
def ofFailure (request : SearchRequest) (failure : EngineFailure) (logger : Logger) :
    Logged SearchOutcome := do
  let locator := request.locator failure.info
  let status := failure.info.bind (·.status)
  let body := if failure.body.isNull then none else some failure.body
  let text ← reportOrNote request locator status body (some failure)
  let outcome : SearchOutcome := {
    success := false
    isValid := false
    documents := []
    total := .int 0
    timedOut := failure.isTimeout
    innerHits := []
    locator
    report := text
    failure := some failure }
  outcome.log logger
  return outcome

end ResultReader

end TypedSearch
