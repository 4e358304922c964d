import TypedSearch.Clause.Formation
import TypedSearch.Field.Source
import TypedSearch.Query.InnerHits
import TypedSearch.Query.Request

/-!
# Drafts of searches

A search is drafted call by call: clauses that must or must not hold, the part of the hits that
is wanted, one sort key, a timeout. A call is checked first; then the draft is changed, and after
that a line is written about the change. A call that is refused leaves the draft as it was. A call
whose line cannot be written fails as well, but its change is made. The draft compiles into a
request at any time.

* `QuerySettings`: what is fixed for all calls.
* `QueryDraft`: what the calls so far have asked for.
* `QueryDraft.check`, `DraftChange`, `QueryDraft.make`: the change that a call makes.
* `QueryDraft.apply`: one more call.
* `QueryDraft.build`: the request.
-/

namespace TypedSearch

open Text

/-! ## Settings -/

/-- What searches inherit where they do not say otherwise. -/
structure SearchDefaults where
  index : Option String
  timeZone : String
  rounding : Rounding
  naming : Option Naming
  appId : String

namespace SearchDefaults

/-- The defaults where nothing is set. -/
def standard : SearchDefaults := ⟨none, standardTimeZone, .standard, none, "id"⟩

/-- Defaults whose index is not a blank name. -/
def checked (d : SearchDefaults) : Except Fault SearchDefaults :=
  if d.index.any isAllBlank then .error .blankDefaultIndex else .ok d

end SearchDefaults

/-- What is fixed for all calls of a draft. -/
structure QuerySettings where
  resolver : Resolver
  source : FieldSource
  timeZone : String
  rounding : Rounding
  bound : Option SearchDefaults

/-- The text, unless it is missing or empty. -/
def nonEmpty? (text : Option String) : Option String := text.filter (· != "")

/-- The source of fields for a model; without a model it is open. -/
def sourceFor (s : Schema) (model : ModelRef) : Except Fault FieldSource :=
  if model.isGiven then model.className?.bind fun _ => FieldSource.ofModel s model else .ok .any

/-- The line about a model whose fields cannot be listed. -/
def sourceLine? : Fault → Option LogLine
  | .noFieldList cls => some ⟨.error, s!"Failed field proxy generation for {cls}"⟩
  | _ => none

/-- Settings for a model, with defaults if the draft is bound to a context. -/
def QuerySettings.create (s : Schema) (model : ModelRef) (bound : Option SearchDefaults)
    (naming : Option Naming) (timeZone : Option String) (rounding : Option Rounding) :
    Except Fault QuerySettings := do
  let defaults := bound.getD .standard
  let source ← sourceFor s model
  let resolver ← Resolver.ofModel s (naming <|> defaults.naming) model
  return ⟨resolver, source, (nonEmpty? timeZone).getD defaults.timeZone,
    rounding.getD defaults.rounding, bound⟩

/-! ## Drafts -/

/-- What the calls so far have asked for. Index and timeout are null if they are not set. -/
structure QueryDraft where
  must : List Clause
  mustNot : List Clause
  index : Value
  skip : Value
  take : Value
  sort : Option SortKey
  timeout : Value

/-- The draft before the first call. -/
def QueryDraft.empty : QueryDraft := ⟨[], [], .null, .int 0, .int 0, none, .null⟩

/-- What is given as a clause: a clause, or some other value by mistake. -/
inductive ClauseArgument where
  | clause (c : Clause)
  | other (v : Value)

/-- A predicate: a field, an operator, an operand, the scope, and a time zone and a rounding, which
replace those of the settings if they count as true. -/
structure Predicate where
  operator : Operator
  field : Value
  operand : Value
  nested : Option Value
  timeZone : Value
  rounding : Value

/-- The calls that change a draft. -/
inductive DraftCall where
  | index (name : Value)
  | addMust (c : ClauseArgument)
  | addMustNot (c : ClauseArgument)
  | predicate (p : Predicate)
  | filter (condition : Value) (nested : Option Value)
  | exclude (condition : Value) (nested : Option Value)
  | skip (count : Value)
  | take (count : Value)
  | sortBy (field descending : Value)
  | timeout (seconds : Value)

/-! ## Predicates -/

/-- The predicate that a condition stands for. -/
def Predicate.ofCondition (condition : Value) (nested : Option Value) : Except Fault Predicate :=
  match condition with
  | .condition path operator operand =>
    match operator.isKey, operator.asText?.bind Operator.ofName? with
    | false, _ => .error .wrongType
    | true, some op => .ok ⟨op, path, operand, nested, .null, .null⟩
    | true, none =>
      .error (if operator.hasPlainText then .conditionOperator operator.plainText else .wrongValue)
  | v => .error ((Fault.notACondition v).showing v)

/-- The clause of a predicate. -/
def Predicate.clause (p : Predicate) (set : QuerySettings) : Except Fault Clause := do
  let field ← set.resolver.resolve p.field p.nested
  Clause.form field p.operator p.operand
    (if p.timeZone.isTruthy then p.timeZone else .str set.timeZone)
    (if p.rounding.isTruthy then p.rounding else set.rounding.toValue)

/-- The line about the ordering of texts in a predicate. -/
def Predicate.line? (p : Predicate) (set : QuerySettings) : Option LogLine :=
  match set.resolver.resolve p.field p.nested with
  | .ok field => Clause.warning? field p.operator p.operand
  | .error _ => none

/-- The predicate of a call, if it makes one. -/
def DraftCall.predicate? : DraftCall → Option Predicate
  | .predicate p => some p
  | .filter c nested | .exclude c nested => (Predicate.ofCondition c nested).toOption
  | _ => none

/-- The lines that a call writes. -/
def DraftCall.lines (call : DraftCall) (set : QuerySettings) : List LogLine :=
  (call.predicate?.bind fun p => p.line? set).toList

/-- What a call changes in a draft. -/
inductive DraftChange where
  | index (name : Value)
  | must (c : Clause)
  | mustNot (c : Clause)
  | skip (count : Value)
  | take (count : Value)
  | sort (key : SortKey)
  | timeout (seconds : Value)

namespace DraftChange

/-- A clause goes to the side where it belongs: an excluding clause must not hold, and exclusion
turns the sides around. -/
def place (excluded : Bool) (c : Clause) : DraftChange :=
  if c.negated != excluded then .mustNot c else .must c

/-- The line about the change can be written: what it shows has a text. -/
def isTold : DraftChange → Bool
  | .index name => name.hasPlainText
  | .must c | .mustNot c => c.hasDisplay
  | .skip n | .take n | .timeout n => n.hasPlainText
  | .sort key => key.descending.hasPlainText

end DraftChange

namespace QueryDraft

/-! ## Checks -/

/-- The value names an index. -/
def isIndexName (v : Value) : Bool :=
  match v.asText? with
  | some name => !isAllBlank name
  | none => false

/-- The value counts hits. -/
def isHitCount (v : Value) : Bool :=
  match v.asCount? with
  | some n => decide (0 ≤ n)
  | none => false

/-- The value is a length of time, or null for none. -/
def isDuration (v : Value) : Bool :=
  match v with
  | .null => true
  | .double x => !x.isNegative
  | v => isHitCount v

/-- The change that a call makes, if it is not refused. Where a sort key is replaced, a line shows
the old one first. -/
def check (set : QuerySettings) (d : QueryDraft) (call : DraftCall) : Except Fault DraftChange :=
  match call with
  | .index name => if isIndexName name then .ok (.index name) else .error .blankIndex
  | .addMust (.clause c) => .ok (.must c)
  | .addMust (.other v) => .error (.notAClause "add_must" v.typeName)
  | .addMustNot (.clause c) => .ok (.mustNot c)
  | .addMustNot (.other v) => .error (.notAClause "add_must_not" v.typeName)
  | .predicate p => (p.clause set).map (DraftChange.place false)
  | .filter condition nested => do
    let p ← Predicate.ofCondition condition nested
    (p.clause set).map (DraftChange.place false)
  | .exclude condition nested => do
    let p ← Predicate.ofCondition condition nested
    (p.clause set).map (DraftChange.place true)
  | .skip n => if isHitCount n then .ok (.skip n) else .error .negativeSkip
  | .take n => if isHitCount n then .ok (.take n) else .error .negativeTake
  | .sortBy field descending => do
    let field ← set.resolver.resolve field none
    if d.sort.all fun old => old.descending.hasDisplay then return .sort ⟨field, descending⟩
    else throw .wrongValue
  | .timeout t => if isDuration t then .ok (.timeout t) else .error .negativeTimeout

/-! ## Changes -/

/-- The draft with a change. -/
def make (d : QueryDraft) : DraftChange → QueryDraft
  | .index name => { d with index := name }
  | .must c => { d with must := d.must ++ [c] }
  | .mustNot c => { d with mustNot := d.mustNot ++ [c] }
  | .skip n => { d with skip := n }
  | .take n => { d with take := n }
  | .sort key => { d with sort := some key }
  | .timeout t => { d with timeout := t }

/-- One more call: its answer, and the draft that it leaves. -/
def apply (set : QuerySettings) (d : QueryDraft) (call : DraftCall) :
    Except Fault Unit × QueryDraft :=
  match d.check set call with
  | .error e => (.error e, d)
  | .ok change => (if change.isTold then .ok () else .error .wrongValue, d.make change)

/-- The draft for an index that is named at the start; null names none. -/
def start (set : QuerySettings) (index : Value) : Except Fault QueryDraft :=
  if index.isNull then .ok empty
  else
    match empty.apply set (.index index) with
    | (.ok _, d) => .ok d
    | (.error e, _) => .error e

/-- The draft after a row of calls, also of those that fail. -/
def run (set : QuerySettings) (d : QueryDraft) (calls : List DraftCall) : QueryDraft :=
  calls.foldl (fun d call => (d.apply set call).2) d

/-! ## Compilation -/

/-- The query of a draft and the names of its inner hits. A side without clauses is left out. -/
def compile (d : QueryDraft) : Except Fault (Value × HitPaths) := do
  let (must, given) ← compileAll [] d.must
  let (mustNot, given) ← compileAll given d.mustNot
  let sides := (if must.isEmpty then [] else [("must", Value.list must)]) ++
    (if mustNot.isEmpty then [] else [("must_not", Value.list mustNot)])
  return (.object [("bool", .object sides)], given)

/-- The request of a draft. A size of zero and a timeout of zero are not set. -/
def request (d : QueryDraft) (set : QuerySettings) : Except Fault SearchRequest := do
  let (query, hitPaths) ← d.compile
  let inherited := Value.ofText? (set.bound.bind (·.index))
  return {
    index := if d.index.isNull then inherited else d.index
    query
    start := d.skip
    size := if d.take.isTruthy then d.take else .null
    sort := .list (d.sort.map SortKey.toValue).toList
    timeout := if d.timeout.isTruthy then d.timeout else .null
    hitPaths }

/-- The request of a draft, which is shown in a line before it is given out. -/
def build (d : QueryDraft) (set : QuerySettings) : Except Fault SearchRequest := do
  let r ← d.request set
  if r.hasDisplay then return r else throw .wrongValue

end QueryDraft

end TypedSearch
