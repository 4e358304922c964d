import TypedSearch.Value.Demand
import TypedSearch.Value.Display

/-!
# What an engine sends back

A call of the engine ends in a reply or in a failure. A reply has a body, and where it comes over
the network also a status and the node that sent it. A failure is a refusal by the engine, a fault
of the transport, or anything else that goes wrong in the client.

* `Reply`: a reply.
* `EngineFailure`: a failure, with its name and its text.
-/

namespace TypedSearch

open Text

/-! ## Replies -/

/-- The node that sends a reply: its address, or a name where no address is known. -/
inductive EngineNode where
  | address (scheme host : String) (port : Int) (path : Option String)
  | named (name : String)
  deriving DecidableEq, Repr

/-- The locator of a node. -/
def EngineNode.locator : EngineNode → String
  | .address scheme host port path => s!"{scheme}://{host}:{port}" ++ path.getD ""
  | .named name => name

/-- What is known about a reply besides its body. -/
structure ReplyInfo where
  status : Option Int
  node : Option EngineNode
  deriving DecidableEq, Repr

/-- A reply. It is bare when the body came by itself, and not as a part of what the client has
received. -/
structure Reply where
  body : Value
  info : Option ReplyInfo
  isBare : Bool

namespace Reply

/-- A body that came by itself. -/
def ofBody (body : Value) : Reply := ⟨body, none, true⟩

/-- A body with what is known about the reply. -/
def received (body : Value) (info : Option ReplyInfo) : Reply := ⟨body, info, false⟩

/-- The reply counts as true: it is not a bare body that counts as false. -/
def isTruthy (r : Reply) : Bool := !r.isBare || r.body.isTruthy

/-- The entries of the body; a body that is no object has none. -/
def entries (r : Reply) : Entries := r.body.asEntries?.getD []

/-- The status, where one is known. -/
def status (r : Reply) : Option Int := r.info.bind (·.status)

end Reply

/-! ## Failures -/

/-- The kinds of refusals. -/
inductive RefusalKind where
  | general
  | notFound
  | conflict
  | badRequest
  | unauthorized
  | unsupported
  deriving DecidableEq, Repr

/-- The name of a kind of refusals. -/
def RefusalKind.name : RefusalKind → String
  | .general => "ApiError"
  | .notFound => "NotFoundError"
  | .conflict => "ConflictError"
  | .badRequest => "BadRequestError"
  | .unauthorized => "AuthorizationException"
  | .unsupported => "UnsupportedProductError"

/-- The kinds of faults of the transport. -/
inductive TransportKind where
  | general
  | timeout
  | connection
  | encryption
  | serialization
  deriving DecidableEq, Repr

/-- The name of a kind of faults of the transport. -/
def TransportKind.name : TransportKind → String
  | .general => "TransportError"
  | .timeout => "ConnectionTimeout"
  | .connection => "ConnectionError"
  | .encryption => "TlsError"
  | .serialization => "SerializationError"

/-- A failure. -/
inductive EngineFailure where
  | refusal (kind : RefusalKind) (message : String) (info : Option ReplyInfo) (body : Value)
  | transport (kind : TransportKind) (message : String) (causes : List String)
  | other (fault : Fault)

namespace EngineFailure

/-- The name of a failure. -/
def name : EngineFailure → String
  | .refusal kind _ _ _ => kind.name
  | .transport kind _ _ => kind.name
  | .other fault => fault.kind.name

/-- The engine has not answered in time. -/
def isTimeout : EngineFailure → Bool
  | .transport .timeout _ _ => true
  | _ => false

/-- What is known about the reply by which the engine refuses. -/
def info : EngineFailure → Option ReplyInfo
  | .refusal _ _ info _ => info
  | _ => none

/-- The body of the reply by which the engine refuses; null if there is none. -/
def body : EngineFailure → Value
  | .refusal _ _ _ body => body
  | _ => .null

/-! ## Causes of refusals -/

/-- A key or a place that is looked for and not there. -/
def missingPart : Fault := .foreign .key ""

/-- The name of the type of a value where the client words the fault. -/
def clientTypeName : Value → String
  | .datetime _ => "datetime.datetime"
  | .date _ => "datetime.date"
  | .decimal _ => "decimal.Decimal"
  | v => v.typeName

/-- A value without parts, asked for one. -/
def noParts (v : Value) : Fault :=
  .foreign .typeMismatch s!"'{clientTypeName v}' object is not subscriptable"

/-- A row of some kind, asked for a part by a name. -/
def namedPart (row : String) : Fault :=
  .foreign .typeMismatch (row ++ " indices must be integers or slices, not str")

/-- The value under a key that has to be there. Below a field is a field. -/
def required (name : String) (v : Value) : Except Fault Value :=
  match v.asText?, v with
  | some _, _ => .error (.foreign .typeMismatch "string indices must be integers, not 'str'")
  | none, .dict es => ((Entries.get? name es).map .ok).getD (.error missingPart)
  | none, .list _ => .error (namedPart "list")
  | none, .tuple _ => .error (namedPart "tuple")
  | none, .bytes _ => .error (namedPart "byte")
  | none, .field path => .ok (.field (path ++ "." ++ name))
  | none, v => .error (noParts v)

/-- The first element of a row, which has to be there. -/
def first (v : Value) : Except Fault Value :=
  let orMissing (x : Option Value) : Except Fault Value := (x.map .ok).getD (.error missingPart)
  match v.asText?, v with
  | some s, _ => orMissing (s.toList.head?.map fun c => .str (String.ofList [c]))
  | none, .list xs => orMissing xs.head?
  | none, .tuple xs => orMissing xs.head?
  | none, .bytes bs => orMissing (bs.head?.map fun b => .int b.toNat)
  | none, .dict es => orMissing ((es.find? fun e => e.1.equals (.int 0)).map (·.2))
  | none, .field _ => .error (.subFieldName (.int 0))
  | none, v => .error (noParts v)

/-- The value under a key that may be missing. Below a field is no operation. -/
def optional (name : String) (other : Value) (v : Value) : Except Fault Value :=
  match v with
  | .dict es => .ok ((Entries.get? name es).getD other)
  | .field _ => .error (.foreign .typeMismatch "'Field' object is not callable")
  | v => .error (.foreign .attribute s!"'{clientTypeName v}' object has no attribute 'get'")

/-- The texts of values in a row; a value that is no text cannot be joined with others. -/
def textsFrom (place : Nat) : List Value → Except Fault (List String)
  | [] => .ok []
  | v :: vs =>
    match v.asText? with
    | some s => (textsFrom (place + 1) vs).map (s :: ·)
    | none =>
      .error (.foreign .typeMismatch
        s!"sequence item {place}: expected str instance, {clientTypeName v} found")

/-- The cause that an error object of the engine gives: the first root cause with its resource,
and what the error was caused by. -/
def rootCause (error : Value) : Except Fault String := do
  let root ← first (← required "root_cause" error)
  let causedBy ← optional "caused_by" (.dict []) error
  let reason ← required "reason" root
  let parts := [.str reason.display, ← optional "resource.id" .null root,
    ← optional "resource.type" .null root, ← optional "reason" .null causedBy]
  return join ", " (← textsFrom 0 (parts.filter Value.isTruthy))

/-- The cause that the body of a refusal gives. An error object with parts missing gives none. -/
def cause (body : Value) : Except Fault String :=
  match body.asEntries?.bind (Entries.get? "error") with
  | some (.dict es) =>
    match rootCause (.dict es) with
    | .error (.foreign .key _) => .ok ""
    | answer => answer
  | some error => .ok error.display
  | none => .ok ""

/-! ## Texts -/

/-- The text of a fault of the transport: what happened, and the first cause. -/
def caused (plain active : String) : List String → String
  | [] => plain
  | c :: _ => active ++ " caused by: Exception(" ++ c ++ ")"

/-- The text of a failure. The text of a refusal shows its status, and a refusal about which
nothing is known has none. -/
def text : EngineFailure → Except Fault String
  | .refusal .unsupported message _ _ => .ok message
  | .refusal kind message info body => do
    let cause ← cause body
    match info with
    | none => throw (.foreign .attribute "'NoneType' object has no attribute 'status'")
    | some info =>
      let status := (info.status.map toString).getD "None"
      let parts := [status, quoted message, cause].filter (· != "")
      return kind.name ++ "(" ++ join ", " parts ++ ")"
  | .transport .timeout _ causes => .ok (caused "Connection timed out" "Connection timeout" causes)
  | .transport .connection _ causes => .ok (caused "Connection error" "Connection error" causes)
  | .transport .encryption _ causes => .ok (caused "TLS error" "TLS error" causes)
  | .transport _ message _ => .ok message
  | .other fault => .ok fault.message

end EngineFailure

end TypedSearch
