/-
`agent_roi.audit.remote` and the audit routes of the control plane.

`RemoteAuditStore` sends each call of a store as a request and reads the
answer; the routes make the call on the store of the service.  The web
framework between the two, which routes requests, decodes bodies and prints
answers, is not part of the package.

* `AuditRequest`, `AuditService` — what the routes are given, and the routes;
* `RemoteAuditStore` — the client;
* `WebFramework` — what the service takes from its framework, with what the
  package relies on of it.
-/
import AgentRoi.AuditLikeness
import AgentRoi.WireText

namespace AgentRoi

variable {F W : Type}

/-! ### The routes -/

/-- A request as `urlopen` sends it. -/
structure HttpRequest where
  method : Str
  url : Str
  headers : List (Str × Str)
  data : Option (List UInt8)

/-- What the audit routes are called with: the members of a body, a path
parameter or a query parameter. -/
inductive AuditRequest (F : Type) where
  | record (members : JsonObj F)
  | append (body : AppendBody F)
  | tail (correlationId : Str)
  | verify (correlationId : Str)

section

variable [PyBuiltins F]

/-- `body[key]`. -/
def auditItem (members : JsonObj F) (key : String) : Except PyExc (Json F) :=
  (dictGet (lit key) members).elim (.error (.keyError [lit key])) .ok

/-- `str(body.get("event_type", "event"))`. -/
def auditResource (members : JsonObj F) : Str :=
  match dictGet (lit "event_type") members with
  | some j => j.pyStr
  | none => lit "event"

/-- An exception of a handler, reported with a status. -/
def reportAs (status : ℕ) {σ α : Type} (exc : PyExc) : PyM σ α :=
  if exc.isException then .raise (.httpException status (exc.text.getD [])) else .raise exc

/-- `dict(body.get("payload", {}))`. -/
def bodyPayload (members : JsonObj F) : Except PyExc (List (PyKey F × PyVal F)) :=
  match dictGet (lit "payload") members with
  | some j => j.pyDict.elim (.error (.typeError [])) .ok
  | none => .ok []

/-- The event id and the time that `record` draws. -/
structure EventDraw where
  eventId : Str
  tsEpochMs : Int

/-- `audit_record`. -/
def auditRecord (H : Sha256) (authorize : Str → Bool) (draw : EventDraw) (members : JsonObj F) :
    PyM (AuditStore F) (AuditEvent F) :=
  if !authorize (auditResource members) then
    .raise (.httpException 403 (lit "Authorization denied"))
  else .tryExcept (do
    let correlationId ← PyM.ofExcept (auditItem members "correlation_id")
    let runId ← PyM.ofExcept (auditItem members "run_id")
    let eventType ← PyM.ofExcept (auditItem members "event_type")
    let payload ← PyM.ofExcept (bodyPayload members)
    AuditStore.record H ⟨draw.eventId, draw.tsEpochMs, correlationId.pyStr, runId.pyStr,
      eventType.pyStr, payload⟩) (reportAs 400)

/-- `audit_tail`. -/
def auditTail (authorize : Str → Bool) (correlationId : Str) :
    PyM (AuditStore F) (Option Str) := do
  if !authorize correlationId then .raise (.httpException 403 (lit "Authorization denied"))
  else
    let s ← PyM.get
    .ofExcept (s.lastHash correlationId)

/-- `audit_verify`.  The `verify` of these stores takes no argument, so a call
with one raises the `TypeError` that the route answers with a call without. -/
def auditVerify (H : Sha256) (authorize : Str → Bool) (correlationId : Str) :
    PyM (AuditStore F) ℕ := do
  if !authorize (if correlationId = [] then lit "*" else correlationId) then
    .raise (.httpException 403 (lit "Authorization denied"))
  else .tryExcept (do
    let s ← PyM.get
    .ofExcept (s.verify H)) (reportAs 409)

/-- The control plane as an audit service.  `permits` stands for the principal
of a request's headers and the authorizer's answer on an action and a resource;
`parse` and `respond` stand for the framework: the route a request is for, and
the text of an answer, none where it cannot be printed. -/
structure AuditService (F : Type) where
  hash : Sha256
  permits : List (Str × Str) → Str → Str → Bool
  parse : HttpRequest → Option (AuditRequest F)
  respond : PyVal F → Option Str

namespace AuditService

variable (service : AuditService F)

/-- The dictionary a route returns. -/
def route (draw : EventDraw) (headers : List (Str × Str)) :
    AuditRequest F → PyM (AuditStore F) (PyDict F)
  | .record members => do
    let e ← auditRecord service.hash (service.permits headers (lit "audit.write")) draw members
    return e.toDict
  | .append body => do
    let e ← auditAppend (service.permits headers (lit "audit.write")) body
    return e.toDict
  | .tail correlationId => do
    let hash ← auditTail (service.permits headers (lit "audit.read")) correlationId
    return [(lit "last_hash", .ofOptStr hash)]
  | .verify correlationId => do
    let count ← auditVerify service.hash (service.permits headers (lit "audit.read")) correlationId
    return [(lit "events_verified", .int count)]

/-- What the client gets for what a handler raised; what is no `Exception`
takes the connection with it. -/
def errorAnswer : PyExc → HttpAnswer
  | .httpException status detail => .httpError status
    ((service.respond (.ofFields [(lit "detail", .str detail)])).getD [])
  | exc => if exc.isException then .httpError 500 (lit "Internal Server Error") else .osError

/-- The answer to a request. -/
def handle (draw : EventDraw) (req : HttpRequest) : PyM (AuditStore F) HttpAnswer :=
  match service.parse req with
  | none => return .httpError 404 []
  | some request => .tryExcept (do
      let d ← service.route draw req.headers request
      match service.respond (.ofFields d) with
      | some text => return .body text
      | none => return .httpError 500 (lit "Internal Server Error"))
    fun exc => return service.errorAnswer exc

end AuditService

end

/-! ### The client -/

mutual
/-- A value that JSON has, as that value; none for the others. -/
def PyVal.plain : PyVal F → Option (Json F)
  | .none => some .null
  | .bool b => some (.bool b)
  | .int i => some (.int i)
  | .float x => some (.float x)
  | .str s => some (.str s)
  | .list xs => (PyVal.plainItems xs).map .arr
  | .dict items => (PyVal.plainMembers items).map .obj
  | _ => Option.none

def PyVal.plainItems : List (PyVal F) → Option (List (Json F))
  | [] => some []
  | v :: vs => do
    let j ← v.plain
    let js ← PyVal.plainItems vs
    return j :: js

def PyVal.plainMembers : List (PyKey F × PyVal F) → Option (List (Str × Json F))
  | [] => some []
  | (.str key, v) :: items => do
    let j ← v.plain
    let members ← PyVal.plainMembers items
    return (key, j) :: members
  | _ :: _ => Option.none
end

/-- The client of an audit service. -/
structure RemoteAuditStore where
  baseUrl : Str
  bearerToken : Str

namespace RemoteAuditStore

variable (remote : RemoteAuditStore) (urlopen : HttpRequest → PyM W HttpAnswer)

/-- The headers of a request with a body, or without one. -/
def headers (hasBody : Bool) : List (Str × Str) :=
  [(lit "Accept", lit "application/json")] ++
    (if hasBody then [(lit "Content-Type", lit "application/json")] else []) ++
    (if remote.bearerToken = [] then []
      else [(lit "Authorization", lit "Bearer " ++ remote.bearerToken)])

/-- A body is sent as JSON. -/
theorem mem_headers : (lit "Content-Type", lit "application/json") ∈ remote.headers true :=
  List.mem_append_left _ (List.mem_append_right _ List.mem_cons_self)

variable [PyValues F]

/-- `payload.encode("utf-8")` of the body. -/
def encodeBody (payload : PyDict F) : Except PyExc (List UInt8) :=
  (encodeUtf8 (stableJson payload)).elim (.error .unicodeEncodeError) .ok

/-- What `_request` makes of an answer. -/
def receive : HttpAnswer → Except PyExc (Json F)
  | .empty => .ok .null
  | .body text => loadsText text
  | .httpError code detail => .error (.runtimeError
      (lit "Remote audit service returned HTTP " ++ natDigits code ++ lit ": " ++ detail))
  | .osError => .error (.runtimeError (lit "Remote audit service is unavailable"))

/-- `_request("POST", path, payload)`. -/
def post (path : Str) (payload : PyDict F) : PyM W (Json F) := do
  let body ← PyM.ofExcept (encodeBody payload)
  let answer ← urlopen ⟨lit "POST", remote.baseUrl ++ path, remote.headers true, some body⟩
  .ofExcept (receive answer)

/-- `_request("GET", path)`. -/
def get (path : Str) : PyM W (Json F) := do
  let answer ← urlopen ⟨lit "GET", remote.baseUrl ++ path, remote.headers false, none⟩
  .ofExcept (receive answer)

/-- `value.get(key)`, of a type the event declares. -/
def optItem (value : Json F) (key : String) : Except PyExc (Option Str) :=
  match value with
  | .obj members => (Json.optStr (dictGet (lit key) members)).elim (.error (.typeError [])) .ok
  | _ => .error attributeError

/-- `_event_from_dict`. -/
def eventFromDict (value : Json F) : Except PyExc (AuditEvent F) := do
  let eventId ← value.itemText (lit "event_id")
  let correlationId ← value.itemText (lit "correlation_id")
  let runId ← value.itemText (lit "run_id")
  let tsItem ← value.item (lit "ts_epoch_ms")
  let tsEpochMs ← tsItem.pyInt.elim (.error (.valueError [])) .ok
  let eventType ← value.itemText (lit "event_type")
  let payloadItem ← value.item (lit "payload")
  let payload ← payloadItem.pyDict.elim (.error (.typeError [])) .ok
  let prevHash ← optItem value "prev_hash"
  let hash ← optItem value "hash"
  return { eventId, correlationId, runId, tsEpochMs, eventType, payload, prevHash, hash }

/-- The body `record` sends. -/
def recordBody (call : RecordCall F) : PyDict F :=
  [(lit "correlation_id", .str call.correlationId), (lit "run_id", .str call.runId),
    (lit "event_type", .str call.eventType), (lit "payload", .dict call.payload)]

/-- `record`; the service draws the event id and the time. -/
def record (call : RecordCall F) : PyM W (AuditEvent F) := do
  let data ← remote.post urlopen (lit "/v1/audit/events") (recordBody call)
  .ofExcept (eventFromDict data)

/-- Two dictionaries are equal: the same JSON, whatever the order of members.
A dictionary that holds more than JSON is not equal to one that was read. -/
def sameDict (d d' : PyDict F) : Bool :=
  match (PyVal.ofFields d).plain, (PyVal.ofFields d').plain with
  | some j, some j' => j.sortKeys.render == j'.sortKeys.render
  | _, _ => false

def alteredMessage : Str := lit "Remote audit service altered the appended event"

def append (e : AuditEvent F) : PyM W Unit := do
  let data ← remote.post urlopen (lit "/v1/audit/events/append") e.toDict
  let returned ← PyM.ofExcept (eventFromDict data)
  if !sameDict returned.toDict e.toDict then .raise (.auditIntegrityError alteredMessage)
  else return ()

/-- The path of `last_hash`. -/
def tailPath (quoted : Str) : Str := lit "/v1/audit/chains/" ++ quoted ++ lit "/tail"

def lastHash (F : Type) [PyValues F] (correlationId : Str) : PyM W (Option Str) := do
  let quoted ← PyM.ofExcept (quote correlationId)
  let data : Json F ← remote.get urlopen (tailPath quoted)
  match data with
  | .obj _ => .ofExcept (optItem data "last_hash")
  | _ => return none

/-- The path of `verify`. -/
def verifyPath (correlationId : Str) : Except PyExc Str :=
  if correlationId = [] then .ok (lit "/v1/audit/verify")
  else do
    let quoted ← quote correlationId
    return lit "/v1/audit/verify" ++ lit "?correlation_id=" ++ quoted

def verify (F : Type) [PyValues F] (correlationId : Str) : PyM W Int := do
  let path ← PyM.ofExcept (verifyPath correlationId)
  let data : Json F ← remote.get urlopen path
  let item ← PyM.ofExcept (data.item (lit "events_verified"))
  .ofExcept (item.pyInt.elim (.error (.valueError [])) .ok)

end RemoteAuditStore

/-! ### What is relied on of the framework -/

/-- The framework of a control plane at `baseUrl` routes the requests of the
client to the routes they are for, with percent-encoding undone, decodes a body
that its headers call JSON, and prints any JSON answer that UTF-8 can carry as a text that reads back.
A path parameter is one segment of a path: not empty, and without a slash. -/
structure WebFramework [PyFloat F] (baseUrl : Str) (service : AuditService F) : Prop where
  record : ∀ (headers : List (Str × Str)) (text : Str) (bytes : List UInt8) (members : JsonObj F),
    (lit "Content-Type", lit "application/json") ∈ headers → encodeUtf8 text = some bytes → Json.loads text = some (.obj members) →
    service.parse ⟨lit "POST", baseUrl ++ lit "/v1/audit/events", headers, some bytes⟩ =
      some (.record members)
  append : ∀ (headers : List (Str × Str)) (text : Str) (bytes : List UInt8) (body : AppendBody F),
    (lit "Content-Type", lit "application/json") ∈ headers → encodeUtf8 text = some bytes → Json.loads text = some (.obj body.members) →
    service.parse ⟨lit "POST", baseUrl ++ lit "/v1/audit/events/append", headers, some bytes⟩ =
      some (.append body)
  tail : ∀ (headers : List (Str × Str)) (correlationId quoted : Str),
    quote correlationId = .ok quoted → correlationId ≠ [] → 47 ∉ correlationId →
    service.parse ⟨lit "GET", baseUrl ++ RemoteAuditStore.tailPath quoted, headers, none⟩ =
      some (.tail correlationId)
  verify : ∀ (headers : List (Str × Str)) (correlationId path : Str),
    RemoteAuditStore.verifyPath correlationId = .ok path →
    service.parse ⟨lit "GET", baseUrl ++ path, headers, none⟩ = some (.verify correlationId)
  respond : ∀ j : Json F, j.Clean → Scalars j.render →
    ∃ text, service.respond (PyVal.ofJson j) = some text ∧ Json.loads text = some j

end AgentRoi
