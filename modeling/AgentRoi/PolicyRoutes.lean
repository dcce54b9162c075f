/-
The routes that answer with a policy bundle, as a client over HTTP sees them.

* `PolicyRead`, `answerRead` — a request for a bundle, and what its route
  answers;
* `PolicyServer` — the application behind a web framework, which authenticates
  principals, routes requests and prints answers;
* `PolicyWeb` — what is relied on of the framework;
* `PolicyWire` — the application, and whether clients reach it;
* `PolicyServer.client` — a `ControlPlaneClient` on such a wire;
* `PolicyServer.asked` — the same read, made in the process of the service.
-/
import AgentRoi.PolicyStock
import AgentRoi.RemoteAudit

namespace AgentRoi

variable {F V T W X Y O α : Type}

/-! ### The routes -/

/-- A request to `/active`, or to `/resolve` for an agent. -/
structure PolicyRead where
  key : PolicyKey
  agent : Option Str

namespace PolicyStore

variable (store : PolicyStore F V T)

def findActiveRevision (key : PolicyKey) (t : ControlPlaneTables V T) : Except PyExc ℕ := do
  store.format.bindKey key
  match t.activeRow key with
  | some row => return row.revision
  | none => .error (.keyError [lit "No active policy: " ++ key.organizationId ++ lit "/" ++
      key.environment ++ lit "/" ++ key.name])

/-- `get_active_revision`. -/
def getActiveRevision (key : PolicyKey) : Proc (StoreWorld F V T) PyExc ℕ :=
  reading (store.findActiveRevision key)

end PolicyStore

namespace ControlPlaneService

variable [PyFloatOps F] (service : ControlPlaneService F V T W)

/-- `policy_for_agent`, or `active_policy` where there is no agent. -/
def read (request : PolicyRead) : PyM (ServiceWorld F V T W) (PolicyBundle F) :=
  match request.agent with
  | none => service.activePolicy request.key
  | some agentId => service.policyForAgent request.key agentId

variable {service} {request : PolicyRead}

theorem sameStore_read : PyM.Moves SameStore (service.read request) := by
  unfold read
  split
  · exact sameStore_activePolicy request.key
  · exact sameStore_policyForAgent request.key _

end ControlPlaneService

namespace ControlPlaneApi

variable [LE Y] [PyFloatOps F] (api : ControlPlaneApi F V T W X Y O) (principal : Principal)

/-- What the routes `active_policy` and `resolve_policy` answer. -/
def answerRead (request : PolicyRead) : PyM (ApiWorld F V T W X Y O) (PyDict F) := do
  api.require principal (lit "policy.read") request.key.name request.key.environment
    request.key.organizationId
  answering (fun e => if e.isKeyError then some 404 else none) do
    let bundle ← onService (api.service.read request)
    let fields ← .ofExcept bundle.toDict
    match request.agent with
    | none => do
      let revision ← onService (onStore (api.service.store.getActiveRevision request.key))
      return fields ++ [(lit "revision", .int revision)]
    | some _ => return fields

end ControlPlaneApi

/-! ### The server -/

/-- The application as it is served.  `authenticate` is the principal of a
request, none where its headers are refused; `parse` is the route a request is
for, and `respond` the text of an answer, none where it cannot be printed. -/
structure PolicyServer (F V T W X Y O : Type) [LE Y] where
  api : ControlPlaneApi F V T W X Y O
  authenticate : List (Str × Str) → ApiWorld F V T W X Y O → Option Principal
  parse : HttpRequest → Option PolicyRead
  respond : PyVal F → Option Str

/-- The headers of a request without a body. -/
def ControlPlaneClient.headers (bearerToken : Str) : List (Str × Str) :=
  (lit "Accept", lit "application/json") ::
    if bearerToken = [] then []
    else [(lit "Authorization", lit "Bearer " ++ bearerToken)]

namespace PolicyServer

variable [LE Y] (server : PolicyServer F V T W X Y O)

/-- What a client gets for what a handler raised; what is no `Exception` takes
the connection with it. -/
def errorAnswer : PyExc → HttpAnswer
  | .httpException status detail => .httpError status
    ((server.respond (.ofFields [(lit "detail", .str detail)])).getD [])
  | exc => if exc.isException then .httpError 500 (lit "Internal Server Error") else .osError

/-- The answer to a read of a principal. -/
def answer [PyFloatOps F] (principal : Principal) (request : PolicyRead) :
    PyM (ApiWorld F V T W X Y O) HttpAnswer :=
  .tryExcept (do
    let fields ← server.api.answerRead principal request
    match server.respond (.ofFields fields) with
    | some text => return .body text
    | none => return .httpError 500 (lit "Internal Server Error"))
  fun exc => return server.errorAnswer exc

/-- The answer to a request. -/
def handle [PyFloatOps F] (req : HttpRequest) : PyM (ApiWorld F V T W X Y O) HttpAnswer :=
  match server.parse req with
  | none => return .httpError 404 []
  | some request => do
    let w ← PyM.get
    match server.authenticate req.headers w with
    | none => return server.errorAnswer (.httpException 401 (lit "Authentication failed"))
    | some principal => server.answer principal request

/-- A read of a principal, in the process of the service. -/
def askAs [PyFloatOps F] (principal : Principal) (request : PolicyRead) :
    PyM (ApiWorld F V T W X Y O) (PolicyBundle F) := do
  server.api.require principal (lit "policy.read") request.key.name request.key.environment
    request.key.organizationId
  onService (server.api.service.read request)

/-- A read with the headers of a request, in the process of the service. -/
def ask [PyFloatOps F] (headers : List (Str × Str)) (request : PolicyRead) :
    PyM (ApiWorld F V T W X Y O) (PolicyBundle F) := do
  let w ← PyM.get
  match server.authenticate headers w with
  | none => .raise (.httpException 401 (lit "Authentication failed"))
  | some principal => server.askAs principal request

end PolicyServer

/-- A segment of a path: not empty, without a slash, and of texts that UTF-8
encodes. -/
structure IsSegment (text : Str) : Prop where
  nonempty : text ≠ []
  slash : 47 ∉ text
  scalars : Scalars text

/-- A request that can be put into a URL. -/
structure PolicyRead.Routable (request : PolicyRead) : Prop where
  organizationId : IsSegment request.key.organizationId
  name : IsSegment request.key.name
  environment : IsSegment request.key.environment
  agent : ∀ agentId, request.agent = some agentId → Scalars agentId

/-- The URL of a read, after the base of the client. -/
def PolicyRead.path (request : PolicyRead) : Except PyExc Str := do
  let path ← ControlPlaneClient.policyPath request.key
  match request.agent with
  | none => return path ++ lit "/active"
  | some agentId => do
    let agent ← quotePlus agentId
    return path ++ lit "/resolve?agent_id=" ++ agent

/-- The framework of a control plane at `baseUrl` routes the reads of the
client with percent-encoding undone, and prints any JSON answer that UTF-8 can
carry as a text that reads back. -/
structure PolicyWeb [PyFloat F] [LE Y] (baseUrl : Str) (server : PolicyServer F V T W X Y O) :
    Prop where
  read : ∀ (headers : List (Str × Str)) (request : PolicyRead) (path : Str), request.Routable →
    request.path = .ok path →
    server.parse ⟨lit "GET", baseUrl ++ path, headers, none⟩ = some request
  respond : ∀ j : Json F, j.Clean → Scalars j.render →
    ∃ text, server.respond (PyVal.ofJson j) = some text ∧ Json.loads text = some j

/-! ### The wire -/

/-- The application, and whether clients reach it. -/
structure PolicyWire (F V T W X Y O : Type) where
  api : ApiWorld F V T W X Y O
  reachable : Bool

def PolicyWire.setOutside (v : PolicyWire F V T W X Y O) (o : W) : PolicyWire F V T W X Y O :=
  { v with api := { v.api with service := { v.api.service with outside := o } } }

/-- A method of the application. -/
def onApi (x : PyM (ApiWorld F V T W X Y O) α) : PyM (PolicyWire F V T W X Y O) α :=
  .on PolicyWire.api (fun w a => { w with api := a }) x

/-- A method of the world outside, which clients and the service share. -/
def outsideWire (x : PyM W α) : PyM (PolicyWire F V T W X Y O) α := onApi (onService (onOutside x))

/-- A signer, where a client uses it. -/
def PolicySigner.wired (signer : PolicySigner W) : PolicySigner (PolicyWire F V T W X Y O) where
  keyId := signer.keyId
  sign payload := outsideWire (signer.sign payload)
  verify payload signature := outsideWire (signer.verify payload signature)

namespace PolicyServer

variable [LE Y] [PyFloatOps F] (server : PolicyServer F V T W X Y O)

/-- `urlopen` on a GET request. -/
def urlopen (bearerToken url : Str) : PyM (PolicyWire F V T W X Y O) HttpAnswer := do
  let w ← PyM.get
  if w.reachable then
    onApi (server.handle ⟨lit "GET", url, ControlPlaneClient.headers bearerToken, none⟩)
  else return .osError

/-- A read in the process of the service, which answers no one else while it
cannot be reached. -/
def asked (headers : List (Str × Str)) (request : PolicyRead) :
    PyM (PolicyWire F V T W X Y O) (PolicyBundle F) := do
  let w ← PyM.get
  if w.reachable then onApi (server.ask headers request)
  else .raise (controlPlaneError (lit "Control plane is unavailable"))

/-- A client of the server. -/
def client (baseUrl bearerToken : Str) (signer : PolicySigner W) (utcNow : PyM W Str) :
    ControlPlaneClient (PolicyWire F V T W X Y O) where
  baseUrl := baseUrl
  hash := server.api.service.hash
  signer := some signer.wired
  urlopen := server.urlopen bearerToken
  utcNow := outsideWire utcNow

end PolicyServer

end AgentRoi
