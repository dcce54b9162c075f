/-
`ApprovalBroker` of `agent_roi.approvals`: any number of brokers, as programs
in atomic steps.

* `ApprovalSystem`, `ApprovalState` — the brokers' settings, and their
  memories over one repository, with the clock and what lies outside;
* `ApprovalBroker.call`, `ApprovalBroker.decide` — `__call__` and `decide`;
* `BrokerEvent` — what the operations do, logged newest first.

A broker holds its lock during an operation, so its memory is its own.  One
step is one use of the clock, the repository, the authorizer or the provider,
with the code on the broker's memory next to it; two uses of the clock with
nothing in between are one.  `W` is the state outside the package and `P` the
type of principals.
-/
import AgentRoi.ApprovalRepository
import AgentRoi.EventTrace
import AgentRoi.Interleaving

namespace AgentRoi

structure ApprovalProvider (W : Type) where
  submit : ApprovalRequest → PyM W Str
  update : ApprovalRecord → PyM W Unit

/-- `authorizer.require(principal, action, resource, context={"environment": …})`. -/
abbrev Authorizer (W P : Type) := P → Str → Str → Str → PyM W Unit

structure BrokerConfig (W P : Type) where
  provider : ApprovalProvider W
  organizationId : Str
  environment : Str
  agentId : Str
  requestedBy : Str
  authorizer : Option (Authorizer W P)

/-- Brokers over one repository, or over none.  `database` is the failure a
transaction may meet and `subject` is `getattr(principal, "subject", principal)`. -/
structure ApprovalSystem (W P : Type) where
  config : ℕ → BrokerConfig W P
  repository : Option RepositoryKind
  database : PyM W Unit
  uuid4 : PyM W Str
  subject : P → Str

/-- `_records`, `_grants` and `_approved_actions`. -/
structure BrokerMemory where
  records : Str → Option ApprovalRecord
  grants : Str → Option ApprovalGrant
  approvedActions : Str → Option ApprovalGrant

namespace BrokerMemory

def empty : BrokerMemory := ⟨fun _ => none, fun _ => none, fun _ => none⟩

def putRecord (memory : BrokerMemory) (checkpointId : Str) (record : ApprovalRecord) :
    BrokerMemory :=
  { memory with records := Function.update memory.records checkpointId (some record) }

def putGrant (memory : BrokerMemory) (checkpointId : Str) (grant : ApprovalGrant) :
    BrokerMemory :=
  { memory with grants := Function.update memory.grants checkpointId (some grant) }

def putAction (memory : BrokerMemory) (grant : ApprovalGrant) : BrokerMemory :=
  { memory with
    approvedActions := Function.update memory.approvedActions grant.actionDigest (some grant) }

/-- `self._grants.pop(checkpoint_id, None)`. -/
def dropGrant (memory : BrokerMemory) (checkpointId : Str) : BrokerMemory :=
  { memory with grants := Function.update memory.grants checkpointId none }

/-- `self._approved_actions.pop(action_digest, None)`. -/
def dropAction (memory : BrokerMemory) (actionDigest : Str) : BrokerMemory :=
  { memory with approvedActions := Function.update memory.approvedActions actionDigest none }

/-- The grant kept for the checkpoint, when it validates. -/
def heldGrant (memory : BrokerMemory) (checkpoint : Checkpoint) (nowMs : Int) :
    Option ApprovalGrant :=
  (memory.grants checkpoint.checkpointId).filter fun grant =>
    (grant.validate checkpoint nowMs).isOk

end BrokerMemory

/-- What the brokers do.  `called`, `lookedUp` and `decideBegan` hold what the
operation finds when it begins. -/
inductive BrokerEvent (P : Type) where
  | called (checkpoint : Checkpoint) (held approvedAction : Option ApprovalGrant)
    (stored : Option StoredGrant) (nowMs : Int)
  | granted (checkpoint : Checkpoint) (grant : ApprovalGrant) (nowMs : Int)
  | lookedUp (checkpointId : Str) (stored : Option ApprovalRecord)
  | decideBegan (checkpointId : Str) (cached stored : Option ApprovalRecord)
  | authorized (principal : P) (toolName environment : Str)
  | approved (request : ApprovalRequest) (principal : P) (nowMs : Int) (ttlSeconds : Option Int)
  | savedRecord (record : ApprovalRecord)
  | savedGrant (grant : ApprovalGrant)
  | decided (record : ApprovalRecord)
  | consumed (actionDigest : Str)
  | failed (error : PyExc)
  deriving DecidableEq

structure ApprovalState (W P : Type) where
  nowMs : Int
  outside : W
  repository : ApprovalRepository
  brokers : ℕ → BrokerMemory
  trace : List (ℕ × BrokerEvent P)

namespace ApprovalState

variable {W P α : Type}

def setMemory (i : ℕ) (memory : BrokerMemory) (s : ApprovalState W P) : ApprovalState W P :=
  { s with brokers := Function.update s.brokers i memory }

def log (i : ℕ) (event : BrokerEvent P) (s : ApprovalState W P) : ApprovalState W P :=
  { s with trace := (i, event) :: s.trace }

/-- A call of something outside the package. -/
def onOutside (x : PyM W α) : PyM (ApprovalState W P) α :=
  .on outside (fun s w => { s with outside := w }) x

/-- One transaction of the repository. -/
def transact (sys : ApprovalSystem W P) (x : PyM ApprovalRepository α) :
    PyM (ApprovalState W P) α := do
  onOutside sys.database
  .on repository (fun s repo => { s with repository := repo }) x

/-- A call whose failure is logged. -/
def reporting (i : ℕ) (x : PyM (ApprovalState W P) α) : PyM (ApprovalState W P) α :=
  .tryExcept x fun e => do
    .modify (log i (.failed e))
    .raise e

end ApprovalState

namespace ApprovalBroker

open ApprovalState

variable {W P : Type}

/-- `time.time()`. -/
def clock : PyM (ApprovalState W P) Int := fun s => (.ok s.nowMs, s)

/-! ### `__call__` -/

/-- How far `__call__` gets with the approved actions. -/
inductive Lookup where
  | granted (grant : ApprovalGrant)
  | expired
  | absent

/-- The replay of an approved action for the checkpoint. -/
def replay (i : ℕ) (checkpoint : Checkpoint) (approvedAction : ApprovalGrant) :
    PyM (ApprovalState W P) Lookup := do
  let s ← PyM.get
  if s.nowMs ≤ approvedAction.expiresAtEpochMs then
    let grant ← .ofExcept (ApprovalGrant.create checkpoint.actionDigest approvedAction.approvedBy
      (min approvedAction.expiresAtEpochMs checkpoint.expiresAtEpochMs)
      (some checkpoint.checkpointId) approvedAction.reason)
    .modify (setMemory i ((s.brokers i).putGrant checkpoint.checkpointId grant))
    .modify (log i (.granted checkpoint grant s.nowMs))
    return .granted grant
  else
    .modify (setMemory i ((s.brokers i).dropAction checkpoint.actionDigest))
    return .expired

/-- The grant kept for the checkpoint, or the approved action kept for its
digest. -/
def cachedGrant (i : ℕ) (checkpoint : Checkpoint) : PyM (ApprovalState W P) Lookup := do
  let s ← PyM.get
  .modify (log i (.called checkpoint ((s.brokers i).grants checkpoint.checkpointId)
    ((s.brokers i).approvedActions checkpoint.actionDigest)
    (s.repository.grants checkpoint.actionDigest) s.nowMs))
  match (s.brokers i).heldGrant checkpoint s.nowMs with
  | some grant =>
    .modify (log i (.granted checkpoint grant s.nowMs))
    return .granted grant
  | none =>
    .modify (setMemory i ((s.brokers i).dropGrant checkpoint.checkpointId))
    match (s.brokers i).approvedActions checkpoint.actionDigest with
    | none => return .absent
    | some approvedAction => replay i checkpoint approvedAction

/-- `self.repository.get_grant(action_digest)` and its replay. -/
def storedGrant (sys : ApprovalSystem W P) (kind : RepositoryKind) (i : ℕ)
    (checkpoint : Checkpoint) : PyM (ApprovalState W P) Lookup := do
  let s ← PyM.get
  match ← transact sys (ApprovalRepository.getGrant kind checkpoint.actionDigest s.nowMs) with
  | none => return .absent
  | some approvedAction => replay i checkpoint approvedAction

/-- Whether the checkpoint has a record, in memory or in the repository. -/
def lookUpRecord (sys : ApprovalSystem W P) (i : ℕ) (checkpointId : Str) :
    PyM (ApprovalState W P) Bool := do
  let s ← PyM.get
  match (s.brokers i).records checkpointId, sys.repository with
  | some _, _ => return true
  | none, none => return false
  | none, some _ =>
    .modify (log i (.lookedUp checkpointId (s.repository.records checkpointId)))
    match ← transact sys (ApprovalRepository.getRecord checkpointId) with
    | none => return false
    | some record =>
      .modify (setMemory i ((s.brokers i).putRecord checkpointId record))
      return true

/-- `provider.submit`, and the pending record of the request. -/
def submitRequest (sys : ApprovalSystem W P) (i : ℕ) (checkpoint : Checkpoint)
    (toolName risk : Str) (argumentCount : Nat) (keywordNames : List Str) :
    PyM (ApprovalState W P) ApprovalRecord := do
  let requestId ← onOutside sys.uuid4
  let config := sys.config i
  let request := ApprovalRequest.fromCheckpoint requestId checkpoint config.organizationId
    config.environment config.agentId config.requestedBy
    (lit "Approve " ++ toolName ++ lit " (" ++ risk ++ lit " risk)") argumentCount keywordNames
  let externalId ← onOutside (config.provider.submit request)
  let record : ApprovalRecord := ⟨request, .pending, externalId, [], [], 0⟩
  let s ← PyM.get
  .modify (setMemory i ((s.brokers i).putRecord checkpoint.checkpointId record))
  return record

/-- `if self.repository is not None:` one write, `event` when it succeeds. -/
def store (sys : ApprovalSystem W P) (i : ℕ) (write : PyM ApprovalRepository Unit)
    (event : BrokerEvent P) : PyM (ApprovalState W P) Unit :=
  match sys.repository with
  | none => pure ()
  | some _ => do
    reporting i (transact sys write)
    .modify (log i event)

/-- `self.repository.save_record(record)`. -/
def storeRecord (sys : ApprovalSystem W P) (i : ℕ) (record : ApprovalRecord) :
    PyM (ApprovalState W P) Unit :=
  store sys i (ApprovalRepository.saveRecord record) (.savedRecord record)

/-- `__call__` without a grant: one request for each checkpoint. -/
def requestApproval (sys : ApprovalSystem W P) (i : ℕ) (checkpoint : Checkpoint)
    (toolName risk : Str) (argumentCount : Nat) (keywordNames : List Str) :
    Proc (ApprovalState W P) PyExc (Option ApprovalGrant) := do
  let known ← .atomic (lookUpRecord sys i checkpoint.checkpointId)
  if known then return none
  else
    let record ← .atomic (submitRequest sys i checkpoint toolName risk argumentCount keywordNames)
    .atomic (storeRecord sys i record)
    return none

/-- What `__call__` does after `cachedGrant`. -/
def searchRepository (sys : ApprovalSystem W P) (i : ℕ) (checkpoint : Checkpoint)
    (cached : Lookup) : Proc (ApprovalState W P) PyExc Lookup :=
  match cached, sys.repository with
  | .absent, some kind => .atomic (storedGrant sys kind i checkpoint)
  | _, _ => pure cached

/-- `__call__(spec, args, kwargs, checkpoint)`; none is `False`. -/
def call (sys : ApprovalSystem W P) (i : ℕ) (checkpoint : Checkpoint) (toolName risk : Str)
    (argumentCount : Nat) (keywordNames : List Str) :
    Proc (ApprovalState W P) PyExc (Option ApprovalGrant) := do
  let cached ← .atomic (cachedGrant i checkpoint)
  match ← searchRepository sys i checkpoint cached with
  | .granted grant => return some grant
  | _ => requestApproval sys i checkpoint toolName risk argumentCount keywordNames

/-! ### `decide` -/

/-- The record `decide` works on, from memory or else from the repository. -/
def currentRecord (sys : ApprovalSystem W P) (i : ℕ) (checkpointId : Str) :
    PyM (ApprovalState W P) ApprovalRecord := do
  let s ← PyM.get
  .modify (log i (.decideBegan checkpointId ((s.brokers i).records checkpointId)
    (s.repository.records checkpointId)))
  match (s.brokers i).records checkpointId, sys.repository with
  | some record, _ => return record
  | none, none => .raise (.keyError [lit "Approval checkpoint not found: " ++ checkpointId])
  | none, some _ =>
    match ← transact sys (ApprovalRepository.getRecord checkpointId) with
    | none => .raise (.keyError [lit "Approval checkpoint not found: " ++ checkpointId])
    | some record =>
      .modify (setMemory i ((s.brokers i).putRecord checkpointId record))
      return record

/-- `if current.status is not ApprovalStatus.PENDING: raise …`. -/
def requirePending (current : ApprovalRecord) : Except PyExc ApprovalRecord :=
  if current.status = .pending then .ok current
  else .error (.valueError (lit "Approval request has already been decided"))

def beginDecide (sys : ApprovalSystem W P) (i : ℕ) (checkpointId : Str) :
    PyM (ApprovalState W P) ApprovalRecord := do
  let current ← currentRecord sys i checkpointId
  .ofExcept (requirePending current)

/-- `authorizer.require`, where there is an authorizer. -/
def authorize (sys : ApprovalSystem W P) (i : ℕ) (principal : P) (request : ApprovalRequest) :
    PyM (ApprovalState W P) Unit :=
  match (sys.config i).authorizer with
  | none => pure ()
  | some require => do
    onOutside (require principal (lit "approval.decide") request.toolName request.environment)
    .modify (log i (.authorized principal request.toolName request.environment))

/-- The record of a request that ran out. -/
def expiredRecord (current : ApprovalRecord) (nowMs : Int) : ApprovalRecord :=
  ⟨current.request, .expired, current.externalId, [], [], nowMs⟩

/-- The checks on the approver, and the record of the decision. -/
def decisionRecord (current : ApprovalRecord) (approved : Bool) (subject reason : Str)
    (nowMs : Int) : Except PyExc ApprovalRecord :=
  if strip subject = [] then .error (.valueError (lit "Approver identity is required"))
  else if current.request.requestedBy ≠ [] ∧ strip subject = current.request.requestedBy then
    .error (.permissionError (lit "Requesters cannot approve their own actions"))
  else .ok ⟨current.request, if approved then .approved else .denied, current.externalId,
    strip subject, reason, nowMs⟩

/-- `int(ttl_seconds or 900)`. -/
def ttlOrDefault : Option Int → Int
  | none => 900
  | some ttlSeconds => if ttlSeconds = 0 then 900 else ttlSeconds

/-- The grant of an approval. -/
def decisionGrant (record : ApprovalRecord) (checkpointId : Str) (nowMs : Int)
    (ttlSeconds : Option Int) : Except PyExc ApprovalGrant :=
  ApprovalGrant.create record.request.actionDigest record.decidedBy
    (min (nowMs + ttlOrDefault ttlSeconds * 1000) record.request.expiresAtEpochMs)
    (some checkpointId) record.reason

/-- `self._records[checkpoint_id] = record` and `save_record`. -/
def settleRecord (sys : ApprovalSystem W P) (i : ℕ) (checkpointId : Str)
    (record : ApprovalRecord) : PyM (ApprovalState W P) Unit := do
  let s ← PyM.get
  .modify (setMemory i ((s.brokers i).putRecord checkpointId record))
  storeRecord sys i record

/-- Both maps of grants and `save_grant`. -/
def settleGrant (sys : ApprovalSystem W P) (i : ℕ) (checkpointId : Str) (grant : ApprovalGrant)
    (event : BrokerEvent P) : PyM (ApprovalState W P) Unit := do
  let s ← PyM.get
  .modify (setMemory i (((s.brokers i).putGrant checkpointId grant).putAction grant))
  .modify (log i event)
  store sys i (ApprovalRepository.saveGrant grant) (.savedGrant grant)

/-- `provider.update(record)`. -/
def updateProvider (sys : ApprovalSystem W P) (i : ℕ) (record : ApprovalRecord) :
    PyM (ApprovalState W P) Unit :=
  reporting i (onOutside ((sys.config i).provider.update record))

/-- The grant of an approved record. -/
def grantApproval (sys : ApprovalSystem W P) (i : ℕ) (checkpointId : Str)
    (record : ApprovalRecord) (principal : P) (nowMs : Int) (ttlSeconds : Option Int) :
    Proc (ApprovalState W P) PyExc Unit :=
  match decisionGrant record checkpointId nowMs ttlSeconds with
  | .error e => .raise e
  | .ok grant => .atomic (settleGrant sys i checkpointId grant
      (.approved record.request principal nowMs ttlSeconds))

/-- `return record`. -/
def finishDecide (sys : ApprovalSystem W P) (i : ℕ) (record : ApprovalRecord) :
    PyM (ApprovalState W P) ApprovalRecord := do
  updateProvider sys i record
  .modify (log i (.decided record))
  return record

/-- The end of `decide`, once the record is settled. -/
def concludeDecide (sys : ApprovalSystem W P) (i : ℕ) (checkpointId : Str) (approved : Bool)
    (record : ApprovalRecord) (principal : P) (nowMs : Int) (ttlSeconds : Option Int) :
    Proc (ApprovalState W P) PyExc ApprovalRecord :=
  match approved with
  | true => do
    grantApproval sys i checkpointId record principal nowMs ttlSeconds
    .atomic (finishDecide sys i record)
  | false => .atomic (finishDecide sys i record)

/-- `decide` on a request that ran out. -/
def expireRequest (sys : ApprovalSystem W P) (i : ℕ) (checkpointId : Str)
    (current : ApprovalRecord) (nowMs : Int) : Proc (ApprovalState W P) PyExc ApprovalRecord := do
  .atomic (settleRecord sys i checkpointId (expiredRecord current nowMs))
  .atomic (updateProvider sys i (expiredRecord current nowMs))
  .raise (.valueError (lit "Approval request has expired"))

/-- `decide` on a request that lives. -/
def judgeRequest (sys : ApprovalSystem W P) (i : ℕ) (checkpointId : Str) (approved : Bool)
    (principal : P) (reason : Str) (ttlSeconds : Option Int) (current : ApprovalRecord)
    (nowMs : Int) : Proc (ApprovalState W P) PyExc ApprovalRecord := do
  .atomic (authorize sys i principal current.request)
  match decisionRecord current approved (sys.subject principal) reason nowMs with
  | .error e => .raise e
  | .ok record =>
    .atomic (settleRecord sys i checkpointId record)
    concludeDecide sys i checkpointId approved record principal nowMs ttlSeconds

/-- `decide(checkpoint_id, approved=…, principal=…, reason=…, ttl_seconds=…)`. -/
def decide (sys : ApprovalSystem W P) (i : ℕ) (checkpointId : Str) (approved : Bool)
    (principal : P) (reason : Str) (ttlSeconds : Option Int) :
    Proc (ApprovalState W P) PyExc ApprovalRecord := do
  let current ← .atomic (beginDecide sys i checkpointId)
  let nowMs ← .atomic clock
  if current.request.expiresAtEpochMs < nowMs then
    expireRequest sys i checkpointId current nowMs
  else judgeRequest sys i checkpointId approved principal reason ttlSeconds current nowMs

/-! ### Operations -/

/-- `PostgresApprovalRepository.consume_grant`, by any process. -/
def consume (sys : ApprovalSystem W P) (i : ℕ) (actionDigest : Str) :
    PyM (ApprovalState W P) ApprovalGrant := do
  let s ← PyM.get
  let grant ← transact sys (ApprovalRepository.consumeGrant actionDigest s.nowMs)
  .modify (log i (.consumed actionDigest))
  return grant

inductive Operation (P : Type) where
  | call (checkpoint : Checkpoint) (toolName risk : Str) (argumentCount : Nat)
    (keywordNames : List Str)
  | decide (checkpointId : Str) (approved : Bool) (principal : P) (reason : Str)
    (ttlSeconds : Option Int)
  | consume (actionDigest : Str)

/-- The operation as a program of the broker `i`. -/
def perform (sys : ApprovalSystem W P) (i : ℕ) :
    Operation P → Proc (ApprovalState W P) PyExc Unit
  | .call checkpoint toolName risk argumentCount keywordNames => do
    let _ ← call sys i checkpoint toolName risk argumentCount keywordNames
  | .decide checkpointId approved principal reason ttlSeconds => do
    let _ ← ApprovalBroker.decide sys i checkpointId approved principal reason ttlSeconds
  | .consume actionDigest => do
    let _ ← .atomic (consume sys i actionDigest)

/-- Brokers that were just built, over an empty repository. -/
def Fresh (s : ApprovalState W P) : Prop :=
  s.repository = .empty ∧ (∀ i, s.brokers i = .empty) ∧ s.trace = []

/-- Time passes, and things happen outside. -/
inductive Passes : ApprovalState W P → ApprovalState W P → Prop
  | intro {s : ApprovalState W P} {nowMs : Int} (w : W) (h : s.nowMs ≤ nowMs) :
    Passes s { s with nowMs := nowMs, outside := w }

/-- The operations there are: `__call__` on checkpoints that are `passed` to
it, `decide`, and `consume_grant` of a PostgreSQL repository. -/
def Operation.Allowed (sys : ApprovalSystem W P) (passed : Checkpoint → Prop) :
    Operation P → Prop
  | .call checkpoint _ _ _ _ => passed checkpoint
  | .decide _ _ _ _ _ => True
  | .consume _ => sys.repository = some .postgres

/-- The programs of the broker `i`. -/
def Programs (sys : ApprovalSystem W P) (passed : Checkpoint → Prop) (i : ℕ)
    (p : Proc (ApprovalState W P) PyExc Unit) : Prop :=
  ∃ op : Operation P, op.Allowed sys passed ∧ p = perform sys i op

/-- Operations that run one after the other, each alone. -/
def performAll (sys : ApprovalSystem W P) :
    List (ℕ × Operation P) → ApprovalState W P → ApprovalState W P
  | [], s => s
  | (i, op) :: ops, s => performAll sys ops ((perform sys i op).run s).2

theorem reach_performAll {sys : ApprovalSystem W P} {passed : Checkpoint → Prop}
    {ops : List (ℕ × Operation P)} {s : ApprovalState W P}
    (h : Pool.Reach Fresh (Programs sys passed) Passes ⟨s, fun _ => none⟩)
    (hops : ∀ x ∈ ops, x.2.Allowed sys passed) :
    Pool.Reach Fresh (Programs sys passed) Passes ⟨performAll sys ops s, fun _ => none⟩ := by
  induction ops generalizing s with
  | nil => exact h
  | cons x ops ih =>
    obtain ⟨i, op⟩ := x
    exact ih (h.run ⟨op, hops _ List.mem_cons_self, rfl⟩)
      fun y hy => hops y (List.mem_cons_of_mem _ hy)

/-! ### A sample -/

/-- Brokers whose provider accepts everything and whose authorizer allows
everybody. -/
def sampleSystem (requestedBy : ℕ → Str) (repository : Option RepositoryKind) :
    ApprovalSystem Unit Str where
  config i := ⟨⟨fun _ => pure (lit "ticket"), fun _ => pure ()⟩, lit "org", lit "prod",
    lit "agent", requestedBy i, some fun _ _ _ _ => pure ()⟩
  repository := repository
  database := pure ()
  uuid4 := pure (lit "request")
  subject := id

def sampleDigest : Str := List.replicate 64 97

def sampleCheckpoint : Checkpoint where
  checkpointId := lit "cp"
  correlationId := lit "corr"
  runId := lit "run"
  toolName := lit "pay"
  toolVersion := lit "1"
  risk := lit "high"
  estimatedCostUsd := 0
  actionDigest := sampleDigest
  policyDigest := []
  argumentsDigest := []
  createdAtEpochMs := 0
  expiresAtEpochMs := 1000
  principalSubject := []
  organizationId := lit "org"
  environment := lit "prod"
  agentId := lit "agent"

def sampleCall : Operation Str := .call sampleCheckpoint (lit "pay") (lit "high") 0 []

def sampleDecide (approved : Bool) (subject : Str) : Operation Str :=
  .decide (lit "cp") approved subject [] none

def sampleGrant (approvedBy : Str) (hne : approvedBy ≠ []) (hstrip : strip approvedBy = approvedBy) :
    ApprovalGrant :=
  ⟨sampleDigest, approvedBy, 1000, some (lit "cp"), [], by decide, hne, hstrip⟩

def freshState : ApprovalState Unit Str := ⟨0, (), .empty, fun _ => .empty, []⟩

theorem reach_sample (sys : ApprovalSystem Unit Str) (passed : Checkpoint → Prop)
    (ops : List (ℕ × Operation Str)) (hops : ∀ x ∈ ops, x.2.Allowed sys passed) :
    Pool.Reach Fresh (Programs sys passed) Passes
      ⟨performAll sys ops freshState, fun _ => none⟩ :=
  reach_performAll (.init ⟨rfl, fun _ => rfl, rfl⟩) hops

end ApprovalBroker

end AgentRoi
