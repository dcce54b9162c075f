/-
`agent_roi.approvals`: requests, records and the two approval repositories.

* `ApprovalRequest`, `ApprovalRecord` — what a broker submits and decides;
* `ApprovalRepository` — the tables of `SqliteApprovalRepository` and of
  `PostgresApprovalRepository`, each call one serialised transaction.

A request is stored as JSON and read back as it was: its fields are strings,
integers, a finite cost and JSON-ready metadata.  No caller passes an
`expected_revision`.
-/
import AgentRoi.ApprovalGrant

namespace AgentRoi

inductive ApprovalStatus where
  | pending
  | approved
  | denied
  | expired
  | cancelled
  deriving DecidableEq

structure ApprovalRequest where
  requestId : Str
  checkpointId : Str
  actionDigest : Str
  organizationId : Str
  environment : Str
  agentId : Str
  correlationId : Str
  runId : Str
  toolName : Str
  toolVersion : Str
  risk : Str
  estimatedCostUsd : ℚ
  argumentsDigest : Str
  policyDigest : Str
  createdAtEpochMs : Int
  expiresAtEpochMs : Int
  requestedBy : Str
  summary : Str
  argumentCount : Nat
  keywordNames : List Str
  deriving DecidableEq

structure ApprovalRecord where
  request : ApprovalRequest
  status : ApprovalStatus
  externalId : Str
  decidedBy : Str
  reason : Str
  decidedAtEpochMs : Int
  deriving DecidableEq

/-- `summary or f"Approve {checkpoint['tool_name']} execution"`; the broker
passes a summary that is not empty. -/
def ApprovalRequest.fromCheckpoint (requestId : Str) (checkpoint : Checkpoint)
    (organizationId environment agentId requestedBy summary : Str) (argumentCount : Nat)
    (keywordNames : List Str) : ApprovalRequest where
  requestId := requestId
  checkpointId := checkpoint.checkpointId
  actionDigest := checkpoint.actionDigest
  organizationId := organizationId
  environment := environment
  agentId := agentId
  correlationId := checkpoint.correlationId
  runId := checkpoint.runId
  toolName := checkpoint.toolName
  toolVersion := checkpoint.toolVersion
  risk := checkpoint.risk
  estimatedCostUsd := checkpoint.estimatedCostUsd
  argumentsDigest := checkpoint.argumentsDigest
  policyDigest := checkpoint.policyDigest
  createdAtEpochMs := checkpoint.createdAtEpochMs
  expiresAtEpochMs := checkpoint.expiresAtEpochMs
  requestedBy := requestedBy
  summary := summary
  argumentCount := argumentCount
  keywordNames := keywordNames

inductive RepositoryKind where
  | sqlite
  | postgres
  deriving DecidableEq

/-- A row of `approval_grants`. -/
structure StoredGrant where
  grant : ApprovalGrant
  consumed : Bool
  deriving DecidableEq

structure ApprovalRepository where
  records : Str → Option ApprovalRecord
  grants : Str → Option StoredGrant

namespace ApprovalRepository

/-- A repository without rows. -/
def empty : ApprovalRepository := ⟨fun _ => none, fun _ => none⟩

/-- The row of `approval_records` that a write leaves: `ON CONFLICT DO UPDATE`
keeps the request of the row that is there. -/
def mergeRecord (row : Option ApprovalRecord) (record : ApprovalRecord) : ApprovalRecord :=
  { record with request := (row.map ApprovalRecord.request).getD record.request }

def putRecord (repo : ApprovalRepository) (record : ApprovalRecord) : ApprovalRepository where
  records := Function.update repo.records record.request.checkpointId
    (some (mergeRecord (repo.records record.request.checkpointId) record))
  grants := repo.grants

def putGrant (repo : ApprovalRepository) (row : StoredGrant) : ApprovalRepository where
  records := repo.records
  grants := Function.update repo.grants row.grant.actionDigest (some row)

/-- `save_record`: an upsert. -/
def saveRecord (record : ApprovalRecord) : PyM ApprovalRepository Unit :=
  .modify (putRecord · record)

/-- `get_record`; none where it raises `KeyError`. -/
def getRecord (checkpointId : Str) : PyM ApprovalRepository (Option ApprovalRecord) := do
  let repo ← PyM.get
  return repo.records checkpointId

/-- `save_grant`: an upsert, which makes a consumed row new again. -/
def saveGrant (grant : ApprovalGrant) : PyM ApprovalRepository Unit :=
  .modify (putGrant · ⟨grant, false⟩)

/-- `get_grant`; none where it raises `KeyError`.  PostgreSQL reads no
consumed and no expired grant, and an empty checkpoint id as none. -/
def getGrant (kind : RepositoryKind) (actionDigest : Str) (nowMs : Int) :
    PyM ApprovalRepository (Option ApprovalGrant) := do
  let repo ← PyM.get
  match kind, repo.grants actionDigest with
  | _, none => return none
  | .sqlite, some row => return some row.grant
  | .postgres, some row =>
    if row.consumed ∨ row.grant.expiresAtEpochMs < nowMs then return none
    else return some { row.grant with checkpointId := row.grant.checkpointId.filter (· ≠ []) }

/-- What `get_grant` reads. -/
theorem getGrant_cases (kind : RepositoryKind) (actionDigest : Str) (nowMs : Int)
    (repo : ApprovalRepository) :
    getGrant kind actionDigest nowMs repo = (.ok none, repo) ∨
      ∃ row checkpointId, repo.grants actionDigest = some row ∧
        (kind = .postgres → row.consumed = false) ∧
        getGrant kind actionDigest nowMs repo = (.ok (some { row.grant with checkpointId }), repo) := by
  rcases hrow : repo.grants actionDigest with _ | row
  · refine .inl ?_
    cases kind <;> simp [getGrant, PyM.bind_apply, hrow]
  · cases kind with
    | sqlite =>
      refine .inr ⟨row, row.grant.checkpointId, rfl, (by intro h; cases h), ?_⟩
      simp [getGrant, PyM.bind_apply, hrow]
    | postgres =>
      by_cases h : row.consumed ∨ row.grant.expiresAtEpochMs < nowMs
      · refine .inl ?_
        simp only [getGrant, PyM.bind_apply, PyM.get_apply, hrow, if_pos h, PyM.pure_apply]
      · refine .inr ⟨row, row.grant.checkpointId.filter (· ≠ []), rfl, fun _ => ?_, ?_⟩
        · simpa using (not_or.mp h).1
        · simp only [getGrant, PyM.bind_apply, PyM.get_apply, hrow, if_neg h, PyM.pure_apply]

/-- `PostgresApprovalRepository.consume_grant`. -/
def consumeGrant (actionDigest : Str) (nowMs : Int) : PyM ApprovalRepository ApprovalGrant := do
  let repo ← PyM.get
  match repo.grants actionDigest with
  | none => .raise (.keyError [actionDigest])
  | some row =>
    if row.consumed ∨ row.grant.expiresAtEpochMs < nowMs then .raise (.keyError [actionDigest])
    else
      .set (putGrant repo ⟨row.grant, true⟩)
      return { row.grant with checkpointId := row.grant.checkpointId.filter (· ≠ []) }

/-- A grant is consumed once, while it lives. -/
theorem consumeGrant_cases (actionDigest : Str) (nowMs : Int) (repo : ApprovalRepository) :
    consumeGrant actionDigest nowMs repo = (.error (.keyError [actionDigest]), repo) ∨
      ∃ row checkpointId, repo.grants actionDigest = some row ∧ row.consumed = false ∧
        consumeGrant actionDigest nowMs repo =
          (.ok { row.grant with checkpointId }, putGrant repo ⟨row.grant, true⟩) := by
  rcases hrow : repo.grants actionDigest with _ | row
  · refine .inl ?_
    simp [consumeGrant, PyM.bind_apply, hrow]
  · by_cases h : row.consumed ∨ row.grant.expiresAtEpochMs < nowMs
    · refine .inl ?_
      simp only [consumeGrant, PyM.bind_apply, PyM.get_apply, hrow, if_pos h, PyM.raise_apply]
    · refine .inr ⟨row, row.grant.checkpointId.filter (· ≠ []), rfl, ?_, ?_⟩
      · simpa using (not_or.mp h).1
      · simp only [consumeGrant, PyM.bind_apply, PyM.get_apply, hrow, if_neg h, PyM.set_apply,
          PyM.pure_apply]

end ApprovalRepository

end AgentRoi
