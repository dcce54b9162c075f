/-
`PolicyBundle`, `PolicySigner` and `ControlPlaneService` of
`agent_roi.enterprise.control_plane`.

* `PolicyBundle.create`, `PolicyBundle.verify` — a signed bundle, and the check
  of its digest, signature and policy;
* `ServiceWorld` — the store of the service, the world outside of it and the
  exceptions `verify_bundle` raised;
* `publishPolicy`, `activatePolicy`, `promotePolicy`, `rollbackPolicy`,
  `startRollout`, `cancelRollout`, `activePolicy`, `policyForAgent` — the
  methods of the service, run one at a time.

Signers, the event sink and the clock are methods on the world outside.
-/
import AgentRoi.ControlPlaneMethods
import AgentRoi.EventSinks
import AgentRoi.PolicyLoader

namespace AgentRoi

variable {F V T W α : Type}

def policySignatureError (message : Str) : PyExc :=
  .other (lit "PolicySignatureError") (some message) true

structure PolicySigner (W : Type) where
  keyId : Str
  sign : List UInt8 → PyM W Str
  verify : List UInt8 → Str → PyM W Bool

/-- What a verified signature stands for: `verify` accepts what `sign` made. -/
def PolicySigner.Agrees (signer : PolicySigner W) : Prop :=
  ∀ payload signature w w', signer.sign payload w = (.ok signature, w') →
    ∀ v, (signer.verify payload signature v).1 = .ok true

/-- `HMACPolicySigner`; `mac` is HMAC-SHA256 under its secret. -/
def hmacSigner (mac : List UInt8 → Str) (keyId : Str) : PolicySigner W where
  keyId := keyId
  sign payload := return mac payload
  verify payload signature :=
    -- `hmac.compare_digest` takes no texts beyond ASCII
    if signature.all fun c => c < 128 then return decide (mac payload = signature)
    else .raise (.typeError [])

theorem hmacSigner_agrees {mac : List UInt8 → Str} (hmac : ∀ m, ∀ c ∈ mac m, c < 128)
    (keyId : Str) : (hmacSigner mac keyId : PolicySigner W).Agrees := by
  intro payload signature w w' hsign v
  cases hsign
  simp only [hmacSigner, List.all_eq_true, decide_eq_true_eq]
  rw [if_pos (hmac payload)]
  rfl

/-! ### Bundles -/

namespace PolicyBundle

section

variable [PyFloat F]

/-- The bytes that are signed, `canonical_json({…}).encode("utf-8")`. -/
def envelope (key : PolicyKey) (version : Str) (policy : List (Str × Json F)) :
    Except PyExc (List UInt8) :=
  match encodeUtf8 (canonicalJson (.ofFields [
      (lit "organization_id", .str key.organizationId), (lit "name", .str key.name),
      (lit "environment", .str key.environment), (lit "version", .str version),
      (lit "policy", .ofJson (.obj policy))])) with
  | some payload => .ok payload
  | none => .error .unicodeEncodeError

theorem envelope_eq_ok {key : PolicyKey} {version : Str} {policy : List (Str × Json F)}
    {payload : List UInt8} : envelope key version policy = .ok payload ↔
      encodeUtf8 (canonicalJson (.ofFields [
        (lit "organization_id", .str key.organizationId), (lit "name", .str key.name),
        (lit "environment", .str key.environment), (lit "version", .str version),
        (lit "policy", .ofJson (.obj policy))])) = some payload := by
  unfold envelope
  split
  · next found hfound => rw [hfound, Except.ok.injEq, Option.some.injEq]
  · next hnone =>
    rw [hnone]
    exact ⟨nofun, nofun⟩

def signingPayload (bundle : PolicyBundle F) : Except PyExc (List UInt8) := do
  let policy ← asDict bundle.policy
  envelope bundle.key bundle.version policy

def toDict (bundle : PolicyBundle F) : Except PyExc (PyDict F) := do
  let policy ← asDict bundle.policy
  return [
    (lit "organization_id", .str bundle.key.organizationId),
    (lit "name", .str bundle.key.name),
    (lit "environment", .str bundle.key.environment),
    (lit "version", .str bundle.version),
    (lit "policy", .ofJson (.obj policy)),
    (lit "digest", .str bundle.digest),
    (lit "signature", .str bundle.signature),
    (lit "signer_key_id", .str bundle.signerKeyId),
    (lit "status", .str bundle.status),
    (lit "created_at_utc", .str bundle.createdAtUtc),
    (lit "created_by", .str bundle.createdBy)]

/-- `to_jsonable(dict(policy))`. -/
def normalized (policy : List (PyKey F × PyVal F)) : List (Str × Json F) :=
  dictOf (sortByKey (toJsonableItems policy))

end

variable [PyFloatOps F]

/-- `now` is the clock of `created_at_utc`. -/
def create (H : Sha256) (now : PyM W Str) (key : PolicyKey) (version : Str)
    (policy : List (PyKey F × PyVal F)) (signer : PolicySigner W) (createdBy : Str) :
    PyM W (PolicyBundle F) := do
  let _ ← PyM.ofExcept (policyFromMapping key.name (normalized policy))
  let payload ← PyM.ofExcept (envelope key version (normalized policy))
  let signature ← signer.sign payload
  let createdAtUtc ← now
  return {
    key := key
    version := version
    policy := .obj (normalized policy)
    digest := H.hexdigest payload
    signature := signature
    signerKeyId := signer.keyId
    status := lit "published"
    createdAtUtc := createdAtUtc
    createdBy := createdBy }

def verify (H : Sha256) (bundle : PolicyBundle F) (signer : PolicySigner W) : PyM W Unit := do
  let payload ← PyM.ofExcept bundle.signingPayload
  if H.hexdigest payload ≠ bundle.digest then
    .raise (policySignatureError (lit "Policy bundle digest is invalid"))
  else if signer.keyId ≠ bundle.signerKeyId then
    .raise (policySignatureError (lit "Policy bundle signature is invalid"))
  else do
    let valid ← signer.verify payload bundle.signature
    if valid then do
      let policy ← PyM.ofExcept (asDict bundle.policy)
      let _ ← PyM.ofExcept (policyFromMapping bundle.key.name policy)
      return ()
    else .raise (policySignatureError (lit "Policy bundle signature is invalid"))

/-- What a bundle passes that verifies. -/
theorem verify_eq_ok {H : Sha256} {bundle : PolicyBundle F} {signer : PolicySigner W} {o o' : W} :
    bundle.verify H signer o = (.ok (), o') ↔
      ∃ payload members accepted, bundle.signingPayload = .ok payload ∧
        H.hexdigest payload = bundle.digest ∧ signer.keyId = bundle.signerKeyId ∧
        signer.verify payload bundle.signature o = (.ok true, o') ∧
        asDict bundle.policy = .ok members ∧
        policyFromMapping bundle.key.name members = .ok accepted := by
  unfold verify
  simp only [PyM.ofExcept_bind_eq_ok]
  refine exists_congr fun payload => ?_
  by_cases hdigest : H.hexdigest payload = bundle.digest
  · by_cases hkey : signer.keyId = bundle.signerKeyId
    · simp only [hdigest, hkey, ne_eq, not_true_eq_false, if_false, true_and, exists_and_left]
      refine and_congr_right fun _ => ?_
      rcases hvalid : signer.verify payload bundle.signature o with ⟨e | _ | _, v⟩
      · rw [PyM.bind_of_error hvalid]
        simp
      · rw [PyM.bind_of_ok hvalid]
        simp
      · rw [PyM.bind_of_ok hvalid]
        simp only [if_true, PyM.ofExcept_bind_eq_ok, Prod.mk.injEq, true_and]
        constructor
        · rintro ⟨members, hmembers, accepted, haccepted, h⟩
          cases h
          exact ⟨rfl, members, hmembers, accepted, haccepted⟩
        · rintro ⟨rfl, members, hmembers, accepted, haccepted⟩
          exact ⟨members, hmembers, accepted, haccepted, rfl⟩
    · simp [hdigest, hkey]
  · simp [hdigest]

end PolicyBundle

/-! ### The service -/

/-- `rejected` are the exceptions that `verify_bundle` raised, newest first. -/
structure ServiceWorld (F V T W : Type) where
  store : StoreWorld F V T
  outside : W
  rejected : List PyExc

/-- A call of the store. -/
def onStore (p : Proc (StoreWorld F V T) PyExc α) : PyM (ServiceWorld F V T W) α :=
  .on ServiceWorld.store (fun w s => { w with store := s }) p.run

/-- A call of a signer, the event sink or the clock. -/
def onOutside (x : PyM W α) : PyM (ServiceWorld F V T W) α :=
  .on ServiceWorld.outside (fun w o => { w with outside := o }) x

/-- `eventStamp` is the `id` and the `time` of a new event. -/
structure ControlPlaneService (F V T W : Type) where
  store : PolicyStore F V T
  hash : Sha256
  signers : Str → Option (PolicySigner W)
  defaultSignerKeyId : Str
  default_configured : (signers defaultSignerKeyId).isSome
  requireSignedBundles : Bool
  eventSink : Option (CloudEvent F → PyM W Unit)
  utcNow : PyM W Str
  eventStamp : PyM W (Str × Str)

namespace ControlPlaneService

variable [PyFloatOps F] (service : ControlPlaneService F V T W)

/-- `_emit`. -/
def emit (eventType : String) (data : PyDict F) : PyM (ServiceWorld F V T W) Unit :=
  match service.eventSink with
  | none => return ()
  | some sink => onOutside do
    let stamp ← service.eventStamp
    sink {
      type := lit "com.agentroi.policy." ++ lit eventType
      source := lit "/agent-roi/control-plane"
      data := data.map fun p => (.str p.1, p.2)
      subject := match dictGet (lit "name") data with
        | some (.str name) => name
        | _ => lit "policy"
      id := stamp.1
      time := stamp.2
      specversion := lit "1.0"
      datacontenttype := lit "application/json" }

/-- `self.signers[signer_key_id or self.default_signer_key_id]`. -/
def signerFor (signerKeyId : Str) : Except PyExc (PolicySigner W) :=
  let keyId := if signerKeyId = [] then service.defaultSignerKeyId else signerKeyId
  (service.signers keyId).elim (.error (.keyError [keyId])) .ok

def publishPolicy (key : PolicyKey) (version : Str) (policy : List (PyKey F × PyVal F))
    (createdBy signerKeyId : Str) : PyM (ServiceWorld F V T W) (PolicyBundle F) := do
  let signer ← PyM.ofExcept (service.signerFor signerKeyId)
  let bundle ← onOutside
    (PolicyBundle.create service.hash service.utcNow key version policy signer createdBy)
  onStore (service.store.saveBundle bundle)
  let data ← PyM.ofExcept bundle.toDict
  service.emit "published" data
  return bundle

/-- The checks of `verify_bundle`. -/
def check (bundle : PolicyBundle F) : PyM W Unit :=
  match service.signers bundle.signerKeyId with
  | none => .raise
      (policySignatureError (lit "Unknown policy signing key: " ++ bundle.signerKeyId))
  | some signer => bundle.verify service.hash signer

/-- `verify_bundle`. -/
def verifyBundle (bundle : PolicyBundle F) : PyM (ServiceWorld F V T W) Unit :=
  .tryExcept (onOutside (service.check bundle)) fun e => do
    .modify fun w => { w with rejected := e :: w.rejected }
    .raise e

def activatePolicy (key : PolicyKey) (version activatedBy : Str) (expected : Option Int) :
    PyM (ServiceWorld F V T W) (PolicyBundle F) := do
  let now ← onOutside service.utcNow
  let bundle ← onStore (service.store.activate key version now activatedBy expected)
  service.verifyBundle bundle
  let data ← PyM.ofExcept bundle.toDict
  service.emit "activated" data
  return bundle

/-- `get_rollout`, of a row. -/
def rolloutDict (row : RolloutRow T) : PyDict F := [
  (lit "organization_id", .str row.key.organizationId),
  (lit "name", .str row.key.name),
  (lit "environment", .str row.key.environment),
  (lit "primary_version", .str row.primaryVersion),
  (lit "candidate_version", .str row.candidateVersion),
  (lit "candidate_percentage", .int row.candidatePercentage),
  (lit "seed", .str row.seed),
  (lit "updated_at_utc", .str (service.store.format.timeText row.updatedAtUtc)),
  (lit "updated_by", .str row.updatedBy),
  (lit "revision", .int row.revision)]

def startRollout (key : PolicyKey) (candidate : Str) (percentage : Int) (updatedBy seed : Str)
    (expected : Option Int) : PyM (ServiceWorld F V T W) (RolloutRow T) := do
  let now ← onOutside service.utcNow
  let rollout ← onStore (service.store.startRollout service.hash key candidate percentage now
    updatedBy seed expected)
  service.emit "rollout_started" (service.rolloutDict rollout)
  return rollout

def cancelRollout (key : PolicyKey) : PyM (ServiceWorld F V T W) Unit := do
  onStore (service.store.cancelRollout key)
  service.emit "rollout_cancelled" [
    (lit "organization_id", .str key.organizationId), (lit "name", .str key.name),
    (lit "environment", .str key.environment)]

/-- `verify_bundle`, where signed bundles are required. -/
def verifyRequired (bundle : PolicyBundle F) : PyM (ServiceWorld F V T W) Unit :=
  if service.requireSignedBundles then service.verifyBundle bundle else return ()

def policyForAgent (key : PolicyKey) (agentId : Str) :
    PyM (ServiceWorld F V T W) (PolicyBundle F) := do
  let bundle ← onStore (service.store.resolveActive service.hash key agentId)
  service.verifyRequired bundle
  return bundle

def activePolicy (key : PolicyKey) : PyM (ServiceWorld F V T W) (PolicyBundle F) := do
  let bundle ← onStore (service.store.getActive key)
  service.verifyRequired bundle
  return bundle

/-- `promote_policy` up to the event `promoted`. -/
def publishPromoted (organizationId name sourceEnvironment targetEnvironment sourceVersion
    targetVersion promotedBy signerKeyId : Str) :
    PyM (ServiceWorld F V T W) (PolicyBundle F) := do
  let source ← onStore
    (service.store.getBundle ⟨organizationId, name, sourceEnvironment⟩ sourceVersion)
  service.verifyRequired source
  let policy ← PyM.ofExcept (asDict source.policy)
  let version := if targetVersion = [] then source.version else targetVersion
  let promoted ← service.publishPolicy ⟨organizationId, name, targetEnvironment⟩ version
    (PyVal.ofJsonMembers policy) promotedBy signerKeyId
  let data ← PyM.ofExcept promoted.toDict
  service.emit "promoted" (data ++ [(lit "source_environment", .str sourceEnvironment),
    (lit "source_version", .str sourceVersion)])
  return promoted

def promotePolicy (organizationId name sourceEnvironment targetEnvironment sourceVersion
    targetVersion promotedBy signerKeyId : Str) (activate : Bool) :
    PyM (ServiceWorld F V T W) (PolicyBundle F) := do
  let promoted ← service.publishPromoted organizationId name sourceEnvironment targetEnvironment
    sourceVersion targetVersion promotedBy signerKeyId
  if activate then
    service.activatePolicy ⟨organizationId, name, targetEnvironment⟩ promoted.version promotedBy
      none
  else return promoted

def rollbackPolicy (key : PolicyKey) (version rolledBackBy : Str) :
    PyM (ServiceWorld F V T W) (PolicyBundle F) := do
  let bundle ← service.activatePolicy key version rolledBackBy none
  service.cancelRollout key
  let data ← PyM.ofExcept bundle.toDict
  service.emit "rolled_back" (data ++ [(lit "rolled_back_by", .str rolledBackBy)])
  return bundle

end ControlPlaneService

end AgentRoi
