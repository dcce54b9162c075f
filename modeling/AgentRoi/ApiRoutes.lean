/-
`create_fastapi_app` of `agent_roi.enterprise.control_plane`: the routes, with
an OIDC verifier configured.

* `ApiWorld` — what the routes work on: the policy service, the identity
  store, the ROI ledger and the stores behind the other routes;
* `ControlPlaneApi` — the arguments of `create_fastapi_app`;
* `require` — the check every route begins with;
* `publishPolicy`, …, `roiRecordCost` — the routes that write, each a method of
  the world that returns when the request is accepted;
* `ApiRequest`, `handle` — a request of an authenticated principal.

A request runs alone.  `Moment` is what the clock and the id generator yield
to it.
-/
import AgentRoi.ControlPlaneClients
import AgentRoi.IdentityStore
import AgentRoi.RoiLedger

namespace AgentRoi

variable {F V T W X Y O α : Type}

structure ApiWorld (F V T W X Y O : Type) where
  service : ServiceWorld F V T W
  identity : IdentityTables
  roi : RoiTables F X Y
  elsewhere : O

/-- What `date.today().isoformat()`, `_utc_now()` and `str(uuid.uuid4())` yield. -/
structure Moment where
  today : Str
  now : Str
  uuid : Str

/-- What Python makes of values of a body for which there is no built-in:
`float(value)`, `Decimal(str(value))`, and what a driver stores in a column of
text. -/
structure BodyReader (F : Type) where
  float : Json F → Except PyExc (FloatVal F)
  decimal : Json F → Option PyDecimal
  column : Json F → Except PyExc Str
  column_text : ∀ text, column (.str text) = .ok text

/-- The arguments of `create_fastapi_app`, and the reader.  The authorizer
reads what it likes. -/
structure ControlPlaneApi (F V T W X Y O : Type) [LE Y] where
  service : ControlPlaneService F V T W
  identityStore : Option IdentityStore
  roiLedger : Option (RoiStore F X Y)
  authorizer : Option (Principal → Str → Str → Str → ApiWorld F V T W X Y O → Except PyExc Unit)
  reader : BodyReader F

/-! ### Parts of the world -/

def onService (x : PyM (ServiceWorld F V T W) α) : PyM (ApiWorld F V T W X Y O) α :=
  .on ApiWorld.service (fun w s => { w with service := s }) x

def onIdentity (x : PyM IdentityTables α) : PyM (ApiWorld F V T W X Y O) α :=
  .on ApiWorld.identity (fun w t => { w with identity := t }) x

def onRoi (p : Proc (RoiTables F X Y) PyExc α) : PyM (ApiWorld F V T W X Y O) α :=
  .on ApiWorld.roi (fun w t => { w with roi := t }) p.run

def onElsewhere (x : PyM O α) : PyM (ApiWorld F V T W X Y O) α :=
  .on ApiWorld.elsewhere (fun w o => { w with elsewhere := o }) x

/-! ### Answers -/

/-- `HTTPException(status_code=…, detail=str(exc))`. -/
def asHttp (status : ℕ) (e : PyExc) : PyExc := .httpException status (e.text.getD [])

def PyExc.isKeyError : PyExc → Bool
  | .keyError _ => true
  | _ => false

/-- `UnicodeEncodeError` is a `ValueError`. -/
def PyExc.isValueError : PyExc → Bool
  | .valueError _ | .unicodeEncodeError => true
  | _ => false

def PyExc.isTypeError : PyExc → Bool
  | .typeError _ => true
  | _ => false

/-- `PolicySignatureError` is a `ControlPlaneError`. -/
def PyExc.isControlPlaneError : PyExc → Bool
  | .other className _ _ => className = lit "ControlPlaneError" ||
    className = lit "PolicySignatureError"
  | _ => false

/-- `except … as exc: raise HTTPException(…)`. -/
def answering {σ : Type} (status : PyExc → Option ℕ) (x : PyM σ α) : PyM σ α :=
  .tryExcept x fun e => .raise ((status e).elim e fun code => asHttp code e)

theorem answering_eq_ok {σ : Type} {status : PyExc → Option ℕ} {x : PyM σ α} {s s' : σ} {a : α} :
    answering status x s = (.ok a, s') ↔ x s = (.ok a, s') := by
  unfold answering
  rw [PyM.tryExcept_eq_ok]
  exact or_iff_left fun ⟨_, _, _, h⟩ => nomatch h

/-- A route of a part that was given to the application. -/
def installed {σ β : Type} (part : Option β) (route : β → PyM σ α) : PyM σ α :=
  part.elim (.raise (.httpException 404 (lit "Not Found"))) route

theorem installed_eq_ok {σ β : Type} {part : Option β} {route : β → PyM σ α} {s s' : σ} {a : α} :
    installed part route s = (.ok a, s') ↔ ∃ b, part = some b ∧ route b s = (.ok a, s') := by
  cases part with
  | none => exact ⟨(nomatch ·), fun ⟨_, h, _⟩ => nomatch h⟩
  | some b => exact ⟨fun h => ⟨b, rfl, h⟩, fun ⟨_, hb, h⟩ => Option.some.inj hb ▸ h⟩

/-! ### Bodies -/

/-- A JSON object, `dict[str, Any]`. -/
abbrev RequestBody (F : Type) := List (Str × Json F)

/-- `fn(**body)`, of a function that takes the keywords. -/
def bindKeywords (required optional : List String) (body : RequestBody F) : Except PyExc Unit :=
  if (body.all fun member => (required ++ optional).any fun name => lit name = member.1) &&
      required.all fun name => (dictGet (lit name) body).isSome then .ok ()
  else .error (.typeError [])

/-- `body.get(name, default)`. -/
def bodyGet (body : RequestBody F) (name : String) (default : Json F) : Json F :=
  (dictGet (lit name) body).getD default

/-- `body[name]`. -/
def bodyItem (body : RequestBody F) (name : String) : Except PyExc (Json F) :=
  (dictGet (lit name) body).elim (.error (.keyError [lit name])) .ok

/-- The text of an argument that must be one; other values are refused as the
blank text is. -/
def textOf : Json F → Str
  | .str text => text
  | _ => []

/-- The receiver of `value.strip()`. -/
def receiver : Json F → Except PyExc Str
  | .str text => .ok text
  | _ => .error attributeError

section

variable [PyValues F]

/-- `value or ""`, for a column. -/
def BodyReader.columnOrEmpty (reader : BodyReader F) (value : Json F) : Except PyExc Str :=
  if value.truthy then reader.column value else .ok []

/-- `dict(value or {})`. -/
def mapping (value : Json F) : Except PyExc (List (PyKey F × PyVal F)) := do
  let members ← asDict (orEmpty value)
  return PyVal.ofJsonMembers members

/-- `int(value)`. -/
def intArgument (value : Json F) : Except PyExc Int :=
  value.pyInt.elim (.error (.valueError [])) .ok

/-- `str(body.get(name, default))`. -/
def bodyText (body : RequestBody F) (name : String) (default : String) : Str :=
  (bodyGet body name (.str (lit default))).pyStr

/-- `body.setdefault("recorded_by", subject)`. -/
def setRecordedBy (subject : Str) (body : RequestBody F) : RequestBody F :=
  if (dictGet (lit "recorded_by") body).isSome then body
  else body ++ [(lit "recorded_by", .str subject)]

/-- The items of a JSON value that is iterated over, as texts. -/
def itemTexts : Json F → Except PyExc (List Str)
  | .arr items => .ok (items.map Json.pyStr)
  | .str text => .ok (text.map fun c => [c])
  | .obj members => .ok (members.map Prod.fst)
  | _ => .error (.typeError [])

/-- `value[1:-1]` of a text in quotes. -/
def unquoted (value : Str) : Str :=
  if 2 ≤ value.length ∧ value.head? = some 34 ∧ value.getLast? = some 34 then
    value.tail.dropLast
  else value

variable (F) in
/-- `expected_revision`. -/
def expectedRevision (ifMatch : Str) : Except PyExc (Option Int) :=
  let stripped := strip ifMatch
  let value := unquoted
    (if (lit "W/").isPrefixOf stripped then strip (stripped.drop 2) else stripped)
  if value = [] then .ok none
  else
    match (Json.str value : Json F).pyInt with
    | none => .error (.httpException 400 (lit "If-Match must contain an integer revision"))
    | some revision =>
      if revision < 1 then
        .error (.httpException 400 (lit "If-Match revision must be >= 1"))
      else .ok (some revision)

/-- The keyword arguments of `create_opportunity`, out of a body. -/
def BodyReader.opportunityForm (reader : BodyReader F) (body : RequestBody F) :
    Except PyExc (OpportunityForm F) := do
  bindKeywords ["organization_id", "agent_id", "business_unit", "business_owner", "title",
    "value_type", "value_period", "baseline_usd", "forecast_value_usd", "confidence",
    "source_key", "created_by"]
    ["currency_code", "measurement_start", "measurement_end", "metadata", "opportunity_id"] body
  let confidence ← reader.float (bodyGet body "confidence" .null)
  let currencyCode ← receiver (bodyGet body "currency_code" (.str (lit "USD")))
  let measurementStart ← reader.column (bodyGet body "measurement_start" (.str []))
  let measurementEnd ← reader.column (bodyGet body "measurement_end" (.str []))
  let metadata ← mapping (bodyGet body "metadata" .null)
  let opportunityId ← reader.columnOrEmpty (bodyGet body "opportunity_id" (.str []))
  return {
    organizationId := textOf (bodyGet body "organization_id" .null)
    agentId := textOf (bodyGet body "agent_id" .null)
    businessUnit := textOf (bodyGet body "business_unit" .null)
    businessOwner := textOf (bodyGet body "business_owner" .null)
    title := textOf (bodyGet body "title" .null)
    valueType := textOf (bodyGet body "value_type" .null)
    valuePeriod := textOf (bodyGet body "value_period" .null)
    baselineUsd := reader.decimal (bodyGet body "baseline_usd" .null)
    forecastValueUsd := reader.decimal (bodyGet body "forecast_value_usd" .null)
    confidence := confidence
    sourceKey := textOf (bodyGet body "source_key" .null)
    createdBy := textOf (bodyGet body "created_by" .null)
    currencyCode := currencyCode
    measurementStart := measurementStart
    measurementEnd := measurementEnd
    metadata := metadata
    opportunityId := opportunityId }

/-- The arguments of `record_value`, out of a body. -/
def BodyReader.valueForm (reader : BodyReader F) (opportunityId : Str) (body : RequestBody F) :
    Except PyExc ValueForm := do
  bindKeywords ["stage", "amount_usd", "evidence_key", "recorded_by"]
    ["evidence_uri", "measurement_date", "notes"] body
  let evidenceKey ← receiver (bodyGet body "evidence_key" .null)
  let recordedBy ← receiver (bodyGet body "recorded_by" .null)
  let evidenceUri ← reader.column (bodyGet body "evidence_uri" (.str []))
  let measurementDate ← reader.columnOrEmpty (bodyGet body "measurement_date" (.str []))
  let notes ← reader.column (bodyGet body "notes" (.str []))
  return {
    opportunityId := opportunityId
    stage := textOf (bodyGet body "stage" .null)
    amountUsd := reader.decimal (bodyGet body "amount_usd" .null)
    evidenceKey := evidenceKey
    recordedBy := recordedBy
    evidenceUri := evidenceUri
    measurementDate := measurementDate
    notes := notes }

/-- The keyword arguments of `record_cost`, out of a body. -/
def BodyReader.costForm (reader : BodyReader F) (body : RequestBody F) : Except PyExc CostForm := do
  bindKeywords ["organization_id", "agent_id", "cost_type", "amount_usd", "currency_code",
    "evidence_key", "recorded_by"] ["opportunity_id", "incurred_date", "notes"] body
  let agentId ← reader.column (bodyGet body "agent_id" .null)
  let currencyCode ← receiver (bodyGet body "currency_code" .null)
  let evidenceKey ← receiver (bodyGet body "evidence_key" .null)
  let recordedBy ← receiver (bodyGet body "recorded_by" .null)
  let opportunityId ← reader.columnOrEmpty (bodyGet body "opportunity_id" (.str []))
  let incurredDate ← reader.columnOrEmpty (bodyGet body "incurred_date" (.str []))
  let notes ← reader.column (bodyGet body "notes" (.str []))
  return {
    organizationId := textOf (bodyGet body "organization_id" .null)
    agentId := agentId
    costType := textOf (bodyGet body "cost_type" .null)
    amountUsd := reader.decimal (bodyGet body "amount_usd" .null)
    currencyCode := currencyCode
    evidenceKey := evidenceKey
    recordedBy := recordedBy
    opportunityId := opportunityId
    incurredDate := incurredDate
    notes := notes }

end

/-! ### Routes -/

namespace ControlPlaneApi

variable [LE Y]

/-- `require`. -/
def require (api : ControlPlaneApi F V T W X Y O) (principal : Principal)
    (action resource environment organizationId : Str) : PyM (ApiWorld F V T W X Y O) Unit := fun w =>
  if organizationId ≠ [] ∧ principal.organizationId ≠ organizationId then
    (.error (.httpException 403 (lit "Cross-organization access denied")), w)
  else
    match api.authorizer with
    | none => (.ok (), w)
    | some authorize =>
      match authorize principal action resource environment w with
      | .ok _ => (.ok (), w)
      | .error e =>
        (.error (if e.isException then .httpException 403 (lit "Authorization denied") else e), w)

variable [PyValues F] [PyDecimalFloat F] (api : ControlPlaneApi F V T W X Y O) (moment : Moment)
  (principal : Principal)

/-! #### Policies -/

def publishPolicy (key : PolicyKey) (version : Str) (body : RequestBody F) :
    PyM (ApiWorld F V T W X Y O) Unit := do
  api.require principal (lit "policy.publish") key.name key.environment key.organizationId
  answering (fun e => if e.isException then some 400 else none) do
    let policy ← .ofExcept (bodyItem body "policy")
    let members ← .ofExcept (asDict policy)
    let _ ← onService (api.service.publishPolicy key version (PyVal.ofJsonMembers members)
      principal.subject (bodyText body "signer_key_id" ""))
    return ()

def activatePolicy (key : PolicyKey) (version ifMatch : Str) :
    PyM (ApiWorld F V T W X Y O) Unit := do
  api.require principal (lit "policy.activate") key.name key.environment key.organizationId
  answering (fun e => if e.isKeyError then some 404
      else if e.isControlPlaneError then some 409 else none) do
    let expected ← .ofExcept (expectedRevision F ifMatch)
    let _ ← onService (api.service.activatePolicy key version principal.subject expected)
    return ()

def activePolicy (key : PolicyKey) : PyM (ApiWorld F V T W X Y O) Unit := do
  api.require principal (lit "policy.read") key.name key.environment key.organizationId
  answering (fun e => if e.isKeyError then some 404 else none) do
    let _ ← onService (api.service.activePolicy key)
    return ()

def promotePolicy (organizationId sourceEnvironment name sourceVersion targetEnvironment : Str)
    (body : RequestBody F) : PyM (ApiWorld F V T W X Y O) Unit := do
  api.require principal (lit "policy.promote") name targetEnvironment organizationId
  answering (fun e => if e.isKeyError || e.isValueError then some 400 else none) do
    let _ ← onService (api.service.promotePolicy organizationId name sourceEnvironment
      targetEnvironment sourceVersion (bodyText body "target_version" "") principal.subject
      (bodyText body "signer_key_id" "") (bodyGet body "activate" (.bool false)).truthy)
    return ()

def rollbackPolicy (key : PolicyKey) (version : Str) : PyM (ApiWorld F V T W X Y O) Unit := do
  api.require principal (lit "policy.rollback") key.name key.environment key.organizationId
  answering (fun e => if e.isKeyError then some 404 else none) do
    let _ ← onService (api.service.rollbackPolicy key version principal.subject)
    return ()

def startRollout (key : PolicyKey) (candidateVersion : Str) (body : RequestBody F)
    (ifMatch : Str) : PyM (ApiWorld F V T W X Y O) Unit := do
  api.require principal (lit "policy.rollout") key.name key.environment key.organizationId
  answering (fun e => if e.isException then some 400 else none) do
    let value ← .ofExcept (bodyItem body "candidate_percentage")
    let percentage ← .ofExcept (intArgument value)
    let expected ← .ofExcept (expectedRevision F ifMatch)
    let _ ← onService (api.service.startRollout key candidateVersion percentage
      principal.subject (bodyText body "seed" "") expected)
    return ()

def cancelRollout (key : PolicyKey) : PyM (ApiWorld F V T W X Y O) Unit := do
  api.require principal (lit "policy.rollout") key.name key.environment key.organizationId
  onService (api.service.cancelRollout key)

def resolvePolicy (key : PolicyKey) (agentId : Str) : PyM (ApiWorld F V T W X Y O) Unit := do
  api.require principal (lit "policy.read") key.name key.environment key.organizationId
  answering (fun e => if e.isKeyError then some 404 else none) do
    let _ ← onService (api.service.policyForAgent key agentId)
    return ()

/-! #### Agents -/

/-- `expected_revision`, of the header or else of the body. -/
def agentRevision (body : RequestBody F) (ifMatch : Str) : Except PyExc (Option Int) := do
  match ← expectedRevision F ifMatch with
  | some revision => return some revision
  | none =>
    match bodyGet body "expected_revision" .null with
    | .null => return none
    | value => (intArgument value).map some

def registerAgent (organizationId : Str) (body : RequestBody F) (ifMatch : Str) :
    PyM (ApiWorld F V T W X Y O) Unit := do
  api.require principal (lit "agent.register") (bodyText body "agent_id" "")
    (bodyText body "environment" "*") organizationId
  answering (fun e => if e.isControlPlaneError then some 409
      else if e.isException then some 400 else none) do
    .ofExcept (bindKeywords ["agent_id", "environment", "owner", "purpose"]
      ["status", "metadata", "version", "expected_revision"] body)
    let expected ← .ofExcept (agentRevision body ifMatch)
    let agentId ← .ofExcept (api.reader.column (bodyGet body "agent_id" .null))
    let environment ← .ofExcept (api.reader.column (bodyGet body "environment" .null))
    let owner ← .ofExcept (api.reader.column (bodyGet body "owner" .null))
    let purpose ← .ofExcept (api.reader.column (bodyGet body "purpose" .null))
    let status ← .ofExcept (api.reader.column (bodyGet body "status" (.str (lit "approved"))))
    let metadata ← .ofExcept (mapping (bodyGet body "metadata" .null))
    let version ← .ofExcept (api.reader.column (bodyGet body "version" (.str [])))
    let _ ← onService (onStore (api.service.store.registerAgent
      ⟨organizationId, agentId, environment⟩ owner purpose status metadata version moment.now
      expected))
    return ()

def heartbeat (key : AgentKey) (body : RequestBody F) (ifMatch : Str) :
    PyM (ApiWorld F V T W X Y O) Unit := do
  api.require principal (lit "agent.heartbeat") key.agentId key.environment key.organizationId
  answering (fun e => if e.isKeyError then some 404
      else if e.isControlPlaneError then some 409 else none) do
    let expected ← .ofExcept (expectedRevision F ifMatch)
    let _ ← onService (onStore (api.service.store.heartbeat key (bodyText body "policy_digest" "")
      (bodyText body "version" "") (bodyText body "status" "production") moment.now expected))
    return ()

/-! #### Roles and bindings -/

def rbacSaveRole (roleName : Str) (body : RequestBody F) : PyM (ApiWorld F V T W X Y O) Unit :=
  installed api.identityStore fun store => do
    api.require principal (lit "identity.write") (lit "roles") (lit "*") []
    answering (fun e => if e.isValueError then some 400 else none) do
      let permissions ← .ofExcept (itemTexts (bodyGet body "permissions" (.arr [])))
      let role ← .ofExcept (RoleDefinition.create roleName permissions
        (bodyText body "description" ""))
      onIdentity (store.saveRole role none)

def rbacDeleteRole (roleName : Str) : PyM (ApiWorld F V T W X Y O) Unit :=
  installed api.identityStore fun store => do
    api.require principal (lit "identity.write") (lit "roles") (lit "*") []
    answering (fun e => if e.isKeyError then some 404 else none)
      (onIdentity (store.deleteRole roleName))

def rbacSaveBinding (body : RequestBody F) : PyM (ApiWorld F V T W X Y O) Unit :=
  installed api.identityStore fun store => do
    api.require principal (lit "identity.write") (lit "bindings") (lit "*") []
    answering (fun e => if e.isKeyError || e.isValueError then some 400 else none) do
      let role ← .ofExcept (bodyItem body "role")
      let organizationId ← .ofExcept (bodyItem body "organization_id")
      let binding ← .ofExcept (RoleBinding.create role.pyStr organizationId.pyStr
        (bodyText body "subject" "") (bodyText body "group" "") (bodyText body "environment" "*"))
      let _ ← onIdentity (store.saveBinding binding moment.uuid)
      return ()

def rbacDeleteBinding (bindingId : Str) : PyM (ApiWorld F V T W X Y O) Unit :=
  installed api.identityStore fun store => do
    api.require principal (lit "identity.write") (lit "bindings") (lit "*") []
    answering (fun e => if e.isKeyError then some 404 else none)
      (onIdentity (store.deleteBinding bindingId))

/-! #### The ROI ledger -/

def roiCreate (organizationId : Str) (body : RequestBody F) :
    PyM (ApiWorld F V T W X Y O) Unit :=
  installed api.roiLedger fun ledger => do
    api.require principal (lit "roi.create") (lit "portfolio") (lit "*") organizationId
    answering (fun e => if e.isKeyError || e.isTypeError || e.isValueError then some 400 else none) do
      let form ← .ofExcept (api.reader.opportunityForm
        (dictInsert (lit "organization_id") (.str organizationId) body))
      let _ ← onRoi (ledger.createOpportunity form moment.uuid moment.now)
      return ()

/-- The opportunity of the path, of the organization of the path. -/
def roiOpportunity (ledger : RoiStore F X Y) (organizationId opportunityId : Str) :
    PyM (ApiWorld F V T W X Y O) Unit := do
  let opportunity ← onRoi (ledger.getOpportunity opportunityId)
  if opportunity.organizationId ≠ organizationId then .raise (.keyError [opportunityId])
  else return ()

def roiTransition (organizationId opportunityId : Str) (body : RequestBody F) (ifMatch : Str) :
    PyM (ApiWorld F V T W X Y O) Unit :=
  installed api.roiLedger fun ledger => do
    api.require principal (lit "roi.update") opportunityId (lit "*") organizationId
    answering (fun e => if e.isKeyError then some 404
        else if e.isValueError then some 400 else none) do
      roiOpportunity ledger organizationId opportunityId
      let expected ← .ofExcept (expectedRevision F ifMatch)
      let status ← .ofExcept (bodyItem body "status")
      let _ ← onRoi (ledger.transition ⟨opportunityId, status.pyStr, principal.subject,
        bodyText body "reason" "", expected⟩ moment.uuid moment.now)
      return ()

def roiRecordValue (organizationId opportunityId : Str) (body : RequestBody F) :
    PyM (ApiWorld F V T W X Y O) Unit :=
  installed api.roiLedger fun ledger => do
    let action :=
      if bodyText body "stage" "" = lit "validated" then lit "roi.validate" else lit "roi.record"
    api.require principal action opportunityId (lit "*") organizationId
    answering (fun e => if e.isKeyError then some 404
        else if e.isValueError then some 400 else none) do
      roiOpportunity ledger organizationId opportunityId
      let form ← .ofExcept
        (api.reader.valueForm opportunityId (setRecordedBy principal.subject body))
      let _ ← onRoi (ledger.recordValue form moment.uuid moment.now moment.today)
      return ()

def roiRecordCost (organizationId : Str) (body : RequestBody F) :
    PyM (ApiWorld F V T W X Y O) Unit :=
  installed api.roiLedger fun ledger => do
    api.require principal (lit "roi.record") (lit "cost") (lit "*") organizationId
    answering (fun e => if e.isKeyError || e.isTypeError || e.isValueError then some 400 else none) do
      let form ← .ofExcept (api.reader.costForm (setRecordedBy principal.subject
        (dictInsert (lit "organization_id") (.str organizationId) body)))
      let _ ← onRoi (ledger.recordCost form moment.uuid moment.now moment.today)
      return ()

end ControlPlaneApi

/-! ### Requests -/

/-- A request, with what stands in its path, its body and its headers.
`reading` are the routes that list agents, roles, bindings, opportunities and
the portfolio; `elsewhere` are those of the audit store and of SCIM. -/
inductive ApiRequest (F V T W X Y O : Type) where
  | publishPolicy (key : PolicyKey) (version : Str) (body : RequestBody F)
  | activatePolicy (key : PolicyKey) (version ifMatch : Str)
  | activePolicy (key : PolicyKey)
  | promotePolicy (organizationId sourceEnvironment name sourceVersion targetEnvironment : Str)
      (body : RequestBody F)
  | rollbackPolicy (key : PolicyKey) (version : Str)
  | startRollout (key : PolicyKey) (candidateVersion : Str) (body : RequestBody F) (ifMatch : Str)
  | cancelRollout (key : PolicyKey)
  | resolvePolicy (key : PolicyKey) (agentId : Str)
  | registerAgent (organizationId : Str) (body : RequestBody F) (ifMatch : Str)
  | heartbeat (key : AgentKey) (body : RequestBody F) (ifMatch : Str)
  | rbacSaveRole (roleName : Str) (body : RequestBody F)
  | rbacDeleteRole (roleName : Str)
  | rbacSaveBinding (body : RequestBody F)
  | rbacDeleteBinding (bindingId : Str)
  | roiCreate (organizationId : Str) (body : RequestBody F)
  | roiTransition (organizationId opportunityId : Str) (body : RequestBody F) (ifMatch : Str)
  | roiRecordValue (organizationId opportunityId : Str) (body : RequestBody F)
  | roiRecordCost (organizationId : Str) (body : RequestBody F)
  | reading (action resource organizationId : Str)
      (answer : ApiWorld F V T W X Y O → Except PyExc Unit)
  | elsewhere (action resource : Str) (call : PyM O Unit)

namespace ApiRequest

/-- The organization in the path; a segment of a path is never empty. -/
def organization : ApiRequest F V T W X Y O → Option Str
  | .publishPolicy key _ _ | .activatePolicy key _ _ | .activePolicy key
  | .rollbackPolicy key _ | .startRollout key _ _ _ | .cancelRollout key
  | .resolvePolicy key _ => some key.organizationId
  | .heartbeat key _ _ => some key.organizationId
  | .promotePolicy organizationId _ _ _ _ _ | .registerAgent organizationId _ _
  | .roiCreate organizationId _ | .roiTransition organizationId _ _ _
  | .roiRecordValue organizationId _ _ | .roiRecordCost organizationId _ => some organizationId
  | _ => none

end ApiRequest

namespace ControlPlaneApi

variable [LE Y] [PyValues F] [PyDecimalFloat F] (api : ControlPlaneApi F V T W X Y O)

/-- The route of a request. -/
def route (moment : Moment) (principal : Principal) :
    ApiRequest F V T W X Y O → PyM (ApiWorld F V T W X Y O) Unit
  | .publishPolicy key version body => api.publishPolicy principal key version body
  | .activatePolicy key version ifMatch => api.activatePolicy principal key version ifMatch
  | .activePolicy key => api.activePolicy principal key
  | .promotePolicy organizationId sourceEnvironment name sourceVersion targetEnvironment body =>
    api.promotePolicy principal organizationId sourceEnvironment name sourceVersion
      targetEnvironment body
  | .rollbackPolicy key version => api.rollbackPolicy principal key version
  | .startRollout key candidateVersion body ifMatch =>
    api.startRollout principal key candidateVersion body ifMatch
  | .cancelRollout key => api.cancelRollout principal key
  | .resolvePolicy key agentId => api.resolvePolicy principal key agentId
  | .registerAgent organizationId body ifMatch =>
    api.registerAgent moment principal organizationId body ifMatch
  | .heartbeat key body ifMatch => api.heartbeat moment principal key body ifMatch
  | .rbacSaveRole roleName body => api.rbacSaveRole principal roleName body
  | .rbacDeleteRole roleName => api.rbacDeleteRole principal roleName
  | .rbacSaveBinding body => api.rbacSaveBinding moment principal body
  | .rbacDeleteBinding bindingId => api.rbacDeleteBinding principal bindingId
  | .roiCreate organizationId body => api.roiCreate moment principal organizationId body
  | .roiTransition organizationId opportunityId body ifMatch =>
    api.roiTransition moment principal organizationId opportunityId body ifMatch
  | .roiRecordValue organizationId opportunityId body =>
    api.roiRecordValue moment principal organizationId opportunityId body
  | .roiRecordCost organizationId body => api.roiRecordCost moment principal organizationId body
  | .reading action resource organizationId answer => do
    api.require principal action resource (lit "*") organizationId
    let w ← PyM.get
    .ofExcept (answer w)
  | .elsewhere action resource call => do
    api.require principal action resource (lit "*") []
    onElsewhere call

/-- A request of an authenticated principal; it is accepted when this returns. -/
def handle (moment : Moment) (principal : Principal) (request : ApiRequest F V T W X Y O) :
    PyM (ApiWorld F V T W X Y O) Unit :=
  if request.organization = some [] then .raise (.httpException 404 (lit "Not Found"))
  else api.route moment principal request

end ControlPlaneApi

end AgentRoi
