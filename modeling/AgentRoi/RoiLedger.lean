/-
`RealizedROILedger` and `PostgresROILedger`, as programs: every read and every
transaction is one atomic step.

* `RoiStore` — what the two ledgers do differently;
* `getOpportunity`, `listOpportunities`, `createOpportunity`, `transition`,
  `recordValue`, `recordCost` — the methods;
* `RoiCall`, `Reached` — the ledgers that calls one after the other bring
  about.

`now` is what `_utc_now()` yields, `today` what `date.today().isoformat()`
yields, and `uuid` what `str(uuid.uuid4())` yields.
-/
import AgentRoi.Interleaving
import AgentRoi.PolicyValidation
import AgentRoi.RoiTables

namespace AgentRoi

variable {F V T α : Type}

/-- `str.upper` and `str.isalpha`. -/
structure PyLetters where
  upper : Str → Str
  isAlpha : Str → Bool

/-- `ORDER BY created_at_utc`, with any order among equal times. -/
structure ListingOrder (F V T : Type) [LE T] where
  arrange : List (OpportunityRow F V T) → List (OpportunityRow F V T)
  perm : ∀ rows, (arrange rows).Perm rows
  sorted : ∀ rows, (arrange rows).Pairwise fun a b => a.createdAtUtc ≤ b.createdAtUtc

/-- `saveError` is what the `except` around an `INSERT` makes of an exception,
given its message; `centsFirst` says that amounts are read before the
transaction; `summaryLimit` is the limit of the listing in
`portfolio_summary`; `bindInt` binds an integer for a column of 64 bits. -/
structure RoiStore (F V T : Type) [LE T] where
  format : PolicyFormat F V T
  readMetadata : V → Except PyExc (Json F)
  bindInt : Int → Except PyExc Unit
  bindRevision : Int → Except PyExc Unit
  saveError : Str → PyExc → PyExc
  centsFirst : Bool
  summaryLimit : Int
  letters : PyLetters
  order : ListingOrder F V T

/-- `value or {}`. -/
def orEmpty [PyFloatOps F] : Json F → Json F
  | .null | .bool false => .obj []
  | .int i => if i = 0 then .obj [] else .int i
  | .float (.finite f) =>
    if PyFloatOps.le f PyFloatOps.zero && PyFloatOps.le PyFloatOps.zero f then .obj []
    else .float (.finite f)
  | .str [] | .arr [] => .obj []
  | value => value

/-- `_json_value`. -/
def roiJsonValue [PyFloatOps F] (value : Json F) : Except PyExc (Json F) := do
  let document ← match value with
    | .str text => loadsText text
    | value => .ok (orEmpty value)
  let members ← asDict document
  return .obj members

/-- SQLite's integers have 64 bits. -/
def sqliteRoiStore [PyFloat F] (letters : PyLetters) (order : ListingOrder F Str Str) :
    RoiStore F Str Str where
  format := sqlitePolicyFormat
  readMetadata := loadsText
  bindInt i := if -2 ^ 63 ≤ i ∧ i < 2 ^ 63 then .ok () else .error .overflowError
  bindRevision i := if -2 ^ 63 ≤ i ∧ i < 2 ^ 63 then .ok () else .error .overflowError
  saveError message
    | .integrityError => .valueError message
    | e => e
  centsFirst := false
  summaryLimit := 100
  letters := letters
  order := order

def postgresRoiStore [PyFloatOps F] (driver : PgPolicyDriver F) (letters : PyLetters)
    (order : ListingOrder F (Json F) Instant) : RoiStore F (Json F) Instant where
  format := postgresPolicyFormat driver
  readMetadata := roiJsonValue
  bindInt i := if -2 ^ 63 ≤ i ∧ i < 2 ^ 63 then .ok () else .error dataError
  bindRevision _ := .ok ()
  saveError message e := if e.isException then .valueError message else e
  centsFirst := true
  summaryLimit := 500
  letters := letters
  order := order

/-! ### What the methods take -/

/-- The arguments of `create_opportunity`; amounts are what
`Decimal(str(value))` makes of them. -/
structure OpportunityForm (F : Type) where
  organizationId : Str
  agentId : Str
  businessUnit : Str
  businessOwner : Str
  title : Str
  valueType : Str
  valuePeriod : Str
  baselineUsd : Option PyDecimal
  forecastValueUsd : Option PyDecimal
  confidence : FloatVal F
  sourceKey : Str
  createdBy : Str
  currencyCode : Str
  measurementStart : Str
  measurementEnd : Str
  metadata : List (PyKey F × PyVal F)
  opportunityId : Str

/-- The arguments of `transition`. -/
structure TransitionForm where
  opportunityId : Str
  newStatus : Str
  changedBy : Str
  reason : Str
  expectedRevision : Option Int

/-- The arguments of `record_value`. -/
structure ValueForm where
  opportunityId : Str
  stage : Str
  amountUsd : Option PyDecimal
  evidenceKey : Str
  recordedBy : Str
  evidenceUri : Str
  measurementDate : Str
  notes : Str

/-- The arguments of `record_cost`. -/
structure CostForm where
  organizationId : Str
  agentId : Str
  costType : Str
  amountUsd : Option PyDecimal
  currencyCode : Str
  evidenceKey : Str
  recordedBy : Str
  opportunityId : Str
  incurredDate : Str
  notes : Str

namespace RoiStore

/-! ### Transactions -/

/-- A transaction is one atomic step. -/
def writing (x : PyM (RoiTables F V T) α) : Proc (RoiTables F V T) PyExc α := .atomic x.transaction

def reading (x : RoiTables F V T → Except PyExc α) : Proc (RoiTables F V T) PyExc α :=
  .atomic fun t => (x t, t)

def insertOpportunity (row : OpportunityRow F V T) : PyM (RoiTables F V T) Unit := fun t =>
  if h : t.opportunity row.opportunityId = none ∧
      RowTable.rowAt OpportunityRow.source row.source t.opportunities = none then
    (.ok (), t.insertOpportunity row h.1 h.2)
  else (.error .integrityError, t)

def insertValue (row : ValueRow T) : PyM (RoiTables F V T) Unit := fun t =>
  if h : RowTable.rowAt ValueRow.measurementId row.measurementId t.values = none ∧
      RowTable.rowAt ValueRow.evidence row.evidence t.values = none ∧
      t.HasOpportunity row.opportunityId then
    (.ok (), t.insertValue row h.1 h.2.1 h.2.2)
  else (.error .integrityError, t)

def insertCost (row : CostRow T) : PyM (RoiTables F V T) Unit := fun t =>
  if h : RowTable.rowAt CostRow.costId row.costId t.costs = none ∧
      RowTable.rowAt CostRow.evidence row.evidence t.costs = none ∧
      ∀ id ∈ row.opportunityId, t.HasOpportunity id then
    (.ok (), t.insertCost row h.1 h.2.1 h.2.2)
  else (.error .integrityError, t)

def insertHistory (row : HistoryRow T) : PyM (RoiTables F V T) Unit := fun t =>
  if h : RowTable.rowAt HistoryRow.historyId row.historyId t.history = none ∧
      t.HasOpportunity row.opportunityId then
    (.ok (), t.insertHistory row h.1 h.2)
  else (.error .integrityError, t)

/-- `UPDATE … WHERE opportunity_id=? AND status=? [AND revision=?]`; with no
such row, `cursor.rowcount != 1`. -/
def updateStatus (id : Str) (current new : OpportunityStatus) (expected : Option Int) :
    PyM (RoiTables F V T) Unit := fun t =>
  if (t.opportunity id).any fun row =>
      row.status = current && expected.all fun revision => (row.revision : Int) = revision then
    (.ok (), t.setStatus id new)
  else (.error (.valueError (lit "ROI opportunity revision conflict")), t)

variable [LE T] [PyFloatOps F] [PyDecimalFloat F] (store : RoiStore F V T)

/-! ### Reads -/

/-- `_row_to_opportunity`. -/
def toOpportunity (row : OpportunityRow F V T) :
    Except PyExc (ValueOpportunity F) := do
  let metadata ← store.readMetadata row.metadataJson
  return {
    opportunityId := row.opportunityId
    organizationId := row.organizationId
    agentId := row.agentId
    businessUnit := row.businessUnit
    businessOwner := row.businessOwner
    title := row.title
    valueType := row.valueType
    valuePeriod := row.valuePeriod
    status := row.status
    currencyCode := row.currencyCode
    baselineUsd := centsToMoney F row.baselineCents
    forecastValueUsd := centsToMoney F row.forecastCents
    confidence := row.confidence
    sourceKey := row.sourceKey
    measurementStart := row.measurementStart
    measurementEnd := row.measurementEnd
    createdAtUtc := store.format.timeText row.createdAtUtc
    createdBy := row.createdBy
    metadata := metadata
    revision := row.revision }

def toOpportunities : List (OpportunityRow F V T) → Except PyExc (List (ValueOpportunity F))
  | [] => .ok []
  | row :: rows => do
    let item ← store.toOpportunity row
    let items ← toOpportunities rows
    return item :: items

def findOpportunity (id : Str) (t : RoiTables F V T) : Except PyExc (ValueOpportunity F) := do
  store.format.bind id
  match t.opportunity id with
  | some row => store.toOpportunity row
  | none => .error (.keyError [id])

def getOpportunity (id : Str) : Proc (RoiTables F V T) PyExc (ValueOpportunity F) :=
  reading (store.findOpportunity id)

/-- The rows of a page of the listing. -/
def page (organizationId agentId : Str) (status : Option OpportunityStatus) (limit offset : Int)
    (t : RoiTables F V T) : List (OpportunityRow F V T) :=
  let found := t.opportunities.filter fun row =>
    row.organizationId = organizationId && (agentId = [] || row.agentId = agentId) &&
      status.all fun status => row.status = status
  ((store.order.arrange found).drop (max 0 offset).toNat).take (max 1 (min limit 500)).toNat

def listOpportunities (organizationId agentId : Str) (status : Option Str) (limit offset : Int) :
    Proc (RoiTables F V T) PyExc (List (ValueOpportunity F)) := do
  let status ← .done (status.mapM (ofValue OpportunityStatus.members))
  reading fun t => do
    store.format.bind organizationId
    store.format.bind agentId
    store.bindInt (max 0 offset)
    store.toOpportunities (store.page organizationId agentId status limit offset t)

/-! ### `create_opportunity` -/

/-- `0.0 <= confidence_value <= 1.0`. -/
def isConfidence : FloatVal F → Bool
  | .finite f => PyFloatOps.le PyFloatOps.zero f && PyFloatOps.le f PyFloatOps.one
  | _ => false

/-- The checks before the transaction: the currency, the type and the period. -/
def checkOpportunity (form : OpportunityForm F) : Except PyExc (Str × ValueType × ValuePeriod) := do
  requireNonEmpty (lit "organization_id") form.organizationId
  requireNonEmpty (lit "agent_id") form.agentId
  requireNonEmpty (lit "business_unit") form.businessUnit
  requireNonEmpty (lit "business_owner") form.businessOwner
  requireNonEmpty (lit "title") form.title
  requireNonEmpty (lit "source_key") form.sourceKey
  requireNonEmpty (lit "created_by") form.createdBy
  if !isConfidence form.confidence then
    .error (.valueError (lit "confidence must be between 0 and 1"))
  let currency := store.letters.upper (strip form.currencyCode)
  if currency.length ≠ 3 ∨ !store.letters.isAlpha currency then
    .error (.valueError (lit "currency_code must be a three-letter code"))
  match ofValue ValueType.members form.valueType, ofValue ValuePeriod.members form.valuePeriod with
  | .ok valueType, .ok valuePeriod => return (currency, valueType, valuePeriod)
  | _, _ => .error (.valueError (lit "Invalid value_type or value_period"))

/-- The row that is inserted, with the exceptions of its parameters. -/
def newOpportunity (form : OpportunityForm F) (id currency : Str) (valueType : ValueType)
    (valuePeriod : ValuePeriod) (now : Str) : Except PyExc (OpportunityRow F V T) := do
  let baseline ← moneyToCents form.baselineUsd
  let forecast ← moneyToCents form.forecastValueUsd
  store.format.bind id
  store.format.bind (strip form.organizationId)
  store.format.bind (strip form.agentId)
  store.format.bind (strip form.businessUnit)
  store.format.bind (strip form.businessOwner)
  store.format.bind (strip form.title)
  store.format.bind currency
  store.bindInt baseline
  store.bindInt forecast
  store.format.bind (strip form.sourceKey)
  store.format.bind form.measurementStart
  store.format.bind form.measurementEnd
  let created ← store.format.writeTime now
  store.format.bind (strip form.createdBy)
  let metadata ← store.format.writeJson (canonicalJson (.dict form.metadata))
  return {
    opportunityId := id
    organizationId := strip form.organizationId
    agentId := strip form.agentId
    businessUnit := strip form.businessUnit
    businessOwner := strip form.businessOwner
    title := strip form.title
    valueType := valueType
    valuePeriod := valuePeriod
    status := .proposed
    currencyCode := currency
    baselineCents := baseline
    forecastCents := forecast
    confidence := form.confidence
    sourceKey := strip form.sourceKey
    measurementStart := form.measurementStart
    measurementEnd := form.measurementEnd
    createdAtUtc := created
    createdBy := strip form.createdBy
    metadataJson := metadata
    revision := 1 }

/-- `INSERT`, with the `except` around it. -/
def inserting (message : Str) (row : Except PyExc α) (insert : α → PyM (RoiTables F V T) Unit) :
    PyM (RoiTables F V T) Unit :=
  PyM.tryExcept (do
    let row ← PyM.ofExcept row
    insert row) fun e => .raise (store.saveError message e)

def createOpportunity (form : OpportunityForm F) (uuid now : Str) :
    Proc (RoiTables F V T) PyExc (ValueOpportunity F) := do
  let (currency, valueType, valuePeriod) ← .done (store.checkOpportunity form)
  let id := if form.opportunityId = [] then uuid else form.opportunityId
  writing <| store.inserting
    (lit "An ROI opportunity with this source_key already exists for the organization")
    (store.newOpportunity form id currency valueType valuePeriod now) insertOpportunity
  store.getOpportunity id

/-! ### `transition` -/

/-- The transaction of `transition`. -/
def move (form : TransitionForm) (current new : OpportunityStatus) (historyId now : Str) :
    PyM (RoiTables F V T) Unit := do
  PyM.ofExcept do
    store.format.bind form.opportunityId
    (form.expectedRevision.map store.bindRevision).getD (.ok ())
  updateStatus form.opportunityId current new form.expectedRevision
  let changed ← PyM.ofExcept do
    store.format.bind historyId
    let changed ← store.format.writeTime now
    store.format.bind form.changedBy
    store.format.bind form.reason
    return changed
  insertHistory ⟨historyId, form.opportunityId, current, new, changed, form.changedBy, form.reason⟩

def transition (form : TransitionForm) (historyId now : Str) :
    Proc (RoiTables F V T) PyExc (ValueOpportunity F) := do
  let new ← .done (ofValue OpportunityStatus.members form.newStatus)
  let current ← store.getOpportunity form.opportunityId
  if new ∉ allowedTransitions current.status then
    .raise (.valueError (lit "Invalid ROI status transition: " ++ current.status.value ++
      lit " -> " ++ new.value))
  else do
    writing (store.move form current.status new historyId now)
    store.getOpportunity form.opportunityId

/-! ### `record_value` and `record_cost` -/

/-- Whether the stage may be recorded. -/
def canRecord (stage : ValueStage) (status : OpportunityStatus) : Bool :=
  !(stage = .realized || stage = .validated) ||
    (status = .inProgress || status = .realizing || status = .validated)

def requireEvidence (evidenceKey recordedBy : Str) : Except PyExc Unit :=
  if isBlank evidenceKey || isBlank recordedBy then
    .error (.valueError (lit "evidence_key and recorded_by are required"))
  else .ok ()

/-- PostgreSQL reads the amount before the transaction. -/
def centsBefore (amountUsd : Option PyDecimal) : Except PyExc Unit :=
  if store.centsFirst then (moneyToCents amountUsd).map fun _ => () else .ok ()

def newValue (form : ValueForm) (opportunity : ValueOpportunity F) (stage : ValueStage)
    (measurementId now date : Str) : Except PyExc (ValueRow T) := do
  let cents ← moneyToCents form.amountUsd
  store.format.bind measurementId
  store.format.bind opportunity.organizationId
  store.format.bind form.opportunityId
  store.bindInt cents
  store.format.bind opportunity.currencyCode
  store.format.bind (strip form.evidenceKey)
  store.format.bind form.evidenceUri
  store.format.bind date
  let recorded ← store.format.writeTime now
  store.format.bind (strip form.recordedBy)
  store.format.bind form.notes
  return {
    measurementId := measurementId
    organizationId := opportunity.organizationId
    opportunityId := form.opportunityId
    stage := stage
    amountCents := cents
    currencyCode := opportunity.currencyCode
    evidenceKey := strip form.evidenceKey
    evidenceUri := form.evidenceUri
    measurementDate := date
    recordedAtUtc := recorded
    recordedBy := strip form.recordedBy
    notes := form.notes }

def recordValue (form : ValueForm) (measurementId now today : Str) :
    Proc (RoiTables F V T) PyExc (PyDict F) := do
  let opportunity ← store.getOpportunity form.opportunityId
  let stage ← .done (ofValue ValueStage.members form.stage)
  if !canRecord stage opportunity.status then
    .raise (.valueError (lit "Realized or validated value requires an in-progress opportunity"))
  else do
    .done (requireEvidence form.evidenceKey form.recordedBy)
    let date := if form.measurementDate = [] then today else form.measurementDate
    .done (store.centsBefore form.amountUsd)
    writing <| store.inserting (lit "This evidence_key has already been counted")
      (store.newValue form opportunity stage measurementId now date) insertValue
    let cents ← .done (moneyToCents form.amountUsd)
    return [(lit "measurement_id", .str measurementId),
      (lit "opportunity_id", .str form.opportunityId), (lit "stage", .str stage.value),
      (lit "amount_usd", .float (centsToMoney F cents)),
      (lit "currency_code", .str opportunity.currencyCode),
      (lit "evidence_key", .str form.evidenceKey), (lit "evidence_uri", .str form.evidenceUri),
      (lit "measurement_date", .str date)]

def newCost (form : CostForm) (costId currency now date : Str) : Except PyExc (CostRow T) := do
  let costType ← ofValue CostType.members form.costType
  let cents ← moneyToCents form.amountUsd
  store.format.bind costId
  store.format.bind form.organizationId
  store.format.bind form.agentId
  store.format.bind form.opportunityId
  store.bindInt cents
  store.format.bind currency
  store.format.bind (strip form.evidenceKey)
  store.format.bind date
  let recorded ← store.format.writeTime now
  store.format.bind (strip form.recordedBy)
  store.format.bind form.notes
  return {
    costId := costId
    organizationId := form.organizationId
    agentId := form.agentId
    opportunityId := if form.opportunityId = [] then none else some form.opportunityId
    costType := costType
    amountCents := cents
    currencyCode := currency
    evidenceKey := strip form.evidenceKey
    incurredDate := date
    recordedAtUtc := recorded
    recordedBy := strip form.recordedBy
    notes := form.notes }

/-- The opportunity of a cost is one of its organization and agent. -/
def checkCostOpportunity (form : CostForm) : Proc (RoiTables F V T) PyExc Unit :=
  if form.opportunityId = [] then return ()
  else do
    let opportunity ← store.getOpportunity form.opportunityId
    if opportunity.organizationId ≠ form.organizationId ∨ opportunity.agentId ≠ form.agentId then
      .raise (.valueError (lit "Cost opportunity does not match organization and agent"))
    else return ()

def recordCost (form : CostForm) (costId now today : Str) :
    Proc (RoiTables F V T) PyExc (PyDict F) := do
  store.checkCostOpportunity form
  .done (requireEvidence form.evidenceKey form.recordedBy)
  let currency := store.letters.upper (strip form.currencyCode)
  let date := if form.incurredDate = [] then today else form.incurredDate
  .done (store.centsBefore form.amountUsd)
  writing <| store.inserting (lit "This cost evidence_key has already been counted")
    (store.newCost form costId currency now date) insertCost
  let costType ← .done (ofValue CostType.members form.costType)
  let cents ← .done (moneyToCents form.amountUsd)
  return [(lit "cost_id", .str costId), (lit "organization_id", .str form.organizationId),
    (lit "agent_id", .str form.agentId), (lit "cost_type", .str costType.value),
    (lit "amount_usd", .float (centsToMoney F cents)), (lit "currency_code", .str currency),
    (lit "evidence_key", .str form.evidenceKey), (lit "incurred_date", .str date)]

end RoiStore

/-! ### Calls -/

/-- A call that writes, with the ids and times it finds. -/
inductive RoiCall (F : Type) where
  | createOpportunity (form : OpportunityForm F) (uuid now : Str)
  | transition (form : TransitionForm) (historyId now : Str)
  | recordValue (form : ValueForm) (measurementId now today : Str)
  | recordCost (form : CostForm) (costId now today : Str)

namespace RoiStore

variable [LE T] [PyFloatOps F] [PyDecimalFloat F] (store : RoiStore F V T)

/-- The tables after a call, whether it returned or raised. -/
def after (t : RoiTables F V T) : RoiCall F → RoiTables F V T
  | .createOpportunity form uuid now => ((store.createOpportunity form uuid now).run t).2
  | .transition form historyId now => ((store.transition form historyId now).run t).2
  | .recordValue form measurementId now today =>
    ((store.recordValue form measurementId now today).run t).2
  | .recordCost form costId now today => ((store.recordCost form costId now today).run t).2

/-- The ledgers that calls bring about. -/
inductive Reached : RoiTables F V T → Prop
  | empty : Reached .empty
  | call {t : RoiTables F V T} : Reached t → ∀ call, Reached (store.after t call)

end RoiStore

end AgentRoi
