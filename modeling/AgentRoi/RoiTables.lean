/-
`agent_roi.roi`: opportunities and the tables of the ledger.

* `OpportunityStatus`, `allowedTransitions` — the statuses, and which follow
  one another;
* `ValueOpportunity` — an opportunity, as the ledgers answer with it;
* `RoiTables` — `roi_opportunities`, `roi_values`, `roi_costs` and
  `roi_status_history`, with their keys and references.

Columns of an enumeration hold its members only.
-/
import AgentRoi.ControlPlaneTables
import AgentRoi.RoiMoney

namespace AgentRoi

open RowTable

variable {F V T : Type}

/-! ### Enumerations -/

inductive ValueType where
  | costSavings
  | costAvoidance
  | revenue
  | productivity
  | riskReduction
  deriving DecidableEq

inductive ValuePeriod where
  | oneTime
  | monthly
  | annual
  deriving DecidableEq

inductive OpportunityStatus where
  | proposed
  | approved
  | inProgress
  | realizing
  | validated
  | rejected
  | closed
  deriving DecidableEq

inductive ValueStage where
  | potential
  | forecast
  | realized
  | validated
  deriving DecidableEq

inductive CostType where
  | model
  | infrastructure
  | humanReview
  | implementation
  | support
  | other
  deriving DecidableEq

/-- `Enum(value)`, by the members and their values; the message names the
value. -/
def ofValue {E : Type} (members : List (Str × E)) (value : Str) : Except PyExc E :=
  (dictGet value members).elim (.error (.valueError [])) .ok

def ValueType.members : List (Str × ValueType) :=
  [(lit "cost_savings", .costSavings), (lit "cost_avoidance", .costAvoidance),
    (lit "revenue", .revenue), (lit "productivity", .productivity),
    (lit "risk_reduction", .riskReduction)]

def ValuePeriod.members : List (Str × ValuePeriod) :=
  [(lit "one_time", .oneTime), (lit "monthly", .monthly), (lit "annual", .annual)]

def OpportunityStatus.members : List (Str × OpportunityStatus) :=
  [(lit "proposed", .proposed), (lit "approved", .approved), (lit "in_progress", .inProgress),
    (lit "realizing", .realizing), (lit "validated", .validated), (lit "rejected", .rejected),
    (lit "closed", .closed)]

def ValueStage.members : List (Str × ValueStage) :=
  [(lit "potential", .potential), (lit "forecast", .forecast), (lit "realized", .realized),
    (lit "validated", .validated)]

def CostType.members : List (Str × CostType) :=
  [(lit "model", .model), (lit "infrastructure", .infrastructure),
    (lit "human_review", .humanReview), (lit "implementation", .implementation),
    (lit "support", .support), (lit "other", .other)]

def OpportunityStatus.value : OpportunityStatus → Str
  | .proposed => lit "proposed"
  | .approved => lit "approved"
  | .inProgress => lit "in_progress"
  | .realizing => lit "realizing"
  | .validated => lit "validated"
  | .rejected => lit "rejected"
  | .closed => lit "closed"

def ValueStage.value : ValueStage → Str
  | .potential => lit "potential"
  | .forecast => lit "forecast"
  | .realized => lit "realized"
  | .validated => lit "validated"

def CostType.value : CostType → Str
  | .model => lit "model"
  | .infrastructure => lit "infrastructure"
  | .humanReview => lit "human_review"
  | .implementation => lit "implementation"
  | .support => lit "support"
  | .other => lit "other"

/-- Every member is found by its value. -/
theorem OpportunityStatus.ofValue_value (status : OpportunityStatus) :
    ofValue OpportunityStatus.members status.value = .ok status := by
  cases status <;> rfl

/-- `_ALLOWED_TRANSITIONS`. -/
def allowedTransitions : OpportunityStatus → List OpportunityStatus
  | .proposed => [.approved, .rejected]
  | .approved => [.inProgress, .rejected]
  | .inProgress => [.realizing, .closed]
  | .realizing => [.validated, .closed]
  | .validated => [.closed]
  | .rejected => [.closed]
  | .closed => []

/-! ### Opportunities and rows -/

structure ValueOpportunity (F : Type) where
  opportunityId : Str
  organizationId : Str
  agentId : Str
  businessUnit : Str
  businessOwner : Str
  title : Str
  valueType : ValueType
  valuePeriod : ValuePeriod
  status : OpportunityStatus
  currencyCode : Str
  baselineUsd : FloatVal F
  forecastValueUsd : FloatVal F
  confidence : FloatVal F
  sourceKey : Str
  measurementStart : Str
  measurementEnd : Str
  createdAtUtc : Str
  createdBy : Str
  metadata : Json F
  revision : ℕ

/-- A row of `roi_opportunities`. -/
structure OpportunityRow (F V T : Type) where
  opportunityId : Str
  organizationId : Str
  agentId : Str
  businessUnit : Str
  businessOwner : Str
  title : Str
  valueType : ValueType
  valuePeriod : ValuePeriod
  status : OpportunityStatus
  currencyCode : Str
  baselineCents : ℕ
  forecastCents : ℕ
  confidence : FloatVal F
  sourceKey : Str
  measurementStart : Str
  measurementEnd : Str
  createdAtUtc : T
  createdBy : Str
  metadataJson : V
  revision : ℕ

/-- `UNIQUE (organization_id, source_key)`. -/
def OpportunityRow.source (row : OpportunityRow F V T) : Str × Str :=
  (row.organizationId, row.sourceKey)

/-- `SET status=?,revision=revision+1`. -/
def OpportunityRow.moved (status : OpportunityStatus) (row : OpportunityRow F V T) :
    OpportunityRow F V T := { row with status := status, revision := row.revision + 1 }

/-- A row of `roi_values`. -/
structure ValueRow (T : Type) where
  measurementId : Str
  organizationId : Str
  opportunityId : Str
  stage : ValueStage
  amountCents : ℕ
  currencyCode : Str
  evidenceKey : Str
  evidenceUri : Str
  measurementDate : Str
  recordedAtUtc : T
  recordedBy : Str
  notes : Str
  deriving DecidableEq

/-- `UNIQUE (organization_id, evidence_key)`. -/
def ValueRow.evidence (row : ValueRow T) : Str × Str := (row.organizationId, row.evidenceKey)

/-- A row of `roi_costs`. -/
structure CostRow (T : Type) where
  costId : Str
  organizationId : Str
  agentId : Str
  opportunityId : Option Str
  costType : CostType
  amountCents : ℕ
  currencyCode : Str
  evidenceKey : Str
  incurredDate : Str
  recordedAtUtc : T
  recordedBy : Str
  notes : Str
  deriving DecidableEq

/-- `UNIQUE (organization_id, evidence_key)`. -/
def CostRow.evidence (row : CostRow T) : Str × Str := (row.organizationId, row.evidenceKey)

/-- A row of `roi_status_history`. -/
structure HistoryRow (T : Type) where
  historyId : Str
  opportunityId : Str
  oldStatus : OpportunityStatus
  newStatus : OpportunityStatus
  changedAtUtc : T
  changedBy : Str
  reason : Str
  deriving DecidableEq

/-! ### The tables -/

/-- The tables, with the constraints the database holds them to. -/
structure RoiTables (F V T : Type) where
  opportunities : List (OpportunityRow F V T)
  values : List (ValueRow T)
  costs : List (CostRow T)
  history : List (HistoryRow T)
  opportunityIds : (opportunities.map OpportunityRow.opportunityId).Nodup
  opportunitySources : (opportunities.map OpportunityRow.source).Nodup
  valueIds : (values.map ValueRow.measurementId).Nodup
  valueEvidence : (values.map ValueRow.evidence).Nodup
  costIds : (costs.map CostRow.costId).Nodup
  costEvidence : (costs.map CostRow.evidence).Nodup
  historyIds : (history.map HistoryRow.historyId).Nodup
  valueOpportunity : ∀ row ∈ values,
    row.opportunityId ∈ opportunities.map OpportunityRow.opportunityId
  costOpportunity : ∀ row ∈ costs, ∀ id, row.opportunityId = some id →
    id ∈ opportunities.map OpportunityRow.opportunityId
  historyOpportunity : ∀ row ∈ history,
    row.opportunityId ∈ opportunities.map OpportunityRow.opportunityId

namespace RoiTables

variable {t : RoiTables F V T} {id : Str}

def opportunity (t : RoiTables F V T) (id : Str) : Option (OpportunityRow F V T) :=
  rowAt OpportunityRow.opportunityId id t.opportunities

/-- What a reference to `roi_opportunities` asks for. -/
def HasOpportunity (t : RoiTables F V T) (id : Str) : Prop :=
  id ∈ t.opportunities.map OpportunityRow.opportunityId

instance instDecidableHasOpportunity : Decidable (t.HasOpportunity id) :=
  inferInstanceAs (Decidable (_ ∈ _))

theorem nodup_noIds : ([] : List Str).Nodup := .nil

theorem nodup_noPairs : ([] : List (Str × Str)).Nodup := .nil

def empty : RoiTables F V T where
  opportunities := []
  values := []
  costs := []
  history := []
  opportunityIds := nodup_noIds
  opportunitySources := nodup_noPairs
  valueIds := nodup_noIds
  valueEvidence := nodup_noPairs
  costIds := nodup_noIds
  costEvidence := nodup_noPairs
  historyIds := nodup_noIds
  valueOpportunity := fun _ h => absurd h List.not_mem_nil
  costOpportunity := fun _ h => absurd h List.not_mem_nil
  historyOpportunity := fun _ h => absurd h List.not_mem_nil

/-- `INSERT INTO roi_opportunities`, of a row that violates no constraint. -/
def insertOpportunity (t : RoiTables F V T) (row : OpportunityRow F V T)
    (hid : t.opportunity row.opportunityId = none)
    (hsource : rowAt OpportunityRow.source row.source t.opportunities = none) :
    RoiTables F V T where
  opportunities := t.opportunities ++ [row]
  values := t.values
  costs := t.costs
  history := t.history
  opportunityIds := nodup_append t.opportunityIds hid
  opportunitySources := nodup_append t.opportunitySources hsource
  valueIds := t.valueIds
  valueEvidence := t.valueEvidence
  costIds := t.costIds
  costEvidence := t.costEvidence
  historyIds := t.historyIds
  valueOpportunity r hr := by
    rw [List.map_append]
    exact List.mem_append_left _ (t.valueOpportunity r hr)
  costOpportunity r hr id hid := by
    rw [List.map_append]
    exact List.mem_append_left _ (t.costOpportunity r hr id hid)
  historyOpportunity r hr := by
    rw [List.map_append]
    exact List.mem_append_left _ (t.historyOpportunity r hr)

/-- `INSERT INTO roi_values`. -/
def insertValue (t : RoiTables F V T) (row : ValueRow T)
    (hid : rowAt ValueRow.measurementId row.measurementId t.values = none)
    (hevidence : rowAt ValueRow.evidence row.evidence t.values = none)
    (hopportunity : t.HasOpportunity row.opportunityId) : RoiTables F V T :=
  { t with
    values := t.values ++ [row]
    valueIds := nodup_append t.valueIds hid
    valueEvidence := nodup_append t.valueEvidence hevidence
    valueOpportunity := fun r hr => by
      rcases List.mem_append.mp hr with hr | hr
      · exact t.valueOpportunity r hr
      · rw [List.mem_singleton.mp hr]
        exact hopportunity }

/-- `INSERT INTO roi_costs`. -/
def insertCost (t : RoiTables F V T) (row : CostRow T)
    (hid : rowAt CostRow.costId row.costId t.costs = none)
    (hevidence : rowAt CostRow.evidence row.evidence t.costs = none)
    (hopportunity : ∀ id, row.opportunityId = some id → t.HasOpportunity id) : RoiTables F V T :=
  { t with
    costs := t.costs ++ [row]
    costIds := nodup_append t.costIds hid
    costEvidence := nodup_append t.costEvidence hevidence
    costOpportunity := fun r hr => by
      rcases List.mem_append.mp hr with hr | hr
      · exact t.costOpportunity r hr
      · rw [List.mem_singleton.mp hr]
        exact hopportunity }

theorem map_moved {α : Type} {g : OpportunityRow F V T → α} {status : OpportunityStatus}
    (hg : ∀ row : OpportunityRow F V T, g (row.moved status) = g row) :
    (updateWhere (fun row => row.opportunityId = id) (OpportunityRow.moved status)
      t.opportunities).map g = t.opportunities.map g := map_updateWhere hg

/-- `UPDATE roi_opportunities … WHERE opportunity_id=?`. -/
def setStatus (t : RoiTables F V T) (id : Str) (status : OpportunityStatus) : RoiTables F V T where
  opportunities := updateWhere (fun row => row.opportunityId = id) (OpportunityRow.moved status)
    t.opportunities
  values := t.values
  costs := t.costs
  history := t.history
  opportunityIds := by
    rw [map_moved fun _ => rfl]
    exact t.opportunityIds
  opportunitySources := by
    rw [map_moved fun _ => rfl]
    exact t.opportunitySources
  valueIds := t.valueIds
  valueEvidence := t.valueEvidence
  costIds := t.costIds
  costEvidence := t.costEvidence
  historyIds := t.historyIds
  valueOpportunity := by
    rw [map_moved fun _ => rfl]
    exact t.valueOpportunity
  costOpportunity := by
    rw [map_moved fun _ => rfl]
    exact t.costOpportunity
  historyOpportunity := by
    rw [map_moved fun _ => rfl]
    exact t.historyOpportunity

/-- `INSERT INTO roi_status_history`. -/
def insertHistory (t : RoiTables F V T) (row : HistoryRow T)
    (hid : rowAt HistoryRow.historyId row.historyId t.history = none)
    (hopportunity : t.HasOpportunity row.opportunityId) : RoiTables F V T :=
  { t with
    history := t.history ++ [row]
    historyIds := nodup_append t.historyIds hid
    historyOpportunity := fun r hr => by
      rcases List.mem_append.mp hr with hr | hr
      · exact t.historyOpportunity r hr
      · rw [List.mem_singleton.mp hr]
        exact hopportunity }

end RoiTables

end AgentRoi
