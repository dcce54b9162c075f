/-
What an accepted request writes.

* `PolicyWrite.organization`, `PolicyWrite.actor` — whose row a write of the
  control-plane store is, and who it names;
* `PolicyStore.Written` — tables that such writes of one organization and one
  actor lead to;
* `RoiStore.Written` — the row that a call of the ledger adds;
* `ApiEffect` — what any accepted request does, `effect_of_handle`.
-/
import AgentRoi.ApiRoutes
import AgentRoi.RoiRuns

namespace AgentRoi

open RowTable

variable {F V T W X Y O α : Type}

/-! ### The control-plane store -/

/-- The organization of the row that is written. -/
def PolicyWrite.organization : PolicyWrite F → Str
  | .saveBundle bundle => bundle.key.organizationId
  | .activate key _ _ _ _ => key.organizationId
  | .startRollout key _ _ _ _ _ _ _ => key.organizationId
  | .cancelRollout key => key.organizationId
  | .registerAgent key _ _ _ _ _ _ _ => key.organizationId
  | .heartbeat key _ _ _ _ _ => key.organizationId

/-- `created_by`, `activated_by` or `updated_by`. -/
def PolicyWrite.actor : PolicyWrite F → Option Str
  | .saveBundle bundle => some bundle.createdBy
  | .activate _ _ _ activatedBy _ => some activatedBy
  | .startRollout _ _ _ _ _ _ updatedBy _ => some updatedBy
  | _ => none

/-- One write after the other, of the organization and the actor. -/
def PolicyStore.Written [PyFloat F] (store : PolicyStore F V T) (organizationId actor : Str) :
    ControlPlaneTables V T → ControlPlaneTables V T → Prop :=
  Relation.ReflTransGen fun t t' => ∃ w : PolicyWrite F, w.organization = organizationId ∧
    (∀ a, w.actor = some a → a = actor) ∧ store.write w t = (.ok (), t')

namespace PolicyStore

section

variable [PyFloat F] {store : PolicyStore F V T} {s s' : StoreWorld F V T} {actor : Str}

theorem written_writing {w : PolicyWrite F} {u : Unit} (hactor : ∀ a, w.actor = some a → a = actor)
    (h : (store.writing w).run s = (.ok u, s')) :
    store.Written w.organization actor s.tables s'.tables := by
  rcases writing_eq h with ⟨e, hr, -⟩ | ⟨t, -, hwrite, rfl⟩
  · cases hr
  · exact .single ⟨w, rfl, hactor, hwrite⟩

/-- A write, and then what is read back. -/
theorem written_writing_reading {w : PolicyWrite F} {x : ControlPlaneTables V T → Except PyExc α}
    {a : α} (hactor : ∀ a, w.actor = some a → a = actor)
    (h : (store.writing w >>= fun _ => reading x).run s = (.ok a, s')) :
    store.Written w.organization actor s.tables s'.tables := by
  obtain ⟨_, s₁, hwrite, hread⟩ := Proc.run_bind_eq_ok.mp h
  obtain ⟨-, rfl⟩ := reading_eq_ok.mp hread
  exact written_writing hactor hwrite

theorem written_startRollout {H : Sha256} {key : PolicyKey} {candidate : Str} {percentage : Int}
    {now seed : Str} {expected : Option Int} {row : RolloutRow T}
    (h : (store.startRollout H key candidate percentage now actor seed expected).run s =
      (.ok row, s')) : store.Written key.organizationId actor s.tables s'.tables := by
  unfold startRollout at h
  split at h
  · cases h
  obtain ⟨primary, s₁, hprimary, hfound⟩ := Proc.run_bind_eq_ok.mp h
  obtain ⟨rfl, -⟩ := getActive_eq_ok hprimary
  obtain ⟨_, s₂, hcandidate, hchecked⟩ := Proc.run_bind_eq_ok.mp hfound
  obtain ⟨rfl, -⟩ := getBundle_eq_ok hcandidate
  split at hchecked
  · cases hchecked
  obtain ⟨seedValue, s₃, hseed, hwrite⟩ := Proc.run_bind_eq_ok.mp hchecked
  obtain ⟨-, rfl⟩ := reading_eq_ok.mp hseed
  exact written_writing_reading
    (w := .startRollout key primary.version candidate percentage seedValue now actor expected)
    (fun _ ha => (Option.some.inj ha).symm) hwrite

end

end PolicyStore

namespace ControlPlaneService

variable [PyFloatOps F] {service : ControlPlaneService F V T W} {w w' : ServiceWorld F V T W}
  {organizationId actor : Str}

omit [PyFloatOps F] in
theorem onStore_eq_ok {p : Proc (StoreWorld F V T) PyExc α} {a : α}
    (h : onStore p w = (.ok a, w')) : p.run w.store = (.ok a, w'.store) := by
  obtain ⟨s, hs, rfl⟩ := onStore_eq.mp h
  exact hs

theorem Creates.createdBy {key : PolicyKey} {version : Str} {policy : List (PyKey F × PyVal F)}
    {signerKeyId : Str} {bundle : PolicyBundle F}
    (h : service.Creates key version policy actor signerKeyId bundle) :
    bundle.key = key ∧ bundle.createdBy = actor := by
  obtain ⟨signer, o, o', -, hcreate⟩ := h
  obtain ⟨_, -, hcreate⟩ := PyM.ofExcept_bind_eq_ok.mp hcreate
  obtain ⟨_, -, hcreate⟩ := PyM.ofExcept_bind_eq_ok.mp hcreate
  obtain ⟨_, _, -, hcreate⟩ := PyM.bind_eq_ok.mp hcreate
  obtain ⟨_, _, -, hcreate⟩ := PyM.bind_eq_ok.mp hcreate
  cases hcreate
  exact ⟨rfl, rfl⟩

/-- A bundle that was made of the arguments is saved. -/
theorem written_saveBundle {key : PolicyKey} {version : Str} {policy : List (PyKey F × PyVal F)}
    {signerKeyId : Str} {bundle : PolicyBundle F} {t t' : ControlPlaneTables V T}
    (h : service.Creates key version policy actor signerKeyId bundle)
    (hwrite : service.store.write (.saveBundle bundle) t = (.ok (), t')) :
    service.store.Written key.organizationId actor t t' := by
  obtain ⟨hkey, hactor⟩ := h.createdBy
  refine .single ⟨.saveBundle bundle, congrArg PolicyKey.organizationId hkey, ?_, hwrite⟩
  exact fun a ha => (Option.some.inj ha).symm.trans hactor

theorem written_publishPolicy {key : PolicyKey} {version : Str}
    {policy : List (PyKey F × PyVal F)} {signerKeyId : Str} {bundle : PolicyBundle F}
    (h : service.publishPolicy key version policy actor signerKeyId w = (.ok bundle, w')) :
    service.store.Written key.organizationId actor w.store.tables w'.store.tables := by
  rcases publishPolicy_eq h with ⟨-, ⟨-, e, hr⟩ | ⟨bundle, t, hcreates, hwrite, hstore, -⟩⟩
  · cases hr
  · rw [hstore]
    exact written_saveBundle hcreates hwrite

theorem written_activatePolicy {key : PolicyKey} {version : Str} {expected : Option Int}
    {bundle : PolicyBundle F}
    (h : service.activatePolicy key version actor expected w = (.ok bundle, w')) :
    service.store.Written key.organizationId actor w.store.tables w'.store.tables := by
  rcases activatePolicy_eq h with ⟨-, ⟨e, hr⟩, -⟩ | ⟨now, _, _, t, -, -, hwrite, hstore, -⟩
  · cases hr
  · rw [hstore]
    exact .single ⟨.activate key version now actor expected, rfl,
      fun _ ha => (Option.some.inj ha).symm, hwrite⟩

theorem written_cancelRollout {key : PolicyKey} {u : Unit}
    (h : service.cancelRollout key w = (.ok u, w')) :
    service.store.Written key.organizationId actor w.store.tables w'.store.tables := by
  obtain ⟨_, v, hcancel, hemit⟩ := PyM.bind_eq_ok.mp h
  rw [(apart_emit hemit).1]
  exact PolicyStore.written_writing (w := .cancelRollout key) (fun _ ha => nomatch ha)
    (onStore_eq_ok hcancel)

theorem written_promotePolicy {name sourceEnvironment targetEnvironment sourceVersion
    targetVersion signerKeyId : Str} {activate : Bool} {bundle : PolicyBundle F}
    (h : service.promotePolicy organizationId name sourceEnvironment targetEnvironment
      sourceVersion targetVersion actor signerKeyId activate w = (.ok bundle, w')) :
    service.store.Written organizationId actor w.store.tables w'.store.tables := by
  obtain ⟨promoted, v, hpublish, h⟩ := PyM.bind_eq_ok.mp h
  have hsaved : service.store.Written organizationId actor w.store.tables v.store.tables := by
    rcases publishPromoted_eq hpublish with
      ⟨-, e, hr⟩ | ⟨-, _, _, _, t, -, -, hcreates, hwrite, hstore, -⟩
    · cases hr
    · rw [hstore]
      exact written_saveBundle hcreates hwrite
  cases activate with
  | true => exact hsaved.trans (written_activatePolicy h)
  | false =>
    cases h
    exact hsaved

theorem written_rollbackPolicy {key : PolicyKey} {version : Str} {bundle : PolicyBundle F}
    (h : service.rollbackPolicy key version actor w = (.ok bundle, w')) :
    service.store.Written key.organizationId actor w.store.tables w'.store.tables := by
  obtain ⟨activated, v, hactivate, h⟩ := PyM.bind_eq_ok.mp h
  obtain ⟨_, u, hcancel, h⟩ := PyM.bind_eq_ok.mp h
  rw [(apart_report h).1.1]
  exact (written_activatePolicy hactivate).trans (written_cancelRollout hcancel)

theorem written_startRollout {key : PolicyKey} {candidate : Str} {percentage : Int} {seed : Str}
    {expected : Option Int} {row : RolloutRow T}
    (h : service.startRollout key candidate percentage actor seed expected w = (.ok row, w')) :
    service.store.Written key.organizationId actor w.store.tables w'.store.tables := by
  obtain ⟨now, v, hnow, h⟩ := PyM.bind_eq_ok.mp h
  rw [← (apart_onOutside hnow).1]
  obtain ⟨rollout, u, hstart, h⟩ := PyM.bind_eq_ok.mp h
  obtain ⟨_, x, hemit, h⟩ := PyM.bind_eq_ok.mp h
  cases h
  rw [(apart_emit hemit).1]
  exact PolicyStore.written_startRollout (onStore_eq_ok hstart)

theorem store_activePolicy {key : PolicyKey} {bundle : PolicyBundle F}
    (h : service.activePolicy key w = (.ok bundle, w')) : w'.store = w.store := by
  obtain ⟨found, v, hget, h⟩ := PyM.bind_eq_ok.mp h
  obtain ⟨_, u, hverify, h⟩ := PyM.bind_eq_ok.mp h
  cases h
  exact (verifyRequired_eq hverify).1.trans
    (PolicyStore.getActive_eq_ok (onStore_eq_ok hget)).1

theorem store_policyForAgent {key : PolicyKey} {agentId : Str} {bundle : PolicyBundle F}
    (h : service.policyForAgent key agentId w = (.ok bundle, w')) : w'.store = w.store := by
  obtain ⟨found, v, hget, h⟩ := PyM.bind_eq_ok.mp h
  obtain ⟨_, u, hverify, h⟩ := PyM.bind_eq_ok.mp h
  cases h
  exact (verifyRequired_eq hverify).1.trans
    (PolicyStore.resolveActive_found (onStore_eq_ok hget)).1

end ControlPlaneService

/-! ### The ledger -/

namespace RoiStore

/-- The row that a call of the ledger adds, of the organization and the actor. -/
inductive Written (organizationId actor : Str) : RoiTables F V T → RoiTables F V T → Prop
  | created {t : RoiTables F V T} {row : OpportunityRow F V T}
      (hid : t.opportunity row.opportunityId = none)
      (hsource : rowAt OpportunityRow.source row.source t.opportunities = none) :
      row.organizationId = organizationId → row.createdBy = actor →
      Written organizationId actor t (t.insertOpportunity row hid hsource)
  | moved {t : RoiTables F V T} {row : HistoryRow T} {found : OpportunityRow F V T}
      (hid : rowAt HistoryRow.historyId row.historyId
        (t.setStatus row.opportunityId row.newStatus).history = none)
      (hopportunity : (t.setStatus row.opportunityId row.newStatus).HasOpportunity
        row.opportunityId) :
      t.opportunity row.opportunityId = some found → found.organizationId = organizationId →
      row.changedBy = actor → Written organizationId actor t
        ((t.setStatus row.opportunityId row.newStatus).insertHistory row hid hopportunity)
  | valued {t : RoiTables F V T} {row : ValueRow T}
      (hid : rowAt ValueRow.measurementId row.measurementId t.values = none)
      (hevidence : rowAt ValueRow.evidence row.evidence t.values = none)
      (hopportunity : t.HasOpportunity row.opportunityId) :
      row.organizationId = organizationId → row.recordedBy = actor →
      Written organizationId actor t (t.insertValue row hid hevidence hopportunity)
  | costed {t : RoiTables F V T} {row : CostRow T}
      (hid : rowAt CostRow.costId row.costId t.costs = none)
      (hevidence : rowAt CostRow.evidence row.evidence t.costs = none)
      (hopportunity : ∀ id, row.opportunityId = some id → t.HasOpportunity id) :
      row.organizationId = organizationId → row.recordedBy = actor →
      Written organizationId actor t (t.insertCost row hid hevidence hopportunity)

section

variable [LE T] [PyFloatOps F] [PyDecimalFloat F] {store : RoiStore F V T}
  {t t' : RoiTables F V T}

theorem getOpportunity_eq_ok {id : Str} {opportunity : ValueOpportunity F}
    (h : (store.getOpportunity id).run t = (.ok opportunity, t')) :
    t' = t ∧ ∃ row, t.opportunity id = some row ∧
      opportunity.organizationId = row.organizationId := by
  obtain ⟨hfind, rfl⟩ := reading_eq_ok.mp h
  obtain ⟨row, hrow, hitem⟩ := findOpportunity_eq_ok hfind
  exact ⟨rfl, row, hrow, (toOpportunity_eq_ok hitem).2.1⟩

omit [LE T] [PyFloatOps F] [PyDecimalFloat F] in
theorem done_eq_ok {r : Except PyExc α} {a : α}
    (h : (Proc.done r : Proc (RoiTables F V T) PyExc α).run t = (.ok a, t')) :
    r = .ok a ∧ t' = t := ⟨congrArg Prod.fst h, (congrArg Prod.snd h).symm⟩

omit [LE T] [PyFloatOps F] [PyDecimalFloat F] in
theorem writing_eq_ok {x : PyM (RoiTables F V T) α} {a : α}
    (h : (writing x).run t = (.ok a, t')) : x t = (.ok a, t') := PyM.transaction_eq_ok.mp h

omit [PyDecimalFloat F] in
theorem newOpportunity_written {form : OpportunityForm F} {id currency : Str}
    {valueType : ValueType} {valuePeriod : ValuePeriod} {now : Str} {row : OpportunityRow F V T}
    (h : store.newOpportunity form id currency valueType valuePeriod now = .ok row) :
    row.organizationId = strip form.organizationId ∧ row.createdBy = strip form.createdBy := by
  simp only [newOpportunity, except_bind_eq_ok] at h
  obtain ⟨_, -, _, -, _, -, _, -, _, -, _, -, _, -, _, -, _, -, _, -, _, -, _, -, _, -, _, -, _, -,
    _, -, _, -, h⟩ := h
  cases h
  exact ⟨rfl, rfl⟩

omit [PyFloatOps F] [PyDecimalFloat F] in
theorem newValue_written {form : ValueForm} {opportunity : ValueOpportunity F} {stage : ValueStage}
    {measurementId now date : Str} {row : ValueRow T}
    (h : store.newValue form opportunity stage measurementId now date = .ok row) :
    row.recordedBy = strip form.recordedBy := by
  simp only [newValue, except_bind_eq_ok] at h
  obtain ⟨_, -, _, -, _, -, _, -, _, -, _, -, _, -, _, -, _, -, _, -, _, -, _, -, h⟩ := h
  cases h
  rfl

omit [PyFloatOps F] [PyDecimalFloat F] in
theorem newCost_written {form : CostForm} {costId currency now date : Str} {row : CostRow T}
    (h : store.newCost form costId currency now date = .ok row) :
    row.recordedBy = strip form.recordedBy := by
  simp only [newCost, except_bind_eq_ok] at h
  obtain ⟨_, -, _, -, _, -, _, -, _, -, _, -, _, -, _, -, _, -, _, -, _, -, _, -, _, -, h⟩ := h
  cases h
  rfl

theorem written_createOpportunity {form : OpportunityForm F} {uuid now : Str}
    {opportunity : ValueOpportunity F}
    (h : (store.createOpportunity form uuid now).run t = (.ok opportunity, t')) :
    Written (strip form.organizationId) (strip form.createdBy) t t' := by
  obtain ⟨checked, t₁, hchecked, hrest⟩ := Proc.run_bind_eq_ok.mp h
  obtain ⟨-, rfl⟩ := done_eq_ok hchecked
  obtain ⟨_, t₂, hwrite, hget⟩ := Proc.run_bind_eq_ok.mp hrest
  obtain ⟨rfl, -⟩ := getOpportunity_eq_ok hget
  obtain ⟨row, hrow, hinsert⟩ := inserting_eq_ok (writing_eq_ok hwrite)
  obtain ⟨hid, hsource, rfl⟩ := insertOpportunity_eq_ok hinsert
  obtain ⟨horganization, hactor⟩ := newOpportunity_written hrow
  exact .created hid hsource horganization hactor

/-- The opportunity that is moved is one of the organization. -/
theorem written_transition {form : TransitionForm} {historyId now : Str}
    {opportunity : ValueOpportunity F} {row : OpportunityRow F V T}
    (hrow : t.opportunity form.opportunityId = some row)
    (h : (store.transition form historyId now).run t = (.ok opportunity, t')) :
    Written row.organizationId form.changedBy t t' := by
  obtain ⟨new, t₁, hnew, hrest⟩ := Proc.run_bind_eq_ok.mp h
  obtain ⟨-, rfl⟩ := done_eq_ok hnew
  obtain ⟨current, t₂, hcurrent, hmove⟩ := Proc.run_bind_eq_ok.mp hrest
  obtain ⟨rfl, -⟩ := getOpportunity_eq_ok hcurrent
  split at hmove
  · cases hmove
  · obtain ⟨_, t₃, hwrite, hget⟩ := Proc.run_bind_eq_ok.mp hmove
    obtain ⟨rfl, -⟩ := getOpportunity_eq_ok hget
    obtain ⟨changed, hid, hopportunity, rfl, -⟩ := move_eq_ok (writing_eq_ok hwrite)
    exact .moved hid hopportunity hrow rfl rfl

theorem written_recordValue {form : ValueForm} {measurementId now today : Str} {answer : PyDict F}
    {row : OpportunityRow F V T} (hrow : t.opportunity form.opportunityId = some row)
    (h : (store.recordValue form measurementId now today).run t = (.ok answer, t')) :
    Written row.organizationId (strip form.recordedBy) t t' := by
  obtain ⟨opportunity, t₁, hfound, hrest⟩ := Proc.run_bind_eq_ok.mp h
  obtain ⟨rfl, row', hrow', horganization⟩ := getOpportunity_eq_ok hfound
  obtain rfl : row = row' := Option.some.inj (hrow.symm.trans hrow')
  obtain ⟨stage, t₂, hstage, hrecord⟩ := Proc.run_bind_eq_ok.mp hrest
  obtain ⟨-, rfl⟩ := done_eq_ok hstage
  split at hrecord
  · cases hrecord
  obtain ⟨_, t₃, hevidence, hcents⟩ := Proc.run_bind_eq_ok.mp hrecord
  obtain ⟨-, rfl⟩ := done_eq_ok hevidence
  obtain ⟨_, t₄, hbefore, hwrite⟩ := Proc.run_bind_eq_ok.mp hcents
  obtain ⟨-, rfl⟩ := done_eq_ok hbefore
  obtain ⟨_, t₅, hinserted, hpriced⟩ := Proc.run_bind_eq_ok.mp hwrite
  obtain ⟨_, t₆, hmoney, hanswer⟩ := Proc.run_bind_eq_ok.mp hpriced
  obtain ⟨-, rfl⟩ := done_eq_ok hmoney
  cases hanswer
  obtain ⟨value, hvalue, hinsert⟩ := inserting_eq_ok (writing_eq_ok hinserted)
  obtain ⟨hid, hevidence, hopportunity, rfl⟩ := insertValue_eq_ok hinsert
  exact .valued hid hevidence hopportunity ((newValue_eq_ok hvalue).2.1.trans horganization)
    (newValue_written hvalue)

theorem checkCostOpportunity_eq_ok {form : CostForm} {u : Unit}
    (h : (store.checkCostOpportunity form).run t = (.ok u, t')) : t' = t := by
  unfold checkCostOpportunity at h
  split at h
  · cases h
    rfl
  · obtain ⟨opportunity, t₁, hfound, hrest⟩ := Proc.run_bind_eq_ok.mp h
    obtain ⟨rfl, -⟩ := getOpportunity_eq_ok hfound
    split at hrest
    · cases hrest
    · cases hrest
      rfl

theorem written_recordCost {form : CostForm} {costId now today : Str} {answer : PyDict F}
    (h : (store.recordCost form costId now today).run t = (.ok answer, t')) :
    Written form.organizationId (strip form.recordedBy) t t' := by
  obtain ⟨_, t₁, hcheck, hrest⟩ := Proc.run_bind_eq_ok.mp h
  obtain rfl := checkCostOpportunity_eq_ok hcheck
  obtain ⟨_, t₂, hevidence, hcents⟩ := Proc.run_bind_eq_ok.mp hrest
  obtain ⟨-, rfl⟩ := done_eq_ok hevidence
  obtain ⟨_, t₃, hbefore, hwrite⟩ := Proc.run_bind_eq_ok.mp hcents
  obtain ⟨-, rfl⟩ := done_eq_ok hbefore
  obtain ⟨_, t₄, hinserted, htyped⟩ := Proc.run_bind_eq_ok.mp hwrite
  obtain ⟨_, t₅, htype, hpriced⟩ := Proc.run_bind_eq_ok.mp htyped
  obtain ⟨-, rfl⟩ := done_eq_ok htype
  obtain ⟨_, t₆, hmoney, hanswer⟩ := Proc.run_bind_eq_ok.mp hpriced
  obtain ⟨-, rfl⟩ := done_eq_ok hmoney
  cases hanswer
  obtain ⟨cost, hcost, hinsert⟩ := inserting_eq_ok (writing_eq_ok hinserted)
  obtain ⟨hid, hevidence, hopportunity, rfl⟩ := insertCost_eq_ok hinsert
  exact .costed hid hevidence hopportunity (newCost_eq_ok hcost).1 (newCost_written hcost)

end

end RoiStore

end AgentRoi
