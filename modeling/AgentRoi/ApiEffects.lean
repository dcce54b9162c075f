/-
What any accepted request does.

* `roleOfBody`, `bindingOfBody` — the role and the binding that a body
  describes;
* `ApiRequest.actor` — the name a request stores;
* `ApiEffect` — the changes that accepted requests make;
* `effect_of_handle` — an accepted request makes one of them.
-/
import AgentRoi.ApiWrites
import AgentRoi.RoiSummary

namespace AgentRoi

variable {F V T W X Y O α : Type}

section

variable [PyValues F]

/-- The role that `PUT /v1/identity/roles/…` saves. -/
def roleOfBody (roleName : Str) (body : RequestBody F) : Except PyExc RoleDefinition := do
  let permissions ← itemTexts (bodyGet body "permissions" (.arr []))
  RoleDefinition.create roleName permissions (bodyText body "description" "")

/-- The binding that `POST /v1/identity/bindings` saves. -/
def bindingOfBody (body : RequestBody F) : Except PyExc RoleBinding := do
  let role ← bodyItem body "role"
  let organizationId ← bodyItem body "organization_id"
  RoleBinding.create role.pyStr organizationId.pyStr (bodyText body "subject" "")
    (bodyText body "group" "") (bodyText body "environment" "*")

end

/-- The `recorded_by` of a body, where it has one. -/
def recordedBy (principal : Principal) (body : RequestBody F) : Str :=
  strip (textOf (bodyGet body "recorded_by" (.str principal.subject)))

/-- The name a request stores: three routes take it from the body. -/
def ApiRequest.actor (principal : Principal) : ApiRequest F V T W X Y O → Str
  | .roiCreate _ body => strip (textOf (bodyGet body "created_by" .null))
  | .roiRecordValue _ _ body | .roiRecordCost _ body => recordedBy principal body
  | _ => principal.subject

/-- The request writes roles or bindings. -/
def ApiRequest.EditsRoles : ApiRequest F V T W X Y O → Prop
  | .rbacSaveRole _ _ | .rbacDeleteRole _ | .rbacSaveBinding _ | .rbacDeleteBinding _ => True
  | _ => False

/-- The changes that accepted requests make.  Only what is named changes. -/
inductive ApiEffect [LE Y] [PyValues F] (api : ControlPlaneApi F V T W X Y O) (moment : Moment)
    (principal : Principal) :
    ApiRequest F V T W X Y O → ApiWorld F V T W X Y O → ApiWorld F V T W X Y O → Prop
  | reads {request w} : request.actor principal = principal.subject → ¬ request.EditsRoles →
      ApiEffect api moment principal request w w
  | policies {request w s} : request.actor principal = principal.subject → ¬ request.EditsRoles →
      api.service.store.Written principal.organizationId principal.subject
        w.service.store.tables s.store.tables →
      ApiEffect api moment principal request w { w with service := s }
  | ledger {request w t} : ¬ request.EditsRoles →
      RoiStore.Written principal.organizationId (request.actor principal) w.roi t →
      ApiEffect api moment principal request w { w with roi := t }
  | saveRole {roleName body w role} : roleOfBody roleName body = .ok role →
      ApiEffect api moment principal (.rbacSaveRole roleName body) w
        { w with identity := w.identity.putRole role }
  | deleteRole {roleName w} :
      ApiEffect api moment principal (.rbacDeleteRole roleName) w
        { w with identity := w.identity.removeRole roleName }
  | saveBinding {body w binding} (hid hrole) : bindingOfBody body = .ok binding →
      ApiEffect api moment principal (.rbacSaveBinding body) w
        { w with identity := w.identity.addBinding ⟨moment.uuid, binding⟩ hid hrole }
  | deleteBinding {bindingId w} :
      ApiEffect api moment principal (.rbacDeleteBinding bindingId) w
        { w with identity := w.identity.removeBinding bindingId }
  | elsewhere {action resource call w o} :
      ApiEffect api moment principal (.elsewhere action resource call) w
        { w with elsewhere := o }

namespace ControlPlaneApi

variable [LE Y] [PyValues F] {api : ControlPlaneApi F V T W X Y O} {moment : Moment}
  {principal : Principal} {w w' : ApiWorld F V T W X Y O}

omit [PyValues F] in
/-- What passes `require` is of the principal's organization. -/
theorem require_eq_ok {action resource environment organizationId : Str} {u : Unit}
    (h : api.require principal action resource environment organizationId w = (.ok u, w')) :
    w' = w ∧ (organizationId ≠ [] → principal.organizationId = organizationId) := by
  unfold require at h
  split at h
  · cases h
  · next hcross =>
    rw [not_and_not_right] at hcross
    have hsame : w' = w := by
      split at h
      · cases h
        rfl
      · split at h
        · cases h
          rfl
        · cases h
    exact ⟨hsame, hcross⟩

omit [PyValues F] in
/-- What a checked route does is done in the principal's organization. -/
theorem checked_eq_ok {action resource environment organizationId : Str}
    {status : PyExc → Option ℕ} {x : PyM (ApiWorld F V T W X Y O) Unit} {u : Unit}
    (h : (do
      api.require principal action resource environment organizationId
      answering status x) w = (.ok u, w')) :
    (organizationId ≠ [] → principal.organizationId = organizationId) ∧ x w = (.ok u, w') := by
  obtain ⟨_, v, hrequire, hx⟩ := PyM.bind_eq_ok.mp h
  obtain ⟨rfl, hpath⟩ := require_eq_ok hrequire
  exact ⟨hpath, answering_eq_ok.mp hx⟩

omit [LE Y] [PyValues F] in
/-- A call whose result is dropped. -/
theorem dropped_eq_ok {σ β : Type} {x : PyM σ β} {s s' : σ} {u : Unit}
    (h : (do
      let _ ← x
      return ()) s = (.ok u, s')) : ∃ b, x s = (.ok b, s') := by
  obtain ⟨b, s₁, hx, hrest⟩ := PyM.bind_eq_ok.mp h
  cases hrest
  exact ⟨b, hx⟩

/-- A call of the policy service. -/
theorem effect_of_service {request : ApiRequest F V T W X Y O} {β : Type}
    {x : PyM (ServiceWorld F V T W) β} {b : β} {organizationId : Str}
    (hactor : request.actor principal = principal.subject) (hedits : ¬ request.EditsRoles)
    (hpath : principal.organizationId = organizationId)
    (hx : ∀ {s s'}, x s = (.ok b, s') → api.service.store.Written organizationId principal.subject
      s.store.tables s'.store.tables)
    (h : onService x w = (.ok b, w')) : ApiEffect api moment principal request w w' := by
  obtain ⟨s, hs, rfl⟩ := PyM.on_eq_ok.mp h
  refine .policies hactor hedits ?_
  rw [hpath]
  exact hx hs

/-- A call of the policy service that keeps its tables. -/
theorem effect_of_reading {request : ApiRequest F V T W X Y O} {β : Type}
    {x : PyM (ServiceWorld F V T W) β} {b : β}
    (hactor : request.actor principal = principal.subject) (hedits : ¬ request.EditsRoles)
    (hx : ∀ {s s'}, x s = (.ok b, s') → s'.store = s.store)
    (h : onService x w = (.ok b, w')) : ApiEffect api moment principal request w w' := by
  obtain ⟨s, hs, rfl⟩ := PyM.on_eq_ok.mp h
  refine .policies hactor hedits ?_
  rw [hx hs]
  exact .refl

theorem effect_publishPolicy {key : PolicyKey} {version : Str} {body : RequestBody F} {u : Unit}
    (hkey : key.organizationId ≠ [])
    (h : api.publishPolicy principal key version body w = (.ok u, w')) :
    ApiEffect api moment principal (.publishPolicy key version body) w w' := by
  obtain ⟨hpath, hcall⟩ := checked_eq_ok h
  obtain ⟨policy, -, hcall⟩ := PyM.ofExcept_bind_eq_ok.mp hcall
  obtain ⟨members, -, hcall⟩ := PyM.ofExcept_bind_eq_ok.mp hcall
  obtain ⟨bundle, hpublish⟩ := dropped_eq_ok hcall
  exact effect_of_service rfl id (hpath hkey) ControlPlaneService.written_publishPolicy hpublish

theorem effect_activatePolicy {key : PolicyKey} {version ifMatch : Str} {u : Unit}
    (hkey : key.organizationId ≠ [])
    (h : api.activatePolicy principal key version ifMatch w = (.ok u, w')) :
    ApiEffect api moment principal (.activatePolicy key version ifMatch) w w' := by
  obtain ⟨hpath, hcall⟩ := checked_eq_ok h
  obtain ⟨expected, -, hcall⟩ := PyM.ofExcept_bind_eq_ok.mp hcall
  obtain ⟨bundle, hactivate⟩ := dropped_eq_ok hcall
  exact effect_of_service rfl id (hpath hkey) ControlPlaneService.written_activatePolicy hactivate

theorem effect_activePolicy {key : PolicyKey} {u : Unit}
    (h : api.activePolicy principal key w = (.ok u, w')) :
    ApiEffect api moment principal (.activePolicy key) w w' := by
  obtain ⟨bundle, hread⟩ := dropped_eq_ok (checked_eq_ok h).2
  exact effect_of_reading rfl id ControlPlaneService.store_activePolicy hread

theorem effect_promotePolicy {organizationId sourceEnvironment name sourceVersion
    targetEnvironment : Str} {body : RequestBody F} {u : Unit} (horganization : organizationId ≠ [])
    (h : api.promotePolicy principal organizationId sourceEnvironment name sourceVersion
      targetEnvironment body w = (.ok u, w')) :
    ApiEffect api moment principal (.promotePolicy organizationId sourceEnvironment name
      sourceVersion targetEnvironment body) w w' := by
  obtain ⟨hpath, hcall⟩ := checked_eq_ok h
  obtain ⟨bundle, hpromote⟩ := dropped_eq_ok hcall
  exact effect_of_service rfl id (hpath horganization) ControlPlaneService.written_promotePolicy
    hpromote

theorem effect_rollbackPolicy {key : PolicyKey} {version : Str} {u : Unit}
    (hkey : key.organizationId ≠ [])
    (h : api.rollbackPolicy principal key version w = (.ok u, w')) :
    ApiEffect api moment principal (.rollbackPolicy key version) w w' := by
  obtain ⟨hpath, hcall⟩ := checked_eq_ok h
  obtain ⟨bundle, hrollback⟩ := dropped_eq_ok hcall
  exact effect_of_service rfl id (hpath hkey) ControlPlaneService.written_rollbackPolicy hrollback

theorem effect_startRollout {key : PolicyKey} {candidateVersion : Str} {body : RequestBody F}
    {ifMatch : Str} {u : Unit} (hkey : key.organizationId ≠ [])
    (h : api.startRollout principal key candidateVersion body ifMatch w = (.ok u, w')) :
    ApiEffect api moment principal (.startRollout key candidateVersion body ifMatch) w w' := by
  obtain ⟨hpath, hcall⟩ := checked_eq_ok h
  obtain ⟨value, -, hcall⟩ := PyM.ofExcept_bind_eq_ok.mp hcall
  obtain ⟨percentage, -, hcall⟩ := PyM.ofExcept_bind_eq_ok.mp hcall
  obtain ⟨expected, -, hcall⟩ := PyM.ofExcept_bind_eq_ok.mp hcall
  obtain ⟨rollout, hstart⟩ := dropped_eq_ok hcall
  exact effect_of_service rfl id (hpath hkey) ControlPlaneService.written_startRollout hstart

theorem effect_cancelRollout {key : PolicyKey} {u : Unit} (hkey : key.organizationId ≠ [])
    (h : api.cancelRollout principal key w = (.ok u, w')) :
    ApiEffect api moment principal (.cancelRollout key) w w' := by
  obtain ⟨_, v, hrequire, hcancel⟩ := PyM.bind_eq_ok.mp h
  obtain ⟨rfl, hpath⟩ := require_eq_ok hrequire
  exact effect_of_service rfl id (hpath hkey) ControlPlaneService.written_cancelRollout hcancel

theorem effect_resolvePolicy {key : PolicyKey} {agentId : Str} {u : Unit}
    (h : api.resolvePolicy principal key agentId w = (.ok u, w')) :
    ApiEffect api moment principal (.resolvePolicy key agentId) w w' := by
  obtain ⟨bundle, hread⟩ := dropped_eq_ok (checked_eq_ok h).2
  exact effect_of_reading rfl id ControlPlaneService.store_policyForAgent hread

theorem effect_registerAgent {organizationId : Str} {body : RequestBody F} {ifMatch : Str}
    {u : Unit} (horganization : organizationId ≠ [])
    (h : api.registerAgent moment principal organizationId body ifMatch w = (.ok u, w')) :
    ApiEffect api moment principal (.registerAgent organizationId body ifMatch) w w' := by
  obtain ⟨hpath, hcall⟩ := checked_eq_ok h
  simp only [PyM.ofExcept_bind_eq_ok] at hcall
  obtain ⟨_, -, expected, -, agentId, -, environment, -, owner, -, purpose, -, status, -,
    metadata, -, version, -, hcall⟩ := hcall
  obtain ⟨record, hregister⟩ := dropped_eq_ok hcall
  refine effect_of_service rfl id (hpath horganization) (fun hs => ?_) hregister
  exact PolicyStore.written_writing_reading (w := .registerAgent ⟨organizationId, agentId,
    environment⟩ owner purpose status metadata version moment.now expected) (fun _ ha => nomatch ha)
    (ControlPlaneService.onStore_eq_ok hs)

theorem effect_heartbeat {key : AgentKey} {body : RequestBody F} {ifMatch : Str} {u : Unit}
    (hkey : key.organizationId ≠ [])
    (h : api.heartbeat moment principal key body ifMatch w = (.ok u, w')) :
    ApiEffect api moment principal (.heartbeat key body ifMatch) w w' := by
  obtain ⟨hpath, hcall⟩ := checked_eq_ok h
  obtain ⟨expected, -, hcall⟩ := PyM.ofExcept_bind_eq_ok.mp hcall
  obtain ⟨record, hbeat⟩ := dropped_eq_ok hcall
  refine effect_of_service rfl id (hpath hkey) (fun hs => ?_) hbeat
  exact PolicyStore.written_writing_reading (w := .heartbeat key (bodyText body "policy_digest" "")
    (bodyText body "version" "") (bodyText body "status" "production") moment.now expected)
    (fun _ ha => nomatch ha) (ControlPlaneService.onStore_eq_ok hs)

theorem effect_rbacSaveRole {roleName : Str} {body : RequestBody F} {u : Unit}
    (h : api.rbacSaveRole principal roleName body w = (.ok u, w')) :
    ApiEffect api moment principal (.rbacSaveRole roleName body) w w' := by
  obtain ⟨store, -, hroute⟩ := installed_eq_ok.mp h
  have hcall := (checked_eq_ok hroute).2
  obtain ⟨permissions, hpermissions, hcall⟩ := PyM.ofExcept_bind_eq_ok.mp hcall
  obtain ⟨role, hrole, hcall⟩ := PyM.ofExcept_bind_eq_ok.mp hcall
  obtain ⟨t, hsave, rfl⟩ := PyM.on_eq_ok.mp hcall
  obtain rfl := IdentityStore.saveRole_eq_ok hsave
  exact .saveRole (except_bind_eq_ok.mpr ⟨permissions, hpermissions, hrole⟩)

theorem effect_rbacDeleteRole {roleName : Str} {u : Unit}
    (h : api.rbacDeleteRole principal roleName w = (.ok u, w')) :
    ApiEffect api moment principal (.rbacDeleteRole roleName) w w' := by
  obtain ⟨store, -, hroute⟩ := installed_eq_ok.mp h
  obtain ⟨t, hdelete, rfl⟩ := PyM.on_eq_ok.mp (checked_eq_ok hroute).2
  obtain rfl := IdentityStore.deleteRole_eq_ok hdelete
  exact .deleteRole

theorem effect_rbacSaveBinding {body : RequestBody F} {u : Unit}
    (h : api.rbacSaveBinding moment principal body w = (.ok u, w')) :
    ApiEffect api moment principal (.rbacSaveBinding body) w w' := by
  obtain ⟨store, -, hroute⟩ := installed_eq_ok.mp h
  have hcall := (checked_eq_ok hroute).2
  obtain ⟨role, hrole, hcall⟩ := PyM.ofExcept_bind_eq_ok.mp hcall
  obtain ⟨organizationId, horganization, hcall⟩ := PyM.ofExcept_bind_eq_ok.mp hcall
  obtain ⟨binding, hbinding, hcall⟩ := PyM.ofExcept_bind_eq_ok.mp hcall
  obtain ⟨id, hidentity⟩ := dropped_eq_ok hcall
  obtain ⟨t, hsave, rfl⟩ := PyM.on_eq_ok.mp hidentity
  obtain ⟨hid, hknown, rfl⟩ := IdentityStore.saveBinding_eq_ok hsave
  exact .saveBinding hid hknown (except_bind_eq_ok.mpr ⟨role, hrole,
    except_bind_eq_ok.mpr ⟨organizationId, horganization, hbinding⟩⟩)

theorem effect_rbacDeleteBinding {bindingId : Str} {u : Unit}
    (h : api.rbacDeleteBinding principal bindingId w = (.ok u, w')) :
    ApiEffect api moment principal (.rbacDeleteBinding bindingId) w w' := by
  obtain ⟨store, -, hroute⟩ := installed_eq_ok.mp h
  obtain ⟨t, hdelete, rfl⟩ := PyM.on_eq_ok.mp (checked_eq_ok hroute).2
  obtain rfl := IdentityStore.deleteBinding_eq_ok hdelete
  exact .deleteBinding

/-! ### The ledger -/

section

/-- What the routes of the ledger read of a body, whatever else it holds. -/
theorem opportunityForm_eq_ok {reader : BodyReader F} {body : RequestBody F}
    {form : OpportunityForm F} (h : reader.opportunityForm body = .ok form) :
    form.organizationId = textOf (bodyGet body "organization_id" .null) ∧
      form.createdBy = textOf (bodyGet body "created_by" .null) := by
  simp only [BodyReader.opportunityForm, except_bind_eq_ok] at h
  obtain ⟨_, -, _, -, _, -, _, -, _, -, _, -, _, -, h⟩ := h
  cases h
  exact ⟨rfl, rfl⟩

omit [PyValues F] in
theorem receiver_eq_ok {value : Json F} {text : Str} (h : receiver value = .ok text) :
    textOf value = text := by
  cases value with
  | str s =>
    cases h
    rfl
  | _ => cases h

theorem valueForm_eq_ok {reader : BodyReader F} {opportunityId : Str} {body : RequestBody F}
    {form : ValueForm} (h : reader.valueForm opportunityId body = .ok form) :
    form.opportunityId = opportunityId ∧
      form.recordedBy = textOf (bodyGet body "recorded_by" .null) := by
  simp only [BodyReader.valueForm, except_bind_eq_ok] at h
  obtain ⟨_, -, _, -, recordedBy, hrecorded, _, -, _, -, _, -, h⟩ := h
  cases h
  exact ⟨rfl, (receiver_eq_ok hrecorded).symm⟩

theorem costForm_eq_ok {reader : BodyReader F} {body : RequestBody F} {form : CostForm}
    (h : reader.costForm body = .ok form) :
    form.organizationId = textOf (bodyGet body "organization_id" .null) ∧
      form.recordedBy = textOf (bodyGet body "recorded_by" .null) := by
  simp only [BodyReader.costForm, except_bind_eq_ok] at h
  obtain ⟨_, -, _, -, _, -, _, -, recordedBy, hrecorded, _, -, _, -, _, -, h⟩ := h
  cases h
  exact ⟨rfl, (receiver_eq_ok hrecorded).symm⟩

omit [PyValues F] in
theorem bodyGet_dictInsert_self {name : String} {value default : Json F} {body : RequestBody F} :
    bodyGet (dictInsert (lit name) value body) name default = value := by
  unfold bodyGet
  rw [dictGet_dictInsert_self]
  rfl

omit [PyValues F] in
theorem bodyGet_dictInsert_of_ne {name other : String} {value default : Json F}
    {body : RequestBody F} (h : lit other ≠ lit name) :
    bodyGet (dictInsert (lit other) value body) name default = bodyGet body name default := by
  unfold bodyGet
  rw [dictGet_dictInsert_of_ne h]

omit [PyValues F] in
theorem bodyGet_setRecordedBy_self {subject : Str} {body : RequestBody F} :
    bodyGet (setRecordedBy subject body) "recorded_by" .null =
      bodyGet body "recorded_by" (.str subject) := by
  unfold bodyGet setRecordedBy
  cases hrecorded : dictGet (lit "recorded_by") body with
  | none =>
    rw [Option.isSome_none, if_neg Bool.false_ne_true, dictGet_append_of_none hrecorded]
    rfl
  | some value =>
    rw [Option.isSome_some, if_pos rfl, hrecorded]
    rfl

omit [PyValues F] in
theorem bodyGet_setRecordedBy_of_ne {name : String} {subject : Str} {default : Json F}
    {body : RequestBody F} (h : lit "recorded_by" ≠ lit name) :
    bodyGet (setRecordedBy subject body) name default = bodyGet body name default := by
  unfold bodyGet setRecordedBy
  split
  · rfl
  · cases hvalue : dictGet (lit name) body with
    | none =>
      rw [dictGet_append_of_none hvalue, dictGet, if_neg h]
      rfl
    | some value => rw [dictGet_append_of_some hvalue]

variable [PyDecimalFloat F]

theorem effect_roiCreate {organizationId : Str} {body : RequestBody F} {u : Unit}
    (horganization : organizationId ≠ [])
    (h : api.roiCreate moment principal organizationId body w = (.ok u, w')) :
    ApiEffect api moment principal (.roiCreate organizationId body) w w' := by
  obtain ⟨ledger, -, hroute⟩ := installed_eq_ok.mp h
  obtain ⟨hpath, hcall⟩ := checked_eq_ok hroute
  obtain ⟨form, hform, hcall⟩ := PyM.ofExcept_bind_eq_ok.mp hcall
  obtain ⟨opportunity, hcreate⟩ := dropped_eq_ok hcall
  obtain ⟨t, hcreated, rfl⟩ := PyM.on_eq_ok.mp hcreate
  have hwritten := RoiStore.written_createOpportunity hcreated
  obtain ⟨hpart, hcreator⟩ := opportunityForm_eq_ok hform
  rw [bodyGet_dictInsert_self] at hpart
  rw [bodyGet_dictInsert_of_ne (by decide)] at hcreator
  rw [hpart, hcreator, ← hpath horganization] at hwritten
  refine .ledger id ?_
  rw [show principal.organizationId = strip principal.organizationId from
    principal.organizationId_clean.2.symm]
  exact hwritten

/-- The opportunity of the path is one of the organization of the path. -/
theorem roiOpportunity_eq_ok {ledger : RoiStore F X Y} {organizationId opportunityId : Str}
    {u : Unit}
    (h : roiOpportunity ledger organizationId opportunityId w = (.ok u, w')) :
    w' = w ∧ ∃ row, w.roi.opportunity opportunityId = some row ∧
      row.organizationId = organizationId := by
  obtain ⟨opportunity, v, hfound, hrest⟩ := PyM.bind_eq_ok.mp h
  obtain ⟨t, hget, rfl⟩ := PyM.on_eq_ok.mp hfound
  obtain ⟨rfl, row, hrow, hsame⟩ := RoiStore.getOpportunity_eq_ok hget
  split at hrest
  · cases hrest
  · next hpath =>
    cases hrest
    exact ⟨rfl, row, hrow, hsame.symm.trans (not_not.mp hpath)⟩

theorem effect_roiTransition {organizationId opportunityId : Str} {body : RequestBody F}
    {ifMatch : Str} {u : Unit} (horganization : organizationId ≠ [])
    (h : api.roiTransition moment principal organizationId opportunityId body ifMatch w =
      (.ok u, w')) :
    ApiEffect api moment principal (.roiTransition organizationId opportunityId body ifMatch)
      w w' := by
  obtain ⟨ledger, -, hroute⟩ := installed_eq_ok.mp h
  obtain ⟨hpath, hcall⟩ := checked_eq_ok hroute
  obtain ⟨_, v, hopportunity, hrest⟩ := PyM.bind_eq_ok.mp hcall
  obtain ⟨rfl, row, hrow, hsame⟩ := roiOpportunity_eq_ok hopportunity
  obtain ⟨expected, -, hread⟩ := PyM.ofExcept_bind_eq_ok.mp hrest
  obtain ⟨status, -, hdropped⟩ := PyM.ofExcept_bind_eq_ok.mp hread
  obtain ⟨opportunity, hmove⟩ := dropped_eq_ok hdropped
  obtain ⟨t, hmoved, rfl⟩ := PyM.on_eq_ok.mp hmove
  have hwritten := RoiStore.written_transition hrow hmoved
  rw [hsame, ← hpath horganization] at hwritten
  exact .ledger id hwritten

theorem effect_roiRecordValue {organizationId opportunityId : Str} {body : RequestBody F}
    {u : Unit} (horganization : organizationId ≠ [])
    (h : api.roiRecordValue moment principal organizationId opportunityId body w = (.ok u, w')) :
    ApiEffect api moment principal (.roiRecordValue organizationId opportunityId body) w w' := by
  obtain ⟨ledger, -, hroute⟩ := installed_eq_ok.mp h
  obtain ⟨hpath, hcall⟩ := checked_eq_ok hroute
  obtain ⟨_, v, hopportunity, hrest⟩ := PyM.bind_eq_ok.mp hcall
  obtain ⟨rfl, row, hrow, hsame⟩ := roiOpportunity_eq_ok hopportunity
  obtain ⟨form, hform, hread⟩ := PyM.ofExcept_bind_eq_ok.mp hrest
  obtain ⟨answer, hrecord⟩ := dropped_eq_ok hread
  obtain ⟨t, hrecorded, rfl⟩ := PyM.on_eq_ok.mp hrecord
  obtain ⟨hid, hrecorder⟩ := valueForm_eq_ok hform
  rw [← hid] at hrow
  have hwritten := RoiStore.written_recordValue hrow hrecorded
  rw [hsame, ← hpath horganization, hrecorder, bodyGet_setRecordedBy_self] at hwritten
  exact .ledger id hwritten

theorem effect_roiRecordCost {organizationId : Str} {body : RequestBody F} {u : Unit}
    (horganization : organizationId ≠ [])
    (h : api.roiRecordCost moment principal organizationId body w = (.ok u, w')) :
    ApiEffect api moment principal (.roiRecordCost organizationId body) w w' := by
  obtain ⟨ledger, -, hroute⟩ := installed_eq_ok.mp h
  obtain ⟨hpath, hcall⟩ := checked_eq_ok hroute
  obtain ⟨form, hform, hcall⟩ := PyM.ofExcept_bind_eq_ok.mp hcall
  obtain ⟨answer, hrecord⟩ := dropped_eq_ok hcall
  obtain ⟨t, hrecorded, rfl⟩ := PyM.on_eq_ok.mp hrecord
  have hwritten := RoiStore.written_recordCost hrecorded
  obtain ⟨hpart, hrecorder⟩ := costForm_eq_ok hform
  rw [bodyGet_setRecordedBy_of_ne (by decide), bodyGet_dictInsert_self] at hpart
  rw [bodyGet_setRecordedBy_self, bodyGet_dictInsert_of_ne (by decide)] at hrecorder
  rw [hpart, hrecorder] at hwritten
  refine .ledger id ?_
  rw [hpath horganization]
  exact hwritten

/-! ### Any request -/

/-- An accepted request makes one of the changes. -/
theorem effect_of_handle {request : ApiRequest F V T W X Y O} {u : Unit}
    (h : api.handle moment principal request w = (.ok u, w')) :
    ApiEffect api moment principal request w w' := by
  unfold handle at h
  split at h
  · cases h
  next hpath =>
  -- an organization in a path is not empty
  have hne : ∀ {organizationId}, request.organization = some organizationId →
      organizationId ≠ [] := fun horganization hempty => hpath (hempty ▸ horganization)
  cases request with
  | publishPolicy key version body => exact effect_publishPolicy (hne rfl) h
  | activatePolicy key version ifMatch => exact effect_activatePolicy (hne rfl) h
  | activePolicy key => exact effect_activePolicy h
  | promotePolicy organizationId sourceEnvironment name sourceVersion targetEnvironment body =>
    exact effect_promotePolicy (hne rfl) h
  | rollbackPolicy key version => exact effect_rollbackPolicy (hne rfl) h
  | startRollout key candidateVersion body ifMatch => exact effect_startRollout (hne rfl) h
  | cancelRollout key => exact effect_cancelRollout (hne rfl) h
  | resolvePolicy key agentId => exact effect_resolvePolicy h
  | registerAgent organizationId body ifMatch => exact effect_registerAgent (hne rfl) h
  | heartbeat key body ifMatch => exact effect_heartbeat (hne rfl) h
  | rbacSaveRole roleName body => exact effect_rbacSaveRole h
  | rbacDeleteRole roleName => exact effect_rbacDeleteRole h
  | rbacSaveBinding body => exact effect_rbacSaveBinding h
  | rbacDeleteBinding bindingId => exact effect_rbacDeleteBinding h
  | roiCreate organizationId body => exact effect_roiCreate (hne rfl) h
  | roiTransition organizationId opportunityId body ifMatch =>
    exact effect_roiTransition (hne rfl) h
  | roiRecordValue organizationId opportunityId body => exact effect_roiRecordValue (hne rfl) h
  | roiRecordCost organizationId body => exact effect_roiRecordCost (hne rfl) h
  | reading action resource organizationId answer =>
    obtain ⟨_, v, hrequire, hread⟩ := PyM.bind_eq_ok.mp h
    obtain ⟨rfl, -⟩ := require_eq_ok hrequire
    obtain rfl : w' = v := (congrArg Prod.snd hread).symm
    exact .reads rfl id
  | elsewhere action resource call =>
    obtain ⟨_, v, hrequire, hcall⟩ := PyM.bind_eq_ok.mp h
    obtain ⟨rfl, -⟩ := require_eq_ok hrequire
    obtain ⟨o, -, rfl⟩ := PyM.on_eq_ok.mp hcall
    exact .elsewhere

end

end ControlPlaneApi

/-! ### A small control plane -/

/-- What Python makes of texts, floats and small integers. -/
def sampleReader : BodyReader SmallFloat where
  float value :=
    match value with
    | .float x => .ok x
    | .int 0 => .ok (.finite .zero)
    | .int 1 => .ok (.finite .one)
    | _ => .error (.valueError [])
  decimal value :=
    match value with
    | .int i => some (.finite ⟨decide (i < 0), i.natAbs, 0⟩)
    | _ => none
  column value :=
    match value with
    | .str text => .ok text
    | _ => .error (.typeError [])
  column_text _ := rfl

/-- A control plane on new databases, with no authorizer but `require`. -/
def sampleApi : ControlPlaneApi SmallFloat Str Str Unit Str Str Unit where
  service := hmacService
  identityStore := some sqliteIdentityStore
  roiLedger := some sampleLedger
  authorizer := none
  reader := sampleReader

def newApiWorld : ApiWorld SmallFloat Str Str Unit Str Str Unit := ⟨newWorld, .empty, .empty, ()⟩

def sampleMoment : Moment :=
  ⟨lit "2024-01-01", lit "2024-01-01T00:00:00+00:00", lit "0"⟩

theorem clean_none : ∀ name ∈ ([] : List Str), IsClean name :=
  fun _ h => absurd h List.not_mem_nil

def alice : Principal where
  subject := lit "alice"
  organizationId := lit "a"
  roles := []
  groups := []
  subject_clean := by decide
  organizationId_clean := by decide
  roles_clean := clean_none
  groups_clean := clean_none

/-- An opportunity that `created_by` names someone for. -/
def createAs (createdBy : String) : ApiRequest SmallFloat Str Str Unit Str Str Unit :=
  .roiCreate (lit "a") [
    (lit "agent_id", .str (lit "bot")), (lit "business_unit", .str (lit "u")),
    (lit "business_owner", .str (lit "o")), (lit "title", .str (lit "t")),
    (lit "value_type", .str (lit "revenue")), (lit "value_period", .str (lit "annual")),
    (lit "baseline_usd", .int 1), (lit "forecast_value_usd", .int 2), (lit "confidence", .int 1),
    (lit "source_key", .str (lit "s")), (lit "created_by", .str (lit createdBy))]

/-- The world after the request. -/
def afterCreate (createdBy : String) : ApiWorld SmallFloat Str Str Unit Str Str Unit :=
  (sampleApi.handle sampleMoment alice (createAs createdBy) newApiWorld).2

theorem createAs_accepted (createdBy : String)
    (h : (sampleApi.handle sampleMoment alice (createAs createdBy) newApiWorld).1.isOk = true) :
    sampleApi.handle sampleMoment alice (createAs createdBy) newApiWorld =
      (.ok (), afterCreate createdBy) := by
  obtain ⟨⟨⟩, w, hw⟩ := PyM.exists_of_isOk h
  rw [hw, afterCreate, hw]

end AgentRoi
