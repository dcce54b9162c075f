/-
What requests of one organization change for another.

* `ControlPlaneTables.tenant`, `RoiTables.tenant` — the rows of one
  organization;
* `SameFor` — an organization finds the decisions of the authorizer, its
  policies, rollouts, agents and ROI records as they were;
* `HarmlessFor` — the request changes no role and no binding that decides for the
  organization;
* `ApiRun` — the requests that principals of one organization make;
* `tenants_isolated_iff` — another organization finds everything as it was
  throughout a run, exactly when each of its requests is harmless.
-/
import AgentRoi.ApiEffects

namespace AgentRoi

open RowTable

variable {F V T W X Y O : Type}

/-! ### Policies and agents -/

/-- The rows of an organization. -/
structure TenantTables (V T : Type) where
  bundles : List (BundleRow V T)
  active : List (ActiveRow T)
  rollouts : List (RolloutRow T)
  agents : List (AgentRow V T)

def ControlPlaneTables.tenant (t : ControlPlaneTables V T) (organizationId : Str) :
    TenantTables V T where
  bundles := t.bundles.filter fun row => row.key.organizationId = organizationId
  active := t.active.filter fun row => row.key.organizationId = organizationId
  rollouts := t.rollouts.filter fun row => row.key.organizationId = organizationId
  agents := t.agents.filter fun row => row.key.organizationId = organizationId

namespace ControlPlaneTables

variable {t : ControlPlaneTables V T} {organizationId : Str}

theorem tenant_insertBundle {row : BundleRow V T} {h : t.bundle row.key row.version = none}
    (hne : row.key.organizationId ≠ organizationId) :
    (t.insertBundle row h).tenant organizationId = t.tenant organizationId := by
  have hbundles : (t.bundles ++ [row]).filter (fun r => r.key.organizationId = organizationId) =
      t.bundles.filter fun r => r.key.organizationId = organizationId := by
    rw [List.filter_append, List.filter_singleton, decide_eq_false hne]
    exact List.append_nil _
  simp only [tenant, insertBundle, hbundles]

theorem tenant_putActive {row : ActiveRow T} {h : t.HasBundle row.key row.version}
    (hne : row.key.organizationId ≠ organizationId) :
    (t.putActive row h).tenant organizationId = t.tenant organizationId := by
  have hactive : (upsert ActiveRow.key row t.active).filter
      (fun r => r.key.organizationId = organizationId) =
      t.active.filter fun r => r.key.organizationId = organizationId :=
    filter_upsert fun r hr => decide_eq_false (hr ▸ hne)
  simp only [tenant, putActive, hactive]

theorem tenant_putRollout {row : RolloutRow T}
    {h : t.HasBundle row.key row.primaryVersion ∧ t.HasBundle row.key row.candidateVersion}
    (hne : row.key.organizationId ≠ organizationId) :
    (t.putRollout row h).tenant organizationId = t.tenant organizationId := by
  have hrollouts : (upsert RolloutRow.key row t.rollouts).filter
      (fun r => r.key.organizationId = organizationId) =
      t.rollouts.filter fun r => r.key.organizationId = organizationId :=
    filter_upsert fun r hr => decide_eq_false (hr ▸ hne)
  simp only [tenant, putRollout, hrollouts]

theorem tenant_putAgent {row : AgentRow V T} (hne : row.key.organizationId ≠ organizationId) :
    (t.putAgent row).tenant organizationId = t.tenant organizationId := by
  have hagents : (upsert AgentRow.key row t.agents).filter
      (fun r => r.key.organizationId = organizationId) =
      t.agents.filter fun r => r.key.organizationId = organizationId :=
    filter_upsert fun r hr => decide_eq_false (hr ▸ hne)
  simp only [tenant, putAgent, hagents]

theorem tenant_deleteRollout {key : PolicyKey} (hne : key.organizationId ≠ organizationId) :
    (t.deleteRollout key).tenant organizationId = t.tenant organizationId := by
  have hrollouts : (t.rollouts.filter fun row => row.key ≠ key).filter
      (fun row => row.key.organizationId = organizationId) =
      t.rollouts.filter fun row => row.key.organizationId = organizationId := by
    rw [List.filter_filter]
    refine List.filter_congr fun row _ => ?_
    -- the row that goes is none of the organization's
    by_cases horganization : row.key.organizationId = organizationId
    · have hkey : row.key ≠ key := fun heq => hne (heq ▸ horganization)
      simp [horganization, hkey]
    · simp [horganization]
  simp only [tenant, deleteRollout, hrollouts]

end ControlPlaneTables

namespace PolicyStore

variable [PyFloat F] {store : PolicyStore F V T} {t t' : ControlPlaneTables V T}
  {organizationId other actor : Str}

/-- A write changes rows of its own organization only. -/
theorem tenant_write {w : PolicyWrite F} {u : Unit} (hne : w.organization ≠ organizationId)
    (h : store.write w t = (.ok u, t')) : t'.tenant organizationId = t.tenant organizationId := by
  cases w with
  | saveBundle bundle =>
    obtain ⟨row, hfree, hrow, rfl⟩ := write_saveBundle h
    obtain ⟨-, -, _, _, -, -, rfl⟩ := rowOfBundle_eq_ok hrow
    exact ControlPlaneTables.tenant_insertBundle hne
  | activate key version now activatedBy expected =>
    obtain ⟨row, hrow, hnew, rfl⟩ := write_activate h
    have hkey := (newActive_eq_ok hnew).1
    rw [ControlPlaneTables.tenant_deleteRollout hne]
    exact ControlPlaneTables.tenant_putActive (hkey ▸ hne)
  | startRollout key primary candidate percentage seed now updatedBy expected =>
    obtain ⟨row, hrow, hnew, rfl⟩ := write_startRollout h
    have hkey := (newRollout_eq_ok hnew).1
    exact ControlPlaneTables.tenant_putRollout (hkey ▸ hne)
  | cancelRollout key =>
    obtain rfl := write_cancelRollout h
    exact ControlPlaneTables.tenant_deleteRollout hne
  | registerAgent key owner purpose status metadata version now expected =>
    obtain ⟨row, hnew, rfl⟩ := write_registerAgent h
    have hkey := (newAgent_eq_ok hnew).1
    exact ControlPlaneTables.tenant_putAgent (hkey ▸ hne)
  | heartbeat key policyDigest version status now expected =>
    obtain ⟨row, hnew, rfl⟩ := write_heartbeat h
    have hkey := (beatenAgent_eq_ok hnew).1
    exact ControlPlaneTables.tenant_putAgent (hkey ▸ hne)

theorem Written.tenant (hne : organizationId ≠ other)
    (h : store.Written organizationId actor t t') : t'.tenant other = t.tenant other := by
  induction h with
  | refl => rfl
  | tail _ hwrite ih =>
    obtain ⟨w, horganization, -, hw⟩ := hwrite
    exact (tenant_write (horganization ▸ hne) hw).trans ih

end PolicyStore

/-! ### ROI records -/

/-- The records of an organization; the history is that of its opportunities. -/
structure TenantLedger (F V T : Type) where
  opportunities : List (OpportunityRow F V T)
  values : List (ValueRow T)
  costs : List (CostRow T)
  history : List (HistoryRow T)

namespace RoiTables

/-- The opportunity is one of the organization. -/
def BelongsTo (t : RoiTables F V T) (organizationId id : Str) : Bool :=
  (t.opportunity id).any fun row => row.organizationId = organizationId

def tenant (t : RoiTables F V T) (organizationId : Str) : TenantLedger F V T where
  opportunities := t.opportunities.filter fun row => row.organizationId = organizationId
  values := t.values.filter fun row => row.organizationId = organizationId
  costs := t.costs.filter fun row => row.organizationId = organizationId
  history := t.history.filter fun row => t.BelongsTo organizationId row.opportunityId

variable {t t' : RoiTables F V T} {organizationId : Str}

/-- Whose an opportunity is does not change. -/
theorem belongsTo_of_keeps (hkeeps : Keeps t t') {id : Str} (h : t.HasOpportunity id) :
    t'.BelongsTo organizationId id = t.BelongsTo organizationId id := by
  obtain ⟨row, hrow⟩ : ∃ row, t.opportunity id = some row := by
    cases hrow : t.opportunity id with
    | none => exact absurd h (rowAt_eq_none_iff.mp hrow)
    | some row => exact ⟨row, rfl⟩
  obtain ⟨row', hrow', hmoved⟩ := hkeeps id row hrow
  have hsame : row'.organizationId = row.organizationId := by rw [hmoved]
  simp only [BelongsTo, hrow, hrow', Option.any_some, hsame]

/-- So the rows of the history that are there are selected as before. -/
theorem history_of_keeps (t : RoiTables F V T) (organizationId : Str) (hkeeps : Keeps t t') :
    (t.history.filter fun row => t'.BelongsTo organizationId row.opportunityId) =
      t.history.filter fun row => t.BelongsTo organizationId row.opportunityId :=
  List.filter_congr fun row hrow => belongsTo_of_keeps hkeeps (t.historyOpportunity row hrow)

end RoiTables

/-- A call of the ledger adds to the records of its organization only. -/
theorem RoiStore.Written.tenant {t t' : RoiTables F V T} {organizationId other actor : Str}
    (hne : organizationId ≠ other) (h : RoiStore.Written organizationId actor t t') :
    t'.tenant other = t.tenant other := by
  have hadded : ∀ {ρ : Type} {rows : List ρ} {row : ρ} {p : ρ → Bool}, p row = false →
      (rows ++ [row]).filter p = rows.filter p := by
    intro ρ rows row p hp
    rw [List.filter_append, List.filter_singleton, hp]
    exact List.append_nil _
  cases h with
  | @created row hid hsource horganization hactor =>
    have hopportunities : (t.opportunities ++ [row]).filter (fun r => r.organizationId = other) =
        t.opportunities.filter fun r => r.organizationId = other :=
      hadded (decide_eq_false (horganization ▸ hne))
    have hhistory := RoiTables.history_of_keeps t other (RoiTables.keeps_insertOpportunity hid hsource)
    exact congrArg₂ (fun o h => (⟨o, _, _, h⟩ : TenantLedger F V T)) hopportunities hhistory
  | @moved row found hid hopportunity hfound horganization hactor =>
    have hopportunities : (updateWhere (fun r => r.opportunityId = row.opportunityId)
        (OpportunityRow.moved row.newStatus) t.opportunities).filter
          (fun r => r.organizationId = other) =
        t.opportunities.filter fun r => r.organizationId = other := by
      refine filter_updateWhere fun r hr hid => ?_
      -- the row with the id is the one that was found
      have hrow := rowAt_of_mem t.opportunityIds hr
      rw [of_decide_eq_true hid] at hrow
      obtain rfl : r = found := Option.some.inj (hrow.symm.trans hfound)
      have hother : r.organizationId ≠ other := horganization ▸ hne
      exact ⟨decide_eq_false hother, decide_eq_false hother⟩
    have hkeeps : RoiTables.Keeps t (t.setStatus row.opportunityId row.newStatus) :=
      RoiTables.keeps_setStatus
    have hhistory : (t.history ++ [row]).filter
        (fun r => (t.setStatus row.opportunityId row.newStatus).BelongsTo other r.opportunityId) =
        t.history.filter fun r => t.BelongsTo other r.opportunityId := by
      rw [hadded, RoiTables.history_of_keeps t other hkeeps]
      obtain ⟨row', hrow', hmoved⟩ := hkeeps _ _ hfound
      have hother : row'.organizationId ≠ other := by
        rw [hmoved]
        exact horganization ▸ hne
      simp only [RoiTables.BelongsTo, hrow', Option.any_some, decide_eq_false hother]
    exact congrArg₂ (fun o h => (⟨o, _, _, h⟩ : TenantLedger F V T)) hopportunities hhistory
  | @valued row hid hevidence hopportunity horganization hactor =>
    have hvalues : (t.values ++ [row]).filter (fun r => r.organizationId = other) =
        t.values.filter fun r => r.organizationId = other :=
      hadded (decide_eq_false (horganization ▸ hne))
    exact congrArg (fun v => (⟨_, v, _, _⟩ : TenantLedger F V T)) hvalues
  | @costed row hid hevidence hopportunity horganization hactor =>
    have hcosts : (t.costs ++ [row]).filter (fun r => r.organizationId = other) =
        t.costs.filter fun r => r.organizationId = other :=
      hadded (decide_eq_false (horganization ▸ hne))
    exact congrArg (fun c => (⟨_, _, c, _⟩ : TenantLedger F V T)) hcosts

/-! ### Decisions -/

/-- The authorizer decides the same for every principal of the organization. -/
def SameDecisions (organizationId : Str) (t t' : IdentityTables) : Prop :=
  ∀ q : Principal, q.organizationId = organizationId → ∀ action resource environment,
    t'.authorizer.authorize q action resource environment =
      t.authorizer.authorize q action resource environment

/-- The principal is permitted the action without the binding of this id. -/
def IdentityTables.AllowsWithout (t : IdentityTables) (bindingId : Str) (principal : Principal)
    (action resource environment : Str) : Prop :=
  ∃ name, (name ∈ principal.roles ∨ ∃ row ∈ t.bindings, row.bindingId ≠ bindingId ∧
      row.binding.role = name ∧ RBACAuthorizer.Binds row.binding principal environment) ∧
    t.authorizer.Grants name action resource

/-- The role keeps what it covers; the role that goes covers nothing; what the
binding gives to principals of the organization they have already, or have
without it. -/
def HarmlessFor [PyValues F] (organizationId : Str) (t : IdentityTables) :
    ApiRequest F V T W X Y O → Prop
  | .rbacSaveRole roleName body => ∀ role, roleOfBody roleName body = .ok role →
      ∀ action resource, role.Covers action resource ↔ t.authorizer.Grants role.name action resource
  | .rbacDeleteRole roleName => ∀ action resource, ¬ t.authorizer.Grants roleName action resource
  | .rbacSaveBinding body => ∀ binding, bindingOfBody body = .ok binding →
      ∀ q : Principal, q.organizationId = organizationId → ∀ environment,
        RBACAuthorizer.Binds binding q environment → ∀ action resource,
        t.authorizer.Grants binding.role action resource → t.Allows q action resource environment
  | .rbacDeleteBinding bindingId => ∀ row ∈ t.bindings, row.bindingId = bindingId →
      ∀ q : Principal, q.organizationId = organizationId → ∀ environment,
        RBACAuthorizer.Binds row.binding q environment → ∀ action resource,
        t.authorizer.Grants row.binding.role action resource →
        t.AllowsWithout bindingId q action resource environment
  | _ => True

section

variable {t t' : IdentityTables} {organizationId : Str}

theorem sameDecisions_iff : SameDecisions organizationId t t' ↔
    ∀ q : Principal, q.organizationId = organizationId → ∀ action resource environment,
      t'.Allows q action resource environment ↔ t.Allows q action resource environment := by
  refine forall_congr' fun q => imp_congr_right fun _ => ?_
  refine forall₃_congr fun action resource environment => ?_
  rw [Bool.eq_iff_iff, IdentityTables.authorize_eq_true, IdentityTables.authorize_eq_true]

theorem SameDecisions.refl (t : IdentityTables) : SameDecisions organizationId t t :=
  fun _ _ _ _ _ => rfl

/-- A subject that no binding is for. -/
theorem exists_unbound (t : IdentityTables) :
    ∃ subject, IsClean subject ∧ ∀ row ∈ t.bindings, row.binding.subject ≠ subject := by
  obtain ⟨n, hn⟩ : ∃ n, ∀ row ∈ t.bindings, row.binding.subject.length < n := by
    induction t.bindings with
    | nil => exact ⟨0, fun _ h => absurd h List.not_mem_nil⟩
    | cons row rows ih =>
      obtain ⟨n, hn⟩ := ih
      refine ⟨max n (row.binding.subject.length + 1), fun r hr => ?_⟩
      rcases List.mem_cons.mp hr with rfl | hr
      · omega
      · have := hn r hr
        omega
  have hletters : ∀ c ∈ List.replicate (n + 1) 97, isSpace c = false := by
    intro c hc
    rw [(List.mem_replicate.mp hc).2]
    rfl
  refine ⟨List.replicate (n + 1) 97, ⟨?_, strip_of_forall hletters⟩, fun row hrow heq => ?_⟩
  · rw [isBlank, List.replicate_succ, List.all_cons]
    rfl
  · have hlength := hn row hrow
    rw [heq, List.length_replicate] at hlength
    omega

/-- A principal with one role, which no binding is for. -/
theorem exists_principal (t : IdentityTables) (horganization : IsClean organizationId) {name : Str}
    (hname : IsClean name) : ∃ q : Principal, q.organizationId = organizationId ∧
      ∀ environment other, t.authorizer.HasRole q environment other ↔ other = name := by
  obtain ⟨subject, hsubject, hunbound⟩ := exists_unbound t
  refine ⟨⟨subject, organizationId, [name], [], hsubject, horganization, ?_, ?_⟩, rfl, ?_⟩
  · intro role hrole
    rw [List.mem_singleton.mp hrole]
    exact hname
  · exact fun _ h => absurd h List.not_mem_nil
  · intro environment other
    rw [IdentityTables.hasRole_iff, List.mem_singleton]
    refine or_iff_left ?_
    rintro ⟨row, hrow, -, -, -, ⟨-, hbound⟩ | ⟨-, hgroup⟩⟩
    · exact hunbound row hrow hbound
    · exact absurd hgroup List.not_mem_nil

/-- Saving a role. -/
theorem sameDecisions_putRole {role : RoleDefinition} (horganization : IsClean organizationId) :
    SameDecisions organizationId t (t.putRole role) ↔ ∀ action resource,
      role.Covers action resource ↔ t.authorizer.Grants role.name action resource := by
  have hallows : ∀ (q : Principal) (action resource environment : Str),
      (t.putRole role).Allows q action resource environment ↔
        ∃ name, t.authorizer.HasRole q environment name ∧
          if name = role.name then role.Covers action resource
          else t.authorizer.Grants name action resource := by
    intro q action resource environment
    refine RBACAuthorizer.permitted_iff.trans (exists_congr fun name => ?_)
    rw [IdentityTables.grants_putRole]
    exact and_congr_left' (RBACAuthorizer.hasRole_congr rfl)
  rw [sameDecisions_iff]
  constructor
  · intro hsame action resource
    obtain ⟨q, hq, hroles⟩ := exists_principal t horganization role.name_clean
    have hdecided := hsame q hq action resource (lit "*")
    rw [hallows, show t.Allows q action resource (lit "*") ↔ _ from
      RBACAuthorizer.permitted_iff] at hdecided
    simpa only [hroles, exists_eq_left, if_true] using hdecided
  · intro hkept q _ action resource environment
    rw [hallows]
    refine Iff.trans (exists_congr fun name => and_congr_right fun _ => ?_)
      RBACAuthorizer.permitted_iff.symm
    split
    · next hname =>
      rw [hname]
      exact hkept action resource
    · exact Iff.rfl

/-- Deleting a role. -/
theorem sameDecisions_removeRole {name : Str} (horganization : IsClean organizationId) :
    SameDecisions organizationId t (t.removeRole name) ↔
      ∀ action resource, ¬ t.authorizer.Grants name action resource := by
  have hallows : ∀ (q : Principal) (action resource environment : Str),
      (t.removeRole name).Allows q action resource environment ↔
        ∃ other, other ≠ name ∧ t.authorizer.HasRole q environment other ∧
          t.authorizer.Grants other action resource := by
    intro q action resource environment
    refine RBACAuthorizer.permitted_iff.trans (exists_congr fun other => ?_)
    rw [IdentityTables.grants_removeRole]
    constructor
    · rintro ⟨hrole, hne, hgrants⟩
      exact ⟨hne, (IdentityTables.hasRole_removeRole hne).mp hrole, hgrants⟩
    · rintro ⟨hne, hrole, hgrants⟩
      exact ⟨(IdentityTables.hasRole_removeRole hne).mpr hrole, hne, hgrants⟩
  rw [sameDecisions_iff]
  constructor
  · intro hsame action resource hgrants
    have hname : IsClean name := by
      obtain ⟨role, hrole, -⟩ := hgrants
      have hfound : rowAt RoleDefinition.name name t.roles = some role := hrole
      have hdefined : role.name = name := key_of_rowAt hfound
      exact hdefined ▸ role.name_clean
    -- a principal of the organization that has this role and no other
    obtain ⟨q, hq, hroles⟩ := exists_principal t horganization hname
    have hbefore : t.Allows q action resource (lit "*") :=
      RBACAuthorizer.permitted_iff.mpr ⟨name, (hroles _ name).mpr rfl, hgrants⟩
    obtain ⟨other, hne, hrole, -⟩ :=
      (hallows q action resource (lit "*")).mp ((hsame q hq _ _ _).mpr hbefore)
    exact hne ((hroles _ other).mp hrole)
  · intro hnothing q _ action resource environment
    rw [hallows]
    refine Iff.trans ?_ RBACAuthorizer.permitted_iff.symm
    constructor
    · rintro ⟨other, -, hrole, hgrants⟩
      exact ⟨other, hrole, hgrants⟩
    · rintro ⟨other, hrole, hgrants⟩
      refine ⟨other, ?_, hrole, hgrants⟩
      rintro rfl
      exact hnothing action resource hgrants

/-- Saving a binding. -/
theorem sameDecisions_addBinding {row : BindingRow}
    {hid : rowAt BindingRow.bindingId row.bindingId t.bindings = none}
    {hrole : row.binding.role ∈ t.roles.map RoleDefinition.name} :
    SameDecisions organizationId t (t.addBinding row hid hrole) ↔
      ∀ q : Principal, q.organizationId = organizationId → ∀ environment,
        RBACAuthorizer.Binds row.binding q environment → ∀ action resource,
        t.authorizer.Grants row.binding.role action resource →
        t.Allows q action resource environment := by
  have hallows : ∀ (q : Principal) (action resource environment : Str),
      (t.addBinding row hid hrole).Allows q action resource environment ↔
        t.Allows q action resource environment ∨
          (RBACAuthorizer.Binds row.binding q environment ∧
            t.authorizer.Grants row.binding.role action resource) := by
    intro q action resource environment
    have hbefore : t.Allows q action resource environment ↔ _ := RBACAuthorizer.permitted_iff
    rw [hbefore]
    refine RBACAuthorizer.permitted_iff.trans ?_
    constructor
    · rintro ⟨name, hname, hgrants⟩
      rcases IdentityTables.hasRole_addBinding.mp hname with hname | ⟨rfl, hbinds⟩
      · exact .inl ⟨name, hname, hgrants⟩
      · exact .inr ⟨hbinds, hgrants⟩
    · rintro (⟨name, hname, hgrants⟩ | ⟨hbinds, hgrants⟩)
      · exact ⟨name, IdentityTables.hasRole_addBinding.mpr (.inl hname), hgrants⟩
      · exact ⟨_, IdentityTables.hasRole_addBinding.mpr (.inr ⟨rfl, hbinds⟩), hgrants⟩
  rw [sameDecisions_iff]
  constructor
  · intro hsame q hq environment hbinds action resource hgrants
    exact (hsame q hq action resource environment).mp
      ((hallows q action resource environment).mpr (.inr ⟨hbinds, hgrants⟩))
  · intro hgiven q hq action resource environment
    rw [hallows]
    exact or_iff_left_of_imp fun h => hgiven q hq environment h.1 action resource h.2

theorem allowsWithout_iff {bindingId : Str} {q : Principal} {action resource environment : Str} :
    t.AllowsWithout bindingId q action resource environment ↔
      (t.removeBinding bindingId).Allows q action resource environment := by
  show _ ↔ (t.removeBinding bindingId).authorizer.Permitted q action resource environment
  rw [RBACAuthorizer.permitted_iff]
  refine exists_congr fun name => and_congr_left fun _ => ?_
  rw [IdentityTables.hasRole_iff]
  refine or_congr_right (exists_congr fun row => ?_)
  show _ ↔ row ∈ t.bindings.filter (fun row => row.bindingId ≠ bindingId) ∧ _
  rw [List.mem_filter, decide_eq_true_iff, and_assoc]

/-- Deleting a binding. -/
theorem sameDecisions_removeBinding {bindingId : Str} :
    SameDecisions organizationId t (t.removeBinding bindingId) ↔
      ∀ row ∈ t.bindings, row.bindingId = bindingId →
      ∀ q : Principal, q.organizationId = organizationId → ∀ environment,
        RBACAuthorizer.Binds row.binding q environment → ∀ action resource,
        t.authorizer.Grants row.binding.role action resource →
        t.AllowsWithout bindingId q action resource environment := by
  rw [sameDecisions_iff]
  constructor
  · intro hsame row hrow hid q hq environment hbinds action resource hgrants
    rw [allowsWithout_iff, hsame q hq]
    exact RBACAuthorizer.permitted_iff.mpr ⟨row.binding.role,
      IdentityTables.hasRole_iff.mpr (.inr ⟨row, hrow, rfl, hbinds⟩), hgrants⟩
  · intro hgiven q hq action resource environment
    constructor
    · intro hafter
      obtain ⟨name, hname, hgrants⟩ := RBACAuthorizer.permitted_iff.mp hafter
      exact RBACAuthorizer.permitted_iff.mpr
        ⟨name, IdentityTables.hasRole_removeBinding.mpr (.inl hname), hgrants⟩
    · intro hbefore
      obtain ⟨name, hname, hgrants⟩ := RBACAuthorizer.permitted_iff.mp hbefore
      rcases IdentityTables.hasRole_removeBinding.mp hname with
        hname | ⟨row, hrow, hid, rfl, hbinds⟩
      · exact RBACAuthorizer.permitted_iff.mpr ⟨name, hname, hgrants⟩
      · exact allowsWithout_iff.mp (hgiven row hrow hid q hq environment hbinds action resource
          hgrants)

end

/-! ### Runs -/

/-- The organization finds everything as it was. -/
structure SameFor (organizationId : Str) (w w' : ApiWorld F V T W X Y O) : Prop where
  decisions : SameDecisions organizationId w.identity w'.identity
  policies : w'.service.store.tables.tenant organizationId =
    w.service.store.tables.tenant organizationId
  records : w'.roi.tenant organizationId = w.roi.tenant organizationId

section

variable [LE Y] [PyValues F] [PyDecimalFloat F] {api : ControlPlaneApi F V T W X Y O}
  {moment : Moment} {principal : Principal} {request : ApiRequest F V T W X Y O}
  {w v w' : ApiWorld F V T W X Y O} {organizationId other : Str}

omit [LE Y] [PyValues F] [PyDecimalFloat F] in
theorem SameFor.refl (w : ApiWorld F V T W X Y O) : SameFor organizationId w w :=
  ⟨.refl _, rfl, rfl⟩

omit [LE Y] [PyValues F] [PyDecimalFloat F] in
theorem SameFor.trans (h : SameFor organizationId w v) (h' : SameFor organizationId v w') :
    SameFor organizationId w w' where
  decisions q hq action resource environment :=
    (h'.decisions q hq action resource environment).trans
      (h.decisions q hq action resource environment)
  policies := h'.policies.trans h.policies
  records := h'.records.trans h.records

omit [LE Y] [PyValues F] [PyDecimalFloat F] in
theorem SameFor.symm (h : SameFor organizationId w v) : SameFor organizationId v w where
  decisions q hq action resource environment :=
    (h.decisions q hq action resource environment).symm
  policies := h.policies.symm
  records := h.records.symm

omit [PyDecimalFloat F] in
/-- A request of one organization leaves another as it was exactly when it is
harmless. -/
theorem sameFor_iff (hother : IsClean other) (hne : principal.organizationId ≠ other)
    (h : ApiEffect api moment principal request w w') :
    SameFor other w w' ↔ HarmlessFor other w.identity request := by
  have hdecides : ∀ {t : IdentityTables} {P : Prop}, (SameDecisions other w.identity t ↔ P) →
      (SameFor other w { w with identity := t } ↔ P) := by
    intro t P hiff
    rw [← hiff]
    exact ⟨SameFor.decisions, fun hsame => ⟨hsame, rfl, rfl⟩⟩
  -- a request that is about nothing else is harmless
  have hquiet : ¬ request.EditsRoles → SameFor other w w' →
      (SameFor other w w' ↔ HarmlessFor other w.identity request) := by
    intro hedits hsame
    refine iff_of_true hsame ?_
    cases request with
    | rbacSaveRole => exact absurd trivial hedits
    | rbacDeleteRole => exact absurd trivial hedits
    | rbacSaveBinding => exact absurd trivial hedits
    | rbacDeleteBinding => exact absurd trivial hedits
    | _ => exact trivial
  cases h with
  | reads _ hedits => exact hquiet hedits (.refl w)
  | policies _ hedits hwritten => exact hquiet hedits ⟨.refl _, hwritten.tenant hne, rfl⟩
  | ledger hedits hwritten => exact hquiet hedits ⟨.refl _, rfl, hwritten.tenant hne⟩
  | elsewhere => exact hquiet id ⟨.refl _, rfl, rfl⟩
  | @saveRole roleName body _ role hrole =>
    refine (hdecides (sameDecisions_putRole hother)).trans ?_
    refine ⟨fun hkept role' hrole' => ?_, fun hkept => hkept role hrole⟩
    rw [hrole] at hrole'
    cases hrole'
    exact hkept
  | deleteRole => exact hdecides (sameDecisions_removeRole hother)
  | @saveBinding body _ binding hid hrole hbinding =>
    refine (hdecides sameDecisions_addBinding).trans ?_
    refine ⟨fun hgiven binding' hbinding' => ?_, fun hgiven => hgiven binding hbinding⟩
    rw [hbinding] at hbinding'
    cases hbinding'
    exact hgiven
  | deleteBinding => exact hdecides sameDecisions_removeBinding

/-- Requests that principals of the organization make and the routes accept,
one after the other; each with the world it found, the last one first. -/
inductive ApiRun (api : ControlPlaneApi F V T W X Y O) (organizationId : Str)
    (w : ApiWorld F V T W X Y O) :
    List (ApiRequest F V T W X Y O × ApiWorld F V T W X Y O) → ApiWorld F V T W X Y O → Prop
  | start : ApiRun api organizationId w [] w
  | request {steps v v' moment principal request} : ApiRun api organizationId w steps v →
      principal.organizationId = organizationId →
      api.handle moment principal request v = (.ok (), v') →
      ApiRun api organizationId w ((request, v) :: steps) v'

/-- Throughout a run of one organization another finds everything as it was,
exactly when each request is harmless where it is made. -/
theorem tenants_isolated_iff (hother : IsClean other) (hne : organizationId ≠ other)
    {steps : List (ApiRequest F V T W X Y O × ApiWorld F V T W X Y O)}
    (h : ApiRun api organizationId w steps w') :
    (SameFor other w w' ∧ ∀ step ∈ steps, SameFor other w step.2) ↔
      ∀ step ∈ steps, HarmlessFor other step.2.identity step.1 := by
  induction h with
  | start => exact ⟨fun _ _ h => absurd h List.not_mem_nil,
      fun _ => ⟨.refl w, fun _ h => absurd h List.not_mem_nil⟩⟩
  | @request steps v v' moment principal request _ horganization haccepted ih =>
    have hstep : SameFor other v v' ↔ HarmlessFor other v.identity request :=
      sameFor_iff hother (horganization ▸ hne) (ControlPlaneApi.effect_of_handle haccepted)
    rw [List.forall_mem_cons, List.forall_mem_cons, ← hstep, ← ih]
    constructor
    · rintro ⟨hafter, hbefore, hearlier⟩
      exact ⟨hbefore.symm.trans hafter, hbefore, hearlier⟩
    · rintro ⟨hsame, hbefore, hearlier⟩
      exact ⟨hbefore.trans hsame, hbefore, hearlier⟩

end

/-! ### A role that another organization uses -/

/-- Alice's organization creates an opportunity. -/
theorem tenants_isolated_opportunity :
    SameFor (lit "b") newApiWorld (afterCreate "alice") := by
  have hrun : ApiRun sampleApi (lit "a") newApiWorld [(createAs "alice", newApiWorld)]
      (afterCreate "alice") :=
    .request .start rfl (createAs_accepted "alice" (by decide +kernel))
  refine ((tenants_isolated_iff (by decide) (by decide) hrun).mpr fun step hstep => ?_).1
  rw [List.mem_singleton.mp hstep]
  trivial

/-- A principal of another organization, whose token carries a role. -/
def bob : Principal where
  subject := lit "bob"
  organizationId := lit "b"
  roles := [lit "reader"]
  groups := []
  subject_clean := by decide
  organizationId_clean := by decide
  roles_clean := by decide
  groups_clean := clean_none

/-- `reader` may do anything from now on. -/
def openReader : ApiRequest SmallFloat Str Str Unit Str Str Unit :=
  .rbacSaveRole (lit "reader") [(lit "permissions", .arr [.str (lit "*")])]

def afterOpenReader : ApiWorld SmallFloat Str Str Unit Str Str Unit :=
  (sampleApi.handle sampleMoment alice openReader newApiWorld).2

theorem tenants_not_isolated :
    ApiRun sampleApi (lit "a") newApiWorld [(openReader, newApiWorld)] afterOpenReader ∧
      newApiWorld.identity.authorizer.authorize bob (lit "tool.execute") (lit "pay") (lit "prod") =
        false ∧
      afterOpenReader.identity.authorizer.authorize bob (lit "tool.execute") (lit "pay")
        (lit "prod") = true := by
  have haccepted : sampleApi.handle sampleMoment alice openReader newApiWorld =
      (.ok (), afterOpenReader) := by
    obtain ⟨⟨⟩, w, hw⟩ := PyM.exists_of_isOk
      (show (sampleApi.handle sampleMoment alice openReader newApiWorld).1.isOk = true by
        decide +kernel)
    rw [hw, afterOpenReader, hw]
  exact ⟨.request .start rfl haccepted, by decide +kernel, by decide +kernel⟩

end AgentRoi
