/-
`RBACAuthorizer` where calls are executed and approvals decided.

Both enforcement points know the organization of the resource; the authorizer
decides by the principal's own organization, its roles and the environment.

* `RBACAuthorizer.access`, `RBACAuthorizer.requirement` — the authorizer as a
  context and as a broker ask it;
* `ContextConfig.Governed`, `ApprovalSystem.Governed` — they are asked there;
* `Starts`, `StoresDecision` — a step starts a handler, or stores a decision;
* `callTool_refused`, `decide_refused` — without a permission, whatever the
  organization, nothing is started or decided;
* `ContextConfig.starts_of_permitted`, `ApprovalBroker.stores_of_permitted` —
  with a permission it may be, whatever the organization;
* `organization_scope_iff` — so a principal of another organization is kept out
  exactly if its roles carry no permission.
-/
import AgentRoi.ApprovalBroker
import AgentRoi.Identity
import AgentRoi.Interference
import AgentRoi.ToolRuns

namespace AgentRoi

open ContextState ApprovalState

variable {F W C J α β : Type}

/-! ### Steps of a program -/

namespace Proc

variable {σ ε γ : Type} {found : ℕ → σ} {P : σ → σ → Prop} {n : ℕ}

theorem takes_step_iff {x : σ → Except ε α × σ} {f : α → Proc σ ε β} :
    Takes P found n (atomic x >>= f) ↔ P (found n) (x (found n)).2 ∨
      ∃ a, (x (found n)).1 = .ok a ∧ Takes P found (n + 1) (f a) := by
  refine ⟨?_, takes_step⟩
  rintro (h | h)
  · exact .inl h
  · refine .inr ?_
    have h : Takes P found (n + 1) ((Proc.done (x (found n)).1).bind f) := h
    rcases hx : (x (found n)).1 with e | a
    · rw [hx] at h
      exact h.elim
    · rw [hx] at h
      exact ⟨a, rfl, h⟩

/-- A program raises when what follows its first step does. -/
theorem amid_raises_step {x : σ → Except ε α × σ} {f : α → Proc σ ε β}
    (h : ∀ a, (x (found n)).1 = .ok a → ((f a).amid found (n + 1)).1.isOk = false) :
    ((atomic x >>= f).amid found n).1.isOk = false := by
  rw [amid_step]
  rcases hx : (x (found n)).1 with e | a
  · rfl
  · exact h a hx

/-- A first step that raises is the only one. -/
theorem takes_of_raises {x : σ → Except ε α × σ} {f : α → Proc σ ε β}
    (hx : (x (found n)).1.isOk = false) (h : Takes P found n (atomic x >>= f)) :
    P (found n) (x (found n)).2 := by
  rcases takes_step_iff.mp h with h | ⟨a, ha, -⟩
  · exact h
  · rw [ha] at hx
    cases hx

end Proc

/-! ### The authorizer, as it is asked -/

namespace RBACAuthorizer

variable (auth : RBACAuthorizer)

/-- `str(context.get("environment", "*"))`, of a context whose environment is a
string. -/
def environmentOf (context : PyDict F) : Str :=
  match dictGet (lit "environment") context with
  | some (.str environment) => environment
  | _ => lit "*"

/-- `authorize(principal, "tool.execute", tool_name, context=context)`. -/
def access (principal : Principal) (toolName : Str) (context : PyDict F) : PyM W Bool :=
  return auth.authorize principal (lit "tool.execute") toolName (environmentOf context)

/-- `require(principal, action, resource, context={"environment": …})`. -/
def requirement : Authorizer W Principal := fun principal action resource environment =>
  .ofExcept (auth.require principal action resource environment)

end RBACAuthorizer

/-- The context executes for the principal what the authorizer allows. -/
structure ContextConfig.Governed (cfg : ContextConfig F W C J) (auth : RBACAuthorizer)
    (principal : Principal) : Prop where
  authorizer : cfg.authorizer = some (auth.access principal)
  principal : cfg.principal = some ⟨.str principal.subject, principal.subject⟩

/-- The brokers decide for a principal what the authorizer allows. -/
structure ApprovalSystem.Governed (sys : ApprovalSystem W Principal) (auth : RBACAuthorizer) :
    Prop where
  authorizer : ∀ i, (sys.config i).authorizer = some auth.requirement
  subject : ∀ principal, sys.subject principal = principal.subject

/-! ### Execution -/

/-- The step starts a handler. -/
def Starts (s t : ContextState F W C J) : Prop :=
  ∃ i handler args kwargs, t.trace = (i, .invoked handler args kwargs) :: s.trace

namespace ContextConfig

variable {cfg : ContextConfig F W C J} {auth : RBACAuthorizer} {principal : Principal} {i : ℕ}

/-- What the authorizer answers to a context. -/
theorem authorizeAccess_eq (hgoverned : cfg.Governed auth principal) (toolName : Str)
    (spec : Option (ToolSpec F W C)) (s : ContextState F W C J) :
    cfg.authorizeAccess i toolName spec s =
      cfg.decideAccess i toolName spec
        (auth.authorize principal (lit "tool.execute") toolName cfg.environment)
        (note i (.authorizerAnswered
          (auth.authorize principal (lit "tool.execute") toolName cfg.environment)) s) := by
  rw [authorizeAccess, hgoverned.authorizer, hgoverned.principal]
  rfl

theorem decideAccess_refused (toolName : Str) (spec : Option (ToolSpec F W C))
    (s : ContextState F W C J) : (cfg.decideAccess i toolName spec false s).1.isOk = false := by
  rw [decideAccess, PyM.bind_apply]
  split
  · rw [if_neg Bool.false_ne_true, PyM.bind_apply]
    split <;> rfl
  · rfl

variable [PyFloat F] [DecidableEq C]

/-- Without a permission the tool is not requested. -/
theorem requestTool_refused (hgoverned : cfg.Governed auth principal) {call : ToolCall F C}
    (hdenied : auth.authorize principal (lit "tool.execute") call.toolName cfg.environment = false)
    (asyncMode : Bool) (s : ContextState F W C J) :
    (cfg.requestTool i call asyncMode s).1.isOk = false := by
  rcases hrun : cfg.requestTool i call asyncMode s with ⟨e | request, t⟩
  · rfl
  · rw [requestTool] at hrun
    obtain ⟨_, s₁, -, hrun⟩ := PyM.bind_eq_ok.mp hrun
    obtain ⟨_, -, hrun⟩ := PyM.ofExcept_bind_eq_ok.mp hrun
    obtain ⟨tool, -, hrun⟩ := PyM.ofExcept_bind_eq_ok.mp hrun
    obtain ⟨_, s₂, haccess, -⟩ := PyM.bind_eq_ok.mp hrun
    rw [authorizeAccess_eq hgoverned, hdenied] at haccess
    have hrefused : (cfg.decideAccess i call.toolName tool.spec false
        (note i (.authorizerAnswered false) s₁)).1.isOk = false := decideAccess_refused _ _ _
    rw [haccess] at hrefused
    cases hrefused

/-- The first step of a call starts no handler. -/
theorem not_starts_prepareCall (call : ToolCall F C) (asyncMode : Bool)
    (hrefused : ∀ s, (cfg.requestTool i call asyncMode s).1.isOk = false)
    (s : ContextState F W C J) : (cfg.prepareCall i call asyncMode s).1.isOk = false ∧
      ¬Starts s (cfg.prepareCall i call asyncMode s).2 := by
  rcases hrun : cfg.requestTool i call asyncMode s with ⟨e | request, t⟩
  · obtain ⟨events, hnotes, before, rfl, hbefore, -⟩ := logs_requestTool call asyncMode s
    have hprepare : cfg.prepareCall i call asyncMode s = (.error e, t) := by
      rw [prepareCall, PyM.bind_of_error hrun]
    rw [hprepare]
    rw [hrun] at hnotes
    refine ⟨rfl, ?_⟩
    rintro ⟨j, handler, args, kwargs, hstart⟩
    rw [hnotes.trace] at hstart
    -- the newest event is the call, or one that precedes a request
    cases before with
    | nil => cases hstart
    | cons x before =>
      have hx := hbefore x List.mem_cons_self
      rw [List.cons_append, List.map_cons, List.cons_append, List.cons.injEq] at hstart
      obtain rfl := congrArg Prod.snd hstart.1
      exact hx
  · have hok := hrefused s
    rw [hrun] at hok
    cases hok

/-- Without a permission no handler is started, whatever else runs beside the
call. -/
theorem callTool_refused (hgoverned : cfg.Governed auth principal) {call : ToolCall F C}
    (hdenied : auth.authorize principal (lit "tool.execute") call.toolName cfg.environment = false)
    (found : ℕ → ContextState F W C J) :
    ¬Proc.Takes Starts found 0 (cfg.callTool i call) ∧
      ¬Proc.Takes Starts found 0 (cfg.acallTool i call) := by
  have hstep : ∀ asyncMode s, (cfg.prepareCall i call asyncMode s).1.isOk = false ∧
      ¬Starts s (cfg.prepareCall i call asyncMode s).2 := fun asyncMode =>
    not_starts_prepareCall call asyncMode (requestTool_refused hgoverned hdenied asyncMode)
  exact ⟨fun h => (hstep false (found 0)).2 (Proc.takes_of_raises (hstep false (found 0)).1 h),
    fun h => (hstep true (found 0)).2 (Proc.takes_of_raises (hstep true (found 0)).1 h)⟩

/-! A permission suffices where nothing else is in the way. -/

/-- The context for a principal, in an organization and an environment, with
neither guardrails nor tools of its own. -/
def unguarded (cfg : ContextConfig F W C J) (auth : RBACAuthorizer) (principal : Principal)
    (organizationId environment : Str) : ContextConfig F W C J :=
  { cfg with
    guardrails := none
    toolRegistry := none
    auditEmitter := none
    principal := some ⟨.str principal.subject, principal.subject⟩
    authorizer := some (auth.access principal)
    organizationId := organizationId
    environment := environment }

/-- `ctx.call_tool(tool_name, fn)`. -/
def legacyCall (toolName : Str) (fn : C) : ToolCall F C := ⟨toolName, .callable fn, [], [], none⟩

variable {organizationId environment toolName : Str} {fn : C}

omit [PyFloat F] [DecidableEq C] in
theorem unguarded_governed (cfg : ContextConfig F W C J) :
    (cfg.unguarded auth principal organizationId environment).Governed auth principal := ⟨rfl, rfl⟩

omit [DecidableEq C] in
/-- A call without arguments has a digest. -/
theorem argumentsDigest_nil (cfg : ContextConfig F W C J) :
    ∃ d, cfg.argumentsDigest [] [] = .ok d := ⟨_, rfl⟩

/-- The call is prepared. -/
theorem prepareCall_unguarded (cfg : ContextConfig F W C J)
    (hallowed : auth.authorize principal (lit "tool.execute") toolName environment = true)
    (s : ContextState F W C J) :
    ∃ eventBase, ((cfg.unguarded auth principal organizationId environment).prepareCall i
      (legacyCall toolName fn) (cfg.callables.isCoroutineFunction fn) s).1 =
        .ok ⟨⟨fn, [], none⟩, 0, eventBase⟩ := by
  generalize hasync : cfg.callables.isCoroutineFunction fn = asyncMode
  -- the checks of a tool that is not registered, in the order they are made
  have hmode : (cfg.unguarded auth principal organizationId environment).checkMode toolName
      ⟨fn, [], none⟩ asyncMode = .ok () := by
    show checkMode cfg toolName ⟨fn, [], none⟩ asyncMode = .ok ()
    subst hasync
    simp [checkMode]
  have haccess : ∀ s, (cfg.unguarded auth principal organizationId environment).authorizeAccess i
      toolName none s = (.ok (), note i (.authorizerAnswered true) s) := by
    intro s
    rw [authorizeAccess_eq (unguarded_governed cfg)]
    show decideAccess _ i toolName none (auth.authorize principal (lit "tool.execute") toolName
      environment) (note i (.authorizerAnswered (auth.authorize principal (lit "tool.execute")
      toolName environment)) s) = _
    rw [hallowed]
    rfl
  obtain ⟨base, hbase⟩ : ∃ base, (cfg.unguarded auth principal organizationId environment).eventBase
      toolName ⟨fn, [], none⟩ [] 0 none = .ok base := by
    obtain ⟨d, hd⟩ := argumentsDigest_nil (cfg.unguarded auth principal organizationId environment)
    rw [eventBase, hd]
    exact ⟨_, rfl⟩
  -- nothing of the request raises
  have hrequest : (cfg.unguarded auth principal organizationId environment).requestTool i
      (legacyCall toolName fn) asyncMode s = (.ok (⟨⟨fn, [], none⟩, 0, base⟩, none),
        note i (.authorizerAnswered true) (note i (.called (legacyCall toolName fn)) s)) := by
    have hcalled : (PyM.modify (note i (.called (legacyCall toolName fn))) :
        PyM (ContextState F W C J) Unit) s = (.ok (), note i (.called (legacyCall toolName fn)) s) :=
      rfl
    have hmode' : ∀ s, (PyM.ofExcept ((cfg.unguarded auth principal organizationId
        environment).checkMode toolName ⟨fn, [], none⟩ asyncMode) :
        PyM (ContextState F W C J) Unit) s = (.ok (), s) := by
      intro s
      rw [PyM.ofExcept_apply, hmode]
    have hbase' : ∀ s, (PyM.ofExcept ((cfg.unguarded auth principal organizationId
        environment).eventBase toolName ⟨fn, [], none⟩ [] 0 none) :
        PyM (ContextState F W C J) (PyDict F)) s = (.ok base, s) := by
      intro s
      rw [PyM.ofExcept_apply, hbase]
    have hcost : ∀ s, (estimatedCost i ⟨fn, [], none⟩ [] none :
        PyM (ContextState F W C J) ℚ) s = (.ok 0, s) := fun s => rfl
    have hcheckpoint : ∀ s, (cfg.unguarded auth principal organizationId environment).checkpointOf
        toolName ⟨fn, [], none⟩ [] 0 s = (.ok none, s) := fun s => rfl
    rw [requestTool, PyM.bind_of_ok hcalled]
    refine (PyM.bind_of_ok (haccess _)).trans ((PyM.bind_of_ok (hmode' _)).trans ?_)
    refine (PyM.bind_of_ok (hcost _)).trans ((PyM.bind_of_ok (hcheckpoint _)).trans ?_)
    exact PyM.bind_of_ok (hbase' _)
  refine ⟨base, ?_⟩
  rw [prepareCall, PyM.bind_of_ok hrequest]
  rfl

/-- A handler is started, in whatever organization. -/
theorem starts_of_permitted (cfg : ContextConfig F W C J)
    (hallowed : auth.authorize principal (lit "tool.execute") toolName environment = true)
    (found : ℕ → ContextState F W C J) :
    Proc.Takes Starts found 0 ((cfg.unguarded auth principal organizationId environment).callTool i
        (legacyCall toolName fn)) ∨
      Proc.Takes Starts found 0 ((cfg.unguarded auth principal organizationId environment).acallTool
        i (legacyCall toolName fn)) := by
  obtain ⟨base, hprepared⟩ : ∃ base, ((cfg.unguarded auth principal organizationId
      environment).prepareCall i (legacyCall toolName fn) (cfg.callables.isCoroutineFunction fn)
      (found 0)).1 = .ok ⟨⟨fn, [], none⟩, 0, base⟩ := prepareCall_unguarded cfg hallowed (found 0)
  -- the third step of the call notes that the handler runs
  have hinvoked : Starts (found 2) (note i (.invoked fn [] []) (found 2)) := ⟨i, fn, [], [], rfl⟩
  cases hasync : cfg.callables.isCoroutineFunction fn with
  | false =>
    rw [hasync] at hprepared
    refine .inl (Proc.takes_step (.inr ⟨_, hprepared, ?_⟩))
    refine Proc.takes_step (.inr ⟨_, rfl, ?_⟩)
    exact Proc.takes_bind _ (Proc.takes_attempt (Proc.takes_bind _ (.inl hinvoked)))
  | true =>
    rw [hasync] at hprepared
    refine .inr (Proc.takes_step (.inr ⟨_, hprepared, ?_⟩))
    refine Proc.takes_step (.inr ⟨_, rfl, ?_⟩)
    exact Proc.takes_bind _ (Proc.takes_attempt (.inl hinvoked))

end ContextConfig

/-! ### Approval -/

namespace ApprovalState

variable {P : Type}

/-- The record is in a broker's memory or in the repository. -/
def HasRecord (s : ApprovalState W P) (record : ApprovalRecord) : Prop :=
  (∃ i id, (s.brokers i).records id = some record) ∨
    ∃ id, s.repository.records id = some record

/-- The grant is in a broker's memory or in the repository. -/
def HasGrant (s : ApprovalState W P) (grant : ApprovalGrant) : Prop :=
  (∃ i id, (s.brokers i).grants id = some grant) ∨
    (∃ i digest, (s.brokers i).approvedActions digest = some grant) ∨
    ∃ digest row, s.repository.grants digest = some row ∧ row.grant = grant

end ApprovalState

/-- The step stores the record of a decision, or a grant. -/
def StoresDecision {P : Type} (s t : ApprovalState W P) : Prop :=
  (∃ record : ApprovalRecord, (record.status = .approved ∨ record.status = .denied) ∧
      t.HasRecord record ∧ ¬s.HasRecord record) ∨
    ∃ grant, t.HasGrant grant ∧ ¬s.HasGrant grant

/-- The step keeps what is stored, but for records without a decision. -/
theorem not_storesDecision {P : Type} {s t : ApprovalState W P}
    (hrecords : ∀ record : ApprovalRecord, record.status = .approved ∨ record.status = .denied →
      t.HasRecord record → s.HasRecord record)
    (hgrants : ∀ grant, t.HasGrant grant → s.HasGrant grant) : ¬StoresDecision s t := by
  rintro (⟨record, hstatus, ht, hs⟩ | ⟨grant, ht, hs⟩)
  · exact hs (hrecords record hstatus ht)
  · exact hs (hgrants grant ht)

namespace ApprovalBroker

section

variable {P : Type} {sys : ApprovalSystem W P} {i : ℕ} {checkpointId : Str}
  {s t : ApprovalState W P}

/-- The record `decide` finds. -/
def onRecord (sys : ApprovalSystem W P) (i : ℕ) (checkpointId : Str) (s : ApprovalState W P) :
    Option ApprovalRecord :=
  match (s.brokers i).records checkpointId, sys.repository with
  | some record, _ => some record
  | none, none => none
  | none, some _ => s.repository.records checkpointId

/-- A step outside stores nothing. -/
theorem not_stores_of_same (hbrokers : t.brokers = s.brokers)
    (hrepository : t.repository = s.repository) : ¬StoresDecision s t := by
  refine not_storesDecision (fun record _ h => ?_) fun grant h => ?_
  · rwa [HasRecord, hbrokers, hrepository] at h
  · rwa [HasGrant, hbrokers, hrepository] at h

/-- A transaction that reads a record. -/
theorem transact_getRecord (sys : ApprovalSystem W P) (checkpointId : Str)
    (s : ApprovalState W P) :
    ∃ w, transact sys (ApprovalRepository.getRecord checkpointId) s =
        (.ok (s.repository.records checkpointId), { s with outside := w }) ∨
      ∃ e, transact sys (ApprovalRepository.getRecord checkpointId) s =
        (.error e, { s with outside := w }) := by
  rcases hdatabase : sys.database s.outside with ⟨e | _, w⟩
  · refine ⟨w, .inr ⟨e, ?_⟩⟩
    have heq : ApprovalState.onOutside sys.database s = (.error e, { s with outside := w }) := by
      rw [ApprovalState.onOutside, PyM.on, hdatabase]
    rw [transact, PyM.bind_of_error heq]
  · refine ⟨w, .inl ?_⟩
    have heq : ApprovalState.onOutside sys.database s = (.ok (), { s with outside := w }) := by
      rw [ApprovalState.onOutside, PyM.on, hdatabase]
    rw [transact, PyM.bind_of_ok heq]
    rfl

/-- A record of the repository that is kept in memory as well. -/
theorem not_stores_putRecord {record : ApprovalRecord} (hrecord : s.HasRecord record)
    (hbrokers : t.brokers =
      Function.update s.brokers i ((s.brokers i).putRecord checkpointId record))
    (hrepository : t.repository = s.repository) : ¬StoresDecision s t := by
  have hsame : ∀ j, (t.brokers j).grants = (s.brokers j).grants ∧
      (t.brokers j).approvedActions = (s.brokers j).approvedActions := by
    intro j
    rw [hbrokers]
    by_cases hj : j = i
    · subst hj
      rw [Function.update_self]
      exact ⟨rfl, rfl⟩
    · rw [Function.update_of_ne hj]
      exact ⟨rfl, rfl⟩
  refine not_storesDecision (fun other _ h => ?_) fun grant h => ?_
  · rcases h with ⟨j, id, h⟩ | ⟨id, h⟩
    · rw [hbrokers] at h
      by_cases hj : j = i
      · subst hj
        rw [Function.update_self] at h
        by_cases hid : id = checkpointId
        · subst hid
          rw [BrokerMemory.putRecord] at h
          simp only [Function.update_self, Option.some.injEq] at h
          rwa [← h]
        · rw [BrokerMemory.putRecord] at h
          simp only [Function.update_of_ne hid] at h
          exact .inl ⟨j, id, h⟩
      · rw [Function.update_of_ne hj] at h
        exact .inl ⟨j, id, h⟩
    · rw [hrepository] at h
      exact .inr ⟨id, h⟩
  · rcases h with ⟨j, id, h⟩ | ⟨j, digest, h⟩ | h
    · exact .inl ⟨j, id, (hsame j).1 ▸ h⟩
    · exact .inr (.inl ⟨j, digest, (hsame j).2 ▸ h⟩)
    · rw [hrepository] at h
      exact .inr (.inr h)

/-- `decide` begins with the record it finds, and stores no decision yet. -/
theorem beginDecide_spec (sys : ApprovalSystem W P) (i : ℕ) (checkpointId : Str)
    (s : ApprovalState W P) :
    ¬StoresDecision s (beginDecide sys i checkpointId s).2 ∧
      ∀ current, (beginDecide sys i checkpointId s).1 = .ok current →
        onRecord sys i checkpointId s = some current := by
  have hcurrent : ¬StoresDecision s (currentRecord sys i checkpointId s).2 ∧
      ∀ current, (currentRecord sys i checkpointId s).1 = .ok current →
        onRecord sys i checkpointId s = some current := by
    rw [currentRecord, PyM.get_bind, PyM.bind_apply, PyM.modify_apply, onRecord]
    rcases hmemory : (s.brokers i).records checkpointId with _ | record
    · rcases hkind : sys.repository with _ | kind
      · exact ⟨not_stores_of_same rfl rfl, fun _ h => by cases h⟩
      · obtain ⟨w, hread | ⟨e, hread⟩⟩ := transact_getRecord sys checkpointId (log i
          (.decideBegan checkpointId none (s.repository.records checkpointId)) s)
        · simp only [PyM.bind_of_ok hread]
          rcases hrecord : s.repository.records checkpointId with _ | record
          · simp only [log, hrecord]
            exact ⟨not_stores_of_same rfl rfl, fun _ h => by cases h⟩
          · simp only [log, hrecord]
            refine ⟨not_stores_putRecord (.inr ⟨checkpointId, hrecord⟩) rfl rfl, fun _ h => ?_⟩
            exact congrArg some (Except.ok.inj h)
        · simp only [PyM.bind_of_error hread]
          exact ⟨not_stores_of_same rfl rfl, fun _ h => by cases h⟩
    · exact ⟨not_stores_of_same rfl rfl, fun _ h => congrArg some (Except.ok.inj h)⟩
  rcases hrun : currentRecord sys i checkpointId s with ⟨e | record, t⟩
  · rw [hrun] at hcurrent
    rw [beginDecide, PyM.bind_of_error hrun]
    exact ⟨hcurrent.1, fun _ h => by cases h⟩
  · rw [hrun] at hcurrent
    rw [beginDecide, PyM.bind_of_ok hrun, PyM.ofExcept_apply]
    refine ⟨hcurrent.1, fun current h => ?_⟩
    rw [requirePending] at h
    split_ifs at h
    obtain rfl := Except.ok.inj h
    exact hcurrent.2 _ rfl

/-- Saving a record leaves the memories alone, and writes the one row or none. -/
theorem storeRecord_cases (sys : ApprovalSystem W P) (i : ℕ) (record : ApprovalRecord)
    (s : ApprovalState W P) :
    (storeRecord sys i record s).2.brokers = s.brokers ∧
      ((storeRecord sys i record s).2.repository = s.repository ∨
        (storeRecord sys i record s).2.repository =
          ApprovalRepository.putRecord s.repository record) := by
  rw [storeRecord, store]
  rcases sys.repository with _ | kind
  · exact ⟨rfl, .inl rfl⟩
  · rcases hdatabase : sys.database s.outside with ⟨e | _, w⟩
    · have hwrite : transact sys (ApprovalRepository.saveRecord record) s =
          (.error e, { s with outside := w }) := by
        have heq : ApprovalState.onOutside sys.database s = (.error e, { s with outside := w }) := by
          rw [ApprovalState.onOutside, PyM.on, hdatabase]
        rw [transact, PyM.bind_of_error heq]
      have hreported : reporting i (transact sys (ApprovalRepository.saveRecord record)) s =
          (.error e, log i (.failed e) { s with outside := w }) := by
        rw [reporting, PyM.tryExcept_of_error hwrite]
        rfl
      simp only [PyM.bind_of_error hreported]
      exact ⟨rfl, .inl rfl⟩
    · have hwrite : transact sys (ApprovalRepository.saveRecord record) s = (.ok (),
          { s with outside := w, repository := ApprovalRepository.putRecord s.repository record }) := by
        have heq : ApprovalState.onOutside sys.database s = (.ok (), { s with outside := w }) := by
          rw [ApprovalState.onOutside, PyM.on, hdatabase]
        rw [transact, PyM.bind_of_ok heq]
        rfl
      have hreported : reporting i (transact sys (ApprovalRepository.saveRecord record)) s = (.ok (),
          { s with outside := w, repository := ApprovalRepository.putRecord s.repository record }) := by
        rw [reporting, PyM.tryExcept_of_ok hwrite]
      simp only [PyM.bind_of_ok hreported]
      exact ⟨rfl, .inr rfl⟩

/-- The record of a request that ran out is no decision. -/
theorem not_stores_expired (current : ApprovalRecord) (nowMs : Int) (s : ApprovalState W P) :
    ¬StoresDecision s (settleRecord sys i checkpointId (expiredRecord current nowMs) s).2 := by
  have hexpired : ∀ request : ApprovalRequest, ¬(({ expiredRecord current nowMs with request }
      : ApprovalRecord).status = .approved ∨
      ({ expiredRecord current nowMs with request } : ApprovalRecord).status = .denied) := by
    rintro request (h | h) <;> cases h
  rw [settleRecord, PyM.get_bind, PyM.bind_apply, PyM.modify_apply]
  obtain ⟨hbrokers, hrepository⟩ := storeRecord_cases sys i (expiredRecord current nowMs)
    (setMemory i ((s.brokers i).putRecord checkpointId (expiredRecord current nowMs)) s)
  show ¬StoresDecision s (storeRecord sys i (expiredRecord current nowMs) (setMemory i
    ((s.brokers i).putRecord checkpointId (expiredRecord current nowMs)) s)).2
  generalize (storeRecord sys i (expiredRecord current nowMs) (setMemory i
    ((s.brokers i).putRecord checkpointId (expiredRecord current nowMs)) s)).2 = t
    at hbrokers hrepository ⊢
  -- the record is put into the memory of the broker
  have hmemory : ∀ j, t.brokers j = if j = i then
      (s.brokers i).putRecord checkpointId (expiredRecord current nowMs) else s.brokers j := by
    intro j
    rw [hbrokers]
    exact Function.update_apply s.brokers i _ j
  refine not_storesDecision (fun record hstatus h => ?_) fun grant h => ?_
  · rcases h with ⟨j, id, h⟩ | ⟨id, h⟩
    · rw [hmemory j] at h
      split_ifs at h with hj
      · by_cases hid : id = checkpointId
        · subst hid
          rw [BrokerMemory.putRecord] at h
          simp only [Function.update_self, Option.some.injEq] at h
          rw [← h] at hstatus
          exact absurd hstatus (hexpired current.request)
        · rw [BrokerMemory.putRecord] at h
          simp only [Function.update_of_ne hid] at h
          exact .inl ⟨i, id, h⟩
      · exact .inl ⟨j, id, h⟩
    · -- and into the repository, unless that raises
      rcases hrepository with hrepository | hrepository
      · rw [hrepository] at h
        exact .inr ⟨id, h⟩
      · rw [hrepository, ApprovalRepository.putRecord] at h
        by_cases hid : id = (expiredRecord current nowMs).request.checkpointId
        · subst hid
          simp only [Function.update_self, Option.some.injEq] at h
          rw [← h] at hstatus
          exact absurd hstatus (hexpired _)
        · simp only [Function.update_of_ne hid] at h
          exact .inr ⟨id, h⟩
  · -- no grant and no approved action is touched
    have hgrants : ∀ j, (t.brokers j).grants = (s.brokers j).grants ∧
        (t.brokers j).approvedActions = (s.brokers j).approvedActions := by
      intro j
      rw [hmemory j]
      split_ifs with hj
      · subst hj
        exact ⟨rfl, rfl⟩
      · exact ⟨rfl, rfl⟩
    have hstored : t.repository.grants = s.repository.grants := by
      rcases hrepository with hrepository | hrepository <;> rw [hrepository] <;> rfl
    rcases h with ⟨j, id, h⟩ | ⟨j, digest, h⟩ | ⟨digest, row, h, hrow⟩
    · exact .inl ⟨j, id, (hgrants j).1 ▸ h⟩
    · exact .inr (.inl ⟨j, digest, (hgrants j).2 ▸ h⟩)
    · exact .inr (.inr ⟨digest, row, hstored ▸ h, hrow⟩)

/-- Telling the provider stores nothing. -/
theorem not_stores_updateProvider (record : ApprovalRecord) (s : ApprovalState W P) :
    ¬StoresDecision s (updateProvider sys i record s).2 := by
  rcases hupdate : ApprovalState.onOutside ((sys.config i).provider.update record) s with
    ⟨e | u, t⟩
  · have hsame : t.brokers = s.brokers ∧ t.repository = s.repository := by
      rw [ApprovalState.onOutside, PyM.on] at hupdate
      obtain rfl := congrArg Prod.snd hupdate
      exact ⟨rfl, rfl⟩
    rw [updateProvider, reporting, PyM.tryExcept_of_error hupdate]
    exact not_stores_of_same hsame.1 hsame.2
  · obtain ⟨w, -, rfl⟩ := PyM.on_eq_ok.mp hupdate
    rw [updateProvider, reporting, PyM.tryExcept_of_ok hupdate]
    exact not_stores_of_same rfl rfl

end

/-! A permission is required. -/

variable {sys : ApprovalSystem W Principal} {auth : RBACAuthorizer} {principal : Principal}
  {i : ℕ} {checkpointId : Str}

theorem authorize_refused (hgoverned : sys.Governed auth) {request : ApprovalRequest}
    (hdenied : auth.authorize principal (lit "approval.decide") request.toolName
      request.environment = false) (s : ApprovalState W Principal) :
    (authorize sys i principal request s).1.isOk = false ∧
      ¬StoresDecision s (authorize sys i principal request s).2 := by
  have hrequire : ApprovalState.onOutside (auth.requirement principal
      (lit "approval.decide") request.toolName
      request.environment) s = (auth.require principal (lit "approval.decide") request.toolName
        request.environment, s) := rfl
  have herror : auth.require principal (lit "approval.decide") request.toolName
      request.environment = .error (authorizationError (lit "Principal '" ++ principal.subject ++
        lit "' is not authorized for " ++ lit "approval.decide" ++ lit " on " ++
        if request.toolName = [] then lit "*" else request.toolName)) := by
    rw [RBACAuthorizer.require, hdenied]
    rfl
  rw [herror] at hrequire
  rw [authorize, hgoverned.authorizer i]
  simp only [PyM.bind_of_error hrequire]
  exact ⟨rfl, not_stores_of_same rfl rfl⟩

/-- Without a permission `decide` raises and stores no decision, whatever else
runs beside it. -/
theorem decide_refused (hgoverned : sys.Governed auth) {found : ℕ → ApprovalState W Principal}
    {record : ApprovalRecord} (hrecord : onRecord sys i checkpointId (found 0) = some record)
    (hdenied : auth.authorize principal (lit "approval.decide") record.request.toolName
      record.request.environment = false) (approved : Bool) (reason : Str)
    (ttlSeconds : Option Int) :
    ((decide sys i checkpointId approved principal reason ttlSeconds).amid found 0).1.isOk =
        false ∧
      ¬Proc.Takes StoresDecision found 0
        (decide sys i checkpointId approved principal reason ttlSeconds) := by
  obtain ⟨hbegin, hcurrent⟩ := beginDecide_spec sys i checkpointId (found 0)
  obtain ⟨hrefused, hauthorize⟩ := authorize_refused (i := i) hgoverned hdenied (found 2)
  constructor
  · refine Proc.amid_raises_step fun current hfirst => ?_
    have hsame := hcurrent current hfirst
    rw [hrecord, Option.some.injEq] at hsame
    subst hsame
    refine Proc.amid_raises_step fun nowMs _ => ?_
    split_ifs with hexpired
    · exact Proc.amid_raises_step fun _ _ => Proc.amid_raises_step fun _ _ => rfl
    · refine Proc.amid_raises_step fun _ hcheck => ?_
      rw [hcheck] at hrefused
      cases hrefused
  · intro h
    rcases Proc.takes_step_iff.mp h with h | ⟨current, hfirst, h⟩
    · exact hbegin h
    have hsame := hcurrent current hfirst
    rw [hrecord, Option.some.injEq] at hsame
    subst hsame
    rcases Proc.takes_step_iff.mp h with h | ⟨nowMs, -, h⟩
    · exact not_stores_of_same rfl rfl h
    split_ifs at h with hexpired
    · rcases Proc.takes_step_iff.mp h with h | ⟨_, -, h⟩
      · exact not_stores_expired _ _ _ h
      rcases Proc.takes_step_iff.mp h with h | ⟨_, -, h⟩
      · exact not_stores_updateProvider _ _ h
      · exact h
    · exact hauthorize (Proc.takes_of_raises hrefused h)

/-! A permission suffices where nothing else is in the way. -/

/-- The brokers with that authorizer, and without a repository. -/
def governedBy (sys : ApprovalSystem W Principal) (auth : RBACAuthorizer) :
    ApprovalSystem W Principal :=
  { sys with
    config := fun i => { sys.config i with authorizer := some auth.requirement }
    repository := none
    subject := Principal.subject }

/-- A request of an organization that waits for a decision. -/
def waiting (organizationId environment toolName : Str) : ApprovalRecord where
  request := {
    requestId := []
    checkpointId := []
    actionDigest := []
    organizationId := organizationId
    environment := environment
    agentId := []
    correlationId := []
    runId := []
    toolName := toolName
    toolVersion := []
    risk := []
    estimatedCostUsd := 0
    argumentsDigest := []
    policyDigest := []
    createdAtEpochMs := 0
    expiresAtEpochMs := 0
    requestedBy := []
    summary := []
    argumentCount := 0
    keywordNames := [] }
  status := .pending
  externalId := []
  decidedBy := []
  reason := []
  decidedAtEpochMs := 0

/-- The request, refused. -/
def refused (organizationId environment toolName decidedBy : Str) : ApprovalRecord :=
  { waiting organizationId environment toolName with
    status := .denied
    decidedBy := decidedBy }

/-- Brokers that remember nothing but the request. -/
def onlyWaiting (s : ApprovalState W Principal) (record : ApprovalRecord) :
    ApprovalState W Principal :=
  { s with
    nowMs := 0
    repository := .empty
    brokers := fun _ => ⟨fun _ => some record, fun _ => none, fun _ => none⟩ }

theorem governedBy_governed (sys : ApprovalSystem W Principal) :
    (governedBy sys auth).Governed auth := ⟨fun _ => rfl, fun _ => rfl⟩

/-- A decision is stored, in whatever organization. -/
theorem stores_of_permitted (sys : ApprovalSystem W Principal) {toolName environment : Str}
    (hallowed : auth.authorize principal (lit "approval.decide") toolName environment = true)
    (organizationId : Str) (s : ApprovalState W Principal) :
    Proc.Takes StoresDecision
      (fun _ => onlyWaiting s (waiting organizationId environment toolName)) 0
      (decide (governedBy sys auth) i checkpointId false principal [] none) := by
  have hrequire : auth.require principal (lit "approval.decide") toolName environment = .ok () :=
    RBACAuthorizer.require_eq_ok.mpr hallowed
  have hsubject : strip principal.subject ≠ [] := by
    rw [Ne, strip_eq_nil_iff, principal.subject_clean.1]
    exact Bool.false_ne_true
  refine Proc.takes_step (.inr ⟨waiting organizationId environment toolName, rfl, ?_⟩)
  refine Proc.takes_step (.inr ⟨0, rfl, ?_⟩)
  rw [if_neg (show ¬(waiting organizationId environment toolName).request.expiresAtEpochMs < 0 from
    lt_irrefl (0 : Int))]
  refine Proc.takes_step (.inr ⟨(), ?_, ?_⟩)
  · have hpassed : ApprovalState.onOutside (auth.requirement principal (lit "approval.decide") toolName
        environment) (onlyWaiting s (waiting organizationId environment toolName)) =
          (.ok (), onlyWaiting s (waiting organizationId environment toolName)) := by
      rw [ApprovalState.onOutside, PyM.on, RBACAuthorizer.requirement, PyM.ofExcept_apply, hrequire]
    exact congrArg Prod.fst (PyM.bind_of_ok hpassed)
  · -- the record of the refusal is in no memory yet
    have hdecision : decisionRecord (waiting organizationId environment toolName) false
        ((governedBy sys auth).subject principal) [] 0 =
          .ok (refused organizationId environment toolName (strip principal.subject)) := by
      refine (if_neg hsubject).trans ?_
      exact if_neg fun h => h.1 rfl
    rw [hdecision]
    refine Proc.takes_step (.inl (.inl
      ⟨refused organizationId environment toolName (strip principal.subject), .inr rfl,
        .inl ⟨i, checkpointId, ?_⟩, ?_⟩))
    · rw [settleRecord, PyM.get_bind, PyM.bind_apply, PyM.modify_apply]
      obtain ⟨hbrokers, -⟩ := storeRecord_cases (governedBy sys auth) i
        (refused organizationId environment toolName (strip principal.subject))
        (setMemory i (((onlyWaiting s (waiting organizationId environment toolName)).brokers
          i).putRecord checkpointId
            (refused organizationId environment toolName (strip principal.subject)))
          (onlyWaiting s (waiting organizationId environment toolName)))
      rw [hbrokers]
      simp only [setMemory, BrokerMemory.putRecord, Function.update_self]
    · rintro (⟨j, id, h⟩ | ⟨id, h⟩) <;> cases h

end ApprovalBroker

/-! ### Both enforcement points -/

/-- For any principal, so for one of another organization than the resource's:
no call of the tool in a context of the organization starts a handler, exactly
if no role of the principal in that environment permits to execute the tool;
and `decide` on a request of the organization raises and stores no decision,
exactly if none permits to decide.  The organizations play no part. -/
theorem organization_scope_iff [PyFloat F] [DecidableEq C] {V : Type} [Nonempty C]
    [Nonempty (ContextConfig F W C J)] [Nonempty (ContextState F W C J)]
    [Nonempty (ApprovalSystem V Principal)] [Nonempty (ApprovalState V Principal)]
    (auth : RBACAuthorizer) (hdeny : auth.defaultDeny = true) (principal : Principal)
    (organizationId toolName environment : Str) :
    ((∀ cfg : ContextConfig F W C J, cfg.Governed auth principal →
        cfg.organizationId = organizationId → cfg.environment = environment →
        ∀ (i : ℕ) (call : ToolCall F C), call.toolName = toolName → ∀ found,
          ¬Proc.Takes Starts found 0 (cfg.callTool i call) ∧
            ¬Proc.Takes Starts found 0 (cfg.acallTool i call)) ↔
      ¬auth.Permitted principal (lit "tool.execute") toolName environment) ∧
    ((∀ sys : ApprovalSystem V Principal, sys.Governed auth →
        ∀ (i : ℕ) (checkpointId : Str) (approved : Bool) (reason : Str) (ttlSeconds : Option Int)
          (found : ℕ → ApprovalState V Principal) (record : ApprovalRecord),
          ApprovalBroker.onRecord sys i checkpointId (found 0) = some record →
          record.request.organizationId = organizationId → record.request.toolName = toolName →
          record.request.environment = environment →
          ((ApprovalBroker.decide sys i checkpointId approved principal reason ttlSeconds).amid
              found 0).1.isOk = false ∧
            ¬Proc.Takes StoresDecision found 0
              (ApprovalBroker.decide sys i checkpointId approved principal reason ttlSeconds)) ↔
      ¬auth.Permitted principal (lit "approval.decide") toolName environment) := by
  obtain ⟨fn⟩ := ‹Nonempty C›
  obtain ⟨cfg⟩ := ‹Nonempty (ContextConfig F W C J)›
  obtain ⟨s⟩ := ‹Nonempty (ContextState F W C J)›
  obtain ⟨sys⟩ := ‹Nonempty (ApprovalSystem V Principal)›
  obtain ⟨t⟩ := ‹Nonempty (ApprovalState V Principal)›
  have hiff : ∀ action, auth.authorize principal action toolName environment = true ↔
      auth.Permitted principal action toolName environment := by
    intro action
    rw [RBACAuthorizer.authorize_iff, hdeny]
    exact or_iff_left (by decide)
  have hdenied : ∀ action, ¬auth.Permitted principal action toolName environment →
      auth.authorize principal action toolName environment = false := fun action h =>
    Bool.eq_false_iff.mpr fun hallowed => h ((hiff action).mp hallowed)
  refine ⟨⟨fun h hpermitted => ?_, fun hnone cfg hgoverned _ henv i call hname found => ?_⟩,
    fun h hpermitted => ?_, fun hnone sys hgoverned i checkpointId approved reason ttlSeconds found
      record hrecord _ hname henv => ?_⟩
  · -- nothing else stands between a call without guards and its handler
    obtain ⟨hsync, hasync⟩ := h (cfg.unguarded auth principal organizationId environment)
      (ContextConfig.unguarded_governed cfg) rfl rfl 0 (ContextConfig.legacyCall toolName fn) rfl
      fun _ => s
    exact (cfg.starts_of_permitted ((hiff _).mpr hpermitted) fun _ => s).elim hsync hasync
  · -- the context asks before anything else of the call
    refine ContextConfig.callTool_refused hgoverned ?_ found
    rw [hname, henv]
    exact hdenied _ hnone
  · -- a waiting request of the organization is decided
    exact (h (ApprovalBroker.governedBy sys auth) (ApprovalBroker.governedBy_governed sys) 0 [] false
      [] none (fun _ => ApprovalBroker.onlyWaiting t
        (ApprovalBroker.waiting organizationId environment toolName)) _ rfl rfl rfl rfl).2
      (ApprovalBroker.stores_of_permitted sys ((hiff _).mpr hpermitted) organizationId t)
  · refine ApprovalBroker.decide_refused hgoverned hrecord ?_ approved reason ttlSeconds
    rw [hname, henv]
    exact hdenied _ hnone

/-! A user of another organization. -/

theorem clean_mallory : IsClean (lit "mallory") := by decide

theorem clean_elsewhere : IsClean (lit "elsewhere") := by decide

/-- A principal of the organization `elsewhere`. -/
def foreigner (roles : List Str) (hroles : ∀ role ∈ roles, IsClean role) : Principal where
  subject := lit "mallory"
  organizationId := lit "elsewhere"
  roles := roles
  groups := []
  subject_clean := clean_mallory
  organizationId_clean := clean_elsewhere
  roles_clean := hroles
  groups_clean := fun _ h => absurd h List.not_mem_nil

theorem agentOwner_clean : IsClean (lit "agent_owner") := by decide

theorem approver_clean : IsClean (lit "approver") := by decide

theorem agentOwner_permissions : ∀ permission ∈
    [lit "agent.read", lit "agent.execute", lit "tool.execute:*", lit "roi.*"],
    IsClean permission := by decide

theorem approver_permissions : ∀ permission ∈
    [lit "approval.read", lit "approval.decide", lit "audit.read"], IsClean permission := by
  decide

/-- Two of the roles of `enterprise_defaults`. -/
def defaultRoles : List RoleDefinition := [
  ⟨lit "agent_owner", [lit "agent.read", lit "agent.execute", lit "tool.execute:*", lit "roi.*"],
    [], agentOwner_clean, agentOwner_permissions⟩,
  ⟨lit "approver", [lit "approval.read", lit "approval.decide", lit "audit.read"], [],
    approver_clean, approver_permissions⟩]

theorem defaultRoles_distinct : (defaultRoles.map RoleDefinition.name).Nodup := by decide

def defaultAuthorizer : RBACAuthorizer :=
  ⟨defaultRoles, [], true, defaultRoles_distinct, fun _ h => absurd h List.not_mem_nil⟩

theorem ownerRoles_clean : ∀ role ∈ [lit "agent_owner", lit "approver"], IsClean role := by decide

/-- An owner and approver of the other organization. -/
def foreignOwner : Principal := foreigner [lit "agent_owner", lit "approver"] ownerRoles_clean

/-- Somebody of the other organization without a role. -/
def foreignGuest : Principal := foreigner [] fun _ h => absurd h List.not_mem_nil

/-- A broker whose approvals are kept nowhere else. -/
def bareApprovals : ApprovalSystem Unit Principal :=
  ⟨fun _ => ⟨⟨fun _ => pure [], fun _ => pure ()⟩, [], [], [], [], none⟩, none, pure (), pure [],
    Principal.subject⟩

def noApprovals : ApprovalState Unit Principal := ⟨0, (), .empty, fun _ => .empty, []⟩

theorem organization_scope_guest :
    foreignGuest.organizationId ≠ lit "o" ∧
      ¬Proc.Takes Starts (fun _ => newContextState) 0
        ((payContext.unguarded defaultAuthorizer foreignGuest (lit "o") (lit "e")).callTool 0
          (ContextConfig.legacyCall (lit "pay") true)) ∧
      ¬Proc.Takes Starts (fun _ => newContextState) 0
        ((payContext.unguarded defaultAuthorizer foreignGuest (lit "o") (lit "e")).acallTool 0
          (ContextConfig.legacyCall (lit "pay") true)) := by
  have : Nonempty (ContextConfig Half Unit Bool Unit) := ⟨payContext⟩
  have : Nonempty (ContextState Half Unit Bool Unit) := ⟨newContextState⟩
  have : Nonempty (ApprovalSystem Unit Principal) := ⟨bareApprovals⟩
  have : Nonempty (ApprovalState Unit Principal) := ⟨noApprovals⟩
  refine ⟨by decide, (organization_scope_iff defaultAuthorizer rfl foreignGuest (lit "o")
    (lit "pay") (lit "e") (V := Unit)).1.mpr ?_ _
    (ContextConfig.unguarded_governed payContext) rfl rfl 0 _ rfl _⟩
  rintro ⟨name, definition, permission, hname | ⟨binding, hbinding, -⟩, -⟩
  · cases hname
  · cases hbinding

/-- The owner of the other organization starts a handler in an organization it
is not of, and decides there. -/
theorem organization_scope_counterexample :
    foreignOwner.organizationId ≠ lit "o" ∧
      (∃ cfg : ContextConfig Half Unit Bool Unit, cfg.Governed defaultAuthorizer foreignOwner ∧
        cfg.organizationId = lit "o" ∧
        (Proc.Takes Starts (fun _ => newContextState) 0
            (cfg.callTool 0 (ContextConfig.legacyCall (lit "pay") true)) ∨
          Proc.Takes Starts (fun _ => newContextState) 0
            (cfg.acallTool 0 (ContextConfig.legacyCall (lit "pay") true)))) ∧
      ∃ (sys : ApprovalSystem Unit Principal) (found : ℕ → ApprovalState Unit Principal)
        (record : ApprovalRecord), sys.Governed defaultAuthorizer ∧
        ApprovalBroker.onRecord sys 0 [] (found 0) = some record ∧
        record.request.organizationId = lit "o" ∧
        Proc.Takes StoresDecision found 0
          (ApprovalBroker.decide sys 0 [] false foreignOwner [] none) := by
  have hexecute : defaultAuthorizer.authorize foreignOwner (lit "tool.execute") (lit "pay")
      (lit "e") = true := by decide +kernel
  have hdecide : defaultAuthorizer.authorize foreignOwner (lit "approval.decide") (lit "pay")
      (lit "e") = true := by decide +kernel
  refine ⟨by decide, ⟨payContext.unguarded defaultAuthorizer foreignOwner (lit "o") (lit "e"),
    ContextConfig.unguarded_governed payContext, rfl,
    payContext.starts_of_permitted hexecute fun _ => newContextState⟩, ?_⟩
  exact ⟨ApprovalBroker.governedBy bareApprovals defaultAuthorizer,
    fun _ => ApprovalBroker.onlyWaiting noApprovals
      (ApprovalBroker.waiting (lit "o") (lit "e") (lit "pay")),
    ApprovalBroker.waiting (lit "o") (lit "e") (lit "pay"),
    ApprovalBroker.governedBy_governed _, rfl, rfl,
    ApprovalBroker.stores_of_permitted _ hdecide _ _⟩

end AgentRoi
