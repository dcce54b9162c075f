/-
What one step of an approval broker can do.

* `Effect` — the steps of `__call__`, `decide` and `consume_grant`: what
  becomes of the broker's memory, of the repository and of the trace, and
  what must have held before;
* `follows_perform` — every step of every operation is one of them, whatever
  the other brokers do in between.

An operation knows what it did since it began from its own events: no other
broker logs under its index.
-/
import AgentRoi.ApprovalBroker

namespace AgentRoi

namespace ApprovalBroker

open ApprovalState EventTrace

variable {W P : Type}

/-- The memory after grants were forgotten. -/
structure Pruned (m m' : BrokerMemory) : Prop where
  records : m'.records = m.records
  grants : ∀ c g, m'.grants c = some g → m.grants c = some g
  approvedActions : ∀ d g, m'.approvedActions d = some g → m.approvedActions d = some g

/-- `grant` is the replay of `approvedAction` for the checkpoint. -/
def Replays (checkpoint : Checkpoint) (approvedAction grant : ApprovalGrant) : Prop :=
  ApprovalGrant.create checkpoint.actionDigest approvedAction.approvedBy
    (min approvedAction.expiresAtEpochMs checkpoint.expiresAtEpochMs)
    (some checkpoint.checkpointId) approvedAction.reason = .ok grant

/-- What `__call__` logs of what it finds. -/
def calledEvent (i : ℕ) (s : ApprovalState W P) (checkpoint : Checkpoint) : BrokerEvent P :=
  .called checkpoint ((s.brokers i).grants checkpoint.checkpointId)
    ((s.brokers i).approvedActions checkpoint.actionDigest)
    (s.repository.grants checkpoint.actionDigest) s.nowMs

/-- The events that open the part of an operation that works on a record. -/
def isOpening : BrokerEvent P → Bool
  | .lookedUp _ _ | .decideBegan _ _ _ => true
  | _ => false

/-- A write to the repository: there is none, it was written, or it failed. -/
inductive Written (sys : ApprovalSystem W P) (before after : ApprovalRepository)
    (event : BrokerEvent P) : ApprovalRepository → List (BrokerEvent P) → Prop
  | skipped : sys.repository = none → Written sys before after event before []
  | saved : sys.repository ≠ none → Written sys before after event after [event]
  | failed (e : PyExc) : Written sys before after event before [.failed e]

/-- Where the record that `decide` works on came from. -/
def Found (cached stored : Option ApprovalRecord) (current : ApprovalRecord) : Prop :=
  cached = some current ∨ (cached = none ∧ stored = some current)

/-- What `decide` has done since it began on a pending record of the
checkpoint. -/
structure Deciding (i : ℕ) (s : ApprovalState W P) (checkpointId : Str)
    (cached stored : Option ApprovalRecord) (events : List (BrokerEvent P)) : Prop where
  own : ∃ old, own i s.trace = events ++ .decideBegan checkpointId cached stored :: old
  opening : ∀ x ∈ events, isOpening x = false
  found : ∃ current, Found cached stored current ∧ current.status = .pending

/-- `record` settles the pending record `current`. -/
structure Settles (current record : ApprovalRecord) : Prop where
  pending : current.status = .pending
  request : record.request = current.request
  externalId : record.externalId = current.externalId
  status : record.status = .approved ∨ record.status = .denied ∨ record.status = .expired

theorem Settles.not_pending {current record : ApprovalRecord} (h : Settles current record) :
    record.status ≠ .pending := by
  rcases h.status with hs | hs | hs <;> rw [hs] <;> nofun

/-- The checks that come before a grant. -/
structure Approves (sys : ApprovalSystem W P) (i : ℕ) (events : List (BrokerEvent P))
    (record : ApprovalRecord) (principal : P) : Prop where
  authorized : (sys.config i).authorizer.isSome →
    .authorized principal record.request.toolName record.request.environment ∈ events
  decidedBy : record.decidedBy = strip (sys.subject principal)
  notRequester : record.request.requestedBy = [] ∨ record.decidedBy ≠ record.request.requestedBy

/-- The steps of the broker `i` from the state `s`. -/
inductive Effect (sys : ApprovalSystem W P) (passed : Checkpoint → Prop) (i : ℕ)
    (s : ApprovalState W P) :
    BrokerMemory → ApprovalRepository → List (BrokerEvent P) → Prop
  | idle {memory : BrokerMemory} :
    Pruned (s.brokers i) memory → Effect sys passed i s memory s.repository []
  | failed (e : PyExc) : Effect sys passed i s (s.brokers i) s.repository [.failed e]
  | missed {cp : Checkpoint} {memory : BrokerMemory} : Pruned (s.brokers i) memory →
    Effect sys passed i s memory s.repository [calledEvent i s cp]
  | held {cp : Checkpoint} {grant : ApprovalGrant} : passed cp →
    (s.brokers i).grants cp.checkpointId = some grant → grant.validate cp s.nowMs = .ok () →
    Effect sys passed i s (s.brokers i) s.repository
      [.granted cp grant s.nowMs, calledEvent i s cp]
  | replayed {cp : Checkpoint} {approvedAction grant : ApprovalGrant} {memory : BrokerMemory} :
    passed cp → Pruned (s.brokers i) memory →
    (s.brokers i).approvedActions cp.actionDigest = some approvedAction →
    s.nowMs ≤ approvedAction.expiresAtEpochMs → Replays cp approvedAction grant →
    Effect sys passed i s (memory.putGrant cp.checkpointId grant) s.repository
      [.granted cp grant s.nowMs, calledEvent i s cp]
  | fetched {cp : Checkpoint} {kind : RepositoryKind} {row : StoredGrant}
    {grant : ApprovalGrant} : passed cp → sys.repository = some kind →
    s.repository.grants cp.actionDigest = some row → (kind = .postgres → row.consumed = false) →
    s.nowMs ≤ row.grant.expiresAtEpochMs → Replays cp row.grant grant →
    Effect sys passed i s ((s.brokers i).putGrant cp.checkpointId grant) s.repository
      [.granted cp grant s.nowMs]
  | lookedUp {checkpointId : Str} {memory : BrokerMemory} :
    memory = s.brokers i ∨ (∃ record, s.repository.records checkpointId = some record ∧
      memory = (s.brokers i).putRecord checkpointId record) →
    (s.brokers i).records checkpointId = none →
    Effect sys passed i s memory s.repository
      [.lookedUp checkpointId (s.repository.records checkpointId)]
  | submitted {cp : Checkpoint} {record : ApprovalRecord} : passed cp →
    record.request.checkpointId = cp.checkpointId →
    record.request.actionDigest = cp.actionDigest →
    record.request.expiresAtEpochMs = cp.expiresAtEpochMs → record.status = .pending →
    (s.brokers i).records cp.checkpointId = none →
    Effect sys passed i s ((s.brokers i).putRecord cp.checkpointId record) s.repository []
  | requested {record : ApprovalRecord} {repo : ApprovalRepository}
    {events : List (BrokerEvent P)} :
    (sys.repository ≠ none →
      ∃ old, own i s.trace = .lookedUp record.request.checkpointId none :: old) →
    record.status = .pending →
    Written sys s.repository (s.repository.putRecord record) (.savedRecord record) repo events →
    Effect sys passed i s (s.brokers i) repo events
  | began {checkpointId : Str} {memory : BrokerMemory} :
    memory = s.brokers i ∨ ((s.brokers i).records checkpointId = none ∧
      ∃ record, s.repository.records checkpointId = some record ∧
        memory = (s.brokers i).putRecord checkpointId record) →
    Effect sys passed i s memory s.repository [.decideBegan checkpointId
      ((s.brokers i).records checkpointId) (s.repository.records checkpointId)]
  | authorized (principal : P) (toolName environment : Str) :
    Effect sys passed i s (s.brokers i) s.repository [.authorized principal toolName environment]
  | settled {checkpointId : Str} {cached stored : Option ApprovalRecord}
    {done : List (BrokerEvent P)} {current record : ApprovalRecord} {repo : ApprovalRepository}
    {events : List (BrokerEvent P)} : Deciding i s checkpointId cached stored done →
    Found cached stored current → (s.brokers i).records checkpointId = some current →
    Settles current record →
    Written sys s.repository (s.repository.putRecord record) (.savedRecord record) repo events →
    Effect sys passed i s ((s.brokers i).putRecord checkpointId record) repo events
  | minted {checkpointId : Str} {cached stored : Option ApprovalRecord}
    {done : List (BrokerEvent P)} {record : ApprovalRecord} {principal : P} {nowMs : Int}
    {ttlSeconds : Option Int} {grant : ApprovalGrant} {repo : ApprovalRepository}
    {events : List (BrokerEvent P)} : Deciding i s checkpointId cached stored done →
    (sys.repository ≠ none → .savedRecord record ∈ done) →
    (s.brokers i).records checkpointId = some record → Approves sys i done record principal →
    decisionGrant record checkpointId nowMs ttlSeconds = .ok grant →
    Written sys s.repository (s.repository.putGrant ⟨grant, false⟩) (.savedGrant grant) repo
      events →
    Effect sys passed i s (((s.brokers i).putGrant checkpointId grant).putAction grant) repo
      (events ++ [.approved record.request principal nowMs ttlSeconds])
  | decided {checkpointId : Str} {cached stored : Option ApprovalRecord}
    {done : List (BrokerEvent P)} {record : ApprovalRecord} :
    Deciding i s checkpointId cached stored done →
    (sys.repository ≠ none → .savedRecord record ∈ done) → (∀ r, .decided r ∉ done) →
    record.status ≠ .pending → Effect sys passed i s (s.brokers i) s.repository [.decided record]
  | consumed {actionDigest : Str} {row : StoredGrant} : sys.repository = some .postgres →
    s.repository.grants actionDigest = some row → row.consumed = false →
    Effect sys passed i s (s.brokers i) (s.repository.putGrant ⟨row.grant, true⟩)
      [.consumed actionDigest]

/-- A step of the broker `i`. -/
structure BrokerStep (sys : ApprovalSystem W P) (passed : Checkpoint → Prop) (i : ℕ)
    (s t : ApprovalState W P) : Prop where
  nowMs : t.nowMs = s.nowMs
  others : ∀ j, j ≠ i → t.brokers j = s.brokers j
  effect : ∃ events, t.trace = events.map (i, ·) ++ s.trace ∧
    Effect sys passed i s (t.brokers i) t.repository events

/-- What the broker `i` may rely on. -/
structure Rely (i : ℕ) (s t : ApprovalState W P) : Prop where
  memory : t.brokers i = s.brokers i
  own : own i t.trace = own i s.trace

theorem Rely.refl (i : ℕ) (s : ApprovalState W P) : Rely i s s := ⟨rfl, rfl⟩

theorem Rely.trans {i : ℕ} {s t u : ApprovalState W P} (h : Rely i s t) (h' : Rely i t u) :
    Rely i s u := ⟨h'.memory.trans h.memory, h'.own.trans h.own⟩

theorem BrokerStep.rely {sys : ApprovalSystem W P} {passed : Checkpoint → Prop} {i j : ℕ}
    {s t : ApprovalState W P} (hij : i ≠ j) (h : BrokerStep sys passed i s t) : Rely j s t := by
  obtain ⟨events, htrace, -⟩ := h.effect
  refine ⟨h.others j (Ne.symm hij), ?_⟩
  rw [htrace, own_map_append_of_ne hij]

theorem Passes.rely {s t : ApprovalState W P} (h : Passes s t) (i : ℕ) : Rely i s t := by
  cases h with
  | intro w hw => exact ⟨rfl, rfl⟩

theorem Deciding.rely {i : ℕ} {s t : ApprovalState W P} {c : Str}
    {cached stored : Option ApprovalRecord} {events : List (BrokerEvent P)}
    (h : Deciding i s c cached stored events) (hst : Rely i s t) :
    Deciding i t c cached stored events :=
  ⟨by rw [hst.own]; exact h.own, h.opening, h.found⟩

theorem Pruned.refl (m : BrokerMemory) : Pruned m m := ⟨rfl, fun _ _ h => h, fun _ _ h => h⟩

theorem Pruned.dropGrant {m m' : BrokerMemory} (h : Pruned m m') (c : Str) :
    Pruned m (m'.dropGrant c) := by
  refine ⟨h.records, fun c' g hg => ?_, h.approvedActions⟩
  change Function.update m'.grants c none c' = some g at hg
  rw [Function.update_apply] at hg
  split_ifs at hg
  exact h.grants c' g hg

theorem Pruned.dropAction {m m' : BrokerMemory} (h : Pruned m m') (d : Str) :
    Pruned m (m'.dropAction d) := by
  refine ⟨h.records, h.grants, fun d' g hg => ?_⟩
  change Function.update m'.approvedActions d none d' = some g at hg
  rw [Function.update_apply] at hg
  split_ifs at hg
  exact h.approvedActions d' g hg

section Steps

variable {sys : ApprovalSystem W P} {passed : Checkpoint → Prop} {i : ℕ}
  {s t : ApprovalState W P}

theorem step_of {memory : BrokerMemory} {events : List (BrokerEvent P)}
    (hnow : t.nowMs = s.nowMs) (hbrokers : t.brokers = Function.update s.brokers i memory)
    (htrace : t.trace = events.map (i, ·) ++ s.trace)
    (heffect : Effect sys passed i s memory t.repository events) :
    BrokerStep sys passed i s t := by
  refine ⟨hnow, fun j hj => ?_, events, htrace, ?_⟩
  · rw [hbrokers, Function.update_of_ne hj]
  · rw [hbrokers, Function.update_self]
    exact heffect

theorem step_of_same {events : List (BrokerEvent P)} (hnow : t.nowMs = s.nowMs)
    (hbrokers : t.brokers = s.brokers) (htrace : t.trace = events.map (i, ·) ++ s.trace)
    (heffect : Effect sys passed i s (s.brokers i) t.repository events) :
    BrokerStep sys passed i s t :=
  step_of hnow (by rw [hbrokers, Function.update_eq_self]) htrace heffect

theorem transact_apply {α : Type} (sys : ApprovalSystem W P) (x : PyM ApprovalRepository α)
    (s : ApprovalState W P) :
    ∃ w, transact sys x s = ((x s.repository).1,
        { s with outside := w, repository := (x s.repository).2 }) ∨
      ∃ e, transact sys x s = (.error e, { s with outside := w }) := by
  rcases hd : sys.database s.outside with ⟨e | u, w⟩
  · refine ⟨w, .inr ⟨e, ?_⟩⟩
    exact PyM.bind_of_error (by simp [onOutside, PyM.on, hd])
  · refine ⟨w, .inl ?_⟩
    have houtside : onOutside sys.database s = (.ok u, { s with outside := w }) := by
      simp [onOutside, PyM.on, hd]
    rw [transact, PyM.bind_of_ok houtside]
    rfl

/-! ### The steps of `__call__` -/

/-- A replay is a step, or part of one that logs and forgets more. -/
theorem replay_cases (i : ℕ) (cp : Checkpoint) (approvedAction : ApprovalGrant)
    (s : ApprovalState W P) :
    (∃ grant, s.nowMs ≤ approvedAction.expiresAtEpochMs ∧ Replays cp approvedAction grant ∧
      replay i cp approvedAction s = (.ok (.granted grant),
        log i (.granted cp grant s.nowMs)
          (setMemory i ((s.brokers i).putGrant cp.checkpointId grant) s))) ∨
    (∃ e, replay i cp approvedAction s = (.error e, s)) ∨
    replay i cp approvedAction s =
      (.ok .expired, setMemory i ((s.brokers i).dropAction cp.actionDigest) s) := by
  by_cases hlive : s.nowMs ≤ approvedAction.expiresAtEpochMs
  · rcases hcreate : ApprovalGrant.create cp.actionDigest approvedAction.approvedBy
      (min approvedAction.expiresAtEpochMs cp.expiresAtEpochMs) (some cp.checkpointId)
      approvedAction.reason with e | grant
    · exact .inr (.inl ⟨e, by simp [replay, hlive, hcreate, PyM.bind_apply]⟩)
    · exact .inl ⟨grant, hlive, hcreate,
        by simp [replay, hlive, hcreate, PyM.bind_apply]⟩
  · exact .inr (.inr (by simp [replay, hlive, PyM.bind_apply]))

theorem step_cachedGrant {cp : Checkpoint} (hcp : passed cp) :
    BrokerStep sys passed i s (cachedGrant i cp s).2 := by
  rcases hheld : (s.brokers i).heldGrant cp s.nowMs with _ | grant
  · rcases haction : (s.brokers i).approvedActions cp.actionDigest with _ | approvedAction
    · have hrun : (cachedGrant i cp s).2 =
          setMemory i ((s.brokers i).dropGrant cp.checkpointId) (log i (calledEvent i s cp) s) := by
        simp [cachedGrant, PyM.bind_apply, hheld, haction, calledEvent]
      rw [hrun]
      exact step_of rfl rfl rfl (.missed ((Pruned.refl _).dropGrant _))
    · set s' := setMemory i ((s.brokers i).dropGrant cp.checkpointId)
        (log i (calledEvent i s cp) s) with hs'
      have hmemory : s'.brokers i = (s.brokers i).dropGrant cp.checkpointId :=
        Function.update_self i _ _
      have hrun : (cachedGrant i cp s).2 = (replay i cp approvedAction s').2 := by
        simp [cachedGrant, PyM.bind_apply, hheld, haction, calledEvent, hs']
      rw [hrun]
      rcases replay_cases i cp approvedAction s' with ⟨grant, hlive, hreplays, h⟩ | ⟨e, h⟩ | h
      · rw [h, hmemory]
        exact step_of rfl (Function.update_idem _ _ _) rfl
          (.replayed hcp ((Pruned.refl _).dropGrant _) haction hlive hreplays)
      · rw [h]
        exact step_of rfl rfl rfl (.missed ((Pruned.refl _).dropGrant _))
      · rw [h, hmemory]
        exact step_of rfl (Function.update_idem _ _ _) rfl
          (.missed (((Pruned.refl _).dropGrant _).dropAction _))
  · have hrun : (cachedGrant i cp s).2 =
        log i (.granted cp grant s.nowMs) (log i (calledEvent i s cp) s) := by
      simp [cachedGrant, PyM.bind_apply, hheld, calledEvent]
    obtain ⟨hgrant, hvalid⟩ := Option.filter_eq_some_iff.mp hheld
    rw [hrun]
    refine step_of_same rfl rfl rfl (.held hcp hgrant ?_)
    rcases hv : grant.validate cp s.nowMs with e | u
    · rw [hv] at hvalid
      cases hvalid
    · rfl

theorem step_storedGrant {cp : Checkpoint} {kind : RepositoryKind} (hcp : passed cp)
    (hkind : sys.repository = some kind) :
    BrokerStep sys passed i s (storedGrant sys kind i cp s).2 := by
  obtain ⟨w, hok | ⟨e, herror⟩⟩ :=
    transact_apply sys (ApprovalRepository.getGrant kind cp.actionDigest s.nowMs) s
  · rcases ApprovalRepository.getGrant_cases kind cp.actionDigest s.nowMs s.repository with
      hnone | ⟨row, checkpointId, hrow, hconsumed, hsome⟩
    · rw [hnone] at hok
      have hrun : (storedGrant sys kind i cp s).2 = { s with outside := w } := by
        simp [storedGrant, PyM.bind_apply, hok]
      rw [hrun]
      exact step_of_same rfl rfl rfl (.idle (.refl _))
    · rw [hsome] at hok
      have hrun : (storedGrant sys kind i cp s).2 =
          (replay i cp { row.grant with checkpointId } { s with outside := w }).2 := by
        simp [storedGrant, PyM.bind_apply, hok]
      rw [hrun]
      rcases replay_cases i cp { row.grant with checkpointId } { s with outside := w } with
        ⟨grant, hlive, hreplays, h⟩ | ⟨e, h⟩ | h
      · rw [h]
        exact step_of rfl rfl rfl (.fetched hcp hkind hrow hconsumed hlive hreplays)
      · rw [h]
        exact step_of_same rfl rfl rfl (.idle (.refl _))
      · rw [h]
        exact step_of rfl rfl rfl (.idle ((Pruned.refl _).dropAction _))
  · have hrun : (storedGrant sys kind i cp s).2 = { s with outside := w } := by
      simp [storedGrant, PyM.bind_apply, herror]
    rw [hrun]
    exact step_of_same rfl rfl rfl (.idle (.refl _))

variable (sys passed i s) in
/-- Looking up a record; after `False` the broker has none, and the repository
had none. -/
theorem step_lookUpRecord (c : Str) :
    BrokerStep sys passed i s (lookUpRecord sys i c s).2 ∧
      ((lookUpRecord sys i c s).1 = .ok false →
        ((lookUpRecord sys i c s).2.brokers i).records c = none ∧
        (sys.repository ≠ none → ∃ old,
          own i (lookUpRecord sys i c s).2.trace = .lookedUp c none :: old)) := by
  rcases hmem : (s.brokers i).records c with _ | record
  · rcases hrepo : sys.repository with _ | kind
    · have hrun : lookUpRecord sys i c s = (.ok false, s) := by
        simp [lookUpRecord, PyM.bind_apply, hmem, hrepo]
      rw [hrun]
      exact ⟨step_of_same rfl rfl rfl (.idle (.refl _)), fun _ => ⟨hmem, fun h => absurd rfl h⟩⟩
    · set s' := log i (.lookedUp c (s.repository.records c)) s with hs'
      obtain ⟨w, hok | ⟨e, herror⟩⟩ :=
        transact_apply sys (ApprovalRepository.getRecord c) s'
      · have hget : ApprovalRepository.getRecord c s.repository =
            (.ok (s.repository.records c), s.repository) := rfl
        rcases hrow : s.repository.records c with _ | record
        · have hrun : lookUpRecord sys i c s = (.ok false, { s' with outside := w }) := by
            rw [show s'.repository = s.repository from rfl, hget, hrow] at hok
            simp [lookUpRecord, PyM.bind_apply, hmem, hrepo, ← hs', hok]
            rfl
          rw [hrun]
          refine ⟨step_of_same rfl rfl rfl (.lookedUp (.inl rfl) hmem), fun _ => ⟨hmem, fun _ => ?_⟩⟩
          exact ⟨_, by rw [← hrow]; exact own_cons_self i _ _⟩
        · have hrun : lookUpRecord sys i c s =
              (.ok true, setMemory i ((s.brokers i).putRecord c record) { s' with outside := w }) := by
            rw [show s'.repository = s.repository from rfl, hget, hrow] at hok
            simp [lookUpRecord, PyM.bind_apply, hmem, hrepo, ← hs', hok]
            rfl
          rw [hrun]
          exact ⟨step_of rfl rfl rfl (.lookedUp (.inr ⟨record, hrow, rfl⟩) hmem), nofun⟩
      · have hrun : lookUpRecord sys i c s = (.error e, { s' with outside := w }) := by
          simp [lookUpRecord, PyM.bind_apply, hmem, hrepo, ← hs', herror]
        rw [hrun]
        exact ⟨step_of_same rfl rfl rfl (.lookedUp (.inl rfl) hmem), nofun⟩
  · have hrun : lookUpRecord sys i c s = (.ok true, s) := by
      simp [lookUpRecord, PyM.bind_apply, hmem]
    rw [hrun]
    exact ⟨step_of_same rfl rfl rfl (.idle (.refl _)), nofun⟩

variable (sys) in
/-- Submitting a request leaves its pending record in memory. -/
theorem step_submitRequest {cp : Checkpoint} (toolName risk : Str) (argumentCount : Nat)
    (keywordNames : List Str) (hcp : passed cp)
    (hmem : (s.brokers i).records cp.checkpointId = none) :
    BrokerStep sys passed i s
        (submitRequest sys i cp toolName risk argumentCount keywordNames s).2 ∧
      ∀ record,
        (submitRequest sys i cp toolName risk argumentCount keywordNames s).1 = .ok record →
        record.status = .pending ∧ record.request.checkpointId = cp.checkpointId ∧
        own i (submitRequest sys i cp toolName risk argumentCount keywordNames s).2.trace =
          own i s.trace := by
  rcases hid : sys.uuid4 s.outside with ⟨e | requestId, w⟩
  · have hrun : submitRequest sys i cp toolName risk argumentCount keywordNames s =
        (.error e, { s with outside := w }) := by
      simp [submitRequest, PyM.bind_apply, onOutside, PyM.on, hid]
    rw [hrun]
    exact ⟨step_of_same rfl rfl rfl (.idle (.refl _)), by simp⟩
  · set request := ApprovalRequest.fromCheckpoint requestId cp (sys.config i).organizationId
      (sys.config i).environment (sys.config i).agentId (sys.config i).requestedBy
      (lit "Approve " ++ toolName ++ lit " (" ++ risk ++ lit " risk)") argumentCount keywordNames
      with hrequest
    rcases hsubmit : (sys.config i).provider.submit request w with ⟨e | externalId, w'⟩
    · have hrun : submitRequest sys i cp toolName risk argumentCount keywordNames s =
          (.error e, { s with outside := w' }) := by
        simp only [submitRequest, PyM.bind_apply, onOutside, PyM.on, hid, ← hrequest, hsubmit]
      rw [hrun]
      exact ⟨step_of_same rfl rfl rfl (.idle (.refl _)), by simp⟩
    · have hrun : submitRequest sys i cp toolName risk argumentCount keywordNames s =
          (.ok ⟨request, .pending, externalId, [], [], 0⟩,
            setMemory i ((s.brokers i).putRecord cp.checkpointId
              ⟨request, .pending, externalId, [], [], 0⟩) { s with outside := w' }) := by
        simp only [submitRequest, PyM.bind_apply, onOutside, PyM.on, hid, ← hrequest, hsubmit,
          PyM.get_apply, PyM.modify_apply, PyM.pure_apply]
      rw [hrun]
      refine ⟨step_of rfl rfl rfl (.submitted hcp rfl rfl rfl rfl hmem), ?_⟩
      rintro _ ⟨rfl⟩
      exact ⟨rfl, rfl, rfl⟩

variable (sys i) in
/-- A write to the repository, which is logged when it returns. -/
theorem store_cases (f : ApprovalRepository → ApprovalRepository) (event : BrokerEvent P)
    (s : ApprovalState W P) :
    ∃ w repo events, Written sys s.repository (f s.repository) event repo events ∧
      (store sys i (.modify f) event s).2 =
        ⟨s.nowMs, w, repo, s.brokers, events.map (i, ·) ++ s.trace⟩ ∧
      ((store sys i (.modify f) event s).1 = .ok () →
        (events = [] ∧ sys.repository = none) ∨ events = [event]) := by
  rcases hrepo : sys.repository with _ | kind
  · refine ⟨s.outside, s.repository, [], .skipped hrepo, ?_, fun _ => .inl ⟨rfl, rfl⟩⟩
    simp [store, hrepo]
  · have hne : sys.repository ≠ none := by simp [hrepo]
    obtain ⟨w, hok | ⟨e, herror⟩⟩ := transact_apply sys (.modify f) s
    · have hrun : store sys i (.modify f) event s =
          (.ok (), log i event { s with outside := w, repository := f s.repository }) := by
        rw [PyM.modify_apply] at hok
        simp only [store, hrepo, reporting, PyM.bind_apply, PyM.tryExcept, hok, PyM.modify_apply]
      exact ⟨w, _, _, .saved hne, by rw [hrun]; rfl, fun _ => .inr rfl⟩
    · have hrun : store sys i (.modify f) event s =
          (.error e, log i (.failed e) { s with outside := w }) := by
        simp only [store, hrepo, reporting, PyM.bind_apply, PyM.tryExcept, herror,
          PyM.modify_apply, PyM.raise_apply]
      exact ⟨w, _, _, .failed e, by rw [hrun]; rfl, by rw [hrun]; nofun⟩

theorem follows_requestApproval {cp : Checkpoint} (toolName risk : Str) (argumentCount : Nat)
    (keywordNames : List Str) (hcp : passed cp) :
    Proc.Follows (Rely i) (BrokerStep sys passed i)
      (requestApproval sys i cp toolName risk argumentCount keywordNames) s := by
  refine Proc.follows_step fun t _ => ?_
  obtain ⟨hstep, hnone⟩ := step_lookUpRecord sys passed i t cp.checkpointId
  refine ⟨hstep, fun known hknown => ?_⟩
  cases known with
  | true => exact Proc.follows_pure
  | false =>
    obtain ⟨hmem, hown⟩ := hnone hknown
    refine Proc.follows_step fun t' ht' => ?_
    -- the others left the broker's memory and its events alone
    rw [← ht'.memory] at hmem
    rw [← ht'.own] at hown
    obtain ⟨hstep', hrecord⟩ := step_submitRequest sys toolName risk argumentCount
      keywordNames hcp hmem
    refine ⟨hstep', fun record hok => ?_⟩
    obtain ⟨hpending, hid, hown'⟩ := hrecord record hok
    refine Proc.follows_step fun t'' ht'' => ?_
    rw [← hown', ← ht''.own, ← hid] at hown
    obtain ⟨w, repo, events, hwritten, heq, -⟩ := store_cases sys i (ApprovalRepository.putRecord · record) (.savedRecord record) t''
    rw [storeRecord, ApprovalRepository.saveRecord, heq]
    exact ⟨step_of_same rfl rfl rfl (.requested hown hpending hwritten),
      fun _ _ => Proc.follows_pure⟩

theorem follows_searchRepository {cp : Checkpoint} (hcp : passed cp) (cached : Lookup) :
    Proc.Follows (Rely i) (BrokerStep sys passed i) (searchRepository sys i cp cached) s := by
  unfold searchRepository
  split
  · rename_i hkind
    exact Proc.follows_atomic fun t _ => step_storedGrant hcp hkind
  · exact Proc.follows_pure

/-- The steps of `__call__`. -/
theorem follows_call {cp : Checkpoint} (toolName risk : Str) (argumentCount : Nat)
    (keywordNames : List Str) (hcp : passed cp) :
    Proc.Follows (Rely i) (BrokerStep sys passed i)
      (call sys i cp toolName risk argumentCount keywordNames) s := by
  refine Proc.follows_step fun t _ => ⟨step_cachedGrant hcp, fun cached _ => ?_⟩
  refine Proc.follows_bind (Rely.refl i) (follows_searchRepository hcp cached) fun found u => ?_
  cases found with
  | granted grant => exact Proc.follows_pure
  | expired => exact follows_requestApproval toolName risk argumentCount keywordNames hcp
  | absent => exact follows_requestApproval toolName risk argumentCount keywordNames hcp

/-! ### The steps of `decide` -/

theorem Deciding.began {c : Str} {cached stored : Option ApprovalRecord}
    {current : ApprovalRecord} {old : List (ℕ × BrokerEvent P)}
    (htrace : t.trace = (i, .decideBegan c cached stored) :: old)
    (hfound : Found cached stored current) (hpending : current.status = .pending) :
    Deciding i t c cached stored [] :=
  ⟨⟨EventTrace.own i old, by rw [htrace, own_cons_self, List.nil_append]⟩,
    fun _ hx => absurd hx List.not_mem_nil, current, hfound, hpending⟩

/-- The events of a step join those of the operation. -/
theorem Deciding.append {c : Str} {cached stored : Option ApprovalRecord}
    {done events : List (BrokerEvent P)} (h : Deciding i s c cached stored done)
    (htrace : t.trace = events.map (i, ·) ++ s.trace)
    (hevents : ∀ x ∈ events, isOpening x = false) :
    Deciding i t c cached stored (events ++ done) := by
  obtain ⟨old, hown⟩ := h.own
  refine ⟨⟨old, ?_⟩, ?_, h.found⟩
  · rw [htrace, own_map_append_self, hown, List.append_assoc]
  · intro x hx
    rcases List.mem_append.mp hx with hx | hx
    · exact hevents x hx
    · exact h.opening x hx

theorem Deciding.cons {c : Str} {cached stored : Option ApprovalRecord}
    {done : List (BrokerEvent P)} {event : BrokerEvent P}
    (h : Deciding i s c cached stored done) (htrace : t.trace = (i, event) :: s.trace)
    (hevent : isOpening event = false) : Deciding i t c cached stored (event :: done) := by
  have hone : t.trace = [event].map (i, ·) ++ s.trace := htrace
  exact h.append hone (by simp [hevent])

variable (sys passed i s) in
theorem step_currentRecord (c : Str) :
    BrokerStep sys passed i s (currentRecord sys i c s).2 ∧
      ∀ current, (currentRecord sys i c s).1 = .ok current →
        ∃ cached stored,
          (currentRecord sys i c s).2.trace = (i, .decideBegan c cached stored) :: s.trace ∧
          Found cached stored current ∧
          ((currentRecord sys i c s).2.brokers i).records c = some current := by
  rcases hmem : (s.brokers i).records c with _ | current
  · set began : BrokerEvent P := .decideBegan c none (s.repository.records c) with hbegan
    -- not in memory: only a repository can have it
    rcases hrepo : sys.repository with _ | kind
    · have hrun : currentRecord sys i c s =
          (.error (.keyError [lit "Approval checkpoint not found: " ++ c]), log i began s) := by
        simp only [currentRecord, PyM.bind_apply, PyM.get_apply, PyM.modify_apply, hmem, hrepo,
          PyM.raise_apply, hbegan]
      rw [hrun, hbegan, ← hmem]
      exact ⟨step_of_same rfl rfl rfl (.began (.inl rfl)), nofun⟩
    · obtain ⟨w, hok | ⟨e, herror⟩⟩ :=
        transact_apply sys (ApprovalRepository.getRecord c) (log i began s)
      · rw [show ApprovalRepository.getRecord c (log i began s).repository =
          (.ok (s.repository.records c), s.repository) from rfl] at hok
        rcases hrow : s.repository.records c with _ | current
        · have hrun : currentRecord sys i c s =
              (.error (.keyError [lit "Approval checkpoint not found: " ++ c]),
                log i began { s with outside := w }) := by
            rw [hrow] at hok
            simp only [currentRecord, PyM.bind_apply, PyM.get_apply, PyM.modify_apply, hmem, hrepo,
              ← hbegan, hok, PyM.raise_apply]
            rfl
          rw [hrun, hbegan, ← hmem]
          exact ⟨step_of_same rfl rfl rfl (.began (.inl rfl)), nofun⟩
        · have hrun : currentRecord sys i c s =
              (.ok current, setMemory i ((s.brokers i).putRecord c current)
                (log i began { s with outside := w })) := by
            rw [hrow] at hok
            simp only [currentRecord, PyM.bind_apply, PyM.get_apply, PyM.modify_apply, hmem, hrepo,
              ← hbegan, hok, PyM.pure_apply]
            rfl
          rw [hrun]
          constructor
          · rw [hbegan, ← hmem]
            exact step_of rfl rfl rfl (.began (.inr ⟨hmem, current, hrow, rfl⟩))
          · rintro _ ⟨rfl⟩
            refine ⟨none, some current, ?_, .inr ⟨rfl, rfl⟩, ?_⟩
            · rw [hbegan, hrow]
              rfl
            · simp [setMemory, BrokerMemory.putRecord]
      · -- the repository raises
        have hrun : currentRecord sys i c s = (.error e, log i began { s with outside := w }) := by
          simp only [currentRecord, PyM.bind_apply, PyM.get_apply, PyM.modify_apply, hmem, hrepo,
            ← hbegan, herror]
          rfl
        rw [hrun, hbegan, ← hmem]
        exact ⟨step_of_same rfl rfl rfl (.began (.inl rfl)), nofun⟩
  · -- in memory: the repository is not asked
    have hrun : currentRecord sys i c s = (.ok current,
        log i (.decideBegan c (some current) (s.repository.records c)) s) := by
      simp only [currentRecord, PyM.bind_apply, PyM.get_apply, PyM.modify_apply, hmem,
        PyM.pure_apply]
    rw [hrun]
    constructor
    · rw [← hmem]
      exact step_of_same rfl rfl rfl (.began (.inl rfl))
    · rintro _ ⟨rfl⟩
      exact ⟨some current, s.repository.records c, rfl, .inl rfl, hmem⟩

variable (sys passed i s) in
/-- The record `decide` works on is pending. -/
theorem step_beginDecide (c : Str) :
    BrokerStep sys passed i s (beginDecide sys i c s).2 ∧
      ∀ current, (beginDecide sys i c s).1 = .ok current →
        ∃ cached stored, Deciding i (beginDecide sys i c s).2 c cached stored [] ∧
          Found cached stored current ∧
          ((beginDecide sys i c s).2.brokers i).records c = some current ∧
          current.status = .pending := by
  obtain ⟨hstep, hcurrent⟩ := step_currentRecord sys passed i s c
  rcases hrun : currentRecord sys i c s with ⟨e | current, t⟩
  · have hbegin : beginDecide sys i c s = (.error e, t) := PyM.bind_of_error hrun
    rw [hrun] at hstep
    rw [hbegin]
    exact ⟨hstep, nofun⟩
  · have hbegin : beginDecide sys i c s = (requirePending current, t) := PyM.bind_of_ok hrun
    rw [hrun] at hstep hcurrent
    rw [hbegin]
    refine ⟨hstep, fun current' hok => ?_⟩
    unfold requirePending at hok
    split_ifs at hok with hpending
    obtain rfl := Except.ok.inj hok
    obtain ⟨cached, stored, htrace, hfound, hmem⟩ := hcurrent current rfl
    exact ⟨cached, stored, .began htrace hfound hpending, hfound, hmem, hpending⟩

variable (sys passed) in
theorem step_authorize {c : Str} {cached stored : Option ApprovalRecord} (principal : P)
    (request : ApprovalRequest) (hdec : Deciding i s c cached stored []) :
    BrokerStep sys passed i s (authorize sys i principal request s).2 ∧
      ((authorize sys i principal request s).1 = .ok () →
        (authorize sys i principal request s).2.brokers = s.brokers ∧
        ∃ done, Deciding i (authorize sys i principal request s).2 c cached stored done ∧
          ((sys.config i).authorizer.isSome →
            .authorized principal request.toolName request.environment ∈ done) ∧
          ∀ r, .decided r ∉ done) := by
  rcases hauth : (sys.config i).authorizer with _ | require
  · have hrun : authorize sys i principal request s = (.ok (), s) := by
      simp [authorize, hauth]
    rw [hrun]
    exact ⟨step_of_same rfl rfl rfl (.idle (.refl _)),
      fun _ => ⟨rfl, [], hdec, by simp, fun _ => List.not_mem_nil⟩⟩
  · rcases hreq : require principal (lit "approval.decide") request.toolName request.environment
      s.outside with ⟨e | u, w⟩
    · have hrun : authorize sys i principal request s = (.error e, { s with outside := w }) := by
        simp only [authorize, hauth, PyM.bind_apply, onOutside, PyM.on, hreq]
      rw [hrun]
      exact ⟨step_of_same rfl rfl rfl (.idle (.refl _)), by simp⟩
    · have hrun : authorize sys i principal request s =
          (.ok (), log i (.authorized principal request.toolName request.environment)
            { s with outside := w }) := by
        simp only [authorize, hauth, PyM.bind_apply, onOutside, PyM.on, hreq, PyM.modify_apply]
      rw [hrun]
      refine ⟨step_of_same rfl rfl rfl (.authorized _ _ _), fun _ => ⟨rfl, _,
        hdec.cons rfl rfl, fun _ => List.mem_cons_self, by simp⟩⟩

variable (sys passed) in
/-- Settling a record, after which the operation knows that it stored it. -/
theorem step_settleRecord {c : Str} {cached stored : Option ApprovalRecord}
    {done : List (BrokerEvent P)} {current record : ApprovalRecord}
    (hdec : Deciding i s c cached stored done) (hfound : Found cached stored current)
    (hmem : (s.brokers i).records c = some current) (hsettles : Settles current record) :
    BrokerStep sys passed i s (settleRecord sys i c record s).2 ∧
      ((settleRecord sys i c record s).1 = .ok () →
        ((settleRecord sys i c record s).2.brokers i).records c = some record ∧
        ∃ events, Deciding i (settleRecord sys i c record s).2 c cached stored (events ++ done) ∧
          (sys.repository ≠ none → .savedRecord record ∈ events) ∧
          ∀ r, .decided r ∉ events) := by
  set s' := setMemory i ((s.brokers i).putRecord c record) s with hs'
  have hrun : settleRecord sys i c record s = storeRecord sys i record s' := rfl
  obtain ⟨w, repo, events, hwritten, heq, hok⟩ := store_cases sys i (ApprovalRepository.putRecord · record) (.savedRecord record) s'
  rw [hrun, storeRecord, ApprovalRepository.saveRecord, heq]
  refine ⟨step_of rfl rfl rfl (.settled hdec hfound hmem hsettles hwritten), fun h => ⟨?_, events,
    ?_⟩⟩
  · show (Function.update s.brokers i ((s.brokers i).putRecord c record) i).records c = some record
    rw [Function.update_self]
    exact Function.update_self c _ _
  · rcases hok h with ⟨rfl, hnone⟩ | rfl
    · exact ⟨hdec.append rfl fun _ hx => absurd hx List.not_mem_nil,
        fun hne => absurd hnone hne, fun _ => List.not_mem_nil⟩
    · exact ⟨hdec.append rfl (by simp [isOpening]), fun _ => List.mem_cons_self, by simp⟩

variable (passed) in
theorem step_settleGrant {c : Str} {cached stored : Option ApprovalRecord}
    {done : List (BrokerEvent P)} {record : ApprovalRecord} {principal : P} {nowMs : Int}
    {ttlSeconds : Option Int} {grant : ApprovalGrant}
    (hdec : Deciding i s c cached stored done)
    (hsaved : sys.repository ≠ none → .savedRecord record ∈ done)
    (hmem : (s.brokers i).records c = some record)
    (happroves : Approves sys i done record principal) (hdone : ∀ r, .decided r ∉ done)
    (hgrant : decisionGrant record c nowMs ttlSeconds = .ok grant) :
    BrokerStep sys passed i s (settleGrant sys i c grant
        (.approved record.request principal nowMs ttlSeconds) s).2 ∧
      ((settleGrant sys i c grant
          (.approved record.request principal nowMs ttlSeconds) s).1 = .ok () →
        ∃ done', Deciding i (settleGrant sys i c grant
            (.approved record.request principal nowMs ttlSeconds) s).2 c cached stored done' ∧
          (sys.repository ≠ none → .savedRecord record ∈ done') ∧ ∀ r, .decided r ∉ done') := by
  set event : BrokerEvent P := .approved record.request principal nowMs ttlSeconds with hevent
  set s' := log i event
    (setMemory i (((s.brokers i).putGrant c grant).putAction grant) s) with hs'
  have hrun : settleGrant sys i c grant event s =
      store sys i (ApprovalRepository.saveGrant grant) (.savedGrant grant) s' := rfl
  obtain ⟨w, repo, events, hwritten, heq, hok⟩ := store_cases sys i (ApprovalRepository.putGrant · ⟨grant, false⟩) (.savedGrant grant) s'
  have htrace : events.map (i, ·) ++ s'.trace = (events ++ [event]).map (i, ·) ++ s.trace := by
    rw [List.map_append, List.append_assoc]
    rfl
  rw [hrun, ApprovalRepository.saveGrant, heq]
  refine ⟨step_of rfl rfl htrace
    (.minted hdec hsaved hmem happroves hgrant hwritten), fun h => ⟨_, hdec.append htrace ?_,
      fun hne => List.mem_append_right _ (hsaved hne), ?_⟩⟩
  · rcases hok h with ⟨rfl, -⟩ | rfl <;> simp [isOpening, hevent]
  · intro r hr
    rcases List.mem_append.mp hr with hr | hr
    · rcases hok h with ⟨rfl, -⟩ | rfl <;> simp [hevent] at hr
    · exact hdone r hr

variable (sys i) in
theorem updateProvider_cases (record : ApprovalRecord) (s : ApprovalState W P) :
    ∃ w, updateProvider sys i record s = (.ok (), { s with outside := w }) ∨
      ∃ e, updateProvider sys i record s = (.error e, log i (.failed e) { s with outside := w }) := by
  rcases hup : (sys.config i).provider.update record s.outside with ⟨e | u, w⟩
  · refine ⟨w, .inr ⟨e, ?_⟩⟩
    simp only [updateProvider, reporting, PyM.tryExcept, onOutside, PyM.on, hup, PyM.bind_apply,
      PyM.modify_apply, PyM.raise_apply]
  · refine ⟨w, .inl ?_⟩
    simp only [updateProvider, reporting, PyM.tryExcept, onOutside, PyM.on, hup]

theorem step_updateProvider (record : ApprovalRecord) :
    BrokerStep sys passed i s (updateProvider sys i record s).2 := by
  obtain ⟨w, hok | ⟨e, herror⟩⟩ := updateProvider_cases sys i record s
  · rw [hok]
    exact step_of_same rfl rfl rfl (.idle (.refl _))
  · rw [herror]
    exact step_of_same rfl rfl rfl (.failed e)

theorem step_finishDecide {c : Str} {cached stored : Option ApprovalRecord}
    {done : List (BrokerEvent P)} {record : ApprovalRecord}
    (hdec : Deciding i s c cached stored done)
    (hsaved : sys.repository ≠ none → .savedRecord record ∈ done)
    (hdone : ∀ r, .decided r ∉ done) (hstatus : record.status ≠ .pending) :
    BrokerStep sys passed i s (finishDecide sys i record s).2 := by
  obtain ⟨w, hok | ⟨e, herror⟩⟩ := updateProvider_cases sys i record s
  · rw [finishDecide, PyM.bind_of_ok hok]
    exact step_of_same rfl rfl rfl (.decided hdec hsaved hdone hstatus)
  · rw [finishDecide, PyM.bind_of_error herror]
    exact step_of_same rfl rfl rfl (.failed e)

theorem settles_expiredRecord {current : ApprovalRecord} (h : current.status = .pending)
    (nowMs : Int) : Settles current (expiredRecord current nowMs) :=
  ⟨h, rfl, rfl, .inr (.inr rfl)⟩

theorem settles_decisionRecord {current record : ApprovalRecord} {approved : Bool}
    {subject reason : Str} {nowMs : Int} (h : current.status = .pending)
    (hok : decisionRecord current approved subject reason nowMs = .ok record) :
    Settles current record ∧ record.decidedBy = strip subject ∧
      (record.request.requestedBy = [] ∨ record.decidedBy ≠ record.request.requestedBy) := by
  unfold decisionRecord at hok
  split_ifs at hok with hblank hself happroved
  all_goals
    obtain rfl := Except.ok.inj hok
    rw [not_and_or, not_not] at hself
  · exact ⟨⟨h, rfl, rfl, .inl rfl⟩, rfl, hself⟩
  · exact ⟨⟨h, rfl, rfl, .inr (.inl rfl)⟩, rfl, hself⟩

theorem follows_expireRequest {c : Str} {cached stored : Option ApprovalRecord}
    {current : ApprovalRecord} (nowMs : Int) (hdec : Deciding i s c cached stored [])
    (hfound : Found cached stored current) (hmem : (s.brokers i).records c = some current)
    (hpending : current.status = .pending) :
    Proc.Follows (Rely i) (BrokerStep sys passed i) (expireRequest sys i c current nowMs) s := by
  refine Proc.follows_step fun t ht => ?_
  rw [← ht.memory] at hmem
  refine ⟨(step_settleRecord sys passed (hdec.rely ht) hfound hmem
    (settles_expiredRecord hpending nowMs)).1, fun _ _ => ?_⟩
  exact Proc.follows_step fun t' _ => ⟨step_updateProvider _, fun _ _ => Proc.follows_raise⟩

theorem follows_concludeDecide {c : Str} {approved : Bool} {cached stored : Option ApprovalRecord}
    {done : List (BrokerEvent P)} {record : ApprovalRecord} {principal : P} (nowMs : Int)
    (ttlSeconds : Option Int) (hdec : Deciding i s c cached stored done)
    (hsaved : sys.repository ≠ none → .savedRecord record ∈ done)
    (hmem : (s.brokers i).records c = some record)
    (happroves : Approves sys i done record principal) (hdone : ∀ r, .decided r ∉ done)
    (hstatus : record.status ≠ .pending) :
    Proc.Follows (Rely i) (BrokerStep sys passed i)
      (concludeDecide sys i c approved record principal nowMs ttlSeconds) s := by
  cases approved with
  | false =>
    exact Proc.follows_atomic fun t ht => step_finishDecide (hdec.rely ht) hsaved hdone hstatus
  | true =>
    rcases hgrant : decisionGrant record c nowMs ttlSeconds with e | grant
    · simp only [concludeDecide, grantApproval, hgrant]
      exact fun _ _ _ => trivial
    · simp only [concludeDecide, grantApproval, hgrant]
      refine Proc.follows_step fun t ht => ?_
      rw [← ht.memory] at hmem
      obtain ⟨hstep, hafter⟩ := step_settleGrant passed (hdec.rely ht) hsaved hmem
        happroves hdone hgrant
      refine ⟨hstep, fun u hu => ?_⟩
      obtain ⟨done', hdec', hsaved', hdone'⟩ := hafter hu
      exact Proc.follows_atomic fun t' ht' =>
        step_finishDecide (hdec'.rely ht') hsaved' hdone' hstatus

theorem follows_judgeRequest {c : Str} {approved : Bool} {principal : P} {reason : Str}
    {ttlSeconds : Option Int} {cached stored : Option ApprovalRecord} {current : ApprovalRecord}
    (nowMs : Int) (hdec : Deciding i s c cached stored [])
    (hfound : Found cached stored current) (hmem : (s.brokers i).records c = some current)
    (hpending : current.status = .pending) :
    Proc.Follows (Rely i) (BrokerStep sys passed i)
      (judgeRequest sys i c approved principal reason ttlSeconds current nowMs) s := by
  refine Proc.follows_step fun t ht => ?_
  rw [← ht.memory] at hmem
  obtain ⟨hstep, hauth⟩ := step_authorize sys passed principal current.request
    (hdec.rely ht)
  refine ⟨hstep, fun u hu => ?_⟩
  obtain ⟨hbrokers, done, hdec', hauthorized, hdone⟩ := hauth hu
  rcases hrecord : decisionRecord current approved (sys.subject principal) reason nowMs with
    e | record
  · exact Proc.follows_raise
  · obtain ⟨hsettles, hby, hself⟩ := settles_decisionRecord hpending hrecord
    refine Proc.follows_step fun t' ht' => ?_
    rw [← hbrokers, ← ht'.memory] at hmem
    obtain ⟨hstep', hsettled⟩ := step_settleRecord sys passed (hdec'.rely ht') hfound hmem hsettles
    refine ⟨hstep', fun u' hu' => ?_⟩
    obtain ⟨hmem', events, hdec'', hsaved, hevents⟩ := hsettled hu'
    refine follows_concludeDecide nowMs ttlSeconds hdec''
      (fun hne => List.mem_append_left _ (hsaved hne)) hmem' ⟨fun h => ?_, hby, hself⟩
      (fun r hr => ?_) hsettles.not_pending
    · rw [hsettles.request]
      exact List.mem_append_right _ (hauthorized h)
    · rcases List.mem_append.mp hr with hr | hr
      · exact hevents r hr
      · exact hdone r hr

/-- The steps of `decide`. -/
theorem follows_decide (c : Str) (approved : Bool) (principal : P) (reason : Str)
    (ttlSeconds : Option Int) :
    Proc.Follows (Rely i) (BrokerStep sys passed i)
      (ApprovalBroker.decide sys i c approved principal reason ttlSeconds) s := by
  refine Proc.follows_step fun t _ => ?_
  obtain ⟨hstep, hbegin⟩ := step_beginDecide sys passed i t c
  refine ⟨hstep, fun current hok => ?_⟩
  obtain ⟨cached, stored, hdec, hfound, hmem, hpending⟩ := hbegin current hok
  refine Proc.follows_step fun t' ht' => ?_
  rw [← ht'.memory] at hmem
  refine ⟨step_of_same rfl rfl rfl (.idle (.refl _)), fun nowMs _ => ?_⟩
  split_ifs
  · exact follows_expireRequest nowMs (hdec.rely ht') hfound hmem hpending
  · exact follows_judgeRequest nowMs (hdec.rely ht') hfound hmem hpending

theorem step_consume {d : Str} (hkind : sys.repository = some .postgres) :
    BrokerStep sys passed i s (consume sys i d s).2 := by
  obtain ⟨w, hok | ⟨e, herror⟩⟩ :=
    transact_apply sys (ApprovalRepository.consumeGrant d s.nowMs) s
  · rcases ApprovalRepository.consumeGrant_cases d s.nowMs s.repository with
      hnone | ⟨row, checkpointId, hrow, hconsumed, hsome⟩
    · rw [hnone] at hok
      have hrun : (consume sys i d s).2 = { s with outside := w } := by
        simp only [consume, PyM.bind_apply, PyM.get_apply, hok]
      rw [hrun]
      exact step_of_same rfl rfl rfl (.idle (.refl _))
    · rw [hsome] at hok
      have hrun : (consume sys i d s).2 = log i (.consumed d)
          { s with outside := w, repository := s.repository.putGrant ⟨row.grant, true⟩ } := by
        simp only [consume, PyM.bind_apply, PyM.get_apply, hok, PyM.modify_apply, PyM.pure_apply]
      rw [hrun]
      exact step_of_same rfl rfl rfl (.consumed hkind hrow hconsumed)
  · have hrun : (consume sys i d s).2 = { s with outside := w } := by
      simp only [consume, PyM.bind_apply, PyM.get_apply, herror]
    rw [hrun]
    exact step_of_same rfl rfl rfl (.idle (.refl _))

/-- The steps of every operation. -/
theorem follows_perform (op : Operation P) (hop : op.Allowed sys passed) :
    Proc.Follows (Rely i) (BrokerStep sys passed i) (perform sys i op) s := by
  cases op with
  | call cp toolName risk argumentCount keywordNames =>
    exact Proc.follows_bind (Rely.refl i)
      (follows_call toolName risk argumentCount keywordNames hop) fun _ _ => Proc.follows_pure
  | decide c approved principal reason ttlSeconds =>
    exact Proc.follows_bind (Rely.refl i) (follows_decide c approved principal reason ttlSeconds)
      fun _ _ => Proc.follows_pure
  | consume d =>
    exact Proc.follows_step fun t _ => ⟨step_consume hop, fun _ _ => Proc.follows_pure⟩

/-- What every step keeps, and the passing of time, holds in every pool of
brokers. -/
theorem invariant_of_step {J : ApprovalState W P → Prop}
    (hinit : ∀ s : ApprovalState W P, Fresh s → J s)
    (hstep : ∀ i s t, BrokerStep sys passed i s t → J s → J t)
    (hpasses : ∀ s t : ApprovalState W P, Passes s t → J s → J t)
    {pool : Pool ℕ (ApprovalState W P) PyExc Unit}
    (h : Pool.Reach Fresh (Programs sys passed) Passes pool) : J pool.state := by
  refine h.invariant (R := Rely) (G := BrokerStep sys passed) Rely.refl
    (fun _ _ _ _ => Rely.trans) (fun i j s t => BrokerStep.rely) (fun i s t ht => ht.rely i)
    ?_ hinit hstep hpasses
  rintro i p s ⟨op, hop, rfl⟩
  exact follows_perform op hop

/-! ### What is returned is logged -/

theorem replay_granted {cp : Checkpoint} {approvedAction grant : ApprovalGrant}
    (h : (replay i cp approvedAction s).1 = .ok (.granted grant)) :
    s.nowMs ≤ approvedAction.expiresAtEpochMs ∧ Replays cp approvedAction grant ∧
      (replay i cp approvedAction s).2.trace = (i, .granted cp grant s.nowMs) :: s.trace := by
  rcases replay_cases i cp approvedAction s with ⟨grant', hlive, hreplays, heq⟩ | ⟨e, heq⟩ | heq
  · rw [heq] at h ⊢
    cases h
    exact ⟨hlive, hreplays, rfl⟩
  · rw [heq] at h
    cases h
  · rw [heq] at h
    cases h

/-- A grant found in memory: one that validates, or the replay of an action
that is still approved. -/
theorem cachedGrant_granted {cp : Checkpoint} {grant : ApprovalGrant}
    (h : (cachedGrant i cp s).1 = .ok (.granted grant)) :
    ((s.brokers i).grants cp.checkpointId = some grant ∧ grant.validate cp s.nowMs = .ok () ∨
      ∃ approvedAction, (s.brokers i).approvedActions cp.actionDigest = some approvedAction ∧
        s.nowMs ≤ approvedAction.expiresAtEpochMs ∧ Replays cp approvedAction grant) ∧
    (cachedGrant i cp s).2.trace =
      (i, .granted cp grant s.nowMs) :: (i, calledEvent i s cp) :: s.trace := by
  rcases hheld : (s.brokers i).heldGrant cp s.nowMs with _ | held
  · rcases haction : (s.brokers i).approvedActions cp.actionDigest with _ | approvedAction
    · have hrun : (cachedGrant i cp s).1 = .ok .absent := by
        simp [cachedGrant, PyM.bind_apply, hheld, haction]
      rw [hrun] at h
      cases h
    · have hrun : cachedGrant i cp s = replay i cp approvedAction
          (setMemory i ((s.brokers i).dropGrant cp.checkpointId)
            (log i (calledEvent i s cp) s)) := by
        simp [cachedGrant, PyM.bind_apply, hheld, haction, calledEvent]
      rw [hrun] at h ⊢
      obtain ⟨hlive, hreplays, htrace⟩ := replay_granted h
      exact ⟨.inr ⟨approvedAction, rfl, hlive, hreplays⟩, htrace⟩
  · have hrun : cachedGrant i cp s = (.ok (.granted held),
        log i (.granted cp held s.nowMs) (log i (calledEvent i s cp) s)) := by
      simp [cachedGrant, PyM.bind_apply, hheld, calledEvent]
    obtain ⟨hgrant, hvalid⟩ := Option.filter_eq_some_iff.mp hheld
    rw [hrun] at h ⊢
    cases h
    refine ⟨.inl ⟨hgrant, ?_⟩, rfl⟩
    rcases hv : grant.validate cp s.nowMs with e | u
    · rw [hv] at hvalid
      cases hvalid
    · rfl

theorem storedGrant_granted {cp : Checkpoint} {kind : RepositoryKind} {grant : ApprovalGrant}
    (h : (storedGrant sys kind i cp s).1 = .ok (.granted grant)) :
    (storedGrant sys kind i cp s).2.trace = (i, .granted cp grant s.nowMs) :: s.trace := by
  obtain ⟨w, hok | ⟨e, herror⟩⟩ :=
    transact_apply sys (ApprovalRepository.getGrant kind cp.actionDigest s.nowMs) s
  · rcases ApprovalRepository.getGrant_cases kind cp.actionDigest s.nowMs s.repository with
      hnone | ⟨row, checkpointId, -, -, hsome⟩
    · rw [hnone] at hok
      have hrun : (storedGrant sys kind i cp s).1 = .ok .absent := by
        simp [storedGrant, PyM.bind_apply, hok]
      rw [hrun] at h
      cases h
    · rw [hsome] at hok
      have hrun : storedGrant sys kind i cp s =
          replay i cp { row.grant with checkpointId } { s with outside := w } := by
        simp [storedGrant, PyM.bind_apply, hok]
      rw [hrun] at h ⊢
      exact (replay_granted h).2.2
  · have hrun : (storedGrant sys kind i cp s).1 = .error e := by
      simp [storedGrant, PyM.bind_apply, herror]
    rw [hrun] at h
    cases h

/-- The broker logged that it returned the grant. -/
def Logged (i : ℕ) (cp : Checkpoint) (grant : ApprovalGrant) (s : ApprovalState W P) : Prop :=
  ∃ nowMs, .granted cp grant nowMs ∈ own i s.trace

theorem Logged.rely {cp : Checkpoint} {grant : ApprovalGrant} (h : Logged i cp grant s)
    (hst : Rely i s t) : Logged i cp grant t := by
  obtain ⟨nowMs, hmem⟩ := h
  exact ⟨nowMs, by rw [hst.own]; exact hmem⟩

theorem logged_of_trace {cp : Checkpoint} {grant : ApprovalGrant} {nowMs : Int}
    {earlier : List (ℕ × BrokerEvent P)} (h : s.trace = (i, .granted cp grant nowMs) :: earlier) :
    Logged i cp grant s :=
  ⟨nowMs, by rw [h, own_cons_self]; exact List.mem_cons_self⟩

theorem searchRepository_granted {cp : Checkpoint} {cached : Lookup}
    (h : ∀ grant, cached = .granted grant → Logged i cp grant s) :
    Proc.Safe (Rely i) (fun _ _ => True) (fun _ => True)
      (fun r t => ∀ grant, r = .ok (.granted grant) → Logged i cp grant t)
      (searchRepository sys i cp cached) s := by
  unfold searchRepository
  split
  · refine Proc.safe_atomic fun t _ _ => ⟨trivial, trivial, fun u hu _ grant hgrant => ?_⟩
    exact (logged_of_trace (storedGrant_granted hgrant)).rely hu
  · refine Proc.safe_pure fun t ht _ grant hgrant => ?_
    exact (h grant (Except.ok.inj hgrant)).rely ht

theorem requestApproval_returns {cp : Checkpoint} (toolName risk : Str) (argumentCount : Nat)
    (keywordNames : List Str) :
    Proc.Safe (Rely i) (fun _ _ => True) (fun _ => True)
      (fun r _ => ∀ grant, r ≠ .ok (some grant))
      (requestApproval sys i cp toolName risk argumentCount keywordNames) s := by
  have hany : ∀ {α : Type} (x : PyM (ApprovalState W P) α) (u : ApprovalState W P),
      Proc.Safe (Rely i) (fun _ _ => True) (fun _ => True) (fun _ _ => True) (.atomic x) u :=
    fun x u => Proc.safe_atomic fun _ _ _ => ⟨trivial, trivial, fun _ _ _ => trivial⟩
  refine Proc.safe_bind (Rely.refl i) (hany _ _) trivial (fun known t _ _ => ?_) (by simp)
  split_ifs
  · exact Proc.safe_pure (by simp)
  · refine Proc.safe_bind (Rely.refl i) (hany _ _) trivial (fun record t _ _ => ?_) (by simp)
    refine Proc.safe_bind (Rely.refl i) (hany _ _) trivial (fun u t _ _ => ?_) (by simp)
    exact Proc.safe_pure (by simp)

/-- Whatever the other brokers do, a grant that `__call__` returns is logged. -/
theorem call_granted (cp : Checkpoint) (toolName risk : Str) (argumentCount : Nat)
    (keywordNames : List Str) :
    Proc.Safe (Rely i) (fun _ _ => True) (fun _ => True)
      (fun r t => ∀ grant, r = .ok (some grant) → Logged i cp grant t)
      (call sys i cp toolName risk argumentCount keywordNames) s := by
  have hcached : Proc.Safe (Rely i) (fun _ _ => True) (fun _ => True)
      (fun r t => ∀ grant, r = .ok (.granted grant) → Logged i cp grant t)
      (.atomic (cachedGrant i cp)) s := by
    refine Proc.safe_atomic fun t _ _ => ⟨trivial, trivial, fun u hu _ grant hgrant => ?_⟩
    exact (logged_of_trace (cachedGrant_granted hgrant).2).rely hu
  refine Proc.safe_bind (Rely.refl i) hcached trivial (fun cached t _ hcached => ?_) (by simp)
  refine Proc.safe_bind (Rely.refl i) (searchRepository_granted fun grant hgrant =>
    hcached grant (by rw [hgrant])) trivial (fun found u _ hfound => ?_) (by simp)
  cases found with
  | granted grant =>
    refine Proc.safe_pure fun u' hu' _ grant' hgrant' => ?_
    obtain rfl := Option.some.inj (Except.ok.inj hgrant')
    exact (hfound grant rfl).rely hu'
  | expired =>
    exact (requestApproval_returns toolName risk argumentCount keywordNames).imp
      fun r t _ hr grant hgrant => absurd hgrant (hr grant)
  | absent =>
    exact (requestApproval_returns toolName risk argumentCount keywordNames).imp
      fun r t _ hr grant hgrant => absurd hgrant (hr grant)

end Steps

end ApprovalBroker

end AgentRoi
