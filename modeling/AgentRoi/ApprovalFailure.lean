/-
`decide` when the repository or the provider fails.

* `Undone` — a call that left no trace in the broker or the repository, and
  can be made again;
* `decide_failed` — when `decide` raises because `save_record`, `save_grant`
  or `provider.update` failed, the broker keeps the decision in memory, so
  the call is never undone: it cannot be made again.
-/
import AgentRoi.ApprovalSteps

namespace AgentRoi

namespace ApprovalBroker

open ApprovalState

variable {W P : Type} {sys : ApprovalSystem W P} {i : ℕ}

/-- The error of a `decide` on a record that is no longer pending. -/
def alreadyDecided : PyExc := .valueError (lit "Approval request has already been decided")

/-- After the call that led from `s` to `s'` the broker's memory and the
repository are as before, and the call can be made again. -/
structure Undone (sys : ApprovalSystem W P) (i : ℕ) (checkpointId : Str) (approved : Bool)
    (principal : P) (reason : Str) (ttlSeconds : Option Int) (s s' : ApprovalState W P) :
    Prop where
  records : (s'.brokers i).records = (s.brokers i).records
  grants : (s'.brokers i).grants = (s.brokers i).grants
  approvedActions : (s'.brokers i).approvedActions = (s.brokers i).approvedActions
  repository : s'.repository = s.repository
  retry : ((ApprovalBroker.decide sys i checkpointId approved principal reason ttlSeconds).run
    s').1 ≠ .error alreadyDecided

/-- A repository or provider call that failed, as the last event since `s`. -/
def FailedSince (i : ℕ) (e : PyExc) (s s' : ApprovalState W P) : Prop :=
  ∃ since, s'.trace = (i, .failed e) :: since ++ s.trace

theorem run_step {α : Type} (x : PyM (ApprovalState W P) α) (s : ApprovalState W P) :
    (Proc.atomic x).run s = x s := rfl

theorem run_step_bind {α β : Type} (x : PyM (ApprovalState W P) α)
    (f : α → Proc (ApprovalState W P) PyExc β) (s : ApprovalState W P) :
    (Proc.atomic x >>= f).run s = match x s with
      | (.ok a, t) => (f a).run t
      | (.error e, t) => (.error e, t) := by
  rw [Proc.run_bind, run_step]
  rcases x s with ⟨e | a, t⟩ <;> rfl

theorem transact_trace {α : Type} (sys : ApprovalSystem W P) (x : PyM ApprovalRepository α)
    (s : ApprovalState W P) :
    (transact sys x s).2.trace = s.trace := by
  obtain ⟨w, h | ⟨e, h⟩⟩ := transact_apply sys x s <;> rw [h]

theorem trace_currentRecord (sys : ApprovalSystem W P) (i : ℕ) (c : Str) (s : ApprovalState W P) :
    (currentRecord sys i c s).2.trace = (i, .decideBegan c ((s.brokers i).records c)
      (s.repository.records c)) :: s.trace := by
  rcases hmem : (s.brokers i).records c with _ | current
  · rcases hrepo : sys.repository with _ | kind
    · simp only [currentRecord, PyM.bind_apply, PyM.get_apply, PyM.modify_apply, hmem, hrepo,
        PyM.raise_apply]
      rfl
    · set s' := log i (.decideBegan c none (s.repository.records c)) s with hs'
      have htrace := transact_trace sys (ApprovalRepository.getRecord c) s'
      rcases hget : transact sys (ApprovalRepository.getRecord c) s' with ⟨e | row, t⟩
      · rw [hget] at htrace
        simp only [currentRecord, PyM.bind_apply, PyM.get_apply, PyM.modify_apply, hmem, hrepo,
          ← hs', hget]
        exact htrace
      · rw [hget] at htrace
        cases row <;>
          simp only [currentRecord, PyM.bind_apply, PyM.get_apply, PyM.modify_apply, hmem, hrepo,
            ← hs', hget, PyM.raise_apply, PyM.pure_apply] <;>
          exact htrace
  · simp only [currentRecord, PyM.bind_apply, PyM.get_apply, PyM.modify_apply, hmem,
      PyM.pure_apply]
    rfl

theorem trace_beginDecide (sys : ApprovalSystem W P) (i : ℕ) (c : Str) (s : ApprovalState W P) :
    (beginDecide sys i c s).2.trace = (i, .decideBegan c ((s.brokers i).records c)
      (s.repository.records c)) :: s.trace := by
  rw [← trace_currentRecord sys]
  rcases hrun : currentRecord sys i c s with ⟨e | current, t⟩
  · rw [beginDecide, PyM.bind_of_error hrun]
  · rw [beginDecide, PyM.bind_of_ok hrun]
    rfl

/-- Beginning on a record that is no longer pending. -/
theorem beginDecide_decided (sys : ApprovalSystem W P) {c : Str} {s : ApprovalState W P} {record : ApprovalRecord}
    (hmem : (s.brokers i).records c = some record) (hstatus : record.status ≠ .pending) :
    (beginDecide sys i c s).1 = .error alreadyDecided := by
  have hrun : currentRecord sys i c s = (.ok record,
      log i (.decideBegan c (some record) (s.repository.records c)) s) := by
    simp only [currentRecord, PyM.bind_apply, PyM.get_apply, PyM.modify_apply, hmem,
      PyM.pure_apply]
  rw [beginDecide, PyM.bind_of_ok hrun]
  show requirePending record = _
  rw [requirePending, if_neg hstatus]
  rfl

/-- `decide` refuses a record that is no longer pending. -/
theorem decide_decided {c : Str} {s : ApprovalState W P} {record : ApprovalRecord}
    (hmem : (s.brokers i).records c = some record) (hstatus : record.status ≠ .pending)
    (approved : Bool) (principal : P) (reason : Str) (ttlSeconds : Option Int) :
    ((ApprovalBroker.decide sys i c approved principal reason ttlSeconds).run s).1 =
      .error alreadyDecided := by
  rw [ApprovalBroker.decide, run_step_bind]
  have hbegin := beginDecide_decided sys hmem hstatus
  rcases hrun : beginDecide sys i c s with ⟨e | current, t⟩
  · rw [hrun] at hbegin
    exact hbegin
  · rw [hrun] at hbegin
    cases hbegin

/-- A program that keeps what the broker has in memory on the checkpoint. -/
def KeepsRecord (i : ℕ) (c : Str) {α : Type} (p : Proc (ApprovalState W P) PyExc α) : Prop :=
  ∀ s, ((p.run s).2.brokers i).records c = (s.brokers i).records c

theorem keepsRecord_raise {c : Str} {α : Type} (e : PyExc) :
    KeepsRecord i c (.raise e : Proc (ApprovalState W P) PyExc α) := fun _ => rfl

theorem keepsRecord_bind {c : Str} {α β : Type} {p : Proc (ApprovalState W P) PyExc α}
    {f : α → Proc (ApprovalState W P) PyExc β} (hp : KeepsRecord i c p)
    (hf : ∀ a, KeepsRecord i c (f a)) : KeepsRecord i c (p >>= f) := by
  intro s
  rw [Proc.run_bind, ← hp s]
  rcases p.run s with ⟨e | a, t⟩
  · rfl
  · exact hf a t

theorem keepsRecord_updateProvider (c : Str) (record : ApprovalRecord) :
    KeepsRecord i c (.atomic (updateProvider sys i record)) := by
  intro s
  rw [run_step]
  obtain ⟨w, h | ⟨e, h⟩⟩ := updateProvider_cases sys i record s
  · rw [h]
  · rw [h]
    rfl

theorem keepsRecord_finishDecide (c : Str) (record : ApprovalRecord) :
    KeepsRecord i c (.atomic (finishDecide sys i record)) := by
  intro s
  rw [run_step, finishDecide]
  obtain ⟨w, h | ⟨e, h⟩⟩ := updateProvider_cases sys i record s
  · rw [PyM.bind_of_ok h]
    rfl
  · rw [PyM.bind_of_error h]
    rfl

theorem keepsRecord_settleGrant (c : Str) (grant : ApprovalGrant) (event : BrokerEvent P) :
    KeepsRecord i c (.atomic (settleGrant sys i c grant event)) := by
  intro s
  rw [run_step]
  set s' := log i event
    (setMemory i (((s.brokers i).putGrant c grant).putAction grant) s) with hs'
  have hrun : settleGrant sys i c grant event s =
      store sys i (ApprovalRepository.saveGrant grant) (.savedGrant grant) s' := rfl
  obtain ⟨w, repo, events, -, heq, -⟩ := store_cases sys i
    (ApprovalRepository.putGrant · ⟨grant, false⟩) (.savedGrant grant) s'
  rw [hrun, ApprovalRepository.saveGrant, heq]
  show (Function.update s.brokers i _ i).records c = _
  rw [Function.update_self]
  rfl

theorem keepsRecord_concludeDecide (c : Str) (approved : Bool) (record : ApprovalRecord)
    (principal : P) (nowMs : Int) (ttlSeconds : Option Int) :
    KeepsRecord i c (concludeDecide sys i c approved record principal nowMs ttlSeconds) := by
  cases approved with
  | false => exact keepsRecord_finishDecide c record
  | true =>
    refine keepsRecord_bind ?_ fun _ => keepsRecord_finishDecide c record
    unfold grantApproval
    split
    · exact keepsRecord_raise _
    · exact keepsRecord_settleGrant c _ _

/-- Settling a record and what follows: the broker keeps it in memory,
whatever fails. -/
theorem run_settleRecord {c : Str} {record : ApprovalRecord} {α : Type}
    {p : Proc (ApprovalState W P) PyExc α} (hp : KeepsRecord i c p) (s : ApprovalState W P) :
    (((Proc.atomic (settleRecord sys i c record) >>= fun _ => p).run s).2.brokers i).records c =
      some record := by
  set s' := setMemory i ((s.brokers i).putRecord c record) s with hs'
  have hmem : (s'.brokers i).records c = some record := by
    show (Function.update s.brokers i ((s.brokers i).putRecord c record) i).records c = _
    rw [Function.update_self]
    exact Function.update_self c _ _
  obtain ⟨w, repo, events, -, heq, -⟩ := store_cases sys i
    (ApprovalRepository.putRecord · record) (.savedRecord record) s'
  have hsettle : settleRecord sys i c record s = store sys i (.modify
      (ApprovalRepository.putRecord · record)) (.savedRecord record) s' := rfl
  rw [run_step_bind, hsettle]
  rcases hstore : store sys i (.modify (ApprovalRepository.putRecord · record))
    (.savedRecord record) s' with ⟨e | u, t⟩
  · rw [hstore] at heq
    obtain rfl : t = _ := heq
    exact hmem
  · rw [hstore] at heq
    obtain rfl : t = _ := heq
    exact (hp _).trans hmem

/-- What an authorizer leaves of the state. -/
theorem authorize_cases (sys : ApprovalSystem W P) (i : ℕ) (principal : P)
    (request : ApprovalRequest) (s : ApprovalState W P) :
    (∃ e w, authorize sys i principal request s = (.error e, { s with outside := w })) ∨
      ∃ w, authorize sys i principal request s = (.ok (), { s with outside := w }) ∨
        authorize sys i principal request s = (.ok (),
          log i (.authorized principal request.toolName request.environment)
            { s with outside := w }) := by
  rcases hauth : (sys.config i).authorizer with _ | require
  · refine .inr ⟨s.outside, .inl ?_⟩
    simp [authorize, hauth]
  · rcases hreq : require principal (lit "approval.decide") request.toolName request.environment
      s.outside with ⟨e | u, w⟩
    · refine .inl ⟨e, w, ?_⟩
      simp only [authorize, hauth, PyM.bind_apply, onOutside, PyM.on, hreq]
    · refine .inr ⟨w, .inr ?_⟩
      simp only [authorize, hauth, PyM.bind_apply, onOutside, PyM.on, hreq, PyM.modify_apply]

/-- The failure is no event that a `decide` logs before it settles the record. -/
theorem not_failedSince {s s' : ApprovalState W P} {e : PyExc} {event : BrokerEvent P}
    {rest : List (ℕ × BrokerEvent P)} (h : FailedSince i e s s')
    (htrace : s'.trace = (i, event) :: rest) (hne : ∀ e, event ≠ .failed e) : False := by
  obtain ⟨since, hsince⟩ := h
  rw [htrace, List.cons_append] at hsince
  exact hne e (Prod.mk.inj (List.cons.inj hsince).1).2

/-- When `decide` raises because the repository or the provider failed, the
broker has the record settled in memory. -/
theorem decide_failed {c : Str} {approved : Bool} {principal : P} {reason : Str}
    {ttlSeconds : Option Int} {s s' : ApprovalState W P} {e : PyExc}
    (h : (ApprovalBroker.decide sys i c approved principal reason ttlSeconds).run s =
      (.error e, s')) (hfailed : FailedSince i e s s') :
    (∃ record, (s'.brokers i).records c = some record ∧ record.status ≠ .pending) ∧
      ∀ record, (s.brokers i).records c = some record → record.status = .pending := by
  rw [ApprovalBroker.decide, run_step_bind] at h
  have htrace := trace_beginDecide sys i c s
  rcases hbegin : beginDecide sys i c s with ⟨e' | current, t⟩
  · -- the record could not be read, or was no longer pending
    rw [hbegin] at h htrace
    cases h
    exact (not_failedSince hfailed htrace nofun).elim
  · rw [hbegin] at h htrace
    have hpending : ∀ record, (s.brokers i).records c = some record →
        record.status = .pending := by
      intro record hmem
      by_contra hstatus
      have hdecided := beginDecide_decided sys hmem hstatus
      rw [hbegin] at hdecided
      cases hdecided
    refine ⟨?_, hpending⟩
    have hcurrent : current.status = .pending :=
      ((step_beginDecide sys (fun _ => True) i s c).2 current (by rw [hbegin])).elim
        fun _ ⟨_, _, _, _, hp⟩ => hp
    change ((if current.request.expiresAtEpochMs < t.nowMs then
        expireRequest sys i c current t.nowMs
      else judgeRequest sys i c approved principal reason ttlSeconds current t.nowMs).run t) =
        (.error e, s') at h
    split_ifs at h with hexpired
    · -- the request ran out
      refine ⟨_, ?_, (settles_expiredRecord hcurrent t.nowMs).not_pending⟩
      have hkeep : (((expireRequest sys i c current t.nowMs).run t).2.brokers i).records c =
          some (expiredRecord current t.nowMs) :=
        run_settleRecord (keepsRecord_bind (keepsRecord_updateProvider c _)
          fun _ => keepsRecord_raise _) t
      rwa [h] at hkeep
    · rw [judgeRequest, run_step_bind] at h
      rcases authorize_cases sys i principal current.request t with
        ⟨e', w, hauth⟩ | ⟨w, hauth | hauth⟩
      · rw [hauth] at h
        cases h
        exact (not_failedSince hfailed htrace nofun).elim
      all_goals
        rw [hauth] at h
        rcases hrecord : decisionRecord current approved (sys.subject principal) reason t.nowMs with
          e' | record
        · rw [hrecord] at h
          cases h
          first
          | exact (not_failedSince hfailed htrace nofun).elim
          | exact (not_failedSince hfailed rfl nofun).elim
        · rw [hrecord] at h
          refine ⟨record, ?_, (settles_decisionRecord hcurrent hrecord).1.not_pending⟩
          have hkeep : (s'.brokers i).records c = some record := by
            rw [show s' = (Except.error e, s').2 from rfl, ← h]
            exact run_settleRecord (keepsRecord_concludeDecide c approved record principal t.nowMs
              ttlSeconds) _
          exact hkeep

/-- A `decide` that raises because the repository or the provider failed is
never undone; the broker refuses every further `decide` of the checkpoint. -/
theorem failed_decide_not_undone {c : Str} {approved : Bool} {principal : P} {reason : Str}
    {ttlSeconds : Option Int} {s s' : ApprovalState W P} {e : PyExc}
    (h : (ApprovalBroker.decide sys i c approved principal reason ttlSeconds).run s =
      (.error e, s')) (hfailed : FailedSince i e s s') :
    ¬ Undone sys i c approved principal reason ttlSeconds s s' ∧
      ∀ (sys' : ApprovalSystem W P) (approved' : Bool) (principal' : P) (reason' : Str)
        (ttlSeconds' : Option Int) (u : ApprovalState W P), u.brokers i = s'.brokers i →
        ((ApprovalBroker.decide sys' i c approved' principal' reason' ttlSeconds').run u).1 =
          .error alreadyDecided := by
  obtain ⟨⟨record, hmem, hstatus⟩, hbefore⟩ := decide_failed h hfailed
  constructor
  · intro hundone
    rw [hundone.records] at hmem
    exact hstatus (hbefore record hmem)
  · intro sys' approved' principal' reason' ttlSeconds' u hu
    rw [← hu] at hmem
    exact decide_decided hmem hstatus approved' principal' reason' ttlSeconds'

/-- Brokers whose provider accepts requests and refuses updates. -/
def unavailableSystem : ApprovalSystem Unit Str where
  config _ := ⟨⟨fun _ => pure (lit "ticket"),
    fun _ => .raise (.runtimeError (lit "Approval integration is unavailable"))⟩, lit "org",
    lit "prod", lit "agent", lit "bob", none⟩
  repository := none
  database := pure ()
  uuid4 := pure (lit "request")
  subject := id

/-- The approval of a submitted request, whose update the provider refuses. -/
def failedApproval : Except PyExc ApprovalRecord × ApprovalState Unit Str :=
  (ApprovalBroker.decide unavailableSystem 0 (lit "cp") true (lit "alice") [] none).run
    (performAll unavailableSystem [(0, sampleCall)] freshState)

theorem failed_decide_not_undone_sample :
    ¬ Undone unavailableSystem 0 (lit "cp") true (lit "alice") [] none
      (performAll unavailableSystem [(0, sampleCall)] freshState) failedApproval.2 :=
  (failed_decide_not_undone (e := .runtimeError (lit "Approval integration is unavailable"))
    rfl ⟨failedApproval.2.trace.tail.take 2, rfl⟩).1

theorem failedUpdate_counterexample :
    ¬ ∀ (sys : ApprovalSystem Unit Str) (i : ℕ) (c : Str) (approved : Bool) (principal : Str)
      (reason : Str) (ttlSeconds : Option Int) (s s' : ApprovalState Unit Str) (e : PyExc),
      (ApprovalBroker.decide sys i c approved principal reason ttlSeconds).run s =
        (.error e, s') → FailedSince i e s s' →
      Undone sys i c approved principal reason ttlSeconds s s' := by
  intro h
  have hundone := h unavailableSystem 0 (lit "cp") true (lit "alice") [] none
    (performAll unavailableSystem [(0, sampleCall)] freshState) failedApproval.2
    (.runtimeError (lit "Approval integration is unavailable")) rfl
    ⟨failedApproval.2.trace.tail.take 2, rfl⟩
  exact hundone.retry rfl

end ApprovalBroker

end AgentRoi
