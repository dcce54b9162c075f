/-
How a run of `SentinelRunner` ends, with the entries it makes.

* `RunnerPayload` — the events of the runner itself, with their payloads;
* `StartEnds`, `SuccessEnds`, `ApprovalEnds`, `FailureEnds` — how each of its
  methods ends; `start_ends`, `success_ends`, `approvalResult_ends`,
  `failure_ends`;
* `RunEnds` — how a run ends; `run_ends`, `arun_ends`.

Lists of entries stand newest first.
-/
import AgentRoi.RunnerOperations

namespace AgentRoi

open ContextState RunnerJournal SentinelRunner

variable {F W C α β : Type}

/-! ### The kinds of entries -/

namespace LogEntry

/-- None of the entries whose outcome decides how a run ends. -/
structure Ordinary (entry : LogEntry F) : Prop where
  started : entry.eventType ≠ lit "run_started"
  failed : entry.eventType ≠ lit "run_failed"
  completed : entry.eventType ≠ lit "run_completed"
  awaited : ¬(entry.eventType = lit "decision_made" ∧
    dictGet (lit "reason") entry.payload = some (.str (lit "approval_required")))

/-- The decision of a run that awaits approval. -/
structure Awaits (entry : LogEntry F) : Prop where
  eventType : entry.eventType = lit "decision_made"
  reason : dictGet (lit "reason") entry.payload = some (.str (lit "approval_required"))

/-- The event that closes a run. -/
structure Completes (entry : LogEntry F) (status : Str) : Prop where
  eventType : entry.eventType = lit "run_completed"
  payload : ∃ elapsed snapshot, entry.payload = completedPayload status elapsed snapshot

end LogEntry

variable [PyFloat F]

/-- The events of the runner itself, with their payloads. -/
inductive RunnerPayload (runner : SentinelRunner F W C) (fresh : FreshRun) : Str → PyDict F → Prop
  | started {inputType shown s}
      (hshown : shown = [] ∨ ∃ text, shown = [(lit "input_preview", .str text)]) :
      RunnerPayload runner fresh (lit "run_started")
        (runner.startedPayload fresh inputType shown ((runner.newContext fresh).snapshot s))
  | output {typeName shown}
      (hshown : shown = [] ∨ ∃ text, shown = [(lit "output_preview", .str text)]) :
      RunnerPayload runner fresh (lit "agent_output") (outputPayload typeName shown)
  | decided {inputs confidence outcome} : RunnerPayload runner fresh (lit "decision_made")
      (runner.decidedPayload inputs confidence outcome)
  | awaited {checkpoint} : RunnerPayload runner fresh (lit "decision_made")
      (runner.awaitedPayload checkpoint)
  | failed {e elapsed s} : RunnerPayload runner fresh (lit "run_failed")
      (failedPayload e elapsed ((runner.newContext fresh).snapshot s))
  | completed {status elapsed s} : RunnerPayload runner fresh (lit "run_completed")
      (completedPayload status elapsed ((runner.newContext fresh).snapshot s))

theorem RunnerPayload.name_mem {runner : SentinelRunner F W C} {fresh : FreshRun}
    {eventType : Str} {payload : PyDict F} (h : RunnerPayload runner fresh eventType payload) :
    eventType ∈ [lit "run_started", lit "agent_output", lit "decision_made", lit "run_failed",
      lit "run_completed"] := by
  cases h with
  | started => simp
  | output => simp
  | decided => simp
  | awaited => simp
  | failed => simp
  | completed => simp

/-- The events of a run. -/
def RunPayload (runner : SentinelRunner F W C) (fresh : FreshRun) (eventType : Str)
    (payload : PyDict F) : Prop :=
  (runner.newContext fresh).ContextPayload eventType payload ∨
    RunnerPayload runner fresh eventType payload

variable {runner : SentinelRunner F W C} {fresh : FreshRun}
  {s t u : ContextState F W C (RunnerJournal F)}

omit [PyFloat F] in
/-- The names of the other events. -/
theorem ordinary_of_name {entry : LogEntry F} {name : Str} (h : entry.eventType = name)
    (hname : name ∉ [lit "run_started", lit "run_failed", lit "run_completed", lit "decision_made"]) :
    entry.Ordinary := by
  subst h
  simp only [List.mem_cons, List.not_mem_nil, or_false, not_or] at hname
  exact ⟨hname.1, hname.2.1, hname.2.2.1, fun hboth => hname.2.2.2 hboth.1⟩

/-- The events of a context decide nothing about the end of a run. -/
theorem ordinary_of_contextPayload {entry : LogEntry F}
    (h : (runner.newContext fresh).ContextPayload entry.eventType entry.payload) :
    entry.Ordinary := by
  generalize htype : entry.eventType = eventType at h
  generalize entry.payload = payload at h
  cases h with
  | decision h =>
    rcases h with rfl | rfl
    · exact ordinary_of_name htype (by decide)
    · exact ordinary_of_name htype (by decide)
  | missingPrincipal => exact ordinary_of_name htype (by decide)
  | granted => exact ordinary_of_name htype (by decide)
  | required => exact ordinary_of_name htype (by decide)
  | tool _ hdetail =>
    cases hdetail with
    | requested => exact ordinary_of_name htype (by decide)
    | authorized => exact ordinary_of_name htype (by decide)
    | started => exact ordinary_of_name htype (by decide)
    | failed => exact ordinary_of_name htype (by decide)
    | completed => exact ordinary_of_name htype (by decide)

/-! ### A step that logs -/

/-- The counters and the trace stay; the journal gets the entries `new`. -/
structure Writes (runner : SentinelRunner F W C) (fresh : FreshRun)
    (s t : ContextState F W C (RunnerJournal F)) (new : List (LogEntry F)) : Prop where
  trace : t.trace = s.trace
  costUsd : t.costUsd = s.costUsd
  addedCosts : t.addedCosts = s.addedCosts
  extends_ : ∃ given, Extends runner fresh (RunnerPayload runner fresh) s.journal t.journal new given

theorem Writes.refl (s : ContextState F W C (RunnerJournal F)) : Writes runner fresh s s [] :=
  ⟨rfl, rfl, rfl, [], .refl _⟩

theorem Writes.trans {new more : List (LogEntry F)} (h : Writes runner fresh s t new)
    (h' : Writes runner fresh t u more) : Writes runner fresh s u (more ++ new) := by
  obtain ⟨given, hgiven⟩ := h.extends_
  obtain ⟨given', hgiven'⟩ := h'.extends_
  exact ⟨h'.trace.trans h.trace, h'.costUsd.trans h.costUsd, h'.addedCosts.trans h.addedCosts, _,
    hgiven.trans hgiven'⟩

variable (runner fresh) in
/-- A call of `logShown`, and how it ends. -/
theorem logShown_cases (eventType : Str) (payload : PyDict F → PyDict F)
    (hp : ∀ s, RunnerPayload runner fresh eventType (payload ((runner.newContext fresh).snapshot s)))
    (s : ContextState F W C (RunnerJournal F)) :
    ∃ entry t, entry.eventType = eventType ∧
      entry.payload = payload ((runner.newContext fresh).snapshot s) ∧
      Writes runner fresh s t [entry] ∧ t.steps = s.steps ∧ t.toolCalls = s.toolCalls ∧
      ((entry.result = .ok () ∧ runner.logShown fresh eventType payload s = (.ok (), t)) ∨
        ∃ e, entry.result = .error e ∧
          runner.logShown fresh eventType payload s = (.error e, t)) := by
  obtain ⟨entry, given, hstep⟩ := log_step runner fresh eventType
    (payload ((runner.newContext fresh).snapshot s)) (s.outside, s.journal)
  have hresult : entry.result = (runner.logShown fresh eventType payload s).1 := hstep.result
  refine ⟨entry, (runner.logShown fresh eventType payload s).2, hstep.eventType, hstep.payload,
    ⟨rfl, rfl, rfl, given, hstep.extends (hp s)⟩, rfl, rfl, ?_⟩
  rcases hrun : runner.logShown fresh eventType payload s with ⟨e | ⟨⟨⟩⟩, t⟩
  · rw [hrun] at hresult
    exact .inr ⟨e, hresult, rfl⟩
  · rw [hrun] at hresult
    exact .inl ⟨hresult, rfl⟩

theorem readCounter_eq (s : ContextState F W C (RunnerJournal F)) :
    (runner.newContext fresh).readCounter s =
      (.ok (runner.perfCounter s.outside).1, setOutside s (runner.perfCounter s.outside).2) := rfl

variable (runner fresh) in
theorem writes_setOutside (s : ContextState F W C (RunnerJournal F)) (w : W) :
    Writes runner fresh s (setOutside s w) [] := ⟨rfl, rfl, rfl, [], .refl _⟩

/-! ### How the methods end -/

/-- The preview of the input cannot be shown. -/
def SentinelRunner.Unshown (runner : SentinelRunner F W C) (input : PyVal F) : Prop :=
  ∃ e, runner.preview runner.captureInput (lit "input_preview") input = .error e

/-- How `_start` ends. -/
inductive StartEnds {R : Type} : Except PyExc R → List (LogEntry F) → Prop
  | unshown {e : PyExc} : StartEnds (.error e) []
  | stopped {e : PyExc} {first : LogEntry F} (hfirst : first.eventType = lit "run_started")
      (hresult : first.result = .error e) : StartEnds (.error e) [first]
  | started {a : R} {first : LogEntry F} (hfirst : first.eventType = lit "run_started")
      (hresult : first.result = .ok ()) : StartEnds (.ok a) [first]

/-- How `_success` ends. -/
inductive SuccessEnds {R : Type} : Except PyExc R → List (LogEntry F) → Prop
  | stopped {e : PyExc} {new : List (LogEntry F)} (hnew : ∀ entry ∈ new, entry.Ordinary) :
      SuccessEnds (.error e) new
  | raised {e : PyExc} {last : LogEntry F} {new : List (LogEntry F)}
      (hnew : ∀ entry ∈ new, entry.Ordinary) (hlast : last.Completes (lit "ok"))
      (hresult : last.result = .error e) : SuccessEnds (.error e) (last :: new)
  | ended {a : R} {last : LogEntry F} {new : List (LogEntry F)}
      (hnew : ∀ entry ∈ new, entry.Ordinary) (hlast : last.Completes (lit "ok"))
      (hresult : last.result = .ok ()) : SuccessEnds (.ok a) (last :: new)

/-- How `_approval_result` ends. -/
inductive ApprovalEnds {R : Type} : Except PyExc R → List (LogEntry F) → Prop
  | stopped {e : PyExc} {decision : LogEntry F} (hdecision : decision.Awaits)
      (hresult : decision.result = .error e) : ApprovalEnds (.error e) [decision]
  | raised {e : PyExc} {last decision : LogEntry F} (hdecision : decision.Awaits)
      (hdecided : decision.result = .ok ()) (hlast : last.Completes (lit "pending_approval"))
      (hresult : last.result = .error e) : ApprovalEnds (.error e) [last, decision]
  | ended {a : R} {last decision : LogEntry F} (hdecision : decision.Awaits)
      (hdecided : decision.result = .ok ()) (hlast : last.Completes (lit "pending_approval"))
      (hresult : last.result = .ok ()) : ApprovalEnds (.ok a) [last, decision]

/-- How `_failure` ends. -/
inductive FailureEnds {R : Type} : Except PyExc R → List (LogEntry F) → Prop
  | stopped {e : PyExc} {failed : LogEntry F} (hfailed : failed.eventType = lit "run_failed")
      (hresult : failed.result = .error e) : FailureEnds (.error e) [failed]
  | raised {e : PyExc} {last failed : LogEntry F} (hfailed : failed.eventType = lit "run_failed")
      (hreported : failed.result = .ok ()) (hlast : last.Completes (lit "error"))
      (hresult : last.result = .error e) : FailureEnds (.error e) [last, failed]
  | ended {a : R} {last failed : LogEntry F} (hfailed : failed.eventType = lit "run_failed")
      (hreported : failed.result = .ok ()) (hlast : last.Completes (lit "error"))
      (hresult : last.result = .ok ()) : FailureEnds (.ok a) [last, failed]

/-- A capture is shown under its key, or not at all. -/
theorem preview_eq_ok {capture : Bool} {key : Str} {value : PyVal F} {shown : PyDict F}
    (h : runner.preview capture key value = .ok shown) :
    shown = [] ∨ ∃ text, shown = [(key, .str text)] := by
  unfold preview at h
  split at h
  · obtain ⟨redacted, -, h⟩ := except_bind_eq_ok.mp h
    obtain ⟨rendered, -, h⟩ := except_bind_eq_ok.mp h
    exact .inr ⟨rendered, (Except.ok.inj h).symm⟩
  · exact .inl (Except.ok.inj h).symm

variable (runner fresh) in
/-- The first step of a run is within the limits. -/
theorem bumpStep_newState (hsteps : s.steps = 0) (hcalls : s.toolCalls = 0) (hcost : s.costUsd = 0) :
    (runner.newContext fresh).bumpStep s = (.ok (), { s with steps := s.steps + 1 }) := by
  have hlimits : (runner.newContext fresh).checkLimits (s.steps + 1) s.toolCalls s.costUsd = .ok () := by
    rw [hsteps, hcalls, hcost]
    refine Guardrails.validateLimits_eq_ok.mpr ⟨by decide, by decide, le_refl 0, ?_, ?_, ?_⟩
    · exact runner.guardrails.maxSteps_pos
    · exact runner.guardrails.maxToolCalls_nonneg
    · exact runner.guardrails.maxCostUsd_nonneg
  rw [ContextConfig.bumpStep, PyM.get_bind, hlimits]
  rfl

variable (runner fresh) in
theorem start_ends (input : PyVal F) (inputType : Str) (hsteps : s.steps = 0)
    (hcalls : s.toolCalls = 0) (hcost : s.costUsd = 0) :
    ∃ new, StartEnds (runner.start fresh input inputType s).1 new ∧
      Writes runner fresh s (runner.start fresh input inputType s).2 new ∧
      (new = [] ↔ runner.Unshown input) := by
  have hwrites := writes_setOutside runner fresh s
    (runner.perfCounter s.outside).2
  rw [start, PyM.bind_of_ok (readCounter_eq s)]
  rcases hshown : runner.preview runner.captureInput (lit "input_preview") input with e | shown
  · exact ⟨[], .unshown, hwrites, iff_of_true rfl ⟨e, hshown⟩⟩
  · have hnot : ∀ entry : LogEntry F, [entry] = [] ↔ runner.Unshown input := by
      refine fun entry => iff_of_false nofun fun hunshown => ?_
      obtain ⟨e, he⟩ := hunshown
      rw [hshown] at he
      cases he
    rw [PyM.bind_of_ok (PyM.ofExcept_apply _ _)]
    obtain ⟨entry, t, htype, -, hentry, hsteps', hcalls', ⟨hresult, hlog⟩ | ⟨e, hresult, hlog⟩⟩ :=
      logShown_cases runner fresh (lit "run_started")
        (runner.startedPayload fresh inputType shown) (fun _ => .started (preview_eq_ok hshown)) (setOutside s (runner.perfCounter s.outside).2)
    · have hbump := bumpStep_newState runner fresh (hsteps'.trans hsteps)
        (hcalls'.trans hcalls) (hentry.costUsd.trans hcost)
      rw [PyM.bind_of_ok hlog, PyM.bind_of_ok hbump]
      refine ⟨[entry], .started htype hresult, ?_, hnot entry⟩
      obtain ⟨htrace, hcosts, hadded, given, hextends⟩ := hwrites.trans hentry
      exact ⟨htrace, hcosts, hadded, given, hextends⟩
    · rw [PyM.bind_of_error hlog]
      exact ⟨[entry], .stopped htype hresult, hwrites.trans hentry, hnot entry⟩

/-- A decision that gives no reason. -/
theorem reason_decidedPayload (inputs : Control.ConfidenceInputs) (confidence : ℚ)
    (outcome : Control.DecisionOutcome) :
    dictGet (lit "reason") (runner.decidedPayload inputs confidence outcome) = none := by
  have hconfidence : lit "confidence" ≠ lit "reason" := by decide
  have houtcome : lit "outcome" ≠ lit "reason" := by decide
  have hinputs : lit "inputs" ≠ lit "reason" := by decide
  simp only [decidedPayload, dictGet, if_neg hconfidence, if_neg houtcome, if_neg hinputs]

omit [PyFloat F] in
theorem ordinary_of_decision {entry : LogEntry F} (htype : entry.eventType = lit "decision_made")
    (hreason : dictGet (lit "reason") entry.payload = none) : entry.Ordinary := by
  refine ⟨?_, ?_, ?_, fun hboth => ?_⟩
  · rw [htype]
    decide
  · rw [htype]
    decide
  · rw [htype]
    decide
  · rw [hreason] at hboth
    cases hboth.2

variable (runner fresh s) in
theorem success_ends (started : ℚ) (agentReturn : AgentReturn F)
    (confidenceInputs : Option Control.ConfidenceInputs) :
    ∃ new, SuccessEnds (runner.success fresh started agentReturn confidenceInputs s).1 new ∧
      Writes runner fresh s (runner.success fresh started agentReturn confidenceInputs s).2 new := by
  rw [success]
  rcases hshown : runner.preview runner.captureOutput (lit "output_preview") agentReturn.output
    with e | shown
  · exact ⟨[], .stopped nofun, .refl s⟩
  rw [PyM.bind_of_ok (PyM.ofExcept_apply _ _)]
  -- the output is logged, then the decision, then the end; each call may raise
  obtain ⟨output, t, htype, -, houtput, -, -, hlog⟩ :=
    logShown_cases runner fresh (lit "agent_output")
      (fun _ => outputPayload agentReturn.typeName shown)
      (fun _ => .output (preview_eq_ok hshown)) s
  have hordinary : ∀ entry ∈ [output], entry.Ordinary := by
    intro entry hentry
    rw [List.mem_singleton.mp hentry]
    exact ordinary_of_name htype (by decide)
  rcases hlog with ⟨-, hlog⟩ | ⟨e, -, hlog⟩
  swap
  · rw [PyM.bind_of_error hlog]
    exact ⟨[output], .stopped hordinary, houtput⟩
  rw [PyM.bind_of_ok hlog]
  -- the score and the outcome come between, and may raise too
  generalize (confidenceInputs.orElse fun _ => agentReturn.confidence).getD
    ⟨none, none, none, none, none⟩ = inputs
  rcases runner.decisionPolicy.score runner.sigmoid inputs with e | confidence
  · exact ⟨[output], .stopped hordinary, houtput⟩
  rw [PyM.bind_of_ok (PyM.ofExcept_apply _ _)]
  rcases runner.decisionPolicy.decide runner.sigmoid inputs with e | outcome
  · exact ⟨[output], .stopped hordinary, houtput⟩
  rw [PyM.bind_of_ok (PyM.ofExcept_apply _ _), PyM.bind_of_ok (readCounter_eq t)]
  replace houtput := houtput.trans (writes_setOutside runner fresh t (runner.perfCounter t.outside).2)
  obtain ⟨decision, u, htype', hpayload, hdecision, -, -, hlog⟩ :=
    logShown_cases runner fresh (lit "decision_made")
      (fun _ => runner.decidedPayload inputs confidence outcome)
      (fun _ => .decided) (setOutside t (runner.perfCounter t.outside).2)
  have hdecided : ∀ entry ∈ [decision, output], entry.Ordinary := by
    refine List.forall_mem_cons.mpr ⟨ordinary_of_decision htype' ?_, hordinary⟩
    rw [hpayload]
    exact reason_decidedPayload inputs confidence outcome
  replace hdecision := houtput.trans hdecision
  rcases hlog with ⟨-, hlog⟩ | ⟨e, -, hlog⟩
  swap
  · rw [PyM.bind_of_error hlog]
    exact ⟨_, .stopped hdecided, hdecision⟩
  rw [PyM.bind_of_ok hlog]
  obtain ⟨last, v, htype'', hpayload', hlast, -, -, hlog⟩ :=
    logShown_cases runner fresh (lit "run_completed")
      (completedPayload (lit "ok")
        (ContextConfig.elapsedMs started (runner.perfCounter t.outside).1))
      (fun _ => .completed) u
  replace hlast := hdecision.trans hlast
  rcases hlog with ⟨hresult, hlog⟩ | ⟨e, hresult, hlog⟩
  · rw [PyM.bind_of_ok hlog]
    exact ⟨_, .ended hdecided ⟨htype'', _, _, hpayload'⟩ hresult, hlast⟩
  · rw [PyM.bind_of_error hlog]
    exact ⟨_, .raised hdecided ⟨htype'', _, _, hpayload'⟩ hresult, hlast⟩

variable (runner fresh s) in
theorem approvalResult_ends (started : ℚ) (checkpoint : Checkpoint) :
    ∃ new, ApprovalEnds (runner.approvalResult fresh started checkpoint s).1 new ∧
      Writes runner fresh s (runner.approvalResult fresh started checkpoint s).2 new := by
  have hwrites := writes_setOutside runner fresh s
    (runner.perfCounter s.outside).2
  rw [approvalResult, PyM.bind_of_ok (readCounter_eq s)]
  obtain ⟨decision, t, htype, hpayload, hdecision, -, -, hlog⟩ :=
    logShown_cases runner fresh (lit "decision_made")
      (fun _ => runner.awaitedPayload checkpoint)
      (fun _ => .awaited) (setOutside s (runner.perfCounter s.outside).2)
  have hawaits : decision.Awaits := ⟨htype, by rw [hpayload]; rfl⟩
  replace hdecision := hwrites.trans hdecision
  rcases hlog with ⟨hdecided, hlog⟩ | ⟨e, hresult, hlog⟩
  swap
  · rw [PyM.bind_of_error hlog]
    exact ⟨_, .stopped hawaits hresult, hdecision⟩
  rw [PyM.bind_of_ok hlog]
  obtain ⟨last, u, htype', hpayload', hlast, -, -, hlog⟩ :=
    logShown_cases runner fresh (lit "run_completed")
      (completedPayload (lit "pending_approval")
        (ContextConfig.elapsedMs started (runner.perfCounter s.outside).1))
      (fun _ => .completed) t
  replace hlast := hdecision.trans hlast
  rcases hlog with ⟨hresult, hlog⟩ | ⟨e, hresult, hlog⟩
  · rw [PyM.bind_of_ok hlog]
    exact ⟨_, .ended hawaits hdecided ⟨htype', _, _, hpayload'⟩ hresult, hlast⟩
  · rw [PyM.bind_of_error hlog]
    exact ⟨_, .raised hawaits hdecided ⟨htype', _, _, hpayload'⟩ hresult, hlast⟩

variable (runner fresh s) in
theorem failure_ends (started : ℚ) (e : PyExc) :
    ∃ new, FailureEnds (runner.failure fresh started e s).1 new ∧
      Writes runner fresh s (runner.failure fresh started e s).2 new := by
  have hwrites := writes_setOutside runner fresh s
    (runner.perfCounter s.outside).2
  rw [SentinelRunner.failure, PyM.bind_of_ok (readCounter_eq s)]
  obtain ⟨failed, t, htype, -, hfailed, -, -, hlog⟩ :=
    logShown_cases runner fresh (lit "run_failed")
      (failedPayload e (ContextConfig.elapsedMs started (runner.perfCounter s.outside).1))
      (fun _ => .failed) (setOutside s (runner.perfCounter s.outside).2)
  replace hfailed := hwrites.trans hfailed
  rcases hlog with ⟨hreported, hlog⟩ | ⟨e, hresult, hlog⟩
  swap
  · rw [PyM.bind_of_error hlog]
    exact ⟨_, .stopped htype hresult, hfailed⟩
  rw [PyM.bind_of_ok hlog]
  obtain ⟨last, u, htype', hpayload', hlast, -, -, hlog⟩ :=
    logShown_cases runner fresh (lit "run_completed")
      (completedPayload (lit "error")
        (ContextConfig.elapsedMs started (runner.perfCounter s.outside).1))
      (fun _ => .completed) t
  replace hlast := hfailed.trans hlast
  rcases hlog with ⟨hresult, hlog⟩ | ⟨e', hresult, hlog⟩
  · rw [hlog]
    exact ⟨_, .ended htype hreported ⟨htype', _, _, hpayload'⟩ hresult, hlast⟩
  · rw [hlog]
    exact ⟨_, .raised htype hreported ⟨htype', _, _, hpayload'⟩ hresult, hlast⟩

/-! ### How a run ends -/

variable [DecidableEq C]

/-- How the body of a run ends that is begun in `pool`: its agent performs its
operations, and if it returns, its return is a success. -/
inductive BodyEnds (runner : SentinelRunner F W C) (fresh : FreshRun) (pool : RunPool F W C) :
    Except PyExc (SentinelResult F) → RunPool F W C → Prop
  | failed {e : PyExc} {pool' : RunPool F W C} (h : Later runner fresh pool pool') :
      BodyEnds runner fresh pool (.error e) pool'
  | returned {started agentReturn confidenceInputs} {pool' : RunPool F W C}
      (h : Later runner fresh pool pool') :
      BodyEnds runner fresh pool
        (runner.success fresh started agentReturn confidenceInputs pool'.state).1
        { pool' with state := (runner.success fresh started agentReturn confidenceInputs pool'.state).2 }

section Bodies

variable {pool : RunPool F W C} {started : ℚ} {confidenceInputs : Option Control.ConfidenceInputs}

theorem later_of_follows {p : Proc (RunPool F W C) PyExc α}
    (h : ∀ pool, Proc.Follows (fun _ _ => True) (Later runner fresh) p pool)
    (pool : RunPool F W C) : Later runner fresh pool (p.run pool).2 :=
  (h pool).run (J := fun pool' => Later runner fresh pool pool') (fun _ => trivial)
    (fun _ _ hstep hpool => hpool.trans hstep) .refl

theorem awaitBody_ends {body : Proc (RunPool F W C) PyExc (AgentReturn F)}
    (h : ∀ pool, Proc.Follows (fun _ _ => True) (Later runner fresh) body pool)
    {start : RunPool F W C} (hstart : Later runner fresh start pool) :
    BodyEnds runner fresh start ((runner.awaitBody fresh confidenceInputs started body).run pool).1
      ((runner.awaitBody fresh confidenceInputs started body).run pool).2 := by
  have hlimited : ∀ pool, Proc.Follows (fun _ _ => True) (Later runner fresh)
      (runner.runTimeoutSeconds.elim body fun seconds => runner.waitFor.limit seconds body) pool := by
    cases runner.runTimeoutSeconds with
    | none => exact h
    | some seconds => exact runner.waitFor.follows _ seconds body h
  have hlater := later_of_follows hlimited pool
  rw [awaitBody, Proc.run_bind]
  rcases hrun : (runner.runTimeoutSeconds.elim body fun seconds =>
    runner.waitFor.limit seconds body).run pool with ⟨e | agentReturn, pool'⟩
  · rw [hrun] at hlater
    exact .failed (hstart.trans hlater)
  · rw [hrun] at hlater
    exact .returned (hstart.trans hlater)

theorem runBody_ends {call : Proc (RunPool F W C) PyExc (AgentCall F W C)}
    (h : (AgentFn.plain call).Performs runner fresh) (pool : RunPool F W C) :
    BodyEnds runner fresh pool ((runner.runBody fresh confidenceInputs started call).run pool).1
      ((runner.runBody fresh confidenceInputs started call).run pool).2 := by
  have hcall : ∀ pool, Proc.Follows (fun _ _ => True) (Later runner fresh) call pool :=
    fun pool => (h pool).imp fun _ _ _ _ => trivial
  have hlimited : ∀ pool, Proc.Follows (fun _ _ => True) (Later runner fresh)
      (runner.runTimeoutSeconds.elim call fun seconds => runner.hardSyncTimeout.limit seconds call)
      pool := by
    cases runner.runTimeoutSeconds with
    | none => exact hcall
    | some seconds => exact runner.hardSyncTimeout.follows _ seconds call hcall
  have hlater := later_of_follows hlimited pool
  rw [runBody, Proc.run_bind]
  rcases hrun : (runner.runTimeoutSeconds.elim call fun seconds =>
    runner.hardSyncTimeout.limit seconds call).run pool with ⟨e | result, pool'⟩
  · rw [hrun] at hlater
    exact .failed hlater
  rw [hrun] at hlater
  cases result with
  | value agentReturn => exact .returned hlater
  | awaitable body =>
    -- closing the awaitable is a step outside
    have hclose : Later runner fresh pool'
        { pool' with state := setOutside pool'.state (runner.close pool'.state.outside).2 } :=
      .single (.env ⟨⟨rfl, rfl, rfl, rfl, rfl⟩, rfl⟩)
    rcases hclosed : (onContext (onWorld runner.close) : PyM (RunPool F W C) Unit) pool' with
      ⟨e | ⟨⟨⟩⟩, pool''⟩
    · obtain rfl : _ = pool'' := congrArg Prod.snd hclosed
      have hrun := run_atomic_of_error (β := SentinelResult F) (f := fun _ => Proc.raise (.typeError
        (lit "Agent returned an awaitable; use SentinelRunner.arun(...)"))) hclosed
      simp only
      rw [hrun]
      exact .failed (hlater.trans hclose)
    · obtain rfl : _ = pool'' := congrArg Prod.snd hclosed
      have hrun := run_atomic_of_ok (β := SentinelResult F) (f := fun _ => Proc.raise (.typeError
        (lit "Agent returned an awaitable; use SentinelRunner.arun(...)"))) hclosed
      simp only
      rw [hrun]
      exact .failed (hlater.trans hclose)

theorem arunBody_ends {agent : AgentFn F W C} (h : agent.Performs runner fresh)
    (pool : RunPool F W C) :
    BodyEnds runner fresh pool ((runner.arunBody fresh confidenceInputs started agent).run pool).1
      ((runner.arunBody fresh confidenceInputs started agent).run pool).2 := by
  have hhere : Later runner fresh pool pool := .refl
  cases agent with
  | coroutine body => exact awaitBody_ends h hhere
  | plain call =>
    by_cases htimeout : runner.runTimeoutSeconds.isSome = true
    · rw [arunBody, if_pos htimeout]
      exact .failed hhere
    · rw [arunBody, if_neg htimeout, Proc.run_bind]
      have hcall : ∀ pool, Proc.Follows (fun _ _ => True) (Later runner fresh) call pool :=
        fun pool => (h pool).imp fun _ _ _ _ => trivial
      have hlater := later_of_follows hcall pool
      have hawaitable := ((h pool).run (fun _ => trivial) trivial).2
      rcases hrun : call.run pool with ⟨e | result, pool'⟩
      · rw [hrun] at hlater
        exact .failed hlater
      rw [hrun] at hlater hawaitable
      cases result with
      | value agentReturn => exact .returned hlater
      | awaitable body => exact awaitBody_ends (hawaitable body rfl) hlater

end Bodies

omit [PyFloat F] [DecidableEq C] in
/-- What the agent logs before it returns is ordinary as well. -/
theorem SuccessEnds.append {R : Type} {r : Except PyExc R} {new agent : List (LogEntry F)}
    (h : SuccessEnds r new) (hagent : ∀ entry ∈ agent, entry.Ordinary) :
    SuccessEnds r (new ++ agent) := by
  have hall : ∀ more : List (LogEntry F), (∀ entry ∈ more, entry.Ordinary) →
      ∀ entry ∈ more ++ agent, entry.Ordinary :=
    fun more hmore => List.forall_mem_append.mpr ⟨hmore, hagent⟩
  cases h with
  | stopped hnew => exact .stopped (hall _ hnew)
  | raised hnew hlast hresult => exact .raised (hall _ hnew) hlast hresult
  | ended hnew hlast hresult => exact .ended (hall _ hnew) hlast hresult

/-- How a run ends, with the entries that it makes. -/
inductive RunEnds {R : Type} : Except PyExc R → List (LogEntry F) → Prop
  | unstarted {e : PyExc} : RunEnds (.error e) []
  | stopped {e : PyExc} {first : LogEntry F} (hfirst : first.eventType = lit "run_started")
      (hresult : first.result = .error e) : RunEnds (.error e) [first]
  | succeeded {a : R} {first : LogEntry F} {new : List (LogEntry F)}
      (hfirst : first.eventType = lit "run_started") (hstarted : first.result = .ok ())
      (hbody : SuccessEnds (.ok a) new) : RunEnds (.ok a) (new ++ [first])
  | awaited {r : Except PyExc R} {e : PyExc} {first : LogEntry F} {new closing : List (LogEntry F)}
      (hfirst : first.eventType = lit "run_started") (hstarted : first.result = .ok ())
      (hbody : SuccessEnds (.error e : Except PyExc R) new) (hclosing : ApprovalEnds r closing) :
      RunEnds r (closing ++ (new ++ [first]))
  | failed {q : Except PyExc Unit} {e e' : PyExc} {first : LogEntry F}
      {new closing : List (LogEntry F)}
      (hfirst : first.eventType = lit "run_started") (hstarted : first.result = .ok ())
      (hbody : SuccessEnds (.error e : Except PyExc R) new) (hclosing : FailureEnds q closing) :
      RunEnds (.error e') (closing ++ (new ++ [first]))
  | interrupted {e : PyExc} {first : LogEntry F} {new : List (LogEntry F)}
      (hfirst : first.eventType = lit "run_started") (hstarted : first.result = .ok ())
      (hbody : SuccessEnds (.error e : Except PyExc R) new) (he : e.isException = false) :
      RunEnds (.error e) (new ++ [first])

/-- The parts of a run from `pool` to `pool'`: what surrounds its agent makes
entries, and between its first entry and the others the operations run. -/
inductive RunParts (runner : SentinelRunner F W C) (fresh : FreshRun) (input : PyVal F)
    (pool : RunPool F W C) (r : Except PyExc (SentinelResult F)) (pool' : RunPool F W C) : Prop
  | stopped {first : List (LogEntry F)} (hprocs : pool'.procs = pool.procs)
      (hshown : first = [] ↔ runner.Unshown input)
      (hfirst : Writes runner fresh pool.state pool'.state first) (hends : RunEnds r first)
  | ran {begun later : RunPool F W C} {first : LogEntry F} {closing : List (LogEntry F)}
      (hprocs : begun.procs = pool.procs) (hshown : ¬runner.Unshown input)
      (hfirst : Writes runner fresh pool.state begun.state [first])
      (hlater : Later runner fresh begun later) (hprocs' : pool'.procs = later.procs)
      (hclosing : Writes runner fresh later.state pool'.state closing)
      (hends : ∀ agent : List (LogEntry F), (∀ entry ∈ agent, entry.Ordinary) →
        RunEnds r (closing ++ (agent ++ [first])))

omit [PyFloat F] [DecidableEq C] in
/-- What a step of the runner does to the pool. -/
theorem onContext_apply (x : PyM (ContextState F W C (RunnerJournal F)) α) (pool : RunPool F W C) :
    onContext x pool = ((x pool.state).1, { pool with state := (x pool.state).2 }) := rfl

section Runs

variable {pool begun : RunPool F W C} {started : ℚ} {input : PyVal F}

/-- How the body of a run ends, with the entries of its agent left open. -/
theorem BodyEnds.parts {r : Except PyExc (SentinelResult F)} {pool' : RunPool F W C}
    (h : BodyEnds runner fresh begun r pool') : ∃ later new, Later runner fresh begun later ∧
      pool'.procs = later.procs ∧ Writes runner fresh later.state pool'.state new ∧
      SuccessEnds r new := by
  cases h with
  | @failed e pool' hlater => exact ⟨pool', [], hlater, rfl, .refl _, .stopped nofun⟩
  | @returned started agentReturn confidenceInputs later hlater =>
    obtain ⟨new, hends, hwrites⟩ := success_ends runner fresh later.state started
      agentReturn confidenceInputs
    exact ⟨later, new, hlater, rfl, hwrites, hends⟩

/-- What follows the first entry of a run. -/
theorem concluded_parts {body : Proc (RunPool F W C) PyExc (SentinelResult F)} {first : LogEntry F}
    (hfirst : first.eventType = lit "run_started") (hstarted : first.result = .ok ())
    (hprocs : begun.procs = pool.procs) (hshown : ¬runner.Unshown input)
    (hwrites : Writes runner fresh pool.state begun.state [first])
    (hbody : BodyEnds runner fresh begun (body.run begun).1 (body.run begun).2) :
    RunParts runner fresh input pool ((runner.concluded fresh started body).run begun).1
      ((runner.concluded fresh started body).run begun).2 := by
  obtain ⟨later, new, hlater, hprocs', hnew, hends⟩ := hbody.parts
  rw [concluded, Proc.run_bind, Proc.run_attempt]
  rcases hrun : body.run begun with ⟨e | result, ended⟩
  swap
  · rw [hrun] at hprocs' hnew hends
    exact .ran hprocs hshown hwrites hlater hprocs' hnew fun agent hagent => by
      rw [← List.append_assoc]
      exact .succeeded hfirst hstarted (hends.append hagent)
  rw [hrun] at hprocs' hnew hends
  -- the entries of the handler stand after those of the body
  have hbodied : ∀ agent : List (LogEntry F), (∀ entry ∈ agent, entry.Ordinary) →
      SuccessEnds (.error e : Except PyExc (SentinelResult F)) (new ++ agent) :=
    fun agent hagent => hends.append hagent
  have hjoin : ∀ closing agent : List (LogEntry F),
      (closing ++ new) ++ (agent ++ [first]) = closing ++ ((new ++ agent) ++ [first]) := by
    intro closing agent
    simp only [List.append_assoc]
  have hawaited : ∀ checkpoint, RunParts runner fresh input pool
      (onContext (runner.approvalResult fresh started checkpoint) ended).1
      (onContext (runner.approvalResult fresh started checkpoint) ended).2 := by
    intro checkpoint
    obtain ⟨closing, hclosing, hgrown⟩ := approvalResult_ends runner fresh ended.state started
      checkpoint
    exact .ran hprocs hshown hwrites hlater hprocs' (hnew.trans hgrown) fun agent hagent => by
      rw [hjoin]
      exact .awaited hfirst hstarted (hbodied agent hagent) hclosing
  have hreported : ∀ e', RunParts runner fresh input pool (.error e')
      (onContext (runner.failure fresh started e) ended).2 := by
    intro e'
    obtain ⟨closing, hclosing, hgrown⟩ := failure_ends runner fresh ended.state started e
    exact .ran hprocs hshown hwrites hlater hprocs' (hnew.trans hgrown) fun agent hagent => by
      rw [hjoin]
      exact .failed hfirst hstarted (hbodied agent hagent) hclosing
  have hfailed : RunParts runner fresh input pool
      ((if e.isException then do
        Proc.atomic (onContext (runner.failure fresh started e))
        (Proc.raise e : Proc (RunPool F W C) PyExc (SentinelResult F))
      else .raise e).run ended).1
      ((if e.isException then do
        Proc.atomic (onContext (runner.failure fresh started e))
        (Proc.raise e : Proc (RunPool F W C) PyExc (SentinelResult F))
      else .raise e).run ended).2 := by
    by_cases he : e.isException = true
    · rw [if_pos he]
      rcases hfail : onContext (runner.failure fresh started e) ended with ⟨e' | ⟨⟨⟩⟩, pool'⟩
      · have hreport := hreported e'
        rw [hfail] at hreport
        rw [run_atomic_of_error hfail]
        exact hreport
      · have hreport := hreported e
        rw [hfail] at hreport
        rw [run_atomic_of_ok hfail]
        exact hreport
    · rw [if_neg he]
      exact .ran hprocs hshown hwrites hlater hprocs' hnew fun agent hagent => by
        rw [← List.append_assoc]
        exact .interrupted hfirst hstarted (hbodied agent hagent) (Bool.eq_false_iff.mpr he)
  cases e with
  | humanApprovalRequired checkpoint => exact hawaited checkpoint
  | _ => exact hfailed

variable {inputType : Str} {confidenceInputs : Option Control.ConfidenceInputs}

/-- A run that begins with `_start`. -/
theorem start_parts {body : ℚ → Proc (RunPool F W C) PyExc (SentinelResult F)}
    (hsteps : pool.state.steps = 0) (hcalls : pool.state.toolCalls = 0)
    (hcost : pool.state.costUsd = 0)
    (hbody : ∀ started begun, BodyEnds runner fresh begun ((body started).run begun).1
      ((body started).run begun).2) :
    RunParts runner fresh input pool
      ((do
        let started ← Proc.atomic (onContext (runner.start fresh input inputType))
        runner.concluded fresh started (body started)).run pool).1
      ((do
        let started ← Proc.atomic (onContext (runner.start fresh input inputType))
        runner.concluded fresh started (body started)).run pool).2 := by
  obtain ⟨new, hends, hwrites, hshown⟩ := start_ends runner fresh input inputType hsteps
    hcalls hcost
  rcases hstart : runner.start fresh input inputType pool.state with ⟨e | started, t⟩
  · have hrun : onContext (runner.start fresh input inputType) pool =
        (.error e, { pool with state := t }) := by
      rw [onContext_apply, hstart]
    rw [hstart] at hends hwrites
    rw [run_atomic_of_error hrun]
    cases hends with
    | unshown => exact .stopped rfl hshown hwrites .unstarted
    | stopped hfirst hresult => exact .stopped rfl hshown hwrites (.stopped hfirst hresult)
  · have hrun : onContext (runner.start fresh input inputType) pool =
        (.ok started, { pool with state := t }) := by
      rw [onContext_apply, hstart]
    rw [hstart] at hends hwrites
    rw [run_atomic_of_ok hrun]
    cases hends with
    | started hfirst hresult =>
      exact concluded_parts hfirst hresult rfl (fun h => List.cons_ne_nil _ _ (hshown.mpr h))
        hwrites (hbody started { pool with state := t })

/-- The parts of `run`. -/
theorem run_parts {call : Proc (RunPool F W C) PyExc (AgentCall F W C)}
    (h : (AgentFn.plain call).Performs runner fresh) (hsteps : pool.state.steps = 0)
    (hcalls : pool.state.toolCalls = 0) (hcost : pool.state.costUsd = 0) :
    RunParts runner fresh input pool
      ((runner.run fresh input inputType confidenceInputs (.plain call)).run pool).1
      ((runner.run fresh input inputType confidenceInputs (.plain call)).run pool).2 :=
  start_parts hsteps hcalls hcost fun _ => runBody_ends h

/-- The parts of `arun`. -/
theorem arun_parts {agent : AgentFn F W C} (h : agent.Performs runner fresh)
    (hsteps : pool.state.steps = 0) (hcalls : pool.state.toolCalls = 0)
    (hcost : pool.state.costUsd = 0) :
    RunParts runner fresh input pool
      ((runner.arun fresh input inputType confidenceInputs agent).run pool).1
      ((runner.arun fresh input inputType confidenceInputs agent).run pool).2 :=
  start_parts hsteps hcalls hcost fun _ => arunBody_ends h

/-- What a run makes of the journal: the sinks are given the events of its
entries, and each operation that is left goes on to tell of itself. -/
theorem RunParts.extends {r : Except PyExc (SentinelResult F)} {pool' : RunPool F W C}
    (hfollow : pool.Follow (Tells runner fresh)) (h : RunParts runner fresh input pool r pool') :
    pool'.Follow (Tells runner fresh) ∧ ∃ new given,
      Extends runner fresh (RunPayload runner fresh) pool.state.journal pool'.state.journal new
        given ∧ RunEnds r new ∧ (new = [] ↔ runner.Unshown input) := by
  have hsame : ∀ {left right : RunPool F W C}, right.procs = left.procs →
      left.Follow (Tells runner fresh) → right.Follow (Tells runner fresh) := by
    intro left right hprocs hleft i p s hp
    exact hleft i p s (hprocs ▸ hp)
  cases h with
  | @stopped first hprocs hshown hfirst hends =>
    obtain ⟨given, hextends⟩ := hfirst.extends_
    exact ⟨hsame hprocs hfollow, first, given, hextends.imp fun _ _ => .inr, hends, hshown⟩
  | @ran begun later first closing hprocs hshown hfirst hlater hprocs' hclosing hends =>
    obtain ⟨hlast, agent, given, hagent⟩ := later_extends (hsame hprocs hfollow) hlater
    obtain ⟨given₁, hbefore⟩ := hfirst.extends_
    obtain ⟨given₂, hafter⟩ := hclosing.extends_
    have hordinary : ∀ entry ∈ agent, entry.Ordinary := fun entry hentry =>
      ordinary_of_contextPayload (hagent.logged entry hentry).2
    refine ⟨hsame hprocs' hlast, closing ++ (agent ++ [first]), given₂ ++ (given ++ given₁), ?_,
      hends agent hordinary, iff_of_false ?_ hshown⟩
    · exact ((hbefore.imp fun _ _ => .inr).trans (hagent.imp fun _ _ => .inl)).trans
        (hafter.imp fun _ _ => .inr)
    · exact List.append_ne_nil_of_right_ne_nil _
        (List.append_ne_nil_of_right_ne_nil _ (List.cons_ne_nil _ _))

end Runs

/-! ### Whole runs -/

/-- A call of `run` or `arun` that starts a run. -/
inductive StartsRun (runner : SentinelRunner F W C) (fresh : FreshRun) (input : PyVal F) :
    Proc (RunPool F W C) PyExc (SentinelResult F) → Prop
  | run {inputType confidenceInputs} {call : Proc (RunPool F W C) PyExc (AgentCall F W C)}
      (h : (AgentFn.plain call).Performs runner fresh) :
      StartsRun runner fresh input (runner.run fresh input inputType confidenceInputs (.plain call))
  | arun {inputType confidenceInputs} {agent : AgentFn F W C} (h : agent.Performs runner fresh) :
      StartsRun runner fresh input (runner.arun fresh input inputType confidenceInputs agent)

variable {input : PyVal F} {call : Proc (RunPool F W C) PyExc (SentinelResult F)}
  {breakers : ℕ → BreakerMemory} {stores : ℕ → IdempotencyStore F} {outside : W}

variable (breakers stores outside) in
theorem StartsRun.parts (h : StartsRun runner fresh input call) :
    RunParts runner fresh input (newPool breakers stores outside)
      (call.run (newPool breakers stores outside)).1
      (call.run (newPool breakers stores outside)).2 := by
  cases h with
  | run h => exact run_parts h rfl rfl rfl
  | arun h => exact arun_parts h rfl rfl rfl

omit [DecidableEq C] in
theorem follow_newPool :
    (newPool breakers stores outside : RunPool F W C).Follow (Tells runner fresh) := by
  intro i p s hp
  cases hp

variable (breakers stores outside) in
/-- A run that starts in a new context. -/
theorem StartsRun.extends (h : StartsRun runner fresh input call) :
    (call.run (newPool breakers stores outside)).2.Follow (Tells runner fresh) ∧ ∃ new given,
      Extends runner fresh (RunPayload runner fresh) ⟨[], [], []⟩
        (call.run (newPool breakers stores outside)).2.state.journal new given ∧
      RunEnds (call.run (newPool breakers stores outside)).1 new ∧
      (new = [] ↔ runner.Unshown input) :=
  (h.parts breakers stores outside).extends follow_newPool

/-- What the journal holds after a run, and after what its agent left running. -/
theorem StartsRun.extends_later {ended pool : RunPool F W C}
    {r : Except PyExc (SentinelResult F)} (h : StartsRun runner fresh input call)
    (hrun : call.run (newPool breakers stores outside) = (r, ended))
    (hlater : Later runner fresh ended pool) :
    ∃ new given, Extends runner fresh (RunPayload runner fresh) ⟨[], [], []⟩ pool.state.journal new
      given := by
  obtain ⟨hfollow, new, given, hextends, -⟩ := h.extends
    breakers stores outside
  rw [hrun] at hfollow hextends
  obtain ⟨-, more, others, hmore⟩ := later_extends hfollow hlater
  exact ⟨_, _, hextends.trans (hmore.imp fun _ _ => .inl)⟩

/-! ### The run of an agent that returns at once -/

theorem performs_idleAgent (runner : SentinelRunner Half Unit Bool) (fresh : FreshRun) :
    idleAgent.Performs runner fresh := by
  intro pool
  refine Proc.safe_pure fun _ _ _ body hbody => ?_
  cases hbody

theorem startsRun_idle (runner : SentinelRunner Half Unit Bool) :
    StartsRun runner firstRun .none (runner.run firstRun .none (lit "NoneType") none idleAgent) :=
  .run (performs_idleAgent runner firstRun)

theorem run_idleAgent (runner : SentinelRunner Half Unit Bool) :
    (runner.run firstRun .none (lit "NoneType") none idleAgent).run
      (newPool newContextState.breakers newContextState.stores ()) =
        ((idleRun runner).1, (idleRun runner).2) := rfl

end AgentRoi
