/-
`SentinelRunner` of `agent_roi.runtime.executor`.

* `Recorder`, `RunnerSink` — an audit store and an event sink, as the runner
  uses them;
* `SentinelRunner.log` — `_log`: an event is redacted, recorded, and emitted to
  the sinks; the journal remembers every call of it and what became of it;
* `start`, `success`, `approvalResult`, `failure` — what surrounds an agent;
* `AgentFn` — an agent is a program that performs operations of its context,
  any number at a time;
* `run`, `arun` — whole runs.

What surrounds the agent has no `await`, so it is a step each.  A run that is
timed out stops between two steps.  The metadata are what `deepcopy` makes of
what the runner was given; a value it refuses to copy (a `MappingProxyType`, a
lock) ends the run before its first event.
-/
import AgentRoi.AuditStore
import AgentRoi.DecisionPolicy
import AgentRoi.Redaction
import AgentRoi.Telemetry
import AgentRoi.ToolRuns

namespace AgentRoi

open ContextState

variable {F W C α : Type}

/-! ### The store and the sinks -/

/-- The fields of a dictionary with string keys, as a dictionary. -/
def dictItems (fields : PyDict F) : List (PyKey F × PyVal F) := fields.map fun p => (.str p.1, p.2)

/-- An audit store: what `record` returns is made of what it is given. -/
structure Recorder (F W : Type) [PyFloat F] where
  record : Str → Str → Str → PyDict F → PyM W (AuditEvent F)
  made : ∀ correlationId runId eventType payload w event,
    (record correlationId runId eventType payload w).1 = .ok event →
      event.correlationId = correlationId ∧ event.runId = runId ∧ event.eventType = eventType ∧
        event.payload = safePayload (.dict (dictItems payload))

/-- `typeName` is `type(sink).__name__`. -/
structure RunnerSink (F W : Type) where
  typeName : Str
  emit : CloudEvent F → PyM W Unit

/-- A call of `_log`, and what became of it: the audit event, if it was
recorded, the event for the sinks, if there are any, and how it ended. -/
structure LogEntry (F : Type) where
  eventType : Str
  payload : PyDict F
  recorded : Option (AuditEvent F)
  published : Option (CloudEvent F)
  result : Except PyExc Unit

/-- The calls of `_log` in the name of one run, and the events that the sinks
were given, newest first. -/
structure RunnerJournal (F : Type) where
  entries : List (LogEntry F)
  delivered : List (ℕ × CloudEvent F)
  eventSinkErrors : List SinkError

/-- The audit events of the run, oldest first. -/
def RunnerJournal.events (journal : RunnerJournal F) : List (AuditEvent F) :=
  (journal.entries.filterMap LogEntry.recorded).reverse

/-! ### The runner -/

/-- The state of a run: its context, and the operations that its agent performs
on it. -/
abbrev RunPool (F W C : Type) : Type :=
  Pool ℕ (ContextState F W C (RunnerJournal F)) PyExc (Option (ToolResult F))

/-- What an agent returns; `confidence` comes with it in a pair. -/
structure AgentReturn (F : Type) where
  output : PyVal F
  typeName : Str
  confidence : Option Control.ConfidenceInputs

/-- What calling an agent function yields. -/
inductive AgentCall (F W C : Type) where
  | value (agentReturn : AgentReturn F)
  | awaitable (body : Proc (RunPool F W C) PyExc (AgentReturn F))

/-- An agent function. -/
inductive AgentFn (F W C : Type) where
  | coroutine (body : Proc (RunPool F W C) PyExc (AgentReturn F))
  | plain (call : Proc (RunPool F W C) PyExc (AgentCall F W C))

structure SentinelResult (F : Type) where
  outcome : Control.DecisionOutcome
  confidence : ℚ
  output : PyVal F
  correlationId : Str
  runId : Str
  ctxSnapshot : PyDict F

/-- A limit on the time a program runs, which takes no steps of its own. -/
structure TimeLimit (F W C α : Type) where
  limit : ℚ → Proc (RunPool F W C) PyExc α → Proc (RunPool F W C) PyExc α
  follows : ∀ (G : RunPool F W C → RunPool F W C → Prop) seconds p,
    (∀ s, Proc.Follows (fun _ _ => True) G p s) →
      ∀ s, Proc.Follows (fun _ _ => True) G (limit seconds p) s

/-- What a run draws from `uuid.uuid4()` and the clock. -/
structure FreshRun where
  correlationId : Str
  runId : Str
  startedAtEpochMs : Int

/-- The settings of a runner, and what lies outside of the package; `newEvent`
yields the id and the time of a `CloudEvent`, and `str` is that of Python. -/
structure SentinelRunner (F W C : Type) [PyFloat F] where
  name : Str
  guardrails : Guardrails
  decisionPolicy : Control.DecisionPolicy
  recorder : Recorder F W
  metadata : List (PyKey F × PyVal F)
  toolRegistry : Option (ToolRegistry F W C)
  approvalCallback : Option (ApprovalCallback F W C)
  captureInput : Bool
  captureOutput : Bool
  redactor : Redactor F
  runTimeoutSeconds : Option ℚ
  organizationId : Str
  environment : Str
  agentId : Str
  principal : Option (PrincipalRef F)
  authorizer : Option (Str → PyDict F → PyM W Bool)
  eventSinks : List (RunnerSink F W)
  failOnEventSinkError : Bool
  eventSource : Str
  policyDigest : Str
  hash : Sha256
  sigmoid : Control.Sigmoid
  callables : Callables F W C
  asyncio : AsyncRuntime F W
  hardSyncTimeout : TimeLimit F W C (AgentCall F W C)
  waitFor : TimeLimit F W C (AgentReturn F)
  clockMs : PyM W Int
  perfCounter : W → ℚ × W
  utcNow : PyM W Instant
  sleep : ℕ → PyM W Unit
  asyncSleep : ℕ → PyM W Unit
  close : PyM W Unit
  reachStore : PyM W Unit
  newEvent : W → (Str × Str) × W
  costFloat : ℚ → FloatVal F
  str : PyVal F → Str

/-- `redact` of a dictionary with string keys. -/
def Redactor.redactFields [PyFloat F] (r : Redactor F) : PyDict F → Except PyExc (PyDict F)
  | [] => .ok []
  | (key, v) :: fields => do
    let v ← (if r.blocks key then .ok (.str (lit "[REDACTED]")) else r.redact v)
    let fields ← redactFields r fields
    return (key, v) :: fields

namespace SentinelRunner

variable [PyFloat F] (runner : SentinelRunner F W C)

/-! ### Logging -/

/-- One turn of the loop over the sinks; the sink `k` is given the event. -/
def emitToSink (eventType : Str) (event : CloudEvent F) (k : ℕ) (sink : RunnerSink F W) :
    PyM (W × RunnerJournal F) Unit := do
  .modify fun s => (s.1, { s.2 with delivered := (k, event) :: s.2.delivered })
  .tryExcept (.on Prod.fst (fun s w => (w, s.2)) (sink.emit event)) fun e =>
    if e.isException then do
      let error ← .ofExcept (OutboxWorker.errorString e)
      .modify fun s => (s.1, { s.2 with
        eventSinkErrors := s.2.eventSinkErrors ++ [⟨sink.typeName, error, eventType⟩] })
      if runner.failOnEventSinkError then .raise e else return ()
    else .raise e

def emitToSinks (eventType : Str) (event : CloudEvent F) :
    ℕ → List (RunnerSink F W) → PyM (W × RunnerJournal F) Unit
  | _, [] => return ()
  | k, sink :: sinks => do
    runner.emitToSink eventType event k sink
    emitToSinks eventType event (k + 1) sinks

/-- The audit event of `_log`, and the payload it is made of. -/
def recordEvent (fresh : FreshRun) (eventType : Str) (payload : PyDict F) :
    PyM W (PyDict F × AuditEvent F) := do
  let safe ← .ofExcept (runner.redactor.redactFields payload)
  let event ← runner.recorder.record fresh.correlationId fresh.runId eventType safe
  return (safe, event)

/-- `str(safe_payload.get("tool_name", self.agent_id or self.name))`. -/
def eventSubject (safe : PyDict F) : Str :=
  match dictGet (lit "tool_name") safe with
  | some value => runner.str value
  | none => if runner.agentId = [] then runner.name else runner.agentId

/-- The event for the sinks. -/
def cloudEvent (fresh : FreshRun) (eventType : Str) (safe : PyDict F) (event : AuditEvent F)
    (drawn : Str × Str) : CloudEvent F :=
  runtimeEvent eventType (dictInsert (lit "audit_event_id") (.str event.eventId) safe) {
    source := runner.eventSource
    subject := runner.eventSubject safe
    organizationId := runner.organizationId
    environment := runner.environment
    agentId := runner.agentId
    correlationId := fresh.correlationId
    runId := fresh.runId
    id := drawn.1
    time := drawn.2 }

/-- The journal, with one more entry. -/
def journalled (entry : LogEntry F) (s : W × RunnerJournal F) : W × RunnerJournal F :=
  (s.1, { s.2 with entries := entry :: s.2.entries })

/-- `_log`. -/
def log (fresh : FreshRun) (eventType : Str) (payload : PyDict F) :
    PyM (W × RunnerJournal F) Unit := fun s =>
  match runner.recordEvent fresh eventType payload s.1 with
  | (.error e, w) => (.error e, journalled ⟨eventType, payload, none, none, .error e⟩ (w, s.2))
  | (.ok (safe, event), w) =>
    if runner.eventSinks.isEmpty then
      (.ok (), journalled ⟨eventType, payload, some event, none, .ok ()⟩ (w, s.2))
    else
      let drawn := runner.newEvent w
      let published := runner.cloudEvent fresh eventType safe event drawn.1
      let emitted := runner.emitToSinks eventType published 0 runner.eventSinks (drawn.2, s.2)
      (emitted.1, journalled ⟨eventType, payload, some event, some published, emitted.1⟩ emitted.2)

/-! ### The context -/

def isName : PyKey F → Bool
  | .str k => k = lit "name"
  | _ => false

/-- `{"name": self.name, **self.metadata}`. -/
def contextMetadata : List (PyKey F × PyVal F) :=
  (.str (lit "name"), ((runner.metadata.find? fun p => isName p.1).map Prod.snd).getD
      (.str runner.name)) :: runner.metadata.filter fun p => !isName p.1

/-- `_new_context`. -/
def newContext (fresh : FreshRun) : ContextConfig F W C (RunnerJournal F) where
  hash := runner.hash
  callables := runner.callables
  asyncio := runner.asyncio
  guardrails := some runner.guardrails
  toolRegistry := runner.toolRegistry
  approvalCallback := runner.approvalCallback
  auditEmitter := some (runner.log fresh)
  principal := runner.principal
  authorizer := runner.authorizer
  correlationId := fresh.correlationId
  runId := fresh.runId
  startedAtEpochMs := fresh.startedAtEpochMs
  metadata := runner.contextMetadata
  policyDigest := runner.policyDigest
  organizationId := runner.organizationId
  environment := runner.environment
  agentId := runner.agentId
  clockMs := runner.clockMs
  perfCounter := runner.perfCounter
  utcNow := runner.utcNow
  sleep := runner.sleep
  asyncSleep := runner.asyncSleep
  close := runner.close
  reachStore := runner.reachStore
  costFloat := runner.costFloat

/-- The state of a new context, in a process with the given breakers and stores. -/
def newState (breakers : ℕ → BreakerMemory) (stores : ℕ → IdempotencyStore F) (outside : W) :
    ContextState F W C (RunnerJournal F) where
  steps := 0
  toolCalls := 0
  costUsd := 0
  addedCosts := []
  breakers := breakers
  stores := stores
  outside := outside
  journal := ⟨[], [], []⟩
  trace := []

/-- A new context, on which nothing runs yet. -/
def newPool (breakers : ℕ → BreakerMemory) (stores : ℕ → IdempotencyStore F) (outside : W) :
    RunPool F W C :=
  ⟨newState breakers stores outside, fun _ => none⟩

/-! ### What surrounds the agent -/

variable (fresh : FreshRun)

/-- `self._log(ctx, …)`, of an event that shows the context as it is. -/
def logShown (eventType : Str)
    (payload : PyDict F → PyDict F) : PyM (ContextState F W C (RunnerJournal F)) Unit := do
  let s ← PyM.get
  onJournal (runner.log fresh eventType (payload ((runner.newContext fresh).snapshot s)))

/-- `_safe_repr`. -/
def safeRepr (value : PyVal F) : Except PyExc Str :=
  match runner.redactor.repr value with
  | .ok rendered => .ok (if rendered.length ≤ 2000 then rendered
      else rendered.take 1997 ++ lit "...")
  | .error e => if e.isException then .ok (lit "<unreprable>") else .error e

/-- `_safe_repr(redact(…))` under a key, where it is asked for. -/
def preview (capture : Bool) (key : Str) (value : PyVal F) : Except PyExc (PyDict F) :=
  if capture then do
    let redacted ← runner.redactor.redact value
    let rendered ← runner.safeRepr redacted
    return [(key, .str rendered)]
  else .ok []

/-- `start_payload`. -/
def startedPayload (inputType : Str) (shown snapshot : PyDict F) : PyDict F := [
  (lit "input_type", .str inputType),
  (lit "deterministic_declared", .bool runner.guardrails.deterministic),
  (lit "policy_digest", .str runner.policyDigest),
  (lit "organization_id", .str runner.organizationId),
  (lit "environment", .str runner.environment),
  (lit "agent_id", .str runner.agentId),
  (lit "principal_subject", (runner.newContext fresh).principalSubject),
  (lit "ctx", .ofFields snapshot)] ++ shown

/-- `_start`, of an input and the name of its type. -/
def start (input : PyVal F) (inputType : Str) : PyM (ContextState F W C (RunnerJournal F)) ℚ := do
  let started ← (runner.newContext fresh).readCounter
  let shown ← PyM.ofExcept (runner.preview runner.captureInput (lit "input_preview") input)
  runner.logShown fresh (lit "run_started") (runner.startedPayload fresh inputType shown)
  (runner.newContext fresh).bumpStep
  return started

/-- A signal, as `asdict` shows it. -/
def shownSignal : Option (FloatVal ℚ) → PyVal F
  | none => .none
  | some (.finite q) => .float (runner.costFloat q)
  | some .nan => .float .nan
  | some .inf => .float .inf
  | some .negInf => .float .negInf

/-- `asdict(inputs)`. -/
def shownInputs (inputs : Control.ConfidenceInputs) : PyVal F := .ofFields [
  (lit "prob", runner.shownSignal inputs.prob),
  (lit "margin", runner.shownSignal inputs.margin),
  (lit "z_score", runner.shownSignal inputs.zScore),
  (lit "entropy", runner.shownSignal inputs.entropy),
  (lit "llm_self_score", runner.shownSignal inputs.llmSelfScore)]

/-- The payload of `agent_output`. -/
def outputPayload (typeName : Str) (shown : PyDict F) : PyDict F :=
  [(lit "output_type", .str typeName)] ++ shown

/-- The payload of `decision_made`. -/
def decidedPayload (inputs : Control.ConfidenceInputs) (confidence : ℚ)
    (outcome : Control.DecisionOutcome) : PyDict F := [
  (lit "confidence", .float (runner.costFloat confidence)),
  (lit "outcome", .str outcome.value),
  (lit "inputs", runner.shownInputs inputs)]

/-- The payload of `decision_made` when the run awaits approval. -/
def awaitedPayload (checkpoint : Checkpoint) : PyDict F := [
  (lit "confidence", .float (runner.costFloat 0)),
  (lit "outcome", .str Control.DecisionOutcome.humanReview.value),
  (lit "reason", .str (lit "approval_required")),
  (lit "action_digest", .str checkpoint.actionDigest)]

/-- The payload of `run_failed`. -/
def failedPayload (e : PyExc) (elapsed : Int) (snapshot : PyDict F) : PyDict F := [
  (lit "error_type", .str e.className), (lit "elapsed_ms", .int elapsed),
  (lit "ctx", .ofFields snapshot)]

/-- The payload of `run_completed`. -/
def completedPayload (status : Str) (elapsed : Int) (snapshot : PyDict F) : PyDict F := [
  (lit "status", .str status), (lit "elapsed_ms", .int elapsed), (lit "ctx", .ofFields snapshot)]

/-- The result of a run. -/
def resultOf (outcome : Control.DecisionOutcome) (confidence : ℚ) (output : PyVal F) :
    PyM (ContextState F W C (RunnerJournal F)) (SentinelResult F) := do
  let s ← PyM.get
  return {
    outcome := outcome
    confidence := confidence
    output := output
    correlationId := fresh.correlationId
    runId := fresh.runId
    ctxSnapshot := (runner.newContext fresh).snapshot s }

/-- `_success`. -/
def success (started : ℚ) (agentReturn : AgentReturn F)
    (confidenceInputs : Option Control.ConfidenceInputs) :
    PyM (ContextState F W C (RunnerJournal F)) (SentinelResult F) := do
  let shown ← PyM.ofExcept
    (runner.preview runner.captureOutput (lit "output_preview") agentReturn.output)
  runner.logShown fresh (lit "agent_output") fun _ => outputPayload agentReturn.typeName shown
  let inputs := (confidenceInputs.orElse fun _ => agentReturn.confidence).getD
    ⟨none, none, none, none, none⟩
  let confidence ← PyM.ofExcept (runner.decisionPolicy.score runner.sigmoid inputs)
  let outcome ← PyM.ofExcept (runner.decisionPolicy.decide runner.sigmoid inputs)
  let now ← (runner.newContext fresh).readCounter
  runner.logShown fresh (lit "decision_made") fun _ =>
    runner.decidedPayload inputs confidence outcome
  runner.logShown fresh (lit "run_completed")
    (completedPayload (lit "ok") (ContextConfig.elapsedMs started now))
  runner.resultOf fresh outcome confidence agentReturn.output

/-- `_approval_result`. -/
def approvalResult (started : ℚ) (checkpoint : Checkpoint) :
    PyM (ContextState F W C (RunnerJournal F)) (SentinelResult F) := do
  let now ← (runner.newContext fresh).readCounter
  runner.logShown fresh (lit "decision_made") fun _ => runner.awaitedPayload checkpoint
  runner.logShown fresh (lit "run_completed")
    (completedPayload (lit "pending_approval") (ContextConfig.elapsedMs started now))
  runner.resultOf fresh .humanReview 0 (.ofFields [(lit "approval_checkpoint",
    .ofFields ((runner.newContext fresh).checkpointFields checkpoint))])

/-- `_failure`. -/
def failure (started : ℚ) (e : PyExc) : PyM (ContextState F W C (RunnerJournal F)) Unit := do
  let now ← (runner.newContext fresh).readCounter
  runner.logShown fresh (lit "run_failed") (failedPayload e (ContextConfig.elapsedMs started now))
  runner.logShown fresh (lit "run_completed")
    (completedPayload (lit "error") (ContextConfig.elapsedMs started now))

/-! ### Runs -/

/-- A method of the context of a run. -/
def onContext (x : PyM (ContextState F W C (RunnerJournal F)) α) : PyM (RunPool F W C) α :=
  .on Pool.state (fun pool s => { pool with state := s }) x

/-- `try: … except HumanApprovalRequired as exc: … except Exception as exc: …`. -/
def concluded (started : ℚ) (body : Proc (RunPool F W C) PyExc (SentinelResult F)) :
    Proc (RunPool F W C) PyExc (SentinelResult F) := do
  match ← body.attempt with
  | .ok result => return result
  | .error (.humanApprovalRequired checkpoint) =>
    .atomic (onContext (runner.approvalResult fresh started checkpoint))
  | .error e =>
    if e.isException then do
      .atomic (onContext (runner.failure fresh started e))
      .raise e
    else .raise e

variable (input : PyVal F) (inputType : Str) (confidenceInputs : Option Control.ConfidenceInputs)

/-- The body of `run`, of a function that is no coroutine function. -/
def runBody (started : ℚ) (call : Proc (RunPool F W C) PyExc (AgentCall F W C)) :
    Proc (RunPool F W C) PyExc (SentinelResult F) := do
  match ← runner.runTimeoutSeconds.elim call fun seconds => runner.hardSyncTimeout.limit seconds call with
  | .awaitable _ => do
    .atomic (onContext (onWorld runner.close))
    .raise (.typeError (lit "Agent returned an awaitable; use SentinelRunner.arun(...)"))
  | .value agentReturn =>
    .atomic (onContext (runner.success fresh started agentReturn confidenceInputs))

/-- `run`. -/
def run : AgentFn F W C → Proc (RunPool F W C) PyExc (SentinelResult F)
  | .coroutine _ =>
    .raise (.typeError (lit "Asynchronous agents require await SentinelRunner.arun(...)"))
  | .plain call => do
    let started ← .atomic (onContext (runner.start fresh input inputType))
    runner.concluded fresh started (runner.runBody fresh confidenceInputs started call)

/-- `await asyncio.wait_for(awaitable, …)`, and what follows it. -/
def awaitBody (started : ℚ) (body : Proc (RunPool F W C) PyExc (AgentReturn F)) :
    Proc (RunPool F W C) PyExc (SentinelResult F) := do
  let agentReturn ← runner.runTimeoutSeconds.elim body fun seconds => runner.waitFor.limit seconds body
  .atomic (onContext (runner.success fresh started agentReturn confidenceInputs))

/-- The body of `arun`. -/
def arunBody (started : ℚ) : AgentFn F W C → Proc (RunPool F W C) PyExc (SentinelResult F)
  | .coroutine body => runner.awaitBody fresh confidenceInputs started body
  | .plain call =>
    if runner.runTimeoutSeconds.isSome then
      .raise (.typeError (lit ("arun() with run_timeout_seconds requires an async agent; " ++
        "a timed-out worker thread cannot be safely cancelled")))
    else do
      match ← call with
      | .awaitable body => runner.awaitBody fresh confidenceInputs started body
      | .value agentReturn =>
        .atomic (onContext (runner.success fresh started agentReturn confidenceInputs))

/-- `arun`. -/
def arun (agent : AgentFn F W C) : Proc (RunPool F W C) PyExc (SentinelResult F) := do
  let started ← .atomic (onContext (runner.start fresh input inputType))
  runner.concluded fresh started (runner.arunBody fresh confidenceInputs started agent)

end SentinelRunner

/-! ### A runner to run the definitions on -/

/-- The audit event that is made of what `record` is given. -/
def recordedAs (correlationId runId eventType : Str) (payload : PyDict Half) : AuditEvent Half where
  eventId := lit "event"
  correlationId := correlationId
  runId := runId
  tsEpochMs := 0
  eventType := eventType
  payload := safePayload (.dict (dictItems payload))
  prevHash := none
  hash := none

theorem made_recordedAs (correlationId runId eventType : Str) (payload : PyDict Half) (w : Unit)
    (event : AuditEvent Half)
    (h : ((pure (recordedAs correlationId runId eventType payload) :
      PyM Unit (AuditEvent Half)) w).1 = .ok event) :
    event.correlationId = correlationId ∧ event.runId = runId ∧ event.eventType = eventType ∧
      event.payload = safePayload (.dict (dictItems payload)) := by
  cases h
  exact ⟨rfl, rfl, rfl, rfl⟩

/-- A store that accepts every record. -/
def acceptingStore : Recorder Half Unit :=
  ⟨fun correlationId runId eventType payload =>
    pure (recordedAs correlationId runId eventType payload), made_recordedAs⟩

theorem follows_untimed (G : RunPool F W C → RunPool F W C → Prop) (_ : ℚ)
    (p : Proc (RunPool F W C) PyExc α) (h : ∀ s, Proc.Follows (fun _ _ => True) G p s) :
    ∀ s, Proc.Follows (fun _ _ => True) G p s := h

/-- A limit that is never reached. -/
def untimed : TimeLimit F W C α := ⟨fun _ p => p, follows_untimed⟩

theorem ten_pos : (1 : Int) ≤ 10 := by decide

theorem ten_nonneg : (0 : Int) ≤ 10 := by decide

theorem rat_ten_nonneg : (0 : ℚ) ≤ 10 := by norm_num

def tenGuardrails : Guardrails where
  maxSteps := 10
  maxToolCalls := 10
  maxCostUsd := 10
  deterministic := false
  allowedTools := none
  requireRegisteredTools := false
  requireBoundApprovalGrants := false
  maxSteps_pos := ten_pos
  maxToolCalls_nonneg := ten_nonneg
  maxCostUsd_nonneg := rat_ten_nonneg

/-- A runner with the tool `pay` and no sinks. -/
def bareRunner : SentinelRunner Half Unit Bool where
  name := lit "agent"
  guardrails := tenGuardrails
  decisionPolicy := Control.usualPolicy .humanReview
  recorder := acceptingStore
  metadata := []
  toolRegistry := payContext.toolRegistry
  approvalCallback := none
  captureInput := false
  captureOutput := false
  redactor := ⟨defaultRedactedKeys, id, fun _ => .ok []⟩
  runTimeoutSeconds := none
  organizationId := lit "o"
  environment := lit "e"
  agentId := lit "a"
  principal := payContext.principal
  authorizer := payContext.authorizer
  eventSinks := []
  failOnEventSinkError := false
  eventSource := lit "urn:agent-roi:agent"
  policyDigest := []
  hash := default
  sigmoid := Control.flatSigmoid
  callables := payContext.callables
  asyncio := payContext.asyncio
  hardSyncTimeout := untimed
  waitFor := untimed
  clockMs := pure 0
  perfCounter := fun w => (0, w)
  utcNow := payContext.utcNow
  sleep := fun _ => pure ()
  asyncSleep := fun _ => pure ()
  close := pure ()
  reachStore := pure ()
  newEvent := fun w => ((lit "id", lit "time"), w)
  costFloat := fun _ => .finite .half
  str := fun _ => []

/-- An agent that returns at once. -/
def idleAgent : AgentFn Half Unit Bool := .plain (pure (.value ⟨.none, lit "NoneType", none⟩))

def firstRun : FreshRun := ⟨lit "c", lit "r", 0⟩

/-- The run of an agent that returns at once. -/
def idleRun (runner : SentinelRunner Half Unit Bool) :
    Except PyExc (SentinelResult Half) × RunPool Half Unit Bool :=
  (runner.run firstRun .none (lit "NoneType") none idleAgent).run
    (SentinelRunner.newPool newContextState.breakers newContextState.stores ())

end AgentRoi
