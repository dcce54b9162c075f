/-
`SentinelContext` of `agent_roi.runtime.context`, up to the start of a tool.

* `ContextConfig` — what a context is made of and what lies outside of the
  package;
* `ContextState` — its counters, the breakers and idempotency stores of the
  process, the world outside, and the journal, which only the emitter writes to;
  beside them stands what the calls did, which the source does not remember;
* `bumpStep`, `bumpToolCall`, `addCost`, `snapshot` — the small methods;
* `resolveTool`, `authorizeAccess`, `estimatedCost`, `approvalCheckpoint`,
  `authorize`, `prepareCall` — the way of a call to its handler.

`prepareCall` has no `await`, so it is one step of a task.  An event is noted
when it is handed to the emitter.
-/
import AgentRoi.EventTrace
import AgentRoi.Tools

namespace AgentRoi

variable {F W C J α : Type}

/-- `getattr(principal, "subject", "")`, and its text. -/
structure PrincipalRef (F : Type) where
  subject : PyVal F
  text : Str

/-- `asyncio.wait_for` and `asyncio.to_thread`; `ofThread` is the exception that
is raised for one out of a thread, which is another one for some classes of
`concurrent.futures`. -/
structure AsyncRuntime (F W : Type) where
  waitFor : ℚ → Proc W PyExc (ToolResult F) → Proc W PyExc (ToolResult F)
  toThread : Proc W PyExc (ToolResult F) → Proc W PyExc (ToolResult F)
  ofThread : PyExc → PyExc

/-- `clockMs` is `int(time.time() * 1000)` and `perfCounter` is
`time.perf_counter()`; `close` is what `close()` of a returned awaitable does,
and `reachStore` what lies between the package and an idempotency store.  Costs
are shown as the floats `costFloat` yields. -/
structure ContextConfig (F W C J : Type) where
  hash : Sha256
  callables : Callables F W C
  asyncio : AsyncRuntime F W
  guardrails : Option Guardrails
  toolRegistry : Option (ToolRegistry F W C)
  approvalCallback : Option (ApprovalCallback F W C)
  auditEmitter : Option (Str → PyDict F → PyM (W × J) Unit)
  principal : Option (PrincipalRef F)
  authorizer : Option (Str → PyDict F → PyM W Bool)
  correlationId : Str
  runId : Str
  startedAtEpochMs : Int
  metadata : List (PyKey F × PyVal F)
  policyDigest : Str
  organizationId : Str
  environment : Str
  agentId : Str
  clockMs : PyM W Int
  perfCounter : W → ℚ × W
  utcNow : PyM W Instant
  sleep : ℕ → PyM W Unit
  asyncSleep : ℕ → PyM W Unit
  close : PyM W Unit
  reachStore : PyM W Unit
  costFloat : ℚ → FloatVal F

/-- What a call does. -/
inductive CallEvent (F C : Type) where
  | called (call : ToolCall F C)
  | authorizerAnswered (allowed : Bool)
  | estimatorAnswered (cost : ℚ)
  | callbackAnswered (checkpoint : Checkpoint) (answer : ApprovalAnswer)
  | grantValidated (grant : ApprovalGrant) (checkpoint : Checkpoint) (nowMs : Int)
  | charged (cost : ℚ)
  | emitted (eventType : Str) (payload : PyDict F)
  | invoked (handler : C) (args : List (PyVal F)) (kwargs : PyDict F)

/-- The events are noted newest first, with the call they belong to; beside them
stand the amounts that `add_cost` added. -/
structure ContextState (F W C J : Type) where
  steps : Int
  toolCalls : Int
  costUsd : ℚ
  addedCosts : List ℚ
  breakers : ℕ → BreakerMemory
  stores : ℕ → IdempotencyStore F
  outside : W
  journal : J
  trace : List (ℕ × CallEvent F C)

namespace ContextState

def note (i : ℕ) (event : CallEvent F C) (s : ContextState F W C J) : ContextState F W C J :=
  { s with trace := (i, event) :: s.trace }

def setOutside (s : ContextState F W C J) (w : W) : ContextState F W C J := { s with outside := w }

/-- A method on the world outside and the journal. -/
def onJournal (x : PyM (W × J) α) : PyM (ContextState F W C J) α :=
  .on (fun s => (s.outside, s.journal)) (fun s p => { s with outside := p.1, journal := p.2 }) x

/-- A method on the world outside. -/
def onWorld (x : PyM W α) : PyM (ContextState F W C J) α := .on outside setOutside x

/-- A program on the world outside. -/
def inWorld (p : Proc W PyExc α) : Proc (ContextState F W C J) PyExc α := p.within outside setOutside

end ContextState

open ContextState

/-- A tool, as a call resolves to it. -/
structure ResolvedTool (F W C : Type) where
  handler : C
  args : List (PyVal F)
  spec : Option (ToolSpec F W C)

/-- What `_prepare_call` returns. -/
structure PreparedCall (F W C : Type) extends ResolvedTool F W C where
  selectedCost : ℚ
  eventBase : PyDict F

namespace ContextConfig

variable (cfg : ContextConfig F W C J)

/-- `_emit`, by the call `i`. -/
def emit (i : ℕ) (eventType : Str) (payload : PyDict F) : PyM (ContextState F W C J) Unit :=
  match cfg.auditEmitter with
  | none => return ()
  | some emitter => do
    .modify (note i (.emitted eventType payload))
    onJournal (emitter eventType payload)

/-- `self._guardrails.validate_limits(…)`, where there are guardrails. -/
def checkLimits (steps toolCalls : Int) (costUsd : ℚ) : Except PyExc Unit :=
  match cfg.guardrails with
  | none => .ok ()
  | some guardrails => guardrails.validateLimits steps toolCalls costUsd

def bumpStep : PyM (ContextState F W C J) Unit := do
  let s ← PyM.get
  .ofExcept (cfg.checkLimits (s.steps + 1) s.toolCalls s.costUsd)
  .modify fun s => { s with steps := s.steps + 1 }

def bumpToolCall : PyM (ContextState F W C J) Unit := do
  let s ← PyM.get
  .ofExcept (cfg.checkLimits s.steps (s.toolCalls + 1) s.costUsd)
  .modify fun s => { s with toolCalls := s.toolCalls + 1 }

def addCost (amount : CostAmount) : PyM (ContextState F W C J) Unit := do
  let q ← PyM.ofExcept (validateCostAmount amount)
  let s ← PyM.get
  .ofExcept (cfg.checkLimits s.steps s.toolCalls (s.costUsd + q))
  .modify fun s => { s with costUsd := s.costUsd + q, addedCosts := q :: s.addedCosts }

/-- `getattr(self._principal, "subject", "")`. -/
def principalSubject : PyVal F := cfg.principal.elim (.str []) PrincipalRef.subject

/-- `snapshot`. -/
def snapshot (s : ContextState F W C J) : PyDict F := [
  (lit "correlation_id", .str cfg.correlationId),
  (lit "run_id", .str cfg.runId),
  (lit "started_at_epoch_ms", .int cfg.startedAtEpochMs),
  (lit "metadata", .dict cfg.metadata),
  (lit "principal_subject", cfg.principalSubject),
  (lit "organization_id", .str cfg.organizationId),
  (lit "environment", .str cfg.environment),
  (lit "agent_id", .str cfg.agentId),
  (lit "state", .ofFields [
    (lit "steps", .int s.steps),
    (lit "tool_calls", .int s.toolCalls),
    (lit "cost_usd", .float (cfg.costFloat s.costUsd))])]

/-! ### The tool -/

/-- `self._tool_registry.get(tool_name)`. -/
def registered (toolName : Str) : Option (ToolSpec F W C) :=
  cfg.toolRegistry.bind fun registry => registry.get toolName

/-- A tool with no specification. -/
def resolveUnregistered (call : ToolCall F C) : Except PyExc (ResolvedTool F W C) :=
  if cfg.guardrails.any fun g => g.requireRegisteredTools then
    .error (.guardrailViolation (lit "Tool '" ++ call.toolName ++ lit "' is not registered"))
  else match call.first with
    | .callable fn => .ok ⟨fn, call.rest, none⟩
    | _ => .error (.typeError
        (lit "Unregistered tools require the legacy form ctx.call_tool(name, callable, *args)"))

/-- `_resolve_tool`. -/
def resolveTool [DecidableEq C] (call : ToolCall F C) : Except PyExc (ResolvedTool F W C) :=
  match cfg.registered call.toolName with
  | none => cfg.resolveUnregistered call
  | some spec => match call.first with
    | .callable fn =>
      if fn ≠ spec.handler then
        .error (.guardrailViolation (lit "Tool '" ++ call.toolName ++
          lit "' callable does not match its registered handler"))
      else .ok ⟨spec.handler, call.rest, some spec⟩
    | .missing => .ok ⟨spec.handler, call.rest, some spec⟩
    | .value v => .ok ⟨spec.handler, v :: call.rest, some spec⟩

/-! ### Access -/

/-- The context `_authorize_access` hands to the authorizer. -/
def accessContext (spec : Option (ToolSpec F W C)) : PyDict F := [
  (lit "organization_id", .str cfg.organizationId),
  (lit "environment", .str cfg.environment),
  (lit "agent_id", .str cfg.agentId),
  (lit "risk", .str (spec.elim (lit "unclassified") ToolSpec.risk)),
  (lit "tool_version", .str (spec.elim (lit "legacy") ToolSpec.version))]

/-- What follows the answer of the authorizer. -/
def decideAccess (i : ℕ) (toolName : Str) (spec : Option (ToolSpec F W C)) (allowed : Bool) :
    PyM (ContextState F W C J) Unit := do
  let payload : PyDict F := [(lit "tool_name", .str toolName), (lit "allowed", .bool allowed),
    (lit "principal_subject", cfg.principalSubject)] ++ cfg.accessContext spec
  cfg.emit i (lit "authorization_decision") payload
  if allowed then return ()
  else do
    cfg.emit i (lit "authorization_denied") payload
    .raise (.guardrailViolation
      (lit "Principal is not authorized to execute tool '" ++ toolName ++ lit "'"))

/-- `_authorize_access`. -/
def authorizeAccess (i : ℕ) (toolName : Str) (spec : Option (ToolSpec F W C)) :
    PyM (ContextState F W C J) Unit :=
  match cfg.authorizer with
  | none => return ()
  | some authorize => match cfg.principal with
    | none => do
      cfg.emit i (lit "authorization_denied")
        [(lit "tool_name", .str toolName), (lit "reason", .str (lit "missing_principal"))]
      .raise (.guardrailViolation (lit "An authenticated principal is required"))
    | some _ => do
      let allowed ← onWorld (authorize toolName (cfg.accessContext spec))
      .modify (note i (.authorizerAnswered allowed))
      cfg.decideAccess i toolName spec allowed

/-- Whether the tool can be run by `call_tool`, or by `acall_tool`. -/
def checkMode (toolName : Str) (tool : ResolvedTool F W C) (asyncMode : Bool) :
    Except PyExc Unit :=
  let timed := tool.spec.any fun spec => spec.timeoutSeconds.isSome
  let isAsync := cfg.callables.isCoroutineFunction tool.handler
  if asyncMode = false ∧ isAsync = true then
    .error (.guardrailViolation (lit "Tool '" ++ toolName ++
      lit "' is asynchronous; use ctx.acall_tool() and SentinelRunner.arun()"))
  else if asyncMode = false ∧ timed = true then
    .error (.guardrailViolation (lit "Tool '" ++ toolName ++
      lit ("' declares timeout_seconds; execute it through acall_tool/arun " ++
        "or enforce a timeout inside the synchronous handler")))
  else if asyncMode = true ∧ timed = true ∧ isAsync = false then
    .error (.guardrailViolation (lit "Tool '" ++ toolName ++
      lit ("' is synchronous; an asyncio timeout cannot cancel its worker thread. " ++
        "Use an async handler or enforce the timeout inside the handler.")))
  else .ok ()

/-! ### The cost -/

/-- What the tool costs at least. -/
def registeredMinimum (i : ℕ) (tool : ResolvedTool F W C) (kwargs : PyDict F) :
    PyM (ContextState F W C J) ℚ :=
  match tool.spec with
  | none => return 0
  | some spec => match spec.costEstimator with
    | none => return spec.defaultCostUsd
    | some estimator => do
      let amount ← onWorld (estimator tool.args kwargs)
      let estimated ← PyM.ofExcept (validateCostAmount amount)
      .modify (note i (.estimatorAnswered estimated))
      return max spec.defaultCostUsd estimated

/-- What the caller's cost makes of it. -/
def requestedCost (tool : ResolvedTool F W C) (minimum : ℚ) : Option CostAmount → Except PyExc ℚ
  | none => .ok minimum
  | some amount => do
    let requested ← validateCostAmount amount
    match tool.spec with
    | some spec =>
      if requested < minimum then
        .error (.guardrailViolation (lit "Tool '" ++ spec.name ++
          lit "' cost cannot be lower than the registered estimate (" ++ fixedText requested ++
          lit " < " ++ fixedText minimum ++ lit ")"))
      else return max minimum requested
    | none => return max minimum requested

/-- `_estimated_cost`. -/
def estimatedCost (i : ℕ) (tool : ResolvedTool F W C) (kwargs : PyDict F)
    (callerCost : Option CostAmount) : PyM (ContextState F W C J) ℚ := do
  let minimum ← registeredMinimum i tool kwargs
  .ofExcept (requestedCost tool minimum callerCost)

/-! ### Approval -/

/-- `_callable_identity`. -/
def callableIdentity (fn : C) : PyVal F :=
  .ofFields [(lit "module", cfg.callables.module fn), (lit "qualname", cfg.callables.qualname fn)]

section

variable [PyFloat F]

/-- `digest_value({"args": call_args, "kwargs": kwargs})`. -/
def argumentsDigest (args : List (PyVal F)) (kwargs : PyDict F) : Except PyExc Str :=
  digestValue cfg.hash (.ofFields [(lit "args", .tuple args), (lit "kwargs", .ofFields kwargs)])

/-- `digest_value(action)`. -/
def actionDigest (toolName : Str) (spec : ToolSpec F W C) (args : List (PyVal F))
    (kwargs : PyDict F) (selectedCost : ℚ) : Except PyExc Str :=
  digestValue cfg.hash (.ofFields [
    (lit "tool_name", .str toolName),
    (lit "tool_version", .str spec.version),
    (lit "handler", cfg.callableIdentity spec.handler),
    (lit "risk", .str spec.risk),
    (lit "cost_usd", .float (cfg.costFloat selectedCost)),
    (lit "args", .tuple args),
    (lit "kwargs", .ofFields kwargs),
    (lit "policy_digest", .str cfg.policyDigest),
    (lit "principal_subject", cfg.principalSubject),
    (lit "organization_id", .str cfg.organizationId),
    (lit "environment", .str cfg.environment),
    (lit "agent_id", .str cfg.agentId)])

/-- The id of the checkpoint of an action. -/
def checkpointId (actionDigest : Str) (expires : Int) : Except PyExc Str :=
  digestValue cfg.hash (.ofFields [
    (lit "correlation_id", .str cfg.correlationId),
    (lit "run_id", .str cfg.runId),
    (lit "action_digest", (.str actionDigest : PyVal F)),
    (lit "expires_at_epoch_ms", .int expires)])

/-- `_approval_checkpoint`. -/
def approvalCheckpoint (toolName : Str) (spec : ToolSpec F W C) (args : List (PyVal F))
    (kwargs : PyDict F) (selectedCost : ℚ) : PyM (ContextState F W C J) Checkpoint := do
  let actionDigest ← PyM.ofExcept (cfg.actionDigest toolName spec args kwargs selectedCost)
  let now ← onWorld cfg.clockMs
  let expires := now + spec.approvalTtlSeconds * 1000
  let checkpointId ← PyM.ofExcept (cfg.checkpointId actionDigest expires)
  let argumentsDigest ← PyM.ofExcept (cfg.argumentsDigest args kwargs)
  let created ← onWorld cfg.clockMs
  return {
    checkpointId := checkpointId
    correlationId := cfg.correlationId
    runId := cfg.runId
    toolName := toolName
    toolVersion := spec.version
    risk := spec.risk
    estimatedCostUsd := selectedCost
    actionDigest := actionDigest
    policyDigest := cfg.policyDigest
    argumentsDigest := argumentsDigest
    createdAtEpochMs := created
    expiresAtEpochMs := expires
    principalSubject := cfg.principal.elim [] PrincipalRef.text
    organizationId := cfg.organizationId
    environment := cfg.environment
    agentId := cfg.agentId }

end

/-- The checkpoint as the dictionary it is. -/
def checkpointFields (cp : Checkpoint) : PyDict F := [
  (lit "checkpoint_id", .str cp.checkpointId),
  (lit "correlation_id", .str cp.correlationId),
  (lit "run_id", .str cp.runId),
  (lit "tool_name", .str cp.toolName),
  (lit "tool_version", .str cp.toolVersion),
  (lit "risk", .str cp.risk),
  (lit "estimated_cost_usd", .float (cfg.costFloat cp.estimatedCostUsd)),
  (lit "action_digest", .str cp.actionDigest),
  (lit "policy_digest", .str cp.policyDigest),
  (lit "arguments_digest", .str cp.argumentsDigest),
  (lit "created_at_epoch_ms", .int cp.createdAtEpochMs),
  (lit "expires_at_epoch_ms", .int cp.expiresAtEpochMs),
  (lit "principal_subject", cfg.principalSubject),
  (lit "organization_id", .str cp.organizationId),
  (lit "environment", .str cp.environment),
  (lit "agent_id", .str cp.agentId)]

/-- What `approval_granted` says whoever approved. -/
def grantedFields (spec : ToolSpec F W C) (cp : Checkpoint) (approvedBy : Str) : PyDict F := [
  (lit "tool_name", .str spec.name),
  (lit "risk", .str spec.risk),
  (lit "action_digest", .str cp.actionDigest),
  (lit "checkpoint_id", .str cp.checkpointId),
  (lit "approved_by", .str approvedBy)]

/-- `response.validate(checkpoint)`, whose `ValueError` becomes a violation. -/
def validateGrant (i : ℕ) (grant : ApprovalGrant) (cp : Checkpoint) :
    PyM (ContextState F W C J) Unit := do
  let now ← onWorld cfg.clockMs
  .ofExcept (match grant.validate cp now with
    | .ok () => .ok ()
    | .error e => .error (.guardrailViolation (e.text.getD [])))
  .modify (note i (.grantValidated grant cp now))

/-- What follows the answer of the callback. -/
def decideApproval (i : ℕ) (spec : ToolSpec F W C) (cp : Checkpoint) :
    ApprovalAnswer → PyM (ContextState F W C J) Unit
  | .grant grant => do
    cfg.validateGrant i grant cp
    cfg.emit i (lit "approval_granted")
      (grantedFields spec cp grant.approvedBy ++ [(lit "reason", .str grant.reason)])
  | .approved =>
    if cfg.guardrails.any fun g => g.requireBoundApprovalGrants then
      .raise (.guardrailViolation (lit ("This policy requires a payload-bound ApprovalGrant; " ++
        "boolean approval is not sufficient")))
    else cfg.emit i (lit "approval_granted") (grantedFields spec cp (lit "synchronous_callback"))
  | .refused => do
    cfg.emit i (lit "approval_required") (cfg.checkpointFields cp)
    .raise (.humanApprovalRequired cp)

/-- The answer of the callback; without one it is no approval. -/
def askApproval (spec : ToolSpec F W C) (args : List (PyVal F)) (kwargs : PyDict F)
    (cp : Checkpoint) : PyM (ContextState F W C J) ApprovalAnswer :=
  match cfg.approvalCallback with
  | none => return .refused
  | some callback =>
    onWorld (callback.call spec args kwargs (if callback.supportsCheckpoint then some cp else none))

/-- `_authorize`, of a tool that requires approval. -/
def authorize (i : ℕ) (spec : ToolSpec F W C) (args : List (PyVal F)) (kwargs : PyDict F)
    (cp : Checkpoint) : PyM (ContextState F W C J) Unit := do
  let answer ← cfg.askApproval spec args kwargs cp
  .modify (note i (.callbackAnswered cp answer))
  cfg.decideApproval i spec cp answer

/-! ### The whole way -/

/-- The tool's specification, where it requires approval. -/
def ResolvedTool.needsApproval (tool : ResolvedTool F W C) : Option (ToolSpec F W C) :=
  tool.spec.filter ToolSpec.requiresApproval

section

variable [PyFloat F]

/-- The checkpoint, where the tool requires approval. -/
def checkpointOf (toolName : Str) (tool : ResolvedTool F W C) (kwargs : PyDict F)
    (selectedCost : ℚ) : PyM (ContextState F W C J) (Option Checkpoint) :=
  match ResolvedTool.needsApproval tool with
  | none => return none
  | some spec => do
    let cp ← cfg.approvalCheckpoint toolName spec tool.args kwargs selectedCost
    return some cp

/-- `event_base`. -/
def eventBase (toolName : Str) (tool : ResolvedTool F W C) (kwargs : PyDict F) (selectedCost : ℚ)
    (checkpoint : Option Checkpoint) : Except PyExc (PyDict F) := do
  let argumentsDigest ← cfg.argumentsDigest tool.args kwargs
  return [
    (lit "tool_name", .str toolName),
    (lit "tool_version", .str (tool.spec.elim (lit "legacy") ToolSpec.version)),
    (lit "risk", .str (tool.spec.elim (lit "unclassified") ToolSpec.risk)),
    (lit "requires_approval", .bool (ResolvedTool.needsApproval tool).isSome),
    (lit "cost_usd", .float (cfg.costFloat selectedCost)),
    (lit "arguments_digest", .str argumentsDigest),
    (lit "action_digest", checkpoint.elim .none fun cp => .str cp.actionDigest),
    (lit "handler", cfg.callableIdentity tool.handler),
    (lit "principal_subject", cfg.principalSubject),
    (lit "organization_id", .str cfg.organizationId),
    (lit "environment", .str cfg.environment),
    (lit "agent_id", .str cfg.agentId),
    (lit "retry_max_attempts",
      .int ((tool.spec.bind ToolSpec.retryPolicy).elim 1 fun policy => policy.maxAttempts)),
    (lit "circuit_breaker", .bool (tool.spec.bind ToolSpec.circuitBreaker).isSome),
    (lit "idempotent", .bool (tool.spec.bind ToolSpec.idempotencyPolicy).isSome)]

end

/-- `_authorize`. -/
def approve (i : ℕ) (tool : ResolvedTool F W C) (kwargs : PyDict F)
    (checkpoint : Option Checkpoint) : PyM (ContextState F W C J) Unit :=
  match ResolvedTool.needsApproval tool, checkpoint with
  | some spec, some cp => cfg.authorize i spec tool.args kwargs cp
  | _, _ => return ()

/-- The counters are raised once the limits hold. -/
def charge (i : ℕ) (selectedCost : ℚ) : PyM (ContextState F W C J) Unit := do
  let s ← PyM.get
  .ofExcept (cfg.checkLimits s.steps (s.toolCalls + 1) (s.costUsd + selectedCost))
  .modify fun s => note i (.charged selectedCost)
    { s with toolCalls := s.toolCalls + 1, costUsd := s.costUsd + selectedCost }

/-- `self._guardrails.validate_tool_allowed(tool_name)`. -/
def checkAllowed (toolName : Str) : Except PyExc Unit :=
  match cfg.guardrails with
  | none => .ok ()
  | some guardrails => guardrails.validateToolAllowed toolName

variable [PyFloat F] [DecidableEq C]

/-- `_prepare_call` up to `tool_requested`. -/
def requestTool (i : ℕ) (call : ToolCall F C) (asyncMode : Bool) :
    PyM (ContextState F W C J) (PreparedCall F W C × Option Checkpoint) := do
  .modify (note i (.called call))
  .ofExcept (cfg.checkAllowed call.toolName)
  let tool ← PyM.ofExcept (cfg.resolveTool call)
  cfg.authorizeAccess i call.toolName tool.spec
  .ofExcept (cfg.checkMode call.toolName tool asyncMode)
  let selectedCost ← estimatedCost i tool call.kwargs call.costUsd
  let checkpoint ← cfg.checkpointOf call.toolName tool call.kwargs selectedCost
  let eventBase ← PyM.ofExcept
    (cfg.eventBase call.toolName tool call.kwargs selectedCost checkpoint)
  return (⟨tool, selectedCost, eventBase⟩, checkpoint)

/-- `_prepare_call`. -/
def prepareCall (i : ℕ) (call : ToolCall F C) (asyncMode : Bool) :
    PyM (ContextState F W C J) (PreparedCall F W C) := do
  let (prepared, checkpoint) ← cfg.requestTool i call asyncMode
  cfg.emit i (lit "tool_requested") prepared.eventBase
  cfg.approve i prepared.toResolvedTool call.kwargs checkpoint
  cfg.charge i prepared.selectedCost
  cfg.emit i (lit "tool_authorized") prepared.eventBase
  cfg.emit i (lit "tool_started") prepared.eventBase
  return prepared

end ContextConfig

end AgentRoi
