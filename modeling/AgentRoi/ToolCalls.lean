/-
`SentinelContext` of `agent_roi.runtime.context`, from the start of a tool on.

* `BreakerRef.call`, `retried` — the breaker and the retries around a handler,
  for the breakers and the clocks of a context;
* `prepareRequest`, `execute` — the idempotency record of a call;
* `executeSync`, `executeAsync` — `_execute_sync` and `_execute_async`;
* `callTool`, `acallTool` — whole calls.

Between two `await`s, and between a handler and what surrounds it, others may
take steps.  A response that is replayed is the JSON value that was stored.
-/
import AgentRoi.CircuitRuns
import AgentRoi.Context

namespace AgentRoi

variable {F W C J α : Type}

namespace ContextState

/-- A method of the breaker `n`. -/
def onBreaker (n : ℕ) (x : PyM BreakerMemory α) : PyM (ContextState F W C J) α :=
  .on (fun s => s.breakers n) (fun s m => { s with breakers := Function.update s.breakers n m }) x

/-- A method of the idempotency store `n`. -/
def inStore (n : ℕ) (x : PyM (IdempotencyStore F) α) : PyM (ContextState F W C J) α :=
  .on (fun s => s.stores n) (fun s m => { s with stores := Function.update s.stores n m }) x

end ContextState

open ContextState

/-! ### The breaker and the retries -/

namespace BreakerRef

variable (ref : BreakerRef W)

/-- `before_call`, which reads the clock of an open breaker. -/
def beforeCall : PyM (ContextState F W C J) Unit := do
  let s ← PyM.get
  if (s.breakers ref.id).state = .opened then do
    let clock ← onWorld ref.clock
    onBreaker ref.id (ref.breaker.beforeCall clock)
  else onBreaker ref.id (ref.breaker.beforeCall .zero)

def recordSuccess : PyM (ContextState F W C J) Unit := onBreaker ref.id ref.breaker.recordSuccess

/-- `record_failure`, which reads the clock once the breaker is open. -/
def recordFailure : PyM (ContextState F W C J) Unit := do
  let s ← PyM.get
  onBreaker ref.id (ref.breaker.recordFailure (s.breakers ref.id).openedAt)
  if (s.breakers ref.id).state = .halfOpen ∨
      (s.breakers ref.id).failures + 1 ≥ ref.breaker.failureThreshold then do
    let clock ← onWorld ref.clock
    onBreaker ref.id (.modify fun m => { m with openedAt := clock })
  else return ()

/-- `call` and `acall`. -/
def call (fn : Proc (ContextState F W C J) PyExc α) : Proc (ContextState F W C J) PyExc α := do
  .atomic ref.beforeCall
  match ← fn.attempt with
  | .error e => do
    .atomic ref.recordFailure
    .raise e
  | .ok a => do
    .atomic ref.recordSuccess
    return a

end BreakerRef

/-- `protected_call`. -/
def ResolvedTool.guarded (tool : ResolvedTool F W C) (rawCall : Proc (ContextState F W C J) PyExc α) :
    Proc (ContextState F W C J) PyExc α :=
  match tool.spec.bind ToolSpec.circuitBreaker with
  | none => rawCall
  | some ref => ref.call rawCall

/-- The sleep before the next attempt. -/
def pauseAfter (policy : RetryPolicy W) (sleep : ℕ → PyM W Unit) (attempt : ℕ) :
    Proc (ContextState F W C J) PyExc Unit :=
  .atomic (onWorld do
    let delay ← policy.delay attempt
    sleep delay)

/-- The attempts of the tool's retry policy, if it has one. -/
def ResolvedTool.retried (tool : ResolvedTool F W C) (sleep : ℕ → PyM W Unit)
    (protectedCall : Proc (ContextState F W C J) PyExc α) : Proc (ContextState F W C J) PyExc α :=
  match tool.spec.bind ToolSpec.retryPolicy with
  | none => protectedCall
  | some policy => retryCall policy (pauseAfter policy sleep) protectedCall

/-! ### The idempotency record -/

/-- The value a stored response is loaded as, with the name of its type. -/
def ToolResult.ofJson (response : Json F) : ToolResult F where
  value := .ofJson response
  typeName := match response with
    | .null => lit "NoneType"
    | .bool _ => lit "bool"
    | .int _ => lit "int"
    | .float _ => lit "float"
    | .str _ => lit "str"
    | .arr _ => lit "list"
    | .obj _ => lit "dict"
  isAwaitable := false

/-- How the call ends when the store answers that its request was settled. -/
def replayed : IdempotencyResult F → Option (Except PyExc (ToolResult F))
  | .started => none
  | .completed response => some (.ok (.ofJson response))
  | .failed error =>
    some (.error (.guardrailViolation (lit "Previous idempotent execution failed: " ++ error)))

/-- `f"{type(exc).__name__}: {exc}"`. -/
def failureText (e : PyExc) : Except PyExc Str :=
  e.text.elim (.error (.other (lit "Exception") none true)) fun text =>
    .ok (e.className ++ lit ": " ++ text)

namespace ContextConfig

variable (cfg : ContextConfig F W C J)

section

variable [PyFloat F]

/-- `prepare`: the key of the request, and what the store answers. -/
def prepareRequest (policy : IdempotencyPolicy F W) (args : List (PyVal F)) (kwargs : PyDict F) :
    PyM (ContextState F W C J) (Str × IdempotencyResult F) := do
  let text ← onWorld (policy.keyFactory args kwargs)
  if strip text = [] then
    .raise (.valueError (lit "Idempotency key factory returned an empty key"))
  else do
    let requestDigest ← PyM.ofExcept (cfg.argumentsDigest args kwargs)
    let now ← onWorld cfg.utcNow
    onWorld cfg.reachStore
    let answer ← inStore policy.store
      (IdempotencyStore.begin now policy.namesp (strip text) requestDigest policy.ttlSeconds)
    return (strip text, answer)

/-- `store.complete(namespace, key, result)`. -/
def completeRequest (policy : IdempotencyPolicy F W) (key : Str) (response : PyVal F) :
    PyM (ContextState F W C J) Unit := do
  onWorld cfg.reachStore
  inStore policy.store (IdempotencyStore.complete policy.namesp key response)

/-- `store.fail(namespace, key, …)`. -/
def failRequest (policy : IdempotencyPolicy F W) (key : Str) (e : PyExc) :
    PyM (ContextState F W C J) Unit := do
  let error ← PyM.ofExcept (failureText e)
  onWorld cfg.reachStore
  inStore policy.store (IdempotencyStore.fail policy.namesp key error)

/-- The execution of a request that was started, and what the store is told of
it; an exception that is no `Exception` is not reported. -/
def settleRequest (policy : IdempotencyPolicy F W) (key : Str)
    (execution : Proc (ContextState F W C J) PyExc (ToolResult F)) :
    Proc (ContextState F W C J) PyExc (ToolResult F) := do
  match ← execution.attempt with
  | .error e =>
    if e.isException then do
      .atomic (cfg.failRequest policy key e)
      .raise e
    else .raise e
  | .ok result => do
    .atomic (cfg.completeRequest policy key result.value)
    return result

/-- An execution under the tool's idempotency policy, if it has one. -/
def execute (tool : ResolvedTool F W C) (kwargs : PyDict F)
    (execution : Proc (ContextState F W C J) PyExc (ToolResult F)) :
    Proc (ContextState F W C J) PyExc (ToolResult F) :=
  match tool.spec.bind ToolSpec.idempotencyPolicy with
  | none => execution
  | some policy => do
    let request ← Proc.atomic (cfg.prepareRequest policy tool.args kwargs)
    match replayed request.2 with
    | some r => .done r
    | none => cfg.settleRequest policy request.1 execution

end

/-! ### The two ways to execute -/

/-- `raw_call` of `_execute_sync`. -/
def rawCall (i : ℕ) (tool : ResolvedTool F W C) (kwargs : PyDict F) :
    Proc (ContextState F W C J) PyExc (ToolResult F) := do
  .atomic (PyM.modify (note i (.invoked tool.handler tool.args kwargs)))
  inWorld (cfg.callables.call tool.handler tool.args kwargs)

/-- What `raw_call` of `_execute_async` awaits. -/
def awaited (tool : ResolvedTool F W C) (kwargs : PyDict F) : Proc W PyExc (ToolResult F) :=
  let handler := cfg.callables.call tool.handler tool.args kwargs
  let awaitable := if cfg.callables.isCoroutineFunction tool.handler then handler
    else cfg.asyncio.toThread handler
  match tool.spec.bind ToolSpec.timeoutSeconds with
  | none => awaitable
  | some timeout => cfg.asyncio.waitFor timeout awaitable

/-- `raw_call` of `_execute_async`. -/
def arawCall (i : ℕ) (tool : ResolvedTool F W C) (kwargs : PyDict F) :
    Proc (ContextState F W C J) PyExc (ToolResult F) := do
  .atomic (PyM.modify (note i (.invoked tool.handler tool.args kwargs)))
  inWorld (cfg.awaited tool kwargs)

/-- An awaitable is no result of a synchronous tool. -/
def rejectAwaitable (tool : ResolvedTool F W C) (result : ToolResult F) :
    PyM (ContextState F W C J) (ToolResult F) :=
  if result.isAwaitable then do
    onWorld cfg.close
    .raise (.guardrailViolation (lit "Tool '" ++ tool.spec.elim (lit "legacy") ToolSpec.name ++
      lit "' returned an awaitable; use ctx.acall_tool()"))
  else return result

variable [PyFloat F]

/-- `_execute_sync`. -/
def executeSync (i : ℕ) (tool : ResolvedTool F W C) (kwargs : PyDict F) :
    Proc (ContextState F W C J) PyExc (ToolResult F) :=
  cfg.execute tool kwargs do
    let result ← tool.retried cfg.sleep (tool.guarded (cfg.rawCall i tool kwargs))
    .atomic (cfg.rejectAwaitable tool result)

/-- `_execute_async`. -/
def executeAsync (i : ℕ) (tool : ResolvedTool F W C) (kwargs : PyDict F) :
    Proc (ContextState F W C J) PyExc (ToolResult F) :=
  cfg.execute tool kwargs
    (tool.retried cfg.asyncSleep (tool.guarded (cfg.arawCall i tool kwargs)))

/-! ### Whole calls -/

/-- `int((time.perf_counter() - started) * 1000)`. -/
def elapsedMs (started now : ℚ) : Int := ((now - started) * 1000).num.tdiv ((now - started) * 1000).den

omit [PyFloat F] in
/-- `time.perf_counter()`. -/
def readCounter : PyM (ContextState F W C J) ℚ :=
  onWorld fun w => (.ok (cfg.perfCounter w).1, (cfg.perfCounter w).2)

omit [PyFloat F] in
/-- The event that closes a call. -/
def emitEnd (i : ℕ) (prepared : PreparedCall F W C) (started : ℚ) (eventType : Str)
    (detail : Str × PyVal F) : PyM (ContextState F W C J) Unit := do
  let now ← cfg.readCounter
  cfg.emit i eventType
    (prepared.eventBase ++ [(lit "elapsed_ms", .int (elapsedMs started now)), detail])

omit [PyFloat F] in
/-- An execution, and the event that tells of its end; there is none of an
exception that is no `Exception`. -/
def reportCall (i : ℕ) (prepared : PreparedCall F W C)
    (execution : Proc (ContextState F W C J) PyExc (ToolResult F)) :
    Proc (ContextState F W C J) PyExc (ToolResult F) := do
  let started ← .atomic cfg.readCounter
  match ← execution.attempt with
  | .error e =>
    if e.isException then do
      .atomic (cfg.emitEnd i prepared started (lit "tool_failed")
        (lit "error_type", .str e.className))
      .raise e
    else .raise e
  | .ok result => do
    .atomic (cfg.emitEnd i prepared started (lit "tool_completed")
      (lit "result_type", .str result.typeName))
    return result

variable [DecidableEq C]

/-- `call_tool`. -/
def callTool (i : ℕ) (call : ToolCall F C) : Proc (ContextState F W C J) PyExc (ToolResult F) := do
  let prepared ← Proc.atomic (cfg.prepareCall i call false)
  cfg.reportCall i prepared (cfg.executeSync i prepared.toResolvedTool call.kwargs)

/-- `acall_tool`. -/
def acallTool (i : ℕ) (call : ToolCall F C) :
    Proc (ContextState F W C J) PyExc (ToolResult F) := do
  let prepared ← Proc.atomic (cfg.prepareCall i call true)
  cfg.reportCall i prepared (cfg.executeAsync i prepared.toResolvedTool call.kwargs)

/-- `acall_tool` or `call_tool`. -/
def toolCall (i : ℕ) (asyncMode : Bool) (call : ToolCall F C) :
    Proc (ContextState F W C J) PyExc (ToolResult F) :=
  if asyncMode then cfg.acallTool i call else cfg.callTool i call

end ContextConfig

end AgentRoi
