/-
`call_tool` and `acall_tool` of a synchronous tool do the same.

* `AsyncRuntime.HandsOn` — what `asyncio.to_thread` does with a function, and
  with the exception it raises;
* `SleepsAlike` — `time.sleep` and `asyncio.sleep` for the same delay;
* `PlainHandler` — a handler that returns no awaitable, and raises nothing
  `asyncio` treats in a way of its own or turns into something else;
* `SameRuns.guarded`, `SameRuns.retried`, `SameRuns.execute` — the layers around
  a handler, each of which keeps what runs alike alike;
* `call_paths_agree` — the two calls, run without interruption;
* `cancelled_handler_disagrees` — a handler that raises the `CancelledError` of
  `concurrent.futures`, which `asyncio` turns into its own.
-/
import AgentRoi.SequentialRuns
import AgentRoi.ToolMediation

namespace AgentRoi

open ContextState Proc

variable {F W C J α : Type}

/-- A function run in a thread hands on what it returned or raised; a
`StopIteration` cannot be handed on. -/
def HandedOn (r : Except PyExc α) : Prop :=
  ∀ e, r = .error e → e.isException = true ∧ e.className ≠ lit "StopIteration"

/-- `asyncio.to_thread` runs the function to its end and hands on how it ended,
with the exception that stands for the one it raised. -/
def AsyncRuntime.HandsOn (asyncio : AsyncRuntime F W) : Prop :=
  ∀ p w, HandedOn (p.run w).1 →
    (asyncio.toThread p).run w = ((p.run w).1.mapError asyncio.ofThread, (p.run w).2)

/-- At each invocation the handler returns a value that is not awaitable, or
raises an `Exception` other than `StopIteration` that stands for itself. -/
structure PlainHandler (asyncio : AsyncRuntime F W) (handler : Proc W PyExc (ToolResult F)) :
    Prop where
  handedOn : ∀ w, HandedOn (handler.run w).1
  asItIs : ∀ w e, (handler.run w).1 = .error e → asyncio.ofThread e = e
  notAwaitable : handler.ReturnsOnly fun result => result.isAwaitable = false

/-- A plain handler in a thread does what it does in the thread of the event loop. -/
theorem PlainHandler.run_toThread {asyncio : AsyncRuntime F W}
    {handler : Proc W PyExc (ToolResult F)} (h : PlainHandler asyncio handler)
    (hthread : asyncio.HandsOn) (w : W) : (asyncio.toThread handler).run w = handler.run w := by
  have hresult : (handler.run w).1.mapError asyncio.ofThread = (handler.run w).1 := by
    cases hr : (handler.run w).1 with
    | error e => exact congrArg Except.error (h.asItIs w e hr)
    | ok a => rfl
  rw [hthread handler w (h.handedOn w), hresult]

/-! ### The layers around a handler -/

section Layers

variable {p q : Proc (ContextState F W C J) PyExc α} {P : α → Prop}

theorem SameRuns.breaker (ref : BreakerRef W) (h : SameRuns p q) :
    SameRuns (ref.call p) (ref.call q) :=
  (SameRuns.refl _).bind fun _ => h.attempt.bind fun _ => .refl _

theorem SameRuns.guarded (tool : ResolvedTool F W C) (h : SameRuns p q) :
    SameRuns (tool.guarded p) (tool.guarded q) := by
  unfold ResolvedTool.guarded
  split
  · exact h
  · exact SameRuns.breaker _ h

theorem SameRuns.retryFrom (policy : RetryPolicy W)
    (pause : ℕ → Proc (ContextState F W C J) PyExc Unit) (h : SameRuns p q)
    (attempt remaining : ℕ) :
    SameRuns (retryFrom policy pause p attempt remaining)
      (retryFrom policy pause q attempt remaining) := by
  induction remaining generalizing attempt with
  | zero => exact .refl _
  | succ remaining ih =>
    refine h.attempt.bind fun r => ?_
    cases r with
    | ok a => exact .refl _
    | error e =>
      show SameRuns (if _ then _ else _) (if _ then _ else _)
      split
      · exact .refl _
      · exact (SameRuns.refl _).bind fun _ => ih (attempt + 1)

theorem SameRuns.retried (tool : ResolvedTool F W C) (sleep : ℕ → PyM W Unit)
    (h : SameRuns p q) : SameRuns (tool.retried sleep p) (tool.retried sleep q) := by
  unfold ResolvedTool.retried
  split
  · exact h
  · exact SameRuns.retryFrom _ _ h _ _

/-- What the layers return, the handler returned. -/
theorem returnsOnly_guarded (tool : ResolvedTool F W C) (hp : ReturnsOnly P p) :
    ReturnsOnly P (tool.guarded p) := by
  unfold ResolvedTool.guarded
  split
  · exact hp
  · refine returnsOnly_bind fun _ => returnsOnly_attempt_bind hp (fun a ha => ?_) fun e => ?_
    · exact returnsOnly_bind fun _ => returnsOnly_pure ha
    · exact returnsOnly_bind fun _ => returnsOnly_raise e

theorem returnsOnly_retryFrom (policy : RetryPolicy W)
    (pause : ℕ → Proc (ContextState F W C J) PyExc Unit) (hp : ReturnsOnly P p)
    (attempt remaining : ℕ) : ReturnsOnly P (retryFrom policy pause p attempt remaining) := by
  induction remaining generalizing attempt with
  | zero => exact returnsOnly_raise _
  | succ remaining ih =>
    refine returnsOnly_attempt_bind hp (fun a ha => returnsOnly_pure ha) fun e => ?_
    show ReturnsOnly P (if _ then _ else _)
    split
    · exact returnsOnly_raise e
    · exact returnsOnly_bind fun _ => ih (attempt + 1)

theorem returnsOnly_retried (tool : ResolvedTool F W C) (sleep : ℕ → PyM W Unit)
    (hp : ReturnsOnly P p) : ReturnsOnly P (tool.retried sleep p) := by
  unfold ResolvedTool.retried
  split
  · exact hp
  · exact returnsOnly_retryFrom _ _ hp _ _

end Layers

namespace ContextConfig

variable {cfg : ContextConfig F W C J} {i : ℕ}

/-- `time.sleep` and `asyncio.sleep` do the same to the world outside. -/
def SleepsAlike (cfg : ContextConfig F W C J) : Prop := ∀ n w, cfg.sleep n w = cfg.asyncSleep n w

/-- The idempotency record around an execution. -/
theorem sameRuns_execute [PyFloat F] (tool : ResolvedTool F W C) (kwargs : PyDict F)
    {p q : Proc (ContextState F W C J) PyExc (ToolResult F)} (h : SameRuns p q) :
    SameRuns (cfg.execute tool kwargs p) (cfg.execute tool kwargs q) := by
  unfold ContextConfig.execute
  split
  · exact h
  · refine (SameRuns.refl _).bind fun request => ?_
    split
    · exact .refl _
    · exact h.attempt.bind fun _ => .refl _

/-- A program on the world outside, as part of a context. -/
theorem sameRuns_inWorld {p q : Proc W PyExc α} (h : SameRuns p q) :
    SameRuns (inWorld p : Proc (ContextState F W C J) PyExc α) (inWorld q) :=
  h.within (fun _ _ => rfl) (fun _ => rfl) fun _ _ _ => rfl

/-! ### The two ways to execute -/

/-- The handler in its own thread, or in the thread of the event loop. -/
theorem sameRuns_rawCall (hthread : cfg.asyncio.HandsOn) {tool : ResolvedTool F W C}
    {kwargs : PyDict F} (hsync : cfg.callables.isCoroutineFunction tool.handler = false)
    (htimed : tool.spec.bind ToolSpec.timeoutSeconds = none)
    (hplain : PlainHandler cfg.asyncio (cfg.callables.call tool.handler tool.args kwargs)) :
    SameRuns (cfg.rawCall i tool kwargs) (cfg.arawCall i tool kwargs) := by
  refine (SameRuns.refl _).bind fun _ => sameRuns_inWorld fun w => ?_
  have hawaited : cfg.awaited tool kwargs =
      cfg.asyncio.toThread (cfg.callables.call tool.handler tool.args kwargs) := by
    simp only [awaited, htimed, hsync, Bool.false_eq_true, if_false]
  rw [hawaited, hplain.run_toThread hthread]

theorem returnsOnly_rawCall {tool : ResolvedTool F W C} {kwargs : PyDict F}
    (hplain : PlainHandler cfg.asyncio (cfg.callables.call tool.handler tool.args kwargs)) :
    ReturnsOnly (fun result => result.isAwaitable = false) (cfg.rawCall i tool kwargs) :=
  returnsOnly_bind fun _ => returnsOnly_within (fun _ _ => rfl) (fun _ => rfl) (fun _ _ _ => rfl)
    hplain.notAwaitable

/-- `_execute_sync` and `_execute_async`. -/
theorem sameRuns_executions [PyFloat F] (hthread : cfg.asyncio.HandsOn) (hsleep : cfg.SleepsAlike)
    {tool : ResolvedTool F W C} {kwargs : PyDict F}
    (hsync : cfg.callables.isCoroutineFunction tool.handler = false)
    (htimed : tool.spec.bind ToolSpec.timeoutSeconds = none)
    (hplain : PlainHandler cfg.asyncio (cfg.callables.call tool.handler tool.args kwargs)) :
    SameRuns (cfg.executeSync i tool kwargs) (cfg.executeAsync i tool kwargs) := by
  have hsleeps : cfg.sleep = cfg.asyncSleep := funext fun n => funext (hsleep n)
  refine sameRuns_execute tool kwargs ?_
  rw [← hsleeps]
  -- no result is an awaitable, so none is rejected
  refine SameRuns.trans (sameRuns_bind_pure (P := fun result => result.isAwaitable = false)
    (returnsOnly_retried tool _ (returnsOnly_guarded tool (returnsOnly_rawCall hplain)))
    fun result hresult s => ?_) ?_
  · show cfg.rejectAwaitable tool result s = (.ok result, s)
    rw [rejectAwaitable, if_neg (by rw [hresult]; decide)]
    rfl
  · exact SameRuns.retried tool _ (SameRuns.guarded tool
      (sameRuns_rawCall hthread hsync htimed hplain))

/-! ### Whole calls -/

variable [DecidableEq C] {call : ToolCall F C} {spec : ToolSpec F W C}

omit [DecidableEq C] in
/-- A synchronous tool without a timeout can be run both ways. -/
theorem checkMode_eq_ok {tool : ResolvedTool F W C} (hspec : tool.spec = some spec)
    (hsync : cfg.callables.isCoroutineFunction tool.handler = false)
    (htimed : spec.timeoutSeconds = none) (toolName : Str) (asyncMode : Bool) :
    cfg.checkMode toolName tool asyncMode = .ok () := by
  simp [checkMode, hspec, hsync, htimed]

variable [PyFloat F]

/-- `_prepare_call` in the two modes. -/
theorem prepareCall_modes (hregistered : cfg.registered call.toolName = some spec)
    (hsync : cfg.callables.isCoroutineFunction spec.handler = false)
    (htimed : spec.timeoutSeconds = none) :
    cfg.prepareCall i call false = cfg.prepareCall i call true := by
  have hrequest : cfg.requestTool i call false = cfg.requestTool i call true := by
    unfold requestTool
    rcases hresolve : cfg.resolveTool call with e | tool
    · rfl
    · obtain ⟨hspec, hhandler⟩ := resolveTool_registered hresolve hregistered
      have hmode : ∀ asyncMode, cfg.checkMode call.toolName tool asyncMode = .ok () :=
        checkMode_eq_ok hspec (hhandler ▸ hsync) htimed call.toolName
      have hok : ∀ {β : Type} (f : ResolvedTool F W C → PyM (ContextState F W C J) β),
          (PyM.ofExcept (.ok tool) >>= f) = f tool := fun _ => rfl
      simp only [hok, hmode]
  unfold prepareCall
  rw [hrequest]

/-- `call_tool` and an uninterrupted `acall_tool` of a synchronous tool without
a timeout end in the same way and leave the same state. -/
theorem call_paths_agree (hthread : cfg.asyncio.HandsOn) (hsleep : cfg.SleepsAlike)
    (hregistered : cfg.registered call.toolName = some spec)
    (hsync : cfg.callables.isCoroutineFunction spec.handler = false)
    (htimed : spec.timeoutSeconds = none)
    (hplain : ∀ args kwargs,
      PlainHandler cfg.asyncio (cfg.callables.call spec.handler args kwargs))
    (s : ContextState F W C J) : (cfg.callTool i call).run s = (cfg.acallTool i call).run s := by
  have hreturns : ReturnsOnly
      (fun prepared : PreparedCall F W C => cfg.resolveTool call = .ok prepared.toResolvedTool)
      (Proc.atomic (cfg.prepareCall i call false)) := by
    intro s prepared t hrun
    obtain ⟨events, -, hprepared⟩ := logs_prepareCall cfg i call false s
    rw [show (cfg.prepareCall i call false s).1 = .ok prepared from congrArg Prod.fst hrun]
      at hprepared
    cases hprepared with
    | prepared h => exact h.resolved
  refine SameRuns.bind_of_returns ?_ hreturns (fun prepared hresolved => ?_) s
  · rw [prepareCall_modes hregistered hsync htimed]
    exact .refl _
  · obtain ⟨hspec, hhandler⟩ := resolveTool_registered hresolved hregistered
    refine (SameRuns.refl _).bind fun started => SameRuns.attempt ?_ |>.bind fun _ => .refl _
    refine sameRuns_executions hthread hsleep (hhandler ▸ hsync) ?_ (hhandler ▸ hplain _ _)
    rw [hspec]
    exact htimed

/-- The handler of the payment is a plain one, and the payment is paid both ways. -/
theorem call_paths_agree_pay : (payContext.callTool 0 payCall).run newContextState =
    (payContext.acallTool 0 payCall).run newContextState := by
  have hpaid : PlainHandler payContext.asyncio
      (pure ⟨.none, lit "NoneType", false⟩ : Proc Unit PyExc (ToolResult Half)) := by
    refine ⟨fun _ _ h => ?_, fun _ _ _ => rfl, returnsOnly_pure rfl⟩
    cases h
  have hregistered : payContext.registered payCall.toolName = some payTool := rfl
  have hthread : payContext.asyncio.HandsOn := by
    intro p w _
    show p.run w = ((p.run w).1.mapError id, (p.run w).2)
    rcases p.run w with ⟨e | a, w'⟩ <;> rfl
  exact call_paths_agree hthread (fun _ _ => rfl) hregistered rfl rfl
    (fun _ _ => hpaid) newContextState

/-! ### An exception that is turned into another -/

/-- `concurrent.futures.CancelledError`, an `Exception`. -/
def futureCancelled : PyExc := .other (lit "CancelledError") (some []) true

/-- `asyncio.CancelledError`, which is none. -/
def taskCancelled : PyExc := .other (lit "CancelledError") (some []) false

/-- What `asyncio` makes of an exception of a future. -/
def convertFutureExc (e : PyExc) : PyExc := if e = futureCancelled then taskCancelled else e

/-- Runs the function, and raises what stands for its exception. -/
def convertingThread (p : Proc Unit PyExc (ToolResult Half)) :
    Proc Unit PyExc (ToolResult Half) := do
  match ← p.attempt with
  | .ok result => return result
  | .error e => .raise (convertFutureExc e)

/-- The payment waits for a future that was cancelled. -/
def cancelledContext : ContextConfig Half Unit Bool Unit :=
  { payContext with
    callables := { payContext.callables with call := fun _ _ _ => .raise futureCancelled }
    asyncio := ⟨fun _ p => p, convertingThread, convertFutureExc⟩ }

theorem handsOn_cancelledContext : cancelledContext.asyncio.HandsOn := by
  intro p w _
  show (convertingThread p).run w = ((p.run w).1.mapError convertFutureExc, (p.run w).2)
  rw [convertingThread, Proc.run_bind, Proc.run_attempt]
  rcases p.run w with ⟨e | a, w'⟩ <;> rfl

/-- The exception a call ends in. -/
def raisedBy (r : Except PyExc (ToolResult Half) × ContextState Half Unit Bool Unit) :
    Option PyExc :=
  match r.1 with
  | .error e => some e
  | .ok _ => none

/-- The handler raises an `Exception` other than `StopIteration`; one call ends
in it, and the other is cancelled. -/
theorem cancelled_handler_disagrees :
    cancelledContext.asyncio.HandsOn ∧ cancelledContext.SleepsAlike ∧
      cancelledContext.registered payCall.toolName = some payTool ∧
      cancelledContext.callables.isCoroutineFunction payTool.handler = false ∧
      payTool.timeoutSeconds = none ∧
      (∀ args kwargs w,
        HandedOn ((cancelledContext.callables.call payTool.handler args kwargs).run w).1) ∧
      raisedBy ((cancelledContext.callTool 0 payCall).run newContextState) =
        some futureCancelled ∧
      raisedBy ((cancelledContext.acallTool 0 payCall).run newContextState) =
        some taskCancelled := by
  refine ⟨handsOn_cancelledContext, fun _ _ => rfl, rfl, rfl, rfl, fun args kwargs w e he => ?_,
    ?_, ?_⟩
  · obtain rfl : futureCancelled = e := Except.error.inj he
    exact ⟨rfl, by decide⟩
  · decide +kernel
  · decide +kernel

end ContextConfig

end AgentRoi
