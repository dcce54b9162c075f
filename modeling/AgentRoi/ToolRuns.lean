/-
The steps of the calls of a context, whatever runs beside them.

* `ContextOp` — what an agent asks of its context; a task performs one after
  the other;
* `ContextConfig.Running` — the call has been charged, and has only run its
  handler since;
* `ContextConfig.CallStep` — what a step of a call does;
* `ContextConfig.Ended` — what is known of a call that ended;
* `safe_callTool`, `safe_acallTool` — every step of a call is such a step, and
  it ends so;
* `ContextConfig.Reach`, `Reach.invariant` — the states of a context, with any
  operations at a time, and what holds in all of them.

The others note nothing in the name of the call; so its own events are what it
relies on.
-/
import AgentRoi.IdempotencyRuns
import AgentRoi.ToolPreparation

namespace AgentRoi

variable {F W C J α β : Type}

open ContextState EventTrace

/-- The start of a call. -/
def isCalled : CallEvent F C → Bool
  | .called _ => true
  | _ => false

namespace ContextConfig

variable (cfg : ContextConfig F W C J) (i : ℕ)

section Steps

variable [PyFloat F] [DecidableEq C]

/-- The events of a call up to its start. -/
def upToStart (call : ToolCall F C) (before approval : List (CallEvent F C))
    (prepared : PreparedCall F W C) : List (CallEvent F C) :=
  cfg.told (lit "tool_started") prepared.eventBase ++
    cfg.told (lit "tool_authorized") prepared.eventBase ++
    cfg.upToCharge call before approval prepared

/-- The call has been charged, and has only run its handler since. -/
def Running (call : ToolCall F C) (asyncMode : Bool) (prepared : PreparedCall F W C)
    (s : ContextState F W C J) : Prop :=
  ∃ before approval checkpoint runs old,
    cfg.Authorised call asyncMode before approval prepared checkpoint ∧
    (∀ e ∈ runs, e = .invoked prepared.handler prepared.args call.kwargs) ∧
    own i s.trace = runs ++ (cfg.upToStart call before approval prepared ++ old)

/-- The payload of the event that closes a call. -/
def endPayload (prepared : PreparedCall F W C) (elapsed : Int) (detail : Str × PyVal F) :
    PyDict F := prepared.eventBase ++ [(lit "elapsed_ms", .int elapsed), detail]

/-- How a call that ran closes; only an exception that is no `Exception` closes
it silently. What the emitter raises on the completion is what the call raises. -/
inductive Ending (prepared : PreparedCall F W C) :
    Except PyExc (ToolResult F) → List (CallEvent F C) → Prop
  | completed {r : Except PyExc (ToolResult F)} {elapsed : Int} {typeName : Str}
      (hheard : cfg.Heard → r.isOk = true) :
      Ending prepared r (cfg.told (lit "tool_completed")
        (endPayload prepared elapsed (lit "result_type", .str typeName)))
  | failed {e : PyExc} {elapsed : Int} {className : Str} :
      Ending prepared (.error e) (cfg.told (lit "tool_failed")
        (endPayload prepared elapsed (lit "error_type", .str className)))
  | silent {e : PyExc} (he : e.isException = false) : Ending prepared (.error e) []

/-- What a step of a call does. -/
inductive CallStep (s t : ContextState F W C J) : Prop
  | idle (h : cfg.Notes i [] s t)
  | prepared {call asyncMode r events} (h : cfg.Preparation call asyncMode r events)
      (hrun : cfg.prepareCall i call asyncMode s = (r, t)) (hnotes : cfg.Notes i events s t)
  | invoked {call asyncMode prepared} (h : cfg.Running i call asyncMode prepared s)
      (hnotes : cfg.Notes i [.invoked prepared.handler prepared.args call.kwargs] s t)
  | ended {call asyncMode prepared r events} (h : cfg.Running i call asyncMode prepared s)
      (hending : cfg.Ending prepared r events) (hnotes : cfg.Notes i events s t)

/-- The others leave what the operation noted. -/
def Rely (s t : ContextState F W C J) : Prop := own i t.trace = own i s.trace

/-- How a call can have ended. -/
inductive Ended (call : ToolCall F C) (asyncMode : Bool) (r : Except PyExc (ToolResult F))
    (t : ContextState F W C J) : Prop
  | unprepared {e events old} (hr : r = .error e)
      (h : cfg.Preparation call asyncMode (.error e) events)
      (hown : own i t.trace = events ++ old)
  | ran {before approval prepared checkpoint runs ending old}
      (h : cfg.Authorised call asyncMode before approval prepared checkpoint)
      (hruns : ∀ e ∈ runs, e = .invoked prepared.handler prepared.args call.kwargs)
      (hending : cfg.Ending prepared r ending)
      (hown : own i t.trace = ending ++ (runs ++ (cfg.upToStart call before approval prepared ++ old)))

end Steps

variable {cfg i} {s t u : ContextState F W C J}

theorem Rely.refl (s : ContextState F W C J) : Rely i s s := rfl

theorem Rely.trans (h : Rely i s t) (h' : Rely i t u) : Rely i s u := Eq.trans h' h

theorem Notes.own {events : List (CallEvent F C)} (h : cfg.Notes i events s t) :
    own i t.trace = events ++ own i s.trace := by
  rw [h.trace, own_map_append_self]

/-! ### Methods that note nothing -/

/-- The method notes nothing, and leaves the counters alone. -/
def Silent (cfg : ContextConfig F W C J) (i : ℕ) (x : PyM (ContextState F W C J) α) : Prop :=
  cfg.Logs i (fun _ events => events = []) x

theorem Silent.notes {x : PyM (ContextState F W C J) α} (h : cfg.Silent i x)
    (s : ContextState F W C J) : cfg.Notes i [] s (x s).2 := by
  obtain ⟨_, hnotes, rfl⟩ := h s
  exact hnotes

theorem Silent.bind {x : PyM (ContextState F W C J) α} {f : α → PyM (ContextState F W C J) β}
    (hx : cfg.Silent i x) (hf : ∀ a, cfg.Silent i (f a)) : cfg.Silent i (x >>= f) := by
  refine logs_bind hx ?_ fun e events h => h
  rintro a _ rfl
  refine (hf a).imp fun r events h => ?_
  rw [h, List.append_nil]

theorem silent_onWorld (x : PyM W α) : cfg.Silent i (onWorld x) := logs_onWorld fun _ => rfl

theorem silent_pure (a : α) : cfg.Silent i (pure a) := logs_pure rfl

theorem silent_raise (e : PyExc) : cfg.Silent i (PyM.raise e : PyM (ContextState F W C J) α) :=
  logs_raise rfl

theorem silent_ofExcept (r : Except PyExc α) : cfg.Silent i (.ofExcept r) := logs_ofExcept rfl

theorem silent_get : cfg.Silent i (PyM.get : PyM (ContextState F W C J) _) :=
  fun s => ⟨[], .refl s, rfl⟩

theorem silent_onBreaker (n : ℕ) (x : PyM BreakerMemory α) : cfg.Silent i (onBreaker n x) :=
  fun _ => ⟨[], notes_of_same rfl rfl rfl rfl rfl rfl, rfl⟩

theorem silent_inStore (n : ℕ) (x : PyM (IdempotencyStore F) α) : cfg.Silent i (inStore n x) :=
  fun _ => ⟨[], notes_of_same rfl rfl rfl rfl rfl rfl, rfl⟩

theorem silent_beforeCall (ref : BreakerRef W) : cfg.Silent i ref.beforeCall := by
  refine silent_get.bind fun s => ?_
  split
  · exact (silent_onWorld _).bind fun _ => silent_onBreaker _ _
  · exact silent_onBreaker _ _

theorem silent_recordFailure (ref : BreakerRef W) : cfg.Silent i ref.recordFailure := by
  refine silent_get.bind fun s => (silent_onBreaker _ _).bind fun _ => ?_
  split
  · exact (silent_onWorld _).bind fun _ => silent_onBreaker _ _
  · exact silent_pure _

theorem silent_rejectAwaitable (tool : ResolvedTool F W C) (result : ToolResult F) :
    cfg.Silent i (cfg.rejectAwaitable tool result) := by
  unfold rejectAwaitable
  split
  · exact (silent_onWorld _).bind fun _ => silent_raise _
  · exact silent_pure _

section

variable [PyFloat F]

theorem silent_prepareRequest (policy : IdempotencyPolicy F W) (args : List (PyVal F))
    (kwargs : PyDict F) : cfg.Silent i (cfg.prepareRequest policy args kwargs) := by
  refine (silent_onWorld _).bind fun text => ?_
  split
  · exact silent_raise _
  · exact (silent_ofExcept _).bind fun _ => (silent_onWorld _).bind fun _ =>
      (silent_onWorld _).bind fun _ => (silent_inStore _ _).bind fun _ => silent_pure _

theorem silent_completeRequest (policy : IdempotencyPolicy F W) (key : Str) (response : PyVal F) :
    cfg.Silent i (cfg.completeRequest policy key response) :=
  (silent_onWorld _).bind fun _ => silent_inStore _ _

omit [PyFloat F] in
theorem silent_failRequest (policy : IdempotencyPolicy F W) (key : Str) (e : PyExc) :
    cfg.Silent i (cfg.failRequest policy key e) :=
  (silent_ofExcept _).bind fun _ => (silent_onWorld _).bind fun _ => silent_inStore _ _

end

/-! ### Programs that run a handler -/

variable [PyFloat F] [DecidableEq C] {call : ToolCall F C} {asyncMode : Bool}
  {prepared : PreparedCall F W C}

theorem Running.rely (h : cfg.Running i call asyncMode prepared s) (hst : Rely i s t) :
    cfg.Running i call asyncMode prepared t := by
  obtain ⟨before, approval, checkpoint, runs, old, hauth, hruns, hown⟩ := h
  exact ⟨before, approval, checkpoint, runs, old, hauth, hruns, Eq.trans hst hown⟩

theorem Running.silent (h : cfg.Running i call asyncMode prepared s)
    (hnotes : cfg.Notes i [] s t) : cfg.Running i call asyncMode prepared t :=
  h.rely hnotes.own

/-- The handler runs once more. -/
theorem Running.invoked (h : cfg.Running i call asyncMode prepared s)
    (hnotes : cfg.Notes i [.invoked prepared.handler prepared.args call.kwargs] s t) :
    cfg.Running i call asyncMode prepared t := by
  obtain ⟨before, approval, checkpoint, runs, old, hauth, hruns, hown⟩ := h
  refine ⟨before, approval, checkpoint, _ :: runs, old, hauth,
    List.forall_mem_cons.mpr ⟨rfl, hruns⟩, ?_⟩
  rw [hnotes.own, hown]
  rfl

/-- From a running call, the program takes its steps and leaves it running. -/
def Runs (cfg : ContextConfig F W C J) (i : ℕ) (call : ToolCall F C) (asyncMode : Bool)
    (prepared : PreparedCall F W C) (p : Proc (ContextState F W C J) PyExc α) : Prop :=
  ∀ s, cfg.Running i call asyncMode prepared s →
    Proc.Safe (Rely i) (cfg.CallStep i) (fun _ => True)
      (fun _ t => cfg.Running i call asyncMode prepared t) p s

theorem runs_done (r : Except PyExc α) : cfg.Runs i call asyncMode prepared (.done r) :=
  fun _ hs _ ht _ => hs.rely ht

theorem runs_atomic {x : PyM (ContextState F W C J) α} (hx : cfg.Silent i x) :
    cfg.Runs i call asyncMode prepared (.atomic x) := by
  intro s hs
  refine Proc.safe_atomic fun t ht _ => ⟨trivial, .idle (hx.notes t), fun u hu _ => ?_⟩
  exact ((hs.rely ht).silent (hx.notes t)).rely hu

theorem Runs.bind {p : Proc (ContextState F W C J) PyExc α}
    {f : α → Proc (ContextState F W C J) PyExc β} (hp : cfg.Runs i call asyncMode prepared p)
    (hf : ∀ a, cfg.Runs i call asyncMode prepared (f a)) :
    cfg.Runs i call asyncMode prepared (p >>= f) :=
  fun s hs => Proc.safe_bind Rely.refl (hp s hs) trivial (fun a t _ ht => hf a t ht)
    fun _ _ _ ht => ht

theorem Runs.attempt {p : Proc (ContextState F W C J) PyExc α}
    (hp : cfg.Runs i call asyncMode prepared p) :
    cfg.Runs i call asyncMode prepared p.attempt :=
  fun s hs => Proc.safe_attempt (hp s hs) fun _ _ _ ht => ht

/-- A program on the world outside, be it a handler of any kind. -/
theorem runs_inWorld (p : Proc W PyExc α) : cfg.Runs i call asyncMode prepared (inWorld p) := by
  induction p with
  | done r => exact runs_done r
  | step act next ih =>
    intro s hs t ht _
    have hnotes : cfg.Notes i [] t (t.setOutside (act t.outside)) :=
      notes_of_same rfl rfl rfl rfl rfl rfl
    exact ⟨trivial, .idle hnotes, ih t.outside _ ((hs.rely ht).silent hnotes)⟩

theorem runs_invoke : cfg.Runs i call asyncMode prepared
    (.atomic (PyM.modify (note i (.invoked prepared.handler prepared.args call.kwargs)))) := by
  intro s hs
  refine Proc.safe_atomic fun t ht _ => ?_
  have hnotes : cfg.Notes i [.invoked prepared.handler prepared.args call.kwargs] t
      (note i (.invoked prepared.handler prepared.args call.kwargs) t) :=
    notes_of_same rfl rfl rfl rfl rfl rfl
  exact ⟨trivial, .invoked (hs.rely ht) hnotes, fun u hu _ =>
    ((hs.rely ht).invoked hnotes).rely hu⟩

theorem runs_rawCall : cfg.Runs i call asyncMode prepared
    (cfg.rawCall i prepared.toResolvedTool call.kwargs) :=
  runs_invoke.bind fun _ => runs_inWorld _

theorem runs_arawCall : cfg.Runs i call asyncMode prepared
    (cfg.arawCall i prepared.toResolvedTool call.kwargs) :=
  runs_invoke.bind fun _ => runs_inWorld _

theorem Runs.breaker {fn : Proc (ContextState F W C J) PyExc α} (ref : BreakerRef W)
    (hfn : cfg.Runs i call asyncMode prepared fn) :
    cfg.Runs i call asyncMode prepared (ref.call fn) := by
  refine (runs_atomic (silent_beforeCall ref)).bind fun _ => hfn.attempt.bind fun r => ?_
  cases r with
  | error e => exact (runs_atomic (silent_recordFailure ref)).bind fun _ => runs_done _
  | ok a => exact (runs_atomic (silent_onBreaker _ _)).bind fun _ => runs_done _

theorem Runs.guarded {fn : Proc (ContextState F W C J) PyExc α} (tool : ResolvedTool F W C)
    (hfn : cfg.Runs i call asyncMode prepared fn) :
    cfg.Runs i call asyncMode prepared (tool.guarded fn) := by
  unfold ResolvedTool.guarded
  split
  · exact hfn
  · exact hfn.breaker _

theorem Runs.retryFrom {fn : Proc (ContextState F W C J) PyExc α} (policy : RetryPolicy W)
    (sleep : ℕ → PyM W Unit) (hfn : cfg.Runs i call asyncMode prepared fn)
    (attempt remaining : ℕ) :
    cfg.Runs i call asyncMode prepared
      (retryFrom policy (pauseAfter policy sleep) fn attempt remaining) := by
  induction remaining generalizing attempt with
  | zero => exact runs_done _
  | succ remaining ih =>
    refine hfn.attempt.bind fun r => ?_
    cases r with
    | ok a => exact runs_done _
    | error e =>
      show cfg.Runs i call asyncMode prepared (if _ then _ else _)
      split
      · exact runs_done _
      · exact (runs_atomic (silent_onWorld _)).bind fun _ => ih (attempt + 1)

theorem Runs.retried {fn : Proc (ContextState F W C J) PyExc α} (tool : ResolvedTool F W C)
    (sleep : ℕ → PyM W Unit) (hfn : cfg.Runs i call asyncMode prepared fn) :
    cfg.Runs i call asyncMode prepared (tool.retried sleep fn) := by
  unfold ResolvedTool.retried
  split
  · exact hfn
  · exact hfn.retryFrom _ _ _ _

theorem Runs.execute {execution : Proc (ContextState F W C J) PyExc (ToolResult F)}
    (tool : ResolvedTool F W C) (kwargs : PyDict F)
    (h : cfg.Runs i call asyncMode prepared execution) :
    cfg.Runs i call asyncMode prepared (cfg.execute tool kwargs execution) := by
  unfold ContextConfig.execute
  split
  · exact h
  · rename_i policy _
    refine (runs_atomic (silent_prepareRequest policy _ _)).bind fun request => ?_
    split
    · exact runs_done _
    · refine h.attempt.bind fun r => ?_
      cases r with
      | ok result => exact (runs_atomic (silent_completeRequest _ _ _)).bind fun _ => runs_done _
      | error e =>
        show cfg.Runs i call asyncMode prepared (if _ then _ else _)
        split
        · exact (runs_atomic (silent_failRequest _ _ _)).bind fun _ => runs_done _
        · exact runs_done _

theorem runs_executeSync : cfg.Runs i call asyncMode prepared
    (cfg.executeSync i prepared.toResolvedTool call.kwargs) :=
  Runs.execute _ _ (((runs_rawCall.guarded _).retried _ _).bind fun _ =>
    runs_atomic (silent_rejectAwaitable _ _))

theorem runs_executeAsync : cfg.Runs i call asyncMode prepared
    (cfg.executeAsync i prepared.toResolvedTool call.kwargs) :=
  Runs.execute _ _ ((runs_arawCall.guarded _).retried _ _)

/-! ### Whole calls -/

omit [PyFloat F] [DecidableEq C] in
theorem logs_readCounter :
    cfg.Logs i (fun r events => (∃ now, r = .ok now) ∧ events = []) cfg.readCounter :=
  fun _ => ⟨[], notes_of_same rfl rfl rfl rfl rfl rfl, ⟨_, rfl⟩, rfl⟩

variable (cfg i prepared) in
omit [PyFloat F] [DecidableEq C] in
theorem logs_emitEnd (started : ℚ) (eventType : Str) (detail : Str × PyVal F) :
    cfg.Logs i (fun r events => (∃ elapsed,
        events = cfg.told eventType (endPayload prepared elapsed detail)) ∧
        (cfg.Heard → r = .ok ()))
      (cfg.emitEnd i prepared started eventType detail) := by
  refine logs_bind logs_readCounter ?_ ?_
  · rintro now _ ⟨-, rfl⟩
    refine (logs_emit_heard _ _).imp fun r events h => ⟨⟨elapsedMs started now, ?_⟩, h.2⟩
    rw [List.append_nil]
    exact h.1
  · rintro e _ ⟨⟨now, hnow⟩, -⟩
    cases hnow

/-- The call ran, and is closed. -/
def Ran (cfg : ContextConfig F W C J) (i : ℕ) (call : ToolCall F C) (asyncMode : Bool)
    (r : Except PyExc (ToolResult F)) (t : ContextState F W C J) : Prop :=
  ∃ before approval prepared checkpoint runs ending old,
    cfg.Authorised call asyncMode before approval prepared checkpoint ∧
    (∀ e ∈ runs, e = .invoked prepared.handler prepared.args call.kwargs) ∧
    cfg.Ending prepared r ending ∧
    own i t.trace = ending ++ (runs ++ (cfg.upToStart call before approval prepared ++ old))

/-- The call ran, or its preparation raised what the call raises. -/
def RanOrRefused (cfg : ContextConfig F W C J) (i : ℕ) (call : ToolCall F C) (asyncMode : Bool)
    (r : Except PyExc (ToolResult F)) (t : ContextState F W C J) : Prop :=
  cfg.Ran i call asyncMode r t ∨ ∃ e s u, r = .error e ∧
    cfg.prepareCall i call asyncMode s = (.error e, u) ∧ Rely i u t

theorem RanOrRefused.ended {r : Except PyExc (ToolResult F)}
    (h : cfg.RanOrRefused i call asyncMode r t) : cfg.Ended i call asyncMode r t := by
  rcases h with ⟨before, approval, prepared, checkpoint, runs, ending, old, hauth, hruns, hending,
    hown⟩ | ⟨e, s, u, rfl, hrun, hrely⟩
  · exact .ran hauth hruns hending hown
  · obtain ⟨events, hnotes, hprepared⟩ := logs_prepareCall cfg i call asyncMode s
    rw [hrun] at hnotes hprepared
    exact .unprepared rfl hprepared (Eq.trans hrely hnotes.own)

theorem Ran.rely {r : Except PyExc (ToolResult F)} (h : cfg.Ran i call asyncMode r s)
    (hst : Rely i s t) : cfg.Ran i call asyncMode r t := by
  obtain ⟨before, approval, prepared, checkpoint, runs, ending, old, hauth, hruns, hending, hown⟩ := h
  exact ⟨before, approval, prepared, checkpoint, runs, ending, old, hauth, hruns, hending,
    Eq.trans hst hown⟩

/-- The call after the step that closes it. -/
theorem Running.closed (h : cfg.Running i call asyncMode prepared s)
    {events : List (CallEvent F C)} {r : Except PyExc (ToolResult F)}
    (hnotes : cfg.Notes i events s t) (hending : cfg.Ending prepared r events) :
    cfg.Ran i call asyncMode r t := by
  obtain ⟨before, approval, checkpoint, runs, old, hauth, hruns, hown⟩ := h
  have hown' : own i t.trace =
      events ++ (runs ++ (cfg.upToStart call before approval prepared ++ old)) := by
    rw [hnotes.own, hown]
  exact ⟨before, approval, prepared, checkpoint, runs, events, old, hauth, hruns, hending, hown'⟩

/-- An execution, with the event that closes the call. -/
theorem Running.safe_reportCall (h : cfg.Running i call asyncMode prepared s)
    {execution : Proc (ContextState F W C J) PyExc (ToolResult F)}
    (hexecution : cfg.Runs i call asyncMode prepared execution) :
    Proc.Safe (Rely i) (cfg.CallStep i) (fun _ => True) (cfg.Ran i call asyncMode)
      (cfg.reportCall i prepared execution) s := by
  refine Proc.safe_step fun t ht _ => ?_
  have hstart : cfg.Notes i [] t (cfg.readCounter t).2 := notes_of_same rfl rfl rfl rfl rfl rfl
  refine ⟨trivial, .idle hstart, fun started _ => ?_, fun e he => by cases he⟩
  refine Proc.safe_attempt_bind (R := Rely i) Rely.refl
    (hexecution _ ((h.rely ht).silent hstart)) trivial fun r u _ hu => ?_
  cases r with
  | error e =>
    show Proc.Safe _ _ _ _ (if _ then _ else _) u
    split_ifs with he
    · refine Proc.safe_step fun v hv _ => ?_
      obtain ⟨_, hnotes, ⟨elapsed, rfl⟩, -⟩ :=
        logs_emitEnd cfg i prepared started (lit "tool_failed") (lit "error_type", .str e.className) v
      have hended : ∀ e', cfg.Ran i call asyncMode (.error e') _ :=
        fun e' => (hu.rely hv).closed hnotes .failed
      exact ⟨trivial, .ended (r := .error e) (hu.rely hv) .failed hnotes,
        fun _ _ w hw _ => (hended e).rely hw, fun e' _ w hw _ => (hended e').rely hw⟩
    · have hsilent : e.isException = false := Bool.eq_false_iff.mpr he
      obtain ⟨before, approval, checkpoint, runs, old, hauth, hruns, hown⟩ := hu
      exact fun v hv _ => ⟨before, approval, prepared, checkpoint, runs, [], old, hauth, hruns,
        .silent hsilent, Eq.trans hv hown⟩
  | ok result =>
    refine Proc.safe_step fun v hv _ => ?_
    obtain ⟨_, hnotes, ⟨elapsed, rfl⟩, hok⟩ :=
      logs_emitEnd cfg i prepared started (lit "tool_completed")
        (lit "result_type", .str result.typeName) v
    refine ⟨trivial, .ended (r := .ok result) (hu.rely hv) (.completed fun _ => rfl) hnotes,
      fun _ _ w hw _ => ?_, fun e he w hw _ => ?_⟩
    · exact ((hu.rely hv).closed hnotes (.completed fun _ => rfl)).rely hw
    · refine ((hu.rely hv).closed hnotes (.completed fun hheard => ?_)).rely hw
      rw [hok hheard] at he
      cases he

/-- The steps of a call whose tool runs as `execution` says, and how it ends. -/
theorem safe_prepared {execution : PreparedCall F W C →
      Proc (ContextState F W C J) PyExc (ToolResult F)}
    (hexecution : ∀ prepared, cfg.Runs i call asyncMode prepared (execution prepared))
    (s : ContextState F W C J) :
    Proc.Safe (Rely i) (cfg.CallStep i) (fun _ => True) (cfg.RanOrRefused i call asyncMode)
      (Proc.atomic (cfg.prepareCall i call asyncMode) >>= fun prepared =>
        cfg.reportCall i prepared (execution prepared)) s := by
  refine Proc.safe_step fun t ht _ => ?_
  obtain ⟨events, hnotes, hprepared⟩ := logs_prepareCall cfg i call asyncMode t
  refine ⟨trivial, .prepared hprepared rfl hnotes, fun prepared hok => ?_, fun e he u hu _ => ?_⟩
  · rw [hok] at hprepared
    cases hprepared with
    | @prepared before approval _ checkpoint h =>
      have hrunning : cfg.Running i call asyncMode prepared (cfg.prepareCall i call asyncMode t).2 := by
        refine ⟨before, approval, checkpoint, [], own i t.trace, h,
          fun _ he => absurd he List.not_mem_nil, ?_⟩
        rw [hnotes.own]
        rfl
      exact (hrunning.safe_reportCall (hexecution prepared)).imp fun r u _ hran => .inl hran
  · have hrun : cfg.prepareCall i call asyncMode t =
        (.error e, (cfg.prepareCall i call asyncMode t).2) := by rw [← he]
    exact .inr ⟨e, t, _, rfl, hrun, hu⟩

variable (cfg i) in
/-- The steps of a call, synchronous or not, and how it ends. -/
theorem safe_toolCall (asyncMode : Bool) (call : ToolCall F C) (s : ContextState F W C J) :
    Proc.Safe (Rely i) (cfg.CallStep i) (fun _ => True) (cfg.RanOrRefused i call asyncMode)
      (cfg.toolCall i asyncMode call) s := by
  cases asyncMode with
  | false => exact safe_prepared (fun _ => runs_executeSync) s
  | true => exact safe_prepared (fun _ => runs_executeAsync) s

variable (cfg i) in
/-- The steps of `call_tool`, and its end. -/
theorem safe_callTool (call : ToolCall F C) (s : ContextState F W C J) :
    Proc.Safe (Rely i) (cfg.CallStep i) (fun _ => True) (cfg.Ended i call false)
      (cfg.callTool i call) s :=
  (safe_prepared (fun _ => runs_executeSync) s).imp fun _ _ _ h => h.ended

variable (cfg i) in
/-- The steps of `acall_tool`, and its end. -/
theorem safe_acallTool (call : ToolCall F C) (s : ContextState F W C J) :
    Proc.Safe (Rely i) (cfg.CallStep i) (fun _ => True) (cfg.Ended i call true)
      (cfg.acallTool i call) s :=
  (safe_prepared (fun _ => runs_executeAsync) s).imp fun _ _ _ h => h.ended

end ContextConfig

/-! ### The operations of an agent -/

/-- What an agent asks of its context. -/
inductive ContextOp (F C : Type) where
  | bumpStep
  | bumpToolCall
  | addCost (amount : CostAmount)
  | callTool (call : ToolCall F C)
  | acallTool (call : ToolCall F C)

namespace ContextConfig

variable (cfg : ContextConfig F W C J) [PyFloat F] [DecidableEq C]

/-- The operation as a program, named `i`. -/
def perform (i : ℕ) : ContextOp F C → Proc (ContextState F W C J) PyExc (Option (ToolResult F))
  | .bumpStep => do
    .atomic cfg.bumpStep
    return none
  | .bumpToolCall => do
    .atomic cfg.bumpToolCall
    return none
  | .addCost amount => do
    .atomic (cfg.addCost amount)
    return none
  | .callTool call => do
    let result ← cfg.callTool i call
    return some result
  | .acallTool call => do
    let result ← cfg.acallTool i call
    return some result

omit [PyFloat F] [DecidableEq C] in
/-- What else uses the breakers, the stores and the world outside. -/
structure Elsewhere (s t : ContextState F W C J) : Prop where
  trace : t.trace = s.trace
  steps : t.steps = s.steps
  toolCalls : t.toolCalls = s.toolCalls
  costUsd : t.costUsd = s.costUsd
  addedCosts : t.addedCosts = s.addedCosts

/-- The states of a context on which operations are performed, any number at a
time. -/
def Reach (init : ContextState F W C J → Prop) :
    Pool ℕ (ContextState F W C J) PyExc (Option (ToolResult F)) → Prop :=
  Pool.Reach init (fun i p => ∃ op, p = cfg.perform i op) Elsewhere

omit [PyFloat F] [DecidableEq C] in
/-- A counter is raised by hand, within the limits. -/
structure Counted (s t : ContextState F W C J) : Prop where
  trace : t.trace = s.trace
  limits : cfg.checkLimits t.steps t.toolCalls t.costUsd = .ok ()

/-- What a step of an operation does. -/
def ContextStep (i : ℕ) (s t : ContextState F W C J) : Prop := cfg.CallStep i s t ∨ cfg.Counted s t

variable {cfg} {i j : ℕ} {s t : ContextState F W C J}

omit [PyFloat F] [DecidableEq C] in
theorem counted_bumpStep (s : ContextState F W C J) :
    (cfg.bumpStep s).2 = s ∨ cfg.Counted s (cfg.bumpStep s).2 := by
  rw [bumpStep, PyM.get_bind]
  rcases hlimits : cfg.checkLimits (s.steps + 1) s.toolCalls s.costUsd with e | ⟨⟨⟩⟩
  · exact .inl rfl
  · exact .inr ⟨rfl, hlimits⟩

omit [PyFloat F] [DecidableEq C] in
theorem counted_bumpToolCall (s : ContextState F W C J) :
    (cfg.bumpToolCall s).2 = s ∨ cfg.Counted s (cfg.bumpToolCall s).2 := by
  rw [bumpToolCall, PyM.get_bind]
  rcases hlimits : cfg.checkLimits s.steps (s.toolCalls + 1) s.costUsd with e | ⟨⟨⟩⟩
  · exact .inl rfl
  · exact .inr ⟨rfl, hlimits⟩

omit [PyFloat F] [DecidableEq C] in
theorem counted_addCost (amount : CostAmount) (s : ContextState F W C J) :
    (cfg.addCost amount s).2 = s ∨ cfg.Counted s (cfg.addCost amount s).2 := by
  rw [addCost]
  rcases validateCostAmount amount with e | q
  · exact .inl rfl
  · rw [PyM.bind_of_ok (PyM.ofExcept_apply _ s), PyM.get_bind]
    rcases hlimits : cfg.checkLimits s.steps s.toolCalls (s.costUsd + q) with e | ⟨⟨⟩⟩
    · exact .inl rfl
    · exact .inr ⟨rfl, hlimits⟩

theorem contextStep_of_counted (h : t = s ∨ cfg.Counted s t) : cfg.ContextStep i s t := by
  rcases h with rfl | h
  · exact .inl (.idle (.refl _))
  · exact .inr h

theorem follows_counted {x : PyM (ContextState F W C J) Unit}
    (hx : ∀ t, (x t).2 = t ∨ cfg.Counted t (x t).2) (s : ContextState F W C J) :
    Proc.Follows (Rely i) (cfg.ContextStep i)
      (Proc.atomic x >>= fun _ => (pure none : Proc (ContextState F W C J) PyExc
        (Option (ToolResult F)))) s :=
  Proc.follows_step fun t _ => ⟨contextStep_of_counted (hx t), fun _ _ => Proc.follows_pure⟩

/-- A call, as an operation. -/
theorem follows_call {asyncMode : Bool} {call : ToolCall F C}
    {p : Proc (ContextState F W C J) PyExc (ToolResult F)}
    (h : Proc.Safe (Rely i) (cfg.CallStep i) (fun _ => True) (cfg.Ended i call asyncMode) p s) :
    Proc.Follows (Rely i) (cfg.ContextStep i) (p >>= fun result => pure (some result)) s :=
  Proc.follows_bind Rely.refl
    ((h.weaken fun _ _ => .inl).imp fun _ _ _ _ => trivial) fun _ _ => Proc.follows_pure

/-- Every step of an operation is one of its steps. -/
theorem follows_perform (op : ContextOp F C) (s : ContextState F W C J) :
    Proc.Follows (Rely i) (cfg.ContextStep i) (cfg.perform i op) s := by
  cases op with
  | bumpStep => exact follows_counted counted_bumpStep s
  | bumpToolCall => exact follows_counted counted_bumpToolCall s
  | addCost amount => exact follows_counted (counted_addCost amount) s
  | callTool call => exact follows_call (safe_callTool cfg i call s)
  | acallTool call => exact follows_call (safe_acallTool cfg i call s)

/-! ### Several operations at a time -/

omit [PyFloat F] [DecidableEq C] in
theorem Notes.others {events : List (CallEvent F C)} (h : cfg.Notes i events s t) (hij : i ≠ j) :
    Rely j s t := by
  rw [Rely, h.trace, own_map_append_of_ne hij]

theorem CallStep.others (h : cfg.CallStep i s t) (hij : i ≠ j) : Rely j s t := by
  cases h with
  | idle hnotes => exact hnotes.others hij
  | prepared _ _ hnotes => exact hnotes.others hij
  | invoked _ hnotes => exact hnotes.others hij
  | ended _ _ hnotes => exact hnotes.others hij

theorem ContextStep.others (h : cfg.ContextStep i s t) (hij : i ≠ j) : Rely j s t := by
  rcases h with h | h
  · exact h.others hij
  · rw [Rely, h.trace]

omit [PyFloat F] [DecidableEq C] in
theorem Elsewhere.rely (h : Elsewhere s t) : Rely i s t := by
  rw [Rely, h.trace]

/-- What every step keeps holds in every state that is reached. -/
theorem Reach.invariant {init : ContextState F W C J → Prop} {K : ContextState F W C J → Prop}
    (hinit : ∀ s, init s → K s) (hstep : ∀ i s t, cfg.ContextStep i s t → K s → K t)
    (helsewhere : ∀ s t, Elsewhere s t → K s → K t)
    {pool : Pool ℕ (ContextState F W C J) PyExc (Option (ToolResult F))}
    (h : cfg.Reach init pool) : K pool.state := by
  refine Pool.Reach.invariant (R := Rely) (G := cfg.ContextStep) (fun _ => Rely.refl)
    (fun _ _ _ _ => Rely.trans) (fun i j s t hij h => h.others hij)
    (fun _ _ _ => Elsewhere.rely) ?_ hinit hstep helsewhere h
  rintro i _ s ⟨op, rfl⟩
  exact follows_perform op s

/-- An operation that ran alone, as a state that is reached. -/
theorem Reach.run {init : ContextState F W C J → Prop} (hs : init s) (i : ℕ)
    (op : ContextOp F C) : cfg.Reach init ⟨((cfg.perform i op).run s).2, fun _ => none⟩ :=
  Pool.Reach.run (.init hs) ⟨op, rfl⟩

end ContextConfig

/-! ### A context to run the definitions on -/

/-- The tool `pay` with a handler of its own, which requires approval. -/
def payTool : ToolSpec Half Unit Bool where
  name := lit "pay"
  handler := true
  risk := lit "high"
  requiresApproval := true
  defaultCostUsd := 1
  version := lit "1"
  approvalTtlSeconds := 900
  costEstimator := none
  timeoutSeconds := none
  retryPolicy := none
  circuitBreaker := none
  idempotencyPolicy := none
  name_not_blank := by decide
  name_strip := by decide
  defaultCostUsd_nonneg := by decide
  approvalTtlSeconds_pos := by decide

theorem name_of_payTool : ∀ (name : Str) (spec : ToolSpec Half Unit Bool),
    (if name = lit "pay" then some payTool else none) = some spec → spec.name = name := by
  intro name spec h
  split_ifs at h with hname
  rw [← Option.some.inj h, hname]
  rfl

/-- `alice` may pay what the callback approves; events are accepted unread. -/
def payContext : ContextConfig Half Unit Bool Unit where
  hash := default
  callables := {
    module := fun _ => .str (lit "tools")
    qualname := fun _ => .str (lit "pay")
    isCoroutineFunction := fun _ => false
    call := fun _ _ _ => pure ⟨.none, lit "NoneType", false⟩ }
  asyncio := ⟨fun _ p => p, fun p => p, id⟩
  guardrails := none
  toolRegistry := some ⟨fun name => if name = lit "pay" then some payTool else none, name_of_payTool⟩
  approvalCallback := some ⟨false, fun _ _ _ _ => pure .approved⟩
  auditEmitter := some fun _ _ => pure ()
  principal := some ⟨.str (lit "alice"), lit "alice"⟩
  authorizer := some fun _ _ => pure true
  correlationId := lit "c"
  runId := lit "r"
  startedAtEpochMs := 0
  metadata := []
  policyDigest := []
  organizationId := lit "o"
  environment := lit "e"
  agentId := lit "a"
  clockMs := pure 0
  perfCounter := fun w => (0, w)
  utcNow := pure IdempotencyStore.firstInstant
  sleep := fun _ => pure ()
  asyncSleep := fun _ => pure ()
  close := pure ()
  reachStore := pure ()
  costFloat := fun _ => .finite .half

def newContextState : ContextState Half Unit Bool Unit where
  steps := 0
  toolCalls := 0
  costUsd := 0
  addedCosts := []
  breakers := fun _ => ⟨.closed, 0, 0, .zero, false⟩
  stores := fun _ => IdempotencyStore.emptyPostgres
  outside := ()
  journal := ()
  trace := []

def payCall : ToolCall Half Bool := ⟨lit "pay", .missing, [.int 5], [], none⟩

end AgentRoi
