/-
The operations of a context whose emitter is `_log`.

* `Tells` — a step notes events and makes the entries of those that are handed
  to the emitter;
* `tells_prepareCall`, `follows_perform_tells` — so does every step of an
  operation;
* `Operation`, `Beside` — the steps of the operations, and of what runs beside
  them;
* `later_extends` — what the journal of a run gets while its agent runs.
-/
import AgentRoi.RunnerSteps

namespace AgentRoi

open ContextState RunnerJournal SentinelRunner

variable {F W C α β : Type}

/-- The events that are handed to the emitter. -/
def emittedOf (events : List (CallEvent F C)) : List (Str × PyDict F) :=
  events.filterMap fun
    | .emitted eventType payload => some (eventType, payload)
    | _ => none

theorem emittedOf_append (events more : List (CallEvent F C)) :
    emittedOf (events ++ more) = emittedOf events ++ emittedOf more := List.filterMap_append

variable [PyFloat F]

/-- The step notes `events`, and makes the entries of what is emitted. -/
def Tells (runner : SentinelRunner F W C) (fresh : FreshRun) (i : ℕ)
    (s t : ContextState F W C (RunnerJournal F)) : Prop :=
  ∃ (events : List (CallEvent F C)) (new : List (LogEntry F)) (given : List (ℕ × CloudEvent F)),
    t.trace = events.map (i, ·) ++ s.trace ∧
    Extends runner fresh (runner.newContext fresh).ContextPayload s.journal t.journal new given ∧
    new.map (fun entry => (entry.eventType, entry.payload)) = emittedOf events

variable {runner : SentinelRunner F W C} {fresh : FreshRun} {i : ℕ}
  {s t u : ContextState F W C (RunnerJournal F)}

theorem tells_of_same (htrace : t.trace = s.trace) (hjournal : t.journal = s.journal) :
    Tells runner fresh i s t := by
  refine ⟨[], [], [], htrace, ?_, rfl⟩
  rw [hjournal]
  exact .refl s.journal

theorem Tells.refl (s : ContextState F W C (RunnerJournal F)) : Tells runner fresh i s s :=
  tells_of_same rfl rfl

theorem Tells.trans (h : Tells runner fresh i s t) (h' : Tells runner fresh i t u) :
    Tells runner fresh i s u := by
  obtain ⟨events, new, given, htrace, hextends, hsame⟩ := h
  obtain ⟨events', new', given', htrace', hextends', hsame'⟩ := h'
  refine ⟨events' ++ events, new' ++ new, given' ++ given, ?_, hextends.trans hextends', ?_⟩
  · rw [htrace', htrace, List.map_append, List.append_assoc]
  · rw [List.map_append, emittedOf_append, hsame, hsame']

/-! ### Methods -/

theorem tells_bind {x : PyM (ContextState F W C (RunnerJournal F)) α}
    {f : α → PyM (ContextState F W C (RunnerJournal F)) β} (hx : Each (Tells runner fresh i) x)
    (hf : ∀ a, Each (Tells runner fresh i) (f a)) : Each (Tells runner fresh i) (x >>= f) :=
  each_bind (fun _ _ _ h h' => h.trans h') hx hf

theorem tells_ofExcept (r : Except PyExc α) :
    Each (Tells runner fresh i) (.ofExcept r : PyM (ContextState F W C (RunnerJournal F)) α) :=
  Tells.refl

theorem tells_pure (a : α) :
    Each (Tells runner fresh i) (pure a : PyM (ContextState F W C (RunnerJournal F)) α) :=
  Tells.refl

theorem tells_raise (e : PyExc) :
    Each (Tells runner fresh i) (.raise e : PyM (ContextState F W C (RunnerJournal F)) α) :=
  Tells.refl

theorem tells_onWorld (x : PyM W α) :
    Each (Tells runner fresh i) (onWorld x : PyM (ContextState F W C (RunnerJournal F)) α) :=
  fun _ => tells_of_same rfl rfl

/-- A note of what is not emitted. -/
theorem tells_note {event : CallEvent F C} (h : emittedOf [event] = []) :
    Each (Tells runner fresh i) (.modify (note i event)) :=
  fun s => ⟨[event], [], [], rfl, .refl s.journal, h.symm⟩

/-- The emitter makes one entry. -/
theorem tells_emit {eventType : Str} {payload : PyDict F}
    (h : (runner.newContext fresh).ContextPayload eventType payload) :
    Each (Tells runner fresh i) ((runner.newContext fresh).emit i eventType payload) := by
  intro s
  obtain ⟨entry, given, hstep⟩ := log_step runner fresh eventType payload (s.outside, s.journal)
  refine ⟨[.emitted eventType payload], [entry], given, rfl, hstep.extends h, ?_⟩
  rw [List.map_singleton, hstep.eventType, hstep.payload]
  rfl

section Preparing

open ContextConfig

theorem tells_authorizeAccess (toolName : Str) (spec : Option (ToolSpec F W C)) :
    Each (Tells runner fresh i) ((runner.newContext fresh).authorizeAccess i toolName spec) := by
  unfold authorizeAccess
  split
  · exact tells_pure _
  · split
    · exact tells_bind (tells_emit .missingPrincipal) fun _ => tells_raise _
    · refine tells_bind (tells_onWorld _) fun allowed => tells_bind (tells_note rfl) fun _ =>
        tells_bind (tells_emit (.decision (.inl rfl))) fun _ => ?_
      split
      · exact tells_pure _
      · exact tells_bind (tells_emit (.decision (.inr rfl))) fun _ => tells_raise _

theorem tells_estimatedCost (tool : ResolvedTool F W C) (kwargs : PyDict F)
    (callerCost : Option CostAmount) : Each (Tells runner fresh i)
      (estimatedCost i tool kwargs callerCost :
        PyM (ContextState F W C (RunnerJournal F)) ℚ) := by
  refine tells_bind ?_ fun _ => tells_ofExcept _
  unfold registeredMinimum
  split
  · exact tells_pure _
  · split
    · exact tells_pure _
    · exact tells_bind (tells_onWorld _) fun _ => tells_bind (tells_ofExcept _) fun _ =>
        tells_bind (tells_note rfl) fun _ => tells_pure _

theorem tells_checkpointOf (toolName : Str) (tool : ResolvedTool F W C) (kwargs : PyDict F)
    (cost : ℚ) : Each (Tells runner fresh i)
      ((runner.newContext fresh).checkpointOf toolName tool kwargs cost) := by
  unfold checkpointOf
  split
  · exact tells_pure _
  · refine tells_bind ?_ fun _ => tells_pure _
    exact tells_bind (tells_ofExcept _) fun _ => tells_bind (tells_onWorld _) fun _ =>
      tells_bind (tells_ofExcept _) fun _ => tells_bind (tells_ofExcept _) fun _ =>
        tells_bind (tells_onWorld _) fun _ => tells_pure _

theorem tells_decideApproval (spec : ToolSpec F W C) (cp : Checkpoint) (answer : ApprovalAnswer) :
    Each (Tells runner fresh i) ((runner.newContext fresh).decideApproval i spec cp answer) := by
  cases answer with
  | grant grant =>
    refine tells_bind ?_ fun _ => tells_emit (.granted (.inr ⟨_, rfl⟩))
    exact tells_bind (tells_onWorld _) fun _ => tells_bind (tells_ofExcept _) fun _ =>
      tells_note rfl
  | approved =>
    show Each _ (if _ then _ else _)
    split
    · exact tells_raise _
    · have hgranted : (runner.newContext fresh).ContextPayload (lit "approval_granted")
          (grantedFields spec cp (lit "synchronous_callback") ++ []) := .granted (.inl rfl)
      rw [List.append_nil] at hgranted
      exact tells_emit hgranted
  | refused => exact tells_bind (tells_emit .required) fun _ => tells_raise _

theorem tells_approve (tool : ResolvedTool F W C) (kwargs : PyDict F)
    (checkpoint : Option Checkpoint) : Each (Tells runner fresh i)
      ((runner.newContext fresh).approve i tool kwargs checkpoint) := by
  unfold approve
  split
  · refine tells_bind ?_ fun answer => tells_bind (tells_note rfl) fun _ =>
      tells_decideApproval _ _ answer
    unfold askApproval
    split
    · exact tells_pure _
    · exact tells_onWorld _
  · exact tells_pure _

theorem tells_charge (cost : ℚ) :
    Each (Tells runner fresh i) ((runner.newContext fresh).charge i cost) := by
  refine tells_bind Tells.refl fun _ => tells_bind (tells_ofExcept _) fun _ s => ?_
  exact ⟨[.charged cost], [], [], rfl, .refl s.journal, rfl⟩

/-- The event that tells of a tool, of a call whose `event_base` could be built. -/
theorem contextPayload_tool {toolName : Str} {tool : ResolvedTool F W C} {kwargs : PyDict F}
    {cost : ℚ} {checkpoint : Option Checkpoint} {eventBase : PyDict F} {eventType : Str}
    (hbase : (runner.newContext fresh).eventBase toolName tool kwargs cost checkpoint = .ok eventBase)
    (hdetail : ToolDetail (F := F) eventType []) :
    (runner.newContext fresh).ContextPayload eventType eventBase := by
  have htool : (runner.newContext fresh).ContextPayload eventType (eventBase ++ []) :=
    .tool hbase hdetail
  rwa [List.append_nil] at htool

theorem tells_of_settling (h : Settling s t) : Tells runner fresh i s t :=
  tells_of_same h.trace h.journal

variable [DecidableEq C] {call : ToolCall F C} {asyncMode : Bool}

variable (call asyncMode) in
theorem tells_requestTool :
    Each (Tells runner fresh i) ((runner.newContext fresh).requestTool i call asyncMode) :=
  tells_bind (tells_note rfl) fun _ => tells_bind (tells_ofExcept _) fun _ =>
    tells_bind (tells_ofExcept _) fun _ => tells_bind (tells_authorizeAccess _ _) fun _ =>
      tells_bind (tells_ofExcept _) fun _ => tells_bind (tells_estimatedCost _ _ _) fun _ =>
        tells_bind (tells_checkpointOf _ _ _ _) fun _ => tells_bind (tells_ofExcept _) fun _ =>
          tells_pure _

theorem tells_prepareCall :
    Each (Tells runner fresh i) ((runner.newContext fresh).prepareCall i call asyncMode) := by
  intro s
  have hlogs : (runner.newContext fresh).Logs i _ _ := logs_requestTool call asyncMode
  obtain ⟨events, -, before, -, -, hrequested⟩ := hlogs s
  have hrequest : Tells runner fresh i s
      ((runner.newContext fresh).requestTool i call asyncMode s).2 :=
    tells_requestTool call asyncMode s
  rcases hrun : (runner.newContext fresh).requestTool i call asyncMode s with
    ⟨e | ⟨prepared, checkpoint⟩, t⟩
  · rw [hrun] at hrequest
    rw [prepareCall, PyM.bind_of_error hrun]
    exact hrequest
  · rw [hrun] at hrequest hrequested
    rw [prepareCall, PyM.bind_of_ok hrun]
    have hbase := (hrequested _ rfl).eventBase
    refine hrequest.trans (tells_bind (tells_emit (contextPayload_tool hbase .requested)) ?_ t)
    exact fun _ => tells_bind (tells_approve _ _ _) fun _ => tells_bind (tells_charge _) fun _ =>
      tells_bind (tells_emit (contextPayload_tool hbase .authorized)) fun _ =>
        tells_bind (tells_emit (contextPayload_tool hbase .started)) fun _ => tells_pure _

/-! ### Operations -/

/-- A prepared call has its `event_base`. -/
theorem eventBase_of_prepareCall {prepared : PreparedCall F W C}
    (h : ((runner.newContext fresh).prepareCall i call asyncMode s).1 = .ok prepared) :
    ∃ checkpoint, (runner.newContext fresh).eventBase call.toolName prepared.toResolvedTool
      call.kwargs prepared.selectedCost checkpoint = .ok prepared.eventBase := by
  obtain ⟨events, -, hprep⟩ := logs_prepareCall (runner.newContext fresh) i call asyncMode s
  rw [h] at hprep
  cases hprep with
  | prepared h => exact ⟨_, h.eventBase⟩

variable (asyncMode) in
theorem follows_toolCall_tells (s : ContextState F W C (RunnerJournal F)) :
    Proc.Follows (fun _ _ => True) (Tells runner fresh i)
      ((runner.newContext fresh).toolCall i asyncMode call) s := by
  refine follows_layers (fun _ => trivial) (fun _ _ => tells_of_settling) tells_prepareCall
    (fun s prepared hok => tells_note rfl) (fun s prepared hok started name t => ?_) s
  obtain ⟨checkpoint, hbase⟩ := eventBase_of_prepareCall hok
  exact ⟨tells_bind (tells_onWorld _) (fun _ => tells_emit (.tool hbase (.failed _ _))) t,
    tells_bind (tells_onWorld _) (fun _ => tells_emit (.tool hbase (.completed _ _))) t⟩

end Preparing

/-! ### Runs of an agent -/

/-- What runs beside the operations of a run does not log in its name. -/
def Beside (s t : ContextState F W C (RunnerJournal F)) : Prop :=
  ContextConfig.Elsewhere s t ∧ t.journal = s.journal

variable [DecidableEq C]

/-- The operations of an agent. -/
def Operation (runner : SentinelRunner F W C) (fresh : FreshRun) (i : ℕ)
    (p : Proc (ContextState F W C (RunnerJournal F)) PyExc (Option (ToolResult F))) : Prop :=
  ∃ op, p = (runner.newContext fresh).perform i op

/-- From one pool to another by steps of the operations and of what runs beside
them. -/
def Later (runner : SentinelRunner F W C) (fresh : FreshRun) : RunPool F W C → RunPool F W C → Prop :=
  Relation.ReflTransGen (Pool.Next (Operation runner fresh) Beside)

/-- Every step of the function, and of an awaitable that it returns, is one of
its operations. -/
def AgentFn.Performs (runner : SentinelRunner F W C) (fresh : FreshRun) : AgentFn F W C → Prop
  | .coroutine body => ∀ pool, Proc.Follows (fun _ _ => True) (Later runner fresh) body pool
  | .plain call => ∀ pool, Proc.Safe (fun _ _ => True) (Later runner fresh) (fun _ => True)
    (fun r _ => ∀ body, r = .ok (.awaitable body) →
      ∀ pool, Proc.Follows (fun _ _ => True) (Later runner fresh) body pool) call pool

theorem follows_perform_tells (op : ContextOp F C) (s : ContextState F W C (RunnerJournal F)) :
    Proc.Follows (fun _ _ => True) (Tells runner fresh i) ((runner.newContext fresh).perform i op)
      s := by
  have hcounted : ∀ x : PyM (ContextState F W C (RunnerJournal F)) Unit,
      Each (Tells runner fresh i) x → Proc.Follows (fun _ _ => True) (Tells runner fresh i)
        (do Proc.atomic x; return (none : Option (ToolResult F))) s :=
    fun x hx => Proc.follows_bind (fun _ => trivial) (Proc.follows_atomic fun t _ => hx t)
      fun _ _ => Proc.follows_pure
  cases op with
  | bumpStep =>
    exact hcounted _ (tells_bind Tells.refl fun _ => tells_bind (tells_ofExcept _)
      fun _ _ => tells_of_same rfl rfl)
  | bumpToolCall =>
    exact hcounted _ (tells_bind Tells.refl fun _ => tells_bind (tells_ofExcept _)
      fun _ _ => tells_of_same rfl rfl)
  | addCost amount =>
    exact hcounted _ (tells_bind (tells_ofExcept _) fun _ => tells_bind Tells.refl fun _ =>
      tells_bind (tells_ofExcept _) fun _ _ => tells_of_same rfl rfl)
  | callTool call =>
    exact Proc.follows_bind (fun _ => trivial) (follows_toolCall_tells false s)
      fun _ _ => Proc.follows_pure
  | acallTool call =>
    exact Proc.follows_bind (fun _ => trivial) (follows_toolCall_tells true s)
      fun _ _ => Proc.follows_pure

/-- What the journal gets while operations run. -/
theorem later_extends {pool pool' : RunPool F W C} (hfollow : pool.Follow (Tells runner fresh))
    (h : Later runner fresh pool pool') :
    pool'.Follow (Tells runner fresh) ∧
      ∃ new given, Extends runner fresh (runner.newContext fresh).ContextPayload
        pool.state.journal pool'.state.journal new given := by
  refine hfollow.later (K := fun s t => ∃ new given, Extends runner fresh
    (runner.newContext fresh).ContextPayload s.journal t.journal new given) ?_ ?_ ?_ ?_ ?_ h
  · rintro i _ s ⟨op, rfl⟩
    exact follows_perform_tells op s
  · exact fun s => ⟨[], [], .refl _⟩
  · rintro s t u ⟨new, given, hst⟩ ⟨more, others, htu⟩
    exact ⟨_, _, hst.trans htu⟩
  · rintro i s t ⟨events, new, given, -, hstep, -⟩
    exact ⟨new, given, hstep⟩
  · rintro s t ⟨-, hjournal⟩
    rw [hjournal]
    exact ⟨[], [], .refl _⟩

end AgentRoi
