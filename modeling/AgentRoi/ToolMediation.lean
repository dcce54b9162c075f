/-
Mediation of protected tools: no call starts the handler of a tool that
requires approval unless it was allowed, permitted, approved and charged before.

* `ContextConfig.Mediated` — what precedes the start of such a handler, in the
  same call;
* `Running.started` — the events of a call that runs its handler;
* `Reach.startsMeet` — what is known of running calls is known of every start;
* `protected_tool_mediated` — it precedes every start, in every state that any
  operations on a context lead to.
-/
import AgentRoi.ToolRuns

namespace AgentRoi

variable {F W C J : Type}

open ContextState EventTrace

namespace ContextConfig

variable (cfg : ContextConfig F W C J)

section

variable [PyFloat F]

/-- What the call has done, `done` being its events since it began, when it
starts the handler of a tool that requires approval. -/
structure Mediated (call : ToolCall F C) (spec : ToolSpec F W C) (handler : C)
    (args : List (PyVal F)) (kwargs : PyDict F) (done : List (CallEvent F C)) : Prop where
  ownHandler : handler = spec.handler
  ownKwargs : kwargs = call.kwargs
  allowed : ∀ g, cfg.guardrails = some g → isBlank call.toolName = false ∧
    ∀ allowed, g.allowedTools = some allowed → call.toolName ∈ allowed
  permitted : cfg.Permitted done
  approved : ∃ cost cp, cfg.OwnCheckpoint call.toolName spec args kwargs cost cp ∧
    cfg.Approved cp done ∧ .charged cost ∈ done
  told : cfg.auditEmitter.isSome → ∃ eventBase,
    .emitted (lit "tool_requested") eventBase ∈ done ∧
    .emitted (lit "tool_authorized") eventBase ∈ done ∧
    .emitted (lit "tool_started") eventBase ∈ done

/-- The start of a handler by the call `i`, after what is noted in `earlier`. -/
def StartMediated (i : ℕ) (handler : C) (args : List (PyVal F)) (kwargs : PyDict F)
    (earlier : List (ℕ × CallEvent F C)) : Prop :=
  ∃ call older, upToLast i isCalled earlier = (i, .called call) :: older ∧
    ∀ spec, cfg.registered call.toolName = some spec → spec.requiresApproval = true →
      cfg.Mediated call spec handler args kwargs (own i (sinceLast i isCalled earlier))

end

/-- What holds of the party that starts a handler, and what precedes the start. -/
def StartsMeet (P : ℕ → C → List (PyVal F) → PyDict F → List (ℕ × CallEvent F C) → Prop)
    (e : ℕ × CallEvent F C) (earlier : List (ℕ × CallEvent F C)) : Prop :=
  ∀ handler args kwargs, e.2 = .invoked handler args kwargs → P e.1 handler args kwargs earlier

variable {cfg} {i : ℕ} {s t : ContextState F W C J}
  {P : ℕ → C → List (PyVal F) → PyDict F → List (ℕ × CallEvent F C) → Prop}

/-! ### What the events of a call are not -/

theorem emitted_mem_told (h : cfg.auditEmitter.isSome) (eventType : Str) (payload : PyDict F) :
    CallEvent.emitted (C := C) eventType payload ∈ cfg.told eventType payload := by
  rw [told, if_pos h]
  exact List.mem_singleton_self _

/-- The event does not start a handler. -/
def NoStart (e : CallEvent F C) : Prop := ∀ handler args kwargs, e ≠ .invoked handler args kwargs

theorem noStart_of_beforeRequest {e : CallEvent F C} (h : BeforeRequest e) : NoStart e := by
  rintro handler args kwargs rfl
  exact h

theorem noStart_of_ofApproval {e : CallEvent F C} (h : OfApproval e) : NoStart e := by
  rintro handler args kwargs rfl
  exact h

theorem noStart_told (eventType : Str) (payload : PyDict F) :
    ∀ e ∈ cfg.told eventType payload, NoStart e := forall_told nofun

theorem noStart_called (call : ToolCall F C) : NoStart (CallEvent.called call) := nofun

theorem isCalled_of_beforeRequest {e : CallEvent F C} (h : BeforeRequest e) :
    isCalled e = false := by
  cases e with
  | called call => cases h
  | _ => rfl

theorem isCalled_of_ofApproval {e : CallEvent F C} (h : OfApproval e) : isCalled e = false := by
  cases e with
  | called call => cases h
  | _ => rfl

/-- Events that start no handler keep it so. -/
theorem startsMeet_append {events : List (CallEvent F C)} (h : ∀ e ∈ events, NoStart e)
    {trace : List (ℕ × CallEvent F C)} (htrace : Every (StartsMeet P) trace) :
    Every (StartsMeet P) (events.map (i, ·) ++ trace) := by
  induction events with
  | nil => exact htrace
  | cons e events ih =>
    obtain ⟨he, hevents⟩ := List.forall_mem_cons.mp h
    exact ⟨fun handler args kwargs heq => absurd heq (he handler args kwargs), ih hevents⟩

section

variable [PyFloat F] [DecidableEq C] {call : ToolCall F C} {asyncMode : Bool} {prepared : PreparedCall F W C}

/-- The events of a call from its beginning to its start, without the first. -/
def startEvents (cfg : ContextConfig F W C J) (before approval : List (CallEvent F C))
    (prepared : PreparedCall F W C) : List (CallEvent F C) :=
  cfg.told (lit "tool_started") prepared.eventBase ++
    (cfg.told (lit "tool_authorized") prepared.eventBase ++ (.charged prepared.selectedCost ::
      (approval ++ (cfg.told (lit "tool_requested") prepared.eventBase ++ before))))

omit [PyFloat F] [DecidableEq C] in
theorem upToStart_eq (before approval : List (CallEvent F C)) :
    cfg.upToStart call before approval prepared =
      cfg.startEvents before approval prepared ++ [.called call] := by
  simp [upToStart, upToCharge, startEvents]

theorem Authorised.forall_startEvents {before approval : List (CallEvent F C)}
    {checkpoint : Option Checkpoint} {p : CallEvent F C → Prop}
    (h : cfg.Authorised call asyncMode before approval prepared checkpoint)
    (htold : ∀ eventType payload, p (.emitted eventType payload))
    (hcharged : p (.charged prepared.selectedCost)) (hbefore : ∀ e, BeforeRequest e → p e)
    (happroval : ∀ e, OfApproval e → p e) :
    ∀ e ∈ cfg.startEvents before approval prepared, p e := by
  refine forall_append (forall_told (htold _ _)) (forall_append (forall_told (htold _ _)) ?_)
  refine List.forall_mem_cons.mpr ⟨hcharged, forall_append (fun e he => ?_)
    (forall_append (forall_told (htold _ _)) fun e he => ?_)⟩
  · exact happroval e (h.ofApproval e he)
  · exact hbefore e (h.before e he)

/-- The preparation of a call starts no handler. -/
theorem Preparation.noStart {r : Except PyExc (PreparedCall F W C)}
    {events : List (CallEvent F C)} (h : cfg.Preparation call asyncMode r events) :
    ∀ e ∈ events, NoStart e := by
  have hcalled : ∀ e ∈ [CallEvent.called call], NoStart e := by
    simpa using noStart_called call
  have hcharge : ∀ {before approval : List (CallEvent F C)} {prepared : PreparedCall F W C}
      {checkpoint : Option Checkpoint},
      cfg.Authorised call asyncMode before approval prepared checkpoint →
      ∀ e ∈ cfg.upToCharge call before approval prepared, NoStart e := by
    intro before approval prepared checkpoint h
    have hcharged : ∀ e ∈ [(.charged prepared.selectedCost : CallEvent F C)], NoStart e := by
      simp [NoStart]
    exact forall_append (forall_append (forall_append (forall_append hcharged
      fun e he => noStart_of_ofApproval (h.ofApproval e he)) (noStart_told _ _))
      fun e he => noStart_of_beforeRequest (h.before e he)) hcalled
  cases h with
  | refused hbefore =>
    exact forall_append (fun e he => noStart_of_beforeRequest (hbefore e he)) hcalled
  | unapproved _ hbefore happroval =>
    exact forall_append (forall_append (forall_append
      (fun e he => noStart_of_ofApproval (happroval e he)) (noStart_told _ _))
      fun e he => noStart_of_beforeRequest (hbefore e he)) hcalled
  | unheard h => exact forall_append (noStart_told _ _) (hcharge h)
  | unstarted h =>
    exact forall_append (forall_append (noStart_told _ _) (noStart_told _ _)) (hcharge h)
  | prepared h =>
    exact forall_append (forall_append (noStart_told _ _) (noStart_told _ _)) (hcharge h)

/-- The events of a running call since it began. -/
theorem Running.started (h : cfg.Running i call asyncMode prepared s) :
    ∃ before approval checkpoint runs older,
      cfg.Authorised call asyncMode before approval prepared checkpoint ∧
      (∀ e ∈ runs, e = .invoked prepared.handler prepared.args call.kwargs) ∧
      upToLast i isCalled s.trace = (i, .called call) :: older ∧
      own i (sinceLast i isCalled s.trace) =
        runs ++ cfg.startEvents before approval prepared := by
  obtain ⟨before, approval, checkpoint, runs, old, hauth, hruns, hown⟩ := h
  have hown' : own i s.trace = (runs ++ cfg.startEvents before approval prepared) ++
      .called call :: old := by
    rw [hown, upToStart_eq]
    simp
  have hnone : ∀ e ∈ runs ++ cfg.startEvents before approval prepared, isCalled e = false := by
    refine forall_append (fun e he => ?_) (hauth.forall_startEvents (fun _ _ => rfl) rfl
      (fun e => isCalled_of_beforeRequest) fun e => isCalled_of_ofApproval)
    rw [hruns e he]
    rfl
  obtain ⟨older, hup, hsince⟩ := upToLast_of_own hown' hnone rfl
  exact ⟨before, approval, checkpoint, runs, older, hauth, hruns, hup, hsince⟩

/-! ### The start of a handler -/

omit [PyFloat F] in
/-- What a call resolves to, where its tool is registered. -/
theorem resolveTool_registered {call : ToolCall F C} {tool : ResolvedTool F W C}
    {spec : ToolSpec F W C} (h : cfg.resolveTool call = .ok tool)
    (hspec : cfg.registered call.toolName = some spec) :
    tool.spec = some spec ∧ tool.handler = spec.handler := by
  rw [resolveTool, hspec] at h
  cases hfirst : call.first with
  | missing =>
    simp only [hfirst] at h
    obtain rfl := Except.ok.inj h
    exact ⟨rfl, rfl⟩
  | value v =>
    simp only [hfirst] at h
    obtain rfl := Except.ok.inj h
    exact ⟨rfl, rfl⟩
  | callable fn =>
    simp only [hfirst] at h
    split_ifs at h
    obtain rfl := Except.ok.inj h
    exact ⟨rfl, rfl⟩

omit [PyFloat F] [DecidableEq C] in
theorem checkAllowed_eq_ok {toolName : Str} {u : Unit} (h : cfg.checkAllowed toolName = .ok u)
    {g : Guardrails} (hg : cfg.guardrails = some g) : isBlank toolName = false ∧
      ∀ allowed, g.allowedTools = some allowed → toolName ∈ allowed := by
  rw [checkAllowed, hg] at h
  exact Guardrails.validateToolAllowed_eq_ok.mp h

theorem Running.mediated (h : cfg.Running i call asyncMode prepared s) :
    cfg.StartMediated i prepared.handler prepared.args call.kwargs s.trace := by
  obtain ⟨before, approval, checkpoint, runs, older, hauth, -, hup, hsince⟩ := h.started
  refine ⟨call, older, hup, fun spec hspec happroval => ?_⟩
  rw [hsince]
  obtain ⟨hprepared, hhandler⟩ := resolveTool_registered hauth.resolved hspec
  have hneeds : ResolvedTool.needsApproval prepared.toResolvedTool = some spec := by
    rw [ResolvedTool.needsApproval, hprepared, Option.filter_some_pos happroval]
  obtain ⟨cp, rfl, hown⟩ := hauth.ownCheckpoint spec hneeds
  have hmem : ∀ e, e ∈ approval ∨ e ∈ before →
      e ∈ runs ++ cfg.startEvents before approval prepared := by
    intro e he
    refine List.mem_append_right _ (List.mem_append_right _ (List.mem_append_right _
      (List.mem_cons_of_mem _ ?_)))
    rcases he with he | he
    · exact List.mem_append_left _ he
    · exact List.mem_append_right _ (List.mem_append_right _ he)
  refine ⟨hhandler, rfl, fun g hg => checkAllowed_eq_ok hauth.allowed hg, fun hsome => ?_, ?_, ?_⟩
  · obtain ⟨hprincipal, hanswer⟩ := hauth.permitted hsome
    exact ⟨hprincipal, hmem _ (.inr hanswer)⟩
  · refine ⟨prepared.selectedCost, cp, hown, ?_, ?_⟩
    · rcases hauth.approved spec cp hneeds rfl with ⟨hanswer, hbound⟩ | ⟨grant, nowMs, h₁, h₂, h₃⟩
      · exact .inl ⟨hmem _ (.inl hanswer), hbound⟩
      · exact .inr ⟨grant, nowMs, hmem _ (.inl h₁), hmem _ (.inl h₂), h₃⟩
    · simp [startEvents]
  · intro hemitter
    have hrequested := emitted_mem_told (C := C) hemitter (lit "tool_requested") prepared.eventBase
    have hauthorized := emitted_mem_told (C := C) hemitter (lit "tool_authorized") prepared.eventBase
    have hstarted := emitted_mem_told (C := C) hemitter (lit "tool_started") prepared.eventBase
    refine ⟨prepared.eventBase, ?_, ?_, ?_⟩
    · simp [startEvents, hrequested]
    · simp [startEvents, hauthorized]
    · simp [startEvents, hstarted]

/-! ### Every start -/

/-- What is known of running calls is known of every start. -/
theorem CallStep.startsMeet
    (hrunning : ∀ i call asyncMode prepared s, cfg.Running i call asyncMode prepared s →
      P i prepared.handler prepared.args call.kwargs s.trace)
    (h : cfg.CallStep i s t) (hs : Every (StartsMeet P) s.trace) :
    Every (StartsMeet P) t.trace := by
  cases h with
  | idle hnotes =>
    rw [hnotes.trace]
    exact hs
  | prepared h _ hnotes =>
    rw [hnotes.trace]
    exact startsMeet_append h.noStart hs
  | invoked h hnotes =>
    rw [hnotes.trace]
    refine ⟨fun handler args kwargs heq => ?_, hs⟩
    cases heq
    exact hrunning _ _ _ _ _ h
  | ended _ hending hnotes =>
    rw [hnotes.trace]
    refine startsMeet_append ?_ hs
    cases hending with
    | completed => exact noStart_told _ _
    | failed => exact noStart_told _ _
    | silent => exact nofun

theorem Reach.startsMeet
    (hrunning : ∀ i call asyncMode prepared s, cfg.Running i call asyncMode prepared s →
      P i prepared.handler prepared.args call.kwargs s.trace)
    {init : ContextState F W C J → Prop} (hinit : ∀ s, init s → s.trace = [])
    {pool : Pool ℕ (ContextState F W C J) PyExc (Option (ToolResult F))}
    (h : cfg.Reach init pool) {later earlier : List (ℕ × CallEvent F C)} {handler : C}
    {args : List (PyVal F)} {kwargs : PyDict F}
    (htrace : pool.state.trace = later ++ (i, .invoked handler args kwargs) :: earlier) :
    P i handler args kwargs earlier := by
  have hinv : Every (StartsMeet P) pool.state.trace := by
    refine Reach.invariant (K := fun s => Every (StartsMeet P) s.trace) (fun s hs => ?_)
      (fun i s t hstep hs => ?_) (fun s t he hs => ?_) h
    · rw [hinit s hs]
      trivial
    · rcases hstep with hstep | hstep
      · exact hstep.startsMeet hrunning hs
      · rw [hstep.trace]
        exact hs
    · rw [he.trace]
      exact hs
  rw [htrace] at hinv
  exact hinv.at handler args kwargs rfl

/-- However the operations on a context interleave, what precedes the start of
a protected tool's handler mediates it. -/
theorem protected_tool_mediated
    {pool : Pool ℕ (ContextState F W C J) PyExc (Option (ToolResult F))}
    (h : cfg.Reach (fun s => s.trace = []) pool) {later earlier : List (ℕ × CallEvent F C)}
    {i : ℕ} {handler : C} {args : List (PyVal F)} {kwargs : PyDict F}
    (htrace : pool.state.trace = later ++ (i, .invoked handler args kwargs) :: earlier) :
    cfg.StartMediated i handler args kwargs earlier :=
  Reach.startsMeet (fun _ _ _ _ _ h => h.mediated) (fun _ hs => hs) h htrace

end

end ContextConfig

/-- What a payment leads to. -/
def afterPayment : ContextState Half Unit Bool Unit :=
  ((payContext.perform 0 (.callTool payCall)).run newContextState).2

theorem reach_afterPayment {init : ContextState Half Unit Bool Unit → Prop}
    (hnew : init newContextState) : payContext.Reach init ⟨afterPayment, fun _ => none⟩ :=
  ContextConfig.Reach.run hnew 0 (.callTool payCall)

/-- The start of a handler. -/
def isStart : CallEvent F C → Bool
  | .invoked _ _ _ => true
  | _ => false

theorem exists_start {trace : List (ℕ × CallEvent F C)}
    (h : (trace.any fun e => isStart e.2) = true) : ∃ i handler args kwargs later earlier,
      trace = later ++ (i, .invoked handler args kwargs) :: earlier := by
  obtain ⟨⟨i, e⟩, hmem, hstart⟩ := List.any_eq_true.mp h
  obtain ⟨later, earlier, htrace⟩ := List.append_of_mem hmem
  cases e with
  | invoked handler args kwargs => exact ⟨i, handler, args, kwargs, later, earlier, htrace⟩
  | _ => cases hstart

/-- The payment starts a handler, and was approved before. -/
theorem protected_tool_mediated_pay : ∃ i handler args kwargs later earlier,
    afterPayment.trace = later ++ (i, .invoked handler args kwargs) :: earlier ∧
      payContext.StartMediated i handler args kwargs earlier := by
  have hany : (afterPayment.trace.any fun e => isStart e.2) = true := by decide +kernel
  obtain ⟨i, handler, args, kwargs, later, earlier, htrace⟩ := exists_start hany
  have hreach : payContext.Reach (fun s => s.trace = []) ⟨afterPayment, fun _ => none⟩ :=
    reach_afterPayment rfl
  exact ⟨i, handler, args, kwargs, later, earlier, htrace,
    ContextConfig.protected_tool_mediated hreach htrace⟩

end AgentRoi
