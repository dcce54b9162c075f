/-
The budget of a context.

* `ContextConfig.ChargedOnce` — before the handler of a call starts, the call
  was charged once, with no less than its tool is registered with;
* `ContextConfig.Accounts` — the counters move by what is charged;
* `ContextConfig.admitCall` — `_prepare_call` as far as a call can be refused;
* `budget_invariant` — the limits hold in every state, and a call that is
  refused leaves the counters as they were.
-/
import AgentRoi.ToolMediation

namespace AgentRoi

variable {F W C J : Type}

open ContextState EventTrace

namespace ContextConfig

variable (cfg : ContextConfig F W C J)

/-- The call `i` was charged once since it began, and enough. -/
def ChargedOnce (i : ℕ) (earlier : List (ℕ × CallEvent F C)) : Prop :=
  ∃ call older cost, upToLast i isCalled earlier = (i, .called call) :: older ∧
    charges (own i (sinceLast i isCalled earlier)) = [cost] ∧
    ∀ spec, cfg.registered call.toolName = some spec →
      CostsEnough spec cost (own i (sinceLast i isCalled earlier))

/-- The counters move by what the operation `i` notes as charged. -/
def Accounts (i : ℕ) (s t : ContextState F W C J) : Prop :=
  ∃ events, t.trace = events.map (i, ·) ++ s.trace ∧ t.steps = s.steps ∧
    t.toolCalls = s.toolCalls + (charges events).length ∧
    t.costUsd = s.costUsd + (charges events).sum

/-- The counters stand as they stood. -/
structure SameCounters (s t : ContextState F W C J) : Prop where
  steps : t.steps = s.steps
  toolCalls : t.toolCalls = s.toolCalls
  costUsd : t.costUsd = s.costUsd

/-- The counters are within the limits of the guardrails. -/
def WithinLimits (s : ContextState F W C J) : Prop :=
  ∀ g, cfg.guardrails = some g → g.Within s.steps s.toolCalls s.costUsd

variable {cfg} {i : ℕ} {s t : ContextState F W C J} {events : List (CallEvent F C)}

/-! ### The limits -/

theorem withinLimits_of_checkLimits {steps toolCalls : Int} {costUsd : ℚ} {u : Unit}
    (h : cfg.checkLimits steps toolCalls costUsd = .ok u) {g : Guardrails}
    (hg : cfg.guardrails = some g) : g.Within steps toolCalls costUsd := by
  rw [checkLimits, hg] at h
  exact (Guardrails.validateLimits_eq_ok.mp h).2.2.2

theorem Notes.sameCounters (h : cfg.Notes i events s t) (hnone : charges events = []) :
    SameCounters s t where
  steps := h.steps
  toolCalls := by rw [h.toolCalls, hnone, List.length_nil, Nat.cast_zero, add_zero]
  costUsd := by rw [h.costUsd, hnone, List.sum_nil, add_zero]

theorem SameCounters.within (h : SameCounters s t) (hs : cfg.WithinLimits s) :
    cfg.WithinLimits t := by
  intro g hg
  rw [h.steps, h.toolCalls, h.costUsd]
  exact hs g hg

theorem Notes.within (h : cfg.Notes i events s t) (hs : cfg.WithinLimits s) :
    cfg.WithinLimits t := by
  by_cases hnone : charges events = []
  · exact (h.sameCounters hnone).within hs
  · exact fun g hg => withinLimits_of_checkLimits (h.limits hnone) hg

section

variable [PyFloat F] [DecidableEq C]

theorem CallStep.notes (h : cfg.CallStep i s t) : ∃ events, cfg.Notes i events s t := by
  cases h with
  | idle hnotes => exact ⟨_, hnotes⟩
  | prepared _ _ hnotes => exact ⟨_, hnotes⟩
  | invoked _ hnotes => exact ⟨_, hnotes⟩
  | ended _ _ hnotes => exact ⟨_, hnotes⟩

theorem CallStep.accounts (h : cfg.CallStep i s t) : Accounts i s t := by
  obtain ⟨events, hnotes⟩ := h.notes
  exact ⟨events, hnotes.trace, hnotes.steps, hnotes.toolCalls, hnotes.costUsd⟩

theorem ContextStep.within (h : cfg.ContextStep i s t) (hs : cfg.WithinLimits s) :
    cfg.WithinLimits t := by
  rcases h with h | h
  · obtain ⟨events, hnotes⟩ := h.notes
    exact hnotes.within hs
  · exact fun g hg => withinLimits_of_checkLimits h.limits hg

/-! ### The charge before the start -/

variable {call : ToolCall F C} {asyncMode : Bool} {prepared : PreparedCall F W C}

/-- Of all that a call does up to its start, one thing charges. -/
theorem Authorised.charges_startEvents {before approval : List (CallEvent F C)}
    {checkpoint : Option Checkpoint}
    (h : cfg.Authorised call asyncMode before approval prepared checkpoint) :
    charges (cfg.startEvents before approval prepared) = [prepared.selectedCost] := by
  have htold : ∀ eventType payload, charges (C := C) (cfg.told eventType payload) = [] :=
    fun eventType payload => charges_eq_nil (forall_told rfl)
  have hbefore : charges before = [] :=
    charges_eq_nil fun e he => cost?_of_beforeRequest (h.before e he)
  have happroval : charges approval = [] :=
    charges_eq_nil fun e he => cost?_of_ofApproval (h.ofApproval e he)
  have hcharged : ∀ rest : List (CallEvent F C),
      charges (.charged prepared.selectedCost :: rest) = prepared.selectedCost :: charges rest :=
    fun _ => rfl
  rw [startEvents, charges_append, charges_append, htold, htold, hcharged, charges_append,
    charges_append, htold, hbefore, happroval]
  rfl

theorem Running.chargedOnce (h : cfg.Running i call asyncMode prepared s) :
    cfg.ChargedOnce i s.trace := by
  obtain ⟨before, approval, checkpoint, runs, older, hauth, hruns, hup, hsince⟩ := h.started
  refine ⟨call, older, prepared.selectedCost, hup, ?_, fun spec hspec => ?_⟩
  · have hnone : charges runs = [] := by
      refine charges_eq_nil fun e he => ?_
      rw [hruns e he]
      rfl
    rw [hsince, charges_append, hnone, hauth.charges_startEvents]
    rfl
  · obtain ⟨hprepared, -⟩ := resolveTool_registered hauth.resolved hspec
    obtain ⟨hdefault, hestimated⟩ := hauth.enough spec hprepared
    refine ⟨hdefault, fun hsome => ?_⟩
    obtain ⟨estimated, hmem, hle⟩ := hestimated hsome
    refine ⟨estimated, ?_, hle⟩
    rw [hsince]
    simp [startEvents, hmem]

/-! ### Refused calls -/

variable (cfg) in
/-- `_prepare_call` as far as it can refuse a call: by the allowlist, the
resolution of the tool, its access, its mode, its cost, its approval and the
limits. -/
def admitCall (i : ℕ) (call : ToolCall F C) (asyncMode : Bool) :
    PyM (ContextState F W C J) (PreparedCall F W C) := do
  let request ← cfg.requestTool i call asyncMode
  cfg.emit i (lit "tool_requested") request.1.eventBase
  cfg.approve i request.1.toResolvedTool call.kwargs request.2
  cfg.charge i request.1.selectedCost
  return request.1

/-- What follows tells of the start of the tool. -/
theorem prepareCall_eq : cfg.prepareCall i call asyncMode =
    cfg.admitCall i call asyncMode >>= fun prepared => do
      cfg.emit i (lit "tool_authorized") prepared.eventBase
      cfg.emit i (lit "tool_started") prepared.eventBase
      return prepared := by
  simp only [prepareCall, admitCall, PyM.bind_assoc, PyM.pure_bind]

variable (cfg i call asyncMode) in
/-- A call that is refused charges nothing. -/
theorem logs_admitCall : cfg.Logs i (fun r events => (∃ e, r = .error e) → charges events = [])
    (cfg.admitCall i call asyncMode) := by
  have hfree : ∀ {before approval : List (CallEvent F C)} {payload : PyDict F},
      (∀ e ∈ before, BeforeRequest e) → (∀ e ∈ approval, OfApproval e) →
      charges (approval ++ (cfg.told (lit "tool_requested") payload ++
        (before ++ [.called call]))) = [] := by
    intro before approval payload hbefore happroval
    refine charges_eq_nil (forall_append (fun e he => cost?_of_ofApproval (happroval e he))
      (forall_append (forall_told rfl)
        (forall_append (fun e he => cost?_of_beforeRequest (hbefore e he)) ?_)))
    simp [CallEvent.cost?]
  refine logs_bind (logs_requestTool call asyncMode) ?_ ?_
  · rintro ⟨prepared, checkpoint⟩ _ ⟨before, rfl, hbefore, -⟩
    refine logs_bind (P := fun _ events =>
      events = cfg.told (lit "tool_requested") prepared.eventBase) (logs_emit fun _ => rfl) ?_ ?_
    · rintro _ _ rfl
      refine logs_bind (logs_approve prepared.toResolvedTool call.kwargs checkpoint) ?_ ?_
      · rintro _ approval ⟨happroval, -⟩
        refine logs_bind (logs_charge prepared.selectedCost) ?_ ?_
        · rintro _ _ -
          exact logs_pure (by rintro ⟨e, he⟩; cases he)
        · rintro e _ (⟨he, -⟩ | ⟨-, rfl⟩)
          · cases he
          · exact fun _ => by simpa using hfree hbefore happroval
      · rintro e approval ⟨happroval, -⟩ -
        simpa using hfree hbefore happroval
    · rintro e _ rfl -
      have happroval : ∀ e ∈ ([] : List (CallEvent F C)), OfApproval e := by simp
      simpa using hfree hbefore happroval
  · rintro e _ ⟨before, rfl, hbefore, -⟩ -
    refine charges_eq_nil (forall_append (fun e he => cost?_of_beforeRequest (hbefore e he)) ?_)
    simp [CallEvent.cost?]

/-- A call that is refused ends there, and leaves the counters as they were. -/
theorem refused_leaves_counters {e : PyExc}
    (h : cfg.admitCall i call asyncMode s = (.error e, t)) :
    cfg.prepareCall i call asyncMode s = (.error e, t) ∧ SameCounters s t := by
  refine ⟨?_, ?_⟩
  · rw [prepareCall_eq]
    exact PyM.bind_of_error h
  · obtain ⟨events, hnotes, hnone⟩ := logs_admitCall cfg i call asyncMode s
    rw [h] at hnotes hnone
    exact hnotes.sameCounters (hnone ⟨e, rfl⟩)

/-! ### Every state -/

/-- However the operations on a context interleave, its counters are within the
limits; every handler that starts was charged for once and enough, whatever a
call charges is what it moves the counters by, and a call that is refused moves
none. -/
theorem budget_invariant {pool : Pool ℕ (ContextState F W C J) PyExc (Option (ToolResult F))}
    (h : cfg.Reach (fun s => s.trace = [] ∧ s.steps = 0 ∧ s.toolCalls = 0 ∧ s.costUsd = 0) pool) :
    cfg.WithinLimits pool.state ∧
    (∀ later earlier i handler args kwargs,
      pool.state.trace = later ++ (i, .invoked handler args kwargs) :: earlier →
        cfg.ChargedOnce i earlier) ∧
    (∀ i call s, Proc.Follows (Rely i) (Accounts i) (cfg.callTool i call) s ∧
      Proc.Follows (Rely i) (Accounts i) (cfg.acallTool i call) s) ∧
    ∀ i call asyncMode s e t, cfg.admitCall i call asyncMode s = (.error e, t) →
      cfg.prepareCall i call asyncMode s = (.error e, t) ∧ SameCounters s t := by
  refine ⟨?_, ?_, fun i call s => ⟨?_, ?_⟩, fun _ _ _ _ _ _ => refused_leaves_counters⟩
  · refine Reach.invariant (K := cfg.WithinLimits) (fun s hs g hg => ?_)
      (fun i s t hstep hs => hstep.within hs) (fun s t he hs => ?_) h
    · obtain ⟨-, hsteps, hcalls, hcost⟩ := hs
      rw [hsteps, hcalls, hcost]
      exact ⟨Int.le_trans (by omega) g.maxSteps_pos, g.maxToolCalls_nonneg, g.maxCostUsd_nonneg⟩
    · exact SameCounters.within ⟨he.steps, he.toolCalls, he.costUsd⟩ hs
  · intro later earlier i handler args kwargs htrace
    exact Reach.startsMeet (P := fun i _ _ _ earlier => cfg.ChargedOnce i earlier)
      (fun _ _ _ _ _ h => h.chargedOnce) (fun _ hs => hs.1) h htrace
  · exact ((safe_callTool cfg i call s).weaken fun _ _ => CallStep.accounts).imp
      fun _ _ _ _ => trivial
  · exact ((safe_acallTool cfg i call s).weaken fun _ _ => CallStep.accounts).imp
      fun _ _ _ _ => trivial

end

end ContextConfig

/-- A payment, from zero counters. -/
theorem budget_invariant_pay :
    payContext.WithinLimits afterPayment ∧ ∃ i earlier, payContext.ChargedOnce i earlier := by
  have hreach : payContext.Reach (fun s => s.trace = [] ∧ s.steps = 0 ∧ s.toolCalls = 0 ∧
      s.costUsd = 0) ⟨afterPayment, fun _ => none⟩ := reach_afterPayment ⟨rfl, rfl, rfl, rfl⟩
  obtain ⟨hwithin, hcharged, -⟩ := ContextConfig.budget_invariant hreach
  dsimp only at hwithin hcharged
  have hany : (afterPayment.trace.any fun e => isStart e.2) = true := by decide +kernel
  obtain ⟨i, handler, args, kwargs, later, earlier, htrace⟩ := exists_start hany
  exact ⟨hwithin, i, earlier, hcharged later earlier i handler args kwargs htrace⟩

end AgentRoi
