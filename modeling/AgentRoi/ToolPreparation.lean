/-
What a call notes on its way to the handler.

* `ContextConfig.Notes` — what a step of a call adds to the trace, and that the
  counters move by what it notes as charged, within the limits;
* `ContextConfig.Logs` — a method of a context that does nothing else; the rules
  `logs_bind`, `logs_emit` and their like;
* `ContextConfig.Requested`, `Approved` — what is known of a call once it was
  requested, and approved;
* `ContextConfig.Preparation` — the ways in which `_prepare_call` can end;
* `ContextConfig.Heard` — the emitter raises on no event; then a call that was
  authorised is also started;
* `logs_admitRequest`, `logs_prepareCall` — it ends in one of them.
-/
import AgentRoi.ToolCalls
import Mathlib.Algebra.Order.Ring.Rat
import Mathlib.Algebra.BigOperators.Group.List.Basic

namespace AgentRoi

variable {F W C J α β : Type}

open ContextState

namespace CallEvent

/-- The cost that was charged. -/
def cost? : CallEvent F C → Option ℚ
  | .charged cost => some cost
  | _ => none

end CallEvent

/-- The costs that were charged. -/
def charges (events : List (CallEvent F C)) : List ℚ := events.filterMap CallEvent.cost?

@[simp] theorem charges_nil : charges ([] : List (CallEvent F C)) = [] := rfl

theorem charges_append (events more : List (CallEvent F C)) :
    charges (events ++ more) = charges events ++ charges more := List.filterMap_append

theorem charges_eq_nil {events : List (CallEvent F C)} (h : ∀ e ∈ events, e.cost? = none) :
    charges events = [] := List.filterMap_eq_nil_iff.mpr h

namespace ContextConfig

variable (cfg : ContextConfig F W C J)

/-- From `s` to `t` the call `i` noted `events`. -/
structure Notes (i : ℕ) (events : List (CallEvent F C)) (s t : ContextState F W C J) : Prop where
  trace : t.trace = events.map (i, ·) ++ s.trace
  steps : t.steps = s.steps
  toolCalls : t.toolCalls = s.toolCalls + (charges events).length
  costUsd : t.costUsd = s.costUsd + (charges events).sum
  addedCosts : t.addedCosts = s.addedCosts
  limits : charges events ≠ [] → cfg.checkLimits t.steps t.toolCalls t.costUsd = .ok ()

/-- The method notes what `P` says of its result. -/
def Logs (i : ℕ) (P : Except PyExc α → List (CallEvent F C) → Prop)
    (x : PyM (ContextState F W C J) α) : Prop :=
  ∀ s, ∃ events, cfg.Notes i events s (x s).2 ∧ P (x s).1 events

/-- The note of an event, where there is an emitter to hand it to. -/
def told (eventType : Str) (payload : PyDict F) : List (CallEvent F C) :=
  if cfg.auditEmitter.isSome then [.emitted eventType payload] else []

/-- There is an emitter, and it raises on no event. -/
def Heard : Prop :=
  ∃ emitter, cfg.auditEmitter = some emitter ∧
    ∀ eventType payload s, (emitter eventType payload s).1 = .ok ()

section Rules

variable {cfg} {i : ℕ} {s t u : ContextState F W C J} {events more : List (CallEvent F C)}

theorem Notes.trans (h : cfg.Notes i events s t) (h' : cfg.Notes i more t u) :
    cfg.Notes i (more ++ events) s u where
  trace := by rw [h'.trace, h.trace, List.map_append, List.append_assoc]
  steps := h'.steps.trans h.steps
  toolCalls := by
    rw [h'.toolCalls, h.toolCalls, charges_append, List.length_append]
    push_cast
    ring
  costUsd := by
    rw [h'.costUsd, h.costUsd, charges_append, List.sum_append]
    ring
  addedCosts := h'.addedCosts.trans h.addedCosts
  limits := by
    intro hne
    by_cases hmore : charges more = []
    · -- what follows charges nothing, so the counters stand as they stood
      rw [charges_append, hmore, List.nil_append] at hne
      have hcalls := h'.toolCalls
      have hcost := h'.costUsd
      rw [hmore, List.length_nil, Nat.cast_zero, add_zero] at hcalls
      rw [hmore, List.sum_nil, add_zero] at hcost
      rw [h'.steps, hcalls, hcost]
      exact h.limits hne
    · exact h'.limits hmore

/-- A step that leaves the counters alone and charges nothing. -/
theorem notes_of_same (htrace : t.trace = events.map (i, ·) ++ s.trace)
    (hnone : charges events = []) (hsteps : t.steps = s.steps)
    (hcalls : t.toolCalls = s.toolCalls) (hcost : t.costUsd = s.costUsd)
    (hadded : t.addedCosts = s.addedCosts) : cfg.Notes i events s t where
  trace := htrace
  steps := hsteps
  toolCalls := by rw [hcalls, hnone, List.length_nil, Nat.cast_zero, add_zero]
  costUsd := by rw [hcost, hnone, List.sum_nil, add_zero]
  addedCosts := hadded
  limits h := absurd hnone h

theorem Notes.refl (s : ContextState F W C J) : cfg.Notes i [] s s :=
  notes_of_same rfl rfl rfl rfl rfl rfl

variable {P Q : Except PyExc α → List (CallEvent F C) → Prop} {x : PyM (ContextState F W C J) α}

theorem Logs.imp (h : cfg.Logs i P x) (hpq : ∀ r events, P r events → Q r events) :
    cfg.Logs i Q x := by
  intro s
  obtain ⟨events, hnotes, hp⟩ := h s
  exact ⟨events, hnotes, hpq _ _ hp⟩

theorem logs_ofExcept {r : Except PyExc α} (h : P r []) : cfg.Logs i P (.ofExcept r) :=
  fun s => ⟨[], .refl s, h⟩

theorem logs_pure {a : α} (h : P (.ok a) []) : cfg.Logs i P (pure a) := fun s => ⟨[], .refl s, h⟩

theorem logs_raise {e : PyExc} (h : P (.error e) []) : cfg.Logs i P (.raise e) :=
  fun s => ⟨[], .refl s, h⟩

/-- The world outside notes nothing. -/
theorem logs_onWorld {y : PyM W α} (h : ∀ r, P r []) : cfg.Logs i P (onWorld y) :=
  fun _ => ⟨[], notes_of_same rfl rfl rfl rfl rfl rfl, h _⟩

theorem logs_note {P : Except PyExc Unit → List (CallEvent F C) → Prop} {e : CallEvent F C}
    (hcost : e.cost? = none) (h : P (.ok ()) [e]) : cfg.Logs i P (.modify (note i e)) := by
  have hnone : charges [e] = [] := charges_eq_nil (by simpa using hcost)
  exact fun s => ⟨[e], notes_of_same rfl hnone rfl rfl rfl rfl, h⟩

/-- The emitter may raise. -/
theorem logs_emit {P : Except PyExc Unit → List (CallEvent F C) → Prop} {eventType : Str}
    {payload : PyDict F} (h : ∀ r, P r (cfg.told eventType payload)) :
    cfg.Logs i P (cfg.emit i eventType payload) := by
  intro s
  cases hemitter : cfg.auditEmitter with
  | none =>
    have htold : cfg.told eventType payload = ([] : List (CallEvent F C)) := by
      simp [told, hemitter]
    rw [emit, hemitter]
    exact ⟨[], .refl s, htold ▸ h _⟩
  | some emitter =>
    have htold : cfg.told eventType payload = [(.emitted eventType payload : CallEvent F C)] := by
      simp [told, hemitter]
    rw [emit, hemitter]
    exact ⟨[.emitted eventType payload], notes_of_same rfl rfl rfl rfl rfl rfl, htold ▸ h _⟩

/-- An emitter that raises on no event. -/
theorem logs_emit_heard (eventType : Str) (payload : PyDict F) :
    cfg.Logs i (fun r events => events = cfg.told eventType payload ∧ (cfg.Heard → r = .ok ()))
      (cfg.emit i eventType payload) := by
  intro s
  have htells : cfg.Logs i (fun _ events => events = cfg.told eventType payload)
      (cfg.emit i eventType payload) := logs_emit fun _ => rfl
  obtain ⟨events, hnotes, htold⟩ := htells s
  refine ⟨events, hnotes, htold, ?_⟩
  rintro ⟨emitter, hemitter, hok⟩
  rw [emit, hemitter]
  exact hok eventType payload _

/-- The rule for a sequence. -/
theorem logs_bind {R : Except PyExc β → List (CallEvent F C) → Prop}
    {f : α → PyM (ContextState F W C J) β} (hx : cfg.Logs i P x)
    (hok : ∀ a events, P (.ok a) events →
      cfg.Logs i (fun r more => R r (more ++ events)) (f a))
    (herror : ∀ e events, P (.error e) events → R (.error e) events) :
    cfg.Logs i R (x >>= f) := by
  intro s
  obtain ⟨events, hnotes, hp⟩ := hx s
  rcases hrun : x s with ⟨e | a, t⟩
  · rw [hrun] at hnotes hp
    rw [PyM.bind_of_error hrun]
    exact ⟨events, hnotes, herror e events hp⟩
  · rw [hrun] at hnotes hp
    rw [PyM.bind_of_ok hrun]
    obtain ⟨more, hmore, hr⟩ := hok a events hp t
    exact ⟨more ++ events, hnotes.trans hmore, hr⟩

/-- A sequence that begins with a result that depends on no state. -/
theorem logs_ofExcept_bind {R : Except PyExc β → List (CallEvent F C) → Prop}
    {r : Except PyExc α} {f : α → PyM (ContextState F W C J) β}
    (hok : ∀ a, r = .ok a → cfg.Logs i R (f a)) (herror : ∀ e, r = .error e → R (.error e) []) :
    cfg.Logs i R (.ofExcept r >>= f) := by
  intro s
  cases r with
  | error e => exact ⟨[], .refl s, herror e rfl⟩
  | ok a => exact hok a rfl s

/-- A sequence that begins outside. -/
theorem logs_onWorld_bind {R : Except PyExc β → List (CallEvent F C) → Prop} {y : PyM W α}
    {f : α → PyM (ContextState F W C J) β} (hok : ∀ a, cfg.Logs i R (f a))
    (herror : ∀ e, R (.error e) []) : cfg.Logs i R (onWorld y >>= f) := by
  refine logs_bind (P := fun _ events => events = []) (logs_onWorld fun _ => rfl) ?_ ?_
  · rintro a _ rfl
    exact (hok a).imp fun r events h => by rwa [List.append_nil]
  · rintro e _ rfl
    exact herror e

end Rules

/-! ### What the events of a call can be -/

/-- A payload that does not say what a call costs. -/
def Costless (payload : PyDict F) : Prop := lit "cost_usd" ∉ payload.map Prod.fst

/-- The events that precede the request of a tool. -/
def BeforeRequest : CallEvent F C → Prop
  | .authorizerAnswered _ | .estimatorAnswered _ => True
  | .emitted eventType payload =>
    (eventType = lit "authorization_decision" ∨ eventType = lit "authorization_denied") ∧
      Costless payload
  | _ => False

/-- The events of its approval. -/
def OfApproval : CallEvent F C → Prop
  | .callbackAnswered _ _ | .grantValidated _ _ _ => True
  | .emitted eventType payload =>
    (eventType = lit "approval_granted" ∨ eventType = lit "approval_required") ∧ Costless payload
  | _ => False

theorem cost?_of_beforeRequest {e : CallEvent F C} (h : BeforeRequest e) : e.cost? = none := by
  cases e with
  | charged cost => cases h
  | _ => rfl

theorem cost?_of_ofApproval {e : CallEvent F C} (h : OfApproval e) : e.cost? = none := by
  cases e with
  | charged cost => cases h
  | _ => rfl

variable {cfg} {i : ℕ}

theorem forall_told {p : CallEvent F C → Prop} {eventType : Str} {payload : PyDict F}
    (h : p (.emitted eventType payload)) : ∀ e ∈ cfg.told eventType payload, p e := by
  intro e he
  unfold told at he
  split_ifs at he
  · rw [List.mem_singleton.mp he]
    exact h
  · cases he

theorem forall_append {p : CallEvent F C → Prop} {events more : List (CallEvent F C)}
    (hmore : ∀ e ∈ more, p e) (h : ∀ e ∈ events, p e) : ∀ e ∈ more ++ events, p e := by
  intro e he
  rcases List.mem_append.mp he with he | he
  · exact hmore e he
  · exact h e he

/-! ### Access and cost -/

/-- The authorizer, where there is one, was asked for a principal and agreed. -/
def Permitted (cfg : ContextConfig F W C J) (events : List (CallEvent F C)) : Prop :=
  cfg.authorizer.isSome → cfg.principal.isSome ∧ .authorizerAnswered true ∈ events

theorem costless_accessContext (toolName : Str) (allowed : Bool) (spec : Option (ToolSpec F W C)) :
    Costless ([(lit "tool_name", .str toolName), (lit "allowed", .bool allowed),
      (lit "principal_subject", cfg.principalSubject)] ++ cfg.accessContext spec) := by
  simp only [Costless, accessContext, List.cons_append, List.nil_append, List.map_cons,
    List.map_nil]
  decide

theorem costless_missingPrincipal (toolName : Str) :
    Costless (F := F) [(lit "tool_name", .str toolName),
      (lit "reason", .str (lit "missing_principal"))] := by
  simp only [Costless, List.map_cons, List.map_nil]
  decide

theorem logs_decideAccess (toolName : Str) (spec : Option (ToolSpec F W C)) (allowed : Bool) :
    cfg.Logs i (fun r events => (∀ e ∈ events, BeforeRequest e) ∧ (r = .ok () → allowed = true))
      (cfg.decideAccess i toolName spec allowed) := by
  have htold : ∀ eventType : Str,
      eventType = lit "authorization_decision" ∨ eventType = lit "authorization_denied" →
      ∀ e ∈ cfg.told eventType ([(lit "tool_name", .str toolName), (lit "allowed", .bool allowed),
        (lit "principal_subject", cfg.principalSubject)] ++ cfg.accessContext spec),
      BeforeRequest e :=
    fun eventType h => forall_told ⟨h, costless_accessContext toolName allowed spec⟩
  unfold decideAccess
  refine logs_bind (P := fun _ events => ∀ e ∈ events, BeforeRequest e)
    (logs_emit fun _ => htold _ (.inl rfl)) (fun _ events hevents => ?_)
    fun e events hevents => ⟨hevents, nofun⟩
  cases allowed with
  | true => exact logs_pure ⟨by simpa using hevents, fun _ => rfl⟩
  | false =>
    refine logs_bind (P := fun _ events => ∀ e ∈ events, BeforeRequest e)
      (logs_emit fun _ => htold _ (.inr rfl)) (fun _ more hmore => ?_)
      fun e more hmore => ⟨forall_append hmore hevents, nofun⟩
    exact logs_raise ⟨by simpa using forall_append hmore hevents, nofun⟩

theorem logs_authorizeAccess (toolName : Str) (spec : Option (ToolSpec F W C)) :
    cfg.Logs i (fun r events =>
        (∀ e ∈ events, BeforeRequest e) ∧ (r = .ok () → cfg.Permitted events))
      (cfg.authorizeAccess i toolName spec) := by
  cases hauth : cfg.authorizer with
  | none =>
    rw [authorizeAccess, hauth]
    exact logs_pure ⟨nofun, fun _ h => by rw [hauth] at h; cases h⟩
  | some authorizer =>
    cases hprincipal : cfg.principal with
    | none =>
      rw [authorizeAccess, hauth, hprincipal]
      refine logs_bind (P := fun _ events => ∀ e ∈ events, BeforeRequest e)
        (logs_emit fun _ => forall_told ⟨.inr rfl, costless_missingPrincipal toolName⟩)
        (fun _ events hevents => ?_) fun e events hevents => ⟨hevents, nofun⟩
      exact logs_raise ⟨by simpa using hevents, nofun⟩
    | some principal =>
      rw [authorizeAccess, hauth, hprincipal]
      refine logs_onWorld_bind (fun allowed => ?_) fun e => ⟨nofun, nofun⟩
      refine logs_bind (P := fun _ events => events = [.authorizerAnswered allowed])
        (logs_note rfl rfl) ?_ ?_
      · rintro _ _ rfl
        refine (logs_decideAccess toolName spec allowed).imp fun r events h => ⟨?_, ?_⟩
        · exact forall_append h.1 (by simp [BeforeRequest])
        · intro hok _
          rw [hprincipal, h.2 hok]
          exact ⟨rfl, List.mem_append_right _ List.mem_cons_self⟩
      · rintro e _ rfl
        exact ⟨by simp [BeforeRequest], nofun⟩

/-- The cost is no less than what the tool is registered with. -/
def CostsEnough (spec : ToolSpec F W C) (cost : ℚ) (events : List (CallEvent F C)) : Prop :=
  spec.defaultCostUsd ≤ cost ∧
    (spec.costEstimator.isSome → ∃ estimated, .estimatorAnswered estimated ∈ events ∧
      estimated ≤ cost)

theorem logs_registeredMinimum (tool : ResolvedTool F W C) (kwargs : PyDict F) :
    cfg.Logs i (fun r events => (∀ e ∈ events, BeforeRequest e) ∧ ∀ cost, r = .ok cost →
        0 ≤ cost ∧ ∀ spec, tool.spec = some spec → CostsEnough spec cost events)
      (registeredMinimum i tool kwargs) := by
  cases hspec : tool.spec with
  | none =>
    rw [registeredMinimum, hspec]
    refine logs_pure ⟨nofun, fun cost h => ⟨(Except.ok.inj h).le, fun spec hnone => ?_⟩⟩
    cases hnone
  | some spec =>
    cases hestimator : spec.costEstimator with
    | none =>
      simp only [registeredMinimum, hspec, hestimator]
      refine logs_pure ⟨nofun, fun cost h => ?_⟩
      obtain rfl := Except.ok.inj h
      refine ⟨spec.defaultCostUsd_nonneg, fun spec' h' => ?_⟩
      obtain rfl := Option.some.inj h'
      exact ⟨le_refl _, fun hsome => by rw [hestimator] at hsome; cases hsome⟩
    | some estimator =>
      simp only [registeredMinimum, hspec, hestimator]
      refine logs_onWorld_bind (fun amount => ?_) fun e => ⟨nofun, nofun⟩
      refine logs_ofExcept_bind (fun estimated _ => ?_) fun e _ => ⟨nofun, nofun⟩
      refine logs_bind (P := fun _ events => events = [.estimatorAnswered estimated])
        (logs_note rfl rfl) ?_ ?_
      · rintro _ _ rfl
        refine logs_pure ⟨by simp [BeforeRequest], fun cost h => ?_⟩
        obtain rfl := Except.ok.inj h
        refine ⟨spec.defaultCostUsd_nonneg.trans (le_max_left _ _), fun spec' h' => ?_⟩
        obtain rfl := Option.some.inj h'
        exact ⟨le_max_left _ _, fun _ => ⟨estimated, by simp, le_max_right _ _⟩⟩
      · rintro e _ rfl
        exact ⟨by simp [BeforeRequest], nofun⟩

omit cfg in
/-- The caller's cost lowers nothing. -/
theorem requestedCost_eq_ok {tool : ResolvedTool F W C} {minimum cost : ℚ}
    {callerCost : Option CostAmount} (h : requestedCost tool minimum callerCost = .ok cost) :
    minimum ≤ cost := by
  cases callerCost with
  | none => exact (Except.ok.inj h).le
  | some amount =>
    obtain ⟨requested, -, h⟩ := except_bind_eq_ok.mp h
    cases hspec : tool.spec with
    | none =>
      rw [hspec] at h
      exact (le_max_left _ _).trans (Except.ok.inj h).le
    | some spec =>
      rw [hspec] at h
      replace h : (if requested < minimum then _ else Except.ok (max minimum requested)) =
        Except.ok cost := h
      split_ifs at h
      exact (le_max_left _ _).trans (Except.ok.inj h).le

theorem logs_estimatedCost (tool : ResolvedTool F W C) (kwargs : PyDict F)
    (callerCost : Option CostAmount) :
    cfg.Logs i (fun r events => (∀ e ∈ events, BeforeRequest e) ∧ ∀ cost, r = .ok cost →
        0 ≤ cost ∧ ∀ spec, tool.spec = some spec → CostsEnough spec cost events)
      (estimatedCost i tool kwargs callerCost) := by
  refine logs_bind (logs_registeredMinimum tool kwargs) ?_ ?_
  · rintro minimum events ⟨hevents, hminimum⟩
    refine logs_ofExcept ⟨by simpa using hevents, fun cost hcost => ?_⟩
    have hle := requestedCost_eq_ok hcost
    obtain ⟨hnonneg, henough⟩ := hminimum minimum rfl
    refine ⟨hnonneg.trans hle, fun spec hspec => ?_⟩
    obtain ⟨hdefault, hestimated⟩ := henough spec hspec
    refine ⟨hdefault.trans hle, fun hsome => ?_⟩
    obtain ⟨estimated, hmem, hestimate⟩ := hestimated hsome
    exact ⟨estimated, by simpa using hmem, hestimate.trans hle⟩
  · rintro e events ⟨hevents, -⟩
    exact ⟨hevents, nofun⟩

/-! ### Approval -/

/-- The grant passed the check against the checkpoint, or the callback approved
and no bound grant is required. -/
def Approved (cfg : ContextConfig F W C J) (cp : Checkpoint) (events : List (CallEvent F C)) :
    Prop :=
  (.callbackAnswered cp .approved ∈ events ∧
    cfg.guardrails.any (fun g => g.requireBoundApprovalGrants) = false) ∨
  ∃ grant nowMs, .callbackAnswered cp (.grant grant) ∈ events ∧
    .grantValidated grant cp nowMs ∈ events ∧ grant.validate cp nowMs = .ok ()

theorem logs_validateGrant (grant : ApprovalGrant) (cp : Checkpoint) :
    cfg.Logs i (fun r events => (∀ e ∈ events, OfApproval e) ∧ (r = .ok () →
        ∃ nowMs, .grantValidated grant cp nowMs ∈ events ∧ grant.validate cp nowMs = .ok ()))
      (cfg.validateGrant i grant cp) := by
  refine logs_onWorld_bind (fun now => ?_) fun e => ⟨nofun, nofun⟩
  refine logs_ofExcept_bind (fun u hu => ?_) fun e _ => ⟨nofun, nofun⟩
  refine logs_note rfl ⟨by simp [OfApproval], fun _ => ⟨now, List.mem_cons_self, ?_⟩⟩
  rcases hvalidate : grant.validate cp now with e | ⟨⟨⟩⟩
  · rw [hvalidate] at hu
    cases hu
  · rfl

theorem costless_grantedFields (spec : ToolSpec F W C) (cp : Checkpoint) (approvedBy : Str) :
    Costless (grantedFields (F := F) spec cp approvedBy) := by
  simp only [Costless, grantedFields, List.map_cons, List.map_nil]
  decide

theorem costless_grantedFields_reason (spec : ToolSpec F W C) (cp : Checkpoint)
    (approvedBy reason : Str) : Costless (F := F)
      (grantedFields spec cp approvedBy ++ [(lit "reason", .str reason)]) := by
  simp only [Costless, grantedFields, List.cons_append, List.nil_append, List.map_cons,
    List.map_nil]
  decide

theorem costless_checkpointFields (cp : Checkpoint) : Costless (cfg.checkpointFields cp) := by
  simp only [Costless, checkpointFields, List.map_cons, List.map_nil]
  decide

theorem logs_decideApproval (spec : ToolSpec F W C) (cp : Checkpoint) (answer : ApprovalAnswer) :
    cfg.Logs i (fun r events => (∀ e ∈ events, OfApproval e) ∧
        (r = .ok () → cfg.Approved cp (events ++ [.callbackAnswered cp answer])))
      (cfg.decideApproval i spec cp answer) := by
  cases answer with
  | grant grant =>
    refine logs_bind (logs_validateGrant grant cp) ?_ ?_
    · rintro u events ⟨hevents, hvalid⟩
      refine logs_emit fun r => ⟨?_, fun _ => ?_⟩
      · exact forall_append (forall_told ⟨.inl rfl, costless_grantedFields_reason _ _ _ _⟩) hevents
      · obtain ⟨nowMs, hmem, hvalidate⟩ := hvalid rfl
        exact .inr ⟨grant, nowMs, by simp, by simp [hmem], hvalidate⟩
    · rintro e events ⟨hevents, -⟩
      exact ⟨hevents, nofun⟩
  | approved =>
    cases hbound : cfg.guardrails.any fun g => g.requireBoundApprovalGrants with
    | true =>
      simp only [decideApproval, hbound, if_true]
      exact logs_raise ⟨nofun, nofun⟩
    | false =>
      simp only [decideApproval, hbound, Bool.false_eq_true, if_false]
      exact logs_emit fun r => ⟨forall_told ⟨.inl rfl, costless_grantedFields _ _ _⟩,
        fun _ => .inl ⟨by simp, hbound⟩⟩
  | refused =>
    refine logs_bind (P := fun _ events => ∀ e ∈ events, OfApproval e)
      (logs_emit fun _ => forall_told ⟨.inr rfl, costless_checkpointFields cp⟩)
      (fun _ events hevents => ?_) fun e events hevents => ⟨hevents, nofun⟩
    exact logs_raise ⟨by simpa using hevents, nofun⟩

theorem logs_authorize (spec : ToolSpec F W C) (args : List (PyVal F)) (kwargs : PyDict F)
    (cp : Checkpoint) :
    cfg.Logs i (fun r events =>
        (∀ e ∈ events, OfApproval e) ∧ (r = .ok () → cfg.Approved cp events))
      (cfg.authorize i spec args kwargs cp) := by
  have hask : cfg.Logs i (fun _ events => events = []) (cfg.askApproval spec args kwargs cp) := by
    cases hcallback : cfg.approvalCallback with
    | none =>
      rw [askApproval, hcallback]
      exact logs_pure rfl
    | some callback =>
      rw [askApproval, hcallback]
      exact logs_onWorld fun _ => rfl
  refine logs_bind hask ?_ ?_
  · rintro answer _ rfl
    refine logs_bind (P := fun _ events => events = [.callbackAnswered cp answer])
      (logs_note rfl rfl) ?_ ?_
    · rintro _ _ rfl
      refine (logs_decideApproval spec cp answer).imp fun r events h => ?_
      rw [List.append_nil]
      exact ⟨forall_append h.1 (by simp [OfApproval]), h.2⟩
    · rintro e _ rfl
      exact ⟨by simp [OfApproval], nofun⟩
  · rintro e _ rfl
    exact ⟨nofun, nofun⟩

/-! ### The charge -/

theorem logs_charge (cost : ℚ) :
    cfg.Logs i (fun r events => (r = .ok () ∧ events = [.charged cost]) ∨
        ((∃ e, r = .error e) ∧ events = []))
      (cfg.charge i cost) := by
  intro s
  rcases hlimits : cfg.checkLimits s.steps (s.toolCalls + 1) (s.costUsd + cost) with e | ⟨⟨⟩⟩
  · have hrun : cfg.charge i cost s = (.error e, s) := by
      rw [charge, PyM.get_bind, hlimits]
      rfl
    rw [hrun]
    exact ⟨[], .refl s, .inr ⟨⟨e, rfl⟩, rfl⟩⟩
  · have hrun : cfg.charge i cost s = (.ok (), note i (.charged cost)
        { s with toolCalls := s.toolCalls + 1, costUsd := s.costUsd + cost }) := by
      rw [charge, PyM.get_bind, hlimits]
      rfl
    rw [hrun]
    exact ⟨[.charged cost], ⟨rfl, rfl, by simp [charges, CallEvent.cost?, note],
      by simp [charges, CallEvent.cost?, note], rfl, fun _ => hlimits⟩, .inl ⟨rfl, rfl⟩⟩

/-! ### The whole way -/

section

variable [PyFloat F]

/-- The checkpoint is the one of this very call. -/
structure OwnCheckpoint (cfg : ContextConfig F W C J) (toolName : Str) (spec : ToolSpec F W C)
    (args : List (PyVal F)) (kwargs : PyDict F) (cost : ℚ) (cp : Checkpoint) : Prop where
  actionDigest : cfg.actionDigest toolName spec args kwargs cost = .ok cp.actionDigest
  checkpointId : cfg.checkpointId cp.actionDigest cp.expiresAtEpochMs = .ok cp.checkpointId
  argumentsDigest : cfg.argumentsDigest args kwargs = .ok cp.argumentsDigest
  correlationId : cp.correlationId = cfg.correlationId
  runId : cp.runId = cfg.runId
  toolName : cp.toolName = toolName
  toolVersion : cp.toolVersion = spec.version
  risk : cp.risk = spec.risk
  estimatedCostUsd : cp.estimatedCostUsd = cost
  policyDigest : cp.policyDigest = cfg.policyDigest
  principalSubject : cp.principalSubject = cfg.principal.elim [] PrincipalRef.text
  organizationId : cp.organizationId = cfg.organizationId
  environment : cp.environment = cfg.environment
  agentId : cp.agentId = cfg.agentId

theorem logs_approvalCheckpoint (toolName : Str) (spec : ToolSpec F W C) (args : List (PyVal F))
    (kwargs : PyDict F) (cost : ℚ) :
    cfg.Logs i (fun r events => events = [] ∧
        ∀ cp, r = .ok cp → cfg.OwnCheckpoint toolName spec args kwargs cost cp)
      (cfg.approvalCheckpoint toolName spec args kwargs cost) := by
  refine logs_ofExcept_bind (fun actionDigest haction => ?_) fun e _ => ⟨rfl, nofun⟩
  refine logs_onWorld_bind (fun now => ?_) fun e => ⟨rfl, nofun⟩
  refine logs_ofExcept_bind (fun checkpointId hcheckpoint => ?_) fun e _ => ⟨rfl, nofun⟩
  refine logs_ofExcept_bind (fun argumentsDigest harguments => ?_) fun e _ => ⟨rfl, nofun⟩
  refine logs_onWorld_bind (fun created => ?_) fun e => ⟨rfl, nofun⟩
  refine logs_pure ⟨rfl, fun cp hcp => ?_⟩
  obtain rfl := Except.ok.inj hcp
  exact ⟨haction, hcheckpoint, harguments, rfl, rfl, rfl, rfl, rfl, rfl, rfl, rfl, rfl, rfl, rfl⟩

theorem logs_checkpointOf (toolName : Str) (tool : ResolvedTool F W C) (kwargs : PyDict F)
    (cost : ℚ) :
    cfg.Logs i (fun r events => events = [] ∧ ∀ checkpoint, r = .ok checkpoint →
        ∀ spec, ResolvedTool.needsApproval tool = some spec → ∃ cp, checkpoint = some cp ∧
          cfg.OwnCheckpoint toolName spec tool.args kwargs cost cp)
      (cfg.checkpointOf toolName tool kwargs cost) := by
  cases hneeds : ResolvedTool.needsApproval tool with
  | none =>
    rw [checkpointOf, hneeds]
    refine logs_pure ⟨rfl, fun _ _ spec hnone => ?_⟩
    cases hnone
  | some spec =>
    rw [checkpointOf, hneeds]
    refine logs_bind (logs_approvalCheckpoint toolName spec tool.args kwargs cost) ?_ ?_
    · rintro cp _ ⟨rfl, hown⟩
      refine logs_pure ⟨rfl, fun checkpoint hcheckpoint spec' hspec => ?_⟩
      obtain rfl := Except.ok.inj hcheckpoint
      obtain rfl := Option.some.inj hspec
      exact ⟨cp, rfl, hown cp rfl⟩
    · rintro e _ ⟨rfl, -⟩
      exact ⟨rfl, nofun⟩

variable [DecidableEq C]

/-- What is known of a call once its tool is requested. -/
structure Requested (cfg : ContextConfig F W C J) (call : ToolCall F C) (asyncMode : Bool)
    (events : List (CallEvent F C)) (prepared : PreparedCall F W C)
    (checkpoint : Option Checkpoint) : Prop where
  allowed : cfg.checkAllowed call.toolName = .ok ()
  resolved : cfg.resolveTool call = .ok prepared.toResolvedTool
  permitted : cfg.Permitted events
  mode : cfg.checkMode call.toolName prepared.toResolvedTool asyncMode = .ok ()
  nonneg : 0 ≤ prepared.selectedCost
  enough : ∀ spec, prepared.spec = some spec → CostsEnough spec prepared.selectedCost events
  ownCheckpoint : ∀ spec, ResolvedTool.needsApproval prepared.toResolvedTool = some spec →
    ∃ cp, checkpoint = some cp ∧
      cfg.OwnCheckpoint call.toolName spec prepared.args call.kwargs prepared.selectedCost cp
  eventBase : cfg.eventBase call.toolName prepared.toResolvedTool call.kwargs
    prepared.selectedCost checkpoint = .ok prepared.eventBase

theorem logs_requestTool (call : ToolCall F C) (asyncMode : Bool) :
    cfg.Logs i (fun r events => ∃ before, events = before ++ [.called call] ∧
        (∀ e ∈ before, BeforeRequest e) ∧ ∀ request, r = .ok request →
          cfg.Requested call asyncMode before request.1 request.2)
      (cfg.requestTool i call asyncMode) := by
  have hnone : ∀ e ∈ ([] : List (CallEvent F C)), BeforeRequest e :=
    fun _ he => absurd he List.not_mem_nil
  refine logs_bind (P := fun _ events => events = [.called call]) (logs_note rfl rfl) ?_ ?_
  · rintro _ _ rfl
    -- what follows is told of the events after the call itself
    refine Logs.imp (P := fun r before => (∀ e ∈ before, BeforeRequest e) ∧
      ∀ request, r = .ok request → cfg.Requested call asyncMode before request.1 request.2) ?_
      fun r before h => ⟨before, rfl, h⟩
    refine logs_ofExcept_bind (fun _ hallowed => ?_) fun e _ => ⟨hnone, fun _ h => by cases h⟩
    refine logs_ofExcept_bind (fun tool hresolved => ?_) fun e _ => ⟨hnone, fun _ h => by cases h⟩
    refine logs_bind (logs_authorizeAccess call.toolName tool.spec) ?_ ?_
    · rintro _ access ⟨haccess, hpermitted⟩
      refine logs_ofExcept_bind (fun _ hmode => ?_) fun e _ => ⟨haccess, fun _ h => by cases h⟩
      refine logs_bind (logs_estimatedCost tool call.kwargs call.costUsd) ?_ ?_
      · rintro cost costing ⟨hcosting, hcost⟩
        have hbefore := forall_append hcosting haccess
        obtain ⟨hnonneg, henough⟩ := hcost cost rfl
        refine logs_bind (logs_checkpointOf call.toolName tool call.kwargs cost) ?_ ?_
        · rintro checkpoint _ ⟨rfl, hcheckpoint⟩
          refine logs_ofExcept_bind (fun eventBase hbase => ?_) fun e _ => ⟨hbefore, fun _ h => by cases h⟩
          refine logs_pure ⟨hbefore, fun request hrequest => ?_⟩
          obtain rfl := Except.ok.inj hrequest
          refine ⟨hallowed, hresolved, fun hsome => ?_, hmode, hnonneg, fun spec hspec => ?_,
            hcheckpoint checkpoint rfl, hbase⟩
          · obtain ⟨hprincipal, hmem⟩ := hpermitted rfl hsome
            exact ⟨hprincipal, List.mem_append_right _ hmem⟩
          · obtain ⟨hdefault, hestimated⟩ := henough spec hspec
            refine ⟨hdefault, fun hsome => ?_⟩
            obtain ⟨estimated, hmem, hle⟩ := hestimated hsome
            exact ⟨estimated, List.mem_append_left _ hmem, hle⟩
        · rintro e _ ⟨rfl, -⟩
          exact ⟨hbefore, fun _ h => by cases h⟩
      · rintro e costing ⟨hcosting, -⟩
        exact ⟨forall_append hcosting haccess, fun _ h => by cases h⟩
    · rintro e access ⟨haccess, -⟩
      exact ⟨haccess, fun _ h => by cases h⟩
  · rintro e _ rfl
    exact ⟨[], rfl, hnone, fun _ h => by cases h⟩

omit [PyFloat F] [DecidableEq C] in
theorem logs_approve (tool : ResolvedTool F W C) (kwargs : PyDict F)
    (checkpoint : Option Checkpoint) :
    cfg.Logs i (fun r events => (∀ e ∈ events, OfApproval e) ∧ (r = .ok () → ∀ spec cp,
        ResolvedTool.needsApproval tool = some spec → checkpoint = some cp →
          cfg.Approved cp events))
      (cfg.approve i tool kwargs checkpoint) := by
  cases hneeds : ResolvedTool.needsApproval tool with
  | none =>
    simp only [approve, hneeds]
    exact logs_pure ⟨nofun, fun _ _ _ => nofun⟩
  | some spec =>
    cases checkpoint with
    | none =>
      simp only [approve, hneeds]
      exact logs_pure ⟨nofun, fun _ _ _ _ => nofun⟩
    | some cp =>
      simp only [approve, hneeds]
      refine (logs_authorize spec tool.args kwargs cp).imp fun r events h => ⟨h.1, ?_⟩
      intro hok spec' cp' hspec hcp
      obtain rfl := Option.some.inj hcp
      exact h.2 hok

/-- What is known of a call once it is charged. -/
structure Authorised (cfg : ContextConfig F W C J) (call : ToolCall F C) (asyncMode : Bool)
    (before approval : List (CallEvent F C)) (prepared : PreparedCall F W C)
    (checkpoint : Option Checkpoint) : Prop
    extends cfg.Requested call asyncMode before prepared checkpoint where
  before : ∀ e ∈ before, BeforeRequest e
  ofApproval : ∀ e ∈ approval, OfApproval e
  approved : ∀ spec cp, ResolvedTool.needsApproval prepared.toResolvedTool = some spec →
    checkpoint = some cp → cfg.Approved cp approval

/-- The events of a call up to its charge. -/
def upToCharge (cfg : ContextConfig F W C J) (call : ToolCall F C)
    (before approval : List (CallEvent F C)) (prepared : PreparedCall F W C) :
    List (CallEvent F C) :=
  .charged prepared.selectedCost :: approval ++ cfg.told (lit "tool_requested") prepared.eventBase ++
    before ++ [.called call]

/-- How `_prepare_call` ends, with the events it noted. -/
inductive Preparation (cfg : ContextConfig F W C J) (call : ToolCall F C) (asyncMode : Bool) :
    Except PyExc (PreparedCall F W C) → List (CallEvent F C) → Prop
  | refused {e before} (hbefore : ∀ x ∈ before, BeforeRequest x) :
      Preparation cfg call asyncMode (.error e) (before ++ [.called call])
  | unapproved {e before approval prepared checkpoint}
      (hrequested : cfg.Requested call asyncMode before prepared checkpoint)
      (hbefore : ∀ x ∈ before, BeforeRequest x) (happroval : ∀ x ∈ approval, OfApproval x) :
      Preparation cfg call asyncMode (.error e)
        (approval ++ cfg.told (lit "tool_requested") prepared.eventBase ++ before ++ [.called call])
  | unheard {e before approval prepared checkpoint}
      (h : cfg.Authorised call asyncMode before approval prepared checkpoint) :
      Preparation cfg call asyncMode (.error e)
        (cfg.told (lit "tool_authorized") prepared.eventBase ++
          cfg.upToCharge call before approval prepared)
  | unstarted {e before approval prepared checkpoint}
      (h : cfg.Authorised call asyncMode before approval prepared checkpoint) :
      Preparation cfg call asyncMode (.error e)
        (cfg.told (lit "tool_started") prepared.eventBase ++
          cfg.told (lit "tool_authorized") prepared.eventBase ++
          cfg.upToCharge call before approval prepared)
  | prepared {before approval prepared checkpoint}
      (h : cfg.Authorised call asyncMode before approval prepared checkpoint) :
      Preparation cfg call asyncMode (.ok prepared)
        (cfg.told (lit "tool_started") prepared.eventBase ++
          cfg.told (lit "tool_authorized") prepared.eventBase ++
          cfg.upToCharge call before approval prepared)

/-- The event that tells of an authorised call. -/
def IsAuthorisation : CallEvent F C → Prop
  | .emitted eventType _ => eventType = lit "tool_authorized"
  | _ => False

omit [PyFloat F] [DecidableEq C] in
theorem not_isAuthorisation_of_beforeRequest {e : CallEvent F C} (h : BeforeRequest e) :
    ¬IsAuthorisation e := by
  cases e with
  | emitted eventType payload =>
    obtain ⟨rfl | rfl, -⟩ := h
    · exact show lit _ ≠ lit _ by decide
    · exact show lit _ ≠ lit _ by decide
  | _ => exact id

omit [PyFloat F] [DecidableEq C] in
theorem not_isAuthorisation_of_ofApproval {e : CallEvent F C} (h : OfApproval e) :
    ¬IsAuthorisation e := by
  cases e with
  | emitted eventType payload =>
    obtain ⟨rfl | rfl, -⟩ := h
    · exact show lit _ ≠ lit _ by decide
    · exact show lit _ ≠ lit _ by decide
  | _ => exact id

omit [PyFloat F] [DecidableEq C] in
/-- The events of a call that was not authorised. -/
theorem not_isAuthorisation_of_unapproved {before approval : List (CallEvent F C)}
    {payload : PyDict F} {call : ToolCall F C} (hbefore : ∀ x ∈ before, BeforeRequest x)
    (happroval : ∀ x ∈ approval, OfApproval x) :
    ∀ x ∈ approval ++ cfg.told (lit "tool_requested") payload ++ before ++ [.called call],
      ¬IsAuthorisation x := by
  have hrequested : ¬IsAuthorisation
      (.emitted (lit "tool_requested") payload : CallEvent F C) := by
    show lit "tool_requested" ≠ lit "tool_authorized"
    decide
  refine forall_append (forall_append (forall_append ?_ (forall_told hrequested)) ?_) ?_
  · exact fun x hx => not_isAuthorisation_of_ofApproval (happroval x hx)
  · exact fun x hx => not_isAuthorisation_of_beforeRequest (hbefore x hx)
  · intro x hx
    rw [List.mem_singleton.mp hx]
    exact id

/-- The part of `_prepare_call` that follows the charge. -/
theorem logs_startTool {call : ToolCall F C} {asyncMode : Bool}
    {before approval : List (CallEvent F C)} {prepared : PreparedCall F W C}
    {checkpoint : Option Checkpoint}
    (h : cfg.Authorised call asyncMode before approval prepared checkpoint) :
    cfg.Logs i (fun r events => cfg.Preparation call asyncMode r
        (events ++ cfg.upToCharge call before approval prepared) ∧ (cfg.Heard → r.isOk = true)) (do
      cfg.emit i (lit "tool_authorized") prepared.eventBase
      cfg.emit i (lit "tool_started") prepared.eventBase
      return prepared) := by
  refine logs_bind (P := fun r events => events = cfg.told (lit "tool_authorized")
    prepared.eventBase ∧ (cfg.Heard → r = .ok ())) (logs_emit_heard _ _) ?_ ?_
  · rintro _ _ ⟨rfl, -⟩
    refine logs_bind (P := fun r events => events = cfg.told (lit "tool_started")
      prepared.eventBase ∧ (cfg.Heard → r = .ok ())) (logs_emit_heard _ _) ?_ ?_
    · rintro _ _ ⟨rfl, -⟩
      exact logs_pure ⟨.prepared h, fun _ => rfl⟩
    · rintro e _ ⟨rfl, hok⟩
      exact ⟨.unstarted h, fun hheard => by cases hok hheard⟩
  · rintro e _ ⟨rfl, hok⟩
    exact ⟨.unheard h, fun hheard => by cases hok hheard⟩

/-- The rest of `_prepare_call`, once the tool is resolved and what is asked for
is known. -/
def admitRequest (cfg : ContextConfig F W C J) (i : ℕ) (call : ToolCall F C)
    (request : PreparedCall F W C × Option Checkpoint) :
    PyM (ContextState F W C J) (PreparedCall F W C) := do
  cfg.emit i (lit "tool_requested") request.1.eventBase
  cfg.approve i request.1.toResolvedTool call.kwargs request.2
  cfg.charge i request.1.selectedCost
  cfg.emit i (lit "tool_authorized") request.1.eventBase
  cfg.emit i (lit "tool_started") request.1.eventBase
  return request.1

/-- What a call told of that failed after its request and before its charge. -/
def Unadmitted (cfg : ContextConfig F W C J) (prepared : PreparedCall F W C)
    (events : List (CallEvent F C)) : Prop :=
  ∃ approval, (∀ e ∈ approval, OfApproval e) ∧
    events = approval ++ cfg.told (lit "tool_requested") prepared.eventBase

theorem logs_admitRequest {call : ToolCall F C} {asyncMode : Bool}
    {before : List (CallEvent F C)} {prepared : PreparedCall F W C}
    {checkpoint : Option Checkpoint} (hbefore : ∀ e ∈ before, BeforeRequest e)
    (hrequested : cfg.Requested call asyncMode before prepared checkpoint) :
    cfg.Logs i (fun r events =>
        cfg.Preparation call asyncMode r (events ++ (before ++ [.called call])) ∧
        (cfg.Heard → r.isOk = true ∨ cfg.Unadmitted prepared events))
      (cfg.admitRequest i call (prepared, checkpoint)) := by
  have hunapproved : ∀ (e : PyExc) (approval : List (CallEvent F C)),
      (∀ x ∈ approval, OfApproval x) →
      cfg.Preparation call asyncMode (.error e)
          (approval ++ cfg.told (lit "tool_requested") prepared.eventBase ++
            (before ++ [.called call])) ∧
        (cfg.Heard → (Except.error e : Except PyExc (PreparedCall F W C)).isOk = true ∨
          cfg.Unadmitted prepared
            (approval ++ cfg.told (lit "tool_requested") prepared.eventBase)) := by
    intro e approval happroval
    rw [← List.append_assoc]
    exact ⟨.unapproved hrequested hbefore happroval, fun _ => .inr ⟨approval, happroval, rfl⟩⟩
  refine logs_bind (P := fun _ events =>
    events = cfg.told (lit "tool_requested") prepared.eventBase) (logs_emit fun _ => rfl) ?_ ?_
  · rintro _ _ rfl
    refine logs_bind (logs_approve prepared.toResolvedTool call.kwargs checkpoint) ?_ ?_
    · rintro _ approval ⟨happroval, happroved⟩
      refine logs_bind (logs_charge prepared.selectedCost) ?_ ?_
      · rintro _ _ (⟨-, rfl⟩ | ⟨⟨e, he⟩, -⟩)
        · have hauthorised : cfg.Authorised call asyncMode before approval prepared checkpoint :=
            { hrequested with
              before := hbefore
              ofApproval := happroval
              approved := happroved rfl }
          -- charged: what is left announces the start
          refine (logs_startTool hauthorised).imp fun r events h => ?_
          refine ⟨?_, fun hheard => .inl (h.2 hheard)⟩
          simpa [upToCharge] using h.1
        · cases he
      · rintro e _ (⟨he, -⟩ | ⟨-, rfl⟩)
        · cases he
        · exact hunapproved e approval happroval
    · rintro e approval ⟨happroval, -⟩
      exact hunapproved e approval happroval
  · -- the request itself could not be told
    rintro e _ rfl
    exact hunapproved e [] fun x hx => absurd hx List.not_mem_nil

variable (cfg i) in
/-- `_prepare_call` ends in one of its ways. -/
theorem logs_prepareCall (call : ToolCall F C) (asyncMode : Bool) :
    cfg.Logs i (cfg.Preparation call asyncMode) (cfg.prepareCall i call asyncMode) := by
  refine logs_bind (logs_requestTool call asyncMode) ?_ ?_
  · rintro ⟨prepared, checkpoint⟩ _ ⟨before, rfl, hbefore, hrequest⟩
    exact (logs_admitRequest hbefore (hrequest _ rfl)).imp fun _ _ h => h.1
  · rintro e _ ⟨before, rfl, hbefore, -⟩
    exact .refused hbefore

end

end ContextConfig

end AgentRoi
