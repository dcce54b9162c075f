/-
What an `OpenTelemetrySink` adds to the cost of a run.

* `Paid` — events of which each charge goes with a request and an authorisation
  that show it; `follows_perform_pays` — every step of an operation notes such
  events, and moves the cost by their charges and by what `add_cost` adds;
* `Balanced` — the authorisations among the entries of a run show its charges,
  and its cost is what was charged and added; `balanced_run` — so it is when the
  run has ended;
* `published_cost` — what the sink adds for an entry;
* `free_of_others` — where no request costs anything, nothing does;
* `cost_telemetry` — when the sink adds what the run cost.
-/
import AgentRoi.RunTelemetry

namespace AgentRoi

open ContextState RunnerJournal SentinelRunner

variable {F W C J α β : Type}

/-! ### The costs that a payload shows -/

namespace OpenTelemetrySink

variable (sink : OpenTelemetrySink F)

/-- `float(cost)`, where that is a number. -/
def number : PyVal F → Option ℚ
  | .bool b => some (if b then 1 else 0)
  | .int i => some i
  | .float (.finite x) => some (sink.value x)
  | _ => none

/-- The sum of what is added, where that is a number. -/
def total : List (PyVal F) → Option ℚ
  | [] => some 0
  | cost :: costs => do
    let q ← sink.number cost
    let rest ← total costs
    return q + rest

/-- The cost of a payload that is added. -/
def shownCost (payload : PyDict F) : Option (PyVal F) :=
  (dictGet (lit "cost_usd") payload).filter sink.isAmount

/-- What is added for the events. -/
def costsOf (events : List (CloudEvent F)) : List (PyVal F) :=
  events.filterMap fun event => (sink.emit event).cost

variable {sink}

@[simp] theorem total_nil : sink.total [] = some 0 := rfl

theorem total_cons_eq_some {cost : PyVal F} {costs : List (PyVal F)} {q : ℚ} :
    sink.total (cost :: costs) = some q ↔
      ∃ p rest, sink.number cost = some p ∧ sink.total costs = some rest ∧ p + rest = q := by
  rw [total]
  cases sink.number cost with
  | none => simp
  | some p =>
    cases sink.total costs with
    | none => simp
    | some rest => simp

/-- Numbers that are all zero. -/
theorem total_of_zero {costs : List (PyVal F)} (h : ∀ cost ∈ costs, sink.number cost = some 0) :
    sink.total costs = some 0 := by
  induction costs with
  | nil => rfl
  | cons cost costs ih =>
    obtain ⟨hcost, hcosts⟩ := List.forall_mem_cons.mp h
    exact total_cons_eq_some.mpr ⟨0, 0, hcost, ih hcosts, add_zero 0⟩

/-- What is added is nonnegative. -/
theorem number_nonneg {cost : PyVal F} {q : ℚ} (hamount : sink.isAmount cost = true)
    (h : sink.number cost = some q) : 0 ≤ q := by
  cases cost with
  | bool b =>
    obtain rfl := Option.some.inj h
    cases b
    · exact le_refl 0
    · exact zero_le_one
  | int i =>
    obtain rfl := Option.some.inj h
    exact Int.cast_nonneg (of_decide_eq_true hamount)
  | float f =>
    cases f with
    | finite x =>
      obtain rfl := Option.some.inj h
      exact of_decide_eq_true hamount
    | _ => cases h
  | _ => cases h

theorem total_nonneg {costs : List (PyVal F)} (hamounts : ∀ cost ∈ costs, sink.isAmount cost = true)
    {q : ℚ} (h : sink.total costs = some q) : 0 ≤ q := by
  induction costs generalizing q with
  | nil =>
    obtain rfl := Option.some.inj h
    exact le_refl 0
  | cons cost costs ih =>
    obtain ⟨hamount, hamounts⟩ := List.forall_mem_cons.mp hamounts
    obtain ⟨p, rest, hnumber, hrest, rfl⟩ := total_cons_eq_some.mp h
    exact add_nonneg (number_nonneg hamount hnumber) (ih hamounts hrest)

/-- Nonnegative numbers that sum to zero. -/
theorem total_eq_zero {costs : List (PyVal F)} (hamounts : ∀ cost ∈ costs, sink.isAmount cost = true)
    (h : sink.total costs = some 0) : ∀ cost ∈ costs, sink.number cost = some 0 := by
  induction costs with
  | nil => exact nofun
  | cons cost costs ih =>
    obtain ⟨hamount, hamounts⟩ := List.forall_mem_cons.mp hamounts
    obtain ⟨p, rest, hnumber, hrest, hsum⟩ := total_cons_eq_some.mp h
    have hp := number_nonneg hamount hnumber
    have hq := total_nonneg hamounts hrest
    obtain rfl : p = 0 := by linarith
    obtain rfl : rest = 0 := by linarith
    exact List.forall_mem_cons.mpr ⟨hnumber, ih hamounts hrest⟩

/-- A total of which a part is known. -/
theorem total_eq_some_iff_of_part {α : Type} {p : α → Bool} {f : α → Option (PyVal F)}
    {xs : List α} {part q : ℚ} (hpart : sink.total ((xs.filter p).filterMap f) = some part) :
    sink.total (xs.filterMap f) = some q ↔
      sink.total ((xs.filter fun x => !p x).filterMap f) = some (q - part) := by
  induction xs generalizing part q with
  | nil =>
    obtain rfl : (0 : ℚ) = part := Option.some.inj hpart
    rw [List.filterMap_nil, List.filter_nil, List.filterMap_nil, sub_zero]
  | cons x xs ih =>
    -- by whether the first cost is of the part, and is a cost at all
    cases hx : p x with
    | true =>
      rw [List.filter_cons_of_pos hx] at hpart
      rw [List.filter_cons_of_neg (by simp [hx])]
      cases hf : f x with
      | none =>
        rw [List.filterMap_cons_none hf] at hpart
        rw [List.filterMap_cons_none hf]
        exact ih hpart
      | some cost =>
        rw [List.filterMap_cons_some hf] at hpart
        obtain ⟨n, rest, hn, hrest, rfl⟩ := total_cons_eq_some.mp hpart
        rw [List.filterMap_cons_some hf, total_cons_eq_some, ← sub_sub]
        rw [← ih hrest]
        constructor
        · rintro ⟨n', rest', hn', hrest', rfl⟩
          obtain rfl := Option.some.inj (hn.symm.trans hn')
          rw [hrest', add_sub_cancel_left]
        · intro htotal
          exact ⟨n, _, hn, htotal, by ring⟩
    | false =>
      rw [List.filter_cons_of_neg (by simp [hx])] at hpart
      rw [List.filter_cons_of_pos (by simp [hx])]
      cases hf : f x with
      | none =>
        rw [List.filterMap_cons_none hf, List.filterMap_cons_none hf]
        exact ih hpart
      | some cost =>
        rw [List.filterMap_cons_some hf, List.filterMap_cons_some hf, total_cons_eq_some,
          total_cons_eq_some]
        constructor
        · rintro ⟨n, rest, hn, hrest, rfl⟩
          exact ⟨n, rest - part, hn, (ih hpart).mp hrest, by ring⟩
        · rintro ⟨n, rest, hn, hrest, hsum⟩
          refine ⟨n, rest + part, hn, (ih hpart).mpr ?_, by linarith⟩
          rwa [add_sub_cancel_right]

end OpenTelemetrySink

section Published

variable [PyFloat F] {runner : SentinelRunner F W C} {fresh : FreshRun}

omit [PyFloat F] in
theorem dictGet_map_key {k : Str} {f : Str → PyVal F → PyVal F} {fields : PyDict F} :
    dictGet k (fields.map fun p => (p.1, f p.1 p.2)) = (dictGet k fields).map (f k) := by
  induction fields with
  | nil => rfl
  | cons p fields ih =>
    by_cases h : p.1 = k
    · simp [dictGet, h]
    · simp [dictGet, h, ih]

omit [PyFloat F] in
theorem dataGet_runtimeEvent (eventType : Str) (data : PyDict F) (fields : RuntimeEventFields)
    (key : Str) : OpenTelemetrySink.dataGet (runtimeEvent eventType data fields) key =
      dictGet key (runtimeData data fields) := by
  show Option.map Prod.snd (List.find? _ ((runtimeData data fields).map _)) = _
  induction runtimeData data fields with
  | nil => rfl
  | cons p rest ih =>
    by_cases h : p.1 = key
    · simp [dictGet, h]
    · simpa [dictGet, h] using ih

omit [PyFloat F] in
/-- What the payload says of a cost stands in the data of the event. -/
theorem dictGet_cost_runtimeData (data : PyDict F) (fields : RuntimeEventFields) :
    dictGet (lit "cost_usd") (runtimeData data fields) = dictGet (lit "cost_usd") data := by
  have horganization : lit "organization_id" ≠ lit "cost_usd" := by decide
  have henvironment : lit "environment" ≠ lit "cost_usd" := by decide
  have hagent : lit "agent_id" ≠ lit "cost_usd" := by decide
  have hcorrelation : lit "correlation_id" ≠ lit "cost_usd" := by decide
  have hrun : lit "run_id" ≠ lit "cost_usd" := by decide
  simp only [runtimeData, List.foldl_cons, List.foldl_nil,
    dictGet_dictInsert_of_ne horganization, dictGet_dictInsert_of_ne henvironment,
    dictGet_dictInsert_of_ne hagent, dictGet_dictInsert_of_ne hcorrelation,
    dictGet_dictInsert_of_ne hrun]

omit [PyFloat F] in
theorem dictGet_of_costless {payload : PyDict F} (h : ContextConfig.Costless payload) :
    dictGet (lit "cost_usd") payload = none := by
  induction payload with
  | nil => rfl
  | cons p payload ih =>
    rw [ContextConfig.Costless, List.map_cons, List.mem_cons, not_or] at h
    rw [dictGet, if_neg (Ne.symm h.1)]
    exact ih h.2

/-- What `event_base` says of the cost. -/
theorem dictGet_cost_eventBase {cfg : ContextConfig F W C J} {toolName : Str}
    {tool : ResolvedTool F W C} {kwargs : PyDict F} {cost : ℚ} {checkpoint : Option Checkpoint}
    {eventBase : PyDict F}
    (h : cfg.eventBase toolName tool kwargs cost checkpoint = .ok eventBase) :
    dictGet (lit "cost_usd") eventBase = some (.float (cfg.costFloat cost)) := by
  obtain ⟨argumentsDigest, -, h⟩ := except_bind_eq_ok.mp h
  obtain rfl := Except.ok.inj h
  have hname : lit "tool_name" ≠ lit "cost_usd" := by decide
  have hversion : lit "tool_version" ≠ lit "cost_usd" := by decide
  have hrisk : lit "risk" ≠ lit "cost_usd" := by decide
  have happroval : lit "requires_approval" ≠ lit "cost_usd" := by decide
  simp only [dictGet, if_neg hname, if_neg hversion, if_neg hrisk, if_neg happroval, if_true]

/-- An event of a context shows no cost, or that of a tool. -/
theorem cost_of_contextPayload {eventType : Str} {payload : PyDict F}
    (h : (runner.newContext fresh).ContextPayload eventType payload) :
    dictGet (lit "cost_usd") payload = none ∨
      ∃ cost, dictGet (lit "cost_usd") payload = some (.float cost) := by
  cases h with
  | decision => exact .inl (dictGet_of_costless (ContextConfig.costless_accessContext _ _ _))
  | missingPrincipal => exact .inl (dictGet_of_costless (ContextConfig.costless_missingPrincipal _))
  | @granted spec cp approvedBy reason h =>
    rcases h with rfl | ⟨text, rfl⟩
    · rw [List.append_nil]
      exact .inl (dictGet_of_costless (ContextConfig.costless_grantedFields _ _ _))
    · exact .inl (dictGet_of_costless (ContextConfig.costless_grantedFields_reason _ _ _ _))
  | required => exact .inl (dictGet_of_costless (ContextConfig.costless_checkpointFields _))
  | tool hbase _ => exact .inr ⟨_, dictGet_append_of_some (dictGet_cost_eventBase hbase)⟩

/-- The runner itself shows no cost. -/
theorem cost_of_runnerPayload {eventType : Str} {payload : PyDict F}
    (h : RunnerPayload runner fresh eventType payload) :
    dictGet (lit "cost_usd") payload = none := by
  refine dictGet_of_costless ?_
  cases h with
  | started hshown =>
    rcases hshown with rfl | ⟨text, rfl⟩
    · simp only [ContextConfig.Costless, startedPayload, List.append_nil, List.map_cons,
        List.map_nil]
      decide
    · simp only [ContextConfig.Costless, startedPayload, List.cons_append, List.nil_append,
        List.map_cons, List.map_nil]
      decide
  | output hshown =>
    rcases hshown with rfl | ⟨text, rfl⟩
    · simp only [ContextConfig.Costless, outputPayload, List.append_nil, List.map_cons,
        List.map_nil]
      decide
    · simp only [ContextConfig.Costless, outputPayload, List.cons_append, List.nil_append,
        List.map_cons, List.map_nil]
      decide
  | decided =>
    simp only [ContextConfig.Costless, decidedPayload, List.map_cons, List.map_nil]
    decide
  | awaited =>
    simp only [ContextConfig.Costless, awaitedPayload, List.map_cons, List.map_nil]
    decide
  | failed =>
    simp only [ContextConfig.Costless, failedPayload, List.map_cons, List.map_nil]
    decide
  | completed =>
    simp only [ContextConfig.Costless, completedPayload, List.map_cons, List.map_nil]
    decide

theorem cost_of_runPayload {eventType : Str} {payload : PyDict F}
    (h : RunPayload runner fresh eventType payload) :
    dictGet (lit "cost_usd") payload = none ∨
      ∃ cost, dictGet (lit "cost_usd") payload = some (.float cost) :=
  h.elim cost_of_contextPayload fun h => .inl (cost_of_runnerPayload h)

/-- What the sink adds for an event: the cost that its entry shows, if the key
is not masked. -/
theorem published_cost (sink : OpenTelemetrySink F) {entry : LogEntry F}
    (hlogged : runner.Logged fresh entry)
    (hpayload : RunPayload runner fresh entry.eventType entry.payload) {event : CloudEvent F}
    (hevent : entry.published = some event) :
    (sink.emit event).cost =
      if runner.redactor.blocks (lit "cost_usd") then none else sink.shownCost entry.payload := by
  obtain ⟨safe, audit, drawn, hsafe, -, rfl⟩ := hlogged.published event hevent
  have haudit : lit "audit_event_id" ≠ lit "cost_usd" := by decide
  have hcost : (sink.emit (runner.cloudEvent fresh entry.eventType safe audit drawn)).cost =
      ((dictGet (lit "cost_usd") entry.payload).map
        (runner.redactor.shown (lit "cost_usd"))).filter sink.isAmount := by
    show (OpenTelemetrySink.dataGet (runtimeEvent _ _ _) _).filter _ = _
    rw [dataGet_runtimeEvent, dictGet_cost_runtimeData, dictGet_dictInsert_of_ne haudit,
      redactFields_eq_ok hsafe, dictGet_map_key]
  rw [hcost, OpenTelemetrySink.shownCost]
  rcases cost_of_runPayload hpayload with hnone | ⟨cost, hsome⟩
  · rw [hnone]
    cases runner.redactor.blocks (lit "cost_usd") with
    | true => rfl
    | false => rfl
  · rw [hsome, Option.map_some, Redactor.shown]
    cases runner.redactor.blocks (lit "cost_usd") with
    | true => rfl
    | false => rfl

end Published

/-! ### Charges and authorisations -/

/-- The costs that the authorisations show. -/
def authorisedCosts (emitted : List (Str × PyDict F)) : List (Option (PyVal F)) :=
  (emitted.filter fun p => p.1 = lit "tool_authorized").map fun p => dictGet (lit "cost_usd") p.2

theorem authorisedCosts_append (emitted more : List (Str × PyDict F)) :
    authorisedCosts (emitted ++ more) = authorisedCosts emitted ++ authorisedCosts more := by
  rw [authorisedCosts, List.filter_append, List.map_append]
  rfl

namespace ContextConfig

/-- The authorisations show the charges, which are nonnegative and were shown by
requests. -/
structure Paid (cfg : ContextConfig F W C J) (emitted : List (Str × PyDict F))
    (events : List (CallEvent F C)) : Prop where
  authorised : authorisedCosts emitted =
    (charges events).map fun cost => some (.float (cfg.costFloat cost))
  nonneg : ∀ cost ∈ charges events, 0 ≤ cost
  requested : ∀ cost ∈ charges events, ∃ payload, (lit "tool_requested", payload) ∈ emitted ∧
    dictGet (lit "cost_usd") payload = some (.float (cfg.costFloat cost))

variable {cfg : ContextConfig F W C J} {i : ℕ} {s t u : ContextState F W C J}
  {events more : List (CallEvent F C)} {emitted others : List (Str × PyDict F)}

theorem Paid.append (h : cfg.Paid emitted events) (h' : cfg.Paid others more) :
    cfg.Paid (emitted ++ others) (events ++ more) where
  authorised := by
    rw [authorisedCosts_append, h.authorised, h'.authorised, charges_append, List.map_append]
  nonneg cost hcost := by
    rw [charges_append] at hcost
    exact (List.mem_append.mp hcost).elim (h.nonneg cost) (h'.nonneg cost)
  requested cost hcost := by
    rw [charges_append] at hcost
    rcases List.mem_append.mp hcost with hcost | hcost
    · obtain ⟨payload, hmem, hshown⟩ := h.requested cost hcost
      exact ⟨payload, List.mem_append_left _ hmem, hshown⟩
    · obtain ⟨payload, hmem, hshown⟩ := h'.requested cost hcost
      exact ⟨payload, List.mem_append_right _ hmem, hshown⟩

/-- A charge, and the authorisation that follows it. -/
theorem Paid.charged (h : cfg.Paid emitted events) {cost : ℚ} {payload : PyDict F}
    (hnonneg : 0 ≤ cost)
    (hshown : dictGet (lit "cost_usd") payload = some (.float (cfg.costFloat cost)))
    (hrequested : (lit "tool_requested", payload) ∈ emitted) :
    cfg.Paid ((lit "tool_authorized", payload) :: emitted)
      (.emitted (lit "tool_authorized") payload :: .charged cost :: events) where
  authorised := by
    rw [authorisedCosts, List.filter_cons_of_pos (by simp), List.map_cons, hshown]
    exact congrArg _ h.authorised
  nonneg := List.forall_mem_cons.mpr ⟨hnonneg, h.nonneg⟩
  requested := by
    refine List.forall_mem_cons.mpr ⟨⟨payload, List.mem_cons_of_mem _ hrequested, hshown⟩,
      fun cost' hcost => ?_⟩
    obtain ⟨payload', hmem, hshown'⟩ := h.requested cost' hcost
    exact ⟨payload', List.mem_cons_of_mem _ hmem, hshown'⟩

/-- Events that neither charge nor authorise. -/
theorem paid_of_none (hcost : ∀ e ∈ events, e.cost? = none)
    (hnot : ∀ e ∈ events, ¬IsAuthorisation e) : cfg.Paid (emittedOf events) events where
  authorised := by
    have hemitted : (emittedOf events).filter (fun p => p.1 = lit "tool_authorized") = [] := by
      refine List.filter_eq_nil_iff.mpr fun p hp => ?_
      obtain ⟨e, he, hsome⟩ := List.mem_filterMap.mp hp
      have hother := hnot e he
      cases e with
      | emitted eventType payload =>
        obtain rfl := Option.some.inj hsome
        rw [decide_eq_true_iff]
        exact hother
      | _ => cases hsome
    rw [authorisedCosts, hemitted, charges_eq_nil hcost]
    rfl
  nonneg cost hmem := by
    rw [charges_eq_nil hcost] at hmem
    cases hmem
  requested cost hmem := by
    rw [charges_eq_nil hcost] at hmem
    cases hmem

theorem paid_nil : cfg.Paid [] ([] : List (CallEvent F C)) :=
  paid_of_none (List.forall_mem_nil _) (List.forall_mem_nil _)

/-- The step notes events that are paid, and moves the cost by their charges and
by what it adds. -/
def Pays (cfg : ContextConfig F W C J) (i : ℕ) (s t : ContextState F W C J) : Prop :=
  ∃ events added, t.trace = events.map (i, ·) ++ s.trace ∧ cfg.Paid (emittedOf events) events ∧
    t.addedCosts = added ++ s.addedCosts ∧ (∀ q ∈ added, 0 ≤ q) ∧
    t.costUsd = s.costUsd + (charges events).sum + added.sum

theorem pays_of_notes (h : cfg.Notes i events s t) (hpaid : cfg.Paid (emittedOf events) events) :
    cfg.Pays i s t :=
  ⟨events, [], h.trace, hpaid, h.addedCosts, List.forall_mem_nil _,
    by rw [h.costUsd, List.sum_nil, add_zero]⟩

theorem pays_refl (s : ContextState F W C J) : cfg.Pays i s s :=
  pays_of_notes (.refl s) paid_nil

theorem pays_of_settling (h : Settling s t) : cfg.Pays i s t := by
  obtain ⟨breakers, stores, outside, rfl⟩ := h
  have hnotes : cfg.Notes i [] s { s with breakers, stores, outside } :=
    notes_of_same rfl rfl rfl rfl rfl rfl
  exact pays_of_notes hnotes paid_nil

/-- What `add_cost` adds is all that it moves the cost by. -/
theorem pays_addCost (amount : CostAmount) (s : ContextState F W C J) :
    cfg.Pays i s (cfg.addCost amount s).2 := by
  rw [addCost]
  rcases hamount : validateCostAmount amount with e | q
  · exact pays_refl s
  · rw [PyM.bind_of_ok (PyM.ofExcept_apply _ s), PyM.get_bind]
    rcases cfg.checkLimits s.steps s.toolCalls (s.costUsd + q) with e | ⟨⟨⟩⟩
    · exact pays_refl s
    · have hnonneg := validateCostAmount_nonneg hamount
      exact ⟨[], [q], rfl, paid_nil, rfl, List.forall_mem_singleton.mpr hnonneg,
        show s.costUsd + q = _ by simp⟩

theorem pays_bumpStep (s : ContextState F W C J) : cfg.Pays i s (cfg.bumpStep s).2 := by
  rw [bumpStep, PyM.get_bind]
  rcases cfg.checkLimits (s.steps + 1) s.toolCalls s.costUsd with e | ⟨⟨⟩⟩
  · exact pays_refl s
  · exact ⟨[], [], rfl, paid_nil, rfl, List.forall_mem_nil _, show s.costUsd = _ by simp⟩

theorem pays_bumpToolCall (s : ContextState F W C J) : cfg.Pays i s (cfg.bumpToolCall s).2 := by
  rw [bumpToolCall, PyM.get_bind]
  rcases cfg.checkLimits s.steps (s.toolCalls + 1) s.costUsd with e | ⟨⟨⟩⟩
  · exact pays_refl s
  · exact ⟨[], [], rfl, paid_nil, rfl, List.forall_mem_nil _, show s.costUsd = _ by simp⟩

section Calls

variable [PyFloat F] [DecidableEq C] {call : ToolCall F C} {asyncMode : Bool}

/-- An authorised call was requested, and charged what its request shows. -/
theorem paid_authorised (hemitter : cfg.auditEmitter.isSome = true)
    {before approval : List (CallEvent F C)} {prepared : PreparedCall F W C}
    {checkpoint : Option Checkpoint}
    (h : cfg.Authorised call asyncMode before approval prepared checkpoint) :
    cfg.Paid (emittedOf (cfg.told (lit "tool_authorized") prepared.eventBase ++
        cfg.upToCharge call before approval prepared))
      (cfg.told (lit "tool_authorized") prepared.eventBase ++
        cfg.upToCharge call before approval prepared) := by
  have htold : ∀ eventType, (cfg.told eventType prepared.eventBase : List (CallEvent F C)) =
      [.emitted eventType prepared.eventBase] := fun eventType => if_pos hemitter
  have hrest : cfg.Paid (emittedOf (approval ++ cfg.told (lit "tool_requested")
        prepared.eventBase ++ before ++ [.called call]))
      (approval ++ cfg.told (lit "tool_requested") prepared.eventBase ++ before ++
        [.called call]) := by
    refine paid_of_none ?_ (not_isAuthorisation_of_unapproved h.before h.ofApproval)
    refine forall_append (forall_append (forall_append ?_ (forall_told rfl)) ?_) ?_
    · exact fun e he => cost?_of_ofApproval (h.ofApproval e he)
    · exact fun e he => cost?_of_beforeRequest (h.before e he)
    · exact List.forall_mem_singleton.mpr rfl
  have hrequested : (lit "tool_requested", prepared.eventBase) ∈ emittedOf (approval ++
      cfg.told (lit "tool_requested") prepared.eventBase ++ before ++ [.called call]) := by
    refine List.mem_filterMap.mpr ⟨.emitted (lit "tool_requested") prepared.eventBase, ?_, rfl⟩
    rw [htold]
    simp
  rw [htold]
  exact hrest.charged h.nonneg (dictGet_cost_eventBase h.eventBase) hrequested

theorem paid_of_preparation (hemitter : cfg.auditEmitter.isSome = true)
    {r : Except PyExc (PreparedCall F W C)} (h : cfg.Preparation call asyncMode r events) :
    cfg.Paid (emittedOf events) events := by
  have hcalled : ∀ e ∈ [CallEvent.called (F := F) call], e.cost? = none ∧ ¬IsAuthorisation e :=
    List.forall_mem_singleton.mpr ⟨rfl, id⟩
  have hstarted : ∀ {prepared : PreparedCall F W C} {rest : List (CallEvent F C)},
      cfg.Paid (emittedOf rest) rest → cfg.Paid
        (emittedOf (cfg.told (lit "tool_started") prepared.eventBase ++ rest))
        (cfg.told (lit "tool_started") prepared.eventBase ++ rest) := by
    intro prepared rest hrest
    have htold : cfg.Paid (emittedOf (cfg.told (lit "tool_started") prepared.eventBase))
        (cfg.told (lit "tool_started") prepared.eventBase) :=
      paid_of_none (forall_told rfl) (forall_told (show lit _ ≠ lit _ by decide))
    rw [emittedOf_append]
    exact htold.append hrest
  cases h with
  | refused hbefore =>
    refine paid_of_none (forall_append (fun e he => cost?_of_beforeRequest (hbefore e he))
      fun e he => (hcalled e he).1) (forall_append (fun e he =>
        not_isAuthorisation_of_beforeRequest (hbefore e he)) fun e he => (hcalled e he).2)
  | unapproved hrequested hbefore happroval =>
    refine paid_of_none ?_ (not_isAuthorisation_of_unapproved hbefore happroval)
    refine forall_append (forall_append (forall_append ?_ (forall_told rfl)) ?_)
      fun e he => (hcalled e he).1
    · exact fun e he => cost?_of_ofApproval (happroval e he)
    · exact fun e he => cost?_of_beforeRequest (hbefore e he)
  | unheard h => exact paid_authorised hemitter h
  | unstarted h =>
    rw [List.append_assoc]
    exact hstarted (paid_authorised hemitter h)
  | prepared h =>
    rw [List.append_assoc]
    exact hstarted (paid_authorised hemitter h)

omit [PyFloat F] [DecidableEq C] in
theorem pays_emitEnd {eventType : Str} (hother : eventType ≠ lit "tool_authorized")
    (prepared : PreparedCall F W C) (started : ℚ) (detail : Str × PyVal F)
    (s : ContextState F W C J) :
    cfg.Pays i s (cfg.emitEnd i prepared started eventType detail s).2 := by
  have hlogs : cfg.Logs i (fun _ events => ∀ e ∈ events, e.cost? = none ∧ ¬IsAuthorisation e)
      (cfg.emitEnd i prepared started eventType detail) :=
    logs_onWorld_bind (fun _ => logs_emit fun _ => forall_told ⟨rfl, hother⟩) fun _ => nofun
  obtain ⟨events, hnotes, hevents⟩ := hlogs s
  exact pays_of_notes hnotes
    (paid_of_none (fun e he => (hevents e he).1) fun e he => (hevents e he).2)

theorem follows_toolCall_pays (hemitter : cfg.auditEmitter.isSome = true) (asyncMode : Bool)
    (s : ContextState F W C J) :
    Proc.Follows (fun _ _ => True) (cfg.Pays i) (cfg.toolCall i asyncMode call) s := by
  refine follows_layers (fun _ => trivial) (fun _ _ => pays_of_settling) (fun s => ?_)
    (fun s prepared hok t => ?_) (fun s prepared hok started name t => ⟨?_, ?_⟩) s
  · obtain ⟨events, hnotes, hprep⟩ := logs_prepareCall cfg i call asyncMode s
    exact pays_of_notes hnotes (paid_of_preparation hemitter hprep)
  · exact pays_of_notes (notes_of_same rfl rfl rfl rfl rfl rfl)
      (paid_of_none (List.forall_mem_singleton.mpr rfl) (List.forall_mem_singleton.mpr id))
  · exact pays_emitEnd (by decide) prepared started _ t
  · exact pays_emitEnd (by decide) prepared started _ t

/-- Every step of an operation notes events that are paid. -/
theorem follows_perform_pays (hemitter : cfg.auditEmitter.isSome = true) (op : ContextOp F C)
    (s : ContextState F W C J) :
    Proc.Follows (fun _ _ => True) (cfg.Pays i) (cfg.perform i op) s := by
  have hcounted : ∀ x : PyM (ContextState F W C J) Unit, (∀ t, cfg.Pays i t (x t).2) →
      Proc.Follows (fun _ _ => True) (cfg.Pays i)
        (do Proc.atomic x; return (none : Option (ToolResult F))) s :=
    fun x hx => Proc.follows_bind (fun _ => trivial) (Proc.follows_atomic fun t _ => hx t)
      fun _ _ => Proc.follows_pure
  cases op with
  | bumpStep => exact hcounted _ pays_bumpStep
  | bumpToolCall => exact hcounted _ pays_bumpToolCall
  | addCost amount => exact hcounted _ (pays_addCost amount)
  | callTool call =>
    exact Proc.follows_bind (fun _ => trivial) (follows_toolCall_pays hemitter false s)
      fun _ _ => Proc.follows_pure
  | acallTool call =>
    exact Proc.follows_bind (fun _ => trivial) (follows_toolCall_pays hemitter true s)
      fun _ _ => Proc.follows_pure

end Calls

end ContextConfig

/-! ### The entries of a run -/

section Balance

variable [PyFloat F] {runner : SentinelRunner F W C} {fresh : FreshRun} {i : ℕ}
  {s t : ContextState F W C (RunnerJournal F)}

/-- What the entries tell the emitter. -/
def toldBy (entries : List (LogEntry F)) : List (Str × PyDict F) :=
  entries.map fun entry => (entry.eventType, entry.payload)

/-- The authorisations among the entries show the charges, and the cost is what
was charged and added. -/
structure Balanced (runner : SentinelRunner F W C) (fresh : FreshRun)
    (s : ContextState F W C (RunnerJournal F)) : Prop where
  paid : (runner.newContext fresh).Paid (toldBy s.journal.entries) (s.trace.map Prod.snd)
  costUsd : s.costUsd = (charges (s.trace.map Prod.snd)).sum + s.addedCosts.sum
  nonneg : ∀ q ∈ s.addedCosts, 0 ≤ q

theorem Balanced.step (hs : Balanced runner fresh s) (htells : Tells runner fresh i s t)
    (hpays : (runner.newContext fresh).Pays i s t) : Balanced runner fresh t := by
  obtain ⟨events, new, given, htrace, hextends, hnew⟩ := htells
  obtain ⟨events', added, htrace', hpaid, hadded, hnonneg, hcost⟩ := hpays
  have hsame : events' = events := by
    have hmaps := List.append_cancel_right (htrace'.symm.trans htrace)
    exact (Prod.mk_right_injective i).list_map hmaps
  rw [hsame] at hpaid hcost
  have hevents : t.trace.map Prod.snd = events ++ s.trace.map Prod.snd := by
    rw [htrace, List.map_append, List.map_map]
    exact congrArg (· ++ _) (List.map_id events)
  have hentries : toldBy t.journal.entries = emittedOf events ++ toldBy s.journal.entries := by
    rw [toldBy, hextends.entries, List.map_append, hnew]
    rfl
  refine ⟨?_, ?_, fun q hq => ?_⟩
  · rw [hevents, hentries]
    exact hpaid.append hs.paid
  · rw [hevents, hcost, hs.costUsd, hadded, charges_append, List.sum_append, List.sum_append]
    ring
  · rw [hadded] at hq
    exact (List.mem_append.mp hq).elim (hnonneg q) (hs.nonneg q)

/-- What the runner itself logs authorises nothing. -/
theorem Balanced.writes {new : List (LogEntry F)} (hs : Balanced runner fresh s)
    (h : Writes runner fresh s t new) : Balanced runner fresh t := by
  obtain ⟨given, hextends⟩ := h.extends_
  have hnone : authorisedCosts (toldBy new) = [] := by
    have hnew : (toldBy new).filter (fun p => p.1 = lit "tool_authorized") = [] := by
      refine List.filter_eq_nil_iff.mpr fun p hp => ?_
      obtain ⟨entry, hentry, rfl⟩ := List.mem_map.mp hp
      rw [decide_eq_true_iff]
      show ¬entry.eventType = _
      have hother : lit "tool_authorized" ∉ [lit "run_started", lit "agent_output",
        lit "decision_made", lit "run_failed", lit "run_completed"] := by decide
      exact fun htype => hother (htype ▸ (hextends.logged entry hentry).2.name_mem)
    rw [authorisedCosts, hnew]
    rfl
  have hentries : toldBy t.journal.entries = toldBy new ++ toldBy s.journal.entries := by
    rw [toldBy, hextends.entries, List.map_append]
    rfl
  refine ⟨⟨?_, ?_, fun cost hcost => ?_⟩, ?_, ?_⟩
  · rw [h.trace, hentries, authorisedCosts_append, hnone, List.nil_append]
    exact hs.paid.authorised
  · rw [h.trace]
    exact hs.paid.nonneg
  · rw [h.trace] at hcost
    obtain ⟨payload, hmem, hshown⟩ := hs.paid.requested cost hcost
    exact ⟨payload, hentries ▸ List.mem_append_right _ hmem, hshown⟩
  · rw [h.costUsd, h.trace, h.addedCosts]
    exact hs.costUsd
  · rw [h.addedCosts]
    exact hs.nonneg

variable [DecidableEq C]

theorem Balanced.later {pool pool' : RunPool F W C} (hprocs : pool.procs = fun _ => none)
    (hs : Balanced runner fresh pool.state) (h : Later runner fresh pool pool') :
    Balanced runner fresh pool'.state := by
  have hfollow : pool.Follow fun i s t =>
      Tells runner fresh i s t ∧ (runner.newContext fresh).Pays i s t := by
    intro i p s hp
    rw [hprocs] at hp
    cases hp
  refine (hfollow.later (K := fun s t => Balanced runner fresh s → Balanced runner fresh t)
    ?_ (fun _ => id) (fun _ _ _ hst htu h => htu (hst h)) (fun _ _ _ hstep h =>
      h.step hstep.1 hstep.2) ?_ h).2 hs
  · rintro i _ s ⟨op, rfl⟩
    exact (follows_perform_tells op s).and (ContextConfig.follows_perform_pays rfl op s)
  · rintro s t ⟨helsewhere, hjournal⟩ h
    refine ⟨?_, ?_, ?_⟩
    · rw [hjournal, helsewhere.trace]
      exact h.paid
    · rw [helsewhere.costUsd, helsewhere.trace, helsewhere.addedCosts]
      exact h.costUsd
    · rw [helsewhere.addedCosts]
      exact h.nonneg

/-- When a run has ended, its authorisations show its charges. -/
theorem balanced_run {input : PyVal F} {call : Proc (RunPool F W C) PyExc (SentinelResult F)}
    {breakers : ℕ → BreakerMemory} {stores : ℕ → IdempotencyStore F} {outside : W}
    (h : StartsRun runner fresh input call) :
    Balanced runner fresh (call.run (newPool breakers stores outside)).2.state := by
  have hnew : Balanced runner fresh (newPool breakers stores outside : RunPool F W C).state :=
    ⟨⟨rfl, nofun, nofun⟩, (add_zero 0).symm, nofun⟩
  cases h.parts breakers stores outside with
  | stopped _ _ hfirst _ => exact hnew.writes hfirst
  | ran hprocs _ hfirst hlater _ hclosing _ =>
    exact ((hnew.writes hfirst).later hprocs hlater).writes hclosing

end Balance

/-! ### What is added for a run -/

/-- The entry tells of an authorised call. -/
def LogEntry.authorised (entry : LogEntry F) : Bool :=
  decide (entry.eventType = lit "tool_authorized")

/-- The cost of an entry that is added. -/
def OpenTelemetrySink.entryCost (sink : OpenTelemetrySink F) (entry : LogEntry F) :
    Option (PyVal F) := sink.shownCost entry.payload

/-- The costs that the other entries show. -/
def otherCosts (sink : OpenTelemetrySink F) (entries : List (LogEntry F)) : List (PyVal F) :=
  (entries.filter fun entry => !entry.authorised).filterMap sink.entryCost

/-- Nothing that the entries show costs anything. -/
def Free (sink : OpenTelemetrySink F) (entries : List (LogEntry F)) : Prop :=
  ∀ entry ∈ entries, ∀ cost, sink.entryCost entry = some cost → sink.number cost = some 0

section Added

variable [PyFloat F] {runner : SentinelRunner F W C} {fresh : FreshRun} {sink : OpenTelemetrySink F}

/-- The float of a cost is that cost. -/
def ExactCost (runner : SentinelRunner F W C) (sink : OpenTelemetrySink F) (cost : ℚ) : Prop :=
  ∃ x, runner.costFloat cost = .finite x ∧ sink.value x = cost

omit [PyFloat F] in
theorem authorisedCosts_toldBy (entries : List (LogEntry F)) :
    authorisedCosts (toldBy entries) =
      (entries.filter LogEntry.authorised).map fun entry =>
        dictGet (lit "cost_usd") entry.payload := by
  rw [authorisedCosts, toldBy, List.filter_map, List.map_map]
  rfl

/-- The exact cost that an entry shows is added. -/
theorem entryCost_of_exact {entry : LogEntry F} {cost : ℚ}
    (hshown : dictGet (lit "cost_usd") entry.payload = some (.float (runner.costFloat cost)))
    (hexact : ExactCost runner sink cost) (hnonneg : 0 ≤ cost) :
    ∃ added, sink.entryCost entry = some added ∧ sink.number added = some cost := by
  obtain ⟨x, hfloat, hvalue⟩ := hexact
  have hamount : sink.isAmount (.float (.finite x)) = true :=
    decide_eq_true (hvalue.symm ▸ hnonneg)
  refine ⟨.float (.finite x), ?_, congrArg some hvalue⟩
  rw [OpenTelemetrySink.entryCost, OpenTelemetrySink.shownCost, hshown, hfloat,
    Option.filter_some, if_pos hamount]

/-- Entries that show exact costs. -/
theorem total_of_exact {entries : List (LogEntry F)} {costs : List ℚ}
    (hshown : (entries.map fun entry => dictGet (lit "cost_usd") entry.payload) =
      costs.map fun cost => some (.float (runner.costFloat cost)))
    (hexact : ∀ cost ∈ costs, ExactCost runner sink cost) (hnonneg : ∀ cost ∈ costs, 0 ≤ cost) :
    sink.total (entries.filterMap sink.entryCost) = some costs.sum := by
  induction costs generalizing entries with
  | nil =>
    obtain rfl := List.map_eq_nil_iff.mp hshown
    rfl
  | cons cost costs ih =>
    obtain ⟨entry, rest, rfl, hentry, hrest⟩ := List.map_eq_cons_iff.mp hshown
    obtain ⟨hcost, hexact⟩ := List.forall_mem_cons.mp hexact
    obtain ⟨hcost', hnonneg⟩ := List.forall_mem_cons.mp hnonneg
    obtain ⟨added, hadded, hnumber⟩ := entryCost_of_exact hentry hcost hcost'
    rw [List.filterMap_cons_some hadded, List.sum_cons]
    exact OpenTelemetrySink.total_cons_eq_some.mpr
      ⟨cost, costs.sum, hnumber, ih hrest hexact hnonneg, rfl⟩

omit [PyFloat F] in
theorem isAmount_otherCosts {entries : List (LogEntry F)} :
    ∀ cost ∈ otherCosts sink entries, sink.isAmount cost = true := by
  intro cost hmem
  obtain ⟨entry, -, hadded⟩ := List.mem_filterMap.mp hmem
  exact (Option.filter_eq_some_iff.mp hadded).2

/-- Where all that is requested is free, so is all that is authorised. -/
theorem free_of_others {s : ContextState F W C (RunnerJournal F)} (hs : Balanced runner fresh s)
    (hexact : ∀ cost ∈ charges (s.trace.map Prod.snd), ExactCost runner sink cost)
    (hfree : ∀ cost ∈ otherCosts sink s.journal.entries, sink.number cost = some 0) :
    Free sink s.journal.entries := by
  have hcharges : ∀ cost ∈ charges (s.trace.map Prod.snd), cost = 0 := by
    intro cost hcost
    obtain ⟨payload, hmem, hshown⟩ := hs.paid.requested cost hcost
    obtain ⟨entry, hentry, hpair⟩ := List.mem_map.mp hmem
    obtain ⟨htype, rfl⟩ := Prod.mk.inj hpair
    obtain ⟨added, hadded, hnumber⟩ :=
      entryCost_of_exact hshown (hexact cost hcost) (hs.paid.nonneg cost hcost)
    have hother : (!entry.authorised) = true := by
      rw [LogEntry.authorised, htype]
      decide
    have hzero := hfree added
      (List.mem_filterMap.mpr ⟨entry, List.mem_filter.mpr ⟨hentry, hother⟩, hadded⟩)
    exact Option.some.inj (hnumber.symm.trans hzero)
  intro entry hentry cost hcost
  cases hauthorised : entry.authorised with
  | false =>
    have hother : (!entry.authorised) = true := by rw [hauthorised]; rfl
    exact hfree cost
      (List.mem_filterMap.mpr ⟨entry, List.mem_filter.mpr ⟨hentry, hother⟩, hcost⟩)
  | true =>
    have hmem : dictGet (lit "cost_usd") entry.payload ∈
        authorisedCosts (toldBy s.journal.entries) := by
      rw [authorisedCosts_toldBy]
      exact List.mem_map_of_mem (List.mem_filter.mpr ⟨hentry, hauthorised⟩)
    rw [hs.paid.authorised] at hmem
    obtain ⟨charge, hcharge, hshown⟩ := List.mem_map.mp hmem
    obtain ⟨added, hadded, hnumber⟩ :=
      entryCost_of_exact hshown.symm (hexact charge hcharge) (hs.paid.nonneg charge hcharge)
    obtain rfl := Option.some.inj (hcost.symm.trans hadded)
    rw [hnumber, hcharges charge hcharge]

variable [DecidableEq C] {input : PyVal F} {call : Proc (RunPool F W C) PyExc (SentinelResult F)}
  {breakers : ℕ → BreakerMemory} {stores : ℕ → IdempotencyStore F} {outside : W}
  {ended : RunPool F W C} {r : Except PyExc (SentinelResult F)}

theorem total_authorised (h : StartsRun runner fresh input call)
    (hrun : call.run (newPool breakers stores outside) = (r, ended))
    (hexact : ∀ cost ∈ charges (ended.state.trace.map Prod.snd), ExactCost runner sink cost) :
    Balanced runner fresh ended.state ∧
    sink.total ((ended.state.journal.entries.filter LogEntry.authorised).filterMap
        sink.entryCost) =
      some (charges (ended.state.trace.map Prod.snd)).sum := by
  have hbalanced : Balanced runner fresh (call.run (newPool breakers stores outside)).2.state :=
    balanced_run h
  rw [hrun] at hbalanced
  refine ⟨hbalanced, total_of_exact ?_ hexact hbalanced.paid.nonneg⟩
  rw [← authorisedCosts_toldBy]
  exact hbalanced.paid.authorised

/-- The sink `k` adds what a run costs, if nothing that it is shown costs anything
and `add_cost` adds nothing. If each call of `_log` succeeds and the key is not
masked, it does so exactly if the costs that are shown beside the authorisations
sum to what `add_cost` added; where that is nothing, exactly if all are free. -/
theorem cost_telemetry (h : StartsRun runner fresh input call)
    (hrun : call.run (newPool breakers stores outside) = (r, ended)) {k : ℕ}
    (hk : k < runner.eventSinks.length)
    (hexact : ∀ cost ∈ charges (ended.state.trace.map Prod.snd), ExactCost runner sink cost) :
    (Free sink ended.state.journal.entries → (∀ q ∈ ended.state.addedCosts, q = 0) →
        sink.total (sink.costsOf (givenTo k ended.state.journal.delivered)) =
          some ended.state.costUsd) ∧
      ((∀ entry ∈ ended.state.journal.entries, entry.result = .ok ()) →
        runner.redactor.blocks (lit "cost_usd") = false →
        (sink.total (sink.costsOf (givenTo k ended.state.journal.delivered)) =
            some ended.state.costUsd ↔
          sink.total (otherCosts sink ended.state.journal.entries) =
            some ended.state.addedCosts.sum) ∧
        ((∀ q ∈ ended.state.addedCosts, q = 0) →
          (sink.total (sink.costsOf (givenTo k ended.state.journal.delivered)) =
              some ended.state.costUsd ↔
            Free sink ended.state.journal.entries))) := by
  obtain ⟨hbalanced, hauthorised⟩ := total_authorised h hrun hexact
  obtain ⟨-, new, given, hextends, -⟩ := h.extends breakers stores outside
  rw [hrun] at hextends
  have hentries : ended.state.journal.entries = new := by rw [hextends.entries, List.append_nil]
  have hdelivered : ended.state.journal.delivered = given := by
    rw [hextends.delivered, List.append_nil]
  have hfreed := free_of_others hbalanced hexact
  have hcosts := hbalanced.costUsd
  rw [hentries] at hauthorised hfreed ⊢
  rw [hdelivered]
  have hcost : ∀ entry ∈ new, ∀ event, entry.published = some event → (sink.emit event).cost =
      if runner.redactor.blocks (lit "cost_usd") then none else sink.entryCost entry := by
    intro entry hentry event hevent
    obtain ⟨hlogged, hpayload⟩ := hextends.logged entry hentry
    exact published_cost sink hlogged hpayload hevent
  have henough : Free sink new → (∀ q ∈ ended.state.addedCosts, q = 0) →
      sink.total (sink.costsOf (givenTo k given)) = some ended.state.costUsd := by
    intro hfree hadded
    have hnothing : sink.total (sink.costsOf (givenTo k given)) = some 0 := by
      refine OpenTelemetrySink.total_of_zero fun cost hmem => ?_
      obtain ⟨event, hevent, hsome⟩ := List.mem_filterMap.mp hmem
      obtain ⟨entry, hentry, hpublished⟩ :=
        List.mem_filterMap.mp ((hextends.once k).subset hevent)
      rw [hcost entry hentry event hpublished] at hsome
      split at hsome
      · cases hsome
      · exact hfree entry hentry cost hsome
    have hcharged : (charges (ended.state.trace.map Prod.snd)).sum = 0 := by
      refine (Option.some.inj ((OpenTelemetrySink.total_of_zero fun cost hmem => ?_).symm.trans
        hauthorised)).symm
      obtain ⟨entry, hentry, hsome⟩ := List.mem_filterMap.mp hmem
      exact hfree entry (List.mem_filter.mp hentry).1 cost hsome
    rw [hnothing, hcosts, hcharged, List.sum_eq_zero hadded, add_zero]
  refine ⟨henough, fun hok hblocks => ?_⟩
  have hsinks : runner.eventSinks ≠ [] := List.ne_nil_of_length_pos (Nat.zero_lt_of_lt hk)
  have hall : sink.costsOf (givenTo k given) = new.filterMap sink.entryCost := by
    rw [hextends.all hok k hk, OpenTelemetrySink.costsOf, List.filterMap_filterMap]
    refine List.filterMap_congr fun entry hentry => ?_
    have hlogged := (hextends.logged entry hentry).1
    obtain ⟨event, hevent⟩ := Option.isSome_iff_exists.mp
      (hlogged.heard (hlogged.recorded_of_ok (hok entry hentry)) hsinks)
    rw [hevent, Option.bind_some, hcost entry hentry event hevent, hblocks]
    rfl
  have hiff : sink.total (sink.costsOf (givenTo k given)) = some ended.state.costUsd ↔
      sink.total (otherCosts sink new) = some ended.state.addedCosts.sum := by
    rw [hall, OpenTelemetrySink.total_eq_some_iff_of_part hauthorised, hcosts, add_sub_cancel_left]
    rfl
  refine ⟨hiff, fun hadded => ⟨fun heq => ?_, fun hfree => henough hfree hadded⟩⟩
  -- costs that are nonnegative and sum to nothing are nothing
  rw [hiff, List.sum_eq_zero hadded] at heq
  exact hfreed (OpenTelemetrySink.total_eq_zero isAmount_otherCosts heq)

end Added

/-! ### Runs of agents that call a tool -/

/-- One step of the operation `i`, where one is left. -/
def takeStep (i : ℕ) (pool : RunPool Half Unit Bool) : RunPool Half Unit Bool :=
  match pool.procs i with
  | some (.step act next) =>
    ⟨act pool.state, Function.update pool.procs i (some (next pool.state))⟩
  | _ => pool

/-- The operation `i` begins, if there is none yet. -/
def launch (i : ℕ) (p : Proc (ContextState Half Unit Bool (RunnerJournal Half)) PyExc
    (Option (ToolResult Half))) (pool : RunPool Half Unit Bool) : RunPool Half Unit Bool :=
  match pool.procs i with
  | none => ⟨pool.state, Function.update pool.procs i (some p)⟩
  | some _ => pool

/-- A function that takes the steps and returns nothing. -/
def takeSteps (acts : List (RunPool Half Unit Bool → RunPool Half Unit Bool)) :
    Proc (RunPool Half Unit Bool) PyExc (AgentCall Half Unit Bool) :=
  match acts with
  | [] => .done (.ok (.value ⟨.none, lit "NoneType", none⟩))
  | act :: acts => .step act fun _ => takeSteps acts

theorem later_takeStep (runner : SentinelRunner Half Unit Bool) (i : ℕ)
    (pool : RunPool Half Unit Bool) : Later runner firstRun pool (takeStep i pool) := by
  unfold takeStep
  split
  · rename_i hproc
    exact .single (.step hproc)
  · exact .refl

theorem later_launch (runner : SentinelRunner Half Unit Bool) (i : ℕ) (op : ContextOp Half Bool)
    (pool : RunPool Half Unit Bool) :
    Later runner firstRun pool (launch i ((runner.newContext firstRun).perform i op) pool) := by
  unfold launch
  split
  · rename_i hfree
    exact .single (.start hfree ⟨_, rfl⟩)
  · exact .refl

theorem performs_takeSteps {runner : SentinelRunner Half Unit Bool}
    {acts : List (RunPool Half Unit Bool → RunPool Half Unit Bool)}
    (h : ∀ act ∈ acts, ∀ pool, Later runner firstRun pool (act pool)) :
    (AgentFn.plain (takeSteps acts)).Performs runner firstRun := by
  intro pool
  induction acts generalizing pool with
  | nil =>
    refine Proc.safe_pure fun _ _ _ body hbody => ?_
    cases hbody
  | cons act acts ih =>
    obtain ⟨hact, hacts⟩ := List.forall_mem_cons.mp h
    exact fun t _ _ => ⟨trivial, hact t, ih hacts _⟩

/-- The run of a function that takes the steps. -/
def stepsRun (runner : SentinelRunner Half Unit Bool)
    (acts : List (RunPool Half Unit Bool → RunPool Half Unit Bool)) :
    Except PyExc (SentinelResult Half) × RunPool Half Unit Bool :=
  (runner.run firstRun .none (lit "NoneType") none (.plain (takeSteps acts))).run
    (newPool newContextState.breakers newContextState.stores ())

theorem run_takeSteps (runner : SentinelRunner Half Unit Bool)
    (acts : List (RunPool Half Unit Bool → RunPool Half Unit Bool)) :
    (runner.run firstRun .none (lit "NoneType") none (.plain (takeSteps acts))).run
        (newPool newContextState.breakers newContextState.stores ()) =
      ((stepsRun runner acts).1, (stepsRun runner acts).2) := rfl

/-- It begins a call of `pay` and takes its first step. -/
def payingSteps (runner : SentinelRunner Half Unit Bool) :
    List (RunPool Half Unit Bool → RunPool Half Unit Bool) :=
  [launch 0 ((runner.newContext firstRun).perform 0 (.callTool payCall)), takeStep 0]

/-- It calls `pay`, and adds 3. -/
def spendingSteps (runner : SentinelRunner Half Unit Bool) :
    List (RunPool Half Unit Bool → RunPool Half Unit Bool) :=
  payingSteps runner ++ List.replicate 8 (takeStep 0) ++
    [launch 1 ((runner.newContext firstRun).perform 1 (.addCost (.number 3))), takeStep 1]

/-- A runner whose tools are approved. -/
def approvingRunner : SentinelRunner Half Unit Bool :=
  { heardRunner with approvalCallback := some ⟨false, fun _ _ _ _ => pure .approved⟩ }

/-- The number that the cost of `pay` is. -/
def unitTelemetry : OpenTelemetrySink Half := ⟨fun _ => 1⟩

theorem startsRun_steps {runner : SentinelRunner Half Unit Bool}
    {acts : List (RunPool Half Unit Bool → RunPool Half Unit Bool)}
    (h : ∀ act ∈ acts, ∀ pool, Later runner firstRun pool (act pool)) :
    StartsRun runner firstRun .none
      (runner.run firstRun .none (lit "NoneType") none (.plain (takeSteps acts))) :=
  .run (performs_takeSteps h)

theorem later_payingSteps (runner : SentinelRunner Half Unit Bool) :
    ∀ act ∈ payingSteps runner, ∀ pool, Later runner firstRun pool (act pool) := by
  simp only [payingSteps, List.forall_mem_cons]
  exact ⟨later_launch runner 0 _, later_takeStep runner 0, List.forall_mem_nil _⟩

theorem later_spendingSteps (runner : SentinelRunner Half Unit Bool) :
    ∀ act ∈ spendingSteps runner, ∀ pool, Later runner firstRun pool (act pool) := by
  intro act hact
  simp only [spendingSteps, List.mem_append, List.mem_replicate, List.mem_cons] at hact
  rcases hact with (hact | ⟨-, rfl⟩) | rfl | rfl | hact
  · exact later_payingSteps runner act hact
  · exact later_takeStep runner 0
  · exact later_launch runner 1 _
  · exact later_takeStep runner 1
  · cases hact

/-- A call that awaits approval is not charged, but its request adds its cost. -/
theorem refused_cost_added :
    StartsRun heardRunner firstRun .none
        (heardRunner.run firstRun .none (lit "NoneType") none
          (.plain (takeSteps (payingSteps heardRunner)))) ∧
      (stepsRun heardRunner (payingSteps heardRunner)).1.isOk = true ∧
      (stepsRun heardRunner (payingSteps heardRunner)).2.state.costUsd = 0 ∧
      unitTelemetry.total (unitTelemetry.costsOf
        (givenTo 0 (stepsRun heardRunner (payingSteps heardRunner)).2.state.journal.delivered)) =
          some 1 := by
  refine ⟨startsRun_steps (later_payingSteps heardRunner), ?_⟩
  decide +kernel

/-- The run of a function that calls `pay` and adds what is counted too often. -/
def spendingRun : Except PyExc (SentinelResult Half) × RunPool Half Unit Bool :=
  stepsRun approvingRunner (spendingSteps approvingRunner)

theorem charges_spendingRun : charges (spendingRun.2.state.trace.map Prod.snd) = [1] := by
  decide +kernel

theorem logged_spendingRun : ∀ entry ∈ spendingRun.2.state.journal.entries,
    entry.result.isOk = true := by decide +kernel

theorem others_spendingRun : unitTelemetry.total (otherCosts unitTelemetry
    spendingRun.2.state.journal.entries) = some spendingRun.2.state.addedCosts.sum := by
  decide +kernel

/-- The call costs 1 and is counted four times, and 3 are added by hand. -/
theorem cost_telemetry_spendingRun : spendingRun.2.state.costUsd = 4 ∧
    unitTelemetry.total (unitTelemetry.costsOf
      (givenTo 0 spendingRun.2.state.journal.delivered)) = some spendingRun.2.state.costUsd := by
  refine ⟨by decide +kernel, ?_⟩
  have hexact : ∀ cost ∈ charges (spendingRun.2.state.trace.map Prod.snd),
      ExactCost approvingRunner unitTelemetry cost := by
    rw [charges_spendingRun]
    exact List.forall_mem_singleton.mpr ⟨.half, rfl, rfl⟩
  have hok : ∀ entry ∈ spendingRun.2.state.journal.entries, entry.result = .ok () := by
    intro entry hentry
    have hisOk := logged_spendingRun entry hentry
    rcases hresult : entry.result with e | ⟨⟨⟩⟩
    · rw [hresult] at hisOk
      cases hisOk
    · rfl
  obtain ⟨-, hiff⟩ := cost_telemetry (startsRun_steps (later_spendingSteps approvingRunner))
    (run_takeSteps approvingRunner (spendingSteps approvingRunner)) (k := 0) (by decide) hexact
  exact (hiff hok (by decide)).1.mpr others_spendingRun

end AgentRoi
