/-
When an outbox worker gives an event up.

* `FleetInv` — what holds in every state: attempts are claims, and a dead
  event was given up by a worker, for a reason;
* `Justified` — the reason: the event had been claimed often enough, and its
  delivery failed after that;
* `dead_letter_after_claims` — the same for every dead letter;
* `dead_letter_without_invocation` — the handler need not have been invoked.
-/
import AgentRoi.OutboxWorker

namespace AgentRoi

open OutboxTables OutboxWorld EventTrace

variable {F W V T : Type} [PyFloat F]

/-- How often the event was claimed. -/
def claimCount (eventId : Str) (trace : List (ℕ × DeliveryEvent F)) : ℕ :=
  trace.countP fun entry =>
    match entry.2 with
    | .claimed events => eventId ∈ events.map OutboxEvent.eventId
    | _ => false

/-- The worker `i` claimed the event, when it had been claimed that often. -/
def HasClaimed (i : ℕ) (event : OutboxEvent F) (trace : List (ℕ × DeliveryEvent F)) : Prop :=
  ∃ events, (i, .claimed events) ∈ trace ∧ event ∈ events ∧
    event.attempts ≤ claimCount event.eventId trace

/-- The delivery of the event failed: its handler raised, or its breaker
refused the call. -/
def FailedDelivery (worker : OutboxWorker F W) (event : OutboxEvent F) : DeliveryEvent F → Prop
  | .invoked event' error => event' = event ∧ error ≠ none
  | .refused event' breaker => event' = event ∧ CircuitBreaker.Refusing breaker ∧
      worker.circuitBreakers event.destination ≠ none
  | _ => False

/-- The worker `i` claimed the event, and after that its delivery failed. -/
def HasFailed (worker : OutboxWorker F W) (i : ℕ) (event : OutboxEvent F)
    (trace : List (ℕ × DeliveryEvent F)) : Prop :=
  ∃ later x mid events earlier, trace = later ++ (i, x) :: mid ++ (i, .claimed events) :: earlier ∧
    event ∈ events ∧ FailedDelivery worker event x

/-- Why a worker gave an event up. -/
def Justified (fleet : OutboxFleet F W V T) (entry : ℕ × DeliveryEvent F)
    (earlier : List (ℕ × DeliveryEvent F)) : Prop :=
  ∀ event, entry.2 = .deadLettered event →
    (fleet.workers entry.1).maxDeliveryAttempts ≤ event.attempts ∧
      HasClaimed entry.1 event earlier ∧
      ((fleet.workers entry.1).handlers event.destination ≠ none →
        HasFailed (fleet.workers entry.1) entry.1 event earlier)

/-- The attempts of the row of an event, if there is one. -/
def attemptsOf (o : Option (OutboxRow V T)) : ℕ := (o.map OutboxRow.attempts).getD 0

structure FleetInv (fleet : OutboxFleet F W V T) (s : OutboxWorld F W V T) : Prop where
  readable : Readable fleet.backend.format s.tables
  buried : Buried s.tables
  counted : ∀ id, attemptsOf (s.tables.row id) = claimCount id s.trace
  agree : ∀ i events, (i, .claimed events) ∈ s.trace → ∀ event ∈ events,
    ∃ row, s.tables.row event.eventId = some row ∧ row.destination = event.destination
  dead : ∀ id row, s.tables.row id = some row → row.status = .deadLetter →
    ∃ i event, (i, .deadLettered event) ∈ s.trace ∧ event.eventId = id
  justified : Every (Justified fleet) s.trace

variable {fleet : OutboxFleet F W V T} {s t : OutboxWorld F W V T} {i : ℕ}
  {event : OutboxEvent F} {trace later : List (ℕ × DeliveryEvent F)}

omit [PyFloat F] in
theorem claimCount_append_le (id : Str) :
    claimCount id trace ≤ claimCount id (later ++ trace) := by
  rw [claimCount, claimCount, List.countP_append]
  exact Nat.le_add_left _ _

omit [PyFloat F] in
theorem HasClaimed.extend (h : HasClaimed i event trace) : HasClaimed i event (later ++ trace) := by
  obtain ⟨events, hmem, hin, hle⟩ := h
  exact ⟨events, List.mem_append_right _ hmem, hin, hle.trans (claimCount_append_le _)⟩

omit [PyFloat F] in
theorem HasFailed.extend {worker : OutboxWorker F W} (h : HasFailed worker i event trace) :
    HasFailed worker i event (later ++ trace) := by
  obtain ⟨xs, x, mid, events, earlier, rfl, hin, hx⟩ := h
  refine ⟨later ++ xs, x, mid, events, earlier, ?_, hin, hx⟩
  simp only [List.append_assoc, List.cons_append]

omit [PyFloat F] in
/-- A delivery that fails after the claim. -/
theorem HasClaimed.failed {worker : OutboxWorker F W} {x : DeliveryEvent F}
    (h : HasClaimed i event trace) (hx : FailedDelivery worker event x) :
    HasFailed worker i event ((i, x) :: trace) := by
  obtain ⟨events, hmem, hin, -⟩ := h
  obtain ⟨mid, earlier, rfl⟩ := List.append_of_mem hmem
  exact ⟨[], x, mid, events, earlier, rfl, hin, hx⟩

/-! ### Steps -/

/-- The others only add to the trace. -/
def Grows (s t : OutboxWorld F W V T) : Prop := ∃ later, t.trace = later ++ s.trace

omit [PyFloat F] in
theorem Grows.refl (s : OutboxWorld F W V T) : Grows s s := ⟨[], rfl⟩

omit [PyFloat F] in
theorem Grows.trans {s t u : OutboxWorld F W V T} (h : Grows s t) (h' : Grows t u) :
    Grows s u := by
  obtain ⟨xs, hxs⟩ := h
  obtain ⟨ys, hys⟩ := h'
  exact ⟨ys ++ xs, by rw [hys, hxs, List.append_assoc]⟩

/-- An event that claims nothing and gives nothing up. -/
def Harmless (x : DeliveryEvent F) : Prop :=
  (∀ events, x ≠ .claimed events) ∧ ∀ event, x ≠ .deadLettered event

omit [PyFloat F] in
theorem claimCount_cons_of_ne {x : DeliveryEvent F} (h : ∀ events, x ≠ .claimed events) (id : Str) :
    claimCount id ((i, x) :: trace) = claimCount id trace := by
  cases x with
  | claimed events => exact absurd rfl (h events)
  | _ => exact List.countP_cons_of_neg (by simp)

/-- A step that leaves the tables keeps the invariant. -/
theorem FleetInv.of_harmless (h : FleetInv fleet s) (htables : t.tables = s.tables)
    (htrace : t.trace = s.trace ∨ ∃ x, Harmless x ∧ t.trace = (i, x) :: s.trace) :
    FleetInv fleet t := by
  rcases htrace with htrace | ⟨x, ⟨hclaim, hdead⟩, htrace⟩
  · constructor
    · exact htables ▸ h.readable
    · exact htables ▸ h.buried
    · rw [htables, htrace]
      exact h.counted
    · rw [htables, htrace]
      exact h.agree
    · rw [htables, htrace]
      exact h.dead
    · exact htrace ▸ h.justified
  · constructor
    · exact htables ▸ h.readable
    · exact htables ▸ h.buried
    · intro id
      rw [htables, htrace, claimCount_cons_of_ne hclaim]
      exact h.counted id
    · intro j events hmem
      rw [htables]
      rw [htrace] at hmem
      rcases List.mem_cons.mp hmem with heq | hmem
      · cases heq
        exact absurd rfl (hclaim events)
      · exact h.agree j events hmem
    · intro id row hrow hstatus
      rw [htables] at hrow
      obtain ⟨j, event, hmem, hid⟩ := h.dead id row hrow hstatus
      rw [htrace]
      exact ⟨j, event, List.mem_cons_of_mem _ hmem, hid⟩
    · rw [htrace]
      refine ⟨fun event hevent => absurd hevent (hdead event), h.justified⟩

variable {fmt : OutboxFormat F V T} {now : Instant} {op : OutboxOperation F}
  {r : Except PyExc (List (OutboxEvent F))} {tables tables' : OutboxTables V T}

omit [PyFloat F] in
theorem claimsEvent_eq_false {id : Str}
    (h : ∀ workerId limit leaseSeconds destination events,
      op = .claim workerId limit leaseSeconds destination → r = .ok events →
      id ∉ events.map OutboxEvent.eventId) : claimsEvent id (⟨now, op⟩, r) = false := by
  cases op with
  | claim workerId limit leaseSeconds destination =>
    cases r with
    | error e => rfl
    | ok events => exact decide_eq_false (h _ _ _ _ _ rfl rfl)
  | _ => rfl

/-- An operation adds to the attempts what it claims. -/
theorem attempts_move (h : OutboxMove fmt now op r tables tables')
    (hcreated : ∀ event, op = .enqueue event → event.Created) (id : Str) :
    attemptsOf (tables'.row id) =
      attemptsOf (tables.row id) + if claimsEvent id (⟨now, op⟩, r) then 1 else 0 := by
  have hmove := h.rowMove id
  generalize tables.row id = o at hmove
  generalize tables'.row id = o' at hmove
  cases hmove with
  | same hnot => simp [claimsEvent_eq_false hnot]
  | @inserted event row hrow =>
    have hzero : row.attempts = 0 :=
      (eventRow_columns hrow).2.2.2.2.1.trans (created_columns (hcreated event rfl)).2.1
    exact hzero
  | @leased workerId destination limit leaseSeconds expires events row _ hid _ =>
    have hclaims : claimsEvent id (⟨now, .claim workerId limit leaseSeconds destination⟩,
        .ok events) = true := decide_eq_true hid
    rw [if_pos hclaims]
    rfl
  | delivered => rfl
  | rescheduled => rfl
  | deadLettered => rfl

theorem OutboxMove.error_same {e : PyExc} (h : OutboxMove fmt now op (.error e) tables tables') :
    tables' = tables := by
  cases h <;> rfl

omit [PyFloat F] in
theorem mem_of_mapM {rows : List (OutboxRow V T)} {events : List (OutboxEvent F)}
    (h : rows.mapM (rowEvent fmt) = .ok events) (he : event ∈ events) :
    ∃ row ∈ rows, rowEvent fmt row = .ok event := by
  induction rows generalizing events with
  | nil =>
    cases h
    cases he
  | cons row rows ih =>
    rw [List.mapM_cons] at h
    obtain ⟨e, hrow, h⟩ := except_bind_eq_ok.mp h
    obtain ⟨es, hrows, h⟩ := except_bind_eq_ok.mp h
    cases h
    rcases List.mem_cons.mp he with rfl | he
    · exact ⟨row, List.mem_cons_self, hrow⟩
    · obtain ⟨row', hmem, hrow'⟩ := ih hrows he
      exact ⟨row', List.mem_cons_of_mem _ hmem, hrow'⟩

/-- What a claim answers with are the rows it leased. -/
theorem claimed_event {events : List (OutboxEvent F)} {workerId destination : Str}
    {limit leaseSeconds : Int}
    (h : OutboxMove fmt now (.claim workerId limit leaseSeconds destination) (.ok events) tables
      tables') (he : event ∈ events) :
    ∃ row, tables'.row event.eventId = some row ∧ row.destination = event.destination ∧
      row.attempts = event.attempts := by
  cases h with
  | claimed hexpires hnodup hclaim hperm hevents =>
    obtain ⟨row, hmem, hrow⟩ := mem_of_mapM hevents he
    obtain ⟨id, -, hid⟩ := List.mem_filterMap.mp (hperm.mem_iff.mp hmem)
    obtain ⟨payload, -, hrow⟩ := except_bind_eq_ok.mp hrow
    cases hrow
    refine ⟨row, ?_, rfl, rfl⟩
    rw [eventId_of_row hid]
    exact hid

/-- What an operation keeps, whatever is logged of it. -/
theorem FleetInv.moved (h : FleetInv fleet s)
    (hmove : OutboxMove fleet.backend.format s.now op r s.tables tables')
    (hcreated : ∀ event, op = .enqueue event → event.Created) :
    Readable fleet.backend.format tables' ∧ Buried tables' ∧
      (∀ id, attemptsOf (tables'.row id) =
        claimCount id s.trace + if claimsEvent id (⟨s.now, op⟩, r) then 1 else 0) ∧
      (∀ i events, (i, .claimed events) ∈ s.trace → ∀ event ∈ events,
        ∃ row, tables'.row event.eventId = some row ∧ row.destination = event.destination) ∧
      (∀ id row, tables'.row id = some row → row.status = .deadLetter →
        (∃ workerId error, op = .deadLetter id workerId error) ∨
        ∃ i event, (i, .deadLettered event) ∈ s.trace ∧ event.eventId = id) := by
  refine ⟨hmove.readable fleet.backend.format_lawful h.readable, hmove.buried hcreated h.buried,
    ?_, ?_, ?_⟩
  · intro id
    rw [attempts_move hmove hcreated, h.counted]
  · intro i events hmem event he
    obtain ⟨row, hrow, hdestination⟩ := h.agree i events hmem event he
    have hrowMove := hmove.rowMove event.eventId
    rw [hrow] at hrowMove
    obtain ⟨row', hrow', hcontent, -⟩ := hrowMove.kept
    simp only [OutboxRow.content, Prod.mk.injEq] at hcontent
    exact ⟨row', hrow', hcontent.2.2.1.trans hdestination⟩
  · intro id row hrow hstatus
    by_cases hop : ∃ workerId error, op = .deadLetter id workerId error
    · exact .inl hop
    · have hiff := (hmove.rowMove id).dead_iff
        (fun workerId error heq => hop ⟨workerId, error, heq⟩) hcreated
      obtain ⟨row', hrow', hstatus'⟩ := hiff.mpr ⟨row, hrow, hstatus⟩
      exact .inr (h.dead id row' hrow' hstatus')

/-- An operation that neither claims nor buries keeps the invariant. -/
theorem FleetInv.plain (h : FleetInv fleet s)
    (hmove : OutboxMove fleet.backend.format s.now op r s.tables t.tables)
    (hcreated : ∀ event, op = .enqueue event → event.Created)
    (hclaim : ∀ workerId limit leaseSeconds destination,
      op ≠ .claim workerId limit leaseSeconds destination)
    (hbury : ∀ id workerId error, op ≠ .deadLetter id workerId error)
    (htrace : t.trace = s.trace) : FleetInv fleet t := by
  obtain ⟨hreadable, hburied, hcounted, hagree, hdead⟩ := h.moved hmove hcreated
  constructor
  · exact hreadable
  · exact hburied
  · intro id
    have hnone : claimsEvent id (⟨s.now, op⟩, r) = false :=
      claimsEvent_eq_false fun _ _ _ _ _ hop => absurd hop (hclaim _ _ _ _)
    rw [hcounted id, hnone, htrace]
    rfl
  · rw [htrace]
    exact hagree
  · intro id row hrow hstatus
    rw [htrace]
    rcases hdead id row hrow hstatus with ⟨workerId, error, hop⟩ | hdead
    · exact absurd hop (hbury _ _ _)
    · exact hdead
  · rw [htrace]
    exact h.justified

/-- A claim keeps the invariant, and its events have been claimed that often. -/
theorem FleetInv.taken (h : FleetInv fleet s) {events : List (OutboxEvent F)}
    {workerId destination : Str} {limit leaseSeconds : Int}
    (hmove : OutboxMove fleet.backend.format s.now
      (.claim workerId limit leaseSeconds destination) (.ok events) s.tables t.tables)
    (htrace : t.trace = (i, .claimed events) :: s.trace) :
    FleetInv fleet t ∧ ∀ event ∈ events, HasClaimed i event t.trace := by
  obtain ⟨hreadable, hburied, hcounted, hagree, hdead⟩ :=
    h.moved hmove fun _ hop => by cases hop
  have hinv : FleetInv fleet t := by
    constructor
    · exact hreadable
    · exact hburied
    · intro id
      rw [hcounted id, htrace, claimCount, claimCount, List.countP_cons]
      rfl
    · intro j events' hmem event he
      rw [htrace] at hmem
      rcases List.mem_cons.mp hmem with heq | hmem
      · cases heq
        obtain ⟨row, hrow, hdestination, -⟩ := claimed_event hmove he
        exact ⟨row, hrow, hdestination⟩
      · exact hagree j events' hmem event he
    · intro id row hrow hstatus
      rcases hdead id row hrow hstatus with ⟨_, _, hop⟩ | ⟨j, event, hmem, hid⟩
      · cases hop
      · rw [htrace]
        exact ⟨j, event, List.mem_cons_of_mem _ hmem, hid⟩
    · rw [htrace]
      refine ⟨fun event hevent => ?_, h.justified⟩
      cases hevent
  refine ⟨hinv, fun event he => ⟨events, ?_, he, ?_⟩⟩
  · rw [htrace]
    exact List.mem_cons_self
  · obtain ⟨row, hrow, -, hattempts⟩ := claimed_event hmove he
    have hcount := hinv.counted event.eventId
    rw [hrow] at hcount
    rw [← hcount, ← hattempts]
    exact le_refl _

/-- Giving an event up for a reason keeps the invariant. -/
theorem FleetInv.gaveUp (h : FleetInv fleet s) {workerId error : Str}
    (hmove : OutboxMove fleet.backend.format s.now (.deadLetter event.eventId workerId error) r
      s.tables t.tables)
    (hjust : Justified fleet (i, .deadLettered event) s.trace)
    (htrace : t.trace = (i, .deadLettered event) :: s.trace) : FleetInv fleet t := by
  obtain ⟨hreadable, hburied, hcounted, hagree, hdead⟩ :=
    h.moved hmove fun _ hop => by cases hop
  constructor
  · exact hreadable
  · exact hburied
  · intro id
    rw [hcounted id, htrace, claimCount_cons_of_ne (by intro _ hx; cases hx)]
    rfl
  · intro j events hmem
    rw [htrace] at hmem
    rcases List.mem_cons.mp hmem with heq | hmem
    · cases heq
    · exact hagree j events hmem
  · intro id row hrow hstatus
    rw [htrace]
    rcases hdead id row hrow hstatus with ⟨_, _, hop⟩ | ⟨j, event', hmem, hid⟩
    · cases hop
      exact ⟨i, event, List.mem_cons_self, rfl⟩
    · exact ⟨j, event', List.mem_cons_of_mem _ hmem, hid⟩
  · rw [htrace]
    exact ⟨hjust, h.justified⟩

/-! ### Programs -/

/-- Every step of the program keeps the invariant and only adds to the trace. -/
abbrev FleetSafe (fleet : OutboxFleet F W V T) {α : Type}
    (Q : Except PyExc α → OutboxWorld F W V T → Prop)
    (p : Proc (OutboxWorld F W V T) PyExc α) (s : OutboxWorld F W V T) : Prop :=
  Proc.Safe Grows Grows (FleetInv fleet) Q p s

omit [PyFloat F] in
theorem Grows.hasClaimed (h : Grows s t) (hc : HasClaimed i event s.trace) :
    HasClaimed i event t.trace := by
  obtain ⟨later, hlater⟩ := h
  rw [hlater]
  exact hc.extend

omit [PyFloat F] in
theorem Grows.hasFailed {worker : OutboxWorker F W} (h : Grows s t)
    (hf : HasFailed worker i event s.trace) : HasFailed worker i event t.trace := by
  obtain ⟨later, hlater⟩ := h
  rw [hlater]
  exact hf.extend

/-- An operation of the store raises and changes no table, or is a move. -/
theorem transact_cases {q : Except PyExc (List (OutboxEvent F))} (hinv : FleetInv fleet s)
    (h : transact fleet op s = (q, t)) : t.trace = s.trace ∧
      ((∃ e, q = .error e ∧ t.tables = s.tables) ∨ ∃ events, q = .ok events ∧
        OutboxMove fleet.backend.format s.now op (.ok events) s.tables t.tables) := by
  rcases hdatabase : fleet.database s.outside with ⟨e | _, w⟩
  · have heq : onOutside fleet.database s = (.error e, { s with outside := w }) := by
      rw [onOutside, PyM.on, hdatabase]
    rw [transact, PyM.bind_of_error heq] at h
    cases h
    exact ⟨rfl, .inl ⟨_, rfl, rfl⟩⟩
  · have heq : onOutside fleet.database s = (.ok (), { s with outside := w }) := by
      rw [onOutside, PyM.on, hdatabase]
    rw [transact, PyM.bind_of_ok heq, PyM.get_bind] at h
    rcases hperform : fleet.backend.perform s.now op s.tables with ⟨r, tables⟩
    rw [PyM.on, hperform] at h
    cases h
    have hmove := fleet.backend.move hinv.readable hperform
    cases r with
    | error e => exact ⟨rfl, .inl ⟨e, rfl, hmove.error_same⟩⟩
    | ok events => exact ⟨rfl, .inr ⟨events, rfl, hmove⟩⟩

/-- What a step that leaves the tables does to the trace. -/
def Logs (i : ℕ) (s t : OutboxWorld F W V T) : Prop :=
  t.tables = s.tables ∧
    (t.trace = s.trace ∨ ∃ x, Harmless x ∧ t.trace = (i, x) :: s.trace)

omit [PyFloat F] in
theorem Logs.grows (h : Logs i s t) : Grows s t := by
  rcases h.2 with htrace | ⟨x, -, htrace⟩
  · exact ⟨[], htrace⟩
  · exact ⟨[(i, x)], htrace⟩

theorem Logs.keeps (h : Logs i s t) (hinv : FleetInv fleet s) : FleetInv fleet t :=
  hinv.of_harmless h.1 h.2

omit [PyFloat F] in
/-- A handler that raises has failed. -/
theorem invoke_step (worker : OutboxWorker F W) {handler : OutboxEvent F → PyM W Unit}
    {q : Except PyExc Unit} (h : OutboxWorker.invoke i event handler s = (q, t)) :
    Logs i s t ∧ (HasClaimed i event s.trace → ∀ e, q = .error e →
      HasFailed worker i event t.trace) := by
  have hharmless : ∀ error, Harmless (DeliveryEvent.invoked event error) := by
    intro error
    constructor
    · intro events hx
      cases hx
    · intro event' hx
      cases hx
  rcases hhandler : handler event s.outside with ⟨e | u, w⟩
  · simp only [OutboxWorker.invoke, onOutside, PyM.on, hhandler] at h
    cases h
    refine ⟨⟨rfl, .inr ⟨_, hharmless _, rfl⟩⟩, fun hc e' he' => ?_⟩
    exact hc.failed ⟨rfl, Option.some_ne_none e⟩
  · simp only [OutboxWorker.invoke, onOutside, PyM.on, hhandler] at h
    cases h
    exact ⟨⟨rfl, .inr ⟨_, hharmless _, rfl⟩⟩, fun _ e he => by cases he⟩

/-- A breaker that refuses has failed the delivery. -/
theorem askBreaker_step {b : ℕ} {q : Except PyExc Unit}
    (hb : (fleet.workers i).circuitBreakers event.destination ≠ none)
    (h : OutboxWorker.askBreaker fleet i b event s = (q, t)) :
    Logs i s t ∧ (HasClaimed i event s.trace → ∀ e, q = .error e →
      HasFailed (fleet.workers i) i event t.trace) := by
  rcases hbefore : (fleet.breakers b).beforeCall s.monotonic (s.breakers b) with ⟨e | u, m⟩
  · obtain ⟨hrefusing, -⟩ := CircuitBreaker.beforeCall_refused hbefore
    rw [OutboxWorker.askBreaker, PyM.get_bind, PyM.tryExcept, onBreaker, PyM.on, hbefore] at h
    cases h
    refine ⟨⟨rfl, .inr ⟨.refused event (s.breakers b), ⟨?_, ?_⟩, rfl⟩⟩, fun hc e' he' => ?_⟩
    · intro events hx
      cases hx
    · intro event' hx
      cases hx
    · exact hc.failed ⟨rfl, hrefusing, hb⟩
  · rw [OutboxWorker.askBreaker, PyM.get_bind, PyM.tryExcept, onBreaker, PyM.on, hbefore] at h
    cases h
    exact ⟨⟨rfl, .inl rfl⟩, fun _ e he => by cases he⟩

/-- How the delivery of a claimed event may end. -/
def Delivered (fleet : OutboxFleet F W V T) (i : ℕ) (event : OutboxEvent F)
    (r : Except PyExc Unit) (s : OutboxWorld F W V T) : Prop :=
  HasClaimed i event s.trace ∧ ∀ e, r = .error e →
    (fleet.workers i).handlers event.destination ≠ none →
    HasFailed (fleet.workers i) i event s.trace

theorem Delivered.grows {r : Except PyExc Unit} (h : Delivered fleet i event r s)
    (hst : Grows s t) : Delivered fleet i event r t :=
  ⟨hst.hasClaimed h.1, fun e he hh => hst.hasFailed (h.2 e he hh)⟩

/-- The breaker records a success. -/
theorem succeed_safe {b : ℕ} (hc : HasClaimed i event s.trace) :
    FleetSafe fleet (Delivered fleet i event) (.atomic (OutboxWorker.succeed fleet b)) s := by
  refine Proc.safe_atomic fun t hst ht => ⟨?_, ⟨[], rfl⟩, fun v hv _ => ?_⟩
  · exact ht.of_harmless (i := i) rfl (.inl rfl)
  · refine Delivered.grows ⟨hst.hasClaimed hc, fun e he => ?_⟩ hv
    have hok : (OutboxWorker.succeed fleet b t).1 = .ok () := CircuitBreaker.recordSuccess_ok
    rw [hok] at he
    cases he

/-- The breaker records a failure, which is raised again. -/
theorem failed_safe {b : ℕ} {e : PyExc} (hd : Delivered fleet i event (.error e) s)
    (hinv : FleetInv fleet s) :
    FleetSafe fleet (Delivered fleet i event)
      ((do .atomic (OutboxWorker.failed fleet b)
           .raise e) : Proc (OutboxWorld F W V T) PyExc Unit) s := by
  refine Proc.safe_bind (Q := fun _ t => Delivered fleet i event (.error e) t)
    Grows.refl ?_ hinv ?_ ?_
  · refine Proc.safe_atomic fun t hst ht => ⟨?_, ⟨[], rfl⟩, fun v hv _ => ?_⟩
    · exact ht.of_harmless (i := i) rfl (.inl rfl)
    · exact (hd.grows hst).grows hv
  · exact fun _ t _ h => Proc.safe_raise fun v hv _ => h.grows hv
  · exact fun e' t _ h => ⟨h.1, fun _ _ => h.2 e rfl⟩

theorem guarded_safe {b : ℕ} {handler : OutboxEvent F → PyM W Unit}
    (hb : (fleet.workers i).circuitBreakers event.destination ≠ none)
    (hinv : FleetInv fleet s) (hc : HasClaimed i event s.trace) :
    FleetSafe fleet (Delivered fleet i event) (OutboxWorker.guarded fleet i b event handler) s := by
  refine Proc.safe_bind (Q := Delivered fleet i event) Grows.refl ?_ hinv ?_ fun e t _ h => h
  · -- `before_call`
    refine Proc.safe_atomic fun t hst ht => ?_
    rcases hask : OutboxWorker.askBreaker fleet i b event t with ⟨q, u⟩
    obtain ⟨hlogs, hfailed⟩ := askBreaker_step hb hask
    refine ⟨hlogs.keeps ht, hlogs.grows, fun v hv _ => Delivered.grows ⟨?_, ?_⟩ hv⟩
    · exact hlogs.grows.hasClaimed (hst.hasClaimed hc)
    · exact fun e he _ => hfailed (hst.hasClaimed hc) e he
  · intro _ t ht hd
    refine Proc.safe_bind (Q := fun r u => ∃ q, r = .ok q ∧ Delivered fleet i event q u)
      Grows.refl (Proc.safe_attempt (Q := Delivered fleet i event) ?_ ?_) ht ?_ ?_
    · -- the handler
      refine Proc.safe_atomic fun u htu hu => ?_
      rcases hinvoke : OutboxWorker.invoke i event handler u with ⟨q, v⟩
      obtain ⟨hlogs, hfailed⟩ := invoke_step (fleet.workers i) hinvoke
      refine ⟨hlogs.keeps hu, hlogs.grows, fun w hw _ => Delivered.grows ⟨?_, ?_⟩ hw⟩
      · exact hlogs.grows.hasClaimed (htu.hasClaimed hd.1)
      · exact fun e he _ => hfailed (htu.hasClaimed hd.1) e he
    · exact fun r u _ hr => ⟨r, rfl, hr⟩
    · rintro r u hu ⟨q, hq, hr⟩
      cases hq
      cases r with
      | ok _ => exact succeed_safe hr.1
      | error e => exact failed_safe hr hu
    · rintro e u - ⟨q, hq, -⟩
      cases hq

theorem deliver_safe (hinv : FleetInv fleet s) (hc : HasClaimed i event s.trace) :
    FleetSafe fleet (Delivered fleet i event) (OutboxWorker.deliver fleet i event) s := by
  rw [OutboxWorker.deliver]
  cases hhandler : (fleet.workers i).handlers event.destination with
  | none =>
    exact Proc.safe_raise fun t hst _ =>
      ⟨hst.hasClaimed hc, fun e he hh => absurd hhandler hh⟩
  | some handler =>
    cases hbreaker : (fleet.workers i).circuitBreakers event.destination with
    | none =>
      refine Proc.safe_atomic fun t hst ht => ?_
      rcases hinvoke : OutboxWorker.invoke i event handler t with ⟨q, u⟩
      obtain ⟨hlogs, hfailed⟩ := invoke_step (fleet.workers i) hinvoke
      refine ⟨hlogs.keeps ht, hlogs.grows, fun v hv _ => Delivered.grows ⟨?_, ?_⟩ hv⟩
      · exact hlogs.grows.hasClaimed (hst.hasClaimed hc)
      · exact fun e he _ => hfailed (hst.hasClaimed hc) e he
    | some b => exact guarded_safe (by rw [hbreaker]; exact Option.some_ne_none b) hinv hc

/-- The pause before the next attempt. -/
theorem pause_safe {attempt : ℕ} {e : PyExc} (hd : Delivered fleet i event (.error e) s) :
    FleetSafe fleet (fun _ t => Delivered fleet i event (.error e) t)
      (OutboxWorker.pause fleet i attempt) s := by
  refine Proc.safe_atomic fun t hst ht => ?_
  set x : PyM W Unit := (do
    let _ ← (fleet.workers i).retryPolicy.delay attempt
    return ())
  have hstep : (onOutside x t).2 = { t with outside := (x t.outside).2 } := by
    rw [onOutside, PyM.on]
  rw [hstep]
  refine ⟨?_, ⟨[], rfl⟩, fun v hv _ => (hd.grows hst).grows hv⟩
  exact ht.of_harmless (i := i) rfl (.inl rfl)

/-- Induction on the attempts that are left. -/
theorem retryFrom_safe {attempt remaining : ℕ} (hinv : FleetInv fleet s)
    (hc : HasClaimed i event s.trace) (hpos : 1 ≤ remaining)
    (hsum : attempt + remaining = (fleet.workers i).retryPolicy.maxAttempts + 1) :
    FleetSafe fleet (Delivered fleet i event)
      (retryFrom (fleet.workers i).retryPolicy (OutboxWorker.pause fleet i)
        (OutboxWorker.deliver fleet i event) attempt remaining) s := by
  induction remaining generalizing attempt s with
  | zero => omega
  | succ remaining ih =>
    refine Proc.safe_bind (Q := fun r u => ∃ q, r = .ok q ∧ Delivered fleet i event q u)
      Grows.refl (Proc.safe_attempt (deliver_safe hinv hc) fun r u _ hr => ⟨r, rfl, hr⟩) hinv ?_ ?_
    · rintro r t ht ⟨q, hq, hr⟩
      cases hq
      cases r with
      | ok u => exact Proc.safe_pure fun v hv _ => hr.grows hv
      | error e =>
        show FleetSafe fleet _ (if _ then _ else _) t
        split
        · exact Proc.safe_raise fun v hv _ => hr.grows hv
        · next hmore =>
          simp only [Bool.or_eq_true, decide_eq_true_eq, not_or] at hmore
          refine Proc.safe_bind (Q := fun _ v => Delivered fleet i event (.error e) v)
            Grows.refl (pause_safe hr) ht ?_ ?_
          · exact fun _ v hv hd => ih hv hd.1 (by omega) (by omega)
          · exact fun e' v _ hd => ⟨hd.1, fun _ _ => hd.2 e rfl⟩
    · rintro e t - ⟨q, hq, -⟩
      cases hq

/-- Giving an event up, after a delivery that failed. -/
theorem bury_step {e : PyExc} {q : Except PyExc OutboxWorker.Outcome} (hinv : FleetInv fleet s)
    (hd : Delivered fleet i event (.error e) s)
    (hmax : (fleet.workers i).maxDeliveryAttempts ≤ event.attempts)
    (h : OutboxWorker.bury fleet i event e s = (q, t)) : FleetInv fleet t ∧ Grows s t := by
  rw [OutboxWorker.bury] at h
  cases herror : OutboxWorker.errorString e with
  | error e' =>
    rw [herror, PyM.bind_of_error (PyM.ofExcept_apply _ _)] at h
    cases h
    exact ⟨hinv, Grows.refl s⟩
  | ok error =>
    rw [herror, PyM.bind_of_ok (PyM.ofExcept_apply _ _)] at h
    rcases htransact : transact fleet (.deadLetter event.eventId (fleet.workers i).workerId error) s
      with ⟨r, u⟩
    obtain ⟨htrace, ⟨e', rfl, htables⟩ | ⟨events, rfl, hmove⟩⟩ := transact_cases hinv htransact
    · rw [PyM.bind_of_error htransact] at h
      cases h
      exact ⟨hinv.of_harmless (i := i) htables (.inl htrace), ⟨[], htrace⟩⟩
    · rw [PyM.bind_of_ok htransact] at h
      cases h
      have hjust : Justified fleet (i, .deadLettered event) s.trace := by
        intro event' hevent
        cases hevent
        exact ⟨hmax, hd.1, hd.2 e rfl⟩
      have hlogged : (log i (.deadLettered event) u).trace = (i, .deadLettered event) :: s.trace :=
        congrArg (List.cons _) htrace
      exact ⟨hinv.gaveUp hmove hjust hlogged, ⟨[(i, .deadLettered event)], hlogged⟩⟩

/-- An operation that neither claims nor buries, whatever comes of it. -/
theorem transact_plain {q : Except PyExc (List (OutboxEvent F))} (hinv : FleetInv fleet s)
    (hcreated : ∀ event, op = .enqueue event → event.Created)
    (hclaim : ∀ workerId limit leaseSeconds destination,
      op ≠ .claim workerId limit leaseSeconds destination)
    (hbury : ∀ id workerId error, op ≠ .deadLetter id workerId error)
    (h : transact fleet op s = (q, t)) : FleetInv fleet t ∧ Grows s t := by
  obtain ⟨htrace, ⟨e, -, htables⟩ | ⟨events, -, hmove⟩⟩ := transact_cases hinv h
  · exact ⟨hinv.of_harmless (i := 0) htables (.inl htrace), ⟨[], htrace⟩⟩
  · exact ⟨hinv.plain hmove hcreated hclaim hbury htrace, ⟨[], htrace⟩⟩

theorem finish_step {q : Except PyExc OutboxWorker.Outcome} (hinv : FleetInv fleet s)
    (h : OutboxWorker.finish fleet i event s = (q, t)) : FleetInv fleet t ∧ Grows s t := by
  rw [OutboxWorker.finish] at h
  rcases htransact : transact fleet (.markDelivered event.eventId (fleet.workers i).workerId) s
    with ⟨_ | _, u⟩
  all_goals
    have hstep := transact_plain hinv (fun _ hop => by cases hop)
      (fun _ _ _ _ hop => by cases hop) (fun _ _ _ hop => by cases hop) htransact
  · rw [PyM.bind_of_error htransact] at h
    cases h
    exact hstep
  · rw [PyM.bind_of_ok htransact] at h
    cases h
    exact hstep

theorem postpone_step {e : PyExc} {q : Except PyExc OutboxWorker.Outcome}
    (hinv : FleetInv fleet s) (h : OutboxWorker.postpone fleet i event e s = (q, t)) :
    FleetInv fleet t ∧ Grows s t := by
  rw [OutboxWorker.postpone] at h
  rcases hdelay : (fleet.workers i).retryPolicy.delay (max 1 event.attempts) s.outside with ⟨d, w⟩
  have heq : onOutside ((fleet.workers i).retryPolicy.delay (max 1 event.attempts)) s =
      (d, { s with outside := w }) := by
    rw [onOutside, PyM.on, hdelay]
  have hpaused : FleetInv fleet { s with outside := w } :=
    hinv.of_harmless (i := 0) rfl (.inl rfl)
  cases d with
  | error e' =>
    rw [PyM.bind_of_error heq] at h
    cases h
    exact ⟨hpaused, ⟨[], rfl⟩⟩
  | ok delay =>
    rw [PyM.bind_of_ok heq] at h
    cases herror : OutboxWorker.errorString e with
    | error e' =>
      rw [herror, PyM.bind_of_error (PyM.ofExcept_apply _ _)] at h
      cases h
      exact ⟨hpaused, ⟨[], rfl⟩⟩
    | ok error =>
      rw [herror, PyM.bind_of_ok (PyM.ofExcept_apply _ _)] at h
      rcases htransact : transact fleet (.reschedule event.eventId (fleet.workers i).workerId
        (e.className ++ lit ": " ++ error) delay) { s with outside := w } with ⟨_ | _, u⟩
      all_goals
        have hstep := transact_plain hpaused (fun _ hop => by cases hop)
          (fun _ _ _ _ hop => by cases hop) (fun _ _ _ hop => by cases hop) htransact
      · rw [PyM.bind_of_error htransact] at h
        cases h
        exact hstep
      · rw [PyM.bind_of_ok htransact] at h
        cases h
        exact hstep

/-- What is done with the result of a delivery. -/
theorem settle_safe {r : Except PyExc Unit} (hd : Delivered fleet i event r s) :
    FleetSafe fleet (fun _ _ => True) (OutboxWorker.settle fleet i event r) s := by
  cases r with
  | ok u =>
    refine Proc.safe_atomic fun t hst ht => ?_
    rcases hfinish : OutboxWorker.finish fleet i event t with ⟨q, v⟩
    obtain ⟨hkeeps, hgrows⟩ := finish_step ht hfinish
    exact ⟨hkeeps, hgrows, fun _ _ _ => trivial⟩
  | error e =>
    rw [OutboxWorker.settle]
    split
    · exact Proc.safe_raise fun _ _ _ => trivial
    · split
      · next hmax =>
        refine Proc.safe_atomic fun t hst ht => ?_
        obtain ⟨hkeeps, hgrows⟩ := bury_step ht (hd.grows hst) hmax rfl
        exact ⟨hkeeps, hgrows, fun _ _ _ => trivial⟩
      · refine Proc.safe_atomic fun t hst ht => ?_
        rcases hpostpone : OutboxWorker.postpone fleet i event e t with ⟨q, v⟩
        obtain ⟨hkeeps, hgrows⟩ := postpone_step ht hpostpone
        exact ⟨hkeeps, hgrows, fun _ _ _ => trivial⟩

/-- Induction on the events that were claimed. -/
theorem deliverAll_safe {events : List (OutboxEvent F)} {summary : RunSummary}
    (hinv : FleetInv fleet s) (hc : ∀ event ∈ events, HasClaimed i event s.trace) :
    FleetSafe fleet (fun _ _ => True) (OutboxWorker.deliverAll fleet i events summary) s := by
  induction events generalizing summary s with
  | nil => exact Proc.safe_pure fun _ _ _ => trivial
  | cons event events ih =>
    -- what was claimed stays claimed
    have hkeep : ∀ s t : OutboxWorld F W V T, Grows s t →
        (∀ event ∈ events, HasClaimed i event s.trace) →
        ∀ event ∈ events, HasClaimed i event t.trace :=
      fun _ _ hst h event he => hst.hasClaimed (h event he)
    have hrest : ∀ event ∈ events, HasClaimed i event s.trace :=
      fun event he => hc event (List.mem_cons_of_mem _ he)
    have hdelivery := (retryFrom_safe hinv (hc event List.mem_cons_self)
      (fleet.workers i).retryPolicy.maxAttempts_pos (Nat.add_comm _ _)).frame hkeep hkeep hrest
    refine Proc.safe_bind (Q := fun r t => ∃ q, r = .ok q ∧ Delivered fleet i event q t ∧
        ∀ event ∈ events, HasClaimed i event t.trace)
      Grows.refl (Proc.safe_attempt hdelivery fun r _ _ h => ⟨r, rfl, h⟩) hinv ?_ ?_
    · rintro r t ht ⟨q, hq, hd, hmore⟩
      cases hq
      refine Proc.safe_bind Grows.refl ((settle_safe hd).frame hkeep hkeep hmore) ht ?_ ?_
      · exact fun outcome u hu h => ih hu h.2
      · exact fun _ _ _ _ => trivial
    · rintro e t - ⟨q, hq, -⟩
      cases hq

theorem runOnce_safe {limit : Int} {destination : Str} (hinv : FleetInv fleet s) :
    FleetSafe fleet (fun _ _ => True) (OutboxWorker.runOnce fleet i limit destination) s := by
  refine Proc.safe_bind
    (Q := fun r t => ∀ events, r = .ok events → ∀ event ∈ events, HasClaimed i event t.trace)
    Grows.refl ?_ hinv ?_ fun _ _ _ _ => trivial
  · refine Proc.safe_atomic fun t _ ht => ?_
    rw [OutboxWorker.take]
    rcases htransact : transact fleet (.claim (fleet.workers i).workerId limit
      (fleet.workers i).leaseSeconds destination) t with ⟨r, u⟩
    obtain ⟨htrace, ⟨e, rfl, htables⟩ | ⟨events, rfl, hmove⟩⟩ := transact_cases ht htransact
    · rw [PyM.bind_of_error htransact]
      refine ⟨ht.of_harmless (i := i) htables (.inl htrace), ⟨[], htrace⟩, ?_⟩
      intro v _ _ events hevents
      cases hevents
    · rw [PyM.bind_of_ok htransact]
      have hlogged : (log i (.claimed events) u).trace = (i, .claimed events) :: t.trace :=
        congrArg (List.cons _) htrace
      obtain ⟨hkeeps, hclaimed⟩ :=
        ht.taken (t := log i (.claimed events) u) (i := i) hmove hlogged
      refine ⟨hkeeps, ⟨[(i, .claimed events)], hlogged⟩, ?_⟩
      intro v hv _ events' hevents event he
      cases hevents
      exact hv.hasClaimed (hclaimed event he)
  · exact fun events t ht h => deliverAll_safe ht (h events rfl)

/-! ### Every pool -/

omit [PyFloat F] in
theorem Buried.empty : Buried (OutboxTables.empty : OutboxTables V T) := by
  intro id
  constructor
  · intro h
    cases h
  · rintro ⟨row, hrow, -⟩
    cases hrow

theorem FleetInv.init (htables : s.tables = .empty) (htrace : s.trace = []) :
    FleetInv fleet s := by
  constructor
  · rw [htables]
    exact fun row hrow => absurd hrow List.not_mem_nil
  · rw [htables]
    exact Buried.empty
  · intro id
    rw [htables, htrace]
    rfl
  · rw [htrace]
    exact fun i events hmem => absurd hmem List.not_mem_nil
  · intro id row hrow
    rw [htables] at hrow
    cases hrow
  · rw [htrace]
    trivial

theorem FleetInv.env (hinv : FleetInv fleet s) (h : FleetEnv fleet s t) :
    FleetInv fleet t ∧ Grows s t := by
  cases h with
  | elapsed now monotonic outside hle =>
    exact ⟨hinv.of_harmless (i := 0) rfl (.inl rfl), ⟨[], rfl⟩⟩
  | enqueued event hcreated =>
    refine ⟨?_, ⟨[], rfl⟩⟩
    have hmove : OutboxMove fleet.backend.format s.now (.enqueue event)
        (fleet.backend.perform s.now (.enqueue event) s.tables).1 s.tables
        (fleet.backend.perform s.now (.enqueue event) s.tables).2 :=
      fleet.backend.move hinv.readable rfl
    refine hinv.plain hmove ?_ ?_ ?_ rfl
    · intro event' hop
      cases hop
      exact hcreated
    · intro _ _ _ _ hop
      cases hop
    · intro _ _ _ hop
      cases hop

theorem fleet_invariant {pool : Pool ℕ (OutboxWorld F W V T) PyExc RunSummary}
    (hreach : FleetReach fleet pool) : FleetInv fleet pool.state := by
  refine (hreach.safe (R := fun _ => Grows) (G := fun _ => Grows) (Q := fun _ _ _ => True)
    ?_ ?_ ?_).1
  · constructor
    · exact fun _ => Grows.refl
    · exact fun _ _ _ _ => Grows.trans
    · exact fun _ _ _ _ _ h => h
    · exact fun s t henv hinv => (hinv.env henv).1
    · rintro - s t (_ | _)
      · exact ⟨[], rfl⟩
      · exact ⟨[], rfl⟩
  · exact fun s hs => FleetInv.init hs.1 hs.2
  · rintro i p s ⟨limit, destination, rfl⟩ hinv
    exact runOnce_safe hinv

/-- What the attempts of an event and its dead letter say. -/
structure DeliveryLaws (fleet : OutboxFleet F W V T) (s : OutboxWorld F W V T) : Prop where
  attempts : ∀ row ∈ s.tables.outbox, row.attempts = claimCount row.eventId s.trace
  deadLetters : ∀ letter ∈ s.tables.deadLetters, ∃ row ∈ s.tables.outbox,
    row.eventId = letter.eventId ∧ ∃ i event later earlier,
      s.trace = later ++ (i, .deadLettered event) :: earlier ∧
      event.eventId = row.eventId ∧ event.destination = row.destination ∧
      (fleet.workers i).maxDeliveryAttempts ≤ event.attempts ∧
      event.attempts ≤ claimCount event.eventId earlier ∧
      ((fleet.workers i).handlers event.destination ≠ none →
        HasFailed (fleet.workers i) i event earlier)

/-- An event is given up by a worker that claimed it, when it had been claimed
often enough and its delivery had failed after that. -/
theorem dead_letter_after_claims {pool : Pool ℕ (OutboxWorld F W V T) PyExc RunSummary}
    (hreach : FleetReach fleet pool) : DeliveryLaws fleet pool.state := by
  have hinv := fleet_invariant hreach
  constructor
  · intro row hrow
    rw [← hinv.counted, row_of_mem hrow]
    rfl
  · intro letter hletter
    have hsome : pool.state.tables.letter letter.eventId = some letter :=
      RowTable.rowAt_of_mem pool.state.tables.deadLetterIds hletter
    obtain ⟨row, hrow, hstatus⟩ := (hinv.buried letter.eventId).mp (by rw [hsome]; rfl)
    obtain ⟨i, event, hmem, hid⟩ := hinv.dead _ row hrow hstatus
    obtain ⟨later, earlier, htrace, hjust⟩ := hinv.justified.of_mem hmem
    obtain ⟨hmax, ⟨events, hclaimed, hin, hcount⟩, hfailed⟩ := hjust event rfl
    -- the row that was claimed is the row that is dead
    obtain ⟨row', hrow', hdestination⟩ := hinv.agree i events (by
      rw [htrace]
      exact List.mem_append_right _ (List.mem_cons_of_mem _ hclaimed)) event hin
    rw [hid, hrow] at hrow'
    cases hrow'
    exact ⟨row, mem_of_row hrow, eventId_of_row hrow, i, event, later, earlier, htrace,
      hid.trans (eventId_of_row hrow).symm, hdestination.symm, hmax, hcount, hfailed⟩

/-! ### A dead letter whose handler was never invoked -/

/-- How often a handler was invoked for the event and raised. -/
def failedInvocations (eventId : Str) (trace : List (ℕ × DeliveryEvent F)) : ℕ :=
  trace.countP fun entry =>
    match entry.2 with
    | .invoked event (some _) => event.eventId = eventId
    | _ => false

/-- One worker with a handler, behind a breaker. -/
def sampleWorker : OutboxWorker Half Unit where
  handlers destination := if destination = lit "siem" then some fun _ => return () else none
  workerId := lit "w"
  retryPolicy := ⟨1, le_rfl, fun _ => true, fun _ => return 0⟩
  maxDeliveryAttempts := 1
  maxDeliveryAttempts_pos := le_rfl
  leaseSeconds := 60
  circuitBreakers _ := some 0

def sampleFleet : OutboxFleet Half Unit Str Str where
  backend := sampleBackend
  database := return ()
  workers _ := sampleWorker
  breakers _ := ⟨1, .ofSmallInt 60 (by decide), 1, by decide, by decide, by decide⟩

/-- The breaker is open, and an event is enqueued. -/
def sampleWorld : OutboxWorld Half Unit Str Str where
  now := sampleInstant 1
  monotonic := .one
  outside := ()
  tables := (sampleBackend.perform (sampleInstant 1)
    (.enqueue (sampleEvent (lit "e") (lit "siem") (lit "k"))) .empty).2
  breakers _ := ⟨.opened, 1, 0, .zero, false⟩
  trace := []

/-- The worker ran once. -/
def samplePool : Pool ℕ (OutboxWorld Half Unit Str Str) PyExc RunSummary :=
  ⟨((OutboxWorker.runOnce sampleFleet 0 10 []).run sampleWorld).2, fun _ => none⟩

theorem samplePool_reach : FleetReach sampleFleet samplePool := by
  have hinit : FleetReach sampleFleet ⟨{ sampleWorld with tables := .empty }, fun _ => none⟩ :=
    .init ⟨rfl, rfl⟩
  have henqueued : FleetReach sampleFleet ⟨sampleWorld, fun _ => none⟩ :=
    hinit.env (.enqueued _ sampleEvent_created)
  exact henqueued.run ⟨10, [], rfl⟩

theorem dead_letter_without_invocation :
    FleetReach sampleFleet samplePool ∧
      samplePool.state.tables.deadLetters.map DeadLetter.eventId = [lit "e"] ∧
      (samplePool.state.tables.deadLetters.map fun letter =>
        ((sampleFleet.workers 0).handlers letter.destination).isSome) = [true] ∧
      failedInvocations (lit "e") samplePool.state.trace <
        (sampleFleet.workers 0).maxDeliveryAttempts :=
  ⟨samplePool_reach, by decide +kernel, by decide +kernel, by decide +kernel⟩

theorem dead_letter_after_claims_sample : DeliveryLaws sampleFleet samplePool.state :=
  dead_letter_after_claims samplePool_reach

end AgentRoi
