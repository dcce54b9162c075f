/-
One pass of an outbox worker, among others.

* `Turn`, `turns` — the events a pass comes to, one after the other;
* `OutboxBackend.perform_isOk_iff` — an operation that ends a lease returns
  exactly when the lease is there and the database takes what it is handed;
* `settle_isOk_iff` — an event is settled exactly when it is still leased to
  the worker and what became of its delivery can be recorded;
* `returns_iff` — `run_once` returns when it has settled every event;
* `turn_tried` — the turn of an event tries its handler;
* `finished_iff` — a pass comes to every event it claimed, and settles those
  it still leases, exactly when no event but the last is lost before its turn
  ends.
-/
import AgentRoi.Interference
import AgentRoi.OutboxDelivery

namespace AgentRoi

open OutboxTables OutboxWorld

variable {F W V T : Type}

/-! ### Settling and the lease -/

/-- The event is leased to the worker. -/
def OutboxTables.LeasedTo (t : OutboxTables V T) (eventId workerId : Str) : Prop :=
  ∃ row, t.row eventId = some row ∧ row.status = .leased ∧ row.leaseOwner = some workerId

namespace PyM

variable {σ α β : Type}

theorem isOk_ofExcept_bind {r : Except PyExc α} {f : α → PyM σ β} {s : σ} :
    ((ofExcept r >>= f) s).1.isOk = true ↔ ∃ a, r = .ok a ∧ (f a s).1.isOk = true := by
  cases r with
  | error e =>
    constructor
    · intro h
      cases h
    · rintro ⟨_, h, -⟩
      cases h
  | ok a =>
    constructor
    · exact fun h => ⟨a, rfl, h⟩
    · rintro ⟨_, h, hf⟩
      cases h
      exact hf

theorem isOk_transaction {x : PyM σ α} {s : σ} :
    (transaction x s).1.isOk = (x s).1.isOk := by
  rcases hx : x s with ⟨e | a, s'⟩ <;> rw [transaction, hx]

/-- What always returns does not matter. -/
theorem isOk_bind_of_isOk {x : PyM σ α} {f : α → PyM σ β} {s : σ}
    (h : ∀ a s, (f a s).1.isOk = true) : ((x >>= f) s).1.isOk = (x s).1.isOk := by
  rcases hx : x s with ⟨e | a, s'⟩
  · rw [bind_of_error hx]
    rfl
  · rw [bind_of_ok hx, h]
    rfl

end PyM

theorem leasedTo_iff_find {t : OutboxTables V T} {eventId workerId : Str} :
    t.LeasedTo eventId workerId ↔
      ∃ row, t.outbox.find? (OutboxRow.leasedBy eventId workerId) = some row := by
  constructor
  · rintro ⟨row, hrow, hstatus, howner⟩
    refine Option.isSome_iff_exists.mp (List.find?_isSome.mpr ⟨row, mem_of_row hrow, ?_⟩)
    exact OutboxRow.leasedBy_iff.mpr ⟨eventId_of_row hrow, hstatus, howner⟩
  · rintro ⟨row, hfind⟩
    exact ⟨row, find_leasedBy hfind⟩

/-- The database takes the text as a parameter. -/
def OutboxBackend.Binds [PyFloat F] (backend : OutboxBackend F V T) (text : Str) : Prop :=
  backend.format.bind text = .ok ()

/-- The database takes what the operation that ends a lease hands it, and a
rescheduled event becomes available at a time that can be written. -/
def OutboxBackend.Accepts [PyFloat F] (backend : OutboxBackend F V T) (now : Instant) :
    OutboxOperation F → Prop
  | .markDelivered eventId workerId => backend.Binds eventId ∧ backend.Binds workerId
  | .reschedule eventId workerId error delay => backend.Binds (errorText error) ∧
      (backend.Binds eventId ∧ backend.Binds workerId) ∧
      (now.addMicros (max 0 delay).toNat).isSome
  | .deadLetter eventId workerId error => backend.Binds (errorText error) ∧
      backend.Binds eventId ∧ backend.Binds workerId
  | _ => True

section

variable {α : Type} {eventId workerId : Str} {now : Instant} {t : OutboxTables V T}

/-- An event that is leased is leased in one row. -/
theorem isOk_settleLease {change : OutboxTables V T → (OutboxRow V T → Bool) → OutboxTables V T} :
    (settleLease eventId workerId change t).1.isOk = true ↔ t.LeasedTo eventId workerId := by
  constructor
  · intro h
    obtain ⟨u, t', hok⟩ := PyM.exists_of_isOk h
    exact (settleLease_ok hok).2
  · rintro ⟨row, hrow, hstatus, howner⟩
    have hids : t.outbox.countP (OutboxRow.leasedBy eventId workerId) =
        (t.outbox.map OutboxRow.eventId).count eventId := by
      rw [List.count, List.countP_map]
      refine List.countP_congr fun r hr => ?_
      rw [leasedBy_eq_of_row hrow hstatus howner hr]
      simp
    have hcount : t.outbox.countP (OutboxRow.leasedBy eventId workerId) = 1 := by
      rw [hids]
      refine List.count_eq_one_of_mem t.eventIds ?_
      rw [← eventId_of_row hrow]
      exact List.mem_map_of_mem (mem_of_row hrow)
    rw [settleLease, PyM.get_bind, if_pos hcount]
    rfl

theorem isOk_ofExcept_unit {σ : Type} {r : Except PyExc Unit} {f : Unit → PyM σ α} {s : σ} :
    ((PyM.ofExcept r >>= f) s).1.isOk = true ↔ r = .ok () ∧ (f () s).1.isOk = true := by
  rw [PyM.isOk_ofExcept_bind]
  exact ⟨fun ⟨⟨⟩, h⟩ => h, fun h => ⟨(), h⟩⟩

theorem bindBoth_eq_ok {check : Str → Except PyExc Unit} {a b : Str} {u : Unit} :
    (do check a; check b) = .ok u ↔ check a = .ok () ∧ check b = .ok () := by
  rw [except_bind_eq_ok]
  constructor
  · rintro ⟨⟨⟩, ha, hb⟩
    exact ⟨ha, hb⟩
  · rintro ⟨ha, hb⟩
    exact ⟨(), ha, hb⟩

theorem elim_eq_ok {r : Option Instant} {e : PyExc} :
    (∃ available, r.elim (.error e) Except.ok = .ok available) ↔ r.isSome := by
  cases r with
  | none => simp
  | some available => simp

variable [PyFloat F]

theorem isOk_sqlite_deadLetter {error : Str} {t : OutboxTables Str Str} :
    (SqliteOutboxStore.deadLetter now eventId workerId error t).1.isOk = true ↔
      (bindText (errorText error) = .ok () ∧ bindText eventId = .ok () ∧
        bindText workerId = .ok ()) ∧ t.LeasedTo eventId workerId := by
  have hmove : ∀ row, (SqliteOutboxStore.moveToDeadLetters now eventId error row t).1.isOk = true ↔
      bindText (errorText error) = .ok () := by
    intro row
    rw [SqliteOutboxStore.moveToDeadLetters, PyM.isOk_transaction, isOk_ofExcept_unit]
    exact and_iff_left rfl
  rw [SqliteOutboxStore.deadLetter, SqliteOutboxStore.leasedRow, PyM.bind_assoc,
    isOk_ofExcept_unit, SqliteOutboxStore.bindIds, bindBoth_eq_ok, PyM.bind_assoc, PyM.get_bind,
    leasedTo_iff_find]
  cases hfind : t.outbox.find? (OutboxRow.leasedBy eventId workerId) with
  | none => simp [PyM.bind_of_error (PyM.raise_apply _ _), Except.isOk, Except.toBool]
  | some row =>
    rw [PyM.pure_bind, hmove row]
    simp [and_comm]

omit [PyFloat F] in
theorem isOk_postgres_deadLetter {error : Str} {t : OutboxTables (Json F) Instant} :
    (PostgresOutboxStore.deadLetter now eventId workerId error t).1.isOk = true ↔
      (pgText (errorText error) = .ok () ∧ pgText eventId = .ok () ∧ pgText workerId = .ok ()) ∧
        t.LeasedTo eventId workerId := by
  rw [PostgresOutboxStore.deadLetter, PyM.isOk_transaction, isOk_ofExcept_unit,
    isOk_ofExcept_unit, PostgresOutboxStore.bindIds, bindBoth_eq_ok, PyM.get_bind,
    leasedTo_iff_find, and_assoc]
  cases hfind : t.outbox.find? (OutboxRow.leasedBy eventId workerId) with
  | none => simp [Except.isOk, Except.toBool]
  | some row =>
    dsimp only
    rw [PyM.isOk_bind_of_isOk fun _ _ => rfl]
    simp [Except.isOk, Except.toBool]

/-- An operation that ends a lease returns exactly when the database takes what
it is handed, and the lease is there. -/
theorem OutboxBackend.perform_isOk_iff {backend : OutboxBackend F V T} {op : OutboxOperation F}
    (hop : op.settles = some (eventId, workerId)) :
    (backend.perform now op t).1.isOk = true ↔
      backend.Accepts now op ∧ t.LeasedTo eventId workerId := by
  cases op with
  -- these two end no lease
  | enqueue event => cases hop
  | claim w limit leaseSeconds destination => cases hop
  | markDelivered id w =>
    cases hop
    cases backend with
    | sqlite order =>
      rw [perform, PyM.isOk_bind_of_isOk fun _ _ => rfl, SqliteOutboxStore.markDelivered,
        PyM.isOk_transaction, isOk_ofExcept_unit, SqliteOutboxStore.bindIds, bindBoth_eq_ok,
        isOk_settleLease]
      rfl
    | postgres driver order returning =>
      rw [perform, PyM.isOk_bind_of_isOk fun _ _ => rfl, PostgresOutboxStore.markDelivered,
        PyM.isOk_transaction, isOk_ofExcept_unit, PostgresOutboxStore.bindIds, bindBoth_eq_ok,
        isOk_settleLease]
      rfl
  | reschedule id w error delay =>
    cases hop
    cases backend with
    | sqlite order =>
      rw [perform, PyM.isOk_bind_of_isOk fun _ _ => rfl, SqliteOutboxStore.reschedule,
        PyM.isOk_ofExcept_bind]
      simp only [PyM.isOk_transaction, isOk_ofExcept_unit, SqliteOutboxStore.bindIds,
        bindBoth_eq_ok, isOk_settleLease, exists_and_right, SqliteOutboxStore.availableAfter,
        elim_eq_ok]
      -- SQLite computes the time before it binds anything, PostgreSQL after
      constructor
      · rintro ⟨htime, herror, hids, hleased⟩
        exact ⟨⟨herror, hids, htime⟩, hleased⟩
      · rintro ⟨⟨herror, hids, htime⟩, hleased⟩
        exact ⟨htime, herror, hids, hleased⟩
    | postgres driver order returning =>
      rw [perform, PyM.isOk_bind_of_isOk fun _ _ => rfl, PostgresOutboxStore.reschedule,
        PyM.isOk_transaction, isOk_ofExcept_unit, isOk_ofExcept_unit,
        PostgresOutboxStore.bindIds, bindBoth_eq_ok, PyM.isOk_ofExcept_bind]
      simp only [isOk_settleLease, exists_and_right, PostgresOutboxStore.inRange, elim_eq_ok]
      constructor
      · rintro ⟨herror, hids, htime, hleased⟩
        exact ⟨⟨herror, hids, htime⟩, hleased⟩
      · rintro ⟨⟨herror, hids, htime⟩, hleased⟩
        exact ⟨herror, hids, htime, hleased⟩
  | deadLetter id w error =>
    cases hop
    cases backend with
    | sqlite order =>
      rw [perform, PyM.isOk_bind_of_isOk fun _ _ => rfl, isOk_sqlite_deadLetter]
      rfl
    | postgres driver order returning =>
      rw [perform, PyM.isOk_bind_of_isOk fun _ _ => rfl, isOk_postgres_deadLetter]
      rfl

end

namespace OutboxWorker

variable [PyFloat F] {fleet : OutboxFleet F W V T} {i : ℕ} {event : OutboxEvent F}
  {s : OutboxWorld F W V T} {result : Except PyExc Unit}

theorem transact_isOk_iff {op : OutboxOperation F} : (transact fleet op s).1.isOk = true ↔
    (fleet.database s.outside).1.isOk = true ∧
      (fleet.backend.perform s.now op s.tables).1.isOk = true := by
  rcases hdatabase : fleet.database s.outside with ⟨e | _, w⟩
  · have heq : OutboxWorld.onOutside fleet.database s = (.error e, { s with outside := w }) := by
      rw [OutboxWorld.onOutside, PyM.on, hdatabase]
    rw [transact, PyM.bind_of_error heq]
    simp [Except.isOk, Except.toBool]
  · have heq : OutboxWorld.onOutside fleet.database s = (.ok (), { s with outside := w }) := by
      rw [OutboxWorld.onOutside, PyM.on, hdatabase]
    rw [transact, PyM.bind_of_ok heq, PyM.get_bind, PyM.on]
    simp [Except.isOk, Except.toBool]

/-- The event is still leased to the worker. -/
def StillLeased (fleet : OutboxFleet F W V T) (i : ℕ) (event : OutboxEvent F)
    (s : OutboxWorld F W V T) : Prop :=
  s.tables.LeasedTo event.eventId (fleet.workers i).workerId

/-- The database works, and takes what the operation hands it. -/
def Accepted (fleet : OutboxFleet F W V T) (now : Instant) (outside : W)
    (op : OutboxOperation F) : Prop :=
  (fleet.database outside).1.isOk = true ∧ fleet.backend.Accepts now op

/-- What became of the delivery can be recorded: the handler returned, or what
ended the delivery is an `Exception` whose text prints, and before another
attempt the delay can be computed; and the database takes the record. -/
def Recordable (fleet : OutboxFleet F W V T) (i : ℕ) (event : OutboxEvent F)
    (result : Except PyExc Unit) (s : OutboxWorld F W V T) : Prop :=
  let workerId := (fleet.workers i).workerId
  match result with
  | .ok _ => Accepted fleet s.now s.outside (.markDelivered event.eventId workerId)
  | .error e => e.isException = true ∧ ∃ text, e.text = some text ∧
      if event.attempts ≥ (fleet.workers i).maxDeliveryAttempts then
        Accepted fleet s.now s.outside (.deadLetter event.eventId workerId text)
      else ∃ (delay : ℕ) (outside : W),
        (fleet.workers i).retryPolicy.delay (max 1 event.attempts) s.outside = (.ok delay, outside) ∧
        Accepted fleet s.now outside
          (.reschedule event.eventId workerId (e.className ++ lit ": " ++ text) delay)

omit [PyFloat F] in
theorem errorString_eq_ok {e : PyExc} {text : Str} :
    errorString e = .ok text ↔ e.text = some text := by
  unfold errorString
  cases e.text with
  | none => simp
  | some found => simp

/-- One transaction settles the event. -/
theorem transact_settling_isOk_iff {op : OutboxOperation F}
    (hop : op.settles = some (event.eventId, (fleet.workers i).workerId)) :
    (transact fleet op s).1.isOk = true ↔
      StillLeased fleet i event s ∧ Accepted fleet s.now s.outside op := by
  rw [transact_isOk_iff, fleet.backend.perform_isOk_iff hop, ← and_assoc, and_comm]
  rfl

theorem finish_isOk_iff : (finish fleet i event s).1.isOk = true ↔
    StillLeased fleet i event s ∧ Accepted fleet s.now s.outside
      (.markDelivered event.eventId (fleet.workers i).workerId) := by
  rw [finish, PyM.isOk_bind_of_isOk fun _ _ => rfl]
  exact transact_settling_isOk_iff rfl

theorem bury_isOk_iff {e : PyExc} : (bury fleet i event e s).1.isOk = true ↔
    ∃ text, e.text = some text ∧ StillLeased fleet i event s ∧ Accepted fleet s.now s.outside
      (.deadLetter event.eventId (fleet.workers i).workerId text) := by
  rw [bury, PyM.isOk_ofExcept_bind]
  refine exists_congr fun text => and_congr errorString_eq_ok ?_
  rw [PyM.isOk_bind_of_isOk fun _ _ => rfl]
  exact transact_settling_isOk_iff rfl

theorem postpone_isOk_iff {e : PyExc} : (postpone fleet i event e s).1.isOk = true ↔
    ∃ (delay : ℕ) (outside : W),
      (fleet.workers i).retryPolicy.delay (max 1 event.attempts) s.outside = (.ok delay, outside) ∧
      ∃ text, e.text = some text ∧ StillLeased fleet i event s ∧ Accepted fleet s.now outside
        (.reschedule event.eventId (fleet.workers i).workerId (e.className ++ lit ": " ++ text)
          delay) := by
  rcases hdelay : (fleet.workers i).retryPolicy.delay (max 1 event.attempts) s.outside with
    ⟨exc | delay, outside⟩
  · have heq : OutboxWorld.onOutside ((fleet.workers i).retryPolicy.delay (max 1 event.attempts)) s =
        (.error exc, { s with outside := outside }) := by
      rw [OutboxWorld.onOutside, PyM.on, hdelay]
    rw [postpone, PyM.bind_of_error heq]
    simp [Except.isOk, Except.toBool]
  · have heq : OutboxWorld.onOutside ((fleet.workers i).retryPolicy.delay (max 1 event.attempts)) s =
        (.ok delay, { s with outside := outside }) := by
      rw [OutboxWorld.onOutside, PyM.on, hdelay]
    rw [postpone, PyM.bind_of_ok heq, PyM.isOk_ofExcept_bind]
    have hsettle : ∀ text, ((transact fleet (.reschedule event.eventId (fleet.workers i).workerId
        (e.className ++ lit ": " ++ text) delay) >>= fun _ => pure Outcome.retried)
          { s with outside := outside }).1.isOk = true ↔
        StillLeased fleet i event s ∧ Accepted fleet s.now outside
          (.reschedule event.eventId (fleet.workers i).workerId (e.className ++ lit ": " ++ text)
            delay) := by
      intro text
      rw [PyM.isOk_bind_of_isOk fun _ _ => rfl]
      exact transact_settling_isOk_iff (s := { s with outside := outside }) rfl
    constructor
    · rintro ⟨text, htext, h⟩
      exact ⟨delay, outside, rfl, text, errorString_eq_ok.mp htext, (hsettle text).mp h⟩
    · rintro ⟨delay', outside', hsame, text, htext, h⟩
      cases hsame
      exact ⟨text, errorString_eq_ok.mpr htext, (hsettle text).mpr h⟩

/-- Settling an event returns exactly when it is still leased to the worker,
and what became of the delivery can be recorded. -/
theorem settle_isOk_iff : ((settle fleet i event result).run s).1.isOk = true ↔
    StillLeased fleet i event s ∧ Recordable fleet i event result s := by
  cases result with
  | ok _ => exact finish_isOk_iff
  | error e =>
    by_cases hexception : e.isException = false
    · -- what is no `Exception` ends the pass
      rw [settle, if_pos hexception]
      simp [Recordable, hexception, Except.isOk, Except.toBool]
    have htrue : e.isException = true := by simpa using hexception
    by_cases hlast : event.attempts ≥ (fleet.workers i).maxDeliveryAttempts
    · rw [settle, if_neg hexception, if_pos hlast]
      refine bury_isOk_iff.trans ?_
      simp only [Recordable, if_pos hlast]
      constructor
      · rintro ⟨text, htext, hleased, haccepted⟩
        exact ⟨hleased, htrue, text, htext, haccepted⟩
      · rintro ⟨hleased, -, text, htext, haccepted⟩
        exact ⟨text, htext, hleased, haccepted⟩
    · rw [settle, if_neg hexception, if_neg hlast]
      refine postpone_isOk_iff.trans ?_
      simp only [Recordable, if_neg hlast]
      constructor
      · rintro ⟨delay, outside, hdelay, text, htext, hleased, haccepted⟩
        exact ⟨hleased, htrue, text, htext, delay, outside, hdelay, haccepted⟩
      · rintro ⟨hleased, -, text, htext, delay, outside, hdelay, haccepted⟩
        exact ⟨delay, outside, hdelay, text, htext, hleased, haccepted⟩

/-! ### The turns of a pass -/

/-- The delivery of an event, which `run_once` catches. -/
def delivery (fleet : OutboxFleet F W V T) (i : ℕ) (event : OutboxEvent F) :
    Proc (OutboxWorld F W V T) PyExc Unit :=
  retryCall (fleet.workers i).retryPolicy (pause fleet i) (deliver fleet i event)

/-- The step the delivery of an event begins with, how the delivery ended, and
the step that settles the event. -/
structure Turn (F : Type) where
  event : OutboxEvent F
  start : ℕ
  result : Except PyExc Unit
  settling : ℕ

/-- The event was settled as delivered, rescheduled or dead-lettered. -/
def Turn.Settled (fleet : OutboxFleet F W V T) (i : ℕ) (found : ℕ → OutboxWorld F W V T)
    (turn : Turn F) : Prop :=
  ((settle fleet i turn.event turn.result).run (found turn.settling)).1.isOk = true

/-- The turns of the pass that finds these states: the loop of `run_once`,
which what settling an event raises ends. -/
def turns (fleet : OutboxFleet F W V T) (i : ℕ) (found : ℕ → OutboxWorld F W V T) :
    ℕ → List (OutboxEvent F) → List (Turn F)
  | _, [] => []
  | n, event :: events =>
    let tried := (delivery fleet i event).amid found n
    let settled := (settle fleet i event tried.1).amid found tried.2
    ⟨event, n, tried.1, tried.2⟩ ::
      if settled.1.isOk = true then turns fleet i found settled.2 events else []

variable {found : ℕ → OutboxWorld F W V T} {n : ℕ} {events : List (OutboxEvent F)}

/-- Settling is one step. -/
theorem settle_amid : ((settle fleet i event result).amid found n).1 =
    ((settle fleet i event result).run (found n)).1 := by
  cases result with
  | ok _ => rfl
  | error e =>
    rw [settle]
    split
    · rfl
    · split <;> rfl

/-- The loop returns when every event has had its turn and was settled. -/
theorem deliverAll_isOk_iff {summary : RunSummary} :
    ((deliverAll fleet i events summary).amid found n).1.isOk = true ↔
      (turns fleet i found n events).map Turn.event = events ∧
        ∀ turn ∈ turns fleet i found n events, turn.Settled fleet i found := by
  induction events generalizing n summary with
  | nil => simp [turns, deliverAll, Proc.amid, pure, Except.isOk, Except.toBool]
  | cons event events ih =>
    rw [deliverAll, Proc.amid_bind, Proc.amid_attempt, turns]
    show ((settle fleet i event ((delivery fleet i event).amid found n).1 >>= fun outcome =>
      deliverAll fleet i events (RunSummary.count summary outcome)).amid found
        ((delivery fleet i event).amid found n).2).1.isOk = true ↔ _
    rw [Proc.amid_bind]
    rcases htried : (delivery fleet i event).amid found n with ⟨r, m⟩
    have hsettled : (⟨event, n, r, m⟩ : Turn F).Settled fleet i found ↔
        ((settle fleet i event r).amid found m).1.isOk = true := by
      rw [settle_amid]
      rfl
    rcases hsettle : (settle fleet i event r).amid found m with ⟨e | outcome, k⟩
    · -- what it raises ends the loop
      rw [hsettle] at hsettled
      have hnot : ¬ (⟨event, n, r, m⟩ : Turn F).Settled fleet i found := by
        rw [hsettled]
        simp [Except.isOk, Except.toBool]
      constructor
      · intro h
        cases h
      · rintro ⟨-, hall⟩
        exact absurd (hall _ List.mem_cons_self) hnot
    · rw [hsettle] at hsettled
      have hok : (⟨event, n, r, m⟩ : Turn F).Settled fleet i found := hsettled.mpr rfl
      show ((deliverAll fleet i events (RunSummary.count summary outcome)).amid found k).1.isOk =
        true ↔ _
      rw [ih, if_pos (by rfl)]
      simp [hok]

/-! ### The handlers -/

/-- A step that invokes the handler, or that its breaker refuses. -/
def Tries (i : ℕ) (event : OutboxEvent F) (s t : OutboxWorld F W V T) : Prop :=
  (∃ error, t.trace = (i, .invoked event error) :: s.trace) ∨
    ∃ breaker, t.trace = (i, .refused event breaker) :: s.trace

omit [PyFloat F] in
theorem tries_invoke (handler : OutboxEvent F → PyM W Unit) :
    Tries i event s (invoke i event handler s).2 := by
  rcases hhandler : handler event s.outside with ⟨e | u, w⟩
  all_goals
    rw [invoke, OutboxWorld.onOutside, PyM.on, hhandler]
    exact .inl ⟨_, rfl⟩

/-- The delivery of an event that has a handler tries it. -/
theorem takes_delivery (hhandler : (fleet.workers i).handlers event.destination ≠ none) :
    Proc.Takes (Tries i event) found n (delivery fleet i event) := by
  obtain ⟨handler, hhandler⟩ := Option.ne_none_iff_exists'.mp hhandler
  have hdeliver : Proc.Takes (Tries i event) found n (deliver fleet i event) := by
    rw [deliver, hhandler]
    dsimp only
    cases (fleet.workers i).circuitBreakers event.destination with
    | none => exact Proc.takes_atomic (tries_invoke handler)
    | some b =>
      refine Proc.takes_step ?_
      rcases hbefore : (fleet.breakers b).beforeCall (found n).monotonic ((found n).breakers b) with
        ⟨e | u, memory⟩
      · -- the breaker refuses the call
        refine .inl (.inr ⟨(found n).breakers b, ?_⟩)
        rw [askBreaker, PyM.get_bind, PyM.tryExcept, onBreaker, PyM.on, hbefore]
        rfl
      · refine .inr ⟨u, ?_, ?_⟩
        · rw [askBreaker, PyM.get_bind, PyM.tryExcept, onBreaker, PyM.on, hbefore]
        · exact Proc.takes_bind _ (Proc.takes_attempt (Proc.takes_atomic (tries_invoke handler)))
  obtain ⟨attempts, hattempts⟩ : ∃ k, (fleet.workers i).retryPolicy.maxAttempts = k + 1 :=
    Nat.exists_eq_succ_of_ne_zero (Nat.one_le_iff_ne_zero.mp
      (fleet.workers i).retryPolicy.maxAttempts_pos)
  rw [delivery, retryCall, hattempts]
  exact Proc.takes_bind _ (Proc.takes_attempt hdeliver)

/-! ### A pass that finishes its batch -/

/-- Every event has had its turn, in which its handler was tried, and those
that were still leased to the worker were settled. -/
structure Finished (fleet : OutboxFleet F W V T) (i : ℕ) (found : ℕ → OutboxWorld F W V T)
    (n : ℕ) (events : List (OutboxEvent F)) : Prop where
  came : (turns fleet i found n events).map Turn.event = events
  tried : ∀ turn ∈ turns fleet i found n events,
    (fleet.workers i).handlers turn.event.destination ≠ none →
      Proc.Takes (Tries i turn.event) found turn.start (delivery fleet i turn.event)
  settled : ∀ turn ∈ turns fleet i found n events,
    StillLeased fleet i turn.event (found turn.settling) → turn.Settled fleet i found

/-- No event but the last has lost its lease when it is settled, and what
became of a delivery can be recorded, where the lease is still there. -/
def Undisturbed (fleet : OutboxFleet F W V T) (i : ℕ) (found : ℕ → OutboxWorld F W V T)
    (n : ℕ) (events : List (OutboxEvent F)) : Prop :=
  ∀ k turn, (turns fleet i found n events)[k]? = some turn →
    (k + 1 < events.length → StillLeased fleet i turn.event (found turn.settling)) ∧
    (StillLeased fleet i turn.event (found turn.settling) →
      Recordable fleet i turn.event turn.result (found turn.settling))

theorem turn_settled_iff {turn : Turn F} : turn.Settled fleet i found ↔
    StillLeased fleet i turn.event (found turn.settling) ∧
      Recordable fleet i turn.event turn.result (found turn.settling) := settle_isOk_iff

/-- The law of the loop, by induction on the events. -/
theorem finished_iff_undisturbed :
    Finished fleet i found n events ↔ Undisturbed fleet i found n events := by
  induction events generalizing n with
  | nil =>
    constructor
    · intro _ k turn hturn
      cases hturn
    · intro _
      exact ⟨rfl, fun _ _ h => takes_delivery h, fun turn hturn => by cases hturn⟩
  | cons event events ih =>
    rcases htried : (delivery fleet i event).amid found n with ⟨r, m⟩
    set turn : Turn F := ⟨event, n, r, m⟩ with hturn
    set k := ((settle fleet i event r).amid found m).2 with hk
    have hsettled : turn.Settled fleet i found ↔
        ((settle fleet i event r).amid found m).1.isOk = true := by
      rw [settle_amid]
      rfl
    by_cases hok : turn.Settled fleet i found
    · have hturns : turns fleet i found n (event :: events) =
          turn :: turns fleet i found k events := by
        rw [turns, htried]
        exact congrArg (List.cons turn) (if_pos (hsettled.mp hok))
      have hfirst := turn_settled_iff.mp hok
      constructor
      · rintro ⟨hcame, -, hall⟩
        rw [hturns] at hcame hall
        have hrest := ih.mp ⟨(List.cons.inj hcame).2, fun _ _ h => takes_delivery h,
          fun t ht => hall t (List.mem_cons_of_mem turn ht)⟩
        intro j t ht
        rw [hturns] at ht
        cases j with
        | zero =>
          cases ht
          exact ⟨fun _ => hfirst.1, fun _ => hfirst.2⟩
        | succ j =>
          obtain ⟨hlease, hrecord⟩ := hrest j t ht
          exact ⟨fun hlt => hlease (Nat.lt_of_succ_lt_succ hlt), hrecord⟩
      · intro hall
        have hrest : Finished fleet i found k events := by
          refine ih.mpr fun j t ht => ?_
          obtain ⟨hlease, hrecord⟩ := hall (j + 1) t (by rw [hturns]; exact ht)
          exact ⟨fun hlt => hlease (Nat.succ_lt_succ hlt), hrecord⟩
        refine ⟨?_, fun _ _ h => takes_delivery h, ?_⟩
        · rw [hturns, List.map_cons, hrest.came]
        · rw [hturns]
          intro t ht hleased
          rcases List.mem_cons.mp ht with rfl | ht
          · exact hok
          · exact hrest.settled t ht hleased
    · -- the loop ends here, and the events after this one are not tried
      have hturns : turns fleet i found n (event :: events) = [turn] := by
        rw [turns, htried]
        exact congrArg (List.cons turn) (if_neg fun h => hok (hsettled.mpr h))
      constructor
      · rintro ⟨hcame, -, hall⟩
        rw [hturns] at hcame hall
        have hnil : events = [] := ((List.cons.inj hcame).2).symm
        intro j t ht
        rw [hturns] at ht
        obtain ⟨rfl, rfl⟩ : j = 0 ∧ turn = t := by
          cases j with
          | zero => exact ⟨rfl, Option.some.inj ht⟩
          | succ j => cases ht
        constructor
        · intro hlt
          rw [hnil] at hlt
          exact absurd hlt (lt_irrefl 1)
        · exact fun hleased => absurd (hall turn List.mem_cons_self hleased) hok
      · intro hall
        obtain ⟨hlease, hrecord⟩ := hall 0 turn (by rw [hturns]; rfl)
        have hlost : ¬ StillLeased fleet i turn.event (found turn.settling) :=
          fun hleased => hok (turn_settled_iff.mpr ⟨hleased, hrecord hleased⟩)
        have hnil : events = [] := by
          cases events with
          | nil => rfl
          | cons e es => exact absurd (hlease (Nat.succ_lt_succ (Nat.succ_pos _))) hlost
        refine ⟨?_, fun _ _ h => takes_delivery h, ?_⟩
        · rw [hturns, hnil]
          rfl
        · rw [hturns]
          intro t ht hleased
          obtain rfl := List.mem_singleton.mp ht
          exact absurd hleased hlost

/-- `run_once` returns when it has claimed its batch, and every event of it
has had its turn and was settled. -/
theorem runOnce_isOk_iff {limit : Int} {destination : Str} :
    ((runOnce fleet i limit destination).amid found 0).1.isOk = true ↔
      ∃ events, (take fleet i limit destination (found 0)).1 = .ok events ∧
        (turns fleet i found 1 events).map Turn.event = events ∧
        ∀ turn ∈ turns fleet i found 1 events, turn.Settled fleet i found := by
  have hrun : (runOnce fleet i limit destination).amid found 0 = _ := Proc.amid_step _ _ _
  rw [hrun]
  cases htake : (take fleet i limit destination (found 0)).1 with
  | error e => simp [Except.isOk, Except.toBool]
  | ok events => simp [deliverAll_isOk_iff]

/-- A pass finishes the batch it claims exactly when it is undisturbed. -/
theorem pass_finished_iff (fleet : OutboxFleet F W V T) (i : ℕ) (limit : Int) (destination : Str)
    (found : ℕ → OutboxWorld F W V T) :
    (∀ events, (take fleet i limit destination (found 0)).1 = .ok events →
      Finished fleet i found 1 events) ↔
    ∀ events, (take fleet i limit destination (found 0)).1 = .ok events →
      Undisturbed fleet i found 1 events :=
  forall₂_congr fun _ _ => finished_iff_undisturbed

/-- Every pass of a worker in a fleet is such a pass. -/
theorem ended_pass {pool : Pool ℕ (OutboxWorld F W V T) PyExc RunSummary}
    (h : FleetReach fleet pool) {r : Except PyExc RunSummary} (hdone : pool.procs i = some (.done r)) :
    ∃ limit destination found, ((runOnce fleet i limit destination).amid found 0).1 = r := by
  obtain ⟨p, found, ⟨limit, destination, rfl⟩, hr⟩ := h.amid hdone
  exact ⟨limit, destination, found, hr⟩

/-! ### A lost lease -/

/-- Two workers whose handlers return at once. -/
def rivalFleet : OutboxFleet Half Unit Str Str where
  backend := sampleBackend
  database := return ()
  workers i := { sampleWorker with
    workerId := if i = 0 then lit "w" else lit "v"
    circuitBreakers := fun _ => none }
  breakers := sampleFleet.breakers

def enqueueSample (event : OutboxEvent Half) (s : OutboxWorld Half Unit Str Str) :
    OutboxWorld Half Unit Str Str :=
  { s with tables := (rivalFleet.backend.perform s.now (.enqueue event) s.tables).2 }

/-- Two events are enqueued. -/
def batchWorld : OutboxWorld Half Unit Str Str :=
  enqueueSample (sampleEvent (lit "f") (lit "siem") (lit "l"))
    (enqueueSample (sampleEvent (lit "e") (lit "siem") (lit "k"))
      { sampleWorld with tables := .empty })

/-- The first worker claims both events, and has invoked the first handler. -/
def slowPass : Proc (OutboxWorld Half Unit Str Str) PyExc RunSummary × OutboxWorld Half Unit Str Str :=
  (runOnce rivalFleet 0 10 []).after 2 batchWorld

/-- Its leases have run out, and the other worker claims the first event. -/
def overtaken : OutboxWorld Half Unit Str Str :=
  ((runOnce rivalFleet 1 1 []).after 1 { slowPass.2 with now := sampleInstant 100 }).2

/-- What the steps of the first worker find. -/
def overtakenFound : ℕ → OutboxWorld Half Unit Str Str
  | 0 => batchWorld
  | 1 => ((runOnce rivalFleet 0 10 []).after 1 batchWorld).2
  | _ => overtaken

theorem overtaken_reach : ∃ procs, FleetReach rivalFleet ⟨(slowPass.1.after 1 overtaken).2, procs⟩ ∧
    procs 0 = some (slowPass.1.after 1 overtaken).1 := by
  have hinit : FleetReach rivalFleet ⟨{ sampleWorld with tables := .empty }, fun _ => none⟩ :=
    .init ⟨rfl, rfl⟩
  have hfirst : FleetReach rivalFleet ⟨enqueueSample (sampleEvent (lit "e") (lit "siem") (lit "k"))
      { sampleWorld with tables := .empty }, fun _ => none⟩ :=
    hinit.env (.enqueued _ sampleEvent_created)
  have hsecond : FleetReach rivalFleet ⟨batchWorld, fun _ => none⟩ :=
    hfirst.env (.enqueued _ ⟨lit "audit", lit "siem", [], lit "l", lit "f", [], sampleInstant 0,
      sampleInstant 0, rfl⟩)
  have hslow := (hsecond.start (i := 0) (p := runOnce rivalFleet 0 10 []) rfl ⟨10, [], rfl⟩).after 2
  have hlate := hslow.env (.elapsed (sampleInstant 100) .one () (by decide))
  have hother := (hlate.start (i := 1) (p := runOnce rivalFleet 1 1 []) rfl ⟨1, [], rfl⟩).after 1
  rw [Function.update_comm (by decide)] at hother
  exact ⟨_, hother.after 1, Function.update_self 0 _ _⟩

/-- The events that the first worker claimed. -/
def batch : List (OutboxEvent Half) :=
  match (take rivalFleet 0 10 [] batchWorld).1 with
  | .ok events => events
  | .error _ => []

/-- Marking the first event as delivered raises, and the second is never
tried, though the worker still leases it. -/
theorem unfinished_pass :
    (∃ procs, FleetReach rivalFleet ⟨(slowPass.1.after 1 overtaken).2, procs⟩ ∧
      procs 0 = some (.done (.error (.keyError [lit "e"])))) ∧
    ((runOnce rivalFleet 0 10 []).amid overtakenFound 0).1 = .error (.keyError [lit "e"]) ∧
    ¬ ∀ events, (take rivalFleet 0 10 [] (overtakenFound 0)).1 = .ok events →
      Finished rivalFleet 0 overtakenFound 1 events := by
  have hend : (slowPass.1.after 1 overtaken).1 = .done (.error (.keyError [lit "e"])) := by
    rfl
  have hclaim : (take rivalFleet 0 10 [] batchWorld).1 = .ok batch := by
    have hok : (take rivalFleet 0 10 [] batchWorld).1.isOk = true := by decide +kernel
    rw [batch]
    cases htake : (take rivalFleet 0 10 [] batchWorld).1 with
    | ok events => rfl
    | error e =>
      rw [htake] at hok
      cases hok
  have hlength : batch.length = 2 := by decide +kernel
  have hturns : (turns rivalFleet 0 overtakenFound 1 batch).length = 1 := by decide +kernel
  refine ⟨?_, ?_, fun hclaimed => ?_⟩
  · obtain ⟨procs, hreach, hproc⟩ := overtaken_reach
    exact ⟨procs, hreach, hproc.trans (congrArg some hend)⟩
  · rfl
  · have hcame := congrArg List.length (hclaimed batch hclaim).came
    rw [List.length_map, hturns, hlength] at hcame
    cases hcame

end OutboxWorker

end AgentRoi
