/-
Emitting every event to every `OutboxEventSink` of one outbox store.

* `FansOut` — nothing is raised, each sink has a row of its own for each
  event, and a second emission adds nothing;
* `OneSink` — no sink, no event, or a single sink whose events differ in their
  trimmed ids and can be stored;
* `Emissions`, `Emits` — what a sequence of emissions does to the tables, and
  the programs that perform one;
* `fan_out_iff` — events fan out exactly when there is one sink;
* `second_sink_loses` — two sinks and one event.
-/
import AgentRoi.EventSinks
import Mathlib.Algebra.Order.BigOperators.Group.List
import Mathlib.Data.List.ProdSigma

namespace AgentRoi

open OutboxTables RowTable SinkWorld

variable {F V T : Type}

/-- A sink and an event emitted to it. -/
abbrev SinkPair (F : Type) : Type := OutboxEventSink × CloudEvent F

/-- A row is that of an event at a sink. -/
def RowFor [PyFloat F] (fmt : OutboxFormat F V T) (pair : SinkPair F) (row : OutboxRow V T) : Prop :=
  row.destination = strip pair.1.destination ∧ row.topic = strip pair.1.topic ∧
    fmt.writePayload (payloadText (jsonableDict pair.2.toDict)) = .ok row.payloadJson

structure FansOut [PyFloat F] (backend : OutboxBackend F V T) (sinks : List OutboxEventSink)
    (events : List (CloudEvent F)) (program : PyM (SinkWorld V T) Unit) (s : SinkWorld V T) :
    Prop where
  returns : (program s).1 = .ok ()
  rows : ∃ pairs rows, pairs.Perm (sinks ×ˢ events) ∧
    (program s).2.tables.outbox = s.tables.outbox ++ rows ∧
    List.Forall₂ (RowFor backend.format) pairs rows
  again : ∀ sink ∈ sinks, ∀ event ∈ events, ∀ readings,
    (sink.emit backend event { (program s).2 with readings := readings }).2.tables =
      (program s).2.tables

/-- What the checks of `create` and the parameters of the insertion ask of an
event and of the sink it is emitted to. -/
structure Acceptable [PyFloat F] (fmt : OutboxFormat F V T) (sink : OutboxEventSink)
    (event : CloudEvent F) : Prop where
  topic : isBlank sink.topic = false
  destination : isBlank sink.destination = false
  id : isBlank event.id = false
  bound : ∀ text ∈ [event.id, strip sink.topic, strip sink.destination, strip event.id],
    fmt.bind text = .ok ()
  payload : ∃ v, fmt.writePayload (payloadText (jsonableDict event.toDict)) = .ok v

def OneSink [PyFloat F] (fmt : OutboxFormat F V T) (sinks : List OutboxEventSink)
    (events : List (CloudEvent F)) : Prop :=
  sinks = [] ∨ events = [] ∨ ∃ sink, sinks = [sink] ∧
    (events.map fun event => strip event.id).Nodup ∧ ∀ event ∈ events, Acceptable fmt sink event

/-- PostgreSQL reads the texts `isoformat` writes. -/
def OutboxBackend.ReadsTimes [PyFloat F] : OutboxBackend F V T → Prop
  | .sqlite _ => True
  | .postgres driver _ _ => ∀ instant : Instant, (driver.timestamptz instant.isoformat).isSome

/-- No row is about any of the events. -/
def Unseen (t : OutboxTables V T) (events : List (CloudEvent F)) : Prop :=
  ∀ row ∈ t.outbox, ∀ event ∈ events, row.eventId ≠ event.id ∧
    row.idempotencyKey ≠ strip event.id

variable [PyFloat F] {backend : OutboxBackend F V T} {fmt : OutboxFormat F V T}
  {pair : SinkPair F} {pairs : List (SinkPair F)} {sink : OutboxEventSink} {event : CloudEvent F}
  {reading : EmitReading} {row : OutboxRow V T} {t t' : OutboxTables V T} {s s' : SinkWorld V T}

/-! ### The row of an emission -/

/-- The row an emission inserts. -/
def Written (fmt : OutboxFormat F V T) (pair : SinkPair F) (reading : EmitReading)
    (row : OutboxRow V T) : Prop :=
  ∃ outboxEvent, pair.1.outboxEvent pair.2 reading = .ok outboxEvent ∧
    eventRow fmt outboxEvent = .ok row

/-- The id an emission gives its event. -/
def emittedId (event : CloudEvent F) (reading : EmitReading) : Str :=
  if event.id = [] then reading.uuid else event.id

omit [PyFloat F] in
theorem emittedId_of_ne (h : event.id ≠ []) : emittedId event reading = event.id := if_neg h

omit [PyFloat F] in
theorem requireNonEmpty_eq_ok {name value : Str} {u : Unit} :
    requireNonEmpty name value = .ok u ↔ isBlank value = false := by
  rw [requireNonEmpty]
  cases isBlank value <;> simp

theorem outboxEvent_eq_ok {outboxEvent : OutboxEvent F} :
    sink.outboxEvent event reading = .ok outboxEvent ↔
      isBlank sink.topic = false ∧ isBlank sink.destination = false ∧
      isBlank (emittedId event reading) = false ∧ outboxEvent = {
        eventId := if emittedId event reading = [] then reading.uuid else emittedId event reading
        topic := strip sink.topic
        destination := strip sink.destination
        payload := jsonableDict event.toDict
        idempotencyKey := strip (emittedId event reading)
        status := .pending
        attempts := 0
        availableAtUtc := reading.available.isoformat
        leaseOwner := []
        leaseExpiresAtUtc := []
        lastError := []
        createdAtUtc := reading.created.isoformat
        deliveredAtUtc := [] } := by
  simp only [OutboxEventSink.outboxEvent, OutboxEvent.create, except_bind_eq_ok,
    requireNonEmpty_eq_ok]
  constructor
  · rintro ⟨_, htopic, _, hdestination, _, hkey, h⟩
    cases h
    exact ⟨htopic, hdestination, hkey, rfl⟩
  · rintro ⟨htopic, hdestination, hkey, rfl⟩
    exact ⟨(), htopic, (), hdestination, (), hkey, rfl⟩

omit [PyFloat F] in
theorem ne_nil_of_isBlank {s : Str} (h : isBlank s = false) : s ≠ [] := by
  rintro rfl
  cases h

/-- What the row of an emission holds. -/
theorem Written.columns (h : Written fmt pair reading row) :
    RowFor fmt pair row ∧ row.eventId = emittedId pair.2 reading ∧
      row.identity = (strip pair.1.destination, strip (emittedId pair.2 reading)) := by
  obtain ⟨outboxEvent, hevent, hrow⟩ := h
  obtain ⟨-, -, hkey, rfl⟩ := outboxEvent_eq_ok.mp hevent
  obtain ⟨hid, htopic, hidentity, -, -, -, hpayload⟩ := eventRow_columns hrow
  refine ⟨⟨congrArg Prod.fst hidentity, htopic, hpayload⟩, ?_, hidentity⟩
  exact hid.trans (if_neg (ne_nil_of_isBlank hkey))

/-- What the checks and the insertion ask of the parts of an event. -/
def Insertable (fmt : OutboxFormat F V T) (pair : SinkPair F) (eventId : Str) : Prop :=
  isBlank pair.1.topic = false ∧ isBlank pair.1.destination = false ∧ isBlank eventId = false ∧
    (∀ text ∈ [eventId, strip pair.1.topic, strip pair.1.destination, strip eventId],
      fmt.bind text = .ok ()) ∧
    ∃ v, fmt.writePayload (payloadText (jsonableDict pair.2.toDict)) = .ok v

/-- A format that takes the empty text and every time. -/
structure OutboxFormat.TakesTimes (fmt : OutboxFormat F V T) : Prop where
  bind_nil : fmt.bind [] = .ok ()
  writeTime : ∀ instant : Instant, ∃ time, fmt.writeTime instant.isoformat = .ok time

theorem exists_written (hfmt : fmt.TakesTimes) :
    (∃ row, Written fmt pair reading row) ↔ Insertable fmt pair (emittedId pair.2 reading) := by
  constructor
  · rintro ⟨row, outboxEvent, hevent, hrow⟩
    obtain ⟨htopic, hdestination, hkey, rfl⟩ := outboxEvent_eq_ok.mp hevent
    simp only [eventRow, except_bind_eq_ok, if_neg (ne_nil_of_isBlank hkey)] at hrow
    obtain ⟨_, hid, _, htopic', _, hdestination', v, hv, _, hkey', -⟩ := hrow
    refine ⟨htopic, hdestination, hkey, ?_, v, hv⟩
    simp only [List.mem_cons, List.not_mem_nil, or_false]
    rintro text (rfl | rfl | rfl | rfl)
    · exact hid
    · exact htopic'
    · exact hdestination'
    · exact hkey'
  · rintro ⟨htopic, hdestination, hkey, hbound, v, hv⟩
    simp only [List.mem_cons, List.not_mem_nil, or_false, forall_eq_or_imp, forall_eq] at hbound
    obtain ⟨hid, htopic', hdestination', hkey'⟩ := hbound
    obtain ⟨available, havailable⟩ := hfmt.writeTime reading.available
    obtain ⟨created, hcreated⟩ := hfmt.writeTime reading.created
    have hevent := outboxEvent_eq_ok.mpr ⟨htopic, hdestination, hkey, rfl⟩
    refine ⟨?row, _, hevent, ?written⟩
    case written =>
      simp only [eventRow, if_neg (ne_nil_of_isBlank hkey), hid, htopic', hdestination', hv, hkey',
        havailable, hcreated, hfmt.bind_nil, orNone]
      rfl

theorem acceptable_iff (reading : EmitReading) (hid : event.id ≠ []) :
    Acceptable fmt sink event ↔ Insertable fmt (sink, event) (emittedId event reading) := by
  rw [emittedId_of_ne hid]
  constructor
  · exact fun h => ⟨h.topic, h.destination, h.id, h.bound, h.payload⟩
  · exact fun ⟨htopic, hdestination, hid, hbound, hpayload⟩ =>
      ⟨htopic, hdestination, hid, hbound, hpayload⟩

theorem OutboxBackend.takesTimes (h : backend.ReadsTimes) : backend.format.TakesTimes := by
  cases backend with
  | sqlite order =>
    refine ⟨rfl, fun instant => ⟨instant.isoformat, ?_⟩⟩
    have hbind : bindText instant.isoformat = .ok () :=
      bindText_of_isSome (encodeUtf8_isSome_of_lt fun c hc =>
        (instant.isoformat_ascii c hc).trans (by decide))
    show (bindText instant.isoformat >>= fun _ => Except.ok instant.isoformat) = _
    rw [hbind]
    rfl
  | postgres driver order returning =>
    refine ⟨rfl, fun instant => ?_⟩
    obtain ⟨time, htime⟩ := Option.isSome_iff_exists.mp (h instant)
    refine ⟨time, ?_⟩
    show (driver.timestamptz instant.isoformat).elim (Except.error dataError) Except.ok = _
    rw [htime]
    rfl

/-! ### One emission -/

theorem emit_of_error {e : PyExc} (h : sink.outboxEvent event (s.readings 0) = .error e) :
    sink.emit backend event s =
      (.error e, { s with readings := fun n => s.readings (n + 1) }) := by
  have hreading : nextReading s =
    (.ok (s.readings 0), { s with readings := fun n => s.readings (n + 1) }) := rfl
  rw [OutboxEventSink.emit, PyM.bind_of_ok hreading, h,
    PyM.bind_of_error (PyM.ofExcept_apply _ _)]

theorem emit_of_ok {outboxEvent : OutboxEvent F} {q : Except PyExc (List (OutboxEvent F))}
    (h : sink.outboxEvent event (s.readings 0) = .ok outboxEvent)
    (hperform : backend.perform (s.readings 0).created (.enqueue outboxEvent) s.tables = (q, t)) :
    sink.emit backend event s =
      (q.map fun _ => (), { s with readings := fun n => s.readings (n + 1), tables := t }) := by
  have hreading : nextReading s =
    (.ok (s.readings 0), { s with readings := fun n => s.readings (n + 1) }) := rfl
  rw [OutboxEventSink.emit, PyM.bind_of_ok hreading, h, PyM.bind_of_ok (PyM.ofExcept_apply _ _)]
  simp only [PyM.bind_apply, PyM.on, hperform]
  cases q <;> rfl

/-- An emission inserts the row of its event, or leaves the tables as they are. -/
theorem emit_cases {r : Except PyExc Unit} (hread : Readable backend.format s.tables)
    (h : sink.emit backend event s = (r, s')) : Readable backend.format s'.tables ∧
      (s'.tables = s.tables ∨ ∃ row hid hidentity,
        Written backend.format (sink, event) (s.readings 0) row ∧
        s'.tables = s.tables.insert row hid hidentity) := by
  cases hevent : sink.outboxEvent event (s.readings 0) with
  | error e =>
    rw [emit_of_error hevent] at h
    cases h
    exact ⟨hread, .inl rfl⟩
  | ok outboxEvent =>
    rcases hperform : backend.perform (s.readings 0).created (.enqueue outboxEvent) s.tables with
      ⟨q, tables'⟩
    rw [emit_of_ok hevent hperform] at h
    cases h
    have hmove := backend.move hread hperform
    refine ⟨hmove.readable backend.format_lawful hread, ?_⟩
    show tables' = s.tables ∨ ∃ row hid hidentity,
      Written backend.format (sink, event) (s.readings 0) row ∧
      tables' = s.tables.insert row hid hidentity
    generalize s.tables = tables at hmove
    cases hmove with
    | enqueued hrow => exact .inr ⟨_, _, _, ⟨outboxEvent, hevent, hrow⟩, rfl⟩
    | duplicate => exact .inl rfl
    | unwritable => exact .inl rfl
    | clash => exact .inl rfl
    | refused => exact .inl rfl

/-- An event whose ids are not in the table is inserted. -/
theorem emit_inserts (hread : Readable backend.format s.tables)
    (hwritten : Written backend.format (sink, event) (s.readings 0) row)
    (hid : s.tables.row row.eventId = none) (hidentity : s.tables.rowOf row.identity = none) :
    sink.emit backend event s = (.ok (), { s with
      readings := fun n => s.readings (n + 1), tables := s.tables.insert row hid hidentity }) := by
  obtain ⟨outboxEvent, hevent, hrow⟩ := hwritten
  rcases hperform : backend.perform (s.readings 0).created (.enqueue outboxEvent) s.tables with
    ⟨q, tables'⟩
  have hmove := backend.move hread hperform
  have hcases : q = .ok [outboxEvent] ∧ tables' = s.tables.insert row hid hidentity := by
    clear hperform
    generalize s.tables = tables at hmove hid hidentity
    cases hmove with
    | enqueued hrow' =>
      rw [hrow] at hrow'
      cases hrow'
      exact ⟨rfl, rfl⟩
    | duplicate hrow' hexisting =>
      rw [hrow] at hrow'
      cases hrow'
      rw [hidentity] at hexisting
      cases hexisting
    | unwritable hrow' =>
      rw [hrow] at hrow'
      cases hrow'
    | clash hrow' hclash =>
      rw [hrow] at hrow'
      cases hrow'
      exact absurd hid hclash
    | refused hop => exact absurd rfl (hop _)
  obtain ⟨rfl, rfl⟩ := hcases
  exact emit_of_ok hevent hperform

/-! ### Sequences of emissions -/

/-- What emissions do to the tables, each by itself. -/
inductive Emissions (fmt : OutboxFormat F V T) :
    List (SinkPair F) → OutboxTables V T → OutboxTables V T → Prop
  | nil {t : OutboxTables V T} : Emissions fmt [] t t
  | kept {pair : SinkPair F} {pairs : List (SinkPair F)} {t t' : OutboxTables V T} :
      Emissions fmt pairs t t' → Emissions fmt (pair :: pairs) t t'
  | written {pair : SinkPair F} {pairs : List (SinkPair F)} {t t' : OutboxTables V T}
      {reading : EmitReading} {row : OutboxRow V T} {hid : t.row row.eventId = none}
      {hidentity : t.rowOf row.identity = none} :
      Written fmt pair reading row → Emissions fmt pairs (t.insert row hid hidentity) t' →
      Emissions fmt (pair :: pairs) t t'

theorem Emissions.append {pairs' : List (SinkPair F)} {u : OutboxTables V T}
    (h : Emissions fmt pairs t u) (h' : Emissions fmt pairs' u t') :
    Emissions fmt (pairs ++ pairs') t t' := by
  induction h with
  | nil => exact h'
  | kept _ ih => exact .kept (ih h')
  | written hrow _ ih => exact .written hrow (ih h')

/-- When there are as many new rows as emissions, each emission wrote one. -/
theorem Emissions.rows (h : Emissions fmt pairs t t') : ∃ rows, t'.outbox = t.outbox ++ rows ∧
    rows.length ≤ pairs.length ∧ (rows.length = pairs.length →
      List.Forall₂ (fun pair row => ∃ reading, Written fmt pair reading row) pairs rows) := by
  induction h with
  | nil => exact ⟨[], (List.append_nil _).symm, le_rfl, fun _ => .nil⟩
  | kept _ ih =>
    obtain ⟨rows, houtbox, hle, -⟩ := ih
    refine ⟨rows, houtbox, hle.trans (Nat.le_succ _), fun heq => ?_⟩
    rw [heq, List.length_cons] at hle
    omega
  | @written pair pairs t t' reading row _ _ hrow _ ih =>
    obtain ⟨rows, houtbox, hle, hall⟩ := ih
    refine ⟨row :: rows, ?_, Nat.succ_le_succ hle, fun heq => ?_⟩
    · rw [houtbox]
      exact List.append_assoc _ [row] rows
    · exact .cons ⟨reading, hrow⟩ (hall (Nat.succ.inj heq))

/-- A program that emits the pairs one after the other, if it returns. -/
def Emits {α : Type} (backend : OutboxBackend F V T) (pairs : List (SinkPair F))
    (x : PyM (SinkWorld V T) α) : Prop :=
  ∀ s a s', Readable backend.format s.tables → x s = (.ok a, s') →
    Readable backend.format s'.tables ∧ Emissions backend.format pairs s.tables s'.tables

section

variable {α β : Type} {pairs' : List (SinkPair F)} {x : PyM (SinkWorld V T) α}
  {f : α → PyM (SinkWorld V T) β}

theorem emits_pure {a : α} : Emits backend [] (pure a) := by
  intro s b s' hread h
  cases h
  exact ⟨hread, .nil⟩

theorem emits_raise {e : PyExc} : Emits (α := α) backend pairs (.raise e) := by
  intro s a s' _ h
  cases h

theorem emits_bind (hx : Emits backend pairs x) (hf : ∀ a, Emits backend pairs' (f a)) :
    Emits backend (pairs ++ pairs') (x >>= f) := by
  intro s b s' hread h
  obtain ⟨a, u, hxu, hfu⟩ := PyM.bind_eq_ok.mp h
  obtain ⟨hread', hfirst⟩ := hx s a u hread hxu
  obtain ⟨hread'', hsecond⟩ := hf a u b s' hread' hfu
  exact ⟨hread'', hfirst.append hsecond⟩

/-- One emission, whatever becomes of it. -/
theorem emission_step {r : Except PyExc Unit} (hread : Readable backend.format s.tables)
    (h : sink.emit backend event s = (r, s')) : Readable backend.format s'.tables ∧
      Emissions backend.format [(sink, event)] s.tables s'.tables := by
  obtain ⟨hread', hkept | ⟨row, hid, hidentity, hrow, hinsert⟩⟩ := emit_cases hread h
  · rw [hkept] at hread' ⊢
    exact ⟨hread', .kept .nil⟩
  · rw [hinsert] at hread' ⊢
    exact ⟨hread', .written hrow .nil⟩

theorem emits_emit : Emits backend [(sink, event)] (sink.emit backend event) :=
  fun _ _ _ hread h => emission_step hread h

/-- An emission whose exception is handled. -/
theorem emits_of_tables
    (h : ∀ s a s', x s = (.ok a, s') → s'.tables = (sink.emit backend event s).2.tables) :
    Emits backend [(sink, event)] x := by
  intro s a s' hread hx
  rw [h s a s' hx]
  exact emission_step hread rfl

theorem emits_attempt :
    Emits backend [(sink, event)] (CompositeEventSink.attempt event (sink.asSink backend)) := by
  refine emits_of_tables fun s a s' h => ?_
  rcases hemit : sink.emit backend event s with ⟨e | u, w⟩
  · have hraised : (do (sink.asSink backend).emit event; return none :
        PyM (SinkWorld V T) (Option PyExc)) s = (.error e, w) := PyM.bind_of_error hemit
    rw [CompositeEventSink.attempt, PyM.tryExcept, hraised] at h
    change (if e.isException = true then _ else PyM.raise e : PyM (SinkWorld V T) _) w = _ at h
    split at h
    · obtain ⟨error, -, h⟩ := PyM.ofExcept_bind_eq_ok.mp h
      cases h
      rfl
    · cases h
  · have hreturned : (do (sink.asSink backend).emit event; return none :
        PyM (SinkWorld V T) (Option PyExc)) s = (.ok none, w) := PyM.bind_of_ok hemit
    rw [CompositeEventSink.attempt, PyM.tryExcept, hreturned] at h
    cases h
    rfl

theorem emits_emitTo {fail : Bool} {eventType : Str} : Emits backend [(sink, event)]
    (SentinelRunner.emitTo fail eventType event (sink.asSink backend)) := by
  refine emits_of_tables fun s a s' h => ?_
  rcases hemit : sink.emit backend event s with ⟨e | u, w⟩
  · have hraised : (sink.asSink backend).emit event s = (.error e, w) := hemit
    rw [SentinelRunner.emitTo, PyM.tryExcept, hraised] at h
    change (if e.isException = true then _ else PyM.raise e : PyM (SinkWorld V T) _) w = _ at h
    split at h
    · obtain ⟨error, -, h⟩ := PyM.ofExcept_bind_eq_ok.mp h
      cases fail
      · cases h
        rfl
      · cases h
    · cases h
  · have hreturned : (sink.asSink backend).emit event s = (.ok u, w) := hemit
    rw [SentinelRunner.emitTo, PyM.tryExcept, hreturned] at h
    cases h
    rfl

theorem emits_attemptAll (sinks : List OutboxEventSink) :
    Emits backend (sinks.map fun sink => (sink, event))
      (CompositeEventSink.attemptAll event (sinks.map (OutboxEventSink.asSink backend))) := by
  induction sinks with
  | nil => exact emits_pure
  | cons sink sinks ih =>
    show Emits backend ([(sink, event)] ++ sinks.map fun sink => (sink, event)) _
    refine emits_bind emits_attempt fun error => ?_
    rw [← List.append_nil (sinks.map _)]
    exact emits_bind ih fun errors => emits_pure

theorem emits_composite (sinks : List OutboxEventSink) {failClosed : Bool} :
    Emits backend (sinks.map fun sink => (sink, event))
      (CompositeEventSink.emit ⟨sinks.map (OutboxEventSink.asSink backend), failClosed⟩ event) := by
  rw [← List.append_nil (sinks.map _)]
  refine emits_bind (emits_attemptAll sinks) fun errors => ?_
  split
  · exact emits_raise
  · exact emits_pure

theorem emits_runner (sinks : List OutboxEventSink) {fail : Bool} {eventType : Str} :
    Emits backend (sinks.map fun sink => (sink, event))
      (SentinelRunner.emitAll fail eventType event
        (sinks.map (OutboxEventSink.asSink backend))) := by
  induction sinks with
  | nil => exact emits_pure
  | cons sink sinks ih =>
    show Emits backend ([(sink, event)] ++ sinks.map fun sink => (sink, event)) _
    exact emits_bind emits_emitTo fun _ => ih

theorem emits_forM {γ : Type} {g : γ → PyM (SinkWorld V T) Unit} {p : γ → List (SinkPair F)}
    (h : ∀ c, Emits backend (p c) (g c)) (cs : List γ) : Emits backend (cs.flatMap p) (cs.forM g) := by
  induction cs with
  | nil => exact emits_pure
  | cons c cs ih => exact emits_bind (h c) fun _ => ih

end

namespace SinkUsage

/-- The emissions, in their order. -/
def emissions (sinks : List OutboxEventSink) (events : List (CloudEvent F)) :
    SinkUsage F → List (SinkPair F)
  | .direct order => order
  | .composite _ => events.flatMap fun event => sinks.map fun sink => (sink, event)
  | .runner _ _ => events.flatMap fun event => sinks.map fun sink => (sink, event)

theorem emits_program (usage : SinkUsage F) (sinks : List OutboxEventSink)
    (events : List (CloudEvent F)) :
    Emits backend (usage.emissions sinks events) (usage.program backend sinks events) := by
  cases usage with
  | direct order =>
    have h : Emits backend (order.flatMap fun pair => [pair])
        (order.forM fun pair => pair.1.emit backend pair.2) :=
      emits_forM (fun _ => emits_emit) order
    rwa [List.flatMap_singleton' order] at h
  | composite failClosed => exact emits_forM (fun _ => emits_composite sinks) events
  | runner fail eventType => exact emits_forM (fun _ => emits_runner sinks) events

omit [PyFloat F] in
/-- Every event is emitted to every sink once. -/
theorem emissions_perm {usage : SinkUsage F} {sinks : List OutboxEventSink}
    {events : List (CloudEvent F)} (hsinks : (sinks.map OutboxEventSink.destination).Nodup)
    (hevents : (events.map CloudEvent.id).Nodup) (h : usage.Covers sinks events) :
    (usage.emissions sinks events).Perm (sinks ×ˢ events) := by
  have hnodup : (sinks ×ˢ events).Nodup := (hsinks.of_map _).product (hevents.of_map _)
  have hloop : (events.flatMap fun event => sinks.map fun sink => (sink, event)).Perm
      (sinks ×ˢ events) := by
    have hswap : (events.flatMap fun event => sinks.map fun sink => (sink, event)) =
        (events ×ˢ sinks).map Prod.swap := by
      simp [List.product, SProd.sprod, List.map_flatMap, Function.comp_def]
    rw [hswap]
    refine (List.perm_ext_iff_of_nodup ?_ hnodup).mpr ?_
    · exact ((hevents.of_map _).product (hsinks.of_map _)).map Prod.swap_injective
    · rintro ⟨sink, event⟩
      simp [and_comm]
  cases usage with
  | direct order => exact h
  | composite failClosed => exact hloop
  | runner fail eventType => exact hloop

end SinkUsage

/-! ### Emissions that all succeed -/

/-- The emissions, one after the other. -/
def emitInTurn (backend : OutboxBackend F V T) (pairs : List (SinkPair F)) :
    PyM (SinkWorld V T) Unit :=
  pairs.forM fun pair => pair.1.emit backend pair.2

theorem emitInTurn_cons {u : Unit} : emitInTurn backend (pair :: pairs) s = (.ok u, s') ↔
    ∃ v w, pair.1.emit backend pair.2 s = (.ok v, w) ∧
      emitInTurn backend pairs w = (.ok u, s') := PyM.bind_eq_ok

theorem emitInTurn_append {pairs' : List (SinkPair F)} {u : Unit} :
    emitInTurn backend (pairs ++ pairs') s = (.ok u, s') ↔
      ∃ v w, emitInTurn backend pairs s = (.ok v, w) ∧
        emitInTurn backend pairs' w = (.ok u, s') := by
  induction pairs generalizing s with
  | nil =>
    constructor
    · exact fun h => ⟨(), s, rfl, h⟩
    · rintro ⟨_, _, hnil, h⟩
      cases hnil
      exact h
  | cons pair pairs ih =>
    rw [List.cons_append, emitInTurn_cons]
    constructor
    · rintro ⟨v, w, hv, h⟩
      obtain ⟨v', w', hv', h'⟩ := ih.mp h
      exact ⟨v', w', emitInTurn_cons.mpr ⟨v, w, hv, hv'⟩, h'⟩
    · rintro ⟨v', w', hv', h'⟩
      obtain ⟨v, w, hv, hmore⟩ := emitInTurn_cons.mp hv'
      exact ⟨v, w, hv, ih.mpr ⟨v', w', hmore, h'⟩⟩

theorem attempt_of_ok {u : Unit} (h : sink.emit backend event s = (.ok u, s')) :
    CompositeEventSink.attempt event (sink.asSink backend) s = (.ok none, s') := by
  have hreturned : (do (sink.asSink backend).emit event; return none :
      PyM (SinkWorld V T) (Option PyExc)) s = (.ok none, s') := PyM.bind_of_ok h
  rw [CompositeEventSink.attempt, PyM.tryExcept, hreturned]

theorem emitTo_of_ok {fail : Bool} {eventType : Str} {u : Unit}
    (h : sink.emit backend event s = (.ok u, s')) :
    SentinelRunner.emitTo fail eventType event (sink.asSink backend) s = (.ok (), s') := by
  have hreturned : (sink.asSink backend).emit event s = (.ok u, s') := h
  rw [SentinelRunner.emitTo, PyM.tryExcept, hreturned]

theorem attemptAll_of_ok {sinks : List OutboxEventSink} {u : Unit}
    (h : emitInTurn backend (sinks.map fun sink => (sink, event)) s = (.ok u, s')) :
    CompositeEventSink.attemptAll event (sinks.map (OutboxEventSink.asSink backend)) s =
      (.ok [], s') := by
  induction sinks generalizing s with
  | nil =>
    cases h
    rfl
  | cons sink sinks ih =>
    obtain ⟨v, w, hv, hmore⟩ := emitInTurn_cons.mp h
    rw [List.map_cons, CompositeEventSink.attemptAll, PyM.bind_of_ok (attempt_of_ok hv),
      PyM.bind_of_ok (ih hmore)]
    rfl

theorem composite_of_ok {sinks : List OutboxEventSink} {failClosed : Bool} {u : Unit}
    (h : emitInTurn backend (sinks.map fun sink => (sink, event)) s = (.ok u, s')) :
    CompositeEventSink.emit ⟨sinks.map (OutboxEventSink.asSink backend), failClosed⟩ event s =
      (.ok (), s') := by
  rw [CompositeEventSink.emit, PyM.bind_of_ok (attemptAll_of_ok h), if_neg (by simp)]
  rfl

theorem runner_of_ok {sinks : List OutboxEventSink} {fail : Bool} {eventType : Str} {u : Unit}
    (h : emitInTurn backend (sinks.map fun sink => (sink, event)) s = (.ok u, s')) :
    SentinelRunner.emitAll fail eventType event (sinks.map (OutboxEventSink.asSink backend)) s =
      (.ok (), s') := by
  induction sinks generalizing s with
  | nil =>
    cases h
    rfl
  | cons sink sinks ih =>
    obtain ⟨v, w, hv, hmore⟩ := emitInTurn_cons.mp h
    rw [List.map_cons, SentinelRunner.emitAll, PyM.bind_of_ok (emitTo_of_ok hv)]
    exact ih hmore

theorem forM_of_ok {γ : Type} {g : γ → PyM (SinkWorld V T) Unit} {p : γ → List (SinkPair F)}
    (hg : ∀ c s s' u, emitInTurn backend (p c) s = (.ok u, s') → g c s = (.ok (), s'))
    {cs : List γ} {u : Unit} (h : emitInTurn backend (cs.flatMap p) s = (.ok u, s')) :
    cs.forM g s = (.ok (), s') := by
  induction cs generalizing s with
  | nil =>
    cases h
    rfl
  | cons c cs ih =>
    rw [List.flatMap_cons] at h
    obtain ⟨v, w, hv, hmore⟩ := emitInTurn_append.mp h
    exact PyM.bind_eq_ok.mpr ⟨(), w, hg c s w v hv, ih hmore⟩

/-- Emissions that succeed in turn succeed in every usage. -/
theorem SinkUsage.program_of_ok {usage : SinkUsage F} {sinks : List OutboxEventSink}
    {events : List (CloudEvent F)} {u : Unit}
    (h : emitInTurn backend (usage.emissions sinks events) s = (.ok u, s')) :
    usage.program backend sinks events s = (.ok (), s') := by
  cases usage with
  | direct order => exact h
  | composite failClosed => exact forM_of_ok (fun _ _ _ _ => composite_of_ok) h
  | runner fail eventType => exact forM_of_ok (fun _ _ _ _ => runner_of_ok) h

/-- Acceptable events with ids of their own are inserted one after the other.
Induction on the emissions, each of which leaves the later ones unseen. -/
theorem emitInTurn_inserts (hfmt : backend.format.TakesTimes)
    (hread : Readable backend.format s.tables)
    (hacceptable : ∀ pair ∈ pairs, Acceptable backend.format pair.1 pair.2)
    (hkeys : (pairs.map fun pair => strip pair.2.id).Nodup)
    (hunseen : Unseen s.tables (pairs.map Prod.snd)) :
    ∃ s' rows, emitInTurn backend pairs s = (.ok (), s') ∧
      s'.tables.outbox = s.tables.outbox ++ rows ∧
      List.Forall₂ (fun pair row => ∃ reading, Written backend.format pair reading row) pairs
        rows := by
  induction pairs generalizing s with
  | nil => exact ⟨s, [], rfl, (List.append_nil _).symm, .nil⟩
  | cons pair pairs ih =>
    have haccept := hacceptable pair List.mem_cons_self
    have hne := ne_nil_of_isBlank haccept.id
    obtain ⟨row, hrow⟩ := (exists_written hfmt).mpr
      ((acceptable_iff (s.readings 0) hne).mp haccept)
    obtain ⟨-, hrowId, hrowIdentity⟩ := hrow.columns
    rw [emittedId_of_ne hne] at hrowId hrowIdentity
    -- no row has its id or its key
    have hid : s.tables.row row.eventId = none := by
      refine Option.eq_none_iff_forall_ne_some.mpr fun r hr => ?_
      have hseen := hunseen r (mem_of_row hr) pair.2 (List.mem_map_of_mem List.mem_cons_self)
      exact hseen.1 ((eventId_of_row hr).trans hrowId)
    have hidentity : s.tables.rowOf row.identity = none := by
      refine Option.eq_none_iff_forall_ne_some.mpr fun r hr => ?_
      have hseen := hunseen r (mem_of_rowAt hr) pair.2 (List.mem_map_of_mem List.mem_cons_self)
      exact hseen.2 (congrArg Prod.snd ((identity_of_rowOf hr).trans hrowIdentity))
    have hemit := emit_inserts hread hrow hid hidentity
    obtain ⟨hread', -⟩ := emit_cases hread hemit
    obtain ⟨hkey, hkeys⟩ := List.nodup_cons.mp hkeys
    obtain ⟨s', rows, hmore, houtbox, hall⟩ := ih hread'
      (fun p hp => hacceptable p (List.mem_cons_of_mem _ hp)) hkeys (by
        intro r hr event hevent
        rcases List.mem_append.mp hr with hr | hr
        · obtain ⟨p, hp, rfl⟩ := List.mem_map.mp hevent
          exact hunseen r hr p.2 (List.mem_map_of_mem (List.mem_cons_of_mem _ hp))
        · obtain rfl := List.mem_singleton.mp hr
          obtain ⟨p, hp, rfl⟩ := List.mem_map.mp hevent
          have hother : strip pair.2.id ≠ strip p.2.id := fun heq =>
            hkey (List.mem_map.mpr ⟨p, hp, heq.symm⟩)
          refine ⟨fun heq => hother ?_, fun heq => hother ?_⟩
          · rw [← hrowId, heq]
          · exact (congrArg Prod.snd hrowIdentity).symm.trans heq)
    refine ⟨s', row :: rows, emitInTurn_cons.mpr ⟨(), _, hemit, hmore⟩, ?_, ?_⟩
    · rw [houtbox]
      exact List.append_assoc _ [row] rows
    · exact .cons ⟨_, hrow⟩ hall

/-! ### An id that no row has -/

/-- Longer than the ids and keys of all the rows. -/
def freshId (t : OutboxTables V T) : Str :=
  .replicate ((t.outbox.map fun row => row.eventId.length + row.idempotencyKey.length).sum + 1) 117

omit [PyFloat F] in
theorem freshId_not_space : ∀ c ∈ freshId t, isSpace c = false := by
  intro c hc
  obtain ⟨-, rfl⟩ := List.mem_replicate.mp hc
  decide

omit [PyFloat F] in
theorem isBlank_freshId : isBlank (freshId t) = false := by
  rw [isBlank, List.all_eq_false]
  refine ⟨117, List.mem_replicate.mpr ⟨Nat.succ_ne_zero _, rfl⟩, by decide⟩

omit [PyFloat F] in
theorem strip_freshId : strip (freshId t) = freshId t := by
  have hkeep : ∀ l : Str, (∀ c ∈ l, isSpace c = false) → l.dropWhile isSpace = l := by
    intro l hl
    cases l with
    | nil => rfl
    | cons c l => rw [List.dropWhile_cons_of_neg (by simp [hl c List.mem_cons_self])]
  rw [strip, hkeep _ freshId_not_space, hkeep _ (fun c hc => freshId_not_space c
    (List.mem_reverse.mp hc)), List.reverse_reverse]

omit [PyFloat F] in
theorem freshId_unseen (h : row ∈ t.outbox) :
    row.eventId ≠ freshId t ∧ row.idempotencyKey ≠ freshId t := by
  have hle : row.eventId.length + row.idempotencyKey.length ≤
      (t.outbox.map fun row => row.eventId.length + row.idempotencyKey.length).sum :=
    List.le_sum_of_mem (List.mem_map_of_mem (f := fun row : OutboxRow V T =>
      row.eventId.length + row.idempotencyKey.length) h)
  constructor
  · intro heq
    rw [heq, freshId, List.length_replicate] at hle
    omega
  · intro heq
    rw [heq, freshId, List.length_replicate] at hle
    omega

theorem OutboxBackend.bind_freshId : backend.format.bind (freshId t) = .ok () := by
  have htext : bindText (freshId t) = .ok () := by
    refine bindText_of_isSome (encodeUtf8_isSome_of_lt fun c hc => ?_)
    obtain ⟨-, rfl⟩ := List.mem_replicate.mp hc
    decide
  cases backend with
  | sqlite order => exact htext
  | postgres driver order returning =>
    refine (if_neg fun hzero => ?_).trans htext
    obtain ⟨-, h⟩ := List.mem_replicate.mp hzero
    cases h

/-! ### Exactly one sink -/

/-- An event without an id is inserted under an id of its own every time. -/
theorem written_again (hfmt : backend.format.TakesTimes) (hid : event.id = [])
    (hread : Readable backend.format s.tables)
    (hrow : Written backend.format (sink, event) reading row) :
    ∃ readings, (sink.emit backend event { s with readings := readings }).2.tables ≠ s.tables := by
  have hinsertable := (exists_written hfmt).mp ⟨row, hrow⟩
  obtain ⟨htopic, hdestination, -, hbound, hpayload⟩ := hinsertable
  simp only [List.mem_cons, List.not_mem_nil, or_false, forall_eq_or_imp, forall_eq] at hbound
  obtain ⟨-, htopic', hdestination', -⟩ := hbound
  set again : EmitReading := ⟨freshId s.tables, reading.available, reading.created⟩ with hagain
  have hemitted : emittedId event again = freshId s.tables := if_pos hid
  obtain ⟨row', hrow'⟩ : ∃ row', Written backend.format (sink, event) again row' := by
    refine (exists_written hfmt).mpr ⟨htopic, hdestination, ?_, ?_, hpayload⟩
    · rw [hemitted]
      exact isBlank_freshId
    · rw [hemitted, strip_freshId]
      simp only [List.mem_cons, List.not_mem_nil, or_false]
      rintro text (rfl | rfl | rfl | rfl)
      · exact backend.bind_freshId
      · exact htopic'
      · exact hdestination'
      · exact backend.bind_freshId
  obtain ⟨-, hrowId, hrowIdentity⟩ := hrow'.columns
  rw [hemitted] at hrowId hrowIdentity
  have hnone : s.tables.row row'.eventId = none := by
    refine Option.eq_none_iff_forall_ne_some.mpr fun r hr => ?_
    exact (freshId_unseen (mem_of_row hr)).1 ((eventId_of_row hr).trans hrowId)
  have hnone' : s.tables.rowOf row'.identity = none := by
    refine Option.eq_none_iff_forall_ne_some.mpr fun r hr => ?_
    refine (freshId_unseen (mem_of_rowAt hr)).2 ?_
    exact (congrArg Prod.snd ((identity_of_rowOf hr).trans hrowIdentity)).trans strip_freshId
  refine ⟨fun _ => again, fun heq => ?_⟩
  rw [emit_inserts (s := { s with readings := fun _ => again }) hread hrow' hnone hnone'] at heq
  have hlength := congrArg (fun t => t.outbox.length) heq
  simp [OutboxTables.insert] at hlength

variable {sinks : List OutboxEventSink} {events : List (CloudEvent F)} {usage : SinkUsage F}

/-- One sink is enough. -/
theorem OneSink.fansOut (hone : OneSink backend.format sinks events)
    (hread : Readable backend.format s.tables) (htimes : backend.ReadsTimes)
    (hperm : (usage.emissions sinks events).Perm (sinks ×ˢ events))
    (hunseen : Unseen s.tables events) :
    FansOut backend sinks events (usage.program backend sinks events) s := by
  have hfmt := OutboxBackend.takesTimes htimes
  -- the emissions are acceptable, and their keys differ
  have hfit : (∀ pair ∈ sinks ×ˢ events, Acceptable backend.format pair.1 pair.2) ∧
      ((sinks ×ˢ events).map fun pair => strip pair.2.id).Nodup := by
    rcases hone with rfl | rfl | ⟨sink, rfl, hkeys, hall⟩
    · exact ⟨fun pair hpair => absurd hpair List.not_mem_nil, .nil⟩
    · rw [List.product_nil]
      exact ⟨fun pair hpair => absurd hpair List.not_mem_nil, .nil⟩
    · refine ⟨?_, ?_⟩
      · rintro ⟨sink', event⟩ hpair
        obtain ⟨hsink, hevent⟩ := List.mem_product.mp hpair
        obtain rfl := List.mem_singleton.mp hsink
        exact hall event hevent
      · rw [List.product_cons]
        simpa [Function.comp_def] using hkeys
  obtain ⟨hacceptable, hkeys⟩ := hfit
  have hkeys' : ((usage.emissions sinks events).map fun pair => strip pair.2.id).Nodup :=
    (hperm.map _).nodup_iff.mpr hkeys
  obtain ⟨s', rows, hturn, houtbox, hall⟩ := emitInTurn_inserts hfmt hread
    (fun pair hpair => hacceptable pair (hperm.mem_iff.mp hpair)) hkeys' (by
      intro r hr event hevent
      obtain ⟨pair, hpair, rfl⟩ := List.mem_map.mp hevent
      exact hunseen r hr pair.2 (List.mem_product.mp (hperm.mem_iff.mp hpair)).2)
  have hprogram := SinkUsage.program_of_ok hturn
  obtain ⟨hread', -⟩ := usage.emits_program sinks events _ _ _ hread hprogram
  constructor
  · rw [hprogram]
  · rw [hprogram]
    exact ⟨_, rows, hperm, houtbox, hall.imp fun _ _ ⟨_, hrow⟩ => hrow.columns.1⟩
  · -- what is emitted again is there already
    intro sink hsink event hevent readings
    rw [hprogram]
    show (sink.emit backend event { s' with readings := readings }).2.tables = s'.tables
    have hpair : (sink, event) ∈ sinks ×ˢ events := List.mem_product.mpr ⟨hsink, hevent⟩
    have hne := ne_nil_of_isBlank (hacceptable _ hpair).id
    obtain ⟨row, hmem, reading, hrow⟩ := exists_of_forall₂ hall (hperm.mem_iff.mpr hpair)
    have hidentity := hrow.columns.2.2
    rw [emittedId_of_ne hne] at hidentity
    have hin : row ∈ s'.tables.outbox := by
      rw [houtbox]
      exact List.mem_append_right _ hmem
    rcases hemit : sink.emit backend event { s' with readings := readings } with ⟨r, u⟩
    obtain ⟨-, hkept | ⟨row', hid', hidentity', hrow', -⟩⟩ :=
      emit_cases (s := { s' with readings := readings }) hread' hemit
    · exact hkept
    · have hsame := hrow'.columns.2.2
      rw [emittedId_of_ne hne, ← hidentity] at hsame
      rw [hsame] at hidentity'
      exact absurd (rowOf_of_mem hin) (by rw [hidentity']; exact Option.some_ne_none row ∘ Eq.symm)

/-- There is no more than one sink when the events fan out. -/
theorem FansOut.oneSink (h : FansOut backend sinks events (usage.program backend sinks events) s)
    (hread : Readable backend.format s.tables) (htimes : backend.ReadsTimes)
    (hperm : (usage.emissions sinks events).Perm (sinks ×ˢ events))
    (hsinks : (sinks.map OutboxEventSink.destination).Nodup) :
    OneSink backend.format sinks events := by
  have hfmt := OutboxBackend.takesTimes htimes
  rcases hprogram : usage.program backend sinks events s with ⟨r, s'⟩
  have hreturns := h.returns
  obtain ⟨pairs, rows, hpairs, houtbox, hfor⟩ := h.rows
  have hagain := h.again
  rw [hprogram] at hreturns houtbox hagain
  cases hreturns
  obtain ⟨hread', hemissions⟩ := usage.emits_program sinks events s () s' hread hprogram
  -- every emission wrote a row
  obtain ⟨rows', houtbox', -, hall⟩ := hemissions.rows
  obtain rfl : rows' = rows := List.append_cancel_left (houtbox'.symm.trans houtbox)
  have hwritten := hall (hfor.length_eq.symm.trans (hpairs.length_eq.trans hperm.length_eq.symm))
  have hid : ∀ sink ∈ sinks, ∀ event ∈ events, event.id ≠ [] := by
    intro sink hsink event hevent hnil
    obtain ⟨row, -, reading, hrow⟩ := exists_of_forall₂ hwritten
      (hperm.mem_iff.mpr (List.mem_product.mpr ⟨hsink, hevent⟩))
    obtain ⟨readings, hchanges⟩ := written_again hfmt hnil hread' hrow
    exact hchanges (hagain sink hsink event hevent readings)
  have hemitted : ∀ pair ∈ usage.emissions sinks events, ∀ reading,
      emittedId pair.2 reading = pair.2.id := by
    intro pair hpair reading
    obtain ⟨hsink, hevent⟩ := List.mem_product.mp (hperm.mem_iff.mp hpair)
    exact emittedId_of_ne (hid pair.1 hsink pair.2 hevent)
  have hacceptable : ∀ sink ∈ sinks, ∀ event ∈ events, Acceptable backend.format sink event := by
    intro sink hsink event hevent
    obtain ⟨row, -, reading, hrow⟩ := exists_of_forall₂ hwritten
      (hperm.mem_iff.mpr (List.mem_product.mpr ⟨hsink, hevent⟩))
    exact (acceptable_iff reading (hid sink hsink event hevent)).mpr
      ((exists_written hfmt).mp ⟨row, hrow⟩)
  -- the rows have ids and identities of their own
  have hids : ((sinks ×ˢ events).map fun pair => pair.2.id).Nodup := by
    have hnodup := s'.tables.eventIds
    rw [houtbox, List.map_append, map_eq_of_forall₂ (g := fun pair => pair.2.id) hwritten (by
      rintro pair hpair row ⟨reading, hrow⟩
      rw [hrow.columns.2.1, hemitted pair hpair])] at hnodup
    exact (hperm.map _).nodup_iff.mp hnodup.of_append_right
  have hkeys : ((sinks ×ˢ events).map fun pair =>
      (strip pair.1.destination, strip pair.2.id)).Nodup := by
    have hnodup := s'.tables.identities
    rw [houtbox, List.map_append, map_eq_of_forall₂
      (g := fun pair => (strip pair.1.destination, strip pair.2.id)) hwritten (by
        rintro pair hpair row ⟨reading, hrow⟩
        rw [hrow.columns.2.2, hemitted pair hpair])] at hnodup
    exact (hperm.map _).nodup_iff.mp hnodup.of_append_right
  cases hlist : sinks with
  | nil => exact .inl rfl
  | cons sink rest =>
    cases hevents : events with
    | nil => exact .inr (.inl rfl)
    | cons event more =>
      obtain rfl : rest = [] := by
        refine List.eq_nil_iff_forall_not_mem.mpr fun other hother => ?_
        have hsame : (sink, event) = (other, event) := by
          refine List.inj_on_of_nodup_map hids ?_ ?_ rfl
          · rw [hlist, hevents]
            exact List.mem_product.mpr ⟨List.mem_cons_self, List.mem_cons_self⟩
          · rw [hlist, hevents]
            exact List.mem_product.mpr ⟨List.mem_cons_of_mem _ hother, List.mem_cons_self⟩
        cases hsame
        rw [hlist] at hsinks
        exact (List.nodup_cons.mp (hsinks.of_map _)).1 hother
      refine .inr (.inr ⟨sink, rfl, ?_, ?_⟩)
      · rw [hlist, hevents, List.product_cons, List.map_append, List.map_map] at hkeys
        refine List.Nodup.of_map (fun key => (strip sink.destination, key)) ?_
        rw [List.map_map]
        exact hkeys.of_append_left
      · intro event' hevent'
        rw [← hevents] at hevent'
        refine hacceptable sink ?_ event' hevent'
        rw [hlist]
        exact List.mem_cons_self

/-- Events fan out exactly when there is no more than one sink, and it can
store them. -/
theorem fan_out_iff (usage : SinkUsage F) {log : List (OutboxEntry F)} (hrun : OutboxRun backend log s.tables)
    (htimes : backend.ReadsTimes) (hsinks : (sinks.map OutboxEventSink.destination).Nodup)
    (hevents : (events.map CloudEvent.id).Nodup) (hunseen : Unseen s.tables events)
    (hcovers : usage.Covers sinks events) :
    FansOut backend sinks events (usage.program backend sinks events) s ↔
      OneSink backend.format sinks events := by
  have hread := (run_shows hrun).1
  have hperm := SinkUsage.emissions_perm hsinks hevents hcovers
  constructor
  · exact fun h => h.oneSink hread htimes hperm hsinks
  · exact fun hone => hone.fansOut hread htimes hperm hunseen

/-! ### Two sinks -/

def sampleCloudEvent : CloudEvent Half where
  type := lit "com.agentroi.test"
  source := lit "/agent-roi"
  data := []
  subject := []
  id := lit "e"
  time := (sampleInstant 0).isoformat
  specversion := lit "1.0"
  datacontenttype := lit "application/json"

def sampleSinks : List OutboxEventSink :=
  [⟨lit "siem", lit "telemetry"⟩, ⟨lit "lake", lit "telemetry"⟩]

def sampleSinkWorld : SinkWorld Str Str where
  readings _ := ⟨lit "u", sampleInstant 0, sampleInstant 0⟩
  tables := .empty
  failures := []
  eventSinkErrors := []

/-- The second sink raises, or its row is missing where nothing is raised. -/
theorem second_sink_loses :
    (((SinkUsage.direct (sampleSinks ×ˢ [sampleCloudEvent])).program sampleBackend sampleSinks
      [sampleCloudEvent] sampleSinkWorld).1 = .error .integrityError) ∧
    (((SinkUsage.composite false).program sampleBackend sampleSinks [sampleCloudEvent]
      sampleSinkWorld).1 = .ok () ∧
      ((SinkUsage.composite false).program sampleBackend sampleSinks [sampleCloudEvent]
        sampleSinkWorld).2.tables.outbox.map OutboxRow.identity = [(lit "siem", lit "e")]) ∧
    ¬ (OutboxRun sampleBackend [] sampleSinkWorld.tables →
      (SinkUsage.direct (sampleSinks ×ˢ [sampleCloudEvent])).Covers sampleSinks
        [sampleCloudEvent] →
      (sampleSinks.map OutboxEventSink.destination).Nodup →
      ([sampleCloudEvent].map CloudEvent.id).Nodup →
      FansOut sampleBackend sampleSinks [sampleCloudEvent]
        ((SinkUsage.direct (sampleSinks ×ˢ [sampleCloudEvent])).program sampleBackend sampleSinks
          [sampleCloudEvent]) sampleSinkWorld) := by
  have hraises : ((SinkUsage.direct (sampleSinks ×ˢ [sampleCloudEvent])).program sampleBackend
      sampleSinks [sampleCloudEvent] sampleSinkWorld).1 = .error .integrityError := by
    decide +kernel
  refine ⟨hraises, ⟨by decide +kernel, by decide +kernel⟩, fun h => ?_⟩
  have hreturns := (h .nil (List.Perm.refl _) (by decide) (by decide)).returns
  rw [hraises] at hreturns
  cases hreturns

/-- One sink, on an empty store. -/
theorem fan_out_iff_sample :
    FansOut sampleBackend [⟨lit "siem", lit "telemetry"⟩] [sampleCloudEvent]
        ((SinkUsage.composite false).program sampleBackend [⟨lit "siem", lit "telemetry"⟩]
          [sampleCloudEvent]) sampleSinkWorld ↔
      OneSink sampleBackend.format [⟨lit "siem", lit "telemetry"⟩] [sampleCloudEvent] :=
  fan_out_iff (.composite false) .nil trivial (by decide) (by decide)
    (fun _ hrow => absurd hrow List.not_mem_nil) trivial

end AgentRoi
