/-
What an operation of an outbox store can do.

* `OutboxMove` — the outcomes of an operation, in the terms of the tables;
* `OutboxBackend.move` — an operation of either store has one of these
  outcomes;
* `Readable` — every payload reads back, which the operations keep.
-/
import AgentRoi.OutboxStore

namespace AgentRoi

open OutboxTables RowTable

variable {F V T : Type}

/-- The outcomes of an operation: its result, and the tables before and after
it. -/
inductive OutboxMove [PyFloat F] (fmt : OutboxFormat F V T) (now : Instant) :
    OutboxOperation F → Except PyExc (List (OutboxEvent F)) → OutboxTables V T →
    OutboxTables V T → Prop
  | enqueued {event : OutboxEvent F} {row : OutboxRow V T} {t : OutboxTables V T}
      {hid : t.row row.eventId = none} {hidentity : t.rowOf row.identity = none} :
      eventRow fmt event = .ok row →
      OutboxMove fmt now (.enqueue event) (.ok [event]) t (t.insert row hid hidentity)
  | duplicate {event e : OutboxEvent F} {row existing : OutboxRow V T} {t : OutboxTables V T} :
      eventRow fmt event = .ok row → t.rowOf row.identity = some existing →
      rowEvent fmt existing = .ok e → OutboxMove fmt now (.enqueue event) (.ok [e]) t t
  | unwritable {event : OutboxEvent F} {e : PyExc} {t : OutboxTables V T} :
      eventRow fmt event = .error e → OutboxMove fmt now (.enqueue event) (.error e) t t
  | clash {event : OutboxEvent F} {row : OutboxRow V T} {e : PyExc} {t : OutboxTables V T} :
      eventRow fmt event = .ok row → t.row row.eventId ≠ none → t.rowOf row.identity = none →
      OutboxMove fmt now (.enqueue event) (.error e) t t
  | claimed {workerId destination : Str} {limit leaseSeconds : Int} {expires : Instant}
      {ids : List Str} {rows : List (OutboxRow V T)} {events : List (OutboxEvent F)}
      {t : OutboxTables V T} :
      now.addSeconds (max 1 leaseSeconds).toNat = some expires → ids.Nodup →
      (∀ id ∈ ids, ∃ row, t.row id = some row ∧
        claimable fmt.earlier (fmt.stamp now) destination row = true) →
      rows.Perm (ids.filterMap (t.leaseRows workerId (fmt.stamp expires) ids).row) →
      rows.mapM (rowEvent fmt) = .ok events →
      OutboxMove fmt now (.claim workerId limit leaseSeconds destination) (.ok events) t
        (t.leaseRows workerId (fmt.stamp expires) ids)
  | delivered {eventId workerId : Str} {row : OutboxRow V T} {t : OutboxTables V T} :
      t.row eventId = some row → row.status = .leased → row.leaseOwner = some workerId →
      OutboxMove fmt now (.markDelivered eventId workerId) (.ok []) t
        (t.deliverRows (OutboxRow.leasedBy eventId workerId) (fmt.stamp now))
  | rescheduled {eventId workerId error : Str} {delay : Int} {available : Instant}
      {row : OutboxRow V T} {t : OutboxTables V T} :
      now.addMicros (max 0 delay).toNat = some available →
      t.row eventId = some row → row.status = .leased → row.leaseOwner = some workerId →
      OutboxMove fmt now (.reschedule eventId workerId error delay) (.ok []) t
        (t.postponeRows (OutboxRow.leasedBy eventId workerId) (fmt.stamp available)
          (errorText error))
  | deadLettered {eventId workerId error : Str} {row : OutboxRow V T} {t t' : OutboxTables V T} :
      t.row eventId = some row → row.status = .leased → row.leaseOwner = some workerId →
      t'.outbox = (t.buryRows (fun row => row.eventId = eventId) (errorText error)).outbox →
      (t'.letter eventId).isSome →
      (t.letter eventId = none →
        t'.letter eventId = some (row.deadLetter (errorText error) (fmt.stamp now))) →
      (∀ id, id ≠ eventId → t'.letter id = t.letter id) →
      OutboxMove fmt now (.deadLetter eventId workerId error) (.ok []) t t'
  | refused {op : OutboxOperation F} {e : PyExc} {t : OutboxTables V T} :
      (∀ event, op ≠ .enqueue event) → OutboxMove fmt now op (.error e) t t

/-- Every payload can be read back. -/
def Readable (fmt : OutboxFormat F V T) (t : OutboxTables V T) : Prop :=
  ∀ row ∈ t.outbox, ∃ payload, fmt.readPayload row.payloadJson = .ok payload

/-- What the code relies on a format for. -/
structure OutboxFormat.Lawful [PyFloat F] (fmt : OutboxFormat F V T) : Prop where
  earlier_stamp : ∀ a b, fmt.earlier (fmt.stamp a) (fmt.stamp b) = decide (a < b)
  reads_back : ∀ (payload : List (Str × Json F)) (v : V),
    fmt.writePayload (payloadText payload) = .ok v → ∃ members, fmt.readPayload v = .ok members

variable [PyFloat F]

theorem loads_payloadText (payload : List (Str × Json F)) :
    ∃ members : List (Str × Json F), Json.loads (payloadText payload) = some (.obj members) := by
  rw [payloadText, loads_canonicalJson, PyVal.ofJson, toJsonable, Json.sortKeys_obj]
  exact ⟨_, rfl⟩

theorem sqliteFormat_lawful : (sqliteFormat (F := F)).Lawful where
  earlier_stamp a b := decide_eq_decide.mpr Instant.isoformat_lt_iff
  reads_back payload v h := by
    obtain ⟨members, hm⟩ := loads_payloadText payload
    obtain ⟨_, _, hv⟩ := except_bind_eq_ok.mp h
    cases hv
    refine ⟨members, ?_⟩
    show loadsDict (payloadText payload) = _
    rw [loadsDict, hm]

theorem postgresFormat_lawful (driver : PgOutboxDriver F) : (postgresFormat driver).Lawful where
  earlier_stamp a b := rfl
  reads_back payload v h := by
    obtain ⟨members, hm⟩ := loads_payloadText payload
    change (driver.jsonb (payloadText payload)).elim (Except.error dataError) Except.ok = .ok v at h
    cases hj : driver.jsonb (payloadText payload) with
    | none =>
      rw [hj] at h
      cases h
    | some value =>
      rw [hj] at h
      cases h
      obtain ⟨members', rfl⟩ := driver.jsonb_obj _ _ _ hm hj
      exact ⟨members', rfl⟩

theorem OutboxBackend.format_lawful (backend : OutboxBackend F V T) : backend.format.Lawful := by
  cases backend with
  | sqlite order => exact sqliteFormat_lawful
  | postgres driver order returning => exact postgresFormat_lawful driver

omit [PyFloat F] in
theorem Readable.update {fmt : OutboxFormat F V T} {t : OutboxTables V T}
    {p : OutboxRow V T → Bool} {f : OutboxRow V T → OutboxRow V T}
    {hid : ∀ row, (f row).eventId = row.eventId} {hidentity : ∀ row, (f row).identity = row.identity}
    (h : Readable fmt t) (hf : ∀ row, (f row).payloadJson = row.payloadJson) :
    Readable fmt (t.update p f hid hidentity) := by
  intro row' hrow'
  obtain ⟨row, hrow, rfl⟩ := mem_updateWhere.mp hrow'
  obtain ⟨payload, hp⟩ := h row hrow
  refine ⟨payload, ?_⟩
  split
  · rw [hf, hp]
  · exact hp

omit [PyFloat F] in
theorem Readable.leaseRows {fmt : OutboxFormat F V T} {t : OutboxTables V T} {w : Str} {e : T}
    {ids : List Str} (h : Readable fmt t) : Readable fmt (t.leaseRows w e ids) :=
  h.update fun _ => rfl

/-! ### What the statements find -/

theorem candidates_nodup {earlier : T → T → Bool} {order : RowOrder V T earlier} {now : T}
    {destination : Str} {limit : Int} {t : OutboxTables V T} :
    (candidates order now destination limit t).Nodup := by
  have hfilter : ((t.outbox.filter (claimable earlier now destination)).map
      OutboxRow.eventId).Nodup := nodup_filter t.eventIds
  have harranged := ((order.perm _).map OutboxRow.eventId).nodup_iff.mpr hfilter
  exact harranged.sublist ((List.take_sublist _ _).map _)

theorem mem_candidates {earlier : T → T → Bool} {order : RowOrder V T earlier} {now : T}
    {destination : Str} {limit : Int} {t : OutboxTables V T} {id : Str}
    (h : id ∈ candidates order now destination limit t) :
    ∃ row, t.row id = some row ∧ claimable earlier now destination row = true := by
  obtain ⟨row, hrow, rfl⟩ := List.mem_map.mp h
  have hmem := (order.perm _).mem_iff.mp (List.mem_of_mem_take hrow)
  obtain ⟨hin, hclaim⟩ := List.mem_filter.mp hmem
  exact ⟨row, row_of_mem hin, hclaim⟩

theorem row_of_leasedBy {eventId workerId : Str} {row : OutboxRow V T} {t : OutboxTables V T}
    (hmem : row ∈ t.outbox) (h : row.leasedBy eventId workerId = true) :
    t.row eventId = some row ∧ row.status = .leased ∧ row.leaseOwner = some workerId := by
  obtain ⟨rfl, hstatus, howner⟩ := OutboxRow.leasedBy_iff.mp h
  exact ⟨row_of_mem hmem, hstatus, howner⟩

/-- The row a worker leases is the only one with its event id. -/
theorem leasedBy_eq_of_row {eventId workerId : Str} {row r : OutboxRow V T} {t : OutboxTables V T}
    (hrow : t.row eventId = some row) (hstatus : row.status = .leased)
    (howner : row.leaseOwner = some workerId) (hr : r ∈ t.outbox) :
    r.leasedBy eventId workerId = decide (r.eventId = eventId) := by
  by_cases h : r.eventId = eventId
  · have heq : t.row eventId = some r := h ▸ row_of_mem hr
    rw [hrow] at heq
    cases heq
    rw [OutboxRow.leasedBy_iff.mpr ⟨h, hstatus, howner⟩, decide_eq_true h]
  · rw [decide_eq_false h, Bool.eq_false_iff]
    exact fun hl => h (OutboxRow.leasedBy_iff.mp hl).1

/-- A settling update that returns has found the worker's lease. -/
theorem settleLease_ok {eventId workerId : Str} {u : Unit}
    {change : OutboxTables V T → (OutboxRow V T → Bool) → OutboxTables V T}
    {t t' : OutboxTables V T} (h : settleLease eventId workerId change t = (.ok u, t')) :
    t' = change t (OutboxRow.leasedBy eventId workerId) ∧
      ∃ row, t.row eventId = some row ∧ row.status = .leased ∧ row.leaseOwner = some workerId := by
  rw [settleLease, PyM.get_bind] at h
  split_ifs at h with hcount
  · cases h
    have hpos : 0 < t.outbox.countP (OutboxRow.leasedBy eventId workerId) := by omega
    obtain ⟨row, hmem, hleased⟩ := List.countP_pos_iff.mp hpos
    exact ⟨rfl, row, row_of_leasedBy hmem hleased⟩
  · cases h

theorem find_leasedBy {eventId workerId : Str} {row : OutboxRow V T} {t : OutboxTables V T}
    (h : t.outbox.find? (OutboxRow.leasedBy eventId workerId) = some row) :
    t.row eventId = some row ∧ row.status = .leased ∧ row.leaseOwner = some workerId :=
  row_of_leasedBy (List.mem_of_find?_eq_some h) (List.find?_some h)

omit [PyFloat F] in
/-- Events that can be read back are read back. -/
theorem mapM_rowEvent {fmt : OutboxFormat F V T} {t : OutboxTables V T} (h : Readable fmt t) :
    ∀ {rows : List (OutboxRow V T)}, (∀ row ∈ rows, row ∈ t.outbox) →
      ∃ events, rows.mapM (rowEvent fmt) = .ok events := by
  intro rows hrows
  induction rows with
  | nil => exact ⟨[], rfl⟩
  | cons row rows ih =>
    obtain ⟨payload, hp⟩ := h row (hrows row List.mem_cons_self)
    obtain ⟨events, he⟩ := ih fun r hr => hrows r (List.mem_cons_of_mem _ hr)
    rw [List.mapM_cons, he, rowEvent, hp]
    exact ⟨_, rfl⟩

omit [PyFloat F] in
theorem mapM_taken {fmt : OutboxFormat F V T} {t : OutboxTables V T} (h : Readable fmt t)
    (ids : List Str) : ∃ events, (ids.filterMap t.row).mapM (rowEvent fmt) = .ok events := by
  refine mapM_rowEvent h fun row hrow => ?_
  obtain ⟨id, -, hid⟩ := List.mem_filterMap.mp hrow
  exact mem_of_row hid

theorem eventRow_columns {fmt : OutboxFormat F V T} {event : OutboxEvent F} {row : OutboxRow V T}
    (h : eventRow fmt event = .ok row) :
    row.eventId = event.eventId ∧ row.topic = event.topic ∧
      row.identity = (event.destination, event.idempotencyKey) ∧ row.status = event.status ∧
      row.attempts = event.attempts ∧ row.leaseOwner = orNone event.leaseOwner ∧
      fmt.writePayload (payloadText event.payload) = .ok row.payloadJson := by
  simp only [eventRow, except_bind_eq_ok] at h
  obtain ⟨_, -, _, -, _, -, payload, hp, _, -, _, -, _, -, _, -, _, -, _, -, _, -, h⟩ := h
  cases h
  exact ⟨rfl, rfl, rfl, rfl, rfl, rfl, hp⟩

/-! ### SQLite -/

namespace SqliteOutboxStore

variable {now : Instant} {t t' : OutboxTables Str Str}

theorem enqueue_cases (event : OutboxEvent F) (t : OutboxTables Str Str) :
    (∃ e, eventRow sqliteFormat event = .error e ∧ enqueue event t = (.error e, t)) ∨
    ∃ row, eventRow sqliteFormat event = .ok row ∧
      ((∃ hid hidentity, enqueue event t = (.ok event, t.insert row hid hidentity)) ∨
        (¬ (t.row row.eventId = none ∧ t.rowOf row.identity = none) ∧
          enqueue event t = (existingEvent event t, t))) := by
  cases hrow : eventRow sqliteFormat event with
  | error e => exact .inl ⟨e, rfl, by simp [enqueue, PyM.transaction, PyM.bind_apply, hrow]⟩
  | ok row =>
    refine .inr ⟨row, rfl, ?_⟩
    by_cases h : t.row row.eventId = none ∧ t.rowOf row.identity = none
    · exact .inl ⟨h.1, h.2, by simp [enqueue, PyM.transaction, PyM.bind_apply, hrow, h]⟩
    · refine .inr ⟨h, ?_⟩
      cases hexisting : existingEvent event t with
      | error e => simp [enqueue, PyM.transaction, PyM.bind_apply, hrow, h, hexisting]
      | ok e => simp [enqueue, PyM.transaction, PyM.bind_apply, hrow, h, hexisting]

theorem enqueue_move {event : OutboxEvent F} {r : Except PyExc (List (OutboxEvent F))}
    (hread : Readable (sqliteFormat (F := F)) t)
    (h : (enqueue event >>= fun e => pure [e]) t = (r, t')) :
    OutboxMove sqliteFormat now (.enqueue event) r t t' := by
  rcases enqueue_cases event t with ⟨e, hrow, heq⟩ | ⟨row, hrow, ⟨hid, hidentity, heq⟩ | ⟨hnot, heq⟩⟩
  · rw [PyM.bind_of_error heq] at h
    cases h
    exact .unwritable hrow
  · rw [PyM.bind_of_ok heq] at h
    cases h
    exact .enqueued hrow
  · -- the insertion violates a constraint
    have hcolumns := (eventRow_columns hrow).2.2.1
    cases hexisting : t.rowOf row.identity with
    | none =>
      have hnone : existingEvent event t = .error .integrityError := by
        rw [existingEvent, ← hcolumns, hexisting]
      rw [hnone] at heq
      rw [PyM.bind_of_error heq] at h
      cases h
      exact .clash hrow (fun hid => hnot ⟨hid, hexisting⟩) hexisting
    | some existing =>
      obtain ⟨payload, hp⟩ := hread existing (mem_of_rowAt hexisting)
      have hevent : ∃ e, rowEvent (sqliteFormat (F := F)) existing = .ok e := by
        rw [rowEvent, hp]
        exact ⟨_, rfl⟩
      obtain ⟨e, he⟩ := hevent
      have hsome : existingEvent event t = .ok e := by
        rw [existingEvent, ← hcolumns, hexisting]
        exact he
      rw [hsome] at heq
      rw [PyM.bind_of_ok heq] at h
      cases h
      exact .duplicate hrow hexisting he

/-- What `claim`'s transaction takes, and what it refuses. -/
theorem takeRows_cases {order : RowOrder Str Str (sqliteFormat (F := F)).earlier}
    {expires : Instant} {workerId destination : Str} {limit : Int}
    {r : Except PyExc (List (OutboxRow Str Str))}
    (h : takeRows order now expires workerId limit destination t = (r, t')) :
    (∃ e, r = .error e ∧ t' = t) ∨
    ∃ ids, ids = candidates order now.isoformat destination limit t ∧
      t' = t.leaseRows workerId expires.isoformat ids ∧ r = .ok (ids.filterMap t'.row) := by
  rcases PyM.transaction_cases h with herror | ⟨rows, rfl, hbody⟩
  · exact .inl herror
  · obtain ⟨_, -, hbody⟩ := PyM.ofExcept_bind_eq_ok.mp hbody
    rw [PyM.get_bind] at hbody
    obtain ⟨_, -, hbody⟩ := PyM.ofExcept_bind_eq_ok.mp hbody
    cases hbody
    exact .inr ⟨_, rfl, rfl, rfl⟩

theorem expiryAfter_addSeconds {expires : Instant} {leaseSeconds : Int}
    (h : expiryAfter now leaseSeconds = .ok expires) :
    now.addSeconds (max 1 leaseSeconds).toNat = some expires := by
  cases ha : now.addSeconds (max 1 leaseSeconds).toNat with
  | none =>
    rw [expiryAfter, ha] at h
    cases h
  | some later =>
    rw [expiryAfter, ha] at h
    cases h
    rfl

theorem availableAfter_addMicros {available : Instant} {delay : Int}
    (h : availableAfter now delay = .ok available) :
    now.addMicros (max 0 delay).toNat = some available := by
  cases ha : now.addMicros (max 0 delay).toNat with
  | none =>
    rw [availableAfter, ha] at h
    cases h
  | some later =>
    rw [availableAfter, ha] at h
    cases h
    rfl

theorem claim_move {order : RowOrder Str Str (sqliteFormat (F := F)).earlier}
    {workerId destination : Str} {limit leaseSeconds : Int}
    {r : Except PyExc (List (OutboxEvent F))} (hread : Readable (sqliteFormat (F := F)) t)
    (h : claim order now workerId limit leaseSeconds destination t = (r, t')) :
    OutboxMove sqliteFormat now (.claim workerId limit leaseSeconds destination) r t t' := by
  have hop : ∀ event : OutboxEvent F,
      OutboxOperation.claim workerId limit leaseSeconds destination ≠ .enqueue event := by
    intro event heq
    cases heq
  unfold claim at h
  split_ifs at h with hblank
  · cases h
    exact .refused hop
  cases hexpires : expiryAfter now leaseSeconds with
  | error e =>
    rw [hexpires] at h
    cases h
    exact .refused hop
  | ok expires =>
    rw [hexpires] at h
    change (takeRows order now expires workerId limit destination >>= fun rows =>
      PyM.ofExcept (rows.mapM (rowEvent sqliteFormat))) t = (r, t') at h
    rcases htake : takeRows order now expires workerId limit destination t with ⟨taken, t₁⟩
    -- the transaction raised, and nothing was leased, or it leased the candidates
    rcases takeRows_cases htake with ⟨e, rfl, rfl⟩ | ⟨ids, hids, rfl, rfl⟩
    · rw [PyM.bind_of_error htake] at h
      cases h
      exact .refused hop
    · rw [PyM.bind_of_ok htake] at h
      have hread' : Readable (sqliteFormat (F := F)) (t.leaseRows workerId expires.isoformat ids) :=
        hread.leaseRows
      obtain ⟨events, hevents⟩ := mapM_taken hread' ids
      rw [hevents] at h
      cases h
      refine .claimed (expiryAfter_addSeconds hexpires) (hids ▸ candidates_nodup) ?_ (.refl _)
        hevents
      intro id hid
      rw [hids] at hid
      exact mem_candidates hid

theorem markDelivered_move {eventId workerId : Str} {r : Except PyExc (List (OutboxEvent F))}
    (h : (markDelivered now eventId workerId >>= fun _ => pure []) t = (r, t')) :
    OutboxMove sqliteFormat now (.markDelivered eventId workerId) r t t' := by
  rcases hmark : markDelivered now eventId workerId t with ⟨q, t₁⟩
  rcases PyM.transaction_cases hmark with ⟨e, rfl, rfl⟩ | ⟨u, rfl, hbody⟩
  · rw [PyM.bind_of_error hmark] at h
    cases h
    exact .refused fun event heq => by cases heq
  · rw [PyM.bind_of_ok hmark] at h
    cases h
    obtain ⟨_, -, hsettle⟩ := PyM.ofExcept_bind_eq_ok.mp hbody
    obtain ⟨rfl, row, hrow, hstatus, howner⟩ := settleLease_ok hsettle
    exact .delivered hrow hstatus howner

/-- Neither the overflow of the time nor the rolled back update changes
anything. -/
theorem reschedule_cases {eventId workerId error : Str} {delay : Int} {r : Except PyExc Unit}
    (h : reschedule now eventId workerId error delay t = (r, t')) :
    (∃ e, r = .error e ∧ t' = t) ∨ ∃ available, availableAfter now delay = .ok available ∧
      r = .ok () ∧ ∃ row, t.row eventId = some row ∧ row.status = .leased ∧
        row.leaseOwner = some workerId ∧ t' = t.postponeRows
          (OutboxRow.leasedBy eventId workerId) available.isoformat (errorText error) := by
  cases havailable : availableAfter now delay with
  | error e =>
    rw [reschedule, havailable] at h
    cases h
    exact .inl ⟨e, rfl, rfl⟩
  | ok available =>
    rw [reschedule, havailable] at h
    rcases PyM.transaction_cases h with herror | ⟨u, rfl, hbody⟩
    · exact .inl herror
    · obtain ⟨_, -, hbody⟩ := PyM.ofExcept_bind_eq_ok.mp hbody
      obtain ⟨_, -, hsettle⟩ := PyM.ofExcept_bind_eq_ok.mp hbody
      obtain ⟨ht, row, hrow, hstatus, howner⟩ := settleLease_ok hsettle
      exact .inr ⟨available, rfl, rfl, row, hrow, hstatus, howner, ht⟩

theorem reschedule_move {eventId workerId error : Str} {delay : Int}
    {r : Except PyExc (List (OutboxEvent F))}
    (h : (reschedule now eventId workerId error delay >>= fun _ => pure []) t = (r, t')) :
    OutboxMove sqliteFormat now (.reschedule eventId workerId error delay) r t t' := by
  rcases hres : reschedule now eventId workerId error delay t with ⟨q, t₁⟩
  rcases reschedule_cases hres with
    ⟨e, rfl, rfl⟩ | ⟨available, havailable, rfl, row, hrow, hstatus, howner, rfl⟩
  · rw [PyM.bind_of_error hres] at h
    cases h
    exact .refused fun event heq => by cases heq
  · rw [PyM.bind_of_ok hres] at h
    cases h
    exact .rescheduled (availableAfter_addMicros havailable) hrow hstatus howner

theorem leasedRow_cases {eventId workerId : Str} {r : Except PyExc (OutboxRow Str Str)}
    (h : leasedRow eventId workerId t = (r, t')) :
    t' = t ∧ ∀ row, r = .ok row →
      t.row eventId = some row ∧ row.status = .leased ∧ row.leaseOwner = some workerId := by
  cases hbind : bindIds eventId workerId with
  | error e =>
    rw [leasedRow, hbind] at h
    cases h
    exact ⟨rfl, fun row hr => by cases hr⟩
  | ok u =>
    cases hfind : t.outbox.find? (OutboxRow.leasedBy eventId workerId) with
    | none =>
      have hraise : leasedRow eventId workerId t = (.error (.keyError [eventId]), t) := by
        simp [leasedRow, PyM.bind_apply, hbind, hfind]
      rw [hraise] at h
      cases h
      exact ⟨rfl, fun row hr => by cases hr⟩
    | some row =>
      have hreturn : leasedRow eventId workerId t = (.ok row, t) := by
        simp [leasedRow, PyM.bind_apply, hbind, hfind]
      rw [hreturn] at h
      cases h
      refine ⟨rfl, fun row' hr => ?_⟩
      cases hr
      exact find_leasedBy hfind

/-- The transaction of `dead_letter`, whatever row was read. -/
theorem moveToDeadLetters_cases {eventId error : Str} {row : OutboxRow Str Str}
    {r : Except PyExc Unit} (h : moveToDeadLetters now eventId error row t = (r, t')) :
    (∃ e, r = .error e ∧ t' = t) ∨ (r = .ok () ∧
      t' = (t.replaceLetter (row.deadLetter (errorText error) now.isoformat)).buryRows
        (fun row => row.eventId = eventId) (errorText error)) := by
  rcases PyM.transaction_cases h with herror | ⟨u, rfl, hbody⟩
  · exact .inl herror
  · obtain ⟨_, -, hbody⟩ := PyM.ofExcept_bind_eq_ok.mp hbody
    cases hbody
    exact .inr ⟨rfl, rfl⟩

theorem deadLetter_move {eventId workerId error : Str} {r : Except PyExc (List (OutboxEvent F))}
    (h : (deadLetter now eventId workerId error >>= fun _ => pure []) t = (r, t')) :
    OutboxMove sqliteFormat now (.deadLetter eventId workerId error) r t t' := by
  have hop : ∀ event : OutboxEvent F,
      OutboxOperation.deadLetter eventId workerId error ≠ .enqueue event := by
    intro event heq
    cases heq
  rcases hread : leasedRow eventId workerId t with ⟨_ | row, t₁⟩
  · obtain ⟨rfl, -⟩ := leasedRow_cases hread
    have hdead : deadLetter now eventId workerId error t₁ = _ := PyM.bind_of_error hread
    rw [PyM.bind_of_error hdead] at h
    cases h
    exact .refused hop
  · obtain ⟨rfl, hrow⟩ := leasedRow_cases hread
    obtain ⟨hrow, hstatus, howner⟩ := hrow row rfl
    have hdead : deadLetter now eventId workerId error t₁ =
        moveToDeadLetters now eventId error row t₁ := PyM.bind_of_ok hread
    rcases hmove : moveToDeadLetters now eventId error row t₁ with ⟨q, t₂⟩
    rw [hmove] at hdead
    rcases moveToDeadLetters_cases hmove with ⟨e, rfl, rfl⟩ | ⟨rfl, rfl⟩
    · rw [PyM.bind_of_error hdead] at h
      cases h
      exact .refused hop
    · rw [PyM.bind_of_ok hdead] at h
      cases h
      have hid : row.eventId = eventId := eventId_of_row hrow
      have hself : (t₁.replaceLetter (row.deadLetter (errorText error) now.isoformat)).letter
          eventId = some (row.deadLetter (errorText error) now.isoformat) := by
        rw [← hid]
        exact letter_replaceLetter_self
      refine .deadLettered hrow hstatus howner rfl (Option.isSome_iff_exists.mpr ⟨_, hself⟩)
        (fun _ => hself) fun id hne => ?_
      exact letter_replaceLetter_of_ne fun heq => hne (heq.symm.trans hid)

end SqliteOutboxStore

/-! ### PostgreSQL -/

namespace PostgresOutboxStore

variable {now : Instant} {driver : PgOutboxDriver F} {t t' : OutboxTables (Json F) Instant}

theorem enqueue_move {event : OutboxEvent F} {r : Except PyExc (List (OutboxEvent F))}
    (hread : Readable (postgresFormat driver) t)
    (h : (enqueue driver event >>= fun e => pure [e]) t = (r, t')) :
    OutboxMove (postgresFormat driver) now (.enqueue event) r t t' := by
  cases hrow : eventRow (postgresFormat driver) event with
  | error e =>
    have heq : enqueue driver event t = (.error e, t) := by
      simp [enqueue, PyM.transaction, PyM.bind_apply, hrow]
    rw [PyM.bind_of_error heq] at h
    cases h
    exact .unwritable hrow
  | ok row =>
    have hcolumns := (eventRow_columns hrow).2.2.1
    cases hexisting : t.rowOf row.identity with
    | none =>
      by_cases hid : t.row row.eventId = none
      · have heq : enqueue driver event t = (.ok event, t.insert row hid hexisting) := by
          simp [enqueue, PyM.transaction, PyM.bind_apply, hrow, hexisting, hid]
        rw [PyM.bind_of_ok heq] at h
        cases h
        exact .enqueued hrow
      · have heq : enqueue driver event t = (.error uniqueViolation, t) := by
          simp [enqueue, PyM.transaction, PyM.bind_apply, hrow, hexisting, hid]
        rw [PyM.bind_of_error heq] at h
        cases h
        exact .clash hrow hid hexisting
    | some existing =>
      obtain ⟨payload, hp⟩ := hread existing (mem_of_rowAt hexisting)
      have hevent : ∃ e, rowEvent (postgresFormat driver) existing = .ok e := by
        rw [rowEvent, hp]
        exact ⟨_, rfl⟩
      obtain ⟨e, he⟩ := hevent
      have heq : enqueue driver event t = (.ok e, t) := by
        simp [enqueue, PyM.transaction, PyM.bind_apply, hrow, hexisting, ← hcolumns, he]
      rw [PyM.bind_of_ok heq] at h
      cases h
      exact .duplicate hrow hexisting he

theorem inRange_eq_ok {o : Option Instant} {u : Instant} (h : inRange o = .ok u) : o = some u := by
  cases o with
  | none => cases h
  | some v =>
    cases h
    rfl

theorem takeRows_cases {order : RowOrder (Json F) Instant (postgresFormat driver).earlier}
    {returning : AnswerOrder (Json F) Instant} {workerId destination : Str}
    {limit leaseSeconds : Int} {r : Except PyExc (List (OutboxRow (Json F) Instant))}
    (h : takeRows driver order returning now workerId limit leaseSeconds destination t =
      (r, t')) :
    (∃ e, r = .error e ∧ t' = t) ∨
    ∃ expires ids, now.addSeconds (max 1 leaseSeconds).toNat = some expires ∧
      ids = candidates order now destination limit t ∧
      t' = t.leaseRows workerId expires ids ∧
      r = .ok (returning.arrange (ids.filterMap t'.row)) := by
  rcases PyM.transaction_cases h with herror | ⟨rows, rfl, hbody⟩
  · exact .inl herror
  · obtain ⟨_, -, hbody⟩ := PyM.ofExcept_bind_eq_ok.mp hbody
    obtain ⟨_, -, hbody⟩ := PyM.ofExcept_bind_eq_ok.mp hbody
    obtain ⟨expires, hexpires, hbody⟩ := PyM.ofExcept_bind_eq_ok.mp hbody
    cases hbody
    exact .inr ⟨expires, _, inRange_eq_ok hexpires, rfl, rfl, rfl⟩

theorem claim_move {order : RowOrder (Json F) Instant (postgresFormat driver).earlier}
    {returning : AnswerOrder (Json F) Instant} {workerId destination : Str}
    {limit leaseSeconds : Int} {r : Except PyExc (List (OutboxEvent F))}
    (hread : Readable (postgresFormat driver) t)
    (h : claim driver order returning now workerId limit leaseSeconds destination t = (r, t')) :
    OutboxMove (postgresFormat driver) now (.claim workerId limit leaseSeconds destination) r
      t t' := by
  rcases htake : takeRows driver order returning now workerId limit leaseSeconds destination t
    with ⟨taken, t₁⟩
  rcases takeRows_cases htake with ⟨e, rfl, rfl⟩ | ⟨expires, ids, hexpires, hids, rfl, rfl⟩
  · rw [claim, PyM.bind_of_error htake] at h
    cases h
    exact .refused fun event heq => by cases heq
  · rw [claim, PyM.bind_of_ok htake] at h
    have hread' : Readable (postgresFormat driver) (t.leaseRows workerId expires ids) :=
      hread.leaseRows
    -- the rows come back in an order of the database's own
    have hperm := returning.perm (ids.filterMap (t.leaseRows workerId expires ids).row)
    obtain ⟨events, hevents⟩ := mapM_rowEvent hread' fun row hrow => by
      obtain ⟨id, -, hid⟩ := List.mem_filterMap.mp (hperm.mem_iff.mp hrow)
      exact mem_of_row hid
    rw [hevents] at h
    cases h
    refine .claimed hexpires (hids ▸ candidates_nodup) ?_ hperm hevents
    intro id hid
    rw [hids] at hid
    exact mem_candidates hid

theorem markDelivered_move {eventId workerId : Str} {r : Except PyExc (List (OutboxEvent F))}
    (h : (markDelivered now eventId workerId >>= fun _ => pure []) t = (r, t')) :
    OutboxMove (postgresFormat driver) now (.markDelivered eventId workerId) r t t' := by
  rcases hmark : markDelivered now eventId workerId t with ⟨q, t₁⟩
  rcases PyM.transaction_cases hmark with ⟨e, rfl, rfl⟩ | ⟨u, rfl, hbody⟩
  · rw [PyM.bind_of_error hmark] at h
    cases h
    exact .refused fun event heq => by cases heq
  · rw [PyM.bind_of_ok hmark] at h
    cases h
    obtain ⟨_, -, hsettle⟩ := PyM.ofExcept_bind_eq_ok.mp hbody
    obtain ⟨rfl, row, hrow, hstatus, howner⟩ := settleLease_ok hsettle
    exact .delivered hrow hstatus howner

theorem reschedule_move {eventId workerId error : Str} {delay : Int}
    {r : Except PyExc (List (OutboxEvent F))}
    (h : (reschedule now eventId workerId error delay >>= fun _ => pure []) t = (r, t')) :
    OutboxMove (postgresFormat driver) now (.reschedule eventId workerId error delay) r t t' := by
  rcases hres : reschedule now eventId workerId error delay t with ⟨q, t₁⟩
  rcases PyM.transaction_cases hres with ⟨e, rfl, rfl⟩ | ⟨u, rfl, hbody⟩
  · rw [PyM.bind_of_error hres] at h
    cases h
    exact .refused fun event heq => by cases heq
  · rw [PyM.bind_of_ok hres] at h
    cases h
    obtain ⟨_, -, hbody⟩ := PyM.ofExcept_bind_eq_ok.mp hbody
    obtain ⟨_, -, hbody⟩ := PyM.ofExcept_bind_eq_ok.mp hbody
    obtain ⟨available, havailable, hsettle⟩ := PyM.ofExcept_bind_eq_ok.mp hbody
    obtain ⟨rfl, row, hrow, hstatus, howner⟩ := settleLease_ok hsettle
    exact .rescheduled (inRange_eq_ok havailable) hrow hstatus howner

omit [PyFloat F] in
theorem deadLetter_cases {eventId workerId error : Str} {r : Except PyExc Unit}
    (h : deadLetter now eventId workerId error t = (r, t')) :
    (∃ e, r = .error e ∧ t' = t) ∨ r = .ok () ∧ ∃ row, t.row eventId = some row ∧
      row.status = .leased ∧ row.leaseOwner = some workerId ∧
      t' = (t.buryRows (OutboxRow.leasedBy eventId workerId) (errorText error)).upsertLetter
        (row.deadLetter (errorText error) now) := by
  rcases PyM.transaction_cases h with herror | ⟨u, rfl, hbody⟩
  · exact .inl herror
  · obtain ⟨_, -, hbody⟩ := PyM.ofExcept_bind_eq_ok.mp hbody
    obtain ⟨_, -, hbody⟩ := PyM.ofExcept_bind_eq_ok.mp hbody
    rw [PyM.get_bind] at hbody
    cases hfind : t.outbox.find? (OutboxRow.leasedBy eventId workerId) with
    | none =>
      rw [hfind] at hbody
      cases hbody
    | some row =>
      rw [hfind] at hbody
      cases hbody
      obtain ⟨hrow, hstatus, howner⟩ := find_leasedBy hfind
      exact .inr ⟨rfl, row, hrow, hstatus, howner, rfl⟩

theorem deadLetter_move {eventId workerId error : Str} {r : Except PyExc (List (OutboxEvent F))}
    (h : (deadLetter now eventId workerId error >>= fun _ => pure []) t = (r, t')) :
    OutboxMove (postgresFormat driver) now (.deadLetter eventId workerId error) r t t' := by
  rcases hdead : deadLetter now eventId workerId error t with ⟨q, t₁⟩
  rcases deadLetter_cases hdead with ⟨e, rfl, rfl⟩ | ⟨rfl, row, hrow, hstatus, howner, rfl⟩
  · rw [PyM.bind_of_error hdead] at h
    cases h
    exact .refused fun event heq => by cases heq
  · rw [PyM.bind_of_ok hdead] at h
    cases h
    have hid : row.eventId = eventId := eventId_of_row hrow
    refine .deadLettered hrow hstatus howner ?_ ?_ ?_ ?_
    · exact updateWhere_congr fun r hr => leasedBy_eq_of_row hrow hstatus howner hr
    · rw [← hid]
      exact letter_upsertLetter_isSome
    · intro hnone
      rw [← hid] at hnone ⊢
      exact letter_upsertLetter_self hnone
    · exact fun id hne => letter_upsertLetter_of_ne fun heq => hne (heq.symm.trans hid)

end PostgresOutboxStore

/-- An operation of either store has one of the outcomes. -/
theorem OutboxBackend.move {backend : OutboxBackend F V T} {now : Instant}
    {op : OutboxOperation F} {r : Except PyExc (List (OutboxEvent F))} {t t' : OutboxTables V T}
    (hread : Readable backend.format t) (h : backend.perform now op t = (r, t')) :
    OutboxMove backend.format now op r t t' := by
  cases backend with
  | sqlite order =>
    cases op with
    | enqueue event => exact SqliteOutboxStore.enqueue_move hread h
    | claim workerId limit leaseSeconds destination =>
      exact SqliteOutboxStore.claim_move hread h
    | markDelivered eventId workerId => exact SqliteOutboxStore.markDelivered_move h
    | reschedule eventId workerId error delay => exact SqliteOutboxStore.reschedule_move h
    | deadLetter eventId workerId error => exact SqliteOutboxStore.deadLetter_move h
  | postgres driver order returning =>
    cases op with
    | enqueue event => exact PostgresOutboxStore.enqueue_move hread h
    | claim workerId limit leaseSeconds destination =>
      exact PostgresOutboxStore.claim_move hread h
    | markDelivered eventId workerId => exact PostgresOutboxStore.markDelivered_move h
    | reschedule eventId workerId error delay => exact PostgresOutboxStore.reschedule_move h
    | deadLetter eventId workerId error => exact PostgresOutboxStore.deadLetter_move h

/-- The operations keep every payload readable. -/
theorem OutboxMove.readable {fmt : OutboxFormat F V T} (hfmt : fmt.Lawful) {now : Instant}
    {op : OutboxOperation F} {r : Except PyExc (List (OutboxEvent F))} {t t' : OutboxTables V T}
    (h : OutboxMove fmt now op r t t') (hread : Readable fmt t) : Readable fmt t' := by
  cases h with
  | @enqueued _ row _ hid hidentity hrow =>
    intro r hr
    rcases List.mem_append.mp hr with hr | hr
    · exact hread r hr
    · obtain rfl := List.mem_singleton.mp hr
      exact hfmt.reads_back _ _ (eventRow_columns hrow).2.2.2.2.2.2
  | claimed => exact hread.leaseRows
  | delivered => exact hread.update fun _ => rfl
  | rescheduled => exact hread.update fun _ => rfl
  | deadLettered _ _ _ houtbox =>
    intro r hr
    rw [houtbox] at hr
    exact hread.update (f := OutboxRow.bury _) (fun _ => rfl) r hr
  | _ => exact hread

end AgentRoi
