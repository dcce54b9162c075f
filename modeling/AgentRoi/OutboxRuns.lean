/-
Runs of an outbox store: operations of any number of workers, in any order,
with a clock that does not go back.

* `OutboxRun` — the operations with their results, newest first, and the
  tables they leave;
* `RowMove` — what an operation makes of the row of one event;
* `Shows`, `run_shows` — the tables are a queue of jobs under leases, whose
  trace the operations with their results are.
-/
import AgentRoi.CallRuns
import AgentRoi.LeaseQueue
import AgentRoi.OutboxMoves

namespace AgentRoi

open OutboxTables RowTable

variable {F V T : Type}

structure OutboxCall (F : Type) where
  now : Instant
  op : OutboxOperation F

/-- A call and its result. -/
abbrev OutboxEntry (F : Type) := OutboxCall F × Except PyExc (List (OutboxEvent F))

/-- An event that `OutboxEvent.create` built. -/
def OutboxEvent.Created [PyFloat F] (event : OutboxEvent F) : Prop :=
  ∃ topic destination payload idempotencyKey eventId uuid available created,
    OutboxEvent.create topic destination payload idempotencyKey eventId uuid available created =
      .ok event

/-- What may be called next: the clock does not go back, and events were built
by `create`. -/
def OutboxAllowed [PyFloat F] (call : OutboxCall F) (log : List (OutboxEntry F)) : Prop :=
  (∀ entry ∈ log, entry.1.now ≤ call.now) ∧
    ∀ event, call.op = .enqueue event → event.Created

def OutboxBackend.exec [PyFloat F] (backend : OutboxBackend F V T) (call : OutboxCall F) :
    PyM (OutboxTables V T) (List (OutboxEvent F)) := backend.perform call.now call.op

/-- A run from empty tables. -/
abbrev OutboxRun [PyFloat F] (backend : OutboxBackend F V T) :
    List (OutboxEntry F) → OutboxTables V T → Prop :=
  CallRuns.Run backend.exec OutboxAllowed OutboxTables.empty

/-- The columns no operation changes. -/
def OutboxRow.content (row : OutboxRow V T) : Str × Str × Str × V × Str × T :=
  (row.eventId, row.topic, row.destination, row.payloadJson, row.idempotencyKey, row.createdAtUtc)

/-- The statuses no operation leaves. -/
def OutboxRow.Settled (row : OutboxRow V T) : Prop :=
  row.status = .delivered ∨ row.status = .deadLetter

/-- The event and the worker of an operation that ends a lease. -/
def OutboxOperation.settles : OutboxOperation F → Option (Str × Str)
  | .markDelivered eventId workerId | .reschedule eventId workerId _ _
  | .deadLetter eventId workerId _ => some (eventId, workerId)
  | _ => none

/-- Whether the call is a claim that answered with the event. -/
def claimsEvent (eventId : Str) (entry : OutboxEntry F) : Bool :=
  match entry.1.op, entry.2 with
  | .claim _ _ _ _, .ok events => eventId ∈ events.map OutboxEvent.eventId
  | _, _ => false

variable [PyFloat F] {fmt : OutboxFormat F V T} {now : Instant} {op : OutboxOperation F}
  {r : Except PyExc (List (OutboxEvent F))} {t t' : OutboxTables V T}

theorem created_columns {event : OutboxEvent F} (h : event.Created) :
    event.status = .pending ∧ event.attempts = 0 ∧ event.leaseOwner = [] := by
  obtain ⟨_, _, _, _, _, _, _, _, h⟩ := h
  obtain ⟨_, -, h⟩ := except_bind_eq_ok.mp h
  obtain ⟨_, -, h⟩ := except_bind_eq_ok.mp h
  obtain ⟨_, -, h⟩ := except_bind_eq_ok.mp h
  cases h
  exact ⟨rfl, rfl, rfl⟩

/-! ### One row -/

/-- What an operation makes of the row of the event `id`. -/
inductive RowMove (fmt : OutboxFormat F V T) (now : Instant) (id : Str) :
    OutboxOperation F → Except PyExc (List (OutboxEvent F)) → Option (OutboxRow V T) →
    Option (OutboxRow V T) → Prop
  | same {op : OutboxOperation F} {r : Except PyExc (List (OutboxEvent F))}
      {o : Option (OutboxRow V T)} :
      (∀ workerId limit leaseSeconds destination events,
        op = .claim workerId limit leaseSeconds destination → r = .ok events →
        id ∉ events.map OutboxEvent.eventId) →
      RowMove fmt now id op r o o
  | inserted {event : OutboxEvent F} {row : OutboxRow V T} : eventRow fmt event = .ok row →
      RowMove fmt now id (.enqueue event) (.ok [event]) none (some row)
  | leased {workerId destination : Str} {limit leaseSeconds : Int} {expires : Instant}
      {events : List (OutboxEvent F)} {row : OutboxRow V T} :
      now.addSeconds (max 1 leaseSeconds).toNat = some expires →
      id ∈ events.map OutboxEvent.eventId →
      claimable fmt.earlier (fmt.stamp now) destination row = true →
      RowMove fmt now id (.claim workerId limit leaseSeconds destination) (.ok events) (some row)
        (some (row.lease workerId (fmt.stamp expires)))
  | delivered {workerId : Str} {row : OutboxRow V T} :
      row.status = .leased → row.leaseOwner = some workerId →
      RowMove fmt now id (.markDelivered id workerId) (.ok []) (some row)
        (some (row.deliver (fmt.stamp now)))
  | rescheduled {workerId error : Str} {delay : Int} {available : Instant}
      {row : OutboxRow V T} :
      row.status = .leased → row.leaseOwner = some workerId →
      RowMove fmt now id (.reschedule id workerId error delay) (.ok []) (some row)
        (some (row.postpone (fmt.stamp available) (errorText error)))
  | deadLettered {workerId error : Str} {row : OutboxRow V T} :
      row.status = .leased → row.leaseOwner = some workerId →
      RowMove fmt now id (.deadLetter id workerId error) (.ok []) (some row)
        (some (row.bury (errorText error)))

omit [PyFloat F] in
theorem row_leaseRows {workerId : Str} {expires : T} {ids : List Str} {id : Str} :
    (t.leaseRows workerId expires ids).row id =
      if id ∈ ids then (t.row id).map (OutboxRow.lease workerId expires) else t.row id := by
  rw [leaseRows, row_update]
  cases hrow : t.row id with
  | none => simp
  | some row =>
    rw [Option.map_some, eventId_of_row hrow]
    by_cases h : id ∈ ids <;> simp [h]

omit [PyFloat F] in
/-- An update of a worker's lease changes one row. -/
theorem row_update_leasedBy {eventId workerId id : Str} {row : OutboxRow V T}
    {f : OutboxRow V T → OutboxRow V T} {hid : ∀ row, (f row).eventId = row.eventId}
    {hidentity : ∀ row, (f row).identity = row.identity} (hrow : t.row eventId = some row)
    (hstatus : row.status = .leased) (howner : row.leaseOwner = some workerId) :
    (t.update (OutboxRow.leasedBy eventId workerId) f hid hidentity).row id =
      if id = eventId then some (f row) else t.row id := by
  rw [row_update]
  by_cases h : id = eventId
  · subst h
    have hleased : row.leasedBy id workerId = true :=
      OutboxRow.leasedBy_iff.mpr ⟨eventId_of_row hrow, hstatus, howner⟩
    simp [hrow, hleased]
  · rw [if_neg h]
    cases hr : t.row id with
    | none => rfl
    | some r =>
      have hnot : r.leasedBy eventId workerId ≠ true := by
        intro hleased
        exact h ((eventId_of_row hr).symm.trans (OutboxRow.leasedBy_iff.mp hleased).1)
      simp [hnot]

omit [PyFloat F] in
theorem row_of_outbox_eq {t₁ t₂ : OutboxTables V T} (h : t₁.outbox = t₂.outbox) (id : Str) :
    t₁.row id = t₂.row id := by
  rw [row, h]
  rfl

omit [PyFloat F] in
theorem row_buryRows {eventId error id : Str} {row : OutboxRow V T}
    (hrow : t.row eventId = some row) :
    (t.buryRows (fun row => row.eventId = eventId) error).row id =
      if id = eventId then some (row.bury error) else t.row id := by
  rw [buryRows, row_update]
  by_cases h : id = eventId
  · subst h
    simp [hrow, eventId_of_row hrow]
  · rw [if_neg h]
    cases hr : t.row id with
    | none => rfl
    | some r => simp [eventId_of_row hr, h]

omit [PyFloat F] in
theorem mapM_eventId {rows : List (OutboxRow V T)} {events : List (OutboxEvent F)}
    (h : rows.mapM (rowEvent fmt) = .ok events) :
    events.map OutboxEvent.eventId = rows.map OutboxRow.eventId := by
  induction rows generalizing events with
  | nil =>
    cases h
    rfl
  | cons row rows ih =>
    rw [List.mapM_cons] at h
    obtain ⟨e, he, h⟩ := except_bind_eq_ok.mp h
    obtain ⟨es, hes, h⟩ := except_bind_eq_ok.mp h
    cases h
    obtain ⟨payload, -, he⟩ := except_bind_eq_ok.mp he
    cases he
    rw [List.map_cons, List.map_cons, ih hes]

omit [PyFloat F] in
/-- The rows taken are those asked for. -/
theorem map_eventId_filterMap {ids : List Str} (h : ∀ id ∈ ids, ∃ row, t.row id = some row) :
    (ids.filterMap t.row).map OutboxRow.eventId = ids := by
  induction ids with
  | nil => rfl
  | cons id ids ih =>
    obtain ⟨row, hrow⟩ := h id List.mem_cons_self
    rw [List.filterMap_cons, hrow, List.map_cons, eventId_of_row hrow,
      ih fun id' hid' => h id' (List.mem_cons_of_mem _ hid')]

omit [PyFloat F] in
/-- The events a claim answers with are the ones it leased. -/
theorem claimed_ids {workerId : Str} {expires : T} {ids : List Str}
    {rows : List (OutboxRow V T)} {events : List (OutboxEvent F)}
    (hids : ∀ id ∈ ids, ∃ row, t.row id = some row)
    (hrows : rows.Perm (ids.filterMap (t.leaseRows workerId expires ids).row))
    (hevents : rows.mapM (rowEvent fmt) = .ok events) :
    (events.map OutboxEvent.eventId).Perm ids := by
  have hleased : ∀ id ∈ ids, ∃ row, (t.leaseRows workerId expires ids).row id = some row := by
    intro id hid
    obtain ⟨row, hrow⟩ := hids id hid
    exact ⟨_, by rw [row_leaseRows, if_pos hid, hrow]; rfl⟩
  rw [mapM_eventId hevents]
  exact (hrows.map _).trans (.of_eq (map_eventId_filterMap hleased))

theorem OutboxMove.rowMove (h : OutboxMove fmt now op r t t') (id : Str) :
    RowMove fmt now id op r (t.row id) (t'.row id) := by
  cases h with
  | @enqueued event row _ hid hidentity hrow =>
    by_cases heq : row.eventId = id
    · subst heq
      rw [hid, row_insert_self]
      exact .inserted hrow
    · rw [row_insert_of_ne heq]
      exact .same fun _ _ _ _ _ hop => by cases hop
  | @claimed workerId destination limit leaseSeconds expires ids rows events _ hexpires hnodup
      hclaim hperm hevents =>
    have hids := claimed_ids (fun id hid => (hclaim id hid).imp fun _ h => h.1) hperm hevents
    rw [row_leaseRows]
    -- the rows that were leased are the events that were returned
    by_cases hid : id ∈ ids
    · obtain ⟨row, hrow, hrowClaim⟩ := hclaim id hid
      rw [if_pos hid, hrow]
      exact .leased hexpires (hids.mem_iff.mpr hid) hrowClaim
    · rw [if_neg hid]
      refine .same fun _ _ _ _ events' _ hr hmem => hid ?_
      cases hr
      exact hids.mem_iff.mp hmem
  | @delivered eventId workerId row _ hrow hstatus howner =>
    rw [deliverRows, row_update_leasedBy hrow hstatus howner]
    by_cases heq : id = eventId
    · subst heq
      rw [if_pos rfl, hrow]
      exact .delivered hstatus howner
    · rw [if_neg heq]
      exact .same fun _ _ _ _ _ hop => by cases hop
  | @rescheduled eventId workerId error delay available row _ _ hrow hstatus howner =>
    rw [postponeRows, row_update_leasedBy hrow hstatus howner]
    by_cases heq : id = eventId
    · subst heq
      rw [if_pos rfl, hrow]
      exact .rescheduled hstatus howner
    · rw [if_neg heq]
      exact .same fun _ _ _ _ _ hop => by cases hop
  | @deadLettered eventId workerId error row _ _ hrow hstatus howner houtbox =>
    -- the copy in the dead letter table does not show in the row
    rw [row_of_outbox_eq houtbox, row_buryRows hrow]
    by_cases heq : id = eventId
    · subst heq
      rw [if_pos rfl, hrow]
      exact .deadLettered hstatus howner
    · rw [if_neg heq]
      exact .same fun _ _ _ _ _ hop => by cases hop
  -- these change no row
  | duplicate => exact .same fun _ _ _ _ _ hop => by cases hop
  | unwritable => exact .same fun _ _ _ _ _ hop => by cases hop
  | clash => exact .same fun _ _ _ _ _ hop => by cases hop
  | refused => exact .same fun _ _ _ _ _ _ hr => by cases hr

/-- An operation changes no content, and no row that is settled. -/
theorem RowMove.kept {id : Str} {row : OutboxRow V T} {o : Option (OutboxRow V T)}
    (h : RowMove fmt now id op r (some row) o) :
    ∃ row', o = some row' ∧ row'.content = row.content ∧ (row.Settled → row' = row) := by
  have hnot : row.status = .leased → ¬ row.Settled := by
    rintro hstatus (hs | hs)
    · rw [hstatus] at hs
      cases hs
    · rw [hstatus] at hs
      cases hs
  cases h with
  | same => exact ⟨row, rfl, rfl, fun _ => rfl⟩
  | leased _ _ hclaim =>
    refine ⟨_, rfl, rfl, fun hs => ?_⟩
    rcases hs with hs | hs <;> simp [claimable, hs] at hclaim
  | delivered hstatus => exact ⟨_, rfl, rfl, fun hs => absurd hs (hnot hstatus)⟩
  | rescheduled hstatus => exact ⟨_, rfl, rfl, fun hs => absurd hs (hnot hstatus)⟩
  | deadLettered hstatus => exact ⟨_, rfl, rfl, fun hs => absurd hs (hnot hstatus)⟩

/-! ### A queue of jobs under leases -/

/-- What a call does to the leases. -/
def leaseEvents (entry : OutboxEntry F) : List (LeaseQueue.Event Str Str Instant) :=
  match entry.1.op, entry.2 with
  | .claim workerId _ leaseSeconds _, .ok events =>
    (entry.1.now.addSeconds (max 1 leaseSeconds).toNat).elim [] fun expires =>
      events.map fun e => .claimed e.eventId workerId entry.1.now expires
  | .markDelivered eventId workerId, .ok _ => [.finished eventId workerId]
  | .reschedule eventId workerId _ _, .ok _ => [.released eventId workerId]
  | .deadLetter eventId workerId _, .ok _ => [.finished eventId workerId]
  | _, _ => []

omit [PyFloat F] in
theorem leaseEvents_claim {workerId destination : Str} {limit leaseSeconds : Int}
    {events : List (OutboxEvent F)} {expires : Instant}
    (h : now.addSeconds (max 1 leaseSeconds).toNat = some expires) :
    leaseEvents (⟨now, .claim workerId limit leaseSeconds destination⟩, .ok events) =
      events.map fun e => .claimed e.eventId workerId now expires := by
  show (now.addSeconds (max 1 leaseSeconds).toNat).elim [] _ = _
  rw [h]
  rfl

/-- The job a row stands for.  An event that is not stored waits. -/
inductive ShowsRow (fmt : OutboxFormat F V T) :
    Option (OutboxRow V T) → LeaseQueue.Job Str Instant → Prop
  | absent : ShowsRow fmt none ⟨.waiting, 0⟩
  | pending {row : OutboxRow V T} : row.status = .pending →
      ShowsRow fmt (some row) ⟨.waiting, row.attempts⟩
  | leased {row : OutboxRow V T} {owner : Str} {expires : Instant} : row.status = .leased →
      row.leaseOwner = some owner → row.leaseExpiresAtUtc = some (fmt.stamp expires) →
      ShowsRow fmt (some row) ⟨.leased owner expires, row.attempts⟩
  | settled {row : OutboxRow V T} : row.Settled → ShowsRow fmt (some row) ⟨.finished, row.attempts⟩

/-- The jobs the tables stand for. -/
def Shows (fmt : OutboxFormat F V T) (t : OutboxTables V T)
    (jobs : Str → LeaseQueue.Job Str Instant) : Prop := ∀ id, ShowsRow fmt (t.row id) (jobs id)

omit [PyFloat F] in
theorem ShowsRow.attempts {row : OutboxRow V T} {job : LeaseQueue.Job Str Instant}
    (h : ShowsRow fmt (some row) job) : row.attempts = job.claims := by
  cases h <;> rfl

/-- The `WHERE` clause of `claim` finds jobs that may be claimed. -/
theorem ShowsRow.claimable (hfmt : fmt.Lawful) {row : OutboxRow V T}
    {job : LeaseQueue.Job Str Instant} {destination : Str} (h : ShowsRow fmt (some row) job)
    (hclaim : claimable fmt.earlier (fmt.stamp now) destination row = true) :
    job.Claimable now := by
  cases h with
  | pending => exact .inl rfl
  | leased hstatus howner hexpires =>
    simp only [AgentRoi.claimable, hstatus, hexpires, Option.any_some, hfmt.earlier_stamp] at hclaim
    simp at hclaim
    exact .inr ⟨_, _, rfl, hclaim.1.2⟩
  | settled hs =>
    rcases hs with hs | hs <;> simp [AgentRoi.claimable, hs] at hclaim

omit [PyFloat F] in
/-- A leased row stands for a job under a lease. -/
theorem ShowsRow.lease {row : OutboxRow V T} {job : LeaseQueue.Job Str Instant} {owner : Str}
    (h : ShowsRow fmt (some row) job) (hstatus : row.status = .leased)
    (howner : row.leaseOwner = some owner) : ∃ expires, job.phase = .leased owner expires := by
  cases h with
  | pending hs =>
    rw [hstatus] at hs
    cases hs
  | leased _ ho _ =>
    rw [howner] at ho
    cases ho
    exact ⟨_, rfl⟩
  | settled hs =>
    rcases hs with hs | hs
    · rw [hstatus] at hs
      cases hs
    · rw [hstatus] at hs
      cases hs

/-- The queue follows every operation. -/
theorem OutboxMove.shows (hfmt : fmt.Lawful) (h : OutboxMove fmt now op r t t')
    (hcreated : ∀ event, op = .enqueue event → event.Created)
    {trace : List (LeaseQueue.Event Str Str Instant)} {jobs : Str → LeaseQueue.Job Str Instant}
    (hreach : LeaseQueue.Reach trace jobs) (hshows : Shows fmt t jobs) :
    ∃ jobs', LeaseQueue.Reach (leaseEvents (⟨now, op⟩, r) ++ trace) jobs' ∧ Shows fmt t' jobs' := by
  cases h with
  | @enqueued event row _ hid hidentity hrow =>
    -- the job of the new event has waited from the start
    refine ⟨jobs, hreach, fun id => ?_⟩
    by_cases heq : row.eventId = id
    · subst heq
      obtain ⟨-, -, -, hstatus, hattempts, -⟩ := eventRow_columns hrow
      obtain ⟨hpending, hzero, -⟩ := created_columns (hcreated event rfl)
      have habsent := hshows row.eventId
      rw [hid] at habsent
      rw [row_insert_self]
      generalize hjob : jobs row.eventId = job at habsent
      cases habsent
      have hrowAttempts : row.attempts = 0 := hattempts.trans hzero
      rw [← hrowAttempts]
      exact .pending (hstatus.trans hpending)
    · rw [row_insert_of_ne heq]
      exact hshows id
  | @claimed workerId destination limit leaseSeconds expires ids rows events _ hexpires hnodup
      hclaim hperm hevents =>
    have hids := claimed_ids (fun id hid => (hclaim id hid).imp fun _ h => h.1) hperm hevents
    have hjobs : ∀ id ∈ events.map OutboxEvent.eventId, (jobs id).Claimable now := by
      intro id hid
      obtain ⟨row, hrow, hrowClaim⟩ := hclaim id (hids.mem_iff.mp hid)
      have hshow := hshows id
      rw [hrow] at hshow
      exact hshow.claimable hfmt hrowClaim
    obtain ⟨jobs', hreach', hin, hout⟩ := hreach.claimAll workerId expires
      (hids.nodup_iff.mpr hnodup) hjobs
    refine ⟨jobs', ?_, fun id => ?_⟩
    · rw [leaseEvents_claim hexpires]
      rwa [List.map_map] at hreach'
    · rw [row_leaseRows]
      by_cases hid : id ∈ ids
      · obtain ⟨row, hrow, -⟩ := hclaim id hid
        have hshow := hshows id
        rw [hrow] at hshow
        rw [if_pos hid, hrow, hin id (hids.mem_iff.mpr hid), ← hshow.attempts]
        exact .leased rfl rfl rfl
      · rw [if_neg hid, hout id fun hmem => hid (hids.mem_iff.mp hmem)]
        exact hshows id
  | @delivered eventId workerId row _ hrow hstatus howner =>
    have hshow := hshows eventId
    rw [hrow] at hshow
    obtain ⟨expires, hphase⟩ := hshow.lease hstatus howner
    refine ⟨_, hreach.step (.finished hphase), fun id => ?_⟩
    rw [deliverRows, row_update_leasedBy hrow hstatus howner]
    by_cases heq : id = eventId
    · subst heq
      rw [if_pos rfl, Function.update_self, ← hshow.attempts]
      exact .settled (.inl rfl)
    · rw [if_neg heq, Function.update_of_ne heq]
      exact hshows id
  | @rescheduled eventId workerId error delay available row _ _ hrow hstatus howner =>
    have hshow := hshows eventId
    rw [hrow] at hshow
    obtain ⟨expires, hphase⟩ := hshow.lease hstatus howner
    refine ⟨_, hreach.step (.released hphase), fun id => ?_⟩
    rw [postponeRows, row_update_leasedBy hrow hstatus howner]
    by_cases heq : id = eventId
    · subst heq
      rw [if_pos rfl, Function.update_self, ← hshow.attempts]
      exact .pending rfl
    · rw [if_neg heq, Function.update_of_ne heq]
      exact hshows id
  | @deadLettered eventId workerId error row _ _ hrow hstatus howner houtbox =>
    have hshow := hshows eventId
    rw [hrow] at hshow
    obtain ⟨expires, hphase⟩ := hshow.lease hstatus howner
    refine ⟨_, hreach.step (.finished hphase), fun id => ?_⟩
    rw [row_of_outbox_eq houtbox, row_buryRows hrow]
    by_cases heq : id = eventId
    · subst heq
      rw [if_pos rfl, Function.update_self, ← hshow.attempts]
      exact .settled (.inr rfl)
    · rw [if_neg heq, Function.update_of_ne heq]
      exact hshows id
  | duplicate => exact ⟨jobs, hreach, hshows⟩
  | unwritable => exact ⟨jobs, hreach, hshows⟩
  | clash => exact ⟨jobs, hreach, hshows⟩
  | refused =>
    refine ⟨jobs, ?_, hshows⟩
    cases op <;> exact hreach

/-- The tables after a run are a queue whose trace the run is. -/
theorem run_shows {backend : OutboxBackend F V T} {log : List (OutboxEntry F)}
    (h : OutboxRun backend log t) : Readable backend.format t ∧
      ∃ jobs, LeaseQueue.Reach (log.flatMap leaseEvents) jobs ∧ Shows backend.format t jobs := by
  refine CallRuns.Run.inv (J := fun log t => Readable backend.format t ∧
    ∃ jobs, LeaseQueue.Reach (log.flatMap leaseEvents) jobs ∧ Shows backend.format t jobs)
    ⟨fun row hrow => absurd hrow List.not_mem_nil, _, .init, fun _ => .absent⟩ ?_ h
  intro log t call _ hallowed ⟨hread, jobs, hreach, hshows⟩
  rcases hexec : backend.exec call t with ⟨r, t'⟩
  have hmove := backend.move hread hexec
  obtain ⟨jobs', hreach', hshows'⟩ :=
    hmove.shows backend.format_lawful hallowed.2 hreach hshows
  exact ⟨hmove.readable backend.format_lawful hread, jobs', hreach', hshows'⟩

end AgentRoi
