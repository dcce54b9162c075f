/-
Conservation and lease exclusivity of the outbox.

* `OutboxLaws` — the laws, for a run and the part of it up to some point;
* `buried`, `counted`, `exclusive` — dead letters, attempts and leases along
  a run;
* `outbox_conserved` — the laws hold of every run of either store.
-/
import AgentRoi.OutboxRuns

namespace AgentRoi

open OutboxTables RowTable

variable {F V T : Type} [PyFloat F]

/-- The laws of a run that leads to the tables `s` after `earlier`, and to the
tables `t` in the end. -/
structure OutboxLaws (backend : OutboxBackend F V T) (later earlier : List (OutboxEntry F))
    (s t : OutboxTables V T) : Prop where
  /-- An event that was enqueued is stored. -/
  enqueued : ∀ call event e, (call, .ok [e]) ∈ earlier → call.op = .enqueue event →
    ∃ row ∈ s.outbox, row.eventId = e.eventId ∧ row.topic = e.topic ∧
      row.identity = (event.destination, event.idempotencyKey)
  /-- A row stays, with its content; a delivered or dead-lettered one stays as
  it is. -/
  kept : ∀ row ∈ s.outbox, ∃ row' ∈ t.outbox, row'.content = row.content ∧
    (row.status = .delivered ∨ row.status = .deadLetter → row' = row)
  deadLetters : ∀ id, (∃ letter ∈ t.deadLetters, letter.eventId = id) ↔
    ∃ row ∈ t.outbox, row.eventId = id ∧ row.status = .deadLetter
  attempts : ∀ row ∈ t.outbox,
    row.attempts = (later ++ earlier).countP (claimsEvent row.eventId)
  unique : ∀ row ∈ t.outbox, ∀ row' ∈ t.outbox, row.identity = row'.identity → row = row'
  /-- Enqueueing a duplicate changes nothing and answers with the stored event,
  unless the driver cannot write the parameters. -/
  duplicate : ∀ now event r t', ∀ existing ∈ t.outbox,
    existing.identity = (event.destination, event.idempotencyKey) →
    backend.perform now (.enqueue event) t = (r, t') → t' = t ∧
      ((∃ e, rowEvent backend.format existing = .ok e ∧ r = .ok [e]) ∨
        ∃ e, eventRow backend.format event = .error e ∧ r = .error e)
  /-- Between two claims of an event the lease of the first ran out, or its
  owner settled or rescheduled the event. -/
  exclusive : ∀ after mid before (c c' : OutboxCall F) events events' id workerId limit
      leaseSeconds destination,
    later ++ earlier = after ++ (c', .ok events') :: (mid ++ (c, .ok events) :: before) →
    c.op = .claim workerId limit leaseSeconds destination →
    claimsEvent id (c, .ok events) = true → claimsEvent id (c', .ok events') = true →
    (∃ expires, c.now.addSeconds (max 1 leaseSeconds).toNat = some expires ∧
      expires < c'.now) ∨
    ∃ call answer, (call, .ok answer) ∈ mid ∧ call.op.settles = some (id, workerId)
  /-- A lease is ended by its owner only; who is not the owner is refused. -/
  owner : ∀ now op id workerId r t', op.settles = some (id, workerId) →
    backend.perform now op t = (r, t') →
    (r = .ok [] ∧ ∃ row ∈ t.outbox, row.eventId = id ∧ row.status = .leased ∧
      row.leaseOwner = some workerId) ∨ (∃ e, r = .error e) ∧ t' = t

variable {backend : OutboxBackend F V T} {fmt : OutboxFormat F V T} {now : Instant}
  {op : OutboxOperation F} {r : Except PyExc (List (OutboxEvent F))}
  {log later earlier : List (OutboxEntry F)} {s t t' : OutboxTables V T}

theorem run_move (h : OutboxRun backend log s) (call : OutboxCall F) :
    OutboxMove backend.format call.now call.op (backend.exec call s).1 s
      (backend.exec call s).2 := by
  rcases hexec : backend.exec call s with ⟨r, s'⟩
  exact backend.move (run_shows h).1 hexec

/-! ### Events and rows -/

/-- Every row stays, and the settled ones as they are. -/
theorem row_kept (hs : OutboxRun backend earlier s) (ht : OutboxRun backend (later ++ earlier) t)
    {row : OutboxRow V T} {id : Str} (hrow : s.row id = some row) :
    ∃ row', t.row id = some row' ∧ row'.content = row.content ∧
      (row.Settled → row' = row) := by
  refine CallRuns.Run.kept (P := fun t => ∃ row', t.row id = some row' ∧
    row'.content = row.content ∧ (row.Settled → row' = row)) ?_ hs
    ⟨row, hrow, rfl, fun _ => rfl⟩ ht
  intro log u call hrun _ ⟨row₁, hrow₁, hcontent, hsettled⟩
  have hmove := (run_move hrun call).rowMove id
  rw [hrow₁] at hmove
  obtain ⟨row₂, hrow₂, hcontent₂, hsettled₂⟩ := hmove.kept
  refine ⟨row₂, hrow₂, hcontent₂.trans hcontent, fun h => ?_⟩
  obtain rfl := hsettled h
  exact hsettled₂ h

/-- An event is stored as soon as its enqueueing returns. -/
theorem enqueued_row (h : OutboxMove fmt now op r t t') {event e : OutboxEvent F}
    (hop : op = .enqueue event) (hr : r = .ok [e]) :
    ∃ row, t'.row e.eventId = some row ∧ row.topic = e.topic ∧
      row.identity = (event.destination, event.idempotencyKey) := by
  cases h with
  | @enqueued event' row _ hid hidentity hrow =>
    cases hop
    cases hr
    obtain ⟨heventId, htopic, hident, -⟩ := eventRow_columns hrow
    rw [← heventId]
    exact ⟨row, row_insert_self, htopic, hident⟩
  | @duplicate event' e' row existing _ hrow hexisting hevent =>
    cases hop
    cases hr
    obtain ⟨-, -, hident, -⟩ := eventRow_columns hrow
    obtain ⟨payload, -, hevent⟩ := except_bind_eq_ok.mp hevent
    cases hevent
    exact ⟨existing, row_of_rowOf hexisting, rfl, (identity_of_rowOf hexisting).trans hident⟩
  | unwritable => cases hr
  | clash => cases hr
  | refused => cases hr
  | _ => cases hop

/-! ### Dead letters -/

/-- The dead letters are those of the rows with that status. -/
def Buried (t : OutboxTables V T) : Prop :=
  ∀ id, (t.letter id).isSome ↔ ∃ row, t.row id = some row ∧ row.status = .deadLetter

/-- Only a dead letter changes what is dead. -/
theorem RowMove.dead_iff {id : Str} {o o' : Option (OutboxRow V T)}
    (h : RowMove fmt now id op r o o') (hop : ∀ workerId error, op ≠ .deadLetter id workerId error)
    (hcreated : ∀ event, op = .enqueue event → event.Created) :
    (∃ row, o = some row ∧ row.status = .deadLetter) ↔
      ∃ row, o' = some row ∧ row.status = .deadLetter := by
  cases h with
  | same => exact Iff.rfl
  -- an event is created pending
  | inserted hrow =>
    have hpending := (eventRow_columns hrow).2.2.2.1.trans (created_columns (hcreated _ rfl)).1
    constructor
    · rintro ⟨row, hnone, -⟩
      cases hnone
    · rintro ⟨row, hsome, hdead⟩
      cases hsome
      rw [hpending] at hdead
      cases hdead
  -- what is claimed was pending or leased, and what is settled was leased
  | leased _ _ hclaim =>
    constructor
    · rintro ⟨row, hsome, hdead⟩
      cases hsome
      simp [claimable, hdead] at hclaim
    · rintro ⟨row, hsome, hdead⟩
      cases hsome
      cases hdead
  | delivered hstatus =>
    constructor
    · rintro ⟨row, hsome, hdead⟩
      cases hsome
      rw [hstatus] at hdead
      cases hdead
    · rintro ⟨row, hsome, hdead⟩
      cases hsome
      cases hdead
  | rescheduled hstatus =>
    constructor
    · rintro ⟨row, hsome, hdead⟩
      cases hsome
      rw [hstatus] at hdead
      cases hdead
    · rintro ⟨row, hsome, hdead⟩
      cases hsome
      cases hdead
  | deadLettered => exact absurd rfl (hop _ _)

theorem OutboxMove.buried (h : OutboxMove fmt now op r t t')
    (hcreated : ∀ event, op = .enqueue event → event.Created) (hburied : Buried t) :
    Buried t' := by
  -- where the dead letters are the same, only the rows matter
  have hsame : (∀ workerId id error, op ≠ .deadLetter id workerId error) →
      t'.deadLetters = t.deadLetters → Buried t' := by
    intro hop hletters id
    have hletter : t'.letter id = t.letter id := by
      rw [letter, hletters]
      rfl
    rw [hletter, hburied id]
    exact (h.rowMove id).dead_iff (fun workerId error => hop workerId id error) hcreated
  cases h with
  | @deadLettered eventId workerId error row _ _ hrow hstatus howner houtbox hsome _ hothers =>
    intro id
    rw [row_of_outbox_eq houtbox, row_buryRows hrow]
    by_cases heq : id = eventId
    · subst heq
      rw [if_pos rfl]
      exact ⟨fun _ => ⟨_, rfl, rfl⟩, fun _ => hsome⟩
    · rw [if_neg heq, hothers id heq]
      exact hburied id
  | enqueued => exact hsame (fun _ _ _ hop => by cases hop) rfl
  | claimed => exact hsame (fun _ _ _ hop => by cases hop) rfl
  | delivered => exact hsame (fun _ _ _ hop => by cases hop) rfl
  | rescheduled => exact hsame (fun _ _ _ hop => by cases hop) rfl
  | _ => exact hburied

/-- Dead letters and statuses agree after every run. -/
theorem buried (h : OutboxRun backend log t) : Buried t := by
  refine CallRuns.Run.inv (J := fun _ t => Buried t) ?_ ?_ h
  · intro id
    constructor
    · intro hsome
      cases hsome
    · rintro ⟨row, hrow, -⟩
      cases hrow
  · intro log u call hrun hallowed hburied
    exact (run_move hrun _).buried hallowed.2 hburied

/-! ### Attempts -/

/-- A call claims an event at most once. -/
theorem countP_leaseEvents (h : OutboxMove fmt now op r t t') (id : Str) :
    (leaseEvents (⟨now, op⟩, r)).countP (LeaseQueue.Event.isClaim id) =
      if claimsEvent id (⟨now, op⟩, r) then 1 else 0 := by
  cases h with
  | @claimed workerId destination limit leaseSeconds expires ids rows events _ hexpires hnodup
      hclaim hperm hevents =>
    have hids := claimed_ids (fun id hid => (hclaim id hid).imp fun _ h => h.1) hperm hevents
    have hcount : (leaseEvents (⟨now, .claim workerId limit leaseSeconds destination⟩,
        .ok events)).countP (LeaseQueue.Event.isClaim id) =
        (events.map OutboxEvent.eventId).count id := by
      rw [leaseEvents_claim hexpires, List.countP_map, List.count, List.countP_map]
      refine List.countP_congr fun e _ => ?_
      simp [LeaseQueue.Event.isClaim]
    rw [hcount, (hids.nodup_iff.mpr hnodup).count]
    simp [claimsEvent]
  | refused => cases op <;> rfl
  | _ => rfl

/-- An event's attempts are its claims. -/
theorem counted (h : OutboxRun backend log t) {row : OutboxRow V T} {id : Str}
    (hrow : t.row id = some row) : row.attempts = log.countP (claimsEvent id) := by
  have hcount : (log.flatMap leaseEvents).countP (LeaseQueue.Event.isClaim id) =
      log.countP (claimsEvent id) := by
    refine CallRuns.Run.inv (J := fun log _ =>
      (log.flatMap leaseEvents).countP (LeaseQueue.Event.isClaim id) =
        log.countP (claimsEvent id)) rfl ?_ h
    intro log u call hrun _ ih
    rw [List.flatMap_cons, List.countP_append, ih, countP_leaseEvents (run_move hrun _) id,
      List.countP_cons, Nat.add_comm]
  obtain ⟨-, jobs, hreach, hshows⟩ := run_shows h
  have hshow := hshows id
  rw [hrow] at hshow
  rw [hshow.attempts, hreach.claims_eq, hcount]

/-! ### Leases -/

omit [PyFloat F] in
theorem claimTime_of_mem {entry : OutboxEntry F} {e : LeaseQueue.Event Str Str Instant} {u : Instant}
    (he : e ∈ leaseEvents entry) (hu : u ∈ e.claimTime) : u = entry.1.now := by
  obtain ⟨⟨now, op⟩, r⟩ := entry
  cases r with
  | error _ => cases op <;> cases he
  | ok events =>
    cases op with
    | claim workerId limit leaseSeconds destination =>
      cases hexpires : now.addSeconds (max 1 leaseSeconds).toNat with
      | none =>
        change e ∈ (now.addSeconds (max 1 leaseSeconds).toNat).elim [] _ at he
        rw [hexpires] at he
        cases he
      | some expires =>
        rw [leaseEvents_claim hexpires] at he
        obtain ⟨_, -, rfl⟩ := List.mem_map.mp he
        cases hu
        rfl
    | enqueue event => cases he
    | markDelivered id workerId =>
      obtain rfl := List.mem_singleton.mp he
      cases hu
    | reschedule id workerId error delay =>
      obtain rfl := List.mem_singleton.mp he
      cases hu
    | deadLetter id workerId error =>
      obtain rfl := List.mem_singleton.mp he
      cases hu

/-- The claims of a run are in the order of the clock. -/
theorem run_clocked (h : OutboxRun backend log t) : LeaseQueue.Clocked (log.flatMap leaseEvents) := by
  refine CallRuns.Run.inv (J := fun log _ => LeaseQueue.Clocked (log.flatMap leaseEvents))
    .nil ?_ h
  intro log u call _ hallowed ih
  rw [List.flatMap_cons]
  refine List.pairwise_append.mpr ⟨?_, ih, ?_⟩
  · refine List.pairwise_of_forall_mem_list fun a ha b hb x hx y hy => ?_
    rw [claimTime_of_mem ha hx, claimTime_of_mem hb hy]
  · intro a ha b hb x hx y hy
    obtain ⟨entry, hentry, hb⟩ := List.mem_flatMap.mp hb
    rw [claimTime_of_mem ha hx, claimTime_of_mem hb hy]
    exact hallowed.1 entry hentry

omit [PyFloat F] in
/-- A release is a call that ended the lease. -/
theorem settles_of_released {entry : OutboxEntry F} {id workerId : Str}
    (h : LeaseQueue.Event.released id workerId ∈ leaseEvents entry) :
    ∃ call answer, entry = (call, .ok answer) ∧ call.op.settles = some (id, workerId) := by
  obtain ⟨⟨now, op⟩, r⟩ := entry
  cases r with
  | error _ => cases op <;> cases h
  | ok events =>
    cases op with
    | claim worker limit leaseSeconds destination =>
      cases hexpires : now.addSeconds (max 1 leaseSeconds).toNat with
      | none =>
        change _ ∈ (now.addSeconds (max 1 leaseSeconds).toNat).elim [] _ at h
        rw [hexpires] at h
        cases h
      | some expires =>
        rw [leaseEvents_claim hexpires] at h
        obtain ⟨_, -, he⟩ := List.mem_map.mp h
        cases he
    | enqueue event => cases h
    | markDelivered id' worker => cases List.mem_singleton.mp h
    | reschedule id' worker error delay =>
      cases List.mem_singleton.mp h
      exact ⟨_, _, rfl, rfl⟩
    | deadLetter id' worker error => cases List.mem_singleton.mp h

/-- A claim that answered with an event, as a lease event of its call. -/
theorem leaseEvents_split (h : OutboxMove fmt now op r t t') {id workerId destination : Str}
    {limit leaseSeconds : Int} (hop : op = .claim workerId limit leaseSeconds destination)
    (hid : claimsEvent id (⟨now, op⟩, r) = true) :
    ∃ expires before after, now.addSeconds (max 1 leaseSeconds).toNat = some expires ∧
      leaseEvents (⟨now, op⟩, r) =
        before ++ LeaseQueue.Event.claimed id workerId now expires :: after ∧
      ∀ e ∈ before ++ after, e.claimTime = some now := by
  cases h with
  | @claimed w d l s expires ids rows events _ hexpires hnodup hclaim hperm hevents =>
    cases hop
    have hmem : id ∈ events.map OutboxEvent.eventId := by simpa [claimsEvent] using hid
    obtain ⟨e, he, rfl⟩ := List.mem_map.mp hmem
    obtain ⟨xs, ys, rfl⟩ := List.append_of_mem he
    refine ⟨expires, xs.map fun e => .claimed e.eventId workerId now expires,
      ys.map fun e => .claimed e.eventId workerId now expires, hexpires, ?_, ?_⟩
    · rw [leaseEvents_claim hexpires, List.map_append, List.map_cons]
    · intro e' he'
      rw [← List.map_append] at he'
      obtain ⟨_, -, rfl⟩ := List.mem_map.mp he'
      rfl
  | refused =>
    cases hop
    cases hid
  | _ => cases hop

/-- An entry of a run is a move. -/
theorem entry_move {entry : OutboxEntry F} {after before : List (OutboxEntry F)}
    (h : OutboxRun backend (after ++ entry :: before) t) :
    ∃ u u', OutboxMove backend.format entry.1.now entry.1.op entry.2 u u' := by
  obtain ⟨u', hu'⟩ := CallRuns.Run.before h
  obtain ⟨call, answer⟩ := entry
  obtain ⟨u, hu, -, hexec⟩ := hu'.last
  exact ⟨u, u', backend.move (run_shows hu).1 hexec⟩

/-- Between two claims of an event the lease of the first ran out, or its
owner released the event. -/
theorem exclusive {after mid before : List (OutboxEntry F)} {c c' : OutboxCall F}
    {events events' : List (OutboxEvent F)} {id workerId destination : Str}
    {limit leaseSeconds : Int}
    (h : OutboxRun backend (after ++ (c', .ok events') :: (mid ++ (c, .ok events) :: before)) t)
    (hop : c.op = .claim workerId limit leaseSeconds destination)
    (hid : claimsEvent id (c, .ok events) = true) (hid' : claimsEvent id (c', .ok events') = true) :
    (∃ expires, c.now.addSeconds (max 1 leaseSeconds).toNat = some expires ∧ expires < c'.now) ∨
      ∃ call answer, (call, .ok answer) ∈ mid ∧ call.op.settles = some (id, workerId) := by
  obtain ⟨u, u', hmove'⟩ := entry_move h
  have h₁ : OutboxRun backend ((after ++ (c', .ok events') :: mid) ++ (c, .ok events) :: before)
      t := by
    rw [List.append_assoc]
    exact h
  obtain ⟨v, v', hmove⟩ := entry_move h₁
  obtain ⟨expires, xs, ys, hexpires, hsplit, htimes⟩ := leaseEvents_split hmove hop hid
  -- the later call is a claim as well
  obtain ⟨worker', limit', seconds', destination', hop'⟩ :
      ∃ w l s d, c'.op = OutboxOperation.claim w l s d := by
    cases hc : c'.op with
    | claim w l s d => exact ⟨w, l, s, d, rfl⟩
    | _ =>
      simp only [claimsEvent, hc] at hid'
      cases hid'
  obtain ⟨expires', xs', ys', hexpires', hsplit', htimes'⟩ := leaseEvents_split hmove' hop' hid'
  by_cases hreleased : LeaseQueue.Event.released id workerId ∈ ys' ++ mid.flatMap leaseEvents ++ xs
  · -- the release is not one of the claims, so it stands in between
    refine .inr ?_
    have hnot : ∀ {e : LeaseQueue.Event Str Str Instant} {now : Instant},
        e.claimTime = some now → e ≠ .released id workerId := by
      rintro _ _ he rfl
      cases he
    rcases List.mem_append.mp hreleased with hreleased | hmem
    · rcases List.mem_append.mp hreleased with hmem | hmem
      · exact absurd rfl (hnot (htimes' _ (List.mem_append_right _ hmem)))
      · obtain ⟨entry, hentry, hmem⟩ := List.mem_flatMap.mp hmem
        obtain ⟨call, answer, rfl, hsettles⟩ := settles_of_released hmem
        exact ⟨call, answer, hentry, hsettles⟩
    · exact absurd rfl (hnot (htimes _ (List.mem_append_left _ hmem)))
  · refine .inl ⟨expires, hexpires, ?_⟩
    obtain ⟨-, jobs, hreach, -⟩ := run_shows h
    have htrace : (after ++ (c', .ok events') :: (mid ++ (c, .ok events) :: before)).flatMap
        leaseEvents = (after.flatMap leaseEvents ++ xs') ++
          .claimed id worker' c'.now expires' :: ((ys' ++ mid.flatMap leaseEvents ++ xs) ++
            .claimed id workerId c.now expires :: (ys ++ before.flatMap leaseEvents)) := by
      rw [List.flatMap_append, List.flatMap_cons, List.flatMap_append, List.flatMap_cons]
      change _ ++ (leaseEvents (⟨c'.now, c'.op⟩, .ok events') ++
        (_ ++ (leaseEvents (⟨c.now, c.op⟩, .ok events) ++ _))) = _
      rw [hsplit, hsplit']
      simp
    have hclock := run_clocked h
    rw [htrace] at hreach hclock
    obtain ⟨jobs', hreach'⟩ := hreach.before
    exact hreach'.exclusive (List.pairwise_append.mp hclock).2.1 hreleased

/-! ### The laws -/

/-- The outbox keeps its laws, whatever the operations and their order. -/
theorem outbox_conserved (hs : OutboxRun backend earlier s)
    (ht : OutboxRun backend (later ++ earlier) t) : OutboxLaws backend later earlier s t where
  enqueued := by
    intro call event e hmem hop
    obtain ⟨xs, ys, rfl⟩ := List.append_of_mem hmem
    obtain ⟨u', hu'⟩ := CallRuns.Run.before hs
    obtain ⟨u, hu, -, hexec⟩ := hu'.last
    obtain ⟨row, hrow, htopic, hidentity⟩ :=
      enqueued_row (backend.move (run_shows hu).1 hexec) hop rfl
    obtain ⟨row', hrow', hcontent, -⟩ := row_kept hu' hs hrow
    simp only [OutboxRow.content, Prod.mk.injEq] at hcontent
    obtain ⟨-, htopic', hdestination, -, hkey, -⟩ := hcontent
    refine ⟨row', mem_of_row hrow', eventId_of_row hrow', htopic'.trans htopic, ?_⟩
    rw [← hidentity, OutboxRow.identity, OutboxRow.identity, hdestination, hkey]
  kept := by
    intro row hmem
    obtain ⟨row', hrow', hcontent, hsettled⟩ := row_kept hs ht (row_of_mem hmem)
    exact ⟨row', mem_of_row hrow', hcontent, hsettled⟩
  deadLetters := by
    intro id
    have hburied := buried ht id
    constructor
    · rintro ⟨letter, hmem, rfl⟩
      have hletter : t.letter letter.eventId = some letter := rowAt_of_mem t.deadLetterIds hmem
      obtain ⟨row, hrow, hstatus⟩ := hburied.mp (by rw [hletter]; rfl)
      exact ⟨row, mem_of_row hrow, eventId_of_row hrow, hstatus⟩
    · rintro ⟨row, hmem, rfl, hstatus⟩
      obtain ⟨letter, hletter⟩ :=
        Option.isSome_iff_exists.mp (hburied.mpr ⟨row, row_of_mem hmem, hstatus⟩)
      exact ⟨letter, mem_of_rowAt hletter, key_of_rowAt hletter⟩
  attempts := fun row hmem => counted ht (row_of_mem hmem)
  unique := by
    intro row hmem row' hmem' hidentity
    have hrow := rowOf_of_mem hmem
    rw [hidentity, rowOf_of_mem hmem'] at hrow
    exact (Option.some.inj hrow).symm
  duplicate := by
    intro now event r t' existing hmem hidentity hperform
    have hmove := backend.move (run_shows ht).1 hperform
    cases hmove with
    | @enqueued _ row _ hid hnone hrow =>
      -- the identity is taken
      rw [(eventRow_columns hrow).2.2.1, ← hidentity, rowOf_of_mem hmem] at hnone
      cases hnone
    | @duplicate _ e row existing' _ hrow hexisting hevent =>
      rw [(eventRow_columns hrow).2.2.1, ← hidentity, rowOf_of_mem hmem] at hexisting
      cases hexisting
      exact ⟨rfl, .inl ⟨e, hevent, rfl⟩⟩
    | unwritable hrow => exact ⟨rfl, .inr ⟨_, hrow, rfl⟩⟩
    | clash hrow _ hnone =>
      rw [(eventRow_columns hrow).2.2.1, ← hidentity, rowOf_of_mem hmem] at hnone
      cases hnone
    | refused hop => exact absurd rfl (hop event)
  exclusive := by
    intro after mid before c c' events events' id workerId limit leaseSeconds destination hlog hop
      hid hid'
    rw [hlog] at ht
    exact AgentRoi.exclusive ht hop hid hid'
  owner := by
    intro now op id workerId r t' hop hperform
    have hmove := backend.move (run_shows ht).1 hperform
    cases hmove with
    | delivered hrow hstatus howner =>
      cases hop
      exact .inl ⟨rfl, _, mem_of_row hrow, eventId_of_row hrow, hstatus, howner⟩
    | rescheduled _ hrow hstatus howner =>
      cases hop
      exact .inl ⟨rfl, _, mem_of_row hrow, eventId_of_row hrow, hstatus, howner⟩
    | deadLettered hrow hstatus howner =>
      cases hop
      exact .inl ⟨rfl, _, mem_of_row hrow, eventId_of_row hrow, hstatus, howner⟩
    | refused => exact .inr ⟨⟨_, rfl⟩, rfl⟩
    | _ => cases hop

/-! ### A run -/

/-- Seconds after the first instant, up to a thousand. -/
def sampleInstant (seconds : ℕ) : Instant :=
  ⟨seconds % 1000 * 1000000, by unfold dayLimit; omega⟩

def sampleEvent (eventId destination idempotencyKey : Str) : OutboxEvent Half where
  eventId := eventId
  topic := lit "audit"
  destination := destination
  payload := []
  idempotencyKey := idempotencyKey
  status := .pending
  attempts := 0
  availableAtUtc := (sampleInstant 0).isoformat
  leaseOwner := []
  leaseExpiresAtUtc := []
  lastError := []
  createdAtUtc := (sampleInstant 0).isoformat
  deliveredAtUtc := []

theorem sampleEvent_created : (sampleEvent (lit "e") (lit "siem") (lit "k")).Created :=
  ⟨lit "audit", lit "siem", [], lit "k", lit "e", [], sampleInstant 0, sampleInstant 0, rfl⟩

def sampleBackend : OutboxBackend Half Str Str := .sqlite insertionOrder

def sampleCalls : List (OutboxCall Half) :=
  [⟨sampleInstant 1, .claim (lit "w") 10 60 []⟩,
   ⟨sampleInstant 0, .enqueue (sampleEvent (lit "e") (lit "siem") (lit "k"))⟩]

/-- Calls one after the other, newest first. -/
def runCalls (backend : OutboxBackend F V T) : List (OutboxCall F) →
    List (OutboxEntry F) × OutboxTables V T
  | [] => ([], OutboxTables.empty)
  | call :: calls =>
    let (log, t) := runCalls backend calls
    ((call, (backend.exec call t).1) :: log, (backend.exec call t).2)

theorem sampleRun : OutboxRun sampleBackend (runCalls sampleBackend sampleCalls).1
    (runCalls sampleBackend sampleCalls).2 := by
  refine .call (.call .nil ⟨?_, ?_⟩) ⟨?_, ?_⟩
  · exact fun entry hentry => absurd hentry List.not_mem_nil
  · intro event hevent
    cases hevent
    exact sampleEvent_created
  · intro entry hentry
    obtain rfl := List.mem_singleton.mp hentry
    show (0 : ℕ) ≤ 1000000
    omega
  · intro event hevent
    cases hevent

/-- An event that was enqueued and then claimed once. -/
theorem outbox_conserved_sample :
    (runCalls sampleBackend sampleCalls).2.outbox.map OutboxRow.attempts = [1] ∧
      OutboxLaws sampleBackend [] (runCalls sampleBackend sampleCalls).1
        (runCalls sampleBackend sampleCalls).2 (runCalls sampleBackend sampleCalls).2 :=
  ⟨by decide +kernel, outbox_conserved sampleRun sampleRun⟩

end AgentRoi
