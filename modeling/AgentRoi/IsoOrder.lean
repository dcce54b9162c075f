/-
The times in the SQLite tables, which statements compare as texts.

* `OutboxRow.Timed`, `OutboxEvent.Timed` — the texts are those of instants;
* `OutboxRow.Due` — the row may be claimed, as its instants have it;
* `claimable_iff_due` — the `WHERE` clause of `claim` holds of the rows that are
  due;
* `timed_after` — what the calls of a run write are texts of instants;
* `expiry_after` — so are the expiries of the idempotency records;
* `iso_text_order` — the order of the texts is the order in time, so the
  statements select what is due and what has expired.
-/
import AgentRoi.IdempotencyRuns
import AgentRoi.OutboxConservation

namespace AgentRoi

open OutboxTables RowTable

variable {F V : Type}

/-! ### Rows that are due -/

/-- The texts that `claim` compares stand for instants. -/
structure OutboxRow.Timed (row : OutboxRow V Str) : Prop where
  available : ∃ available : Instant, row.availableAtUtc = available.isoformat
  lease : ∀ text ∈ row.leaseExpiresAtUtc, ∃ expires : Instant, text = expires.isoformat

/-- The event is available, nobody holds a lease on it that still runs, and it
has the destination, if one is asked for. -/
structure OutboxRow.Due (now : Instant) (destination : Str) (row : OutboxRow V Str) : Prop where
  available : ∃ available : Instant, row.availableAtUtc = available.isoformat ∧ available ≤ now
  free : row.status = .pending ∨ row.status = .leased ∧
    ∃ expires : Instant, row.leaseExpiresAtUtc = some expires.isoformat ∧ expires < now
  destination : destination = [] ∨ row.destination = destination

/-- An event with these texts can be enqueued. -/
structure OutboxEvent.Timed (event : OutboxEvent F) : Prop where
  available : ∃ available : Instant, event.availableAtUtc = available.isoformat
  lease : event.leaseExpiresAtUtc = [] ∨
    ∃ expires : Instant, event.leaseExpiresAtUtc = expires.isoformat

theorem OutboxEvent.timed_of_created [PyFloat F] {event : OutboxEvent F} (h : event.Created) :
    event.Timed := by
  obtain ⟨_, _, _, _, _, _, available, _, h⟩ := h
  obtain ⟨_, -, h⟩ := except_bind_eq_ok.mp h
  obtain ⟨_, -, h⟩ := except_bind_eq_ok.mp h
  obtain ⟨_, -, h⟩ := except_bind_eq_ok.mp h
  cases h
  exact ⟨⟨available, rfl⟩, .inl rfl⟩

theorem Instant.not_isoformat_lt_iff {a b : Instant} : ¬ a.isoformat < b.isoformat ↔ b ≤ a :=
  isoformat_lt_iff.not.trans not_lt

section

variable [PyFloat F] {now : Instant} {row : OutboxRow Str Str} {destination : Str}

/-- The texts are compared as the instants are. -/
theorem claimable_iff_due (h : row.Timed) :
    claimable (sqliteFormat (F := F)).earlier now.isoformat destination row = true ↔
      row.Due now destination := by
  obtain ⟨available, havailable⟩ := h.available
  have hdue : (!(sqliteFormat (F := F)).earlier now.isoformat row.availableAtUtc) = true ↔
      available ≤ now := by
    rw [havailable, Bool.not_eq_true', Bool.eq_false_iff]
    exact decide_eq_true_iff.not.trans Instant.not_isoformat_lt_iff
  have hexpired : (row.leaseExpiresAtUtc.any fun expires =>
      (sqliteFormat (F := F)).earlier expires now.isoformat) = true ↔
        ∃ expires : Instant, row.leaseExpiresAtUtc = some expires.isoformat ∧ expires < now := by
    cases hlease : row.leaseExpiresAtUtc with
    | none => simp
    | some text =>
      obtain ⟨expires, rfl⟩ := h.lease text hlease
      constructor
      · intro hlt
        exact ⟨expires, rfl, Instant.isoformat_lt_iff.mp (of_decide_eq_true hlt)⟩
      · rintro ⟨expires', heq, hlt⟩
        obtain rfl := Instant.isoformat_strictMono.injective (Option.some.inj heq)
        exact decide_eq_true (Instant.isoformat_lt_iff.mpr hlt)
  simp only [claimable, Bool.and_eq_true, Bool.or_eq_true, hdue, hexpired, decide_eq_true_eq,
    List.isEmpty_iff]
  constructor
  · rintro ⟨⟨hle, hfree⟩, hdestination⟩
    exact ⟨⟨available, havailable, hle⟩, hfree, hdestination⟩
  · rintro ⟨⟨available', heq, hle⟩, hfree, hdestination⟩
    obtain rfl := Instant.isoformat_strictMono.injective (havailable.symm.trans heq)
    exact ⟨⟨hle, hfree⟩, hdestination⟩

/-! ### What is written -/

theorem timed_of_eventRow {event : OutboxEvent F} (h : eventRow sqliteFormat event = .ok row)
    (hevent : event.Timed) : row.Timed := by
  simp only [eventRow, except_bind_eq_ok] at h
  obtain ⟨_, -, _, -, _, -, _, -, _, -, available, havailable, _, -, lease, hlease, _, -, _, -, _, -,
    h⟩ := h
  cases h
  refine ⟨?_, ?_⟩
  · obtain ⟨_, -, hwritten⟩ := except_bind_eq_ok.mp havailable
    cases hwritten
    exact hevent.available
  · intro text htext
    -- an event that has no lease leaves the column empty
    rcases hevent.lease with hnone | ⟨expires, hexpires⟩
    · rw [hnone] at hlease
      cases hlease
      cases htext
    · by_cases hempty : event.leaseExpiresAtUtc = []
      · rw [hempty] at hlease
        cases hlease
        cases htext
      · rw [orNone, if_neg hempty] at hlease
        obtain ⟨written, hwrite, hsome⟩ := except_bind_eq_ok.mp hlease
        cases hsome
        obtain ⟨_, -, hwritten⟩ := except_bind_eq_ok.mp hwrite
        cases hwritten
        cases htext
        exact ⟨expires, hexpires⟩

omit [PyFloat F] in
theorem timed_update {t : OutboxTables Str Str} {p : OutboxRow Str Str → Bool}
    {f : OutboxRow Str Str → OutboxRow Str Str} (hf : ∀ row : OutboxRow Str Str, row.Timed →
      (f row).Timed) (h : ∀ row ∈ t.outbox, row.Timed) :
    ∀ row ∈ updateWhere p f t.outbox, row.Timed := by
  intro row' hrow'
  obtain ⟨row, hrow, rfl⟩ := mem_updateWhere.mp hrow'
  split
  · exact hf row (h row hrow)
  · exact h row hrow

/-- An operation writes texts of instants. -/
theorem timed_move {op : OutboxOperation F} {r : Except PyExc (List (OutboxEvent F))}
    {t t' : OutboxTables Str Str} (hmove : OutboxMove sqliteFormat now op r t t')
    (hop : ∀ event, op = .enqueue event → event.Timed) (h : ∀ row ∈ t.outbox, row.Timed) :
    ∀ row ∈ t'.outbox, row.Timed := by
  cases hmove with
  | @enqueued event row _ hid hidentity hrow =>
    intro row' hrow'
    rcases List.mem_append.mp hrow' with hrow' | hrow'
    · exact h row' hrow'
    · obtain rfl := List.mem_singleton.mp hrow'
      exact timed_of_eventRow hrow (hop event rfl)
  | @claimed _ _ _ _ expires =>
    exact timed_update (fun row hrow => ⟨hrow.available, fun text htext => by
      cases htext
      exact ⟨expires, rfl⟩⟩) h
  | delivered =>
    exact timed_update (fun row hrow => ⟨hrow.available, fun text htext => by cases htext⟩) h
  | @rescheduled _ _ _ _ available =>
    exact timed_update (fun row hrow => ⟨⟨available, rfl⟩, fun text htext => by cases htext⟩) h
  | deadLettered _ _ _ houtbox =>
    rw [houtbox]
    exact timed_update (fun row hrow => ⟨hrow.available, fun text htext => by cases htext⟩) h
  | _ => exact h

/-- The tables after calls of any workers, each at its reading of the clock. -/
def SqliteOutboxStore.after (order : RowOrder Str Str (sqliteFormat (F := F)).earlier)
    (calls : List (OutboxCall F)) : OutboxTables Str Str :=
  calls.foldl (fun t call => ((OutboxBackend.sqlite order).exec call t).2) .empty

theorem timed_after (order : RowOrder Str Str (sqliteFormat (F := F)).earlier)
    (calls : List (OutboxCall F))
    (hcalls : ∀ call ∈ calls, ∀ event, call.op = .enqueue event → event.Timed) :
    ∀ row ∈ (SqliteOutboxStore.after order calls).outbox, row.Timed := by
  have hinit : Readable (sqliteFormat (F := F)) OutboxTables.empty ∧
      ∀ row ∈ (OutboxTables.empty (V := Str) (T := Str)).outbox, row.Timed :=
    ⟨fun _ h => absurd h List.not_mem_nil, fun _ h => absurd h List.not_mem_nil⟩
  refine (List.foldlRecOn (motive := fun t => Readable (sqliteFormat (F := F)) t ∧
    ∀ row ∈ t.outbox, row.Timed) calls _ hinit ?_).2
  intro t ht call hcall
  have hmove := (OutboxBackend.sqlite order).move ht.1 (rfl : (OutboxBackend.sqlite order).perform
    call.now call.op t = (_, _))
  exact ⟨hmove.readable sqliteFormat_lawful ht.1, timed_move hmove (hcalls call hcall) ht.2⟩

end

/-! ### Idempotency records -/

/-- The expiries stand for instants. -/
def TimedEntries (σ : Str × Str → Option (Entry F)) : Prop :=
  ∀ k e, σ k = some e → ∃ expires : Instant, e.expiresAt = expires.isoformat

theorem TimedEntries.update {σ : Str × Str → Option (Entry F)} {k : Str × Str} {e : Entry F}
    (h : TimedEntries σ) (he : ∃ expires : Instant, e.expiresAt = expires.isoformat) :
    TimedEntries (Function.update σ k (some e)) := by
  intro k' e' he'
  by_cases hk : k' = k
  · subst hk
    rw [Function.update_self] at he'
    cases he'
    exact he
  · rw [Function.update_of_ne hk] at he'
    exact h k' e' he'

theorem TimedEntries.swept {now : Instant} {σ σ' : Str × Str → Option (Entry F)}
    (h : TimedEntries σ) (hswept : KeyLedger.Swept Entry.Late now σ σ') : TimedEntries σ' := by
  intro k e he
  rcases hswept k with hsame | ⟨hgone, -⟩
  · exact h k e (hsame ▸ he)
  · rw [hgone] at he
    cases he

theorem TimedEntries.begin {now : Instant} {k : Str × Str} {requestDigest : Str}
    {expires : Except PyExc Instant} {accepts : Prop} {r : Except PyExc (IdempotencyResult F)}
    {σ σ' : Str × Str → Option (Entry F)} (h : TimedEntries σ)
    (hstep : BeginStep now k requestDigest expires accepts σ r σ') : TimedEntries σ' := by
  cases hstep with
  | refused _ _ => exact h
  | conflict hswept _ _ _ => exact h.swept hswept
  | answered hswept _ _ _ => exact h.swept hswept
  | @started _ expires hswept _ _ _ => exact (h.swept hswept).update ⟨expires, rfl⟩

theorem TimedEntries.settle {k : Str × Str} {p : Except PyExc (IdempotencyResult F) → Prop}
    {r : Except PyExc Unit} {σ σ' : Str × Str → Option (Entry F)} (h : TimedEntries σ)
    (hstep : SettleStep k p σ r σ') : TimedEntries σ' := by
  cases hstep with
  | refused _ => exact h
  | @settled e _ _ he _ _ _ => exact h.update (h k e he)

namespace IdempotencyStore

variable [PyFloat F]

/-- A call writes texts of instants. -/
theorem timed_run (now : Instant) (call : Call F) {s : IdempotencyStore F}
    (h : TimedEntries s.entries) : TimedEntries (call.run now s).entries := by
  cases call with
  | begin namesp key requestDigest ttlSeconds => exact h.begin (begin_step rfl).2
  | complete namesp key response => exact h.settle (complete_step rfl).2
  | fail namesp key error => exact h.settle (fail_step rfl).2

theorem timed_runCalls (calls : List (Instant × Call F)) {s : IdempotencyStore F}
    (h : TimedEntries s.entries) : TimedEntries (runCalls calls s).entries := by
  induction calls generalizing s with
  | nil => exact h
  | cons call calls ih =>
    obtain ⟨now, call⟩ := call
    exact ih (timed_run now call h)

/-- The expiry in a row that calls on a new SQLite store left. -/
theorem expiry_after {calls : List (Instant × Call F)} {rows : IdempotencyTable Str Str}
    (hrows : runCalls calls (.sqlite fun _ => none) = .sqlite rows) {k : Str × Str}
    {row : IdempotencyRow Str Str} (hrow : rows k = some row) :
    ∃ expires : Instant, row.expiresAtUtc = expires.isoformat := by
  have hnone : TimedEntries (IdempotencyStore.sqlite (F := F) fun _ => none).entries := by
    intro k e he
    cases he
  have htimed := timed_runCalls calls hnone
  rw [hrows] at htimed
  have hentry : viewRows (SqliteIdempotencyStore.entry (F := F)) rows k =
      some (SqliteIdempotencyStore.entry row) := by
    rw [viewRows, hrow]
    rfl
  exact htimed k _ hentry

end IdempotencyStore

namespace IdempotencyTable

/-- The rows `begin` deletes are those whose expiry is past. -/
theorem deleteRows_expired {now expires : Instant} {rows : IdempotencyTable Str Str}
    {k : Str × Str} {row : IdempotencyRow Str Str} (hrow : rows k = some row)
    (hexpires : row.expiresAtUtc = expires.isoformat) :
    deleteRows (fun row => row.expiresAtUtc < now.isoformat) rows k =
      if expires < now then none else some row := by
  have hlate : row.expiresAtUtc < now.isoformat ↔ expires < now := by
    rw [hexpires]
    exact Instant.isoformat_lt_iff
  by_cases h : expires < now
  · rw [if_pos h, deleteRows, hrow]
    simp [hlate.mpr h]
  · rw [if_neg h, deleteRows, hrow]
    simp [hlate.not.mpr h]

end IdempotencyTable

/-! ### Text order and time order -/

open scoped Classical in
/-- The texts of two instants are ordered as the instants are.  So a claim
selects among the rows that are due, in every state the outbox reaches, and
`begin` deletes the records that have expired. -/
theorem iso_text_order [PyFloat F] :
    (∀ a b : Instant, (a.isoformat < b.isoformat ↔ a < b) ∧
      (a.isoformat = b.isoformat ↔ a = b) ∧ (b.isoformat < a.isoformat ↔ b < a)) ∧
    (∀ (order : RowOrder Str Str (sqliteFormat (F := F)).earlier) (calls : List (OutboxCall F)),
      (∀ call ∈ calls, ∀ event, call.op = .enqueue event → event.Timed) →
      (∀ row ∈ (SqliteOutboxStore.after order calls).outbox, row.Timed) ∧
      ∀ (now : Instant) (destination : Str) (limit : Int),
        candidates order now.isoformat destination limit (SqliteOutboxStore.after order calls) =
          ((order.arrange ((SqliteOutboxStore.after order calls).outbox.filter fun row =>
            row.Due now destination)).take (claimLimit limit)).map OutboxRow.eventId) ∧
    ∀ (calls : List (Instant × IdempotencyStore.Call F)) (rows : IdempotencyTable Str Str),
      IdempotencyStore.runCalls calls (.sqlite fun _ => none) = .sqlite rows →
      ∀ k row, rows k = some row → ∃ expires : Instant, row.expiresAtUtc = expires.isoformat ∧
        ∀ now : Instant, IdempotencyTable.deleteRows
          (fun row => row.expiresAtUtc < now.isoformat) rows k =
            if expires < now then none else some row := by
  refine ⟨fun a b => ⟨Instant.isoformat_lt_iff, Instant.isoformat_strictMono.injective.eq_iff,
    Instant.isoformat_lt_iff⟩, fun order calls hcalls => ?_, fun calls rows hrows k row hrow => ?_⟩
  · have htimed := timed_after order calls hcalls
    refine ⟨htimed, fun now destination limit => ?_⟩
    have hselected : (SqliteOutboxStore.after order calls).outbox.filter
        (claimable (sqliteFormat (F := F)).earlier now.isoformat destination) =
          (SqliteOutboxStore.after order calls).outbox.filter fun row =>
            row.Due now destination := by
      refine List.filter_congr fun row hrow => Bool.eq_iff_iff.mpr ?_
      exact (claimable_iff_due (htimed row hrow)).trans decide_eq_true_iff.symm
    rw [candidates, hselected]
  · obtain ⟨expires, hexpires⟩ := IdempotencyStore.expiry_after hrows hrow
    exact ⟨expires, hexpires, fun now => IdempotencyTable.deleteRows_expired hrow hexpires⟩

def sampleEnqueue : List (OutboxCall Half) :=
  [⟨sampleInstant 0, .enqueue (sampleEvent (lit "e") (lit "siem") (lit "k"))⟩]

theorem sampleEnqueue_timed :
    ∀ call ∈ sampleEnqueue, ∀ event, call.op = .enqueue event → event.Timed := by
  intro call hcall event hevent
  obtain rfl := List.mem_singleton.mp hcall
  cases hevent
  exact OutboxEvent.timed_of_created sampleEvent_created

def sampleOrder : RowOrder Str Str (sqliteFormat (F := Half)).earlier := insertionOrder

theorem iso_text_order_sample :
    candidates sampleOrder (sampleInstant 1).isoformat [] 10
        (SqliteOutboxStore.after sampleOrder sampleEnqueue) = [lit "e"] ∧
      ∀ row ∈ (SqliteOutboxStore.after sampleOrder sampleEnqueue).outbox, row.Timed :=
  ⟨by decide +kernel,
    (iso_text_order (F := Half)).2.1 sampleOrder sampleEnqueue sampleEnqueue_timed |>.1⟩

end AgentRoi
