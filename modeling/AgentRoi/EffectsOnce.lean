/-
What the outbox does to the endpoints it posts to.

* `ExactlyOnce` — however often events are claimed, retried and given to other
  workers, an endpoint puts none of them into effect twice, and each one that
  is marked as delivered once, with its own content;
* `Effective` — the invariant of the tables and the endpoints;
* `passRules` — every operation of a worker keeps it;
* `exactly_once` — so it holds in every pool.
-/
import AgentRoi.OutboxEffects
import AgentRoi.PassRules

namespace AgentRoi

open OutboxTables OutboxWorld

variable {F V T : Type} [PyFloat F]

/-- The effects of a row. -/
def PostingFleet.effectsOf (fleet : PostingFleet F V T) (w : Endpoints) (row : OutboxRow V T) :
    List Effect :=
  (w.effects (fleet.address row.destination)).filter fun e => e.key = some row.idempotencyKey

/-- The event carries what the row holds. -/
structure OutboxRow.Carried (fmt : OutboxFormat F V T) (row : OutboxRow V T)
    (event : OutboxEvent F) : Prop where
  eventId : event.eventId = row.eventId
  topic : event.topic = row.topic
  destination : event.destination = row.destination
  idempotencyKey : event.idempotencyKey = row.idempotencyKey
  payload : fmt.readPayload row.payloadJson = .ok event.payload
  attempts_pos : 1 ≤ event.attempts
  attempts_le : event.attempts ≤ row.attempts

/-- The effect is that of the row: its key, and its content at one of its
attempts. -/
def Effect.Of (fmt : OutboxFormat F V T) (row : OutboxRow V T) (effect : Effect) : Prop :=
  ∃ (event : OutboxEvent F) (data : List UInt8), row.Carried fmt event ∧
    JsonHttpOutboxHandler.encode event = .ok data ∧
    effect = ⟨some row.idempotencyKey, some data⟩

/-- What the endpoints have seen of the outbox. -/
structure ExactlyOnce (fleet : PostingFleet F V T) (s : OutboxWorld F Endpoints V T) : Prop where
  once : ∀ row ∈ s.tables.outbox, (fleet.effectsOf s.outside row).length ≤ 1
  delivered : ∀ row ∈ s.tables.outbox, row.status = .delivered →
    ∃ effect, fleet.effectsOf s.outside row = [effect] ∧ effect.Of fleet.backend.format row
  asked : ∀ url, ∀ effect ∈ s.outside.effects url, ∃ row ∈ s.tables.outbox,
    fleet.address row.destination = url ∧ effect.Of fleet.backend.format row

/-! ### The invariant -/

namespace PostingFleet

variable {fleet : PostingFleet F V T} {s t : OutboxWorld F Endpoints V T}
  {event : OutboxEvent F} {i : ℕ}

/-- Some worker has a handler for the destination. -/
def Handled (fleet : PostingFleet F V T) (destination : Str) : Prop :=
  ∃ i, (fleet.workers i).handlers destination ≠ none

/-- What holds of the tables and the endpoints in every state. -/
structure Effective (fleet : PostingFleet F V T) (s : OutboxWorld F Endpoints V T) : Prop where
  readable : Readable fleet.backend.format s.tables
  distinct : ∀ url, ((s.outside.effects url).map Effect.key).Nodup
  asked : ∀ url, ∀ effect ∈ s.outside.effects url, ∃ id row, s.tables.row id = some row ∧
    fleet.Handled row.destination ∧ fleet.address row.destination = url ∧
    effect.Of fleet.backend.format row
  delivered : ∀ id row, s.tables.row id = some row → row.status = .delivered →
    fleet.Handled row.destination ∧
      s.outside.Knows (fleet.address row.destination) row.idempotencyKey

/-- Rows keep their content and count their attempts. -/
def RowsKept (t t' : OutboxTables V T) : Prop :=
  ∀ id row, t.row id = some row → ∃ row', t'.row id = some row' ∧
    row'.content = row.content ∧ row.attempts ≤ row'.attempts

/-- Rows are kept, and effects stay. -/
structure Onward (s t : OutboxWorld F Endpoints V T) : Prop where
  rows : RowsKept s.tables t.tables
  effects : ∀ url, s.outside.effects url ⊆ t.outside.effects url

/-- The event was claimed: its row holds what it carries. -/
def Held (fleet : PostingFleet F V T) (event : OutboxEvent F)
    (s : OutboxWorld F Endpoints V T) : Prop :=
  ∃ row, s.tables.row event.eventId = some row ∧ row.Carried fleet.backend.format event

/-- The event took effect where it was to be sent. -/
def Landed (fleet : PostingFleet F V T) (event : OutboxEvent F)
    (s : OutboxWorld F Endpoints V T) : Prop :=
  fleet.Handled event.destination ∧
    s.outside.Knows (fleet.address event.destination) event.idempotencyKey

section

variable {fmt : OutboxFormat F V T} {row row' : OutboxRow V T} {effect : Effect}

omit [PyFloat F] in
/-- A row whose content stays carries what it carried. -/
theorem carried_later (h : row.Carried fmt event) (hcontent : row'.content = row.content)
    (hattempts : row.attempts ≤ row'.attempts) : row'.Carried fmt event := by
  simp only [OutboxRow.content, Prod.mk.injEq] at hcontent
  obtain ⟨hid, htopic, hdestination, hpayload, hkey, -⟩ := hcontent
  exact {
    eventId := h.eventId.trans hid.symm
    topic := h.topic.trans htopic.symm
    destination := h.destination.trans hdestination.symm
    idempotencyKey := h.idempotencyKey.trans hkey.symm
    payload := hpayload ▸ h.payload
    attempts_pos := h.attempts_pos
    attempts_le := h.attempts_le.trans hattempts }

theorem effect_of_later (h : effect.Of fmt row) (hcontent : row'.content = row.content)
    (hattempts : row.attempts ≤ row'.attempts) : effect.Of fmt row' := by
  obtain ⟨event, data, hcarried, hencode, rfl⟩ := h
  refine ⟨event, data, carried_later hcarried hcontent hattempts, hencode, ?_⟩
  simp only [OutboxRow.content, Prod.mk.injEq] at hcontent
  rw [hcontent.2.2.2.2.1]

end

omit [PyFloat F] in
theorem rowsKept_refl (t : OutboxTables V T) : RowsKept t t :=
  fun _ row hrow => ⟨row, hrow, rfl, le_refl _⟩

omit [PyFloat F] in
theorem onward_refl (s : OutboxWorld F Endpoints V T) : Onward s s :=
  ⟨rowsKept_refl _, fun _ => List.Subset.refl _⟩

omit [PyFloat F] in
theorem onward_trans (s t u : OutboxWorld F Endpoints V T) (hst : Onward s t) (htu : Onward t u) :
    Onward s u := by
  refine ⟨fun id row hrow => ?_, fun url e he => htu.effects url (hst.effects url he)⟩
  obtain ⟨row₁, hrow₁, hcontent, hattempts⟩ := hst.rows id row hrow
  obtain ⟨row₂, hrow₂, hcontent', hattempts'⟩ := htu.rows id row₁ hrow₁
  exact ⟨row₂, hrow₂, hcontent'.trans hcontent, hattempts.trans hattempts'⟩

theorem held_later (event : OutboxEvent F) (s t : OutboxWorld F Endpoints V T) (hst : Onward s t)
    (h : fleet.Held event s) : fleet.Held event t := by
  obtain ⟨row, hrow, hcarried⟩ := h
  obtain ⟨row', hrow', hcontent, hattempts⟩ := hst.rows _ row hrow
  exact ⟨row', hrow', carried_later hcarried hcontent hattempts⟩

theorem landed_later (event : OutboxEvent F) (s t : OutboxWorld F Endpoints V T)
    (hst : Onward s t) (h : fleet.Landed event s) : fleet.Landed event t := by
  obtain ⟨hhandled, effect, heffect, hkey⟩ := h
  exact ⟨hhandled, effect, hst.effects _ heffect, hkey⟩

/-! ### Operations of the store -/

variable {op : OutboxOperation F} {r : Except PyExc (List (OutboxEvent F))}

/-- An operation keeps the rows. -/
theorem rowsKept_move {fmt : OutboxFormat F V T} {now : Instant} {tables tables' : OutboxTables V T}
    (h : OutboxMove fmt now op r tables tables') : RowsKept tables tables' := by
  intro id row hrow
  have hmove := h.rowMove id
  rw [hrow] at hmove
  obtain ⟨row', hrow', hcontent, -⟩ := hmove.kept
  refine ⟨row', hrow', hcontent, ?_⟩
  rw [hrow'] at hmove
  generalize hrows : some row = o at hmove
  generalize hrows' : some row' = o' at hmove
  cases hmove with
  | same =>
    cases hrows
    cases hrows'
    exact le_refl _
  | inserted => cases hrows
  | leased =>
    cases hrows
    cases hrows'
    exact Nat.le_succ _
  | delivered =>
    cases hrows
    cases hrows'
    exact le_refl _
  | rescheduled =>
    cases hrows
    cases hrows'
    exact le_refl _
  | deadLettered =>
    cases hrows
    cases hrows'
    exact le_refl _

/-- Only `mark_delivered` makes a row a delivered one. -/
theorem delivered_move {fmt : OutboxFormat F V T} {now : Instant} {tables tables' : OutboxTables V T}
    (h : OutboxMove fmt now op r tables tables')
    (hcreated : ∀ event, op = .enqueue event → event.Created) {id : Str} {row' : OutboxRow V T}
    (hrow' : tables'.row id = some row') (hstatus : row'.status = .delivered) :
    (∃ workerId, op = .markDelivered id workerId ∧ r = .ok []) ∨
      ∃ row, tables.row id = some row ∧ row.status = .delivered := by
  have hmove := h.rowMove id
  rw [hrow'] at hmove
  generalize hrows : tables.row id = o at hmove
  generalize hrows' : some row' = o' at hmove
  cases hmove with
  | same =>
    cases hrows'
    exact .inr ⟨row', rfl, hstatus⟩
  | @inserted event row hinserted =>
    cases hrows'
    have hpending : row'.status = .pending :=
      (eventRow_columns hinserted).2.2.2.1.trans (created_columns (hcreated event rfl)).1
    rw [hpending] at hstatus
    cases hstatus
  | leased =>
    cases hrows'
    cases hstatus
  | delivered => exact .inl ⟨_, rfl, rfl⟩
  | rescheduled =>
    cases hrows'
    cases hstatus
  | deadLettered =>
    cases hrows'
    cases hstatus

/-- What an operation of the store keeps. -/
theorem Effective.moved (h : fleet.Effective s) {tables : OutboxTables V T}
    (hmove : OutboxMove fleet.backend.format s.now op r s.tables tables)
    (hcreated : ∀ event, op = .enqueue event → event.Created)
    (hdelivered : ∀ id workerId row, op = .markDelivered id workerId →
      s.tables.row id = some row → fleet.Handled row.destination ∧
        s.outside.Knows (fleet.address row.destination) row.idempotencyKey)
    (htables : t.tables = tables) (heffects : t.outside.effects = s.outside.effects) :
    fleet.Effective t ∧ Onward s t := by
  have hkept : RowsKept s.tables t.tables := htables ▸ rowsKept_move hmove
  refine ⟨⟨?_, ?_, ?_, ?_⟩, hkept, fun url => heffects ▸ List.Subset.refl _⟩
  · rw [htables]
    exact hmove.readable fleet.backend.format_lawful h.readable
  · rw [heffects]
    exact h.distinct
  · intro url effect heffect
    rw [heffects] at heffect
    obtain ⟨id, row, hrow, hhandled, haddress, hof⟩ := h.asked url effect heffect
    obtain ⟨row', hrow', hcontent, hattempts⟩ := hkept id row hrow
    have hdestination : row'.destination = row.destination := by
      simp only [OutboxRow.content, Prod.mk.injEq] at hcontent
      exact hcontent.2.2.1
    refine ⟨id, row', hrow', ?_, ?_, effect_of_later hof hcontent hattempts⟩
    · rwa [hdestination]
    · rwa [hdestination]
  · intro id row' hrow' hstatus
    have hbefore : ∃ row, s.tables.row id = some row ∧ fleet.Handled row.destination ∧
        s.outside.Knows (fleet.address row.destination) row.idempotencyKey := by
      rcases delivered_move hmove hcreated (htables ▸ hrow') hstatus with
        ⟨workerId, hop, hr⟩ | ⟨row, hrow, hrowStatus⟩
      · have hmove' := hmove.rowMove id
        rw [← htables, hrow'] at hmove'
        cases hrows : s.tables.row id with
        | none =>
          rw [hrows, hop] at hmove'
          cases hmove'
        | some row => exact ⟨row, rfl, hdelivered id workerId row hop hrows⟩
      · exact ⟨row, hrow, h.delivered id row hrow hrowStatus⟩
    obtain ⟨row, hrow, hhandled, effect, heffect, hkey⟩ := hbefore
    obtain ⟨row'', hrow'', hcontent, -⟩ := hkept id row hrow
    obtain rfl : row'' = row' := Option.some.inj (hrow''.symm.trans hrow')
    simp only [OutboxRow.content, Prod.mk.injEq] at hcontent
    rw [hcontent.2.2.1, hcontent.2.2.2.2.1]
    exact ⟨hhandled, effect, heffects ▸ heffect, hkey⟩

/-- A step that leaves the tables and the effects. -/
theorem Effective.same (h : fleet.Effective s) (htables : t.tables = s.tables)
    (heffects : t.outside.effects = s.outside.effects) : fleet.Effective t ∧ Onward s t := by
  refine ⟨⟨?_, ?_, ?_, ?_⟩, ?_, fun url => heffects ▸ List.Subset.refl _⟩
  · exact htables ▸ h.readable
  · exact heffects ▸ h.distinct
  · rw [htables, heffects]
    exact h.asked
  · intro id row hrow hstatus
    obtain ⟨hhandled, effect, heffect, hkey⟩ := h.delivered id row (htables ▸ hrow) hstatus
    exact ⟨hhandled, effect, heffects ▸ heffect, hkey⟩
  · exact htables ▸ rowsKept_refl _

/-- An operation raises and changes no table, or is a move; the effects stay. -/
theorem transact_spec {q : Except PyExc (List (OutboxEvent F))}
    (hreadable : Readable fleet.backend.format s.tables)
    (h : transact fleet.toOutboxFleet op s = (q, t)) :
    t.outside.effects = s.outside.effects ∧ ((∃ e, q = .error e ∧ t.tables = s.tables) ∨
      ∃ events, q = .ok events ∧
        OutboxMove fleet.backend.format s.now op (.ok events) s.tables t.tables) := by
  have heffects := fleet.database_effects s.outside
  rcases hdatabase : fleet.database s.outside with ⟨e | _, w⟩
  all_goals rw [hdatabase] at heffects
  · have heq : OutboxWorld.onOutside fleet.database s = (.error e, { s with outside := w }) := by
      rw [OutboxWorld.onOutside, PyM.on, hdatabase]
    rw [transact, PyM.bind_of_error heq] at h
    cases h
    exact ⟨heffects, .inl ⟨_, rfl, rfl⟩⟩
  · have heq : OutboxWorld.onOutside fleet.database s = (.ok (), { s with outside := w }) := by
      rw [OutboxWorld.onOutside, PyM.on, hdatabase]
    rw [transact, PyM.bind_of_ok heq, PyM.get_bind] at h
    rcases hperform : fleet.backend.perform s.now op s.tables with ⟨r, tables⟩
    rw [PyM.on, hperform] at h
    cases h
    have hmove := fleet.backend.move hreadable hperform
    cases r with
    | error e => exact ⟨heffects, .inl ⟨e, rfl, hmove.error_same⟩⟩
    | ok events => exact ⟨heffects, .inr ⟨events, rfl, hmove⟩⟩

/-- An operation of a worker, which enqueues nothing. -/
theorem transact_keeps {q : Except PyExc (List (OutboxEvent F))} (h : fleet.Effective s)
    (hop : ∀ event, op ≠ .enqueue event)
    (hdelivered : ∀ id workerId row, op = .markDelivered id workerId →
      s.tables.row id = some row → fleet.Handled row.destination ∧
        s.outside.Knows (fleet.address row.destination) row.idempotencyKey)
    (htransact : transact fleet.toOutboxFleet op s = (q, t)) : fleet.Effective t ∧ Onward s t := by
  obtain ⟨heffects, ⟨e, -, htables⟩ | ⟨events, -, hmove⟩⟩ := transact_spec h.readable htransact
  · exact h.same htables heffects
  · exact h.moved hmove (fun event heq => absurd heq (hop event)) hdelivered rfl heffects

/-- What a claim answers with was claimed. -/
theorem held_of_claimed {workerId destination : Str} {limit leaseSeconds : Int}
    {events : List (OutboxEvent F)}
    (hmove : OutboxMove fleet.backend.format s.now
      (.claim workerId limit leaseSeconds destination) (.ok events) s.tables t.tables)
    (he : event ∈ events) : fleet.Held event t := by
  generalize htables : t.tables = tables at hmove
  cases hmove with
  | @claimed _ _ _ _ expires ids rows _ _ hexpires hnodup hclaim hperm hevents =>
    obtain ⟨row, hmem, hrow⟩ := mem_of_mapM hevents he
    obtain ⟨id, hid, hleased⟩ := List.mem_filterMap.mp (hperm.mem_iff.mp hmem)
    obtain ⟨payload, hpayload, hrow⟩ := except_bind_eq_ok.mp hrow
    cases hrow
    refine ⟨row, ?_, rfl, rfl, rfl, rfl, hpayload, ?_, le_refl _⟩
    · rw [htables]
      show (s.tables.leaseRows workerId _ ids).row row.eventId = some row
      rw [eventId_of_row hleased]
      exact hleased
    · -- the lease counted this attempt
      obtain ⟨before, hbefore, -⟩ := hclaim id hid
      rw [row_leaseRows, if_pos hid, hbefore] at hleased
      cases hleased
      exact Nat.le_add_left 1 _

/-! ### The rules -/

/-- `self.store.claim(…)`. -/
theorem take_keeps {limit : Int} {destination : Str} (h : fleet.Effective s) :
    fleet.Effective (OutboxWorker.take fleet.toOutboxFleet i limit destination s).2 ∧
      Onward s (OutboxWorker.take fleet.toOutboxFleet i limit destination s).2 ∧
      ∀ events, (OutboxWorker.take fleet.toOutboxFleet i limit destination s).1 = .ok events →
        ∀ event ∈ events,
          fleet.Held event (OutboxWorker.take fleet.toOutboxFleet i limit destination s).2 := by
  rw [OutboxWorker.take]
  rcases htransact : transact fleet.toOutboxFleet (.claim (fleet.workers i).workerId limit
    (fleet.workers i).leaseSeconds destination) s with ⟨r, t⟩
  obtain ⟨hkeeps, honward⟩ := transact_keeps h (fun _ hop => by cases hop)
    (fun _ _ _ hop => by cases hop) htransact
  cases r with
  | error e =>
    rw [PyM.bind_of_error htransact]
    exact ⟨hkeeps, honward, fun events hevents => by cases hevents⟩
  | ok events =>
    rw [PyM.bind_of_ok htransact]
    obtain ⟨hlogged, honward'⟩ := hkeeps.same (t := log i (.claimed events) t) rfl rfl
    refine ⟨hlogged, onward_trans _ _ _ honward honward', fun events' hevents event he => ?_⟩
    cases hevents
    obtain ⟨-, ⟨e, herror, -⟩ | ⟨events'', heq, hmove⟩⟩ := transact_spec h.readable htransact
    · cases herror
    · cases heq
      exact held_later event t _ honward' (held_of_claimed hmove he)

/-- A new effect, of an event that was claimed. -/
theorem Effective.appended (h : fleet.Effective s) (hheld : fleet.Held event s)
    (hhandled : fleet.Handled event.destination) {data : List UInt8}
    (hencode : JsonHttpOutboxHandler.encode event = .ok data)
    (hnew : ¬ s.outside.Knows (fleet.address event.destination) event.idempotencyKey)
    (htables : t.tables = s.tables)
    (heffects : t.outside.effects = Function.update s.outside.effects
      (fleet.address event.destination)
      (s.outside.effects (fleet.address event.destination) ++
        [⟨some event.idempotencyKey, some data⟩])) :
    fleet.Effective t ∧ Onward s t := by
  set url := fleet.address event.destination with hurl
  have hself : t.outside.effects url =
      s.outside.effects url ++ [⟨some event.idempotencyKey, some data⟩] := by
    rw [heffects, Function.update_self]
  have hother : ∀ url', url' ≠ url → t.outside.effects url' = s.outside.effects url' := by
    intro url' hne
    rw [heffects, Function.update_of_ne hne]
  have hsubset : ∀ url', s.outside.effects url' ⊆ t.outside.effects url' := by
    intro url' effect heffect
    by_cases hsame : url' = url
    · subst hsame
      rw [hself]
      exact List.mem_append_left _ heffect
    · rwa [hother url' hsame]
  refine ⟨⟨htables ▸ h.readable, ?_, ?_, ?_⟩, htables ▸ rowsKept_refl _, hsubset⟩
  · intro url'
    by_cases hsame : url' = url
    · rw [hsame, hself, List.map_append]
      -- the key was not known at this address
      refine List.nodup_append'.mpr ⟨h.distinct url, List.nodup_singleton _, ?_⟩
      intro key hkey hkey'
      obtain ⟨effect, heffect, rfl⟩ := List.mem_map.mp hkey
      exact hnew ⟨effect, heffect, List.mem_singleton.mp hkey'⟩
    · rw [hother url' hsame]
      exact h.distinct url'
  · intro url' effect heffect
    rw [htables]
    by_cases hsame : url' = url
    · rw [hsame, hself] at heffect
      rcases List.mem_append.mp heffect with hold | hlast
      · rw [hsame]
        exact h.asked url effect hold
      · -- the new effect was asked for by the row of the event that was claimed
        obtain ⟨row, hrow, hcarried⟩ := hheld
        refine ⟨event.eventId, row, hrow, ?_, ?_, event, data, hcarried, hencode, ?_⟩
        · rw [← hcarried.destination]
          exact hhandled
        · rw [← hcarried.destination, hsame]
        · rw [List.mem_singleton.mp hlast, hcarried.idempotencyKey]
    · rw [hother url' hsame] at heffect
      exact h.asked url' effect heffect
  · intro id row hrow hstatus
    rw [htables] at hrow
    obtain ⟨hrowHandled, effect, heffect, hkey⟩ := h.delivered id row hrow hstatus
    exact ⟨hrowHandled, effect, hsubset _ heffect, hkey⟩

omit [PyFloat F] in
theorem invoke_eq {handler : OutboxEvent F → PyM Endpoints Unit} {r : Except PyExc Unit}
    {w : Endpoints} (h : handler event s.outside = (r, w)) :
    (OutboxWorker.invoke i event handler s).1 = r ∧
      (OutboxWorker.invoke i event handler s).2.tables = s.tables ∧
      (OutboxWorker.invoke i event handler s).2.outside = w := by
  have hon : OutboxWorld.onOutside (handler event) s = (r, { s with outside := w }) := by
    rw [OutboxWorld.onOutside, PyM.on, h]
  rw [OutboxWorker.invoke, hon]
  cases r with
  | ok u => exact ⟨rfl, rfl, rfl⟩
  | error e => exact ⟨rfl, rfl, rfl⟩

/-- `handler(event)`: the effects of its row are all it adds to. -/
theorem invoke_keeps {handler : OutboxEvent F → PyM Endpoints Unit}
    (hhandler : (fleet.workers i).handlers event.destination = some handler)
    (h : fleet.Effective s) (hheld : fleet.Held event s) :
    fleet.Effective (OutboxWorker.invoke i event handler s).2 ∧
      Onward s (OutboxWorker.invoke i event handler s).2 ∧
      ((OutboxWorker.invoke i event handler s).1 = .ok () →
        fleet.Landed event (OutboxWorker.invoke i event handler s).2) := by
  obtain ⟨poster, rfl, hendpoint, hkeepsKey⟩ := fleet.posts i _ handler hhandler
  have hhandled : fleet.Handled event.destination := by
    refine ⟨i, ?_⟩
    rw [hhandler]
    exact Option.some_ne_none _
  rcases hcall : poster.call Endpoints.urlopen event s.outside with ⟨r, w⟩
  obtain ⟨hfirst, htables, houtside⟩ := invoke_eq (i := i) hcall
  obtain ⟨heffects, hknows⟩ := call_spec hkeepsKey hcall
  rw [hendpoint, ← houtside] at heffects
  have hkeeps : fleet.Effective
        (OutboxWorker.invoke i event (poster.call Endpoints.urlopen) s).2 ∧
      Onward s (OutboxWorker.invoke i event (poster.call Endpoints.urlopen) s).2 := by
    rcases heffects with hsame | ⟨data, hencode, hnew, heffects⟩
    · exact h.same htables hsame
    · exact h.appended hheld hhandled hencode hnew htables heffects
  refine ⟨hkeeps.1, hkeeps.2, fun hok => ⟨hhandled, ?_⟩⟩
  rw [houtside, ← hendpoint]
  exact hknows (hfirst.symm.trans hok)

theorem finish_keeps (h : fleet.Effective s) (hheld : fleet.Held event s)
    (hlanded : fleet.Landed event s) :
    fleet.Effective (OutboxWorker.finish fleet.toOutboxFleet i event s).2 ∧
      Onward s (OutboxWorker.finish fleet.toOutboxFleet i event s).2 := by
  rw [OutboxWorker.finish]
  rcases htransact : transact fleet.toOutboxFleet
    (.markDelivered event.eventId (fleet.workers i).workerId) s with ⟨_ | _, t⟩
  all_goals
    have hkeeps := transact_keeps h (fun _ hop => by cases hop) (by
      intro id workerId row hop hrow
      cases hop
      -- the row that is settled is the row that was claimed
      obtain ⟨row', hrow', hcarried⟩ := hheld
      obtain rfl : row' = row := Option.some.inj (hrow'.symm.trans hrow)
      rw [← hcarried.destination, ← hcarried.idempotencyKey]
      exact hlanded) htransact
  · rw [PyM.bind_of_error htransact]
    exact hkeeps
  · rw [PyM.bind_of_ok htransact]
    exact hkeeps

theorem bury_keeps {e : PyExc} (h : fleet.Effective s) :
    fleet.Effective (OutboxWorker.bury fleet.toOutboxFleet i event e s).2 ∧
      Onward s (OutboxWorker.bury fleet.toOutboxFleet i event e s).2 := by
  rw [OutboxWorker.bury]
  cases herror : OutboxWorker.errorString e with
  | error e' =>
    rw [PyM.bind_of_error (PyM.ofExcept_apply _ _)]
    exact ⟨h, onward_refl s⟩
  | ok error =>
    rw [PyM.bind_of_ok (PyM.ofExcept_apply _ _)]
    rcases htransact : transact fleet.toOutboxFleet
      (.deadLetter event.eventId (fleet.workers i).workerId error) s with ⟨_ | _, t⟩
    all_goals
      obtain ⟨hkeeps, honward⟩ := transact_keeps h (fun _ hop => by cases hop)
        (fun _ _ _ hop => by cases hop) htransact
    · rw [PyM.bind_of_error htransact]
      exact ⟨hkeeps, honward⟩
    · rw [PyM.bind_of_ok htransact]
      obtain ⟨hlogged, honward'⟩ := hkeeps.same (t := log i (.deadLettered event) t) rfl rfl
      exact ⟨hlogged, onward_trans _ _ _ honward honward'⟩

theorem delay_keeps {attempt : ℕ} (h : fleet.Effective s) :
    fleet.Effective (OutboxWorld.onOutside ((fleet.workers i).retryPolicy.delay attempt) s).2 ∧
      Onward s (OutboxWorld.onOutside ((fleet.workers i).retryPolicy.delay attempt) s).2 :=
  h.same rfl (fleet.delay_effects i attempt s.outside)

theorem postpone_keeps {e : PyExc} (h : fleet.Effective s) :
    fleet.Effective (OutboxWorker.postpone fleet.toOutboxFleet i event e s).2 ∧
      Onward s (OutboxWorker.postpone fleet.toOutboxFleet i event e s).2 := by
  rw [OutboxWorker.postpone]
  rcases hdelay : OutboxWorld.onOutside ((fleet.workers i).retryPolicy.delay (max 1 event.attempts)) s
    with ⟨e' | delay, t⟩
  all_goals
    have hpaused : fleet.Effective (OutboxWorld.onOutside ((fleet.workers i).retryPolicy.delay
        (max 1 event.attempts)) s).2 ∧ Onward s (OutboxWorld.onOutside
        ((fleet.workers i).retryPolicy.delay (max 1 event.attempts)) s).2 := delay_keeps h
    rw [hdelay] at hpaused
    obtain ⟨hkeeps, honward⟩ := hpaused
  · rw [PyM.bind_of_error hdelay]
    exact ⟨hkeeps, honward⟩
  · rw [PyM.bind_of_ok hdelay]
    cases herror : OutboxWorker.errorString e with
    | error e' =>
      rw [PyM.bind_of_error (PyM.ofExcept_apply _ _)]
      exact ⟨hkeeps, honward⟩
    | ok error =>
      rw [PyM.bind_of_ok (PyM.ofExcept_apply _ _)]
      rcases htransact : transact fleet.toOutboxFleet (.reschedule event.eventId
        (fleet.workers i).workerId (e.className ++ lit ": " ++ error) delay) t with ⟨_ | _, u⟩
      all_goals
        obtain ⟨hkeeps', honward'⟩ := transact_keeps hkeeps (fun _ hop => by cases hop)
          (fun _ _ _ hop => by cases hop) htransact
      · rw [PyM.bind_of_error htransact]
        exact ⟨hkeeps', onward_trans _ _ _ honward honward'⟩
      · rw [PyM.bind_of_ok htransact]
        exact ⟨hkeeps', onward_trans _ _ _ honward honward'⟩

theorem passRules (fleet : PostingFleet F V T) (i : ℕ) :
    PassRules fleet.toOutboxFleet i fleet.Effective Onward fleet.Held fleet.Landed where
  refl := onward_refl
  trans := onward_trans
  held := held_later
  landed := landed_later
  aside _ _ htables houtside h := h.same htables (congrArg Endpoints.effects houtside)
  delay _ _ h := delay_keeps h
  take _ _ _ h := take_keeps h
  invoke _ _ _ hhandler h hheld := invoke_keeps hhandler h hheld
  finish _ _ h hheld hlanded := finish_keeps h hheld hlanded
  bury _ _ _ h _ := bury_keeps h
  postpone _ _ _ h _ := postpone_keeps h

/-! ### Every pool -/

theorem effective_init (htables : s.tables = .empty)
    (heffects : ∀ url, s.outside.effects url = []) : fleet.Effective s := by
  constructor
  · rw [htables]
    exact fun row hrow => absurd hrow List.not_mem_nil
  · intro url
    rw [heffects url]
    exact List.nodup_nil
  · intro url effect heffect
    rw [heffects url] at heffect
    cases heffect
  · intro id row hrow
    rw [htables] at hrow
    cases hrow

theorem env_keeps (henv : PostingEnv fleet s t) : Within fleet.Effective Onward s t := by
  intro h
  cases henv with
  | elapsed now monotonic fate hle => exact h.same rfl rfl
  | enqueued event hcreated =>
    have hmove : OutboxMove fleet.backend.format s.now (.enqueue event)
        (fleet.backend.perform s.now (.enqueue event) s.tables).1 s.tables
        (fleet.backend.perform s.now (.enqueue event) s.tables).2 :=
      fleet.backend.move h.readable rfl
    refine h.moved hmove ?_ ?_ rfl rfl
    · intro event' hop
      cases hop
      exact hcreated
    · intro _ _ _ hop
      cases hop

end PostingFleet

/-- However the workers, the network and the endpoints run, no event takes
effect twice, and one that is marked as delivered has taken effect once. -/
theorem exactly_once {fleet : PostingFleet F V T}
    {pool : Pool ℕ (OutboxWorld F Endpoints V T) PyExc RunSummary}
    (hreach : PostingReach fleet pool) : ExactlyOnce fleet pool.state := by
  have h : fleet.Effective pool.state :=
    PassRules.invariant fleet.passRules (fun s hs => PostingFleet.effective_init hs.1 hs.2)
      (fun s t => PostingFleet.env_keeps) hreach
  have honce : ∀ row : OutboxRow V T, (fleet.effectsOf pool.state.outside row).length ≤ 1 := by
    intro row
    have hcount := List.nodup_iff_count_le_one.mp (h.distinct (fleet.address row.destination))
      (some row.idempotencyKey)
    rw [List.count, List.countP_map, List.countP_eq_length_filter] at hcount
    have hsame : fleet.effectsOf pool.state.outside row =
        (pool.state.outside.effects (fleet.address row.destination)).filter
          ((fun key => key == some row.idempotencyKey) ∘ Effect.key) :=
      List.filter_congr fun effect _ => (beq_eq_decide _ _).symm
    rw [hsame]
    exact hcount
  constructor
  · exact fun row _ => honce row
  · intro row hrow hstatus
    obtain ⟨⟨i, hhandled⟩, effect, heffect, hkey⟩ := h.delivered _ row (row_of_mem hrow) hstatus
    have hmem : effect ∈ fleet.effectsOf pool.state.outside row :=
      List.mem_filter.mpr ⟨heffect, decide_eq_true hkey⟩
    obtain ⟨id, row', hrow', ⟨j, hhandled'⟩, haddress, hof⟩ := h.asked _ effect heffect
    -- one endpoint for each destination, and one row for each of its keys
    have hdestination : row'.destination = row.destination :=
      fleet.apart j i _ _ hhandled' hhandled haddress
    obtain ⟨event, data, hcarried, hencode, rfl⟩ := hof
    have hidentity : row'.identity = row.identity :=
      Prod.ext hdestination (Option.some.inj hkey)
    obtain rfl : row' = row := by
      have hthis := rowOf_of_mem (mem_of_row hrow')
      rw [hidentity, rowOf_of_mem hrow] at hthis
      exact (Option.some.inj hthis).symm
    obtain ⟨effect', heq⟩ : ∃ effect', fleet.effectsOf pool.state.outside row' = [effect'] := by
      refine List.length_eq_one_iff.mp (le_antisymm (honce row') ?_)
      exact List.length_pos_of_mem hmem
    rw [heq, List.mem_singleton] at hmem
    exact ⟨_, heq, hmem ▸ ⟨event, data, hcarried, hencode, rfl⟩⟩
  · intro url effect heffect
    obtain ⟨id, row, hrow, -, haddress, hof⟩ := h.asked url effect heffect
    exact ⟨row, mem_of_row hrow, haddress, hof⟩

/-! ### A worker that posts -/

def postingHandler : JsonHttpOutboxHandler := ⟨lit "https://siem", []⟩

theorem one_le_one_try : 1 ≤ 1 := le_rfl

theorem one_le_eight_tries : 1 ≤ 8 := by decide

theorem minute_small : |(60 : ℤ)| ≤ 2 ^ 53 := by decide

def minute : Binary64 := .ofSmallInt 60 minute_small

theorem minute_pos : 0 < minute.value := by decide

def postingWorker : OutboxWorker Half Endpoints where
  handlers destination :=
    if destination = lit "siem" then some (postingHandler.call Endpoints.urlopen) else none
  workerId := lit "w"
  retryPolicy := ⟨1, one_le_one_try, fun _ => true, fun _ => return 0⟩
  maxDeliveryAttempts := 8
  maxDeliveryAttempts_pos := one_le_eight_tries
  leaseSeconds := 60
  circuitBreakers _ := none

/-- The address of a destination. -/
def postingAddress (destination : Str) : Str := lit "https://" ++ destination

theorem posts_postingWorker (destination : Str) (handler : OutboxEvent Half → PyM Endpoints Unit)
    (h : postingWorker.handlers destination = some handler) : ∃ poster : JsonHttpOutboxHandler,
      handler = poster.call Endpoints.urlopen ∧ poster.endpoint = postingAddress destination ∧
        poster.KeepsKey := by
  have hsiem : destination = lit "siem" := by
    by_contra hne
    have hnone : postingWorker.handlers destination = none := if_neg hne
    rw [hnone] at h
    cases h
  subst hsiem
  obtain rfl : postingHandler.call Endpoints.urlopen = handler := Option.some.inj h
  exact ⟨postingHandler, rfl, rfl, fun h hh => by cases hh⟩

theorem postingAddress_inj {d d' : Str} (h : postingAddress d = postingAddress d') : d = d' :=
  List.append_cancel_left h

theorem postingDatabase_effects (w : Endpoints) :
    ((return () : PyM Endpoints Unit) w).2.effects = w.effects := rfl

theorem postingDelay_effects (_i attempt : ℕ) (w : Endpoints) :
    (postingWorker.retryPolicy.delay attempt w).2.effects = w.effects := rfl

def postingFleet : PostingFleet Half Str Str where
  backend := sampleBackend
  database := return ()
  workers _ := postingWorker
  breakers _ := ⟨1, minute, 1, one_le_one_try, minute_pos, one_le_one_try⟩
  address := postingAddress
  posts _ := posts_postingWorker
  apart _ _ d d' _ _ := @postingAddress_inj d d'
  database_effects := postingDatabase_effects
  delay_effects := postingDelay_effects

/-- The next request is accepted. -/
def acceptingFate : Fate := ⟨true, .response 200, fun _ _ _ _ => rfl⟩

/-- An event is enqueued. -/
def postingWorld : OutboxWorld Half Endpoints Str Str where
  now := sampleInstant 1
  monotonic := .one
  outside := ⟨fun _ => [], acceptingFate⟩
  tables := (sampleBackend.perform (sampleInstant 1)
    (.enqueue (sampleEvent (lit "e") (lit "siem") (lit "k"))) .empty).2
  breakers _ := ⟨.closed, 0, 0, .zero, false⟩
  trace := []

/-- The worker ran once. -/
def postedPool : Pool ℕ (OutboxWorld Half Endpoints Str Str) PyExc RunSummary :=
  ⟨((OutboxWorker.runOnce postingFleet.toOutboxFleet 0 10 []).run postingWorld).2, fun _ => none⟩

theorem postedPool_reach : PostingReach postingFleet postedPool := by
  have hinit : PostingReach postingFleet ⟨{ postingWorld with tables := .empty }, fun _ => none⟩ :=
    .init ⟨rfl, fun _ => rfl⟩
  have henqueued : PostingReach postingFleet ⟨postingWorld, fun _ => none⟩ :=
    hinit.env (.enqueued _ sampleEvent_created)
  exact henqueued.run ⟨10, [], rfl⟩

theorem exactly_once_sample :
    postedPool.state.tables.outbox.map OutboxRow.status = [.delivered] ∧
      ExactlyOnce postingFleet postedPool.state :=
  ⟨by decide +kernel, exactly_once postedPool_reach⟩

end AgentRoi
