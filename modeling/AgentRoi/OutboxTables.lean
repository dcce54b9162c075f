/-
`agent_roi.enterprise.outbox`: the events and the two tables.

* `OutboxEvent`, `OutboxEvent.create` — an event, and its checks;
* `OutboxTables` — `enterprise_outbox` and `enterprise_dead_letters`, with
  their keys;
* `OutboxFormat` — what a store makes of texts, payloads and times: SQLite
  keeps payloads and times as texts, PostgreSQL as `jsonb` and `timestamptz`;
* `rowEvent`, `eventRow` — `_row_event`, and the parameters of the insertion.
-/
import AgentRoi.IdempotencyStore
import AgentRoi.RowTable

namespace AgentRoi

variable {F V T : Type}

inductive OutboxStatus where
  | pending
  | leased
  | delivered
  | deadLetter
  deriving DecidableEq

/-- `payload` is a dictionary, by its members. -/
structure OutboxEvent (F : Type) where
  eventId : Str
  topic : Str
  destination : Str
  payload : List (Str × Json F)
  idempotencyKey : Str
  status : OutboxStatus
  attempts : ℕ
  availableAtUtc : Str
  leaseOwner : Str
  leaseExpiresAtUtc : Str
  lastError : Str
  createdAtUtc : Str
  deliveredAtUtc : Str

/-- `isinstance(value, str) and value.strip()`, for one of the fields. -/
def requireNonEmpty (name value : Str) : Except PyExc Unit :=
  if isBlank value then .error (.valueError (name ++ lit " must be a non-empty string"))
  else .ok ()

/-- `dict(to_jsonable(payload))` of a mapping. -/
def jsonableDict [PyFloat F] (payload : List (PyKey F × PyVal F)) : List (Str × Json F) :=
  match toJsonable (.dict payload) with
  | .obj members => members
  | _ => []

/-- `OutboxEvent.create`, where `uuid` is what `uuid.uuid4()` yields and the
clock shows `available` and then `created`. -/
def OutboxEvent.create [PyFloat F] (topic destination : Str) (payload : List (PyKey F × PyVal F))
    (idempotencyKey eventId uuid : Str) (available created : Instant) :
    Except PyExc (OutboxEvent F) := do
  requireNonEmpty (lit "topic") topic
  requireNonEmpty (lit "destination") destination
  requireNonEmpty (lit "idempotency_key") idempotencyKey
  return {
    eventId := if eventId = [] then uuid else eventId
    topic := strip topic
    destination := strip destination
    payload := jsonableDict payload
    idempotencyKey := strip idempotencyKey
    status := .pending
    attempts := 0
    availableAtUtc := available.isoformat
    leaseOwner := []
    leaseExpiresAtUtc := []
    lastError := []
    createdAtUtc := created.isoformat
    deliveredAtUtc := [] }

/-! ### The tables -/

/-- A row of `enterprise_outbox`. -/
structure OutboxRow (V T : Type) where
  eventId : Str
  topic : Str
  destination : Str
  payloadJson : V
  idempotencyKey : Str
  status : OutboxStatus
  attempts : ℕ
  availableAtUtc : T
  leaseOwner : Option Str
  leaseExpiresAtUtc : Option T
  lastError : Str
  createdAtUtc : T
  deliveredAtUtc : Option T
  deriving DecidableEq

namespace OutboxRow

/-- The columns of `UNIQUE(destination,idempotency_key)`. -/
def identity (row : OutboxRow V T) : Str × Str := (row.destination, row.idempotencyKey)

/-- `event_id=? AND status='leased' AND lease_owner=?`. -/
def leasedBy (eventId workerId : Str) (row : OutboxRow V T) : Bool :=
  row.eventId = eventId && row.status = .leased && row.leaseOwner = some workerId

theorem leasedBy_iff {eventId workerId : Str} {row : OutboxRow V T} :
    row.leasedBy eventId workerId = true ↔
      row.eventId = eventId ∧ row.status = .leased ∧ row.leaseOwner = some workerId := by
  simp [leasedBy, and_assoc]

/-- The change `claim` makes. -/
def lease (workerId : Str) (expires : T) (row : OutboxRow V T) : OutboxRow V T :=
  { row with status := .leased, leaseOwner := some workerId, leaseExpiresAtUtc := some expires
             attempts := row.attempts + 1 }

/-- The change `mark_delivered` makes. -/
def deliver (now : T) (row : OutboxRow V T) : OutboxRow V T :=
  { row with status := .delivered, deliveredAtUtc := some now, leaseOwner := none
             leaseExpiresAtUtc := none, lastError := [] }

/-- The change `reschedule` makes. -/
def postpone (available : T) (error : Str) (row : OutboxRow V T) : OutboxRow V T :=
  { row with status := .pending, availableAtUtc := available, leaseOwner := none
             leaseExpiresAtUtc := none, lastError := error }

/-- The change `dead_letter` makes. -/
def bury (error : Str) (row : OutboxRow V T) : OutboxRow V T :=
  { row with status := .deadLetter, lastError := error, leaseOwner := none
             leaseExpiresAtUtc := none }

section

variable {row : OutboxRow V T} {s : Str} {time : T}

@[simp] theorem eventId_lease : (row.lease s time).eventId = row.eventId := rfl

@[simp] theorem identity_lease : (row.lease s time).identity = row.identity := rfl

@[simp] theorem eventId_deliver : (row.deliver time).eventId = row.eventId := rfl

@[simp] theorem identity_deliver : (row.deliver time).identity = row.identity := rfl

@[simp] theorem eventId_postpone : (row.postpone time s).eventId = row.eventId := rfl

@[simp] theorem identity_postpone : (row.postpone time s).identity = row.identity := rfl

@[simp] theorem eventId_bury : (row.bury s).eventId = row.eventId := rfl

@[simp] theorem identity_bury : (row.bury s).identity = row.identity := rfl

end

end OutboxRow

/-- A row of `enterprise_dead_letters`. -/
structure DeadLetter (V T : Type) where
  eventId : Str
  topic : Str
  destination : Str
  payloadJson : V
  idempotencyKey : Str
  attempts : ℕ
  lastError : Str
  createdAtUtc : T
  deadLetteredAtUtc : T
  deriving DecidableEq

def OutboxRow.deadLetter (row : OutboxRow V T) (error : Str) (now : T) : DeadLetter V T where
  eventId := row.eventId
  topic := row.topic
  destination := row.destination
  payloadJson := row.payloadJson
  idempotencyKey := row.idempotencyKey
  attempts := row.attempts
  lastError := error
  createdAtUtc := row.createdAtUtc
  deadLetteredAtUtc := now

/-- `DO UPDATE SET attempts=…,last_error=…,dead_lettered_at_utc=…`. -/
def DeadLetter.refresh (letter d : DeadLetter V T) : DeadLetter V T :=
  { d with attempts := letter.attempts, lastError := letter.lastError
           deadLetteredAtUtc := letter.deadLetteredAtUtc }

theorem DeadLetter.eventId_refresh (letter d : DeadLetter V T) :
    (letter.refresh d).eventId = d.eventId := rfl

/-- The tables, with the constraints the database holds them to. -/
structure OutboxTables (V T : Type) where
  outbox : List (OutboxRow V T)
  deadLetters : List (DeadLetter V T)
  eventIds : (outbox.map OutboxRow.eventId).Nodup
  identities : (outbox.map OutboxRow.identity).Nodup
  deadLetterIds : (deadLetters.map DeadLetter.eventId).Nodup

namespace OutboxTables

open RowTable

def empty : OutboxTables V T := ⟨[], [], .nil, .nil, .nil⟩

/-- `SELECT * FROM enterprise_outbox WHERE event_id=?`. -/
def row (t : OutboxTables V T) (eventId : Str) : Option (OutboxRow V T) :=
  rowAt OutboxRow.eventId eventId t.outbox

/-- `SELECT * FROM enterprise_outbox WHERE destination=? AND idempotency_key=?`. -/
def rowOf (t : OutboxTables V T) (identity : Str × Str) : Option (OutboxRow V T) :=
  rowAt OutboxRow.identity identity t.outbox

/-- The row of `enterprise_dead_letters` with an event's id. -/
def letter (t : OutboxTables V T) (eventId : Str) : Option (DeadLetter V T) :=
  rowAt DeadLetter.eventId eventId t.deadLetters

/-- `INSERT INTO enterprise_outbox`, of a row that violates no constraint. -/
def insert (t : OutboxTables V T) (row : OutboxRow V T) (hid : t.row row.eventId = none)
    (hidentity : t.rowOf row.identity = none) : OutboxTables V T where
  outbox := t.outbox ++ [row]
  deadLetters := t.deadLetters
  eventIds := nodup_append t.eventIds hid
  identities := nodup_append t.identities hidentity
  deadLetterIds := t.deadLetterIds

/-- `UPDATE enterprise_outbox SET … WHERE …`. -/
def update (t : OutboxTables V T) (p : OutboxRow V T → Bool) (f : OutboxRow V T → OutboxRow V T)
    (hid : ∀ row, (f row).eventId = row.eventId) (hidentity : ∀ row, (f row).identity = row.identity) :
    OutboxTables V T where
  outbox := updateWhere p f t.outbox
  deadLetters := t.deadLetters
  eventIds := by
    rw [map_updateWhere hid]
    exact t.eventIds
  identities := by
    rw [map_updateWhere hidentity]
    exact t.identities
  deadLetterIds := t.deadLetterIds

/-- `INSERT OR REPLACE INTO enterprise_dead_letters`. -/
def replaceLetter (t : OutboxTables V T) (letter : DeadLetter V T) : OutboxTables V T where
  outbox := t.outbox
  deadLetters := t.deadLetters.filter (fun d => d.eventId ≠ letter.eventId) ++ [letter]
  eventIds := t.eventIds
  identities := t.identities
  deadLetterIds := nodup_append (nodup_filter t.deadLetterIds) rowAt_filter_self

/-- `INSERT INTO enterprise_dead_letters … ON CONFLICT(event_id) DO UPDATE …`. -/
def upsertLetter (t : OutboxTables V T) (letter : DeadLetter V T) : OutboxTables V T where
  outbox := t.outbox
  deadLetters :=
    if (t.letter letter.eventId).isSome then
      updateWhere (fun d => d.eventId = letter.eventId) letter.refresh t.deadLetters
    else t.deadLetters ++ [letter]
  eventIds := t.eventIds
  identities := t.identities
  deadLetterIds := by
    split
    · rw [map_updateWhere letter.eventId_refresh]
      exact t.deadLetterIds
    · rename_i h
      exact nodup_append t.deadLetterIds (by rwa [Option.not_isSome_iff_eq_none] at h)

section

variable {t : OutboxTables V T} {r r' : OutboxRow V T} {eventId : Str} {identity : Str × Str}

theorem eventId_of_row (h : t.row eventId = some r) : r.eventId = eventId := key_of_rowAt h

theorem mem_of_row (h : t.row eventId = some r) : r ∈ t.outbox := mem_of_rowAt h

theorem row_of_mem (h : r ∈ t.outbox) : t.row r.eventId = some r := rowAt_of_mem t.eventIds h

theorem identity_of_rowOf (h : t.rowOf identity = some r) : r.identity = identity := key_of_rowAt h

theorem row_of_rowOf (h : t.rowOf identity = some r) : t.row r.eventId = some r :=
  row_of_mem (mem_of_rowAt h)

theorem rowOf_of_mem (h : r ∈ t.outbox) : t.rowOf r.identity = some r := rowAt_of_mem t.identities h

theorem row_insert_self {hid : t.row r.eventId = none} {hidentity : t.rowOf r.identity = none} :
    (t.insert r hid hidentity).row r.eventId = some r := rowAt_append_self hid

theorem row_insert_of_ne {hid : t.row r.eventId = none} {hidentity : t.rowOf r.identity = none}
    (h : r.eventId ≠ eventId) : (t.insert r hid hidentity).row eventId = t.row eventId :=
  rowAt_append_of_ne h

variable {p : OutboxRow V T → Bool} {f : OutboxRow V T → OutboxRow V T}
  {hid : ∀ row, (f row).eventId = row.eventId} {hidentity : ∀ row, (f row).identity = row.identity}

theorem row_update : (t.update p f hid hidentity).row eventId =
    (t.row eventId).map fun row => if p row then f row else row := rowAt_updateWhere hid

theorem letter_replaceLetter_self {d : DeadLetter V T} :
    (t.replaceLetter d).letter d.eventId = some d := rowAt_append_self rowAt_filter_self

theorem letter_replaceLetter_of_ne {d : DeadLetter V T} (h : d.eventId ≠ eventId) :
    (t.replaceLetter d).letter eventId = t.letter eventId := by
  show rowAt DeadLetter.eventId eventId (_ ++ [d]) = _
  rw [rowAt_append_of_ne h, rowAt_filter_ne h.symm]
  rfl

theorem letter_upsertLetter_self {d : DeadLetter V T} (h : t.letter d.eventId = none) :
    (t.upsertLetter d).letter d.eventId = some d := by
  show rowAt DeadLetter.eventId d.eventId (if (t.letter d.eventId).isSome then _ else _) = _
  rw [h]
  exact rowAt_append_self h

theorem letter_upsertLetter_isSome {d : DeadLetter V T} :
    ((t.upsertLetter d).letter d.eventId).isSome := by
  cases h : t.letter d.eventId with
  | none =>
    rw [letter_upsertLetter_self h]
    rfl
  | some old =>
    show (rowAt DeadLetter.eventId d.eventId
      (if (t.letter d.eventId).isSome then _ else _)).isSome = true
    rw [if_pos (by rw [h]; rfl), rowAt_updateWhere d.eventId_refresh]
    change (Option.map _ (t.letter d.eventId)).isSome = true
    rw [h]
    rfl

theorem letter_upsertLetter_of_ne {d : DeadLetter V T} (h : d.eventId ≠ eventId) :
    (t.upsertLetter d).letter eventId = t.letter eventId := by
  show rowAt DeadLetter.eventId eventId (if (t.letter d.eventId).isSome then _ else _) = _
  split
  · rw [rowAt_updateWhere d.eventId_refresh]
    change Option.map _ (t.letter eventId) = _
    cases hletter : t.letter eventId with
    | none => rfl
    | some old =>
      have hne : old.eventId ≠ d.eventId := fun heq => h (heq.symm.trans (key_of_rowAt hletter))
      simp [hne]
  · exact rowAt_append_of_ne h

end

/-- `claim`'s update of the events it takes. -/
def leaseRows (t : OutboxTables V T) (workerId : Str) (expires : T) (ids : List Str) :
    OutboxTables V T :=
  t.update (fun row => row.eventId ∈ ids) (OutboxRow.lease workerId expires)
    (fun _ => OutboxRow.eventId_lease) fun _ => OutboxRow.identity_lease

def deliverRows (t : OutboxTables V T) (p : OutboxRow V T → Bool) (now : T) : OutboxTables V T :=
  t.update p (OutboxRow.deliver now) (fun _ => OutboxRow.eventId_deliver)
    fun _ => OutboxRow.identity_deliver

def postponeRows (t : OutboxTables V T) (p : OutboxRow V T → Bool) (available : T) (error : Str) :
    OutboxTables V T :=
  t.update p (OutboxRow.postpone available error) (fun _ => OutboxRow.eventId_postpone)
    fun _ => OutboxRow.identity_postpone

def buryRows (t : OutboxTables V T) (p : OutboxRow V T → Bool) (error : Str) : OutboxTables V T :=
  t.update p (OutboxRow.bury error) (fun _ => OutboxRow.eventId_bury)
    fun _ => OutboxRow.identity_bury

end OutboxTables

/-! ### Texts, payloads and times -/

/-- How a store keeps payloads and times, and what its driver makes of
parameters and of columns. -/
structure OutboxFormat (F V T : Type) where
  bind : Str → Except PyExc Unit
  writePayload : Str → Except PyExc V
  readPayload : V → Except PyExc (List (Str × Json F))
  writeTime : Str → Except PyExc T
  stamp : Instant → T
  timeText : T → Str
  earlier : T → T → Bool

/-- `dict(json.loads(payload))`, of a text that holds an object. -/
def loadsDict [PyFloat F] (text : Str) : Except PyExc (List (Str × Json F)) :=
  match Json.loads text with
  | some (.obj members) => .ok members
  | some _ => .error (.typeError [])
  | none => .error (.valueError [])

def sqliteFormat [PyFloat F] : OutboxFormat F Str Str where
  bind := bindText
  writePayload text := do
    bindText text
    return text
  readPayload := loadsDict
  writeTime text := do
    bindText text
    return text
  stamp := Instant.isoformat
  timeText := id
  earlier a b := a < b

/-- What PostgreSQL and its driver make of `jsonb` and `timestamptz` columns.
An object is read back as an object. -/
structure PgOutboxDriver (F : Type) [PyFloat F] extends PgDriver F where
  timestamptz : Str → Option Instant
  timeText : Instant → Str
  jsonb_obj : ∀ (text : Str) (members : List (Str × Json F)) (value : Json F),
    Json.loads text = some (.obj members) →
    jsonb text = some value → ∃ members', value = .obj members'

def postgresFormat [PyFloat F] (driver : PgOutboxDriver F) : OutboxFormat F (Json F) Instant where
  bind := pgText
  writePayload text := (driver.jsonb text).elim (.error dataError) .ok
  readPayload
    | .obj members => .ok members
    | .str text => loadsDict text
    | _ => .error (.typeError [])
  writeTime text := (driver.timestamptz text).elim (.error dataError) .ok
  stamp := id
  timeText := driver.timeText
  earlier a b := a < b

/-- `_row_event`. -/
def rowEvent (fmt : OutboxFormat F V T) (row : OutboxRow V T) : Except PyExc (OutboxEvent F) := do
  let payload ← fmt.readPayload row.payloadJson
  return {
    eventId := row.eventId
    topic := row.topic
    destination := row.destination
    payload := payload
    idempotencyKey := row.idempotencyKey
    status := row.status
    attempts := row.attempts
    availableAtUtc := fmt.timeText row.availableAtUtc
    leaseOwner := row.leaseOwner.getD []
    leaseExpiresAtUtc := (row.leaseExpiresAtUtc.map fmt.timeText).getD []
    lastError := row.lastError
    createdAtUtc := fmt.timeText row.createdAtUtc
    deliveredAtUtc := (row.deliveredAtUtc.map fmt.timeText).getD [] }

/-- `value or None`. -/
def orNone (s : Str) : Option Str := if s = [] then none else some s

/-- `canonical_json(event.payload)`. -/
def payloadText [PyFloat F] (payload : List (Str × Json F)) : Str :=
  canonicalJson (PyVal.ofJson (.obj payload))

/-- The row an event is inserted as. -/
def eventRow [PyFloat F] (fmt : OutboxFormat F V T) (event : OutboxEvent F) :
    Except PyExc (OutboxRow V T) := do
  fmt.bind event.eventId
  fmt.bind event.topic
  fmt.bind event.destination
  let payload ← fmt.writePayload (payloadText event.payload)
  fmt.bind event.idempotencyKey
  let available ← fmt.writeTime event.availableAtUtc
  (orNone event.leaseOwner).forM fmt.bind
  let expires ← (orNone event.leaseExpiresAtUtc).mapM fmt.writeTime
  fmt.bind event.lastError
  let created ← fmt.writeTime event.createdAtUtc
  let delivered ← (orNone event.deliveredAtUtc).mapM fmt.writeTime
  return {
    eventId := event.eventId
    topic := event.topic
    destination := event.destination
    payloadJson := payload
    idempotencyKey := event.idempotencyKey
    status := event.status
    attempts := event.attempts
    availableAtUtc := available
    leaseOwner := orNone event.leaseOwner
    leaseExpiresAtUtc := expires
    lastError := event.lastError
    createdAtUtc := created
    deliveredAtUtc := delivered }

end AgentRoi
