/-
`agent_roi.enterprise.outbox`: the SQLite and the PostgreSQL outbox store.

Each operation of a store is one atomic step at one reading of the clock;
`SqliteOutboxStore.leasedRow` and `SqliteOutboxStore.moveToDeadLetters` are
the two groups of statements of `dead_letter`, which only the lock of the store
object keeps together.

* `AnswerOrder`, `RowOrder` — the order a statement answers in, where SQL
  leaves it open;
* `SqliteOutboxStore`, `PostgresOutboxStore` — the operations;
* `OutboxBackend.perform` — one operation of a store of either kind.
-/
import AgentRoi.OutboxTables
import AgentRoi.PyM

namespace AgentRoi

variable {F V T : Type}

/-- The order a statement answers in. -/
structure AnswerOrder (V T : Type) where
  arrange : List (OutboxRow V T) → List (OutboxRow V T)
  perm : ∀ rows, (arrange rows).Perm rows

/-- `ORDER BY created_at_utc`, with any order among equal times. -/
structure RowOrder (V T : Type) (earlier : T → T → Bool) extends AnswerOrder V T where
  sorted : ∀ rows, (arrange rows).Pairwise fun a b => earlier b.createdAtUtc a.createdAtUtc = false

instance createdLe_total : Std.Total fun a b : OutboxRow V Str => a.createdAtUtc ≤ b.createdAtUtc :=
  ⟨fun a b => le_total a.createdAtUtc b.createdAtUtc⟩

instance createdLe_trans :
    IsTrans (OutboxRow V Str) fun a b => a.createdAtUtc ≤ b.createdAtUtc :=
  ⟨fun _ _ _ => le_trans⟩

/-- Equal times in the order of insertion. -/
def insertionOrder [PyFloat F] : RowOrder Str Str (sqliteFormat (F := F)).earlier where
  arrange rows := rows.insertionSort fun a b => a.createdAtUtc ≤ b.createdAtUtc
  perm rows := rows.perm_insertionSort _
  sorted rows := by
    have hsorted := List.pairwise_insertionSort
      (fun a b : OutboxRow Str Str => a.createdAtUtc ≤ b.createdAtUtc) rows
    exact hsorted.imp fun h => decide_eq_false (not_lt_of_ge h)

/-- `max(1, min(int(limit), 100))`. -/
def claimLimit (limit : Int) : ℕ := (max 1 (min limit 100)).toNat

/-- The `WHERE` clause of `claim`. -/
def claimable (earlier : T → T → Bool) (now : T) (destination : Str) (row : OutboxRow V T) : Bool :=
  !earlier now row.availableAtUtc &&
    (row.status = .pending ||
      (row.status = .leased && row.leaseExpiresAtUtc.any fun expires => earlier expires now)) &&
    (destination.isEmpty || row.destination = destination)

/-- The events `claim` takes. -/
def candidates {earlier : T → T → Bool} (order : RowOrder V T earlier) (now : T)
    (destination : Str) (limit : Int) (t : OutboxTables V T) : List Str :=
  ((order.arrange (t.outbox.filter (claimable earlier now destination))).take
    (claimLimit limit)).map OutboxRow.eventId

/-- `UPDATE enterprise_outbox SET … WHERE event_id=? AND status='leased' AND
lease_owner=?`, which must change one row. -/
def settleLease (eventId workerId : Str)
    (change : OutboxTables V T → (OutboxRow V T → Bool) → OutboxTables V T) :
    PyM (OutboxTables V T) Unit := do
  let t ← PyM.get
  if t.outbox.countP (OutboxRow.leasedBy eventId workerId) = 1 then
    .set (change t (OutboxRow.leasedBy eventId workerId))
  else .raise (.keyError [eventId])

/-- `str(error)[:4000]`. -/
def errorText (error : Str) : Str := error.take 4000

/-! ### SQLite -/

namespace SqliteOutboxStore

variable [PyFloat F]

/-- The answer of `enqueue` when the insertion violates a constraint. -/
def existingEvent (event : OutboxEvent F) (t : OutboxTables Str Str) :
    Except PyExc (OutboxEvent F) :=
  match t.rowOf (event.destination, event.idempotencyKey) with
  | none => .error .integrityError
  | some row => rowEvent sqliteFormat row

def enqueue (event : OutboxEvent F) : PyM (OutboxTables Str Str) (OutboxEvent F) :=
  .transaction do
    let row ← .ofExcept (eventRow sqliteFormat event)
    let t ← PyM.get
    if h : t.row row.eventId = none ∧ t.rowOf row.identity = none then
      .set (t.insert row h.1 h.2)
      return event
    else .ofExcept (existingEvent event t)

/-- `claim`'s transaction: the rows it took. -/
def takeRows (order : RowOrder Str Str (sqliteFormat (F := F)).earlier) (now expires : Instant)
    (workerId : Str) (limit : Int) (destination : Str) :
    PyM (OutboxTables Str Str) (List (OutboxRow Str Str)) :=
  .transaction do
    .ofExcept (bindText destination)
    let t ← PyM.get
    let ids := candidates order now.isoformat destination limit t
    .ofExcept (ids.forM fun _ => bindText workerId)
    .set (t.leaseRows workerId expires.isoformat ids)
    return ids.filterMap (t.leaseRows workerId expires.isoformat ids).row

def claim (order : RowOrder Str Str (sqliteFormat (F := F)).earlier) (now : Instant)
    (workerId : Str) (limit leaseSeconds : Int) (destination : Str) :
    PyM (OutboxTables Str Str) (List (OutboxEvent F)) :=
  if isBlank workerId then .raise (.valueError (lit "worker_id is required"))
  else do
    let expires ← .ofExcept (expiryAfter now leaseSeconds)
    let rows ← takeRows order now expires workerId limit destination
    .ofExcept (rows.mapM (rowEvent sqliteFormat))

/-- The parameters `event_id` and `worker_id`. -/
def bindIds (eventId workerId : Str) : Except PyExc Unit := do
  bindText eventId
  bindText workerId

def markDelivered (now : Instant) (eventId workerId : Str) : PyM (OutboxTables Str Str) Unit :=
  .transaction do
    .ofExcept (bindIds eventId workerId)
    settleLease eventId workerId fun t p => t.deliverRows p now.isoformat

/-- `_utc_now() + timedelta(seconds=max(0.0, float(delay_seconds)))`, where the
delay is counted in microseconds. -/
def availableAfter (now : Instant) (delay : Int) : Except PyExc Instant :=
  (now.addMicros (max 0 delay).toNat).elim (.error .overflowError) .ok

def reschedule (now : Instant) (eventId workerId error : Str) (delay : Int) :
    PyM (OutboxTables Str Str) Unit := do
  let available ← .ofExcept (availableAfter now delay)
  .transaction do
    .ofExcept (bindText (errorText error))
    .ofExcept (bindIds eventId workerId)
    settleLease eventId workerId fun t p =>
      t.postponeRows p available.isoformat (errorText error)

/-- The `SELECT` of `dead_letter`. -/
def leasedRow (eventId workerId : Str) : PyM (OutboxTables Str Str) (OutboxRow Str Str) := do
  .ofExcept (bindIds eventId workerId)
  let t ← PyM.get
  match t.outbox.find? (OutboxRow.leasedBy eventId workerId) with
  | none => .raise (.keyError [eventId])
  | some row => return row

/-- The transaction of `dead_letter`, on the row that was read. -/
def moveToDeadLetters (now : Instant) (eventId error : Str) (row : OutboxRow Str Str) :
    PyM (OutboxTables Str Str) Unit :=
  .transaction do
    .ofExcept (bindText (errorText error))
    .modify fun t => t.replaceLetter (row.deadLetter (errorText error) now.isoformat)
    .modify fun t => t.buryRows (fun row => row.eventId = eventId) (errorText error)

def deadLetter (now : Instant) (eventId workerId error : Str) :
    PyM (OutboxTables Str Str) Unit := do
  let row ← leasedRow eventId workerId
  moveToDeadLetters now eventId error row

end SqliteOutboxStore

/-! ### PostgreSQL -/

def uniqueViolation : PyExc := .other (lit "UniqueViolation") (some []) true

namespace PostgresOutboxStore

variable [PyFloat F]

/-- `ON CONFLICT(destination,idempotency_key) DO NOTHING` looks at that
constraint first; an event id that is taken violates the primary key. -/
def enqueue (driver : PgOutboxDriver F) (event : OutboxEvent F) :
    PyM (OutboxTables (Json F) Instant) (OutboxEvent F) :=
  .transaction do
    let row ← .ofExcept (eventRow (postgresFormat driver) event)
    let t ← PyM.get
    if hidentity : t.rowOf row.identity = none then
      if hid : t.row row.eventId = none then
        .set (t.insert row hid hidentity)
        return event
      else .raise uniqueViolation
    else
      match t.rowOf (event.destination, event.idempotencyKey) with
      | none => return event
      | some existing => .ofExcept (rowEvent (postgresFormat driver) existing)

/-- A time the driver cannot represent is refused. -/
def inRange (t : Option Instant) : Except PyExc Instant := t.elim (.error dataError) .ok

/-- `claim`'s statement: the rows it took, in the order `RETURNING` gives them. -/
def takeRows (driver : PgOutboxDriver F)
    (order : RowOrder (Json F) Instant (postgresFormat driver).earlier)
    (returning : AnswerOrder (Json F) Instant)
    (now : Instant) (workerId : Str) (limit leaseSeconds : Int) (destination : Str) :
    PyM (OutboxTables (Json F) Instant) (List (OutboxRow (Json F) Instant)) :=
  .transaction do
    .ofExcept (pgText destination)
    .ofExcept (pgText workerId)
    let expires ← .ofExcept (inRange (now.addSeconds (max 1 leaseSeconds).toNat))
    let t ← PyM.get
    let ids := candidates order now destination limit t
    .set (t.leaseRows workerId expires ids)
    return returning.arrange (ids.filterMap (t.leaseRows workerId expires ids).row)

def claim (driver : PgOutboxDriver F)
    (order : RowOrder (Json F) Instant (postgresFormat driver).earlier)
    (returning : AnswerOrder (Json F) Instant)
    (now : Instant) (workerId : Str) (limit leaseSeconds : Int) (destination : Str) :
    PyM (OutboxTables (Json F) Instant) (List (OutboxEvent F)) := do
  let rows ← takeRows driver order returning now workerId limit leaseSeconds destination
  .ofExcept (rows.mapM (rowEvent (postgresFormat driver)))

def bindIds (eventId workerId : Str) : Except PyExc Unit := do
  pgText eventId
  pgText workerId

def markDelivered (now : Instant) (eventId workerId : Str) :
    PyM (OutboxTables (Json F) Instant) Unit :=
  .transaction do
    .ofExcept (bindIds eventId workerId)
    settleLease eventId workerId fun t p => t.deliverRows p now

def reschedule (now : Instant) (eventId workerId error : Str) (delay : Int) :
    PyM (OutboxTables (Json F) Instant) Unit :=
  .transaction do
    .ofExcept (pgText (errorText error))
    .ofExcept (bindIds eventId workerId)
    let available ← .ofExcept (inRange (now.addMicros (max 0 delay).toNat))
    settleLease eventId workerId fun t p => t.postponeRows p available (errorText error)

/-- `WITH moved AS (UPDATE … RETURNING *) INSERT … SELECT … FROM moved`. -/
def deadLetter (now : Instant) (eventId workerId error : Str) :
    PyM (OutboxTables (Json F) Instant) Unit :=
  .transaction do
    .ofExcept (pgText (errorText error))
    .ofExcept (bindIds eventId workerId)
    let t ← PyM.get
    match t.outbox.find? (OutboxRow.leasedBy eventId workerId) with
    | none => .raise (.keyError [eventId])
    | some row =>
      .modify fun t => t.buryRows (OutboxRow.leasedBy eventId workerId) (errorText error)
      .modify fun t => t.upsertLetter (row.deadLetter (errorText error) now)

end PostgresOutboxStore

/-! ### The common protocol -/

/-- A store of one of the two kinds, by how it keeps payloads and times. -/
inductive OutboxBackend (F : Type) [PyFloat F] : Type → Type → Type where
  | sqlite (order : RowOrder Str Str (sqliteFormat (F := F)).earlier) : OutboxBackend F Str Str
  | postgres (driver : PgOutboxDriver F)
    (order : RowOrder (Json F) Instant (postgresFormat driver).earlier)
    (returning : AnswerOrder (Json F) Instant) :
    OutboxBackend F (Json F) Instant

/-- An operation of `OutboxStore`. -/
inductive OutboxOperation (F : Type) where
  | enqueue (event : OutboxEvent F)
  | claim (workerId : Str) (limit leaseSeconds : Int) (destination : Str)
  | markDelivered (eventId workerId : Str)
  | reschedule (eventId workerId error : Str) (delay : Int)
  | deadLetter (eventId workerId error : Str)

namespace OutboxBackend

variable [PyFloat F]

def format : OutboxBackend F V T → OutboxFormat F V T
  | .sqlite _ => sqliteFormat
  | .postgres driver _ _ => postgresFormat driver

/-- `enqueue` answers with the event it stored or found, and `claim` with the
events it took. -/
def perform (now : Instant) : OutboxBackend F V T → OutboxOperation F →
    PyM (OutboxTables V T) (List (OutboxEvent F))
  | .sqlite _, .enqueue event => do return [← SqliteOutboxStore.enqueue event]
  | .sqlite order, .claim workerId limit leaseSeconds destination =>
    SqliteOutboxStore.claim order now workerId limit leaseSeconds destination
  | .sqlite _, .markDelivered eventId workerId => do
    SqliteOutboxStore.markDelivered now eventId workerId
    return []
  | .sqlite _, .reschedule eventId workerId error delay => do
    SqliteOutboxStore.reschedule now eventId workerId error delay
    return []
  | .sqlite _, .deadLetter eventId workerId error => do
    SqliteOutboxStore.deadLetter now eventId workerId error
    return []
  | .postgres driver _ _, .enqueue event => do return [← PostgresOutboxStore.enqueue driver event]
  | .postgres driver order returning, .claim workerId limit leaseSeconds destination =>
    PostgresOutboxStore.claim driver order returning now workerId limit leaseSeconds destination
  | .postgres _ _ _, .markDelivered eventId workerId => do
    PostgresOutboxStore.markDelivered now eventId workerId
    return []
  | .postgres _ _ _, .reschedule eventId workerId error delay => do
    PostgresOutboxStore.reschedule now eventId workerId error delay
    return []
  | .postgres _ _ _, .deadLetter eventId workerId error => do
    PostgresOutboxStore.deadLetter now eventId workerId error
    return []

end OutboxBackend

end AgentRoi
