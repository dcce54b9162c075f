/-
`agent_roi.runtime.resilience`: the SQLite and the PostgreSQL idempotency store.

Each call is one serialised transaction at one reading of the clock.  The
table's primary key makes it a map from namespace and key to rows; the columns
nothing reads (`created_at_utc`, `revision`) are left out.

* `SqliteIdempotencyStore`, `PostgresIdempotencyStore` — `begin`, `complete`
  and `fail` of the two stores;
* `PgDriver` — what a `jsonb` column makes of a text, which is decided by
  PostgreSQL and its driver;
* `IdempotencyStore` — one of the two, with the common methods.
-/
import AgentRoi.AuditEvent
import AgentRoi.IsoTime
import AgentRoi.PyM

namespace AgentRoi

variable {F : Type}

/-- `IdempotencyResult`, one constructor for each status. -/
inductive IdempotencyResult (F : Type) where
  | started
  | completed (response : Json F)
  | failed (error : Str)

inductive RecordStatus where
  | pending
  | completed
  | failed
  deriving DecidableEq

/-- A row of `idempotency_records`, by how it stores responses and times. -/
structure IdempotencyRow (V T : Type) where
  requestDigest : Str
  status : RecordStatus
  responseJson : Option V
  errorText : Str
  expiresAtUtc : T

/-- The table, by namespace and key. -/
abbrev IdempotencyTable (V T : Type) := Str × Str → Option (IdempotencyRow V T)

def idempotencyConflict : PyExc :=
  .idempotencyConflict (lit "Idempotency key was used for a different request")

def idempotencyInProgress : PyExc :=
  .idempotencyInProgress (lit "An idempotent request is already in progress")

/-- `now + timedelta(seconds=max(1, int(ttl_seconds)))`. -/
def expiryAfter (now : Instant) (ttlSeconds : Int) : Except PyExc Instant :=
  (now.addSeconds (max 1 ttlSeconds).toNat).elim (.error .overflowError) .ok

theorem expiryAfter_eq_ok {now expires : Instant} {ttlSeconds : Int}
    (h : expiryAfter now ttlSeconds = .ok expires) :
    expires.micros = now.micros + (max 1 ttlSeconds).toNat * 1000000 := by
  cases ha : now.addSeconds (max 1 ttlSeconds).toNat with
  | none =>
    rw [expiryAfter, ha] at h
    cases h
  | some later =>
    rw [expiryAfter, ha] at h
    cases h
    exact Instant.addSeconds_eq_some ha

namespace IdempotencyTable

variable {V T : Type}

/-- `DELETE FROM idempotency_records WHERE …`. -/
def deleteRows (expired : IdempotencyRow V T → Bool) (rows : IdempotencyTable V T) :
    IdempotencyTable V T :=
  fun k => (rows k).filter fun row => !expired row

/-- A fresh row of `begin`. -/
def pendingRow (requestDigest : Str) (expiresAtUtc : T) : IdempotencyRow V T where
  requestDigest := requestDigest
  status := .pending
  responseJson := none
  errorText := []
  expiresAtUtc := expiresAtUtc

/-- `UPDATE … WHERE namespace=? AND idempotency_key=? AND status='pending'`,
which must change one row; `bind` converts the parameters. -/
def settle (bind : Str → Except PyExc Unit) (namesp key : Str)
    (f : IdempotencyRow V T → IdempotencyRow V T) : PyM (IdempotencyTable V T) Unit := do
  .ofExcept (bind namesp)
  .ofExcept (bind key)
  let rows ← PyM.get
  match rows (namesp, key) with
  | some row =>
    if row.status = .pending then .set (Function.update rows (namesp, key) (some (f row)))
    else .raise (.keyError [namesp, key])
  | none => .raise (.keyError [namesp, key])

end IdempotencyTable

open IdempotencyTable

/-- `canonical_json(to_jsonable(response))`. -/
def responseText [PyFloat F] (response : PyVal F) : Str :=
  canonicalJson (PyVal.ofJson (toJsonable response))

/-! ### SQLite -/

namespace SqliteIdempotencyStore

variable [PyFloat F]

/-- What `begin` answers to the request a row belongs to. -/
def answer (row : IdempotencyRow Str Str) : Except PyExc (IdempotencyResult F) :=
  match row.status with
  | .completed =>
    match row.responseJson with
    | none => .error (.typeError [])
    | some text =>
      match Json.loads text with
      | some response => .ok (.completed response)
      | none => .error (.valueError [])
  | .failed => .ok (.failed row.errorText)
  | .pending => .error idempotencyInProgress

def begin (now : Instant) (namesp key requestDigest : Str) (ttlSeconds : Int) :
    PyM (IdempotencyTable Str Str) (IdempotencyResult F) :=
  if isBlank namesp || isBlank key then .raise (.valueError (lit "namespace and key are required"))
  else do
    let expires ← .ofExcept (expiryAfter now ttlSeconds)
    .transaction do
      .modify (deleteRows fun row => row.expiresAtUtc < now.isoformat)
      .ofExcept (bindText namesp)
      .ofExcept (bindText key)
      let rows ← PyM.get
      match rows (namesp, key) with
      | some row =>
        if row.requestDigest ≠ requestDigest then .raise idempotencyConflict
        else .ofExcept (answer row)
      | none =>
        .ofExcept (bindText requestDigest)
        .set (Function.update rows (namesp, key)
          (some (pendingRow requestDigest expires.isoformat)))
        return .started

def complete (namesp key : Str) (response : PyVal F) : PyM (IdempotencyTable Str Str) Unit :=
  .transaction do
    .ofExcept (bindText (responseText response))
    settle bindText namesp key fun row =>
      { row with status := .completed, responseJson := some (responseText response)
                 errorText := [] }

def fail (namesp key error : Str) : PyM (IdempotencyTable Str Str) Unit :=
  .transaction do
    .ofExcept (bindText error)
    settle bindText namesp key fun row => { row with status := .failed, errorText := error }

end SqliteIdempotencyStore

/-! ### PostgreSQL -/

/-- The value a `jsonb` column yields after a text was written to it; none
where the server rejects the text. -/
structure PgDriver (F : Type) where
  jsonb : Str → Option (Json F)

def dataError : PyExc := .other (lit "DataError") (some []) true

/-- Binding a string as `TEXT`, which holds no NUL. -/
def pgText (s : Str) : Except PyExc Unit := if 0 ∈ s then .error dataError else bindText s

namespace PostgresIdempotencyStore

variable [PyFloat F]

/-- What `begin` answers to the request a row belongs to.  A response that is
a string is taken for undecoded JSON. -/
def answer (row : IdempotencyRow (Json F) Instant) : Except PyExc (IdempotencyResult F) :=
  match row.status with
  | .completed =>
    match row.responseJson with
    | none => .ok (.completed .null)
    | some (.str text) =>
      match Json.loads text with
      | some response => .ok (.completed response)
      | none => .error (.valueError [])
    | some response => .ok (.completed response)
  | .failed => .ok (.failed row.errorText)
  | .pending => .error idempotencyInProgress

/-- The transaction of `begin`: whether the row was inserted, and the row. -/
def insertOrRead (now expires : Instant) (namesp key requestDigest : Str) :
    PyM (IdempotencyTable (Json F) Instant) (Bool × IdempotencyRow (Json F) Instant) :=
  .transaction do
    .modify (deleteRows fun row => row.expiresAtUtc < now)
    .ofExcept (pgText namesp)
    .ofExcept (pgText key)
    .ofExcept (pgText requestDigest)
    let rows ← PyM.get
    match rows (namesp, key) with
    | some row => return (false, row)
    | none =>
      .set (Function.update rows (namesp, key) (some (pendingRow requestDigest expires)))
      return (true, pendingRow requestDigest expires)

/-- The check for a row that cannot be read is left out: the transaction has
just inserted or found it. -/
def begin (now : Instant) (namesp key requestDigest : Str) (ttlSeconds : Int) :
    PyM (IdempotencyTable (Json F) Instant) (IdempotencyResult F) := do
  let expires ← .ofExcept (expiryAfter now ttlSeconds)
  let (inserted, row) ← insertOrRead now expires namesp key requestDigest
  if row.requestDigest ≠ requestDigest then .raise idempotencyConflict
  else if inserted then return .started
  else .ofExcept (answer row)

def complete (driver : PgDriver F) (namesp key : Str) (response : PyVal F) :
    PyM (IdempotencyTable (Json F) Instant) Unit :=
  .transaction do
    match driver.jsonb (responseText response) with
    | none => .raise dataError
    | some value =>
      settle pgText namesp key fun row =>
        { row with status := .completed, responseJson := some value, errorText := [] }

def fail (namesp key error : Str) : PyM (IdempotencyTable (Json F) Instant) Unit :=
  .transaction do
    .ofExcept (pgText error)
    settle pgText namesp key fun row => { row with status := .failed, errorText := error }

end PostgresIdempotencyStore

/-! ### The common protocol -/

inductive IdempotencyStore (F : Type) where
  | sqlite (rows : IdempotencyTable Str Str)
  | postgres (driver : PgDriver F) (rows : IdempotencyTable (Json F) Instant)

namespace IdempotencyStore

variable [PyFloat F]

def begin (now : Instant) (namesp key requestDigest : Str) (ttlSeconds : Int) :
    PyM (IdempotencyStore F) (IdempotencyResult F)
  | .sqlite rows =>
    PyM.embed .sqlite (SqliteIdempotencyStore.begin now namesp key requestDigest ttlSeconds) rows
  | .postgres driver rows =>
    PyM.embed (.postgres driver)
      (PostgresIdempotencyStore.begin now namesp key requestDigest ttlSeconds) rows

def complete (namesp key : Str) (response : PyVal F) : PyM (IdempotencyStore F) Unit
  | .sqlite rows => PyM.embed .sqlite (SqliteIdempotencyStore.complete namesp key response) rows
  | .postgres driver rows =>
    PyM.embed (.postgres driver) (PostgresIdempotencyStore.complete driver namesp key response) rows

def fail (namesp key error : Str) : PyM (IdempotencyStore F) Unit
  | .sqlite rows => PyM.embed .sqlite (SqliteIdempotencyStore.fail namesp key error) rows
  | .postgres driver rows =>
    PyM.embed (.postgres driver) (PostgresIdempotencyStore.fail namesp key error) rows

end IdempotencyStore

end AgentRoi
