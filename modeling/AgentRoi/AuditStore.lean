/-
`agent_roi.audit.store`: the in-memory, the JSONL and the SQLite store.

A store state holds what the store keeps: the event list and the cache of
chain tails, the content of the file, the rows of the table.  `record` takes
the fresh event id and the clock reading from outside.  File system failures
and the locks are left out; each method runs under its store's lock.

* `InMemoryAuditStore`, `JsonlAuditStore`, `SqliteAuditStore` — the states,
  with `record`, `append`, `lastHash` and `verify` on each;
* `record_eq_ok`, `append_eq_ok`, `append_eq_error` of each — what a call that
  returns, or raises, has done;
* `AuditStore` — one of the three, with the common methods.
-/
import AgentRoi.AuditEvent
import AgentRoi.ChainLog
import AgentRoi.PyM
import AgentRoi.TextLines

namespace AgentRoi

/-- The arguments of `record`, with the event id and the time it draws. -/
structure RecordCall (F : Type) where
  eventId : Str
  tsEpochMs : Int
  correlationId : Str
  runId : Str
  eventType : Str
  payload : List (PyKey F × PyVal F)

variable {F : Type}

def RecordCall.create [PyFloat F] (H : Sha256) (call : RecordCall F) (previous : Option Str)
    (hashChain : Bool) : Except PyExc (AuditEvent F) :=
  AuditEvent.create H call.eventId call.tsEpochMs call.correlationId call.runId call.eventType
    (.dict call.payload) previous hashChain

def staleMessage : Str := lit "Audit append rejected because prev_hash is stale or invalid"

/-- `Audit event {index} {problem}`. -/
def auditEventError (index : Nat) (problem : String) : PyExc :=
  .auditIntegrityError (lit "Audit event " ++ natDigits index ++ lit problem)

/-- The loop of the three `verify` methods: `check` looks at one entry with
its number and the table of tails, and returns the next table. -/
def verifyLoop {E : Type} (check : Nat → (Str → Option Str) → E → Except PyExc (Str → Option Str)) :
    Nat → (Str → Option Str) → List E → Except PyExc Unit
  | _, _, [] => .ok ()
  | index, last, e :: es => do
    let last' ← check index last e
    verifyLoop check (index + 1) last' es

/-! ### The in-memory store -/

/-- `if event.hash: cache[event.correlation_id] = event.hash`. -/
def cacheHash (cache : Str → Option Str) (e : AuditEvent F) : Str → Option Str :=
  match e.hash with
  | some (c :: h) => Function.update cache e.correlationId (some (c :: h))
  | _ => cache

def cacheOf (events : List (AuditEvent F)) : Str → Option Str :=
  events.foldl cacheHash fun _ => none

/-- The private cache follows the events. -/
structure InMemoryAuditStore (F : Type) where
  hashChain : Bool
  events : List (AuditEvent F)
  lastHashCache : Str → Option Str
  cache_sync : lastHashCache = cacheOf events

namespace InMemoryAuditStore

def empty (hashChain : Bool) : InMemoryAuditStore F := ⟨hashChain, [], fun _ => none, rfl⟩

def push (s : InMemoryAuditStore F) (e : AuditEvent F) : InMemoryAuditStore F where
  hashChain := s.hashChain
  events := s.events ++ [e]
  lastHashCache := cacheHash s.lastHashCache e
  cache_sync := by rw [s.cache_sync, cacheOf, cacheOf, List.foldl_append]; rfl

def lastHash (s : InMemoryAuditStore F) (correlationId : Str) : Option Str :=
  s.lastHashCache correlationId

def append (e : AuditEvent F) : PyM (InMemoryAuditStore F) Unit := do
  let s ← PyM.get
  if e.prevHash ≠ s.lastHashCache e.correlationId then
    .raise (.auditIntegrityError staleMessage)
  else .set (s.push e)

variable [PyFloat F]

def record (H : Sha256) (call : RecordCall F) : PyM (InMemoryAuditStore F) (AuditEvent F) := do
  let s ← PyM.get
  let e ← .ofExcept (call.create H (s.lastHashCache call.correlationId) s.hashChain)
  .set (s.push e)
  return e

def check (H : Sha256) (hashChain : Bool) (index : Nat) (last : Str → Option Str)
    (e : AuditEvent F) : Except PyExc (Str → Option Str) :=
  if e.prevHash ≠ last e.correlationId then .error (auditEventError index " has an invalid prev_hash")
  else if hashChain then
    match e.computedHash H with
    | .error exc => .error exc
    | .ok computed =>
      if e.hash ≠ some computed then .error (auditEventError index " has an invalid hash")
      else .ok (Function.update last e.correlationId (some computed))
  else if e.hash ≠ none then .error (auditEventError index " unexpectedly contains a hash")
  else .ok last

def verify (H : Sha256) (s : InMemoryAuditStore F) : Except PyExc Nat := do
  verifyLoop (check H s.hashChain) 1 (fun _ => none) s.events
  return s.events.length

omit [PyFloat F] in
theorem append_eq_ok {s s' : InMemoryAuditStore F} {e : AuditEvent F}
    (h : append e s = (.ok (), s')) :
    e.prevHash = s.lastHashCache e.correlationId ∧ s' = s.push e := by
  rw [append, PyM.get_bind] at h
  split_ifs at h with hp
  · cases h
  · cases h
    exact ⟨not_not.mp hp, rfl⟩

omit [PyFloat F] in
theorem append_eq_error {s s' : InMemoryAuditStore F} {e : AuditEvent F} {exc : PyExc}
    (h : append e s = (.error exc, s')) : s' = s := by
  rw [append, PyM.get_bind] at h
  split_ifs at h <;> cases h
  rfl

theorem record_eq_ok {H : Sha256} {s s' : InMemoryAuditStore F} {call : RecordCall F}
    {e : AuditEvent F} (h : record H call s = (.ok e, s')) :
    call.create H (s.lastHashCache call.correlationId) s.hashChain = .ok e ∧ s' = s.push e := by
  rw [record, PyM.get_bind, PyM.ofExcept_bind_eq_ok] at h
  obtain ⟨e', hcreate, h⟩ := h
  cases h
  exact ⟨hcreate, rfl⟩

end InMemoryAuditStore

/-! ### The JSONL store -/

/-- A JSON object read from a line. -/
abbrev JsonObj (F : Type) := List (Str × Json F)

structure JsonlAuditStore where
  hashChain : Bool
  content : Str

namespace JsonlAuditStore

def empty (hashChain : Bool) : JsonlAuditStore := ⟨hashChain, []⟩

/-- `handle.write(text); handle.write("\n")` at the end of the file.  The text
is encoded before any of it is written. -/
def write (text : Str) : PyM JsonlAuditStore Unit :=
  match encodeUtf8 text with
  | none => .raise .unicodeEncodeError
  | some _ => .modify fun s => { s with content := s.content ++ (text ++ [10]) }

variable [PyBuiltins F]

/-- `_read_objects_from_handle`, from line number `n`. -/
def readObjects (n : Nat) : List Str → Except PyExc (List (JsonObj F))
  | [] => .ok []
  | line :: rest =>
    if isBlank line then readObjects (n + 1) rest
    else match (Json.loads line : Option (Json F)) with
      | none =>
        .error (.auditIntegrityError (lit "Malformed audit JSON on line " ++ natDigits n))
      | some (.obj kvs) => do
        let objects ← readObjects (n + 1) rest
        return kvs :: objects
      | some _ =>
        .error (.auditIntegrityError
          (lit "Audit line " ++ natDigits n ++ lit " must contain a JSON object"))

def objects (s : JsonlAuditStore) : Except PyExc (List (JsonObj F)) :=
  readObjects 1 (fileLines s.content)

/-- `str(obj.get("correlation_id", ""))`. -/
def correlationOf (obj : JsonObj F) : Str :=
  match dictGet (lit "correlation_id") obj with
  | some j => j.pyStr
  | none => []

/-- `obj.get("hash")` when it is truthy, as a string. -/
def truthyHash (obj : JsonObj F) : Option Str :=
  match dictGet (lit "hash") obj with
  | some j => if j.truthy then some j.pyStr else none
  | none => none

/-- `_last_hash_from_objects`. -/
def lastHashFromObjects (objects : List (JsonObj F)) (correlationId : Str) : Option Str :=
  objects.foldl (fun last obj =>
    if correlationOf obj = correlationId then (truthyHash obj).or last else last) none

/-- `obj.get("prev_hash") == expected`. -/
def prevMatches (obj : JsonObj F) (expected : Option Str) : Bool :=
  Json.optStr (dictGet (lit "prev_hash") obj) == some expected

def record (H : Sha256) (call : RecordCall F) : PyM JsonlAuditStore (AuditEvent F) := do
  let s ← PyM.get
  let objects : List (JsonObj F) ← .ofExcept s.objects
  let e ← .ofExcept
    (call.create H (lastHashFromObjects objects call.correlationId) s.hashChain)
  write (stableJson e.toDict)
  return e

def append (e : AuditEvent F) : PyM JsonlAuditStore Unit := do
  let s ← PyM.get
  let objects : List (JsonObj F) ← .ofExcept s.objects
  if e.prevHash ≠ lastHashFromObjects objects e.correlationId then
    .raise (.auditIntegrityError staleMessage)
  else write (stableJson e.toDict)

def lastHash (F : Type) [PyBuiltins F] (s : JsonlAuditStore) (correlationId : Str) :
    Except PyExc (Option Str) := do
  let objects : List (JsonObj F) ← s.objects
  return lastHashFromObjects objects correlationId

/-- The hash of a parsed object without its `hash` member. -/
def objectHash (H : Sha256) (obj : JsonObj F) : Except PyExc Str :=
  digestValue H (PyVal.ofJson (.obj (dictErase (lit "hash") obj)))

def check (H : Sha256) (hashChain : Bool) (index : Nat) (last : Str → Option Str)
    (obj : JsonObj F) : Except PyExc (Str → Option Str) :=
  if correlationOf obj = [] then .error (auditEventError index " is missing correlation_id")
  else if !prevMatches obj (last (correlationOf obj)) then
    .error (auditEventError index " has an invalid prev_hash")
  else if hashChain then
    match dictGet (lit "hash") obj with
    | some (.str (c :: h)) =>
      match objectHash H obj with
      | .error exc => .error exc
      | .ok computed =>
        if computed ≠ c :: h then .error (auditEventError index " has an invalid hash")
        else .ok (Function.update last (correlationOf obj) (some (c :: h)))
    | _ => .error (auditEventError index " is missing its hash")
  else
    match dictGet (lit "hash") obj with
    | none | some .null => .ok last
    | some _ => .error (auditEventError index " unexpectedly contains a hash")

def verify (F : Type) [PyBuiltins F] (H : Sha256) (s : JsonlAuditStore) :
    Except PyExc Nat := do
  let objects : List (JsonObj F) ← s.objects
  verifyLoop (check H s.hashChain) 1 (fun _ => none) objects
  return objects.length

theorem write_eq_error {s s' : JsonlAuditStore} {text : Str} {exc : PyExc}
    (h : write text s = (.error exc, s')) : s' = s := by
  rw [write] at h
  cases hb : encodeUtf8 text <;> rw [hb] at h <;> cases h
  rfl

theorem append_eq_ok {s s' : JsonlAuditStore} {e : AuditEvent F}
    (h : append e s = (.ok (), s')) : ∃ objects : List (JsonObj F), s.objects = .ok objects ∧
      e.prevHash = lastHashFromObjects objects e.correlationId ∧
      write (stableJson e.toDict) s = (.ok (), s') := by
  rw [append, PyM.get_bind, PyM.ofExcept_bind_eq_ok] at h
  obtain ⟨objects, ho, h⟩ := h
  split_ifs at h with hp
  · cases h
  · exact ⟨objects, ho, not_not.mp hp, h⟩

theorem append_eq_error {s s' : JsonlAuditStore} {e : AuditEvent F} {exc : PyExc}
    (h : append e s = (.error exc, s')) : s' = s := by
  rw [append, PyM.get_bind, PyM.ofExcept_bind_eq_error] at h
  rcases h with ⟨-, hs⟩ | ⟨objects, -, h⟩
  · exact hs
  · split_ifs at h with hp
    · cases h
      rfl
    · exact write_eq_error h

theorem record_eq_ok {H : Sha256} {s s' : JsonlAuditStore} {call : RecordCall F}
    {e : AuditEvent F} (h : record H call s = (.ok e, s')) :
    ∃ objects : List (JsonObj F), s.objects = .ok objects ∧
      call.create H (lastHashFromObjects objects call.correlationId) s.hashChain = .ok e ∧
      write (stableJson e.toDict) s = (.ok (), s') := by
  rw [record, PyM.get_bind, PyM.ofExcept_bind_eq_ok] at h
  obtain ⟨objects, ho, h⟩ := h
  rw [PyM.ofExcept_bind_eq_ok] at h
  obtain ⟨e', hcreate, h⟩ := h
  obtain ⟨⟨⟩, s'', hw, h⟩ := PyM.bind_eq_ok.mp h
  cases h
  exact ⟨objects, ho, hcreate, hw⟩

end JsonlAuditStore

/-! ### The SQLite store -/

/-- A row of `audit_events`; the sequence number is its position. -/
structure AuditRow where
  eventId : Str
  correlationId : Str
  runId : Str
  eventType : Str
  eventJson : Str
  eventHash : Option Str
  deriving DecidableEq

structure SqliteAuditStore where
  hashChain : Bool
  rows : List AuditRow

namespace SqliteAuditStore

def empty (hashChain : Bool) : SqliteAuditStore := ⟨hashChain, []⟩

variable [PyBuiltins F]

def fieldsError : PyExc := .auditIntegrityError (lit "Malformed audit event fields in SQLite")

/-- `obj[key]`, converted by `f`; a missing key and a failed conversion are
both reported as malformed fields. -/
def field {α : Type} (obj : JsonObj F) (key : String) (f : Json F → Option α) :
    Except PyExc α :=
  match (dictGet (lit key) obj).bind f with
  | some a => .ok a
  | none => .error fieldsError

/-- `_event_from_json`.  A hash that is neither null nor a string equals no
column and no chain tail; it is refused here. -/
def eventFromJson (eventJson : Str) : Except PyExc (AuditEvent F) :=
  match (Json.loads eventJson : Option (Json F)) with
  | none => .error (.auditIntegrityError (lit "Malformed audit event JSON in SQLite"))
  | some (.obj obj) => do
    let eventId ← field obj "event_id" fun j => some j.pyStr
    let correlationId ← field obj "correlation_id" fun j => some j.pyStr
    let runId ← field obj "run_id" fun j => some j.pyStr
    let tsEpochMs ← field obj "ts_epoch_ms" Json.pyInt
    let eventType ← field obj "event_type" fun j => some j.pyStr
    let payload ← field obj "payload" Json.pyDict
    match Json.optStr (dictGet (lit "prev_hash") obj), Json.optStr (dictGet (lit "hash") obj) with
    | some prevHash, some hash =>
      .ok { eventId, correlationId, runId, tsEpochMs, eventType, payload, prevHash, hash }
    | _, _ => .error fieldsError
  | some _ => .error (.auditIntegrityError (lit "SQLite audit event must be a JSON object"))

/-- The last row of a chain. -/
def lastRow (rows : List AuditRow) (correlationId : Str) : Option AuditRow :=
  (rows.filter fun r => r.correlationId = correlationId).getLast?

/-- `SELECT event_json … ORDER BY sequence DESC LIMIT 1`, then the hash. -/
def previousHash (F : Type) [PyBuiltins F] (rows : List AuditRow) (correlationId : Str) :
    Except PyExc (Option Str) := do
  bindText correlationId
  match lastRow rows correlationId with
  | none => return none
  | some row =>
    let e : AuditEvent F ← eventFromJson row.eventJson
    return e.hash

def rowOf (e : AuditEvent F) : AuditRow where
  eventId := e.eventId
  correlationId := e.correlationId
  runId := e.runId
  eventType := e.eventType
  eventJson := stableJson e.toDict
  eventHash := e.hash

/-- `INSERT INTO audit_events`, with `event_id` unique. -/
def insert (row : AuditRow) : PyM SqliteAuditStore Unit := do
  .ofExcept (bindText row.eventId)
  .ofExcept (bindText row.correlationId)
  .ofExcept (bindText row.runId)
  .ofExcept (bindText row.eventType)
  .ofExcept (bindText row.eventJson)
  .ofExcept (bindText (row.eventHash.getD []))
  let s ← PyM.get
  if s.rows.any fun r => r.eventId = row.eventId then .raise .integrityError
  else .set { s with rows := s.rows ++ [row] }

def record (H : Sha256) (call : RecordCall F) : PyM SqliteAuditStore (AuditEvent F) :=
  .transaction do
    let s ← PyM.get
    let previous ← .ofExcept (previousHash F s.rows call.correlationId)
    let e ← .ofExcept (call.create H previous s.hashChain)
    insert (rowOf e)
    return e

def append (e : AuditEvent F) : PyM SqliteAuditStore Unit :=
  .transaction do
    let s ← PyM.get
    let previous ← .ofExcept (previousHash F s.rows e.correlationId)
    if e.prevHash ≠ previous then .raise (.auditIntegrityError staleMessage)
    else insert (rowOf e)

def lastHash (F : Type) [PyBuiltins F] (s : SqliteAuditStore) (correlationId : Str) :
    Except PyExc (Option Str) := previousHash F s.rows correlationId

/-- The columns agree with the stored event. -/
def matchesRow (row : AuditRow) (e : AuditEvent F) : Bool :=
  e.eventId == row.eventId && e.correlationId == row.correlationId && e.runId == row.runId &&
    e.eventType == row.eventType && e.hash == row.eventHash

/-- `_events`, from row number `n`. -/
def events (n : Nat) : List AuditRow → Except PyExc (List (AuditEvent F))
  | [] => .ok []
  | row :: rows => do
    let e ← eventFromJson row.eventJson
    if !matchesRow row e then
      .error (.auditIntegrityError (lit "SQLite audit row " ++ natDigits n ++
        lit " metadata does not match event_json"))
    else
      let es ← events (n + 1) rows
      return e :: es

def check (H : Sha256) (hashChain : Bool) (index : Nat) (last : Str → Option Str)
    (e : AuditEvent F) : Except PyExc (Str → Option Str) :=
  if e.prevHash ≠ last e.correlationId then .error (auditEventError index " has an invalid prev_hash")
  else if hashChain then
    match e.hash with
    | some (c :: h) =>
      match e.computedHash H with
      | .error exc => .error exc
      | .ok computed =>
        if computed ≠ c :: h then .error (auditEventError index " has an invalid hash")
        else .ok (Function.update last e.correlationId (some (c :: h)))
    | _ => .error (auditEventError index " is missing its hash")
  else if e.hash ≠ none then .error (auditEventError index " unexpectedly contains a hash")
  else .ok last

def verify (F : Type) [PyBuiltins F] (H : Sha256) (s : SqliteAuditStore) :
    Except PyExc Nat := do
  let es : List (AuditEvent F) ← events 1 s.rows
  verifyLoop (check H s.hashChain) 1 (fun _ => none) es
  return es.length

omit [PyBuiltins F] in
/-- What a successful insert does. -/
theorem insert_eq_ok {row : AuditRow} {s s' : SqliteAuditStore}
    (h : insert row s = (.ok (), s')) :
    s' = { s with rows := s.rows ++ [row] } ∧ (encodeUtf8 row.correlationId).isSome := by
  simp only [insert, PyM.ofExcept_bind_eq_ok] at h
  obtain ⟨_, -, _, hcorr, _, -, _, -, _, -, _, -, h⟩ := h
  rw [PyM.get_bind] at h
  split_ifs at h
  · cases h
  · cases h
    exact ⟨rfl, bindText_eq_ok hcorr⟩

theorem append_eq_ok {s s' : SqliteAuditStore} {e : AuditEvent F}
    (h : append e s = (.ok (), s')) :
    previousHash F s.rows e.correlationId = .ok e.prevHash ∧
      s' = { s with rows := s.rows ++ [rowOf e] } ∧ (encodeUtf8 e.correlationId).isSome := by
  rw [append, PyM.transaction_eq_ok, PyM.get_bind, PyM.ofExcept_bind_eq_ok] at h
  obtain ⟨previous, hprev, h⟩ := h
  split_ifs at h with hp
  · cases h
  · rw [not_not.mp hp]
    exact ⟨hprev, insert_eq_ok h⟩

theorem append_eq_error {s s' : SqliteAuditStore} {e : AuditEvent F} {exc : PyExc}
    (h : append e s = (.error exc, s')) : s' = s :=
  (PyM.transaction_eq_error.mp h).1

theorem record_eq_ok {H : Sha256} {s s' : SqliteAuditStore} {call : RecordCall F}
    {e : AuditEvent F} (h : record H call s = (.ok e, s')) :
    ∃ previous, previousHash F s.rows call.correlationId = .ok previous ∧
      call.create H previous s.hashChain = .ok e ∧
      s' = { s with rows := s.rows ++ [rowOf e] } ∧ (encodeUtf8 e.correlationId).isSome := by
  rw [record, PyM.transaction_eq_ok, PyM.get_bind, PyM.ofExcept_bind_eq_ok] at h
  obtain ⟨previous, hprev, h⟩ := h
  rw [PyM.ofExcept_bind_eq_ok] at h
  obtain ⟨e', hcreate, h⟩ := h
  obtain ⟨⟨⟩, s'', hw, h⟩ := PyM.bind_eq_ok.mp h
  cases h
  exact ⟨previous, hprev, hcreate, insert_eq_ok hw⟩

end SqliteAuditStore

/-! ### The common protocol -/

inductive StoreKind where
  | inMemory
  | jsonl
  | sqlite
  deriving DecidableEq

inductive AuditStore (F : Type) where
  | inMemory (s : InMemoryAuditStore F)
  | jsonl (s : JsonlAuditStore)
  | sqlite (s : SqliteAuditStore)

namespace AuditStore

def empty (F : Type) (hashChain : Bool) : StoreKind → AuditStore F
  | .inMemory => .inMemory (.empty hashChain)
  | .jsonl => .jsonl (.empty hashChain)
  | .sqlite => .sqlite (.empty hashChain)

variable [PyBuiltins F]

def record (H : Sha256) (call : RecordCall F) : PyM (AuditStore F) (AuditEvent F)
  | .inMemory s => PyM.embed .inMemory (InMemoryAuditStore.record H call) s
  | .jsonl s => PyM.embed .jsonl (JsonlAuditStore.record H call) s
  | .sqlite s => PyM.embed .sqlite (SqliteAuditStore.record H call) s

def append (e : AuditEvent F) : PyM (AuditStore F) Unit
  | .inMemory s => PyM.embed .inMemory (InMemoryAuditStore.append e) s
  | .jsonl s => PyM.embed .jsonl (JsonlAuditStore.append e) s
  | .sqlite s => PyM.embed .sqlite (SqliteAuditStore.append e) s

def lastHash (correlationId : Str) : AuditStore F → Except PyExc (Option Str)
  | .inMemory s => .ok (s.lastHash correlationId)
  | .jsonl s => s.lastHash F correlationId
  | .sqlite s => s.lastHash F correlationId

def verify (H : Sha256) : AuditStore F → Except PyExc Nat
  | .inMemory s => s.verify H
  | .jsonl s => s.verify F H
  | .sqlite s => s.verify F H

/-- A sequence of `record` calls; the events they return, in order. -/
def recordAll (H : Sha256) : List (RecordCall F) → PyM (AuditStore F) (List (AuditEvent F))
  | [] => return []
  | call :: calls => do
    let e ← record H call
    let es ← recordAll H calls
    return e :: es

end AuditStore

end AgentRoi
