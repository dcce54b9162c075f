/-
`PostgresAuditStore` of `agent_roi.audit.postgres`.

* `PgAuditRow`, `rowOf` — a row, and the one an event is inserted as;
* `record`, `verify` — the methods, each in one transaction;
* `Good`, `verify_eq_ok_iff` — what `verify` accepts;
* `Holds`, `recordAll_run` — what a sequence of `record` calls leaves.

Event ids are what `str(uuid.uuid4())` yields, which a `UUID` column prints as
they are.
-/
import AgentRoi.AuditVerify
import AgentRoi.ControlPlaneTables
import AgentRoi.JsonbNumbers

namespace AgentRoi

open ChainLog

variable {F : Type}

/-! ### Rows -/

/-- A row; `sequence_id` is its position. -/
structure PgAuditRow (F : Type) where
  eventId : Str
  correlationId : Str
  runId : Str
  tsEpochMs : Int
  eventType : Str
  payloadJson : Json F
  prevHash : Option Str
  eventHash : Option Str
  eventJson : Json F

structure PostgresAuditStore (F : Type) where
  hashChain : Bool
  rows : List (PgAuditRow F)

/-- `CHAR(64)` pads with blanks. -/
def charColumn : Option Str → Except PyExc (Option Str)
  | none => .ok none
  | some text => do
    pgText text
    if text.length > 64 then .error dataError
    else return some (text ++ List.replicate (64 - text.length) 32)

/-- `BIGINT`. -/
def bigint (i : Int) : Except PyExc Unit :=
  if -2 ^ 63 ≤ i ∧ i < 2 ^ 63 then .ok () else .error dataError

/-- `%s::jsonb`. -/
def PgDriver.writeJson (driver : PgDriver F) (text : Str) : Except PyExc (Json F) := do
  bindText text
  (driver.jsonb text).elim (.error dataError) .ok

namespace PostgresAuditStore

def empty (hashChain : Bool) : PostgresAuditStore F := ⟨hashChain, []⟩

section

variable [PyFloat F] (driver : PgDriver F) (H : Sha256)

/-- What `_insert` binds. -/
def rowOf (e : AuditEvent F) : Except PyExc (PgAuditRow F) := do
  pgText e.eventId
  pgText e.correlationId
  pgText e.runId
  bigint e.tsEpochMs
  pgText e.eventType
  let payloadJson ← driver.writeJson (canonicalJson (.dict e.payload))
  let prevHash ← charColumn e.prevHash
  let eventHash ← charColumn e.hash
  let eventJson ← driver.writeJson (stableJson e.toDict)
  return ⟨e.eventId, e.correlationId, e.runId, e.tsEpochMs, e.eventType, payloadJson, prevHash,
    eventHash, eventJson⟩

/-- `_insert`; `event_id` is unique. -/
def insert (e : AuditEvent F) : PyM (PostgresAuditStore F) Unit := do
  let row ← PyM.ofExcept (rowOf driver e)
  let s ← PyM.get
  if s.rows.any fun r => r.eventId = row.eventId then .raise .integrityError
  else .set { s with rows := s.rows ++ [row] }

omit [PyFloat F] in
/-- `_tail`. -/
def tail (rows : List (PgAuditRow F)) (correlationId : Str) : Except PyExc (Option Str) := do
  pgText correlationId
  return match (rows.filter fun r => r.correlationId = correlationId).getLast? with
    | none => none
    | some row => row.eventHash.map strip

def record (call : RecordCall F) : PyM (PostgresAuditStore F) (AuditEvent F) :=
  .transaction do
    let s ← PyM.get
    let previous ← PyM.ofExcept (tail s.rows call.correlationId)
    let e ← PyM.ofExcept (call.create H previous s.hashChain)
    insert driver e
    return e

/-- A sequence of `record` calls; the events they return, in order. -/
def recordAll : List (RecordCall F) → PyM (PostgresAuditStore F) (List (AuditEvent F))
  | [] => return []
  | call :: calls => do
    let e ← record driver H call
    let es ← recordAll calls
    return e :: es

/-! ### `verify` -/

/-- `_normalize_json`. -/
def normalizeJson : Json F → Except PyExc (List (Str × Json F))
  | .obj members => .ok members
  | .str text =>
    match (Json.loads text : Option (Json F)) with
    | some (.obj members) => .ok members
    | some _ => .error (.auditIntegrityError (lit "PostgreSQL audit event_json must be an object"))
    | none => .error (.auditIntegrityError (lit "PostgreSQL audit event_json is not valid JSON"))
  | _ => .error (.auditIntegrityError (lit "PostgreSQL audit event_json must be an object"))

/-- `payload_json`, decoded where the driver has not done so. -/
def payloadObject : Json F → Except PyExc (Json F)
  | .obj members => .ok (.obj members)
  | .str text => loadsText text
  | _ => .error (.typeError [])

/-- `Postgres audit event {index} {problem}`. -/
def rowError (index : Nat) (problem : String) : PyExc :=
  .auditIntegrityError (lit "PostgreSQL audit event " ++ natDigits index ++ lit problem)

omit [PyFloat F] in
/-- `denormalized` without its hash. -/
def baseFields (row : PgAuditRow F) (payload : Json F) : PyDict F :=
  [(lit "event_id", .str row.eventId), (lit "correlation_id", .str row.correlationId),
    (lit "run_id", .str row.runId), (lit "ts_epoch_ms", .int row.tsEpochMs),
    (lit "event_type", .str row.eventType), (lit "payload", .ofJson payload),
    (lit "prev_hash", .ofOptStr (row.prevHash.map strip))]

omit [PyFloat F] in
def denormalized (row : PgAuditRow F) (payload : Json F) : PyDict F :=
  baseFields row payload ++ [(lit "hash", .ofOptStr (row.eventHash.map strip))]

/-- The body of the loop.  The two dictionaries are compared by their canonical
texts: no number stands in one where the other has an equal one of another
type. -/
def check (hashChain : Bool) (index : Nat) (last : Str → Option Str) (row : PgAuditRow F) :
    Except PyExc (Str → Option Str) := do
  let eventJson ← normalizeJson row.eventJson
  let payload ← payloadObject row.payloadJson
  if canonicalJson (PyVal.ofJson (.obj eventJson)) ≠
      canonicalJson (.ofFields (denormalized row payload)) then
    .error (rowError index " denormalized columns do not match event_json")
  else if row.prevHash.map strip ≠ last row.correlationId then
    .error (rowError index " has an invalid prev_hash")
  else if hashChain then do
    let computed ← digestValue H (.ofFields (baseFields row payload))
    if some computed ≠ row.eventHash.map strip then .error (rowError index " has an invalid hash")
    else return Function.update last row.correlationId (some computed)
  else if row.eventHash.map strip ≠ none then
    .error (rowError index " unexpectedly contains a hash")
  else return last

/-- `verify()` of the whole table. -/
def verify (s : PostgresAuditStore F) : Except PyExc Nat := do
  verifyLoop (check H s.hashChain) 1 (fun _ => none) s.rows
  return s.rows.length

/-! ### What `verify` accepts -/

variable {H}

/-- The columns agree with the stored event, and the hash is that of the other
columns. -/
def Good (H : Sha256) (hashChain : Bool) (row : PgAuditRow F) : Prop :=
  ∃ members payload, normalizeJson row.eventJson = .ok members ∧
    payloadObject row.payloadJson = .ok payload ∧
    canonicalJson (PyVal.ofJson (.obj members)) =
      canonicalJson (.ofFields (denormalized row payload)) ∧
    if hashChain then ∃ d, row.eventHash.map strip = some d ∧
      digestValue H (.ofFields (baseFields row payload)) = .ok d
    else row.eventHash.map strip = none

theorem Good.hash_eq_none {hashChain : Bool} {row : PgAuditRow F} (h : Good H hashChain row)
    (hc : hashChain = false) : row.eventHash.map strip = none := by
  obtain ⟨_, _, -, -, -, hhash⟩ := h
  subst hc
  exact hhash

theorem check_eq_ok_iff {hashChain : Bool} {i : Nat} {last last' : Str → Option Str}
    {row : PgAuditRow F} (hlast : TableFor hashChain last) :
    check H hashChain i last row = .ok last' ↔
      row.prevHash.map strip = last row.correlationId ∧ Good H hashChain row ∧
        last' = Function.update last row.correlationId (row.eventHash.map strip) := by
  unfold check Good
  cases hmembers : normalizeJson row.eventJson with
  | error e => simp [bind, Except.bind]
  | ok members =>
    cases hpayload : payloadObject row.payloadJson with
    | error e => simp [bind, Except.bind]
    | ok payload =>
      show (if _ then _ else _) = _ ↔ _
      by_cases hcolumns : canonicalJson (PyVal.ofJson (.obj members)) =
        canonicalJson (.ofFields (denormalized row payload))
      · rw [if_neg (not_not.mpr hcolumns)]
        generalize row.eventHash.map strip = stripped
        by_cases hprev : row.prevHash.map strip = last row.correlationId
        · rw [if_neg (not_not.mpr hprev)]
          cases hashChain with
          | true =>
            rw [if_pos rfl]
            cases hdigest : digestValue H (.ofFields (baseFields row payload)) with
            | error e => simp [bind, Except.bind, hdigest]
            | ok computed =>
              by_cases hhash : stripped = some computed
              · simp [bind, Except.bind, pure, Except.pure, hhash, hprev, hcolumns, hdigest, eq_comm]
              · simp [bind, Except.bind, Ne.symm hhash, hhash, hdigest]
          | false =>
            rw [if_neg Bool.false_ne_true, hlast rfl]
            by_cases hhash : stripped = none
            · simp [hhash, hprev, hcolumns, hlast rfl, eq_comm, pure, Except.pure]
            · simp [hhash]
        · simp [hprev]
      · simp [hcolumns]

/-- `verify` counts the rows of a linked log of good rows. -/
theorem verify_eq_ok_iff {s : PostgresAuditStore F} {n : Nat} :
    s.verify H = .ok n ↔
      (Linked PgAuditRow.correlationId (fun row => row.prevHash.map strip)
        (fun row => row.eventHash.map strip) s.rows ∧ ∀ row ∈ s.rows, Good H s.hashChain row) ∧
        n = s.rows.length := by
  have hloop : verifyLoop (check H s.hashChain) 1 (fun _ => none) s.rows = .ok () ↔ _ :=
    verifyLoop_eq_ok_iff (fun _ _ _ _ hlast => check_eq_ok_iff hlast)
      (fun _ hgood hc => hgood.hash_eq_none hc) (tableFor_empty s.hashChain)
  rw [verify, except_bind_eq_ok]
  constructor
  · rintro ⟨_, hrun, hn⟩
    exact ⟨hloop.mp hrun, (Except.ok.inj hn).symm⟩
  · rintro ⟨hgood, rfl⟩
    exact ⟨(), hloop.mpr hgood, rfl⟩

/-! ### Rows of events -/

variable {driver}

/-- The row an event is inserted as, column by column. -/
theorem rowOf_eq_ok {e : AuditEvent F} {row : PgAuditRow F} (h : rowOf driver e = .ok row) :
    pgText e.correlationId = .ok () ∧
      driver.jsonb (canonicalJson (.dict e.payload)) = some row.payloadJson ∧
      charColumn e.prevHash = .ok row.prevHash ∧ charColumn e.hash = .ok row.eventHash ∧
      driver.jsonb (stableJson e.toDict) = some row.eventJson ∧
      row.eventId = e.eventId ∧ row.correlationId = e.correlationId ∧ row.runId = e.runId ∧
      row.tsEpochMs = e.tsEpochMs ∧ row.eventType = e.eventType := by
  have hwrite : ∀ {text : Str} {value : Json F}, driver.writeJson text = .ok value →
      driver.jsonb text = some value := by
    intro text value hvalue
    obtain ⟨_, -, hvalue⟩ := except_bind_eq_ok.mp hvalue
    cases hjson : driver.jsonb text with
    | none =>
      rw [hjson] at hvalue
      cases hvalue
    | some found =>
      rw [hjson] at hvalue
      exact congrArg some (Except.ok.inj hvalue)
  simp only [rowOf, except_bind_eq_ok] at h
  obtain ⟨_, -, _, hcorrelation, _, -, _, -, _, -, payload, hpayload, prev, hprev, hash, hhash,
    event, hevent, h⟩ := h
  cases h
  exact ⟨hcorrelation, hwrite hpayload, hprev, hhash, hwrite hevent, rfl, rfl, rfl, rfl, rfl⟩

/-- No hash, or one of `hashlib`. -/
def IsDigest (H : Sha256) (hash : Option Str) : Prop :=
  ∀ text, hash = some text → ∃ m, text = H.hexdigest m

/-- A `CHAR(64)` column gives a digest back. -/
theorem charColumn_digest {hash column : Option Str} (hdigest : IsDigest H hash)
    (h : charColumn hash = .ok column) : column.map strip = hash := by
  cases hash with
  | none =>
    cases h
    rfl
  | some text =>
    obtain ⟨m, rfl⟩ := hdigest text rfl
    obtain ⟨_, -, h⟩ := except_bind_eq_ok.mp h
    have hlength := H.length_hexdigest m
    rw [hlength, if_neg (lt_irrefl 64)] at h
    cases h
    have hclean : strip (H.hexdigest m) = H.hexdigest m := by
      refine strip_of_forall fun c hc => ?_
      have hhex := H.hexdigest_hex m c hc
      simp only [isSpace, Bool.or_eq_false_iff, Bool.and_eq_false_iff, decide_eq_false_iff_not,
        beq_eq_false_iff_ne]
      omega
    simp [hclean]

theorem isDigest_of_sealed {hashChain : Bool} {e : AuditEvent F} (h : e.Sealed H hashChain) :
    IsDigest H e.hash := by
  intro text htext
  cases hashChain with
  | true =>
    obtain ⟨d, hd, hdigest⟩ := h
    obtain ⟨bytes, -, rfl⟩ := digestValue_eq_ok_iff.mp hdigest
    rw [htext] at hd
    exact ⟨bytes, Option.some.inj hd⟩
  | false =>
    have hnone : e.hash = none := h
    rw [hnone] at htext
    cases htext

/-! ### Sequences of `record` calls -/

/-- The rows are those of a verified log. -/
structure Holds (driver : PgDriver F) (H : Sha256) (hashChain : Bool) (log : List (AuditEvent F))
    (s : PostgresAuditStore F) : Prop where
  hashChain_eq : s.hashChain = hashChain
  rows : List.Forall₂ (fun row e => rowOf driver e = .ok row) s.rows log
  verified : VerifiedLog H hashChain log
  digests : ∀ e ∈ log, IsDigest H e.prevHash

theorem holds_empty (hashChain : Bool) : Holds driver H hashChain [] (empty hashChain) :=
  ⟨rfl, .nil, verifiedLog_nil H hashChain, by simp⟩

section

variable {hashChain : Bool} {log : List (AuditEvent F)} {s s' : PostgresAuditStore F}
  (hs : Holds driver H hashChain log s)
include hs

/-- The rows and the events agree on chains, predecessors and hashes. -/
theorem Holds.rel : List.Forall₂ (fun (row : PgAuditRow F) (e : AuditEvent F) =>
    row.correlationId = e.correlationId ∧ row.prevHash.map strip = e.prevHash ∧
      row.eventHash.map strip = e.hash) s.rows log := by
  have hdigests : ∀ e ∈ log, IsDigest H e.prevHash ∧ IsDigest H e.hash := fun e he =>
    ⟨hs.digests e he, isDigest_of_sealed (hs.verified.sealed e he)⟩
  have hrows := hs.rows
  clear hs
  generalize s.rows = rows at hrows ⊢
  induction hrows with
  | nil => exact .nil
  | @cons row e rows log hrow _ ih =>
    obtain ⟨-, -, hprev, hhash, -, -, hcorrelation, -⟩ := rowOf_eq_ok hrow
    obtain ⟨hprevDigest, hhashDigest⟩ := hdigests e List.mem_cons_self
    exact .cons ⟨hcorrelation, charColumn_digest hprevDigest hprev,
      charColumn_digest hhashDigest hhash⟩ (ih fun f hf => hdigests f (List.mem_cons_of_mem _ hf))

omit [PyFloat F] hs in
theorem tail_eq_ok {rows : List (PgAuditRow F)} {correlationId : Str} {hash : Option Str}
    (h : tail rows correlationId = .ok hash) :
    hash = tails PgAuditRow.correlationId (fun row => row.eventHash.map strip) rows
      correlationId := by
  obtain ⟨_, -, h⟩ := except_bind_eq_ok.mp h
  rw [tails_eq_getLast, chain, ← Except.ok.inj h]
  cases (rows.filter fun r => r.correlationId = correlationId).getLast? with
  | none => rfl
  | some row => rfl

theorem Holds.tail_eq {correlationId : Str} {hash : Option Str}
    (h : tail s.rows correlationId = .ok hash) :
    hash = chainTail log correlationId ∧ IsDigest H hash := by
  have htail : hash = chainTail log correlationId := by
    have hrel : List.Forall₂ (fun (row : PgAuditRow F) (e : AuditEvent F) =>
        row.correlationId = e.correlationId ∧ row.eventHash.map strip = e.hash) s.rows log :=
      hs.rel.imp fun _ _ h => ⟨h.1, h.2.2⟩
    rw [tail_eq_ok h, tails_rel hrel, chainTail]
  refine ⟨htail, fun text htext => ?_⟩
  rw [htail, chainTail, tails_eq_getLast] at htext
  obtain ⟨e, he, htext⟩ := Option.bind_eq_some_iff.mp htext
  have hmem : e ∈ log := List.mem_of_mem_filter (List.mem_of_getLast? he)
  exact isDigest_of_sealed (hs.verified.sealed e hmem) text htext

/-- Recording adds the row of the event it returns. -/
theorem record_step {call : RecordCall F} {e : AuditEvent F}
    (h : record driver H call s = (.ok e, s')) :
    Holds driver H hashChain (log ++ [e]) s' ∧ e.payload = safePayload (.dict call.payload) := by
  rw [record, PyM.transaction_eq_ok, PyM.get_bind, PyM.ofExcept_bind_eq_ok] at h
  obtain ⟨previous, htail, h⟩ := h
  rw [PyM.ofExcept_bind_eq_ok] at h
  obtain ⟨created, hcreate, h⟩ := h
  obtain ⟨_, s₁, hinsert, h⟩ := PyM.bind_eq_ok.mp h
  cases h
  obtain ⟨hprevious, hdigest⟩ := hs.tail_eq htail
  rw [hs.hashChain_eq] at hcreate
  obtain ⟨-, hcorrelation, -, hprev, hpayload, hsealed⟩ := AuditEvent.create_eq_ok hcreate
  obtain ⟨row, hrow, hinsert⟩ := PyM.ofExcept_bind_eq_ok.mp hinsert
  rw [PyM.get_bind] at hinsert
  split at hinsert
  · cases hinsert
  cases hinsert
  refine ⟨⟨hs.hashChain_eq, List.rel_append hs.rows (.cons hrow .nil), ?_, ?_⟩, hpayload⟩
  · refine verifiedLog_concat.mpr ⟨hs.verified, ?_, hsealed⟩
    rw [hprev, hprevious, hcorrelation]
  · intro f hf
    rcases List.mem_append.mp hf with hf | hf
    · exact hs.digests f hf
    · rw [List.mem_singleton.mp hf, hprev]
      exact hdigest

end

/-- A whole sequence of calls, by induction on it. -/
theorem recordAll_run {hashChain : Bool} : ∀ {calls : List (RecordCall F)}
    {log es : List (AuditEvent F)} {s s' : PostgresAuditStore F}, Holds driver H hashChain log s →
    recordAll driver H calls s = (.ok es, s') → Holds driver H hashChain (log ++ es) s' ∧
      es.map AuditEvent.payload = calls.map fun call => safePayload (.dict call.payload)
  | [], log, es, s, s', hs, h => by
    cases h
    exact ⟨by rwa [List.append_nil], rfl⟩
  | call :: calls, log, es, s, s', hs, h => by
    obtain ⟨e, s₁, hrecord, h⟩ := PyM.bind_eq_ok.mp h
    obtain ⟨rest, s₂, hrest, h⟩ := PyM.bind_eq_ok.mp h
    cases h
    obtain ⟨hs₁, hpayload⟩ := record_step hs hrecord
    obtain ⟨hs₂, hpayloads⟩ := recordAll_run hs₁ hrest
    refine ⟨by rwa [List.append_assoc] at hs₂, ?_⟩
    rw [List.map_cons, List.map_cons, hpayload, hpayloads]

end

end PostgresAuditStore

end AgentRoi
