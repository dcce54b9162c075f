/-
Appending events built elsewhere, directly and over the control-plane API.

`append` checks the predecessor an event names and nothing else, so whether
the log still verifies depends on the hash the event carries.

* `AuditStore.append_eq_error` — an append that raises changes nothing;
* `AuditStore.verify_append_iff` — after one that returns, `verify` counts one
  more event exactly when the event's hash is right;
* `auditAppend` — the route `POST /v1/audit/events/append`, to which the same
  applies.
-/
import AgentRoi.AuditRuns

namespace AgentRoi

open ChainLog

variable {F : Type} [PyBuiltins F]

namespace AuditStore

theorem append_eq_error {e : AuditEvent F} {s s' : AuditStore F} {exc : PyExc}
    (h : append e s = (.error exc, s')) : s' = s := by
  cases s with
  | inMemory s =>
    obtain ⟨s₁, happ, rfl⟩ := PyM.embed_eq.mp h
    rw [InMemoryAuditStore.append_eq_error happ]
  | jsonl s =>
    obtain ⟨s₁, happ, rfl⟩ := PyM.embed_eq.mp h
    rw [JsonlAuditStore.append_eq_error happ]
  | sqlite s =>
    obtain ⟨s₁, happ, rfl⟩ := PyM.embed_eq.mp h
    rw [SqliteAuditStore.append_eq_error happ]

/-- What the JSONL store needs of a file and an event that is added to it: a
file that ends its last line, as every write leaves it, and a correlation id. -/
def Appendable (e : AuditEvent F) : AuditStore F → Prop
  | .jsonl s => EndsLine s.content ∧ e.correlationId ≠ []
  | _ => True

/-- A store that holds a log takes any event with a correlation id. -/
theorem Represents.appendable {log : List (AuditEvent F)} {s : AuditStore F} {e : AuditEvent F}
    (h : Represents log s) (hcorr : e.correlationId ≠ []) : s.Appendable e := by
  cases s with
  | inMemory s => trivial
  | jsonl s => exact ⟨h.1, hcorr⟩
  | sqlite s => trivial

end AuditStore

/-- A log that verifies takes one more event when the event is sealed. -/
theorem verifiedLog_concat_iff {H : Sha256} {hashChain : Bool} {log : List (AuditEvent F)}
    {e : AuditEvent F} (hv : VerifiedLog H hashChain log)
    (hp : e.prevHash = chainTail log e.correlationId) :
    VerifiedLog H hashChain (log ++ [e]) ↔ e.Sealed H hashChain := by
  rw [verifiedLog_concat]
  exact ⟨fun h => h.2.2, fun h => ⟨hv, hp, h⟩⟩

theorem InMemoryAuditStore.verify_append_iff {H : Sha256} {s s' : InMemoryAuditStore F}
    {e : AuditEvent F} {n : Nat} (hv : s.verify H = .ok n) (h : append e s = (.ok (), s')) :
    s'.verify H = .ok (n + 1) ↔ e.Sealed H s.hashChain := by
  obtain ⟨hlog, rfl⟩ := verify_eq_ok_iff.mp hv
  obtain ⟨hp, rfl⟩ := append_eq_ok h
  rw [s.cache_sync, cacheOf_eq_tails hlog.sealed] at hp
  rw [verify_eq_ok_iff, ← verifiedLog_concat_iff hlog hp]
  exact ⟨fun h => h.1, fun h => ⟨h, by simp [push]⟩⟩

theorem JsonlAuditStore.verify_append_iff {H : Sha256} {s s' : JsonlAuditStore}
    {e : AuditEvent F} {n : Nat} (hend : EndsLine s.content) (hcorr : e.correlationId ≠ [])
    (hv : s.verify F H = .ok n) (h : append e s = (.ok (), s')) :
    s'.verify F H = .ok (n + 1) ↔ e.Sealed H s.hashChain := by
  obtain ⟨objects, ho, ⟨hlinked, hall⟩, rfl⟩ := verify_eq_ok_iff.mp hv
  obtain ⟨objects', ho', hp, hw⟩ := append_eq_ok h
  rw [ho] at ho'
  cases ho'
  obtain ⟨hchain, -, hobjects⟩ := objects_write hend ho hw
  rw [lastHashFromObjects_eq_tails fun obj hobj => (hall obj hobj).2] at hp
  rw [verify_eq_ok_iff, hchain]
  constructor
  · rintro ⟨all, hall', ⟨-, hsealed⟩, -⟩
    rw [hobjects] at hall'
    cases hall'
    exact sealed_storedObj_iff.mp (hsealed (storedObj e) (by simp)).2
  · intro hseal
    refine ⟨_, hobjects, ⟨(linked_concat objects _).mpr ⟨hlinked, ?_⟩, fun obj hobj => ?_⟩,
      by simp⟩
    · rw [prevOf_storedObj, correlationOf_storedObj, hp]
    · rcases List.mem_append.mp hobj with hobj | hobj
      · exact hall obj hobj
      · rw [List.mem_singleton.mp hobj, correlationOf_storedObj]
        exact ⟨hcorr, sealed_storedObj_iff.mpr hseal⟩

theorem SqliteAuditStore.verify_append_iff {H : Sha256} {s s' : SqliteAuditStore}
    {e : AuditEvent F} {n : Nat} (hv : s.verify F H = .ok n) (h : append e s = (.ok (), s')) :
    s'.verify F H = .ok (n + 1) ↔ e.Sealed H s.hashChain := by
  obtain ⟨es, hrows, hlog, rfl⟩ := verify_eq_ok_iff.mp hv
  obtain ⟨hp, rfl, henc⟩ := append_eq_ok h
  rw [previousHash_eq_tails hrows henc, Except.ok.injEq] at hp
  have hp' : (readBack e).prevHash = chainTail es (readBack e).correlationId := hp.symm
  rw [verify_eq_ok_iff, ← sealed_readBack_iff, ← verifiedLog_concat_iff hlog hp']
  have hnew := forall₂_concat_rowOf hrows e
  constructor
  · rintro ⟨es', hrows', hlog', -⟩
    rw [← events_eq_ok_iff (n := 1)] at hnew hrows'
    rw [hnew] at hrows'
    cases hrows'
    exact hlog'
  · exact fun h => ⟨_, hnew, h, by simp⟩

/-- After an append that returns, the log verifies with one more event exactly
when the event carries the right hash. -/
theorem AuditStore.verify_append_iff {H : Sha256} {s s' : AuditStore F} {e : AuditEvent F}
    {n : Nat} (ha : s.Appendable e) (hv : s.verify H = .ok n)
    (h : append e s = (.ok (), s')) :
    s'.verify H = .ok (n + 1) ↔ e.Sealed H s.hashChain := by
  cases s with
  | inMemory s =>
    obtain ⟨s₁, happ, rfl⟩ := PyM.embed_eq.mp h
    exact InMemoryAuditStore.verify_append_iff hv happ
  | jsonl s =>
    obtain ⟨s₁, happ, rfl⟩ := PyM.embed_eq.mp h
    exact JsonlAuditStore.verify_append_iff ha.1 ha.2 hv happ
  | sqlite s =>
    obtain ⟨s₁, happ, rfl⟩ := PyM.embed_eq.mp h
    exact SqliteAuditStore.verify_append_iff hv happ

/-! ### The control-plane route -/

/-- The body of `POST /v1/audit/events/append`, its two hashes of the type the
event declares. -/
structure AppendBody (F : Type) where
  members : JsonObj F
  prevHash : Option Str
  hash : Option Str
  prev_typed : Json.optStr (dictGet (lit "prev_hash") members) = some prevHash
  hash_typed : Json.optStr (dictGet (lit "hash") members) = some hash

namespace AppendBody

/-- `body[key]`. -/
def member (body : AppendBody F) (key : String) : Except PyExc (Json F) :=
  match dictGet (lit key) body.members with
  | some j => .ok j
  | none => .error (.keyError [lit key])

/-- The event the route builds from its body. -/
def event (body : AppendBody F) : Except PyExc (AuditEvent F) := do
  let eventId ← body.member "event_id"
  let correlationId ← body.member "correlation_id"
  let runId ← body.member "run_id"
  let tsEpochMs ← body.member "ts_epoch_ms"
  let tsEpochMs ← tsEpochMs.pyInt.elim (.error (.valueError [])) .ok
  let eventType ← body.member "event_type"
  let payload ← body.member "payload"
  let payload ← payload.pyDict.elim (.error (.typeError [])) .ok
  return { eventId := eventId.pyStr, correlationId := correlationId.pyStr, runId := runId.pyStr
           tsEpochMs, eventType := eventType.pyStr, payload
           prevHash := body.prevHash, hash := body.hash }

end AppendBody

/-- `audit_append`: `authorize` stands for the authorizer's answer on the event
type; what the store raises is reported with status 409. -/
def auditAppend (authorize : Str → Bool) (body : AppendBody F) :
    PyM (AuditStore F) (AuditEvent F) := do
  let resource := match dictGet (lit "event_type") body.members with
    | some j => j.pyStr
    | none => lit "event"
  if !authorize resource then .raise (.httpException 403 (lit "Authorization denied"))
  else
    let e ← .ofExcept body.event
    .tryExcept (AuditStore.append e) fun exc =>
      if exc.isException then .raise (.httpException 409 (exc.text.getD [])) else .raise exc
    return e

/-- The route appends the event of its body, or changes nothing. -/
theorem auditAppend_cases {authorize : Str → Bool} {body : AppendBody F} {s s' : AuditStore F}
    {r : Except PyExc (AuditEvent F)} (h : auditAppend authorize body s = (r, s')) :
    (∃ e, r = .ok e ∧ AuditStore.append e s = (.ok (), s')) ∨ ((∃ exc, r = .error exc) ∧ s' = s) := by
  unfold auditAppend at h
  cases hauth : authorize (match dictGet (lit "event_type") body.members with
    | some j => j.pyStr
    | none => lit "event") with
  | false =>
    simp only [hauth] at h
    cases h
    exact .inr ⟨⟨_, rfl⟩, rfl⟩
  | true =>
    simp only [hauth, Bool.not_true, Bool.false_eq_true, if_false] at h
    cases hev : body.event with
    | error exc =>
      rw [hev] at h
      cases h
      exact .inr ⟨⟨exc, rfl⟩, rfl⟩
    | ok e =>
      rw [hev] at h
      rcases happ : AuditStore.append e s with ⟨exc | ⟨⟨⟩⟩, t⟩
      · have ht := AuditStore.append_eq_error happ
        subst ht
        simp only [PyM.bind_apply, PyM.ofExcept_apply, PyM.tryExcept, happ] at h
        split at h <;> rename_i heq <;> split_ifs at heq <;> cases heq <;> cases h <;>
          exact .inr ⟨⟨_, rfl⟩, rfl⟩
      · simp only [PyM.bind_apply, PyM.ofExcept_apply, PyM.tryExcept, happ] at h
        cases h
        exact .inl ⟨e, rfl, happ⟩

/-- In a store that verifies: an append that raises, directly or over the API,
changes nothing, and after one that returns the log verifies with one more
event exactly when the event carries the right hash. -/
theorem append_keeps_verifiable {H : Sha256} {s : AuditStore F} {n : Nat}
    (hv : s.verify H = .ok n) :
    (∀ e r s', AuditStore.append e s = (r, s') →
      (r = .ok () → s.Appendable e → (s'.verify H = .ok (n + 1) ↔ e.Sealed H s.hashChain)) ∧
      ∀ exc, r = .error exc → s' = s ∧ s'.verify H = .ok n) ∧
    ∀ authorize body r s', auditAppend authorize body s = (r, s') →
      (∀ e, r = .ok e → s.Appendable e →
        (s'.verify H = .ok (n + 1) ↔ e.Sealed H s.hashChain)) ∧
      ∀ exc, r = .error exc → s' = s ∧ s'.verify H = .ok n := by
  constructor
  · intro e r s' h
    constructor
    · rintro rfl ha
      exact AuditStore.verify_append_iff ha hv h
    · rintro exc rfl
      rw [AuditStore.append_eq_error h]
      exact ⟨rfl, hv⟩
  · intro authorize body r s' h
    rcases auditAppend_cases h with ⟨e, rfl, happ⟩ | ⟨⟨exc, rfl⟩, rfl⟩
    · constructor
      · intro e' he ha
        cases he
        exact AuditStore.verify_append_iff ha hv happ
      · intro exc he
        cases he
    · constructor
      · intro e he
        cases he
      · intro exc' _
        exact ⟨rfl, hv⟩

/-- Two events of one chain. -/
def twoRecords : List (RecordCall Half) :=
  [⟨lit "e1", 7, lit "c", lit "r", lit "tool", []⟩, ⟨lit "e2", 8, lit "c", lit "r", lit "cost", []⟩]

/-- An event that names the second of them as the one before it. -/
def thirdEvent : AuditEvent Half :=
  ⟨lit "e3", lit "c", lit "r", 9, lit "review", [], some (List.replicate 64 57),
    some (List.replicate 64 49)⟩

theorem append_keeps_verifiable_third : ∃ events s s',
    AuditStore.recordAll lengthHash twoRecords (.empty Half true .jsonl) = (.ok events, s) ∧
    s.verify lengthHash = .ok 2 ∧ AuditStore.append thirdEvent s = (.ok (), s') ∧
    (s'.verify lengthHash = .ok 3 ↔ thirdEvent.Sealed lengthHash true) ∧
    s'.verify lengthHash = .ok 3 := by
  obtain ⟨events, s, hrun⟩ := PyM.exists_of_isOk
    (p := AuditStore.recordAll lengthHash twoRecords (.empty Half true .jsonl)) (by decide +kernel)
  have hs : (AuditStore.recordAll lengthHash twoRecords (.empty Half true .jsonl)).2 = s := by
    rw [hrun]
  have hv : s.verify lengthHash = .ok 2 := by
    rw [← hs]
    decide +kernel
  obtain ⟨⟨⟩, s', happ⟩ := PyM.exists_of_isOk (p := AuditStore.append thirdEvent s) (by
    rw [← hs]
    decide +kernel)
  obtain ⟨hholds, -⟩ := AuditStore.recordAll_run
    (AuditStore.holds_empty lengthHash .jsonl true) hrun
  have hiff := ((append_keeps_verifiable hv).1 thirdEvent (.ok ()) s' happ).1 rfl
    (hholds.represents.appendable (by decide))
  rw [hholds.hashChain_eq] at hiff
  refine ⟨events, s, s', hrun, hv, happ, hiff, hiff.mpr ⟨_, rfl, ?_⟩⟩
  decide +kernel

/-- An event with a hash that is not the digest of its fields. -/
def forgedEvent : AuditEvent Half :=
  ⟨lit "e1", lit "c", lit "r", 7, lit "tool", [], none, some (lit "forged")⟩

theorem forgedEvent_counterexample :
    (AuditStore.empty Half true .inMemory).verify default = .ok 0 ∧
      (AuditStore.append forgedEvent (.empty Half true .inMemory)).1 = .ok () ∧
      (AuditStore.append forgedEvent (.empty Half true .inMemory)).2.verify default =
        .error (auditEventError 1 " has an invalid hash") := by
  decide +kernel

end AgentRoi
