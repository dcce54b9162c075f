/-
Audit completeness: what a sequence of `record` calls leaves verifies.

* `AuditStore.Represents` — a store state holds a given log of events, each
  kind of store in its own format;
* `record_step`, `recordAll_run` — recording keeps the log linked and sealed,
  one call at a time and over a whole sequence;
* `verify_represents_iff`, `lastHash_represents_iff` — when `verify` and
  `last_hash` answer for the log;
* `verify_recordAll_iff` — both together after any sequence of calls.

The JSONL store records events whose correlation id is empty and refuses them
in `verify`, which the in-memory and the SQLite store do not
(`emptyCorrelationId_counterexample`).
-/
import AgentRoi.AuditVerify

namespace AgentRoi

open ChainLog

variable {F : Type} [PyBuiltins F]

namespace AuditStore

omit [PyBuiltins F] in
/-- Which of the three stores it is. -/
def kind : AuditStore F → StoreKind
  | .inMemory _ => .inMemory
  | .jsonl _ => .jsonl
  | .sqlite _ => .sqlite

omit [PyBuiltins F] in
def hashChain : AuditStore F → Bool
  | .inMemory s => s.hashChain
  | .jsonl s => s.hashChain
  | .sqlite s => s.hashChain

/-- The store holds this log. -/
def Represents (log : List (AuditEvent F)) : AuditStore F → Prop
  | .inMemory s => s.events = log
  | .jsonl s => EndsLine s.content ∧ s.objects = .ok (log.map JsonlAuditStore.storedObj)
  | .sqlite s => List.Forall₂ SqliteAuditStore.RowEvent s.rows (log.map SqliteAuditStore.readBack)

theorem represents_empty (hashChain : Bool) (kind : StoreKind) :
    Represents ([] : List (AuditEvent F)) (.empty F hashChain kind) := by
  cases kind with
  | inMemory => rfl
  | jsonl => exact ⟨.inl rfl, rfl⟩
  | sqlite => exact .nil

omit [PyBuiltins F] in
@[simp] theorem kind_empty (hashChain : Bool) (kind : StoreKind) :
    (AuditStore.empty F hashChain kind).kind = kind := by
  cases kind <;> rfl

omit [PyBuiltins F] in
@[simp] theorem hashChain_empty (hashChain : Bool) (kind : StoreKind) :
    (AuditStore.empty F hashChain kind).hashChain = hashChain := by
  cases kind <;> rfl

end AuditStore

/-! ### The stored forms keep the tails -/

theorem tails_storedObj {H : Sha256} {hashChain : Bool} {log : List (AuditEvent F)}
    (h : VerifiedLog H hashChain log) :
    tails JsonlAuditStore.correlationOf JsonlAuditStore.hashOf
      (log.map JsonlAuditStore.storedObj) = chainTail log :=
  tails_map (fun e _ => JsonlAuditStore.correlationOf_storedObj e)
    fun e he => JsonlAuditStore.hashOf_storedObj (h.sealed e he)

theorem linked_storedObj {H : Sha256} {hashChain : Bool} {log : List (AuditEvent F)}
    (h : VerifiedLog H hashChain log) :
    Linked JsonlAuditStore.correlationOf JsonlAuditStore.prevOf JsonlAuditStore.hashOf
      (log.map JsonlAuditStore.storedObj) :=
  (linked_map (fun e _ => JsonlAuditStore.correlationOf_storedObj e)
    (fun e _ => JsonlAuditStore.prevOf_storedObj e)
    fun e he => JsonlAuditStore.hashOf_storedObj (h.sealed e he)).mpr h.linked

theorem sealed_storedObj {H : Sha256} {hashChain : Bool} {log : List (AuditEvent F)}
    (h : VerifiedLog H hashChain log) :
    ∀ obj ∈ log.map JsonlAuditStore.storedObj, JsonlAuditStore.Sealed H hashChain obj := by
  intro obj hobj
  obtain ⟨e, he, rfl⟩ := List.mem_map.mp hobj
  exact JsonlAuditStore.sealed_storedObj_iff.mpr (h.sealed e he)

theorem chainTail_readBack (log : List (AuditEvent F)) :
    chainTail (log.map SqliteAuditStore.readBack) = chainTail log :=
  tails_map (fun _ _ => rfl) fun _ _ => rfl

theorem verifiedLog_readBack {H : Sha256} {hashChain : Bool} {log : List (AuditEvent F)}
    (h : VerifiedLog H hashChain log) :
    VerifiedLog H hashChain (log.map SqliteAuditStore.readBack) where
  linked := (linked_map (fun _ _ => rfl) (fun _ _ => rfl) fun _ _ => rfl).mpr h.linked
  sealed := by
    intro e' he'
    obtain ⟨e, he, rfl⟩ := List.mem_map.mp he'
    exact SqliteAuditStore.sealed_readBack_iff.mpr (h.sealed e he)

/-! ### One call of `record` -/

omit [PyBuiltins F] in
theorem RecordCall.create_sealed [PyFloat F] {H : Sha256} {call : RecordCall F}
    {previous : Option Str} {hashChain : Bool} {e : AuditEvent F}
    (h : call.create H previous hashChain = .ok e) :
    e.correlationId = call.correlationId ∧ e.prevHash = previous ∧ e.Sealed H hashChain := by
  obtain ⟨-, hcorr, -, hprev, -, hhash⟩ := AuditEvent.create_eq_ok h
  exact ⟨hcorr, hprev, hhash⟩

namespace AuditStore

/-- What is known of a store and the log it holds. -/
structure Holds (H : Sha256) (kind : StoreKind) (hashChain : Bool) (log : List (AuditEvent F))
    (s : AuditStore F) : Prop where
  kind_eq : s.kind = kind
  hashChain_eq : s.hashChain = hashChain
  represents : Represents log s
  verified : VerifiedLog H hashChain log

theorem holds_empty (H : Sha256) (kind : StoreKind) (hashChain : Bool) :
    Holds H kind hashChain ([] : List (AuditEvent F)) (.empty F hashChain kind) :=
  ⟨kind_empty hashChain kind, hashChain_empty hashChain kind, represents_empty hashChain kind,
    verifiedLog_nil H hashChain⟩

/-- Recording adds the returned event to the log. -/
theorem record_step {H : Sha256} {kind : StoreKind} {hashChain : Bool}
    {log : List (AuditEvent F)} {s s' : AuditStore F} {call : RecordCall F} {e : AuditEvent F}
    (hs : Holds H kind hashChain log s) (h : record H call s = (.ok e, s')) :
    Holds H kind hashChain (log ++ [e]) s' ∧ e.correlationId = call.correlationId := by
  obtain ⟨rfl, rfl, hrep, hv⟩ := hs
  cases s with
  | inMemory s =>
    obtain ⟨s₁, hrec, rfl⟩ := PyM.embed_eq.mp h
    obtain ⟨hcreate, rfl⟩ := InMemoryAuditStore.record_eq_ok hrec
    obtain ⟨hcorr, hprev, hseal⟩ := RecordCall.create_sealed hcreate
    -- each store links to the tail of the chain, wherever it keeps it
    have hcache : s.lastHashCache = chainTail log := by
      rw [s.cache_sync, ← cacheOf_eq_tails hv.sealed, ← hrep]
    refine ⟨⟨rfl, rfl, ?_, verifiedLog_concat.mpr ⟨hv, ?_, hseal⟩⟩, hcorr⟩
    · exact congrArg (· ++ [e]) hrep
    · rw [hprev, hcache, hcorr]
  | jsonl s =>
    obtain ⟨s₁, hrec, rfl⟩ := PyM.embed_eq.mp h
    obtain ⟨objects, ho, hcreate, hw⟩ := JsonlAuditStore.record_eq_ok hrec
    obtain ⟨hcorr, hprev, hseal⟩ := RecordCall.create_sealed hcreate
    -- the tail is read from the file
    obtain ⟨hend, hobjects⟩ := hrep
    rw [ho] at hobjects
    cases hobjects
    obtain ⟨hchain, hend', ho'⟩ := JsonlAuditStore.objects_write hend ho hw
    rw [JsonlAuditStore.lastHashFromObjects_eq_tails (sealed_storedObj hv),
      tails_storedObj hv] at hprev
    refine ⟨⟨rfl, hchain, ⟨hend', ?_⟩, verifiedLog_concat.mpr ⟨hv, ?_, hseal⟩⟩, hcorr⟩
    · rw [ho', List.map_append]
      rfl
    · rw [hprev, hcorr]
  | sqlite s =>
    obtain ⟨s₁, hrec, rfl⟩ := PyM.embed_eq.mp h
    obtain ⟨previous, hp, hcreate, rfl, henc⟩ := SqliteAuditStore.record_eq_ok hrec
    obtain ⟨hcorr, hprev, hseal⟩ := RecordCall.create_sealed hcreate
    rw [hcorr] at henc
    -- the tail is read from the rows
    rw [SqliteAuditStore.previousHash_eq_tails hrep henc, chainTail_readBack] at hp
    cases hp
    refine ⟨⟨rfl, rfl, ?_, verifiedLog_concat.mpr ⟨hv, ?_, hseal⟩⟩, hcorr⟩
    · rw [Represents, List.map_append]
      exact SqliteAuditStore.forall₂_concat_rowOf hrep e
    · rw [hprev, hcorr]

/-- A whole sequence of calls, by induction on it. -/
theorem recordAll_run {H : Sha256} {kind : StoreKind} {hashChain : Bool} :
    ∀ {calls : List (RecordCall F)} {log es : List (AuditEvent F)} {s s' : AuditStore F},
      Holds H kind hashChain log s → recordAll H calls s = (.ok es, s') →
      Holds H kind hashChain (log ++ es) s' ∧
        es.map AuditEvent.correlationId = calls.map RecordCall.correlationId
  | [], log, es, s, s', hs, h => by
    cases h
    exact ⟨by rwa [List.append_nil], rfl⟩
  | call :: calls, log, es, s, s', hs, h => by
    rw [recordAll] at h
    obtain ⟨e, s₁, hrec, h⟩ := PyM.bind_eq_ok.mp h
    obtain ⟨rest, s₂, hrest, h⟩ := PyM.bind_eq_ok.mp h
    cases h
    obtain ⟨hs₁, hcorr⟩ := record_step hs hrec
    obtain ⟨hs₂, hrestcorr⟩ := recordAll_run hs₁ hrest
    refine ⟨by rwa [List.append_assoc] at hs₂, ?_⟩
    rw [List.map_cons, List.map_cons, hcorr, hrestcorr]

/-! ### What the store answers -/

theorem verify_holds_iff {H : Sha256} {kind : StoreKind} {hashChain : Bool}
    {log : List (AuditEvent F)} {s : AuditStore F} (hs : Holds H kind hashChain log s) :
    s.verify H = .ok log.length ↔ (kind = .jsonl → ∀ e ∈ log, e.correlationId ≠ []) := by
  obtain ⟨rfl, rfl, hrep, hv⟩ := hs
  cases s with
  | inMemory s =>
    subst hrep
    exact ⟨fun _ h => (by cases h), fun _ => InMemoryAuditStore.verify_eq_ok_iff.mpr ⟨hv, rfl⟩⟩
  | jsonl s =>
    have hcorr : ∀ e : AuditEvent F, JsonlAuditStore.correlationOf (JsonlAuditStore.storedObj e) =
      e.correlationId := JsonlAuditStore.correlationOf_storedObj
    rw [verify, JsonlAuditStore.verify_eq_ok_iff]
    constructor
    · rintro ⟨objects, ho, ⟨-, hall⟩, -⟩ - e he
      rw [hrep.2] at ho
      cases ho
      rw [← hcorr e]
      exact (hall _ (List.mem_map_of_mem he)).1
    · intro hne
      refine ⟨_, hrep.2, ⟨linked_storedObj hv, fun obj hobj => ?_⟩, by rw [List.length_map]⟩
      refine ⟨?_, sealed_storedObj hv obj hobj⟩
      obtain ⟨e, he, rfl⟩ := List.mem_map.mp hobj
      rw [hcorr e]
      exact hne rfl e he
  | sqlite s =>
    refine ⟨fun _ h => (by cases h), fun _ => SqliteAuditStore.verify_eq_ok_iff.mpr ?_⟩
    exact ⟨_, hrep, verifiedLog_readBack hv, by rw [List.length_map]⟩

theorem lastHash_holds_iff {H : Sha256} {kind : StoreKind} {hashChain : Bool}
    {log : List (AuditEvent F)} {s : AuditStore F} (hs : Holds H kind hashChain log s)
    (correlationId : Str) :
    s.lastHash correlationId = .ok (chainTail log correlationId) ↔
      (kind = .sqlite → (encodeUtf8 correlationId).isSome) := by
  obtain ⟨rfl, rfl, hrep, hv⟩ := hs
  cases s with
  | inMemory s =>
    refine ⟨fun _ h => (by cases h), fun _ => ?_⟩
    rw [lastHash, InMemoryAuditStore.lastHash, s.cache_sync, ← cacheOf_eq_tails hv.sealed, ← hrep]
  | jsonl s =>
    refine ⟨fun _ h => (by cases h), fun _ => except_bind_eq_ok.mpr ⟨_, hrep.2, ?_⟩⟩
    rw [JsonlAuditStore.lastHashFromObjects_eq_tails (sealed_storedObj hv), tails_storedObj hv]
    rfl
  | sqlite s =>
    rw [lastHash, SqliteAuditStore.lastHash]
    constructor
    · intro h _
      cases hc : encodeUtf8 correlationId with
      | none =>
        rw [SqliteAuditStore.previousHash_of_not_encodable hc] at h
        cases h
      | some bytes => rfl
    · intro henc
      rw [SqliteAuditStore.previousHash_eq_tails hrep (henc rfl), chainTail_readBack]

/-- The hash of the last event recorded for a correlation id. -/
def lastRecordedHash (hashChain : Bool) (events : List (AuditEvent F)) (correlationId : Str) :
    Option Str :=
  if hashChain then
    ((events.filter fun e => e.correlationId = correlationId).getLast?).bind AuditEvent.hash
  else none

theorem chainTail_eq_lastRecordedHash {H : Sha256} {hashChain : Bool}
    {log : List (AuditEvent F)} (hv : VerifiedLog H hashChain log) (correlationId : Str) :
    chainTail log correlationId = lastRecordedHash hashChain log correlationId := by
  cases hashChain with
  | true => exact tails_eq_getLast log correlationId
  | false => rw [chainTail_eq_none fun e he => (hv.sealed e he).hash_eq_none rfl]; rfl

/-- After any sequence of calls that all returned, `verify` counts the records
and `last_hash` is the hash of the last of them, exactly when the JSONL store
was given no empty correlation id and the SQLite store is asked about a string
that UTF-8 can encode. -/
theorem verify_recordAll_iff {H : Sha256} {kind : StoreKind} {hashChain : Bool}
    {calls : List (RecordCall F)} {events : List (AuditEvent F)} {s : AuditStore F}
    (h : recordAll H calls (.empty F hashChain kind) = (.ok events, s)) (correlationId : Str) :
    (s.verify H = .ok calls.length ∧
        s.lastHash correlationId = .ok (lastRecordedHash hashChain events correlationId)) ↔
      (kind = .jsonl → ∀ call ∈ calls, call.correlationId ≠ []) ∧
        (kind = .sqlite → (encodeUtf8 correlationId).isSome) := by
  obtain ⟨hs, hcorr⟩ := recordAll_run (holds_empty H kind hashChain) h
  rw [List.nil_append] at hs
  have hlen : calls.length = events.length := by
    rw [← List.length_map RecordCall.correlationId, ← hcorr, List.length_map]
  have hne : (∀ call ∈ calls, call.correlationId ≠ []) ↔ ∀ e ∈ events, e.correlationId ≠ [] := by
    rw [← List.forall_mem_map (P := (· ≠ [])), ← hcorr, List.forall_mem_map]
  rw [hlen, hne, ← chainTail_eq_lastRecordedHash hs.verified, verify_holds_iff hs,
    lastHash_holds_iff hs]

theorem verify_recordAll_sample : ∃ events s,
    recordAll default [⟨lit "e1", 7, lit "c", lit "r", lit "tool", []⟩]
      (.empty Half true .jsonl) = (.ok events, s) ∧
    ((s.verify default = .ok 1 ∧
        s.lastHash (lit "c") = .ok (lastRecordedHash true events (lit "c"))) ↔
      (StoreKind.jsonl = .jsonl → ∀ call ∈ [(⟨lit "e1", 7, lit "c", lit "r", lit "tool", []⟩ :
        RecordCall Half)], call.correlationId ≠ []) ∧
      (StoreKind.jsonl = .sqlite → (encodeUtf8 (lit "c")).isSome)) := by
  obtain ⟨events, s, h⟩ := PyM.exists_of_isOk (p := recordAll default
    [⟨lit "e1", 7, lit "c", lit "r", lit "tool", []⟩] (.empty Half true .jsonl))
    (by decide +kernel)
  exact ⟨events, s, h, verify_recordAll_iff h (lit "c")⟩

/-- An event recorded with an empty correlation id in a JSONL file. -/
def emptyCorrelationRun : Except PyExc (List (AuditEvent Half)) × AuditStore Half :=
  recordAll default [⟨lit "e1", 7, [], lit "r", lit "tool", []⟩] (.empty Half true .jsonl)

theorem emptyCorrelationId_counterexample : emptyCorrelationRun.1.isOk = true ∧
    emptyCorrelationRun.2.verify default =
      .error (auditEventError 1 " is missing correlation_id") := by
  decide +kernel

end AuditStore

end AgentRoi
