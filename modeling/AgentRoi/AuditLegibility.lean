/-
Audit stores whose chains can be named over a wire.

An answer of the audit service is printed in UTF-8, so a chain tail with a lone
surrogate in it cannot be sent.  A store never holds one when its events came
as texts: `record` hashes to hexadecimal digits, and `append` over the wire
brings what UTF-8 carried.

* `AuditStore.Legible` — every tail can be sent;
* `record_legible`, `append_legible` — both methods keep that;
* `scalars_event` — when the text of an event can be sent.
-/
import AgentRoi.AuditLikeness
import AgentRoi.WireText

namespace AgentRoi

variable {F : Type} [PyBuiltins F]

/-! ### Events -/

omit [PyBuiltins F] in
theorem scalars_intText (i : Int) : Scalars (intText i) := by
  have hdigits : ∀ n, Scalars (natDigits n) := by
    intro n
    refine scalars_of_lt fun c hc => ?_
    have hdigit := natDigits_all_digit n c hc
    simp only [isDigit, Bool.and_eq_true, decide_eq_true_eq] at hdigit
    omega
  unfold intText
  split_ifs
  · exact scalars_cons.mpr ⟨.inl (by omega), hdigits _⟩
  · exact hdigits _

theorem scalars_canonicalJson_str {s : Str} :
    Scalars (canonicalJson (.str s : PyVal F)) ↔ Scalars s := Json.scalars_quote

theorem scalars_canonicalJson_int (i : Int) : Scalars (canonicalJson (.int i : PyVal F)) :=
  scalars_intText i

theorem scalars_canonicalJson_ofOptStr {s : Option Str} :
    Scalars (canonicalJson (.ofOptStr s : PyVal F)) ↔ ∀ t, s = some t → Scalars t := by
  cases s with
  | none =>
    refine iff_of_true (scalars_of_lt ?_) fun t ht => (by cases ht)
    exact (by decide : ∀ c ∈ lit "null", c < 0xD800)
  | some s =>
    refine scalars_canonicalJson_str.trans ?_
    constructor
    · rintro hs t ht
      cases ht
      exact hs
    · intro h
      exact h s rfl

/-- The text of an event can be sent when its fields can. -/
theorem scalars_event {e : AuditEvent F} : Scalars (stableJson e.toDict) ↔
    (Scalars e.eventId ∧ Scalars e.correlationId ∧ Scalars e.runId ∧ Scalars e.eventType ∧
      Scalars (canonicalJson (.dict e.payload))) ∧
    (∀ h, e.prevHash = some h → Scalars h) ∧ ∀ h, e.hash = some h → Scalars h := by
  rw [scalars_stableJson e.nodup_keys_toDict]
  have hnames : Scalars (lit "event_id") ∧ Scalars (lit "correlation_id") ∧
      Scalars (lit "run_id") ∧ Scalars (lit "ts_epoch_ms") ∧ Scalars (lit "event_type") ∧
      Scalars (lit "payload") ∧ Scalars (lit "prev_hash") ∧ Scalars (lit "hash") := by
    refine ⟨?_, ?_, ?_, ?_, ?_, ?_, ?_, ?_⟩ <;> exact scalars_of_lt (by decide)
  obtain ⟨h1, h2, h3, h4, h5, h6, h7, h8⟩ := hnames
  simp only [AuditEvent.toDict, AuditEvent.baseDict, List.cons_append, List.nil_append,
    List.forall_mem_cons, scalars_canonicalJson_str, scalars_canonicalJson_int,
    scalars_canonicalJson_ofOptStr, h1, h2, h3, h4, h5, h6, h7, h8, true_and]
  constructor
  · rintro ⟨hid, hcorr, hrun, htype, hpayload, hprev, hhash, -⟩
    exact ⟨⟨hid, hcorr, hrun, htype, hpayload⟩, hprev, hhash⟩
  · rintro ⟨⟨hid, hcorr, hrun, htype, hpayload⟩, hprev, hhash⟩
    exact ⟨hid, hcorr, hrun, htype, hpayload, hprev, hhash, fun p hp => absurd hp List.not_mem_nil⟩

omit [PyBuiltins F] in
theorem scalars_hexdigest (H : Sha256) (m : List UInt8) : Scalars (H.hexdigest m) := by
  refine scalars_of_lt fun c hc => ?_
  have hhex := H.hexdigest_hex m c hc
  omega

/-- The event of a call can be sent when the call and the predecessor can. -/
theorem RecordCall.scalars_create {H : Sha256} {call : RecordCall F} {previous : Option Str}
    {hashChain : Bool} {e : AuditEvent F} (h : call.create H previous hashChain = .ok e)
    (hfields : Scalars call.eventId ∧ Scalars call.correlationId ∧ Scalars call.runId ∧
      Scalars call.eventType ∧ Scalars (canonicalJson (.dict call.payload)))
    (hprev : ∀ t, previous = some t → Scalars t) : Scalars (stableJson e.toDict) := by
  obtain ⟨hid, hcorr, hrun, htype, hpayload⟩ := hfields
  have hunhashed : (Scalars (call.unhashed previous).eventId ∧ Scalars call.correlationId ∧
      Scalars call.runId ∧ Scalars call.eventType ∧
      Scalars (canonicalJson (.dict (call.unhashed previous).payload))) ∧
      ∀ t, previous = some t → Scalars t := by
    refine ⟨⟨hid, hcorr, hrun, htype, ?_⟩, hprev⟩
    rw [RecordCall.unhashed, canonicalJson_safePayload]
    exact hpayload
  cases hashChain with
  | false =>
    rw [call.create_false] at h
    cases h
    exact scalars_event.mpr ⟨hunhashed.1, hunhashed.2, fun t ht => (by cases ht)⟩
  | true =>
    rw [call.create_true, except_bind_eq_ok] at h
    obtain ⟨d, hd, h⟩ := h
    cases h
    refine scalars_event.mpr ⟨hunhashed.1, hunhashed.2, fun t ht => ?_⟩
    cases ht
    obtain ⟨bytes, -, rfl⟩ := digestValue_eq_ok_iff.mp hd
    exact scalars_hexdigest H bytes

/-! ### Stores -/

namespace AuditStore

/-- Every chain tail of the store can be sent. -/
def Legible : AuditStore F → Prop
  | .inMemory s => ∀ id h, s.lastHashCache id = some h → Scalars h
  | .jsonl s => EndsLine s.content ∧ ∃ objects : List (JsonObj F), s.objects = .ok objects ∧
    ∀ id h, JsonlAuditStore.lastHashFromObjects objects id = some h → Scalars h
  | .sqlite s => ∀ id h, SqliteAuditStore.previousHash F s.rows id = .ok (some h) → Scalars h

theorem legible_empty (hashChain : Bool) (kind : StoreKind) :
    (AuditStore.empty F hashChain kind).Legible := by
  cases kind with
  | inMemory =>
    intro id h hh
    cases hh
  | jsonl =>
    refine ⟨.inl rfl, [], rfl, fun id h hh => ?_⟩
    cases hh
  | sqlite =>
    intro id h hh
    have hp : SqliteAuditStore.previousHash F [] id =
      (bindText id >>= fun _ => .ok none) := rfl
    rw [SqliteAuditStore.empty, hp, except_bind_eq_ok] at hh
    obtain ⟨_, -, hnone⟩ := hh
    cases hnone

theorem Legible.lastHash {s : AuditStore F} (h : s.Legible) {id t : Str}
    (hlast : s.lastHash id = .ok (some t)) : Scalars t := by
  cases s with
  | inMemory s => exact h id t (Except.ok.inj hlast)
  | jsonl s =>
    obtain ⟨-, objects, ho, htails⟩ := h
    obtain ⟨objects', ho', hlast'⟩ := except_bind_eq_ok.mp hlast
    rw [ho] at ho'
    cases ho'
    exact htails id t (Except.ok.inj hlast')
  | sqlite s => exact h id t hlast

/-- One more event in the in-memory store. -/
theorem legible_push {s : InMemoryAuditStore F} {e : AuditEvent F}
    (h : (AuditStore.inMemory s).Legible) (he : ∀ t, e.hash = some t → Scalars t) :
    (AuditStore.inMemory (s.push e)).Legible := by
  intro id t ht
  have hcache : cacheHash s.lastHashCache e id = some t := ht
  unfold cacheHash at hcache
  cases hhash : e.hash with
  | none =>
    rw [hhash] at hcache
    exact h id t hcache
  | some d =>
    rw [hhash] at hcache
    cases d with
    | nil => exact h id t hcache
    | cons c d =>
      replace hcache : Function.update s.lastHashCache e.correlationId (some (c :: d)) id =
        some t := hcache
      by_cases hid : id = e.correlationId
      · subst hid
        rw [Function.update_self] at hcache
        exact he t (hhash.trans hcache)
      · rw [Function.update_of_ne hid] at hcache
        exact h id t hcache

/-- One more event in the file. -/
theorem legible_write {s s' : JsonlAuditStore} {e : AuditEvent F}
    (h : (AuditStore.jsonl s : AuditStore F).Legible) (he : ∀ t, e.hash = some t → Scalars t)
    (hw : JsonlAuditStore.write (stableJson e.toDict) s = (.ok (), s')) :
    (AuditStore.jsonl s' : AuditStore F).Legible := by
  obtain ⟨hend, objects, ho, htails⟩ := h
  obtain ⟨-, hend', ho'⟩ := JsonlAuditStore.objects_write hend ho hw
  refine ⟨hend', _, ho', fun id t ht => ?_⟩
  rw [JsonlAuditStore.lastHashFromObjects, List.foldl_append] at ht
  have hstep : (if JsonlAuditStore.correlationOf (JsonlAuditStore.storedObj e) = id then
      (JsonlAuditStore.truthyHash (JsonlAuditStore.storedObj e)).or
        (JsonlAuditStore.lastHashFromObjects objects id)
      else JsonlAuditStore.lastHashFromObjects objects id) = some t := ht
  split_ifs at hstep with hid
  · rw [JsonlAuditStore.truthyHash, JsonlAuditStore.dictGet_hash_storedObj] at hstep
    cases hhash : e.hash with
    | none =>
      rw [hhash] at hstep
      exact htails id t hstep
    | some d =>
      rw [hhash] at hstep
      cases d with
      | nil => exact htails id t hstep
      | cons c d =>
        cases hstep
        exact he _ hhash
  · exact htails id t hstep

omit [PyBuiltins F] in
theorem lastRow_concat (rows : List AuditRow) (row : AuditRow) (id : Str) :
    SqliteAuditStore.lastRow (rows ++ [row]) id =
      if row.correlationId = id then some row else SqliteAuditStore.lastRow rows id := by
  rw [SqliteAuditStore.lastRow, SqliteAuditStore.lastRow, List.filter_append, List.filter_cons,
    List.filter_nil]
  simp only [decide_eq_true_eq]
  split_ifs
  · rw [List.getLast?_concat]
  · rw [List.append_nil]

/-- One more row. -/
theorem legible_insert {s : SqliteAuditStore} {e : AuditEvent F}
    (h : (AuditStore.sqlite s : AuditStore F).Legible) (he : ∀ t, e.hash = some t → Scalars t) :
    (AuditStore.sqlite { s with rows := s.rows ++ [SqliteAuditStore.rowOf e] } :
      AuditStore F).Legible := by
  intro id t ht
  rw [SqliteAuditStore.previousHash, except_bind_eq_ok] at ht
  obtain ⟨_, hbind, ht⟩ := ht
  rw [lastRow_concat] at ht
  by_cases hid : e.correlationId = id
  · -- the new row is the last of its chain
    rw [if_pos (by exact hid)] at ht
    obtain ⟨e', he', ht⟩ := except_bind_eq_ok.mp ht
    have hread : SqliteAuditStore.eventFromJson (stableJson e.toDict) = .ok e' := he'
    rw [SqliteAuditStore.eventFromJson_stableJson] at hread
    cases hread
    exact he t (Except.ok.inj ht)
  · rw [if_neg (by exact hid)] at ht
    refine h id t ?_
    rw [SqliteAuditStore.previousHash, hbind]
    exact ht

/-- A call of `record` that raises changes nothing. -/
theorem record_eq_error {H : Sha256} {call : RecordCall F} {s s' : AuditStore F} {exc : PyExc}
    (h : record H call s = (.error exc, s')) : s' = s := by
  cases s with
  | inMemory s =>
    obtain ⟨s₁, hrec, rfl⟩ := PyM.embed_eq.mp h
    rw [InMemoryAuditStore.record, PyM.get_bind, PyM.ofExcept_bind_eq_error] at hrec
    obtain ⟨-, rfl⟩ | ⟨e, -, hset⟩ := hrec
    · rfl
    · cases hset
  | jsonl s =>
    obtain ⟨s₁, hrec, rfl⟩ := PyM.embed_eq.mp h
    rw [JsonlAuditStore.record, PyM.get_bind, PyM.ofExcept_bind_eq_error] at hrec
    obtain ⟨-, rfl⟩ | ⟨objects, -, hrec⟩ := hrec
    · rfl
    · rw [PyM.ofExcept_bind_eq_error] at hrec
      obtain ⟨-, rfl⟩ | ⟨e, -, hrec⟩ := hrec
      · rfl
      · obtain hw | ⟨_, s₂, -, hpure⟩ := PyM.bind_eq_error.mp hrec
        · rw [JsonlAuditStore.write_eq_error hw]
        · cases hpure
  | sqlite s =>
    obtain ⟨s₁, hrec, rfl⟩ := PyM.embed_eq.mp h
    rw [(PyM.transaction_eq_error.mp hrec).1]

/-- What a call of `record` that returns made its event of. -/
theorem record_created {H : Sha256} {call : RecordCall F} {s s' : AuditStore F}
    {e : AuditEvent F} (hs : s.Legible) (h : record H call s = (.ok e, s')) :
    ∃ previous hashChain, call.create H previous hashChain = .ok e ∧
      (∀ t, previous = some t → Scalars t) ∧
      ((∀ t, e.hash = some t → Scalars t) → s'.Legible) := by
  cases s with
  | inMemory s =>
    obtain ⟨s₁, hrec, rfl⟩ := PyM.embed_eq.mp h
    obtain ⟨hcreate, rfl⟩ := InMemoryAuditStore.record_eq_ok hrec
    exact ⟨_, _, hcreate, fun t ht => hs _ t ht, fun he => legible_push hs he⟩
  | jsonl s =>
    obtain ⟨s₁, hrec, rfl⟩ := PyM.embed_eq.mp h
    obtain ⟨objects, ho, hcreate, hw⟩ := JsonlAuditStore.record_eq_ok hrec
    obtain ⟨-, objects', ho', htails⟩ := id hs
    rw [ho] at ho'
    cases ho'
    exact ⟨_, _, hcreate, fun t ht => htails _ t ht, fun he => legible_write hs he hw⟩
  | sqlite s =>
    obtain ⟨s₁, hrec, rfl⟩ := PyM.embed_eq.mp h
    obtain ⟨previous, hp, hcreate, rfl, -⟩ := SqliteAuditStore.record_eq_ok hrec
    refine ⟨previous, _, hcreate, ?_, fun he => legible_insert hs he⟩
    rintro t rfl
    exact hs _ t hp

/-- Recording keeps every tail legible, and its event can be sent. -/
theorem record_legible {H : Sha256} {call : RecordCall F} {s s' : AuditStore F}
    {e : AuditEvent F} (hs : s.Legible) (h : record H call s = (.ok e, s'))
    (hfields : Scalars call.eventId ∧ Scalars call.correlationId ∧ Scalars call.runId ∧
      Scalars call.eventType ∧ Scalars (canonicalJson (.dict call.payload))) :
    s'.Legible ∧ Scalars (stableJson e.toDict) := by
  obtain ⟨previous, hashChain, hcreate, hprev, hlegible⟩ := record_created hs h
  have htext := RecordCall.scalars_create hcreate hfields hprev
  exact ⟨hlegible (scalars_event.mp htext).2.2, htext⟩

/-- So does appending an event that can be sent. -/
theorem append_legible {e : AuditEvent F} {s s' : AuditStore F} (hs : s.Legible)
    (h : append e s = (.ok (), s')) (he : Scalars (stableJson e.toDict)) : s'.Legible := by
  have hhash := (scalars_event.mp he).2.2
  cases s with
  | inMemory s =>
    obtain ⟨s₁, happ, rfl⟩ := PyM.embed_eq.mp h
    obtain ⟨-, rfl⟩ := InMemoryAuditStore.append_eq_ok happ
    exact legible_push hs hhash
  | jsonl s =>
    obtain ⟨s₁, happ, rfl⟩ := PyM.embed_eq.mp h
    obtain ⟨objects, -, -, hw⟩ := JsonlAuditStore.append_eq_ok happ
    exact legible_write hs hhash hw
  | sqlite s =>
    obtain ⟨s₁, happ, rfl⟩ := PyM.embed_eq.mp h
    obtain ⟨-, rfl, -⟩ := SqliteAuditStore.append_eq_ok happ
    exact legible_insert hs hhash

end AuditStore

end AgentRoi
