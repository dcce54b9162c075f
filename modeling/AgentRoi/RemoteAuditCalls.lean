/-
A call of the remote audit store is the call on the store of the service.

* `AuditCall`, `AuditStore.perform`, `RemoteAuditStore.perform` — the four
  calls, on a store and over the wire;
* `Mirrored` — the two end alike: related answers, and stores that cannot be
  told apart; what the store raised is reported in a `RuntimeError`;
* `post_answered`, `post_refused`, `get_answered`, `get_refused` — what the
  client gets for what a route returns or raises;
* `perform_mirrored` — every call that is permitted and can be sent.
-/
import AgentRoi.AuditLegibility
import AgentRoi.RemoteAudit

namespace AgentRoi

variable {F : Type} [PyValues F]

/-! ### Calls and answers -/

/-- A call of an audit store. -/
inductive AuditCall (F : Type) where
  | record (call : RecordCall F)
  | append (e : AuditEvent F)
  | lastHash (correlationId : Str)
  | verify (correlationId : Str)

inductive AuditAnswer (F : Type) where
  | recorded (e : AuditEvent F)
  | appended
  | tail (hash : Option Str)
  | verified (count : ℤ)

/-- Equal, but for the order of the members of a payload. -/
def AuditAnswer.Same : AuditAnswer F → AuditAnswer F → Prop
  | .recorded e, .recorded e' => e.SameText e'
  | a, b => a = b

/-- What the service draws for a call of `record`. -/
def AuditCall.draw : AuditCall F → EventDraw
  | .record call => ⟨call.eventId, call.tsEpochMs⟩
  | _ => ⟨[], 0⟩

/-- The call on a store. -/
def AuditStore.perform (H : Sha256) : AuditCall F → PyM (AuditStore F) (AuditAnswer F)
  | .record call => do
    let e ← AuditStore.record H call
    return .recorded e
  | .append e => do
    AuditStore.append e
    return .appended
  | .lastHash correlationId => do
    let s ← PyM.get
    let hash ← PyM.ofExcept (s.lastHash correlationId)
    return .tail hash
  | .verify _ => do
    let s ← PyM.get
    let count ← PyM.ofExcept (s.verify H)
    return .verified count

/-- The call over the wire. -/
def RemoteAuditStore.perform {W : Type} (remote : RemoteAuditStore)
    (urlopen : HttpRequest → PyM W HttpAnswer) : AuditCall F → PyM W (AuditAnswer F)
  | .record call => do
    let e ← remote.record urlopen call
    return .recorded e
  | .append e => do
    remote.append urlopen e
    return .appended
  | .lastHash correlationId => do
    let hash ← remote.lastHash urlopen F correlationId
    return .tail hash
  | .verify correlationId => do
    let count ← remote.verify urlopen F correlationId
    return .verified count

/-- A call that the service permits and that the wire can carry.  A payload
that is appended is JSON, as that of every event that was recorded. -/
def AuditCall.Admitted (service : AuditService F) (remote : RemoteAuditStore) :
    AuditCall F → Prop
  | .record call => service.permits (remote.headers true) (lit "audit.write") call.eventType ∧
    Scalars (stableJson (RemoteAuditStore.recordBody call)) ∧ Scalars call.eventId
  | .append e => service.permits (remote.headers true) (lit "audit.write") e.eventType ∧
    Scalars (stableJson e.toDict) ∧
    ∃ members, e.payload = PyVal.ofJsonMembers members ∧ (Json.obj members).Clean
  | .lastHash correlationId =>
    service.permits (remote.headers false) (lit "audit.read") correlationId ∧
    correlationId ≠ [] ∧ 47 ∉ correlationId ∧ Scalars correlationId
  | .verify correlationId =>
    service.permits (remote.headers false) (lit "audit.read")
      (if correlationId = [] then lit "*" else correlationId) ∧ Scalars correlationId

/-- A call over the wire ends as the call on the store does. -/
structure Mirrored (p q : Except PyExc (AuditAnswer F) × AuditStore F) : Prop where
  returned : ∀ a, p.1 = .ok a → ∃ b, q.1 = .ok b ∧ a.Same b
  raised : ∀ exc, p.1 = .error exc → ∃ message, q.1 = .error (.runtimeError message)
  stores : AuditStore.Like p.2 q.2

/-! ### Requests and answers -/

section

variable {service : AuditService F} {remote : RemoteAuditStore} {draw : EventDraw}
  {request : AuditRequest F} {s s' : AuditStore F} {path : Str}

theorem handle_of_ok {req : HttpRequest} {d : PyDict F} {text : Str}
    (hparse : service.parse req = some request)
    (hroute : service.route draw req.headers request s = (.ok d, s'))
    (hrespond : service.respond (.ofFields d) = some text) :
    service.handle draw req s = (.ok (.body text), s') := by
  rw [AuditService.handle, hparse]
  refine PyM.tryExcept_of_ok ?_
  rw [PyM.bind_of_ok hroute, hrespond]
  rfl

theorem handle_of_error {req : HttpRequest} {exc : PyExc}
    (hparse : service.parse req = some request)
    (hroute : service.route draw req.headers request s = (.error exc, s')) :
    service.handle draw req s = (.ok (service.errorAnswer exc), s') := by
  rw [AuditService.handle, hparse]
  exact PyM.tryExcept_of_error (PyM.bind_of_error hroute)

/-- The client reports every error the service answers with. -/
theorem receive_errorAnswer (exc : PyExc) : ∃ message,
    (RemoteAuditStore.receive (service.errorAnswer exc) : Except PyExc (Json F)) =
      .error (.runtimeError message) := by
  unfold AuditService.errorAnswer
  split
  · exact ⟨_, rfl⟩
  · split_ifs
    · exact ⟨_, rfl⟩
    · exact ⟨_, rfl⟩

theorem encodeBody_eq {payload : PyDict F} {bytes : List UInt8}
    (h : encodeUtf8 (stableJson payload) = some bytes) :
    RemoteAuditStore.encodeBody payload = .ok bytes := by
  rw [RemoteAuditStore.encodeBody, h]
  rfl

/-- A request that the service answers. -/
theorem post_answered {payload : PyDict F} {bytes : List UInt8} {d : PyDict F} {text : Str}
    {j : Json F} (hbytes : encodeUtf8 (stableJson payload) = some bytes)
    (hparse : service.parse ⟨lit "POST", remote.baseUrl ++ path, remote.headers true, some bytes⟩ =
      some request)
    (hroute : service.route draw (remote.headers true) request s = (.ok d, s'))
    (hrespond : service.respond (.ofFields d) = some text) (hj : Json.loads text = some j) :
    remote.post (service.handle draw) path payload s = (.ok j, s') := by
  rw [RemoteAuditStore.post, encodeBody_eq hbytes]
  rw [PyM.bind_of_ok (PyM.ofExcept_apply _ _), PyM.bind_of_ok (handle_of_ok hparse hroute hrespond)]
  show PyM.ofExcept (loadsText text) s' = _
  rw [loadsText, hj]
  rfl

/-- A request whose route raises. -/
theorem post_refused {payload : PyDict F} {bytes : List UInt8} {exc : PyExc}
    (hbytes : encodeUtf8 (stableJson payload) = some bytes)
    (hparse : service.parse ⟨lit "POST", remote.baseUrl ++ path, remote.headers true, some bytes⟩ =
      some request)
    (hroute : service.route draw (remote.headers true) request s = (.error exc, s')) :
    ∃ message, remote.post (F := F) (service.handle draw) path payload s =
      (.error (.runtimeError message), s') := by
  have hreceive : ∃ message, (RemoteAuditStore.receive (service.errorAnswer exc) :
      Except PyExc (Json F)) = .error (.runtimeError message) := receive_errorAnswer exc
  obtain ⟨message, hmessage⟩ := hreceive
  refine ⟨message, ?_⟩
  rw [RemoteAuditStore.post, encodeBody_eq hbytes]
  rw [PyM.bind_of_ok (PyM.ofExcept_apply _ _), PyM.bind_of_ok (handle_of_error hparse hroute),
    hmessage]
  rfl

theorem get_answered {d : PyDict F} {text : Str} {j : Json F}
    (hparse : service.parse ⟨lit "GET", remote.baseUrl ++ path, remote.headers false, none⟩ =
      some request)
    (hroute : service.route draw (remote.headers false) request s = (.ok d, s'))
    (hrespond : service.respond (.ofFields d) = some text) (hj : Json.loads text = some j) :
    remote.get (service.handle draw) path s = (.ok j, s') := by
  rw [RemoteAuditStore.get, PyM.bind_of_ok (handle_of_ok hparse hroute hrespond)]
  show PyM.ofExcept (loadsText text) s' = _
  rw [loadsText, hj]
  rfl

theorem get_refused {exc : PyExc}
    (hparse : service.parse ⟨lit "GET", remote.baseUrl ++ path, remote.headers false, none⟩ =
      some request)
    (hroute : service.route draw (remote.headers false) request s = (.error exc, s')) :
    ∃ message, remote.get (F := F) (service.handle draw) path s =
      (.error (.runtimeError message), s') := by
  have hreceive : ∃ message, (RemoteAuditStore.receive (service.errorAnswer exc) :
      Except PyExc (Json F)) = .error (.runtimeError message) := receive_errorAnswer exc
  obtain ⟨message, hmessage⟩ := hreceive
  refine ⟨message, ?_⟩
  rw [RemoteAuditStore.get, PyM.bind_of_ok (handle_of_error hparse hroute), hmessage]
  rfl

end

/-! ### Events on the wire -/

/-- The JSON object an event is sent as. -/
def AuditEvent.document (e : AuditEvent F) (members : JsonObj F) : JsonObj F :=
  [(lit "event_id", .str e.eventId), (lit "correlation_id", .str e.correlationId),
    (lit "run_id", .str e.runId), (lit "ts_epoch_ms", .int e.tsEpochMs),
    (lit "event_type", .str e.eventType), (lit "payload", .obj members),
    (lit "prev_hash", e.prevHash.elim .null .str), (lit "hash", e.hash.elim .null .str)]

omit [PyValues F] in
theorem ofJson_elim (h : Option Str) :
    PyVal.ofJson (h.elim .null .str : Json F) = .ofOptStr h := by
  cases h <;> rfl

omit [PyValues F] in
theorem clean_elim (h : Option Str) : (h.elim .null .str : Json F).Clean := by
  cases h with
  | none => exact .null
  | some t => exact .str t

namespace AuditEvent

variable {e : AuditEvent F} {members : JsonObj F}

omit [PyValues F] in
theorem ofFields_toDict (h : e.payload = PyVal.ofJsonMembers members) :
    PyVal.ofFields e.toDict = PyVal.ofJson (.obj (e.document members)) := by
  rw [PyVal.ofFields, toDict, baseDict, h, ← ofJson_elim e.prevHash, ← ofJson_elim e.hash]
  rfl

omit [PyValues F] in
theorem clean_document (h : (Json.obj members).Clean) :
    (Json.obj (e.document members)).Clean := by
  refine .obj e.nodup_keys_toDict fun p hp => ?_
  simp only [document, List.mem_cons, List.not_mem_nil, or_false] at hp
  rcases hp with rfl | rfl | rfl | rfl | rfl | rfl | rfl | rfl
  · exact .str _
  · exact .str _
  · exact .str _
  · exact .int _
  · exact .str _
  · exact h
  · exact clean_elim _
  · exact clean_elim _

theorem stableJson_eq (h : e.payload = PyVal.ofJsonMembers members)
    (hclean : (Json.obj members).Clean) :
    stableJson e.toDict = (Json.obj (e.document members)).sortKeys.render := by
  have hdoc := clean_document (e := e) hclean
  rw [stableJson, ofFields_toDict h, canonicalJson_ofJson hdoc.distinct, hdoc.nameFloats]

/-- The client reads the event that was sent. -/
theorem eventFromDict_document (h : e.payload = PyVal.ofJsonMembers members) :
    RemoteAuditStore.eventFromDict (.obj (e.document members)) = .ok e := by
  have hopt : ∀ t : Option Str, Json.optStr (some (t.elim .null .str : Json F)) = some t := by
    intro t
    cases t <;> rfl
  have hprev : RemoteAuditStore.optItem (.obj (e.document members)) "prev_hash" =
      .ok e.prevHash := by
    show (Json.optStr (some (e.prevHash.elim .null .str : Json F))).elim _ _ = _
    rw [hopt]
    rfl
  have hhash : RemoteAuditStore.optItem (.obj (e.document members)) "hash" = .ok e.hash := by
    show (Json.optStr (some (e.hash.elim .null .str : Json F))).elim _ _ = _
    rw [hopt]
    rfl
  have heta : e = ⟨e.eventId, e.correlationId, e.runId, e.tsEpochMs, e.eventType,
    PyVal.ofJsonMembers members, e.prevHash, e.hash⟩ := by
    rw [← h]
  rw [RemoteAuditStore.eventFromDict, hprev, hhash]
  conv_rhs => rw [heta]
  rfl

end AuditEvent

omit [PyValues F] in
theorem PyVal.plain_ofJson (j : Json F) : (PyVal.ofJson j).plain = some j := by
  induction j using Json.induct with
  | arr xs ih =>
    have hitems : PyVal.plainItems (PyVal.ofJsonItems xs) = some xs := by
      induction xs with
      | nil => rfl
      | cons x xs ihxs =>
        obtain ⟨hx, hxs⟩ := List.forall_mem_cons.mp ih
        rw [PyVal.ofJsonItems, PyVal.plainItems, hx, ihxs hxs]
        rfl
    rw [PyVal.ofJson, PyVal.plain, hitems]
    rfl
  | obj kvs ih =>
    have hmembers : PyVal.plainMembers (PyVal.ofJsonMembers kvs) = some kvs := by
      induction kvs with
      | nil => rfl
      | cons p kvs ihkvs =>
        obtain ⟨hp, hkvs⟩ := List.forall_mem_cons.mp ih
        obtain ⟨key, v⟩ := p
        rw [PyVal.ofJsonMembers, PyVal.plainMembers, hp, ihkvs hkvs]
        rfl
    rw [PyVal.ofJson, PyVal.plain, hmembers]
    rfl
  | _ => rfl

/-- Two events that print alike are equal as dictionaries, when their payloads
are JSON. -/
theorem RemoteAuditStore.sameDict_of_sameText {e e' : AuditEvent F} {members members' : JsonObj F}
    (h : e.SameText e') (he : e.payload = PyVal.ofJsonMembers members)
    (hclean : (Json.obj members).Clean) (he' : e'.payload = PyVal.ofJsonMembers members')
    (hclean' : (Json.obj members').Clean) : sameDict e.toDict e'.toDict = true := by
  rw [sameDict, AuditEvent.ofFields_toDict he, AuditEvent.ofFields_toDict he', PyVal.plain_ofJson,
    PyVal.plain_ofJson]
  show (_ == _) = true
  rw [beq_iff_eq, ← AuditEvent.stableJson_eq he hclean, ← AuditEvent.stableJson_eq he' hclean',
    h.stableJson]

/-! ### Payloads on the wire -/

/-- A payload after it went through the text of a request. -/
def wirePayload (payload : List (PyKey F × PyVal F)) : List (PyKey F × PyVal F) :=
  match (toJsonable (.dict payload)).sortKeys with
  | .obj members => PyVal.ofJsonMembers members
  | _ => []

theorem exists_wirePayload (payload : List (PyKey F × PyVal F)) : ∃ members,
    (toJsonable (.dict payload)).sortKeys = .obj members ∧
      wirePayload payload = PyVal.ofJsonMembers members ∧ (Json.obj members).Clean := by
  obtain ⟨members, hmembers⟩ : ∃ members, (toJsonable (.dict payload : PyVal F)).sortKeys =
    .obj members := ⟨_, by rw [toJsonable, Json.sortKeys_obj]⟩
  refine ⟨members, hmembers, by rw [wirePayload, hmembers], ?_⟩
  rw [← hmembers]
  exact (toJsonable_clean _).sortKeys

theorem canonicalJson_wirePayload (payload : List (PyKey F × PyVal F)) :
    canonicalJson (.dict (wirePayload payload) : PyVal F) = canonicalJson (.dict payload) :=
  SqliteAuditStore.canonicalJson_payload_readBack ⟨[], [], [], 0, [], payload, none, none⟩

/-- What the service gets of a call of `record`. -/
def RecordCall.sent (call : RecordCall F) : RecordCall F :=
  { call with payload := wirePayload call.payload }

theorem RecordCall.alike_sent (call : RecordCall F) : call.Alike call.sent :=
  ⟨rfl, rfl, rfl, rfl, rfl, (canonicalJson_wirePayload call.payload).symm⟩

theorem sameText_readBack (e : AuditEvent F) : e.SameText (SqliteAuditStore.readBack e) :=
  ⟨rfl, rfl, rfl, rfl, rfl, (SqliteAuditStore.canonicalJson_payload_readBack e).symm, rfl, rfl⟩

/-! ### The four calls -/

section

variable {service : AuditService F} {remote : RemoteAuditStore} {s t : AuditStore F}

/-- An event whose text can be sent is sent, and read by the client. -/
theorem respond_event (hweb : WebFramework remote.baseUrl service) {e : AuditEvent F}
    {members : JsonObj F} (h : e.payload = PyVal.ofJsonMembers members)
    (hclean : (Json.obj members).Clean) (htext : Scalars (stableJson e.toDict)) :
    ∃ text, service.respond (.ofFields e.toDict) = some text ∧
      Json.loads text = some (.obj (e.document members)) := by
  rw [AuditEvent.ofFields_toDict h]
  refine hweb.respond _ (AuditEvent.clean_document hclean) ?_
  rw [AuditEvent.stableJson_eq h hclean] at htext
  exact Json.scalars_render_sortKeys.mp htext

omit [PyValues F] in
theorem nodup_keys_recordBody (call : RecordCall F) :
    ((RemoteAuditStore.recordBody call).map Prod.fst).Nodup :=
  (by decide : [lit "correlation_id", lit "run_id", lit "event_type", lit "payload"].Nodup)

/-- What the service is sent for a call of `record`. -/
theorem scalars_recordBody {call : RecordCall F} :
    Scalars (stableJson (RemoteAuditStore.recordBody call)) ↔ Scalars call.correlationId ∧
      Scalars call.runId ∧ Scalars call.eventType ∧ Scalars (canonicalJson (.dict call.payload)) := by
  rw [scalars_stableJson (nodup_keys_recordBody call)]
  have h1 : Scalars (lit "correlation_id") := scalars_of_lt (by decide)
  have h2 : Scalars (lit "run_id") := scalars_of_lt (by decide)
  have h3 : Scalars (lit "event_type") := scalars_of_lt (by decide)
  have h4 : Scalars (lit "payload") := scalars_of_lt (by decide)
  simp only [RemoteAuditStore.recordBody, List.forall_mem_cons, scalars_canonicalJson_str, h1, h2,
    h3, h4, true_and]
  constructor
  · rintro ⟨hcorr, hrun, htype, hpayload, -⟩
    exact ⟨hcorr, hrun, htype, hpayload⟩
  · rintro ⟨hcorr, hrun, htype, hpayload⟩
    exact ⟨hcorr, hrun, htype, hpayload, fun p hp => absurd hp List.not_mem_nil⟩

/-- The members of the body the service reads. -/
def recordMembers (call : RecordCall F) : JsonObj F :=
  storedFields (RemoteAuditStore.recordBody call)

theorem dictGet_recordMembers (call : RecordCall F) (key : Str) :
    dictGet key (recordMembers call) =
      (dictGet key (RemoteAuditStore.recordBody call)).map fun v => (toJsonable v).sortKeys :=
  dictGet_storedFields (nodup_keys_recordBody call) key

/-- The route makes the call that was sent. -/
theorem auditRecord_eq {H : Sha256} {authorize : Str → Bool} {call : RecordCall F}
    (hauth : authorize call.eventType) :
    auditRecord H authorize ⟨call.eventId, call.tsEpochMs⟩ (recordMembers call) t =
      PyM.tryExcept (AuditStore.record H call.sent) (reportAs 400) t := by
  have hitem : ∀ (key : String) (text : Str),
      dictGet (lit key) (RemoteAuditStore.recordBody call) = some (.str text) →
      auditItem (recordMembers call) key = .ok (.str text) := by
    intro key text hkey
    rw [auditItem, dictGet_recordMembers, hkey]
    rfl
  have htype : auditResource (recordMembers call) = call.eventType := by
    have hget : dictGet (lit "event_type") (RemoteAuditStore.recordBody call) =
      some (.str call.eventType) := rfl
    rw [auditResource, dictGet_recordMembers, hget]
    rfl
  have hpayload : bodyPayload (recordMembers call) = .ok (wirePayload call.payload) := by
    have hget : dictGet (lit "payload") (RemoteAuditStore.recordBody call) =
      some (.dict call.payload) := rfl
    obtain ⟨members, hmembers, hwire, -⟩ := exists_wirePayload call.payload
    rw [bodyPayload, dictGet_recordMembers, hget, Option.map_some, hmembers, hwire]
    rfl
  rw [auditRecord, htype, hauth, hitem "correlation_id" call.correlationId rfl,
    hitem "run_id" call.runId rfl, hitem "event_type" call.eventType rfl, hpayload]
  rfl

omit [PyValues F] in
theorem exists_reportAs {σ α : Type} (status : ℕ) (exc : PyExc) (s : σ) :
    ∃ exc', (reportAs status exc : PyM σ α) s = (.error exc', s) := by
  unfold reportAs
  split_ifs
  · exact ⟨_, rfl⟩
  · exact ⟨_, rfl⟩

/-- A call that is refused on both sides. -/
theorem mirrored_of_error {p q : Except PyExc (AuditAnswer F) × AuditStore F} {exc : PyExc}
    {s' t' : AuditStore F} {message : Str} (hp : p = (.error exc, s'))
    (hq : q = (.error (.runtimeError message), t')) (hst : AuditStore.Like s' t')
    (ht : t'.Legible) : Mirrored p q ∧ q.2.Legible := by
  subst hp
  subst hq
  refine ⟨⟨fun a ha => ?_, fun exc' _ => ⟨message, rfl⟩, hst⟩, ht⟩
  cases ha

/-- A call that is answered on both sides. -/
theorem mirrored_of_ok {p q : Except PyExc (AuditAnswer F) × AuditStore F} {a b : AuditAnswer F}
    {s' t' : AuditStore F} (hp : p = (.ok a, s')) (hq : q = (.ok b, t')) (hab : a.Same b)
    (hst : AuditStore.Like s' t') (ht : t'.Legible) : Mirrored p q ∧ q.2.Legible := by
  subst hp
  subst hq
  refine ⟨⟨fun a' ha => ?_, fun exc hexc => ?_, hst⟩, ht⟩
  · cases ha
    exact ⟨b, rfl, hab⟩
  · cases hexc

/-- A `record` over the wire. -/
theorem record_mirrored (hweb : WebFramework remote.baseUrl service) (hst : AuditStore.Like s t)
    (ht : t.Legible) {call : RecordCall F} (hcall : (AuditCall.record call).Admitted service remote) :
    Mirrored (AuditStore.perform service.hash (.record call) s)
        (remote.perform (service.handle ⟨call.eventId, call.tsEpochMs⟩) (.record call) t) ∧
      (remote.perform (service.handle ⟨call.eventId, call.tsEpochMs⟩) (.record call) t).2.Legible := by
  obtain ⟨hauth, hbody, hid⟩ := hcall
  obtain ⟨hcorr, hrun, htype, hpayload⟩ := scalars_recordBody.mp hbody
  obtain ⟨bytes, hbytes⟩ := exists_encodeUtf8 hbody
  have hparse := hweb.record (remote.headers true) _ bytes (recordMembers call)
    remote.mem_headers hbytes
    (loads_stableJson (nodup_keys_recordBody call))
  have hlike := AuditStore.record_like (H := service.hash) call.alike_sent hst
  have hroute := auditRecord_eq (t := t) (H := service.hash) hauth
  rcases hs : AuditStore.record service.hash call s with ⟨exc | e, s'⟩ <;>
    rcases hsent : AuditStore.record service.hash call.sent t with ⟨exc' | e', t'⟩ <;>
    rw [hs, hsent] at hlike
  · -- the store raises, and the route reports it
    obtain ⟨exc'', hreport⟩ := exists_reportAs 400 exc' t'
    rw [PyM.tryExcept_of_error hsent, hreport] at hroute
    obtain ⟨message, hpost⟩ := post_refused hbytes hparse (PyM.bind_of_error hroute)
    have hrefused : remote.record (service.handle ⟨call.eventId, call.tsEpochMs⟩) call t =
      (.error (.runtimeError message), t') := PyM.bind_of_error hpost
    have ht' : t'.Legible := by rwa [AuditStore.record_eq_error hsent]
    exact mirrored_of_error (PyM.bind_of_error hs) (PyM.bind_of_error hrefused) hlike.states ht'
  · exact hlike.results.elim
  · exact hlike.results.elim
  · -- the store returns, and the client reads the event it returned
    rw [PyM.tryExcept_of_ok hsent] at hroute
    obtain ⟨previous, hashChain, hcreate, -, -⟩ := AuditStore.record_created ht hsent
    obtain ⟨-, -, -, -, hstored, -⟩ := AuditEvent.create_eq_ok hcreate
    obtain ⟨members, hmembers⟩ : ∃ members,
      toJsonable (.dict call.sent.payload : PyVal F) = .obj members := ⟨_, rfl⟩
    have hplain : e'.payload = PyVal.ofJsonMembers members := by
      rw [hstored, safePayload, hmembers]
    have hclean : (Json.obj members).Clean := by
      rw [← hmembers]
      exact toJsonable_clean _
    obtain ⟨ht', htext⟩ := AuditStore.record_legible ht hsent
      ⟨hid, hcorr, hrun, htype, by rwa [← call.alike_sent.payload]⟩
    obtain ⟨text, hrespond, hloads⟩ := respond_event hweb hplain hclean htext
    have hpost := post_answered hbytes hparse (PyM.bind_of_ok hroute) hrespond hloads
    have hrecord : remote.record (service.handle ⟨call.eventId, call.tsEpochMs⟩) call t =
        (.ok e', t') := by
      refine (PyM.bind_of_ok hpost).trans ?_
      rw [AuditEvent.eventFromDict_document hplain]
      rfl
    exact mirrored_of_ok (PyM.bind_of_ok hs) (PyM.bind_of_ok hrecord) hlike.results hlike.states ht'

/-- The body the service reads of an event. -/
def wireBody (e : AuditEvent F) : AppendBody F where
  members := JsonlAuditStore.storedObj e
  prevHash := e.prevHash
  hash := e.hash
  prev_typed := JsonlAuditStore.optStr_prev_storedObj e
  hash_typed := by
    rw [JsonlAuditStore.dictGet_hash_storedObj]
    cases e.hash <;> rfl

/-- The route rebuilds the event, its payload in sorted form. -/
theorem event_wireBody (e : AuditEvent F) :
    (wireBody e).event = .ok (SqliteAuditStore.readBack e) := by
  have hmember : ∀ (key : String) (v : PyVal F), dictGet (lit key) e.toDict = some v →
      (wireBody e).member key = .ok (toJsonable v).sortKeys := by
    intro key v hkey
    have hget : dictGet (lit key) (wireBody e).members = some (toJsonable v).sortKeys := by
      show dictGet (lit key) (JsonlAuditStore.storedObj e) = _
      rw [JsonlAuditStore.dictGet_storedObj, hkey]
      rfl
    rw [AppendBody.member, hget]
  obtain ⟨members, hmembers, hwire, -⟩ := exists_wirePayload e.payload
  have heta : SqliteAuditStore.readBack e = ⟨e.eventId, e.correlationId, e.runId, e.tsEpochMs,
      e.eventType, PyVal.ofJsonMembers members, e.prevHash, e.hash⟩ := by
    rw [← hwire]
    rfl
  rw [heta, AppendBody.event, hmember "event_id" (.str e.eventId) rfl,
    hmember "correlation_id" (.str e.correlationId) rfl, hmember "run_id" (.str e.runId) rfl,
    hmember "ts_epoch_ms" (.int e.tsEpochMs) rfl, hmember "event_type" (.str e.eventType) rfl,
    hmember "payload" (.dict e.payload) rfl, hmembers]
  rfl

theorem auditAppend_eq {authorize : Str → Bool} {e : AuditEvent F}
    (hauth : authorize e.eventType) : auditAppend authorize (wireBody e) t =
      (PyM.tryExcept (AuditStore.append (SqliteAuditStore.readBack e)) (reportAs 409) >>= fun _ =>
        pure (SqliteAuditStore.readBack e)) t := by
  have hget : dictGet (lit "event_type") e.toDict = some (.str e.eventType) := rfl
  have htype : dictGet (lit "event_type") (wireBody e).members = some (.str e.eventType) := by
    show dictGet (lit "event_type") (JsonlAuditStore.storedObj e) = _
    rw [JsonlAuditStore.dictGet_storedObj, hget]
    rfl
  rw [auditAppend, htype]
  show (if !authorize e.eventType then _ else _ : PyM (AuditStore F) (AuditEvent F)) t = _
  rw [hauth, event_wireBody]
  rfl

/-- An `append` over the wire. -/
theorem append_mirrored (hweb : WebFramework remote.baseUrl service) (hst : AuditStore.Like s t)
    (ht : t.Legible) (draw : EventDraw) {e : AuditEvent F}
    (hcall : (AuditCall.append e).Admitted service remote) :
    Mirrored (AuditStore.perform service.hash (.append e) s)
        (remote.perform (service.handle draw) (.append e) t) ∧
      (remote.perform (service.handle draw) (.append e) t).2.Legible := by
  obtain ⟨hauth, hbody, members, hpayload, hclean⟩ := hcall
  obtain ⟨bytes, hbytes⟩ := exists_encodeUtf8 hbody
  have hparse := hweb.append (remote.headers true) (stableJson e.toDict) bytes (wireBody e)
    remote.mem_headers hbytes
    (JsonlAuditStore.loads_stored e)
  have hlike := AuditStore.append_like (sameText_readBack e) hst
  have hroute := auditAppend_eq (t := t) (e := e) hauth
  rcases hs : AuditStore.append e s with ⟨exc | ⟨⟨⟩⟩, s'⟩ <;>
    rcases hsent : AuditStore.append (SqliteAuditStore.readBack e) t with ⟨exc' | ⟨⟨⟩⟩, t'⟩ <;>
    rw [hs, hsent] at hlike
  · -- the store raises, and the route reports it
    obtain ⟨exc'', hreport⟩ := exists_reportAs (α := Unit) 409 exc' t'
    rw [PyM.bind_of_error ((PyM.tryExcept_of_error hsent).trans hreport)] at hroute
    obtain ⟨message, hpost⟩ := post_refused hbytes hparse (PyM.bind_of_error hroute)
    have hrefused : remote.append (service.handle draw) e t =
        (.error (.runtimeError message), t') := by
      rw [RemoteAuditStore.append, PyM.bind_of_error hpost]
    have ht' : t'.Legible := by rwa [AuditStore.append_eq_error hsent]
    have hcalled : remote.perform (service.handle draw) (.append e) t =
        (.error (.runtimeError message), t') := by
      rw [RemoteAuditStore.perform, PyM.bind_of_error hrefused]
    exact mirrored_of_error (PyM.bind_of_error hs) hcalled hlike.states ht'
  · exact hlike.results.elim
  · exact hlike.results.elim
  · -- the store takes the event, and the client reads the same one back
    rw [PyM.bind_of_ok (PyM.tryExcept_of_ok hsent)] at hroute
    obtain ⟨members', -, hwire, hclean'⟩ := exists_wirePayload e.payload
    have htext : Scalars (stableJson (SqliteAuditStore.readBack e).toDict) := by
      rwa [SqliteAuditStore.stableJson_readBack]
    have ht' := AuditStore.append_legible ht hsent htext
    obtain ⟨text, hrespond, hloads⟩ := respond_event hweb hwire hclean' htext
    have hpost : remote.post (service.handle draw) (lit "/v1/audit/events/append") e.toDict t =
        (.ok (.obj ((SqliteAuditStore.readBack e).document members')), t') :=
      post_answered hbytes hparse (PyM.bind_of_ok hroute) hrespond hloads
    have hsame : RemoteAuditStore.sameDict (SqliteAuditStore.readBack e).toDict e.toDict = true :=
      RemoteAuditStore.sameDict_of_sameText (sameText_readBack e).symm hwire hclean' hpayload hclean
    have happend : remote.append (service.handle draw) e t = (.ok (), t') := by
      rw [RemoteAuditStore.append, PyM.bind_of_ok hpost, AuditEvent.eventFromDict_document hwire,
        PyM.bind_of_ok (PyM.ofExcept_apply _ _), hsame]
      rfl
    have hcalled : remote.perform (service.handle draw) (.append e) t = (.ok .appended, t') := by
      rw [RemoteAuditStore.perform, PyM.bind_of_ok happend]
      rfl
    exact mirrored_of_ok (PyM.bind_of_ok hs) hcalled rfl hlike.states ht'

/-- An answer of one member. -/
theorem respond_single (hweb : WebFramework remote.baseUrl service) {key : Str} {j : Json F}
    (hclean : j.Clean) (hkey : Scalars key) (hj : Scalars j.render) :
    ∃ text, service.respond (.ofFields [(key, PyVal.ofJson j)]) = some text ∧
      Json.loads text = some (.obj [(key, j)]) := by
  have hone : (Json.obj [(key, j)]).Clean := by
    refine .obj (List.nodup_singleton key) fun p hp => ?_
    rw [List.mem_singleton.mp hp]
    exact hclean
  refine hweb.respond _ hone (Json.scalars_render_obj.mpr fun p hp => ?_)
  rw [List.mem_singleton.mp hp]
  exact ⟨hkey, hj⟩

/-- A `last_hash` over the wire. -/
theorem lastHash_mirrored (hweb : WebFramework remote.baseUrl service) (hst : AuditStore.Like s t)
    (ht : t.Legible) (draw : EventDraw) {id : Str}
    (hcall : (AuditCall.lastHash id : AuditCall F).Admitted service remote) :
    Mirrored (AuditStore.perform service.hash (.lastHash id) s)
        (remote.perform (service.handle draw) (.lastHash id) t) ∧
      (remote.perform (service.handle draw) (.lastHash id : AuditCall F) t).2.Legible := by
  obtain ⟨hauth, hne, hslash, hid⟩ := hcall
  obtain ⟨quoted, hquoted⟩ := quote_eq_ok hid
  have hparse := hweb.tail (remote.headers false) id quoted hquoted hne hslash
  have hsame := AuditStore.lastHash_like hst id
  have htail : auditTail (service.permits (remote.headers false) (lit "audit.read")) id t =
      (t.lastHash id, t) := by
    rw [auditTail, hauth]
    rfl
  have hpath : ∀ {r : Except PyExc (Option Str) × AuditStore F},
      (remote.get (F := F) (service.handle draw) (RemoteAuditStore.tailPath quoted) >>= fun data : Json F =>
        match data with
        | .obj _ => .ofExcept (RemoteAuditStore.optItem data "last_hash")
        | _ => return none) t = r → remote.lastHash (service.handle draw) F id t = r := by
    intro r hr
    rw [RemoteAuditStore.lastHash, hquoted]
    exact hr
  -- the route answers with the hash or null, and reports what the store raises
  cases hlast : t.lastHash id with
  | error exc =>
    rw [hlast] at hsame htail
    have hs : AuditStore.perform service.hash (.lastHash id) s = (.error exc, s) := by
      rw [AuditStore.perform, PyM.get_bind, hsame]
      rfl
    obtain ⟨message, hget⟩ := get_refused hparse (PyM.bind_of_error htail)
    exact mirrored_of_error hs (PyM.bind_of_error (hpath (PyM.bind_of_error hget))) hst ht
  | ok hash =>
    rw [hlast] at hsame htail
    have hs : AuditStore.perform service.hash (.lastHash id) s = (.ok (.tail hash), s) := by
      rw [AuditStore.perform, PyM.get_bind, hsame]
      rfl
    -- a stored hash is a text that can be put on the wire
    have hscalars : Scalars (Json.render (hash.elim .null .str : Json F)) := by
      cases hash with
      | none => exact scalars_of_lt (by decide : ∀ c ∈ lit "null", c < 0xD800)
      | some text => exact Json.scalars_quote.mpr (ht.lastHash hlast)
    obtain ⟨text, hrespond, hloads⟩ := respond_single hweb (clean_elim hash)
      (scalars_of_lt (by decide) : Scalars (lit "last_hash")) hscalars
    rw [ofJson_elim] at hrespond
    have hget : remote.get (service.handle draw) (RemoteAuditStore.tailPath quoted) t =
        (.ok (.obj [(lit "last_hash", (hash.elim .null .str : Json F))]), t) :=
      get_answered hparse (PyM.bind_of_ok htail) hrespond hloads
    have hread : remote.lastHash (service.handle draw) F id t = (.ok hash, t) := by
      refine hpath ((PyM.bind_of_ok hget).trans ?_)
      cases hash <;> rfl
    exact mirrored_of_ok hs (PyM.bind_of_ok hread) rfl hst ht

/-- A `verify` over the wire. -/
theorem verify_mirrored (hweb : WebFramework remote.baseUrl service) (hst : AuditStore.Like s t)
    (ht : t.Legible) (draw : EventDraw) {id : Str}
    (hcall : (AuditCall.verify id : AuditCall F).Admitted service remote) :
    Mirrored (AuditStore.perform service.hash (.verify id) s)
        (remote.perform (service.handle draw) (.verify id) t) ∧
      (remote.perform (service.handle draw) (.verify id : AuditCall F) t).2.Legible := by
  obtain ⟨hauth, hid⟩ := hcall
  obtain ⟨path, hpath⟩ : ∃ path, RemoteAuditStore.verifyPath id = .ok path := by
    rw [RemoteAuditStore.verifyPath]
    split_ifs
    · exact ⟨_, rfl⟩
    · obtain ⟨quoted, hquoted⟩ := quote_eq_ok hid
      rw [hquoted]
      exact ⟨_, rfl⟩
  have hparse := hweb.verify (remote.headers false) id path hpath
  have hsame := AuditStore.verify_like (H := service.hash) hst
  have hauthorized :
      auditVerify service.hash (service.permits (remote.headers false) (lit "audit.read")) id t =
        PyM.tryExcept (PyM.ofExcept (t.verify service.hash)) (reportAs 409) t := by
    rw [auditVerify, hauth]
    rfl
  have hread : ∀ {r : Except PyExc Int × AuditStore F},
      (remote.get (F := F) (service.handle draw) path >>= fun data : Json F =>
        PyM.ofExcept (data.item (lit "events_verified")) >>= fun item =>
          .ofExcept (item.pyInt.elim (.error (.valueError [])) .ok)) t = r →
      remote.verify (service.handle draw) F id t = r := by
    intro r hr
    rw [RemoteAuditStore.verify, hpath]
    exact hr
  -- the route reports what verify raises, and answers with the count
  cases hverify : t.verify service.hash with
  | error exc =>
    obtain ⟨exc', hreport⟩ := exists_reportAs (α := ℕ) 409 exc t
    rw [hverify] at hsame
    rw [hverify, PyM.tryExcept_of_error (PyM.ofExcept_apply _ _), hreport] at hauthorized
    have hs : AuditStore.perform service.hash (.verify id) s = (.error exc, s) := by
      rw [AuditStore.perform, PyM.get_bind, hsame]
      rfl
    obtain ⟨message, hget⟩ := get_refused hparse (PyM.bind_of_error hauthorized)
    exact mirrored_of_error hs (PyM.bind_of_error (hread (PyM.bind_of_error hget))) hst ht
  | ok n =>
    rw [hverify] at hsame
    rw [hverify, PyM.tryExcept_of_ok (PyM.ofExcept_apply _ _)] at hauthorized
    have hs : AuditStore.perform service.hash (.verify id) s = (.ok (.verified n), s) := by
      rw [AuditStore.perform, PyM.get_bind, hsame]
      rfl
    obtain ⟨text, hrespond, hloads⟩ := respond_single (j := .int n) hweb (.int n)
      (scalars_of_lt (by decide) : Scalars (lit "events_verified")) (scalars_intText n)
    have hget : remote.get (service.handle draw) path t =
        (.ok (.obj [(lit "events_verified", (.int n : Json F))]), t) :=
      get_answered hparse (PyM.bind_of_ok hauthorized) hrespond hloads
    have hcount : remote.verify (service.handle draw) F id t = (.ok (n : Int), t) :=
      hread ((PyM.bind_of_ok hget).trans rfl)
    exact mirrored_of_ok hs (PyM.bind_of_ok hcount) rfl hst ht

/-- A call over the wire is the call on the store of the service. -/
theorem perform_mirrored (hweb : WebFramework remote.baseUrl service) (hst : AuditStore.Like s t)
    (ht : t.Legible) {call : AuditCall F} (hcall : call.Admitted service remote) :
    Mirrored (AuditStore.perform service.hash call s)
        (remote.perform (service.handle call.draw) call t) ∧
      (remote.perform (service.handle call.draw) call t).2.Legible := by
  cases call with
  | record call => exact record_mirrored hweb hst ht hcall
  | append e => exact append_mirrored hweb hst ht _ hcall
  | lastHash id => exact lastHash_mirrored hweb hst ht _ hcall
  | verify id => exact verify_mirrored hweb hst ht _ hcall

end

end AgentRoi
