/-
Runs of the remote audit store.

* `remote_run_mirrored` — a program that makes its calls over the wire sees
  what it would see on a store of its own, call by call;
* `Delivery` — a request or its answer can be lost on the way;
* `Added` — what one call added to the log of the service: what it was told it
  added, and at most one event it was not told of;
* `lossy_run_added` — over any run with any losses the log is what its calls
  added, in order, and verifies: no event that was acknowledged is missing, and
  none is there that was not asked for.
-/
import AgentRoi.PlainFramework

namespace AgentRoi

open ChainLog

variable {F : Type} [PyValues F]

/-! ### Runs without losses -/

/-- The calls of a program, on a store; what each of them came to. -/
def AuditStore.performAll (H : Sha256) : List (AuditCall F) → AuditStore F →
    List (Except PyExc (AuditAnswer F)) × AuditStore F
  | [], s => ([], s)
  | call :: calls, s =>
    let first := AuditStore.perform H call s
    let rest := AuditStore.performAll H calls first.2
    (first.1 :: rest.1, rest.2)

/-- The calls of a program, over the wire. -/
def RemoteAuditStore.performAll (remote : RemoteAuditStore) (service : AuditService F) :
    List (AuditCall F) → AuditStore F → List (Except PyExc (AuditAnswer F)) × AuditStore F
  | [], s => ([], s)
  | call :: calls, s =>
    let first := remote.perform (service.handle call.draw) call s
    let rest := remote.performAll service calls first.2
    (first.1 :: rest.1, rest.2)

/-- What a call came to, and what it came to over the wire: the same answer, or
an error that is reported. -/
def Reported : Except PyExc (AuditAnswer F) → Except PyExc (AuditAnswer F) → Prop
  | .ok a, .ok b => a.Same b
  | .error _, .error exc => ∃ message, exc = .runtimeError message
  | _, _ => False

theorem Mirrored.reported {p q : Except PyExc (AuditAnswer F) × AuditStore F}
    (h : Mirrored p q) : Reported p.1 q.1 := by
  rcases hp : p.1 with exc | a
  · obtain ⟨message, hq⟩ := h.raised exc hp
    rw [hq]
    exact ⟨message, rfl⟩
  · obtain ⟨b, hq, hab⟩ := h.returned a hp
    rw [hq]
    exact hab

theorem performAll_mirrored {service : AuditService F} {remote : RemoteAuditStore}
    (hweb : WebFramework remote.baseUrl service) {calls : List (AuditCall F)}
    (hcalls : ∀ call ∈ calls, call.Admitted service remote) {s t : AuditStore F}
    (hst : AuditStore.Like s t) (ht : t.Legible) :
    List.Forall₂ Reported (AuditStore.performAll service.hash calls s).1
        (remote.performAll service calls t).1 ∧
      AuditStore.Like (AuditStore.performAll service.hash calls s).2
        (remote.performAll service calls t).2 := by
  induction calls generalizing s t with
  | nil => exact ⟨.nil, hst⟩
  | cons call calls ih =>
    obtain ⟨hcall, hrest⟩ := List.forall_mem_cons.mp hcalls
    obtain ⟨hmirrored, hlegible⟩ := perform_mirrored hweb hst ht hcall
    obtain ⟨hreported, hlike⟩ := ih hrest hmirrored.stores hlegible
    exact ⟨.cons hmirrored.reported hreported, hlike⟩

/-- A program whose calls are permitted and can be sent sees over the wire what
it would see on a store of its own of the same kind, and the store of the
service ends as that one. -/
theorem remote_run_mirrored {service : AuditService F} {remote : RemoteAuditStore}
    (hweb : WebFramework remote.baseUrl service) (hashChain : Bool) (kind : StoreKind)
    {calls : List (AuditCall F)} (hcalls : ∀ call ∈ calls, call.Admitted service remote) :
    List.Forall₂ Reported
        (AuditStore.performAll service.hash calls (.empty F hashChain kind)).1
        (remote.performAll service calls (.empty F hashChain kind)).1 ∧
      AuditStore.Like (AuditStore.performAll service.hash calls (.empty F hashChain kind)).2
        (remote.performAll service calls (.empty F hashChain kind)).2 :=
  performAll_mirrored hweb hcalls (AuditStore.like_refl _) (AuditStore.legible_empty hashChain kind)

/-- A client, and calls it makes. -/
def wireClient : RemoteAuditStore := ⟨lit "https://audit", lit "token"⟩

def wireRecord : RecordCall SmallFloat :=
  ⟨lit "e1", 7, lit "c", lit "r", lit "tool", [(.str (lit "b"), .int 1), (.str (lit "a"), .none)]⟩

def wireService : AuditService SmallFloat := PlainFramework.service default wireClient.baseUrl

theorem wireRecord_admitted : (AuditCall.record wireRecord).Admitted wireService wireClient :=
  ⟨rfl, encodeUtf8_isSome_iff.mp (by decide +kernel), scalars_of_lt (by decide)⟩

theorem wireTail_admitted :
    (AuditCall.lastHash (lit "c") : AuditCall SmallFloat).Admitted wireService wireClient :=
  ⟨rfl, by decide, by decide, scalars_of_lt (by decide)⟩

theorem wireVerify_admitted :
    (AuditCall.verify [] : AuditCall SmallFloat).Admitted wireService wireClient :=
  ⟨rfl, scalars_of_lt (by decide)⟩

theorem wireService_web : WebFramework wireClient.baseUrl wireService :=
  PlainFramework.web default _

def wireCalls : List (AuditCall SmallFloat) :=
  [.record wireRecord, .lastHash (lit "c"), .verify []]

theorem wireCalls_admitted : ∀ call ∈ wireCalls, call.Admitted wireService wireClient :=
  List.forall_mem_cons.mpr ⟨wireRecord_admitted, List.forall_mem_cons.mpr
    ⟨wireTail_admitted, List.forall_mem_singleton.mpr wireVerify_admitted⟩⟩

theorem remote_run_mirrored_sample :
    List.Forall₂ Reported
        (AuditStore.performAll wireService.hash wireCalls (.empty SmallFloat true .jsonl)).1
        (wireClient.performAll wireService wireCalls (.empty SmallFloat true .jsonl)).1 ∧
      AuditStore.Like
        (AuditStore.performAll wireService.hash wireCalls (.empty SmallFloat true .jsonl)).2
        (wireClient.performAll wireService wireCalls (.empty SmallFloat true .jsonl)).2 :=
  remote_run_mirrored wireService_web true .jsonl wireCalls_admitted

/-! ### Losses -/

/-- What becomes of a request: it is answered, it never arrives, or it arrives
and its answer does not. -/
inductive Delivery where
  | answered
  | requestLost
  | answerLost
  deriving DecidableEq

/-- `urlopen` over a network that loses requests and answers. -/
def Delivery.urlopen {σ : Type} (delivery : Delivery) (handle : HttpRequest → PyM σ HttpAnswer)
    (req : HttpRequest) : PyM σ HttpAnswer :=
  match delivery with
  | .answered => handle req
  | .requestLost => return .osError
  | .answerLost => do
    let _ ← handle req
    return .osError

/-- The calls of a program, over a network with losses. -/
def RemoteAuditStore.performLossy (remote : RemoteAuditStore) (service : AuditService F) :
    List (AuditCall F × Delivery) → AuditStore F →
    List (Except PyExc (AuditAnswer F)) × AuditStore F
  | [], s => ([], s)
  | (call, delivery) :: steps, s =>
    let first := remote.perform (delivery.urlopen (service.handle call.draw)) call s
    let rest := remote.performLossy service steps first.2
    (first.1 :: rest.1, rest.2)

/-- The event is the one the call asks for. -/
def AuditCall.Wants : AuditCall F → AuditEvent F → Prop
  | .record call, e => e.eventId = call.eventId ∧ e.tsEpochMs = call.tsEpochMs ∧
    e.correlationId = call.correlationId ∧ e.runId = call.runId ∧ e.eventType = call.eventType ∧
    canonicalJson (.dict e.payload) = canonicalJson (.dict call.payload)
  | .append e', e => e'.SameText e
  | _, _ => False

/-- What a call that came to `outcome` added to a log: only a call that is
answered returns, and a request that is lost adds nothing. -/
inductive Added (log : List (AuditEvent F)) (call : AuditCall F) (delivery : Delivery) :
    Except PyExc (AuditAnswer F) → List (AuditEvent F) → Prop
  | recorded (e e' : AuditEvent F) : delivery = .answered → call.Wants e → e.SameText e' →
    Added log call delivery (.ok (.recorded e')) [e]
  | appended (e : AuditEvent F) : delivery = .answered → call = .append e →
    Added log call delivery (.ok .appended) [e]
  | tail (id : Str) : delivery = .answered → call = .lastHash id →
    Added log call delivery (.ok (.tail (chainTail log id))) []
  | verified (id : Str) : delivery = .answered → call = .verify id →
    Added log call delivery (.ok (.verified log.length)) []
  | refused (exc : PyExc) : Added log call delivery (.error exc) []
  | unacknowledged (exc : PyExc) (e : AuditEvent F) : delivery = .answerLost → call.Wants e →
    Added log call delivery (.error exc) [e]

/-- What each call of a run added. -/
inductive AddedAll : List (AuditEvent F) → List (AuditCall F × Delivery) →
    List (Except PyExc (AuditAnswer F)) → List (List (AuditEvent F)) → Prop
  | nil (log : List (AuditEvent F)) : AddedAll log [] [] []
  | cons {log part : List (AuditEvent F)} {call : AuditCall F} {delivery : Delivery}
    {outcome : Except PyExc (AuditAnswer F)} {steps : List (AuditCall F × Delivery)}
    {outcomes : List (Except PyExc (AuditAnswer F))} {parts : List (List (AuditEvent F))} :
    Added log call delivery outcome part → AddedAll (log ++ part) steps outcomes parts →
    AddedAll log ((call, delivery) :: steps) (outcome :: outcomes) (part :: parts)

/-! ### One request for each call -/

theorem PyM.ofExcept_bind_ofExcept {σ α β : Type} (r : Except PyExc α) (f : α → Except PyExc β) :
    (PyM.ofExcept r >>= fun a => PyM.ofExcept (f a) : PyM σ β) = PyM.ofExcept (r >>= f) := by
  cases r <;> rfl

/-- A method that sends one request at most: it works out a request, or raises,
and what it comes to depends on the answer. -/
def OneRequest {α : Type} (x : ∀ W : Type, (HttpRequest → PyM W HttpAnswer) → PyM W α) : Prop :=
  ∃ (req : Except PyExc HttpRequest) (process : HttpAnswer → Except PyExc α),
    (∀ W urlopen, x W urlopen = (PyM.ofExcept req >>= fun r => urlopen r >>= fun answer =>
      PyM.ofExcept (process answer))) ∧ ∃ exc, process .osError = .error exc

namespace OneRequest

variable {α β : Type} {x : ∀ W : Type, (HttpRequest → PyM W HttpAnswer) → PyM W α}

omit [PyValues F] in
/-- What is made of the result needs no other request. -/
theorem andThen (h : OneRequest x) (f : α → Except PyExc β) :
    OneRequest fun W urlopen => x W urlopen >>= fun a => PyM.ofExcept (f a) := by
  obtain ⟨req, process, hx, exc, hos⟩ := h
  refine ⟨req, fun answer => process answer >>= f, fun W urlopen => ?_, exc, ?_⟩
  · show (x W urlopen >>= fun a => PyM.ofExcept (f a)) = _
    rw [hx W urlopen]
    simp only [PyM.bind_assoc, PyM.ofExcept_bind_ofExcept]
  · show process .osError >>= f = _
    rw [hos]
    rfl

omit [PyValues F] in
theorem congr (h : OneRequest x) {y : ∀ W : Type, (HttpRequest → PyM W HttpAnswer) → PyM W α}
    (hxy : ∀ W urlopen, y W urlopen = x W urlopen) : OneRequest y := by
  obtain ⟨req, process, hx, hos⟩ := h
  exact ⟨req, process, fun W urlopen => (hxy W urlopen).trans (hx W urlopen), hos⟩

theorem post (remote : RemoteAuditStore) (path : Str) (payload : PyDict F) :
    OneRequest fun _ urlopen => remote.post urlopen path payload := by
  refine ⟨RemoteAuditStore.encodeBody payload >>= fun body =>
    .ok ⟨lit "POST", remote.baseUrl ++ path, remote.headers true, some body⟩,
    RemoteAuditStore.receive, fun W urlopen => ?_, _, rfl⟩
  show (PyM.ofExcept (RemoteAuditStore.encodeBody payload) >>= _ : PyM W (Json F)) = _
  cases RemoteAuditStore.encodeBody payload <;> rfl

theorem get (F : Type) [PyValues F] (remote : RemoteAuditStore) (path : Except PyExc Str) :
    OneRequest fun _ urlopen => PyM.ofExcept path >>= fun p => remote.get (F := F) urlopen p := by
  refine ⟨path >>= fun p => .ok ⟨lit "GET", remote.baseUrl ++ p, remote.headers false, none⟩,
    RemoteAuditStore.receive, fun W urlopen => ?_, _, rfl⟩
  cases path <;> rfl

end OneRequest

/-- What `last_hash` makes of an answer. -/
def RemoteAuditStore.tailItem (data : Json F) : Except PyExc (Option Str) :=
  match data with
  | .obj _ => optItem data "last_hash"
  | _ => .ok none

theorem oneRequest_perform (remote : RemoteAuditStore) (call : AuditCall F) :
    OneRequest fun _ urlopen => remote.perform urlopen call := by
  cases call with
  | record call =>
    have h := ((OneRequest.post remote (lit "/v1/audit/events")
      (RemoteAuditStore.recordBody call)).andThen RemoteAuditStore.eventFromDict).andThen
      fun e => .ok (AuditAnswer.recorded e : AuditAnswer F)
    refine h.congr ?_
    intro W urlopen
    rfl
  | append e =>
    have h := (((OneRequest.post remote (lit "/v1/audit/events/append") e.toDict).andThen
      RemoteAuditStore.eventFromDict).andThen
      fun returned => if !RemoteAuditStore.sameDict returned.toDict e.toDict then
        .error (.auditIntegrityError RemoteAuditStore.alteredMessage) else .ok ()).andThen
      fun _ => .ok (AuditAnswer.appended : AuditAnswer F)
    refine h.congr ?_
    intro W urlopen
    rw [RemoteAuditStore.perform, RemoteAuditStore.append]
    simp only [PyM.bind_assoc]
    congr 1
    funext data
    congr 1
    funext returned
    split_ifs <;> rfl
  | lastHash id =>
    have h := ((OneRequest.get F remote (quote id >>= fun quoted =>
      .ok (RemoteAuditStore.tailPath quoted))).andThen RemoteAuditStore.tailItem).andThen
      fun hash => .ok (AuditAnswer.tail hash : AuditAnswer F)
    refine h.congr ?_
    intro W urlopen
    rw [RemoteAuditStore.perform, RemoteAuditStore.lastHash]
    cases quote id with
    | error exc => rfl
    | ok quoted =>
      show (remote.get (F := F) urlopen (RemoteAuditStore.tailPath quoted) >>= _ : PyM W _) >>= _ =
        (remote.get (F := F) urlopen (RemoteAuditStore.tailPath quoted) >>= _ : PyM W _) >>= _
      congr 2
      funext data
      cases data <;> rfl
  | verify id =>
    have h := (((OneRequest.get F remote (RemoteAuditStore.verifyPath id)).andThen
      fun data => data.item (lit "events_verified")).andThen
      fun item => item.pyInt.elim (.error (.valueError [])) .ok).andThen
      fun count => .ok (AuditAnswer.verified count : AuditAnswer F)
    refine h.congr ?_
    intro W urlopen
    rw [RemoteAuditStore.perform, RemoteAuditStore.verify]
    simp only [PyM.bind_assoc]
    rfl

/-- A request that is lost changes nothing, and the call raises. -/
theorem OneRequest.lostRequest {α σ : Type}
    {x : ∀ W : Type, (HttpRequest → PyM W HttpAnswer) → PyM W α} (h : OneRequest x)
    (handle : HttpRequest → PyM σ HttpAnswer) (s : σ) :
    ∃ exc, x σ (Delivery.requestLost.urlopen handle) s = (.error exc, s) := by
  obtain ⟨req, process, hx, exc, hos⟩ := h
  rw [hx]
  cases req with
  | error exc' => exact ⟨exc', rfl⟩
  | ok r =>
    refine ⟨exc, ?_⟩
    show PyM.ofExcept (process .osError) s = _
    rw [hos]
    rfl

/-- When the answer is lost the call raises, and what was done is done. -/
theorem OneRequest.lostAnswer {α σ : Type}
    {x : ∀ W : Type, (HttpRequest → PyM W HttpAnswer) → PyM W α} (h : OneRequest x)
    (handle : HttpRequest → PyM σ HttpAnswer) (s : σ) :
    ∃ exc, x σ (Delivery.answerLost.urlopen handle) s = (.error exc, (x σ handle s).2) := by
  obtain ⟨req, process, hx, exc, hos⟩ := h
  rw [hx, hx]
  cases req with
  | error exc' => exact ⟨exc', rfl⟩
  | ok r =>
    show ∃ exc, (Delivery.answerLost.urlopen handle r >>= fun answer =>
      PyM.ofExcept (process answer)) s = (.error exc, ((handle r >>= fun answer =>
        PyM.ofExcept (process answer)) s).2)
    rcases hhandle : handle r s with ⟨exc' | answer, s'⟩
    · refine ⟨exc', ?_⟩
      rw [PyM.bind_of_error hhandle]
      exact PyM.bind_of_error (PyM.bind_of_error hhandle)
    · have hlost : Delivery.answerLost.urlopen handle r s = (.ok .osError, s') :=
        PyM.bind_of_ok hhandle
      refine ⟨exc, ?_⟩
      rw [PyM.bind_of_ok hhandle, PyM.bind_of_ok hlost, hos]
      rfl

/-! ### What a call adds -/

namespace AuditStore

/-- What a call of `record` returns is the event it asks for. -/
theorem record_wants {H : Sha256} {s s' : AuditStore F} {call : RecordCall F} {e : AuditEvent F}
    (h : record H call s = (.ok e, s')) : (AuditCall.record call).Wants e := by
  have hcreate : ∃ previous hashChain, call.create H previous hashChain = .ok e := by
    cases s with
    | inMemory s =>
      obtain ⟨s₁, hrec, rfl⟩ := PyM.embed_eq.mp h
      exact ⟨_, _, (InMemoryAuditStore.record_eq_ok hrec).1⟩
    | jsonl s =>
      obtain ⟨s₁, hrec, rfl⟩ := PyM.embed_eq.mp h
      obtain ⟨objects, -, hcreate, -⟩ := JsonlAuditStore.record_eq_ok hrec
      exact ⟨_, _, hcreate⟩
    | sqlite s =>
      obtain ⟨s₁, hrec, rfl⟩ := PyM.embed_eq.mp h
      obtain ⟨previous, -, hcreate, -⟩ := SqliteAuditStore.record_eq_ok hrec
      exact ⟨_, _, hcreate⟩
  obtain ⟨previous, hashChain, hcreate⟩ := hcreate
  have hpayload := canonicalJson_safePayload call.payload
  cases hashChain with
  | false =>
    rw [call.create_false] at hcreate
    cases hcreate
    exact ⟨rfl, rfl, rfl, rfl, rfl, hpayload⟩
  | true =>
    rw [call.create_true, except_bind_eq_ok] at hcreate
    obtain ⟨d, -, hd⟩ := hcreate
    cases hd
    exact ⟨rfl, rfl, rfl, rfl, rfl, hpayload⟩

/-- Appending a sealed event adds it to the log. -/
theorem append_step {H : Sha256} {kind : StoreKind} {hashChain : Bool}
    {log : List (AuditEvent F)} {s s' : AuditStore F} {e : AuditEvent F}
    (hs : Holds H kind hashChain log s) (h : append e s = (.ok (), s'))
    (hseal : e.Sealed H hashChain) : Holds H kind hashChain (log ++ [e]) s' := by
  obtain ⟨rfl, rfl, hrep, hv⟩ := hs
  cases s with
  | inMemory s =>
    obtain ⟨s₁, happ, rfl⟩ := PyM.embed_eq.mp h
    obtain ⟨hprev, rfl⟩ := InMemoryAuditStore.append_eq_ok happ
    have hcache : s.lastHashCache = chainTail log := by
      rw [s.cache_sync, ← cacheOf_eq_tails hv.sealed, ← hrep]
    rw [hcache] at hprev
    exact ⟨rfl, rfl, congrArg (· ++ [e]) hrep, verifiedLog_concat.mpr ⟨hv, hprev, hseal⟩⟩
  | jsonl s =>
    obtain ⟨s₁, happ, rfl⟩ := PyM.embed_eq.mp h
    obtain ⟨objects, ho, hprev, hw⟩ := JsonlAuditStore.append_eq_ok happ
    obtain ⟨hend, hobjects⟩ := hrep
    rw [ho] at hobjects
    cases hobjects
    obtain ⟨hchain, hend', ho'⟩ := JsonlAuditStore.objects_write hend ho hw
    rw [JsonlAuditStore.lastHashFromObjects_eq_tails (sealed_storedObj hv),
      tails_storedObj hv] at hprev
    refine ⟨rfl, hchain, ⟨hend', ?_⟩, verifiedLog_concat.mpr ⟨hv, hprev, hseal⟩⟩
    rw [ho', List.map_append]
    rfl
  | sqlite s =>
    obtain ⟨s₁, happ, rfl⟩ := PyM.embed_eq.mp h
    obtain ⟨hp, rfl, henc⟩ := SqliteAuditStore.append_eq_ok happ
    rw [SqliteAuditStore.previousHash_eq_tails hrep henc, chainTail_readBack,
      Except.ok.injEq] at hp
    refine ⟨rfl, rfl, ?_, verifiedLog_concat.mpr ⟨hv, hp.symm, hseal⟩⟩
    rw [Represents, List.map_append]
    exact SqliteAuditStore.forall₂_concat_rowOf hrep e

/-- What `verify` counts, when it counts, are the events of the log. -/
theorem verify_eq_length {H : Sha256} {kind : StoreKind} {hashChain : Bool}
    {log : List (AuditEvent F)} {s : AuditStore F} (hs : Holds H kind hashChain log s) {n : ℕ}
    (h : s.verify H = .ok n) : n = log.length := by
  obtain ⟨rfl, rfl, hrep, hv⟩ := hs
  cases s with
  | inMemory s =>
    obtain ⟨-, rfl⟩ := InMemoryAuditStore.verify_eq_ok_iff.mp h
    exact congrArg List.length hrep
  | jsonl s =>
    obtain ⟨objects, ho, -, rfl⟩ := JsonlAuditStore.verify_eq_ok_iff.mp h
    rw [hrep.2] at ho
    cases ho
    exact List.length_map ..
  | sqlite s =>
    have hverify := (verify_holds_iff ⟨rfl, rfl, hrep, hv⟩).mpr fun hkind => (by cases hkind)
    rw [show (AuditStore.sqlite s).verify H = .ok log.length from hverify] at h
    exact (Except.ok.inj h).symm

/-- What a call adds to the log of a store of its own, and what it comes to. -/
theorem perform_added {H : Sha256} {kind : StoreKind} {hashChain : Bool}
    {log : List (AuditEvent F)} {s s' : AuditStore F} {call : AuditCall F}
    {r : Except PyExc (AuditAnswer F)} (hs : Holds H kind hashChain log s)
    (hseal : ∀ e, call = .append e → e.Sealed H hashChain)
    (hid : ∀ id, call = .lastHash id → Scalars id) (h : perform H call s = (r, s')) :
    ∃ added, Holds H kind hashChain (log ++ added) s' ∧ Added log call .answered r added := by
  have hnone : Holds H kind hashChain (log ++ []) s := by rwa [List.append_nil]
  cases call with
  | record call =>
    rcases hrec : record H call s with ⟨exc | e, s₁⟩
    · -- a store that raises has added nothing
      rw [perform, PyM.bind_of_error hrec] at h
      cases h
      rw [← record_eq_error hrec] at hnone
      exact ⟨[], hnone, .refused exc⟩
    · rw [perform, PyM.bind_of_ok hrec] at h
      cases h
      obtain ⟨hholds, -⟩ := record_step hs hrec
      exact ⟨[e], hholds, .recorded e e rfl (record_wants hrec) (.refl e)⟩
  | append e =>
    rcases happ : append e s with ⟨exc | ⟨⟨⟩⟩, s₁⟩
    · rw [perform, PyM.bind_of_error happ] at h
      cases h
      rw [← append_eq_error happ] at hnone
      exact ⟨[], hnone, .refused exc⟩
    · rw [perform, PyM.bind_of_ok happ] at h
      cases h
      exact ⟨[e], append_step hs happ (hseal e rfl), .appended e rfl rfl⟩
  | lastHash id =>
    have htail : s.lastHash id = .ok (chainTail log id) :=
      (lastHash_holds_iff hs id).mpr fun _ => encodeUtf8_isSome_iff.mpr (hid id rfl)
    rw [perform, PyM.get_bind, htail] at h
    cases h
    exact ⟨[], hnone, .tail id rfl rfl⟩
  | verify id =>
    rw [perform, PyM.get_bind] at h
    cases hverify : s.verify H with
    | error exc =>
      rw [hverify] at h
      cases h
      exact ⟨[], hnone, .refused exc⟩
    | ok n =>
      rw [hverify] at h
      cases h
      rw [verify_eq_length hs hverify]
      exact ⟨[], hnone, .verified id rfl rfl⟩

end AuditStore

/-! ### Runs with losses -/

section

variable {log part : List (AuditEvent F)} {call : AuditCall F}
  {r q : Except PyExc (AuditAnswer F)}

/-- What a call adds is what it adds over the wire. -/
theorem Added.reported (h : Added log call .answered r part) (hrq : Reported r q) :
    Added log call .answered q part := by
  cases h with
  | recorded e e' _ hwants he =>
    rcases q with exc | ⟨e'' | _ | _ | _⟩
    · exact hrq.elim
    · exact .recorded e e'' rfl hwants (he.trans hrq)
    · cases hrq
    · cases hrq
    · cases hrq
  | appended e _ hcall =>
    rcases q with exc | b
    · exact hrq.elim
    · obtain rfl : AuditAnswer.appended = b := by cases b <;> exact hrq
      exact .appended e rfl hcall
  | tail id _ hcall =>
    rcases q with exc | b
    · exact hrq.elim
    · obtain rfl : AuditAnswer.tail _ = b := by cases b <;> exact hrq
      exact .tail id rfl hcall
  | verified id _ hcall =>
    rcases q with exc | b
    · exact hrq.elim
    · obtain rfl : AuditAnswer.verified _ = b := by cases b <;> exact hrq
      exact .verified id rfl hcall
  | refused exc =>
    rcases q with exc' | b
    · exact .refused exc'
    · exact hrq.elim
  | unacknowledged exc e hlost _ => cases hlost

/-- When the answer is lost, what was added is added all the same. -/
theorem Added.lost (h : Added log call .answered r part) (exc : PyExc) :
    Added log call .answerLost (.error exc) part := by
  cases h with
  | recorded e e' _ hwants _ => exact .unacknowledged exc e rfl hwants
  | appended e _ hcall => exact .unacknowledged exc e rfl (by subst hcall; exact .refl e)
  | tail id _ _ => exact .refused exc
  | verified id _ _ => exact .refused exc
  | refused _ => exact .refused exc
  | unacknowledged _ e hlost _ => cases hlost

end

/-- An event appended over the wire carries the hash its fields ask for. -/
def AuditCall.SealedFor (H : Sha256) (hashChain : Bool) (call : AuditCall F) : Prop :=
  ∀ e, call = .append e → e.Sealed H hashChain

theorem AuditCall.Admitted.scalars {service : AuditService F} {remote : RemoteAuditStore}
    {call : AuditCall F} (h : call.Admitted service remote) (id : Str)
    (hcall : call = .lastHash id) : Scalars id := by
  subst hcall
  exact h.2.2.2

/-- One call over a network with losses. -/
theorem lossy_step {service : AuditService F} {remote : RemoteAuditStore}
    (hweb : WebFramework remote.baseUrl service) {kind : StoreKind} {hashChain : Bool}
    {log : List (AuditEvent F)} {s t : AuditStore F}
    (hs : AuditStore.Holds service.hash kind hashChain log s) (hst : AuditStore.Like s t)
    (ht : t.Legible) {call : AuditCall F} (hcall : call.Admitted service remote)
    (hseal : call.SealedFor service.hash hashChain) (delivery : Delivery) :
    ∃ part s', AuditStore.Holds service.hash kind hashChain (log ++ part) s' ∧
      AuditStore.Like s'
        (remote.perform (delivery.urlopen (service.handle call.draw)) call t).2 ∧
      (remote.perform (delivery.urlopen (service.handle call.draw)) call t).2.Legible ∧
      Added log call delivery
        (remote.perform (delivery.urlopen (service.handle call.draw)) call t).1 part := by
  obtain ⟨hmirrored, hlegible⟩ := perform_mirrored hweb hst ht hcall
  have hlocal : ∃ part, AuditStore.Holds service.hash kind hashChain (log ++ part)
        (AuditStore.perform service.hash call s).2 ∧
      Added log call .answered (AuditStore.perform service.hash call s).1 part :=
    AuditStore.perform_added hs hseal hcall.scalars rfl
  obtain ⟨part, hholds, hadded⟩ := hlocal
  have hone := oneRequest_perform remote call
  cases delivery with
  | answered => exact ⟨part, _, hholds, hmirrored.stores, hlegible, hadded.reported hmirrored.reported⟩
  | requestLost =>
    obtain ⟨exc, hlost⟩ := hone.lostRequest (service.handle call.draw) t
    rw [hlost]
    exact ⟨[], s, by rwa [List.append_nil], hst, ht, .refused exc⟩
  | answerLost =>
    obtain ⟨exc, hlost⟩ := hone.lostAnswer (service.handle call.draw) t
    rw [hlost]
    exact ⟨part, _, hholds, hmirrored.stores, hlegible, hadded.lost exc⟩

/-- A whole run, by induction on its calls. -/
theorem performLossy_added {service : AuditService F} {remote : RemoteAuditStore}
    (hweb : WebFramework remote.baseUrl service) {kind : StoreKind} {hashChain : Bool}
    {steps : List (AuditCall F × Delivery)}
    (hcalls : ∀ step ∈ steps, step.1.Admitted service remote ∧
      step.1.SealedFor service.hash hashChain) {log : List (AuditEvent F)} {s t : AuditStore F}
    (hs : AuditStore.Holds service.hash kind hashChain log s) (hst : AuditStore.Like s t)
    (ht : t.Legible) :
    ∃ parts s', AddedAll log steps (remote.performLossy service steps t).1 parts ∧
      AuditStore.Holds service.hash kind hashChain (log ++ parts.flatten) s' ∧
      AuditStore.Like s' (remote.performLossy service steps t).2 := by
  induction steps generalizing log s t with
  | nil => exact ⟨[], s, .nil log, by rwa [List.flatten_nil, List.append_nil], hst⟩
  | cons step steps ih =>
    obtain ⟨call, delivery⟩ := step
    obtain ⟨⟨hcall, hseal⟩, hrest⟩ := List.forall_mem_cons.mp hcalls
    obtain ⟨part, s₁, hholds, hlike, hlegible, hadded⟩ :=
      lossy_step hweb hs hst ht hcall hseal delivery
    obtain ⟨parts, s', hall, hholds', hlike'⟩ := ih hrest hholds hlike hlegible
    refine ⟨part :: parts, s', .cons hadded hall, ?_, hlike'⟩
    rw [List.flatten_cons, ← List.append_assoc]
    exact hholds'

/-- The events a program was told it added, in order. -/
def acknowledged : List (AuditCall F × Delivery) → List (Except PyExc (AuditAnswer F)) →
    List (AuditEvent F)
  | _ :: steps, .ok (.recorded e) :: outcomes => e :: acknowledged steps outcomes
  | (.append e, _) :: steps, .ok .appended :: outcomes => e :: acknowledged steps outcomes
  | _ :: steps, _ :: outcomes => acknowledged steps outcomes
  | _, _ => []

/-- The number of calls whose answer was lost. -/
def unanswered (steps : List (AuditCall F × Delivery)) : ℕ :=
  steps.countP fun step => step.2 = .answerLost

/-- What a call adds, against what its program is told. -/
theorem AddedAll.acknowledged {log : List (AuditEvent F)} {steps : List (AuditCall F × Delivery)}
    {outcomes : List (Except PyExc (AuditAnswer F))} {parts : List (List (AuditEvent F))}
    (h : AddedAll log steps outcomes parts) :
    List.SublistForall₂ (fun e' e => e.SameText e') (acknowledged steps outcomes) parts.flatten ∧
      parts.flatten.length ≤ (AgentRoi.acknowledged steps outcomes).length + unanswered steps := by
  induction h with
  | nil log => exact ⟨.nil, Nat.zero_le _⟩
  | @cons log part call delivery outcome steps outcomes parts hadded _ ih =>
    obtain ⟨hsub, hlength⟩ := ih
    have hmore : unanswered steps ≤ unanswered ((call, delivery) :: steps) := by
      rw [unanswered, unanswered, List.countP_cons]
      omega
    rw [List.flatten_cons, List.length_append]
    cases hadded with
    | recorded e e' _ _ he =>
      have hack : AgentRoi.acknowledged ((call, delivery) :: steps)
        (.ok (.recorded e') :: outcomes) = e' :: AgentRoi.acknowledged steps outcomes := by
        cases call <;> rfl
      rw [hack, List.length_singleton, List.length_cons]
      exact ⟨.cons he hsub, by omega⟩
    | appended e _ hcall =>
      subst hcall
      rw [AgentRoi.acknowledged, List.length_singleton, List.length_cons]
      exact ⟨.cons (.refl e) hsub, by omega⟩
    | tail id _ hcall =>
      subst hcall
      have hack : AgentRoi.acknowledged ((.lastHash id, delivery) :: steps)
        (.ok (.tail (chainTail log id)) :: outcomes) = AgentRoi.acknowledged steps outcomes := rfl
      rw [hack, List.length_nil]
      exact ⟨hsub, by omega⟩
    | verified id _ hcall =>
      subst hcall
      have hack : AgentRoi.acknowledged ((.verify id, delivery) :: steps)
        (.ok (.verified log.length) :: outcomes) = AgentRoi.acknowledged steps outcomes := rfl
      rw [hack, List.length_nil]
      exact ⟨hsub, by omega⟩
    | refused exc =>
      have hack : AgentRoi.acknowledged ((call, delivery) :: steps) (.error exc :: outcomes) =
        AgentRoi.acknowledged steps outcomes := by
        cases call <;> rfl
      rw [hack, List.length_nil]
      exact ⟨hsub, by omega⟩
    | unacknowledged exc e hlost _ =>
      -- the event that was added without an acknowledgement is paid by the lost answer
      subst hlost
      have hack : AgentRoi.acknowledged ((call, .answerLost) :: steps) (.error exc :: outcomes) =
        AgentRoi.acknowledged steps outcomes := by
        cases call <;> rfl
      have hone : unanswered ((call, .answerLost) :: steps) = unanswered steps + 1 :=
        List.countP_cons_of_pos rfl
      rw [hack, hone, List.length_singleton]
      exact ⟨.cons_right hsub, by omega⟩

/-- Over any run, whatever requests and answers are lost on the way, the store
of the service holds a log that verifies: what the calls added, in their order.
Every event a call was told it added is there, once for each time; and there
are no more others than answers were lost. -/
theorem lossy_run_added {service : AuditService F} {remote : RemoteAuditStore}
    (hweb : WebFramework remote.baseUrl service) (hashChain : Bool) (kind : StoreKind)
    {steps : List (AuditCall F × Delivery)}
    (hcalls : ∀ step ∈ steps, step.1.Admitted service remote ∧
      step.1.SealedFor service.hash hashChain) :
    ∃ (log : List (AuditEvent F)) (s : AuditStore F),
      AuditStore.Holds service.hash kind hashChain log s ∧
      AuditStore.Like s (remote.performLossy service steps (.empty F hashChain kind)).2 ∧
      (∃ parts, parts.flatten = log ∧ AddedAll [] steps
        (remote.performLossy service steps (.empty F hashChain kind)).1 parts) ∧
      List.SublistForall₂ (fun e' e => e.SameText e') (acknowledged steps
        (remote.performLossy service steps (.empty F hashChain kind)).1) log ∧
      log.length ≤ (acknowledged steps
        (remote.performLossy service steps (.empty F hashChain kind)).1).length +
          unanswered steps ∧
      ((kind = .jsonl → ∀ e ∈ log, e.correlationId ≠ []) →
        (remote.performLossy service steps (.empty F hashChain kind)).2.verify service.hash =
          .ok log.length) := by
  obtain ⟨parts, s, hall, hholds, hlike⟩ := performLossy_added hweb hcalls
    (AuditStore.holds_empty service.hash kind hashChain) (AuditStore.like_refl _)
    (AuditStore.legible_empty hashChain kind)
  obtain ⟨hsub, hlength⟩ := hall.acknowledged
  refine ⟨parts.flatten, s, hholds, hlike, ⟨parts, rfl, hall⟩, hsub, hlength, fun hcorr => ?_⟩
  rw [← AuditStore.verify_like hlike]
  exact (AuditStore.verify_holds_iff hholds).mpr hcorr

/-- A call that is answered, and one whose answer is lost. -/
def wireSteps : List (AuditCall SmallFloat × Delivery) :=
  [(.record wireRecord, .answered), (.record wireRecord, .answerLost), (.verify [], .answered)]

theorem wireSteps_admitted : ∀ step ∈ wireSteps,
    step.1.Admitted wireService wireClient ∧ step.1.SealedFor wireService.hash true := by
  have hsealed : ∀ call : AuditCall SmallFloat, (∀ e, call ≠ .append e) →
      call.SealedFor wireService.hash true := fun call hcall e he => absurd he (hcall e)
  intro step hstep
  simp only [wireSteps, List.mem_cons, List.not_mem_nil, or_false] at hstep
  rcases hstep with rfl | rfl | rfl
  · exact ⟨wireRecord_admitted, hsealed _ fun e he => by cases he⟩
  · exact ⟨wireRecord_admitted, hsealed _ fun e he => by cases he⟩
  · exact ⟨wireVerify_admitted, hsealed _ fun e he => by cases he⟩

theorem lossy_run_added_sample : ∃ (log : List (AuditEvent SmallFloat)) (s : AuditStore SmallFloat),
    AuditStore.Holds wireService.hash .inMemory true log s ∧
    AuditStore.Like s
      (wireClient.performLossy wireService wireSteps (.empty SmallFloat true .inMemory)).2 ∧
    (∃ parts, parts.flatten = log ∧ AddedAll [] wireSteps
      (wireClient.performLossy wireService wireSteps
        (.empty SmallFloat true .inMemory)).1 parts) ∧
    List.SublistForall₂ (fun e' e => e.SameText e') (acknowledged wireSteps
      (wireClient.performLossy wireService wireSteps
        (.empty SmallFloat true .inMemory)).1) log ∧
    log.length ≤ (acknowledged wireSteps
      (wireClient.performLossy wireService wireSteps
        (.empty SmallFloat true .inMemory)).1).length + unanswered wireSteps ∧
    ((StoreKind.inMemory = .jsonl → ∀ e ∈ log, e.correlationId ≠ []) →
      (wireClient.performLossy wireService wireSteps
        (.empty SmallFloat true .inMemory)).2.verify wireService.hash = .ok log.length) :=
  lossy_run_added wireService_web true .inMemory wireSteps_admitted

end AgentRoi
