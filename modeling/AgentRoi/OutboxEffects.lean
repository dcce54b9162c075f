/-
`JsonHttpOutboxHandler` of `agent_roi.enterprise.outbox`, and what the outbox
does to the endpoints it posts to.

* `JsonHttpOutboxHandler` — the handler, and the requests it sends;
* `Endpoints` — endpoints that honour idempotency keys, behind a network that
  loses requests and answers;
* `PostingFleet`, `PostingReach` — any number of workers that post to them,
  and the pools that can arise;
* `call_spec` — what one call of the handler does to the endpoints.
-/
import AgentRoi.OutboxDelivery
import AgentRoi.RemoteAudit

namespace AgentRoi

open OutboxTables OutboxWorld

variable {F V T : Type}

/-! ### The handler -/

/-- A header of a request.  The last one of a name counts, in any case. -/
def HttpRequest.header (name : Str) (req : HttpRequest) : Option Str :=
  ((req.headers.filter fun h => lowerAscii h.1 = lowerAscii name).getLast?).map Prod.snd

/-- What `urlopen` comes to: a response with its status, an error the handler
knows, or another exception. -/
inductive EndpointAnswer where
  | response (status : ℕ)
  | httpError (code : ℕ) (detail : Str)
  | osError
  | raised (exc : PyExc)

/-- `headers` are those the handler was built with. -/
structure JsonHttpOutboxHandler where
  endpoint : Str
  headers : List (Str × Str)

def idempotencyKeyHeader : Str := lit "Idempotency-Key"

namespace JsonHttpOutboxHandler

/-- The headers of a request, those of the handler last. -/
def requestHeaders (handler : JsonHttpOutboxHandler) (event : OutboxEvent F) : List (Str × Str) :=
  handler.headers.foldl (fun headers h => dictInsert h.1 h.2 headers)
    [(lit "Content-Type", lit "application/json"), (lit "Accept", lit "application/json"),
      (idempotencyKeyHeader, event.idempotencyKey), (lit "X-Agent-ROI-Event-ID", event.eventId)]

/-- The configured headers are ASCII, as HTTP has it, and leave the key alone. -/
def KeepsKey (handler : JsonHttpOutboxHandler) : Prop :=
  ∀ h ∈ handler.headers, (∀ c ∈ h.1, c < 128) ∧ lowerAscii h.1 ≠ lowerAscii idempotencyKeyHeader

/-- What the handler makes of an answer. -/
def receive : EndpointAnswer → Except PyExc Unit
  | .response status =>
    if status < 200 ∨ 300 ≤ status then
      .error (.runtimeError (lit "Outbox endpoint returned HTTP " ++ natDigits status))
    else .ok ()
  | .httpError code detail => .error (.runtimeError
      (lit "Outbox endpoint returned HTTP " ++ natDigits code ++ lit ": " ++ detail))
  | .osError => .error (.runtimeError (lit "Outbox endpoint is unavailable"))
  | .raised exc => .error exc

variable [PyFloat F]

/-- The document that is sent. -/
def body (event : OutboxEvent F) : PyDict F :=
  [(lit "event_id", .str event.eventId), (lit "topic", .str event.topic),
    (lit "payload", .ofJson (.obj event.payload)), (lit "attempt", .int event.attempts)]

/-- `canonical_json(…).encode("utf-8")`. -/
def encode (event : OutboxEvent F) : Except PyExc (List UInt8) :=
  (encodeUtf8 (canonicalJson (.ofFields (body event)))).elim (.error .unicodeEncodeError) .ok

/-- `__call__`. -/
def call {W : Type} (urlopen : HttpRequest → PyM W EndpointAnswer)
    (handler : JsonHttpOutboxHandler) (event : OutboxEvent F) : PyM W Unit := do
  let data ← PyM.ofExcept (encode event)
  let answer ← urlopen ⟨lit "POST", handler.endpoint, handler.requestHeaders event, some data⟩
  .ofExcept (receive answer)

end JsonHttpOutboxHandler

/-! ### The endpoints -/

/-- A request that an endpoint put into effect. -/
structure Effect where
  key : Option Str
  body : Option (List UInt8)

/-- What becomes of a request: whether an endpoint gets and accepts it, and
what the sender gets for it.  An endpoint that answers with success has
accepted the request. -/
structure Fate where
  accepted : Bool
  answer : EndpointAnswer
  honest : ∀ status, answer = .response status → 200 ≤ status → status < 300 → accepted = true

/-- The effects at each URL, oldest first, and the fate of the next request. -/
structure Endpoints where
  effects : Str → List Effect
  fate : Fate

namespace Endpoints

/-- The endpoint knows the key. -/
def Knows (w : Endpoints) (url key : Str) : Prop := ∃ e ∈ w.effects url, e.key = some key

instance (w : Endpoints) (url key : Str) : Decidable (w.Knows url key) :=
  inferInstanceAs (Decidable (∃ e ∈ w.effects url, e.key = some key))

/-- A request that is accepted takes effect, unless it repeats another one. -/
def accept (req : HttpRequest) (w : Endpoints) : Endpoints :=
  let key := req.header idempotencyKeyHeader
  if key.any fun key => w.Knows req.url key then w
  else { w with effects := Function.update w.effects req.url
                  (w.effects req.url ++ [⟨key, req.data⟩]) }

def urlopen (req : HttpRequest) : PyM Endpoints EndpointAnswer := fun w =>
  (.ok w.fate.answer, if w.fate.accepted then w.accept req else w)

end Endpoints

/-! ### The fleet -/

/-- Workers whose handlers post to endpoints, a different one for each
destination.  The store and the clock have nothing to do with the endpoints. -/
structure PostingFleet (F V T : Type) [PyFloat F] extends OutboxFleet F Endpoints V T where
  address : Str → Str
  posts : ∀ i destination handler, (workers i).handlers destination = some handler →
    ∃ h : JsonHttpOutboxHandler, handler = h.call Endpoints.urlopen ∧
      h.endpoint = address destination ∧ h.KeepsKey
  apart : ∀ i j d d', (workers i).handlers d ≠ none → (workers j).handlers d' ≠ none →
    address d = address d' → d = d'
  database_effects : ∀ w, (database w).2.effects = w.effects
  delay_effects : ∀ i attempt w, ((workers i).retryPolicy.delay attempt w).2.effects = w.effects

variable [PyFloat F]

/-- What happens around the workers: time passes, the network and the
endpoints take their course, and events are enqueued. -/
inductive PostingEnv (fleet : PostingFleet F V T) :
    OutboxWorld F Endpoints V T → OutboxWorld F Endpoints V T → Prop
  | elapsed {s : OutboxWorld F Endpoints V T} (now : Instant) (monotonic : Binary64) (fate : Fate) :
      s.now ≤ now → PostingEnv fleet s { s with
        now := now, monotonic := monotonic, outside := { s.outside with fate := fate } }
  | enqueued {s : OutboxWorld F Endpoints V T} (event : OutboxEvent F) : event.Created →
      PostingEnv fleet s { s with
        tables := (fleet.backend.perform s.now (.enqueue event) s.tables).2 }

/-- The pools that can arise from empty tables and endpoints that saw nothing. -/
abbrev PostingReach (fleet : PostingFleet F V T) :
    Pool ℕ (OutboxWorld F Endpoints V T) PyExc RunSummary → Prop :=
  Pool.Reach (fun s => s.tables = .empty ∧ ∀ url, s.outside.effects url = [])
    (fun i p => ∃ limit destination, p = OutboxWorker.runOnce fleet.toOutboxFleet i limit destination)
    (PostingEnv fleet)

/-! ### Requests -/

section

variable {event : OutboxEvent F} {handler : JsonHttpOutboxHandler} {w w' : Endpoints}

omit [PyFloat F] in
/-- A header of another name changes no header of this one. -/
theorem filter_dictInsert {name : Str} {h : Str × Str} {headers : List (Str × Str)}
    (hne : lowerAscii h.1 ≠ lowerAscii name) :
    (dictInsert h.1 h.2 headers).filter (fun h => lowerAscii h.1 = lowerAscii name) =
      headers.filter fun h => lowerAscii h.1 = lowerAscii name := by
  induction headers with
  | nil => simp [dictInsert, hne]
  | cons p headers ih =>
    rw [dictInsert]
    split_ifs with hp
    · have hpne : lowerAscii p.1 ≠ lowerAscii name := hp ▸ hne
      simp [hne, hpne]
    · rw [List.filter_cons, List.filter_cons, ih]

omit [PyFloat F] in
/-- The key that is sent is the key of the event. -/
theorem header_requestHeaders (hkeeps : handler.KeepsKey) {method url : Str}
    {data : Option (List UInt8)} :
    (⟨method, url, handler.requestHeaders event, data⟩ : HttpRequest).header idempotencyKeyHeader =
      some event.idempotencyKey := by
  have hfold : ∀ (extra base : List (Str × Str)),
      (∀ h ∈ extra, lowerAscii h.1 ≠ lowerAscii idempotencyKeyHeader) →
      (extra.foldl (fun headers h => dictInsert h.1 h.2 headers) base).filter
          (fun h => lowerAscii h.1 = lowerAscii idempotencyKeyHeader) =
        base.filter fun h => lowerAscii h.1 = lowerAscii idempotencyKeyHeader := by
    intro extra
    induction extra with
    | nil => exact fun base _ => rfl
    | cons h extra ih =>
      intro base hextra
      obtain ⟨hfirst, hrest⟩ := List.forall_mem_cons.mp hextra
      rw [List.foldl_cons, ih _ hrest, filter_dictInsert hfirst]
  rw [HttpRequest.header, JsonHttpOutboxHandler.requestHeaders,
    hfold _ _ fun h hh => (hkeeps h hh).2]
  rfl

/-- What a call of the handler does to the endpoints, and when it returns. -/
theorem call_spec (hkeeps : handler.KeepsKey) {r : Except PyExc Unit}
    (h : handler.call Endpoints.urlopen event w = (r, w')) :
    (w'.effects = w.effects ∨ ∃ data, JsonHttpOutboxHandler.encode event = .ok data ∧
      ¬ w.Knows handler.endpoint event.idempotencyKey ∧
      w'.effects = Function.update w.effects handler.endpoint
        (w.effects handler.endpoint ++ [⟨some event.idempotencyKey, some data⟩])) ∧
    (r = .ok () → w'.Knows handler.endpoint event.idempotencyKey) := by
  cases hencode : JsonHttpOutboxHandler.encode event with
  | error e =>
    rw [JsonHttpOutboxHandler.call, hencode, PyM.bind_of_error (PyM.ofExcept_apply _ _)] at h
    cases h
    exact ⟨.inl rfl, fun hr => by cases hr⟩
  | ok data =>
    rw [JsonHttpOutboxHandler.call, hencode, PyM.bind_of_ok (PyM.ofExcept_apply _ _)] at h
    have hopen : Endpoints.urlopen ⟨lit "POST", handler.endpoint, handler.requestHeaders event,
        some data⟩ w = (.ok w.fate.answer, if w.fate.accepted then
          w.accept ⟨lit "POST", handler.endpoint, handler.requestHeaders event, some data⟩
          else w) := rfl
    rw [PyM.bind_of_ok hopen, PyM.ofExcept_apply] at h
    cases h
    by_cases haccepted : w.fate.accepted = true
    · rw [if_pos haccepted, Endpoints.accept, header_requestHeaders hkeeps]
      by_cases hknows : w.Knows handler.endpoint event.idempotencyKey
      · have hany : ((some event.idempotencyKey).any fun key =>
            decide (w.Knows handler.endpoint key)) = true := decide_eq_true hknows
        rw [if_pos hany]
        exact ⟨.inl rfl, fun _ => hknows⟩
      · have hany : ((some event.idempotencyKey).any fun key =>
            decide (w.Knows handler.endpoint key)) ≠ true := by
          simpa using hknows
        rw [if_neg hany]
        refine ⟨.inr ⟨data, rfl, hknows, rfl⟩, fun _ => ?_⟩
        refine ⟨⟨some event.idempotencyKey, some data⟩, ?_, rfl⟩
        show _ ∈ Function.update w.effects handler.endpoint _ handler.endpoint
        rw [Function.update_self]
        exact List.mem_append_right _ List.mem_cons_self
    · rw [if_neg haccepted]
      refine ⟨.inl rfl, fun hr => ?_⟩
      -- an endpoint that did not accept has not answered with success
      exfalso
      cases hanswer : w.fate.answer with
      | response status =>
        rw [hanswer, JsonHttpOutboxHandler.receive] at hr
        split_ifs at hr with hstatus
        exact haccepted (w.fate.honest status hanswer (by omega) (by omega))
      | httpError code detail =>
        rw [hanswer] at hr
        cases hr
      | osError =>
        rw [hanswer] at hr
        cases hr
      | raised exc =>
        rw [hanswer] at hr
        cases hr

end

end AgentRoi
