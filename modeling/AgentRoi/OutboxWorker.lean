/-
`OutboxWorker` of `agent_roi.enterprise.outbox`: any number of workers over
one outbox store, as programs in atomic steps.

* `OutboxWorker`, `OutboxFleet` — a worker's settings, and the workers with
  their store and their circuit breakers;
* `OutboxWorker.deliver`, `OutboxWorker.runOnce` — `_deliver` and `run_once`;
* `DeliveryEvent` — what the workers do, logged newest first;
* `FleetReach` — the pools that can arise: workers start, crash and stop
  anywhere, time passes and events are enqueued.

One step is one operation of the store, one call of a breaker or one
invocation of a handler.  `W` is the state outside the package.
-/
import AgentRoi.EventTrace
import AgentRoi.OutboxConservation
import AgentRoi.Resilience

namespace AgentRoi

variable {F W V T : Type}

/-- `circuitBreakers` names the breaker objects, which workers may share. -/
structure OutboxWorker (F W : Type) where
  handlers : Str → Option (OutboxEvent F → PyM W Unit)
  workerId : Str
  retryPolicy : RetryPolicy W
  maxDeliveryAttempts : ℕ
  maxDeliveryAttempts_pos : 1 ≤ maxDeliveryAttempts
  leaseSeconds : Int
  circuitBreakers : Str → Option ℕ

/-- `database` is the failure an operation of the store may meet. -/
structure OutboxFleet (F W V T : Type) [PyFloat F] where
  backend : OutboxBackend F V T
  database : PyM W Unit
  workers : ℕ → OutboxWorker F W
  breakers : ℕ → CircuitBreaker

/-- What the workers do.  `invoked` holds what the handler raised, and
`refused` the breaker as it was. -/
inductive DeliveryEvent (F : Type) where
  | claimed (events : List (OutboxEvent F))
  | invoked (event : OutboxEvent F) (error : Option PyExc)
  | refused (event : OutboxEvent F) (breaker : BreakerMemory)
  | deadLettered (event : OutboxEvent F)

structure OutboxWorld (F W V T : Type) where
  now : Instant
  monotonic : Binary64
  outside : W
  tables : OutboxTables V T
  breakers : ℕ → BreakerMemory
  trace : List (ℕ × DeliveryEvent F)

/-- What `run_once` answers with. -/
structure RunSummary where
  claimed : ℕ
  delivered : ℕ
  retried : ℕ
  deadLettered : ℕ
  deriving DecidableEq

namespace OutboxWorld

variable {α : Type}

def log (i : ℕ) (event : DeliveryEvent F) (s : OutboxWorld F W V T) : OutboxWorld F W V T :=
  { s with trace := (i, event) :: s.trace }

def onOutside (x : PyM W α) : PyM (OutboxWorld F W V T) α :=
  .on outside (fun s w => { s with outside := w }) x

def onBreaker (b : ℕ) (x : PyM BreakerMemory α) : PyM (OutboxWorld F W V T) α :=
  .on (fun s => s.breakers b) (fun s m => { s with breakers := Function.update s.breakers b m }) x

/-- One operation of the store. -/
def transact [PyFloat F] (fleet : OutboxFleet F W V T) (op : OutboxOperation F) :
    PyM (OutboxWorld F W V T) (List (OutboxEvent F)) := do
  onOutside fleet.database
  let s ← PyM.get
  .on tables (fun s t => { s with tables := t }) (fleet.backend.perform s.now op)

end OutboxWorld

namespace OutboxWorker

open OutboxWorld

variable [PyFloat F]

/-- `handler(event)`. -/
def invoke (i : ℕ) (event : OutboxEvent F) (handler : OutboxEvent F → PyM W Unit) :
    PyM (OutboxWorld F W V T) Unit := fun s =>
  match onOutside (handler event) s with
  | (.ok u, s') => (.ok u, s'.log i (.invoked event none))
  | (.error e, s') => (.error e, s'.log i (.invoked event (some e)))

/-- `breaker.before_call()`. -/
def askBreaker (fleet : OutboxFleet F W V T) (i b : ℕ) (event : OutboxEvent F) :
    PyM (OutboxWorld F W V T) Unit := do
  let s ← PyM.get
  .tryExcept (onBreaker b ((fleet.breakers b).beforeCall s.monotonic)) fun e => do
    .modify (log i (.refused event (s.breakers b)))
    .raise e

def succeed (fleet : OutboxFleet F W V T) (b : ℕ) : PyM (OutboxWorld F W V T) Unit :=
  onBreaker b (fleet.breakers b).recordSuccess

def failed (fleet : OutboxFleet F W V T) (b : ℕ) : PyM (OutboxWorld F W V T) Unit := do
  let s ← PyM.get
  onBreaker b ((fleet.breakers b).recordFailure s.monotonic)

/-- `breaker.call(lambda: handler(event))`. -/
def guarded (fleet : OutboxFleet F W V T) (i b : ℕ) (event : OutboxEvent F)
    (handler : OutboxEvent F → PyM W Unit) : Proc (OutboxWorld F W V T) PyExc Unit := do
  .atomic (askBreaker fleet i b event)
  match ← (Proc.atomic (invoke i event handler)).attempt with
  | .ok _ => .atomic (succeed fleet b)
  | .error e => do
    .atomic (failed fleet b)
    .raise e

/-- `_deliver`. -/
def deliver (fleet : OutboxFleet F W V T) (i : ℕ) (event : OutboxEvent F) :
    Proc (OutboxWorld F W V T) PyExc Unit :=
  match (fleet.workers i).handlers event.destination with
  | none => .raise (.keyError [lit "No outbox handler registered for destination ",
      event.destination])
  | some handler =>
    match (fleet.workers i).circuitBreakers event.destination with
    | none => .atomic (invoke i event handler)
    | some b => guarded fleet i b event handler

/-- `time.sleep(policy.delay(attempt))`, which lets time pass. -/
def pause (fleet : OutboxFleet F W V T) (i attempt : ℕ) :
    Proc (OutboxWorld F W V T) PyExc Unit :=
  .atomic (onOutside do
    let _ ← (fleet.workers i).retryPolicy.delay attempt
    return ())

/-- `str(exc)`. -/
def errorString (e : PyExc) : Except PyExc Str :=
  e.text.elim (.error (.other (lit "Exception") none true)) .ok

/-- How the delivery of one event ended. -/
inductive Outcome where
  | delivered
  | retried
  | deadLettered

def RunSummary.count (summary : RunSummary) : Outcome → RunSummary
  | .delivered => { summary with delivered := summary.delivered + 1 }
  | .retried => { summary with retried := summary.retried + 1 }
  | .deadLettered => { summary with deadLettered := summary.deadLettered + 1 }

/-- `self.store.dead_letter(…)`. -/
def bury (fleet : OutboxFleet F W V T) (i : ℕ) (event : OutboxEvent F) (e : PyExc) :
    PyM (OutboxWorld F W V T) Outcome := do
  let error ← .ofExcept (errorString e)
  let _ ← transact fleet (.deadLetter event.eventId (fleet.workers i).workerId error)
  .modify (log i (.deadLettered event))
  return .deadLettered

/-- `self.store.reschedule(…)`. -/
def postpone (fleet : OutboxFleet F W V T) (i : ℕ) (event : OutboxEvent F) (e : PyExc) :
    PyM (OutboxWorld F W V T) Outcome := do
  let delay ← onOutside ((fleet.workers i).retryPolicy.delay (max 1 event.attempts))
  let error ← .ofExcept (errorString e)
  let _ ← transact fleet (.reschedule event.eventId (fleet.workers i).workerId
    (e.className ++ lit ": " ++ error) delay)
  return .retried

/-- `self.store.mark_delivered(…)`. -/
def finish (fleet : OutboxFleet F W V T) (i : ℕ) (event : OutboxEvent F) :
    PyM (OutboxWorld F W V T) Outcome := do
  let _ ← transact fleet (.markDelivered event.eventId (fleet.workers i).workerId)
  return .delivered

/-- What `run_once` does with the result of a delivery. -/
def settle (fleet : OutboxFleet F W V T) (i : ℕ) (event : OutboxEvent F) :
    Except PyExc Unit → Proc (OutboxWorld F W V T) PyExc Outcome
  | .ok _ => .atomic (finish fleet i event)
  | .error e =>
    if e.isException = false then .raise e
    else if event.attempts ≥ (fleet.workers i).maxDeliveryAttempts then
      .atomic (bury fleet i event e)
    else .atomic (postpone fleet i event e)

/-- The loop of `run_once`. -/
def deliverAll (fleet : OutboxFleet F W V T) (i : ℕ) :
    List (OutboxEvent F) → RunSummary → Proc (OutboxWorld F W V T) PyExc RunSummary
  | [], summary => pure summary
  | event :: events, summary => do
    let result ← (retryCall (fleet.workers i).retryPolicy (pause fleet i)
      (deliver fleet i event)).attempt
    let outcome ← settle fleet i event result
    deliverAll fleet i events (RunSummary.count summary outcome)

/-- `self.store.claim(…)`. -/
def take (fleet : OutboxFleet F W V T) (i : ℕ) (limit : Int) (destination : Str) :
    PyM (OutboxWorld F W V T) (List (OutboxEvent F)) := do
  let events ← transact fleet (.claim (fleet.workers i).workerId limit
    (fleet.workers i).leaseSeconds destination)
  .modify (log i (.claimed events))
  return events

def runOnce (fleet : OutboxFleet F W V T) (i : ℕ) (limit : Int) (destination : Str) :
    Proc (OutboxWorld F W V T) PyExc RunSummary := do
  let events ← .atomic (take fleet i limit destination)
  deliverAll fleet i events ⟨events.length, 0, 0, 0⟩

end OutboxWorker

/-- What happens around the workers: time passes, the world outside changes,
and events are enqueued. -/
inductive FleetEnv [PyFloat F] (fleet : OutboxFleet F W V T) :
    OutboxWorld F W V T → OutboxWorld F W V T → Prop
  | elapsed {s : OutboxWorld F W V T} (now : Instant) (monotonic : Binary64) (outside : W) :
      s.now ≤ now → FleetEnv fleet s { s with now := now, monotonic := monotonic
                                              outside := outside }
  | enqueued {s : OutboxWorld F W V T} (event : OutboxEvent F) : event.Created →
      FleetEnv fleet s { s with
        tables := (fleet.backend.perform s.now (.enqueue event) s.tables).2 }

/-- The pools that can arise from empty tables, with breakers in any state. -/
abbrev FleetReach [PyFloat F] (fleet : OutboxFleet F W V T) :
    Pool ℕ (OutboxWorld F W V T) PyExc RunSummary → Prop :=
  Pool.Reach (fun s => s.tables = .empty ∧ s.trace = [])
    (fun i p => ∃ limit destination, p = OutboxWorker.runOnce fleet i limit destination)
    (FleetEnv fleet)

end AgentRoi
