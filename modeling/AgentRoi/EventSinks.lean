/-
`CloudEvent` and `CompositeEventSink` of `agent_roi.enterprise.telemetry`,
`OutboxEventSink` of `agent_roi.enterprise.outbox`, and how `SentinelRunner`
uses its event sinks.

* `CloudEvent`, `CloudEvent.toDict` — an event, and the payload it becomes;
* `OutboxEventSink.emit` — enqueues the payload under the id of the event;
* `CompositeEventSink.emit`, `SentinelRunner.emitAll` — several sinks, whose
  exceptions are recorded;
* `SinkUsage.program` — every event to every sink, in one of the three ways.
-/
import AgentRoi.OutboxConservation
import AgentRoi.OutboxWorker

namespace AgentRoi

variable {F V T : Type}

structure CloudEvent (F : Type) where
  type : Str
  source : Str
  data : List (PyKey F × PyVal F)
  subject : Str
  id : Str
  time : Str
  specversion : Str
  datacontenttype : Str

/-- `to_dict`. -/
def CloudEvent.toDict [PyFloat F] (event : CloudEvent F) : List (PyKey F × PyVal F) :=
  [(.str (lit "specversion"), .str event.specversion),
   (.str (lit "id"), .str event.id),
   (.str (lit "source"), .str event.source),
   (.str (lit "type"), .str event.type),
   (.str (lit "time"), .str event.time),
   (.str (lit "datacontenttype"), .str event.datacontenttype),
   (.str (lit "data"), .ofJson (toJsonable (.dict event.data)))] ++
  if event.subject = [] then [] else [(.str (lit "subject"), .str event.subject)]

/-- What `uuid.uuid4()` yields and the clock shows during one emission. -/
structure EmitReading where
  uuid : Str
  available : Instant
  created : Instant

/-- An entry of `event_sink_errors`. -/
structure SinkError where
  sink : Str
  error : Str
  eventType : Str

/-- `readings` are those of the emissions to come, and `failures` and
`eventSinkErrors` what a composite sink and a runner recorded. -/
structure SinkWorld (V T : Type) where
  readings : ℕ → EmitReading
  tables : OutboxTables V T
  failures : List (Str × Str)
  eventSinkErrors : List SinkError

namespace SinkWorld

def nextReading : PyM (SinkWorld V T) EmitReading := fun s =>
  (.ok (s.readings 0), { s with readings := fun n => s.readings (n + 1) })

end SinkWorld

open SinkWorld

/-- `EventSink`, with the name of its class. -/
structure EventSink (F V T : Type) where
  className : Str
  emit : CloudEvent F → PyM (SinkWorld V T) Unit

structure OutboxEventSink where
  destination : Str
  topic : Str

namespace OutboxEventSink

variable [PyFloat F]

/-- The event a sink enqueues, whose id is `str(payload.get("id") or uuid.uuid4())`. -/
def outboxEvent (sink : OutboxEventSink) (event : CloudEvent F) (reading : EmitReading) :
    Except PyExc (OutboxEvent F) :=
  let eventId := if event.id = [] then reading.uuid else event.id
  OutboxEvent.create sink.topic sink.destination event.toDict eventId eventId reading.uuid
    reading.available reading.created

def emit (backend : OutboxBackend F V T) (sink : OutboxEventSink) (event : CloudEvent F) :
    PyM (SinkWorld V T) Unit := do
  let reading ← nextReading
  let outboxEvent ← .ofExcept (sink.outboxEvent event reading)
  let _ ← .on tables (fun s t => { s with tables := t })
    (backend.perform reading.created (.enqueue outboxEvent))
  return ()

def asSink (backend : OutboxBackend F V T) (sink : OutboxEventSink) : EventSink F V T :=
  ⟨lit "OutboxEventSink", sink.emit backend⟩

end OutboxEventSink

structure CompositeEventSink (F V T : Type) where
  sinks : List (EventSink F V T)
  failClosed : Bool

namespace CompositeEventSink

/-- The error of one sink, which is recorded. -/
def attempt (event : CloudEvent F) (sink : EventSink F V T) :
    PyM (SinkWorld V T) (Option PyExc) :=
  .tryExcept (do sink.emit event; return none) fun e =>
    if e.isException then do
      let error ← .ofExcept (OutboxWorker.errorString e)
      .modify fun s => { s with failures := s.failures ++ [(sink.className, error)] }
      return some e
    else .raise e

def attemptAll (event : CloudEvent F) : List (EventSink F V T) → PyM (SinkWorld V T) (List PyExc)
  | [] => return []
  | sink :: sinks => do
    let error ← attempt event sink
    let errors ← attemptAll event sinks
    return error.toList ++ errors

def eventDeliveryError (n : ℕ) : PyExc :=
  .other (lit "EventDeliveryError") (some (natDigits n ++ lit " enterprise event sink(s) failed"))
    true

def emit (composite : CompositeEventSink F V T) (event : CloudEvent F) :
    PyM (SinkWorld V T) Unit := do
  let errors ← attemptAll event composite.sinks
  if errors ≠ [] ∧ composite.failClosed then .raise (eventDeliveryError errors.length)
  else return ()

end CompositeEventSink

namespace SentinelRunner

/-- One turn of the loop over the sinks in `_log`. -/
def emitTo (fail : Bool) (eventType : Str) (event : CloudEvent F) (sink : EventSink F V T) :
    PyM (SinkWorld V T) Unit :=
  .tryExcept (sink.emit event) fun e =>
    if e.isException then do
      let error ← .ofExcept (OutboxWorker.errorString e)
      .modify fun s => { s with
        eventSinkErrors := s.eventSinkErrors ++ [⟨sink.className, error, eventType⟩] }
      if fail then .raise e else return ()
    else .raise e

/-- `_log`, once the audit event is recorded; `fail` is `fail_on_event_sink_error`. -/
def emitAll (fail : Bool) (eventType : Str) (event : CloudEvent F) :
    List (EventSink F V T) → PyM (SinkWorld V T) Unit
  | [] => return ()
  | sink :: sinks => do
    emitTo fail eventType event sink
    emitAll fail eventType event sinks

end SentinelRunner

/-- How every event is emitted to every sink. -/
inductive SinkUsage (F : Type) where
  | direct (order : List (OutboxEventSink × CloudEvent F))
  | composite (failClosed : Bool)
  | runner (fail : Bool) (eventType : CloudEvent F → Str)

namespace SinkUsage

variable [PyFloat F]

/-- Any order of the emissions will do. -/
def Covers (sinks : List OutboxEventSink) (events : List (CloudEvent F)) : SinkUsage F → Prop
  | .direct order => order.Perm (sinks ×ˢ events)
  | .composite _ => True
  | .runner _ _ => True

def program (backend : OutboxBackend F V T) (sinks : List OutboxEventSink)
    (events : List (CloudEvent F)) : SinkUsage F → PyM (SinkWorld V T) Unit
  | .direct order => order.forM fun pair => pair.1.emit backend pair.2
  | .composite failClosed =>
    events.forM (CompositeEventSink.emit ⟨sinks.map (OutboxEventSink.asSink backend), failClosed⟩)
  | .runner fail eventType => events.forM fun event =>
    SentinelRunner.emitAll fail (eventType event) event (sinks.map (OutboxEventSink.asSink backend))

end SinkUsage

end AgentRoi
