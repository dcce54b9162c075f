/-
`runtime_event` and `OpenTelemetrySink` of `agent_roi.enterprise.telemetry`.

* `runtimeEvent` — the `CloudEvent` of an event that the runner logs;
* `OpenTelemetrySink.emit` — what is measured of a `CloudEvent`;
* `recognises_iff` — an event is recognised unless its type is one of those
  that `runtime_event` rewrites and `emit` looks for in their old spelling.

The attributes of a measurement are left out.
-/
import AgentRoi.EventSinks

namespace AgentRoi

variable {F : Type}

/-! ### The event -/

/-- `event_type.replace("_", ".")`. -/
def dotted (eventType : Str) : Str := eventType.map fun c => if c = 95 then 46 else c

/-- What `_log` tells `runtime_event` beside the payload, and the id and the
time that the event draws. -/
structure RuntimeEventFields where
  source : Str
  subject : Str
  organizationId : Str
  environment : Str
  agentId : Str
  correlationId : Str
  runId : Str
  id : Str
  time : Str

/-- `{**payload, "organization_id": organization_id, …}`. -/
def runtimeData (payload : PyDict F) (fields : RuntimeEventFields) : PyDict F :=
  [(lit "organization_id", .str fields.organizationId),
    (lit "environment", .str fields.environment),
    (lit "agent_id", .str fields.agentId),
    (lit "correlation_id", .str fields.correlationId),
    (lit "run_id", .str fields.runId)].foldl (fun data p => dictInsert p.1 p.2 data) payload

/-- `f"com.agentroi.{normalized_type}"`. -/
def runtimeType (eventType : Str) : Str := lit "com.agentroi." ++ dotted eventType

/-- `runtime_event`. -/
def runtimeEvent (eventType : Str) (payload : PyDict F) (fields : RuntimeEventFields) :
    CloudEvent F where
  type := runtimeType eventType
  source := fields.source
  data := (runtimeData payload fields).map fun p => (.str p.1, p.2)
  subject := fields.subject
  id := fields.id
  time := fields.time
  specversion := lit "1.0"
  datacontenttype := lit "application/json"

/-! ### The sink -/

/-- What is added to the counters and the histograms for one event, and whether
its span is an error. -/
structure Measured (F : Type) where
  cost : Option (PyVal F)
  runDuration : Option (PyVal F)
  approvalLatency : Option (PyVal F)
  isError : Bool

/-- `value` is the number that a finite float is. -/
structure OpenTelemetrySink (F : Type) where
  value : F → ℚ

namespace OpenTelemetrySink

variable (sink : OpenTelemetrySink F)

/-- `isinstance(v, (int, float)) and v >= 0`. -/
def isAmount : PyVal F → Bool
  | .bool _ => true
  | .int i => 0 ≤ i
  | .float (.finite x) => 0 ≤ sink.value x
  | .float .inf => true
  | _ => false

/-- `data.get(key)`. -/
def dataGet (event : CloudEvent F) (key : Str) : Option (PyVal F) :=
  (event.data.find? fun p => match p.1 with
    | .str k => k = key
    | _ => false).map Prod.snd

/-- `emit`. -/
def emit (event : CloudEvent F) : Measured F :=
  let cost := (dataGet event (lit "cost_usd")).filter sink.isAmount
  let elapsed := (dataGet event (lit "elapsed_ms")).filter sink.isAmount
  let completed : Bool := lit "run_completed" <:+ event.type
  { cost := cost
    runDuration := if completed then elapsed else none
    approvalLatency := if completed then none
      else if lit "approval" <:+: event.type then elapsed else none
    isError := lit "run_failed" <:+ event.type ∨ lit "authorization_denied" <:+ event.type }

end OpenTelemetrySink

/-! ### What the sink recognises -/

/-- A nonnegative duration, as a payload shows it. -/
def HasElapsed (sink : OpenTelemetrySink F) (payload : PyDict F) : Prop :=
  ∃ value, dictGet (lit "elapsed_ms") payload = some value ∧ sink.isAmount value = true

/-- The measurements are those of an event of type `eventType` with the given
payload. -/
structure Recognises (sink : OpenTelemetrySink F) (eventType : Str) (payload : PyDict F)
    (measured : Measured F) : Prop where
  runDuration : measured.runDuration.isSome ↔
    eventType = lit "run_completed" ∧ HasElapsed sink payload
  approvalLatency : measured.approvalLatency.isSome → lit "approval" <:+: eventType
  isError : measured.isError = true ↔
    eventType = lit "run_failed" ∨ eventType = lit "authorization_denied"

theorem underscore_notMem_dotted (eventType : Str) : 95 ∉ dotted eventType := by
  intro hmem
  obtain ⟨c, -, hc⟩ := List.mem_map.mp hmem
  by_cases hunderscore : c = 95
  · rw [if_pos hunderscore] at hc
    cases hc
  · rw [if_neg hunderscore] at hc
    exact hunderscore hc

/-- No event has an underscore in its type. -/
theorem underscore_notMem_runtimeType (eventType : Str) : 95 ∉ runtimeType eventType := by
  intro hmem
  rcases List.mem_append.mp hmem with hprefix | hdotted
  · exact absurd hprefix (by decide)
  · exact underscore_notMem_dotted eventType hdotted

/-- So its type ends in no name that has one. -/
theorem not_suffix_runtimeType {name : Str} (hname : 95 ∈ name) (eventType : Str) :
    ¬name <:+ runtimeType eventType :=
  fun h => underscore_notMem_runtimeType eventType (h.subset hname)

/-- A word of letters stands in the rewritten type where it stands in the type. -/
theorem infix_of_infix_dotted {word : Str} (hdot : 46 ∉ word) {eventType : Str}
    (h : word <:+: dotted eventType) : word <:+: eventType := by
  obtain ⟨before, after, h⟩ := h
  obtain ⟨front, rest, rfl, hfront, hafter⟩ := List.map_eq_append_iff.mp h.symm
  obtain ⟨first, middle, rfl, hbefore, hmiddle⟩ := List.map_eq_append_iff.mp hfront
  have hsame : middle = word := by
    rw [← hmiddle]
    refine (List.map_congr_left fun c hc => ?_).trans (List.map_id middle) |>.symm
    have hword : (if c = 95 then 46 else c) ∈ word := by
      rw [← hmiddle]
      exact List.mem_map_of_mem hc
    split_ifs at hword ⊢ with hunderscore
    · exact absurd hword hdot
    · rfl
  rw [hsame]
  exact ⟨first, rest, rfl⟩

/-- At no place in the prefix begins the word `approval`. -/
theorem approval_ne_dotted (rest : Str) :
    ∀ n < (lit "com.agentroi.").length, ¬lit "approval" <+: (lit "com.agentroi.").drop n ++ rest := by
  have hword : lit "approval" = [97, 112, 112, 114, 111, 118, 97, 108] := by decide
  have hprefix : lit "com.agentroi." = [99, 111, 109, 46, 97, 103, 101, 110, 116, 114, 111, 105, 46] :=
    by decide
  rw [hword, hprefix]
  intro n hn
  have hlt : n < 13 := hn
  interval_cases n <;> simp [List.cons_prefix_cons]

theorem infix_of_infix_append {word rest : Str} {before : Str}
    (hnone : ∀ n < before.length, ¬word <+: before.drop n ++ rest) (h : word <:+: before ++ rest) :
    word <:+: rest := by
  induction before with
  | nil => exact h
  | cons c before ih =>
    rcases List.infix_cons_iff.mp h with hhere | hlater
    · exact absurd hhere (hnone 0 (Nat.succ_pos _))
    · exact ih (fun n hn => hnone (n + 1) (Nat.succ_lt_succ hn)) hlater

theorem approval_infix_of_runtimeType {eventType : Str}
    (h : lit "approval" <:+: runtimeType eventType) : lit "approval" <:+: eventType :=
  infix_of_infix_dotted (by decide) (infix_of_infix_append (approval_ne_dotted _) h)

/-- No event has the duration of a run. -/
theorem runDuration_runtimeEvent (sink : OpenTelemetrySink F) (eventType : Str) (data : PyDict F)
    (fields : RuntimeEventFields) :
    (sink.emit (runtimeEvent eventType data fields)).runDuration = none := by
  have hcompleted : ¬lit "run_completed" <:+ runtimeType eventType :=
    not_suffix_runtimeType (by decide) eventType
  simp [OpenTelemetrySink.emit, runtimeEvent, hcompleted]

/-- No event is an error. -/
theorem isError_runtimeEvent (sink : OpenTelemetrySink F) (eventType : Str) (data : PyDict F)
    (fields : RuntimeEventFields) :
    (sink.emit (runtimeEvent eventType data fields)).isError = false := by
  have hfailed : ¬lit "run_failed" <:+ runtimeType eventType :=
    not_suffix_runtimeType (by decide) eventType
  have hdenied : ¬lit "authorization_denied" <:+ runtimeType eventType :=
    not_suffix_runtimeType (by decide) eventType
  simp [OpenTelemetrySink.emit, runtimeEvent, hfailed, hdenied]

/-- An event is recognised exactly if its type is none of those that `emit`
looks for: of a completed run it takes no duration, and no failed run and no
denied access is an error. -/
theorem recognises_iff (sink : OpenTelemetrySink F) (eventType : Str) (payload data : PyDict F)
    (fields : RuntimeEventFields) :
    Recognises sink eventType payload (sink.emit (runtimeEvent eventType data fields)) ↔
      ¬(eventType = lit "run_completed" ∧ HasElapsed sink payload) ∧
        eventType ≠ lit "run_failed" ∧ eventType ≠ lit "authorization_denied" := by
  have hduration := runDuration_runtimeEvent sink eventType data fields
  have hspan := isError_runtimeEvent sink eventType data fields
  constructor
  · intro h
    refine ⟨fun hrun => ?_, fun hname => ?_, fun hname => ?_⟩
    · have hsome := h.runDuration.mpr hrun
      rw [hduration] at hsome
      cases hsome
    · have hset := h.isError.mpr (.inl hname)
      rw [hspan] at hset
      cases hset
    · have hset := h.isError.mpr (.inr hname)
      rw [hspan] at hset
      cases hset
  · rintro ⟨hrun, hnotFailed, hnotDenied⟩
    refine ⟨?_, ?_, ?_⟩
    · rw [hduration]
      exact iff_of_false nofun hrun
    · intro hsome
      by_cases happroval : lit "approval" <:+: runtimeType eventType
      · exact approval_infix_of_runtimeType happroval
      · simp [OpenTelemetrySink.emit, runtimeEvent, happroval] at hsome
    · rw [hspan]
      exact iff_of_false nofun (not_or.mpr ⟨hnotFailed, hnotDenied⟩)

end AgentRoi
