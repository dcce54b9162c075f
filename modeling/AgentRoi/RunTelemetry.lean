/-
What an `OpenTelemetrySink` measures of a run.

* `recognised_iff` — an event of a run is recognised exactly if it is no end of
  a run with a duration, no failure of a run and no denial.
-/
import AgentRoi.RunnerEnds

namespace AgentRoi

open ContextState RunnerJournal SentinelRunner

variable {F W C α β : Type} [PyFloat F] [DecidableEq C] {runner : SentinelRunner F W C}
  {fresh : FreshRun} {input : PyVal F} {call : Proc (RunPool F W C) PyExc (SentinelResult F)}
  {breakers : ℕ → BreakerMemory} {stores : ℕ → IdempotencyStore F} {outside : W}
  {ended pool : RunPool F W C} {r : Except PyExc (SentinelResult F)}

/-! ### Recognised events -/

/-- An event of a run is recognised exactly if it is no end of a run with a
duration, no failure of a run and no denial. -/
theorem recognised_iff (h : StartsRun runner fresh input call)
    (hrun : call.run (newPool breakers stores outside) = (r, ended))
    (hlater : Later runner fresh ended pool) (sink : OpenTelemetrySink F) {entry : LogEntry F}
    (hentry : entry ∈ pool.state.journal.entries) {event : CloudEvent F}
    (hevent : entry.published = some event) :
    Recognises sink entry.eventType entry.payload (sink.emit event) ↔
      ¬(entry.eventType = lit "run_completed" ∧ HasElapsed sink entry.payload) ∧
        entry.eventType ≠ lit "run_failed" ∧ entry.eventType ≠ lit "authorization_denied" := by
  obtain ⟨new, given, hextends⟩ := h.extends_later hrun hlater
  rw [hextends.entries, List.append_nil] at hentry
  obtain ⟨safe, audit, drawn, -, -, rfl⟩ := (hextends.logged entry hentry).1.published event hevent
  exact recognises_iff sink entry.eventType entry.payload _ _

/-- A sink that takes every event. -/
def openSink : RunnerSink Half Unit := ⟨lit "Sink", fun _ => pure ()⟩

/-- A runner with a sink. -/
def heardRunner : SentinelRunner Half Unit Bool := { bareRunner with eventSinks := [openSink] }

/-- The number of a half. -/
def halfTelemetry : OpenTelemetrySink Half := ⟨fun _ => 1 / 2⟩

theorem published_idleRun : ∀ eventType ∈ [lit "run_started", lit "run_completed"],
    ∃ entry ∈ (idleRun heardRunner).2.state.journal.entries,
      entry.eventType = eventType ∧ entry.published.isSome = true ∧
        (dictGet (lit "elapsed_ms") entry.payload).any halfTelemetry.isAmount =
          decide (eventType = lit "run_completed") := by decide +kernel

/-- The start of a run is recognised. -/
theorem recognised_run_started : ∃ entry ∈ (idleRun heardRunner).2.state.journal.entries,
    ∃ event, entry.published = some event ∧ entry.eventType = lit "run_started" ∧
      Recognises halfTelemetry entry.eventType entry.payload (halfTelemetry.emit event) := by
  obtain ⟨entry, hentry, htype, hpublished, -⟩ := published_idleRun (lit "run_started") (by decide)
  obtain ⟨event, hevent⟩ := Option.isSome_iff_exists.mp hpublished
  refine ⟨entry, hentry, event, hevent, htype, ?_⟩
  refine (recognised_iff (startsRun_idle heardRunner) (run_idleAgent heardRunner) .refl
    halfTelemetry hentry hevent).mpr ?_
  rw [htype]
  exact ⟨fun hboth => absurd hboth.1 (by decide), by decide, by decide⟩

/-- The end of a run is not. -/
theorem unrecognised_run_completed : ∃ entry ∈ (idleRun heardRunner).2.state.journal.entries,
    ∃ event, entry.published = some event ∧ entry.eventType = lit "run_completed" ∧
      HasElapsed halfTelemetry entry.payload ∧ (halfTelemetry.emit event).runDuration = none ∧
      ¬Recognises halfTelemetry entry.eventType entry.payload (halfTelemetry.emit event) := by
  obtain ⟨entry, hentry, htype, hpublished, helapsed⟩ :=
    published_idleRun (lit "run_completed") (by decide)
  obtain ⟨event, hevent⟩ := Option.isSome_iff_exists.mp hpublished
  have hhas : HasElapsed halfTelemetry entry.payload :=
    (Option.any_eq_true _ _).mp (helapsed.trans (decide_eq_true rfl))
  have hduration : (halfTelemetry.emit event).runDuration = none := by
    obtain ⟨new, given, hextends⟩ :=
      (startsRun_idle heardRunner).extends_later (run_idleAgent heardRunner) .refl
    rw [hextends.entries, List.append_nil] at hentry
    obtain ⟨safe, audit, drawn, -, -, rfl⟩ := (hextends.logged entry hentry).1.published event hevent
    exact runDuration_runtimeEvent _ _ _ _
  refine ⟨entry, hentry, event, hevent, htype, hhas, hduration, fun h => ?_⟩
  have hsome := h.runDuration.mpr ⟨htype, hhas⟩
  rw [hduration] at hsome
  cases hsome

end AgentRoi
