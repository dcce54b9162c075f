/-
What the audit events of a run, and the events for its sinks, show.

* `auditJson` — an audit event as JSON;
* `LogEntry.Shows` — what the events of an entry show is masked;
  `LogEntry.Covered` — no part of its payload leaks, and no field of the events
  themselves has a blocked key;
* `shows_iff` — the one holds exactly if the other does;
* `Discreet` — a runner of which no payload leaks;
* `redacted_iff` — both, for the entries of whole runs.
-/
import AgentRoi.RunnerEnds

namespace AgentRoi

open ContextState RunnerJournal SentinelRunner

variable {F W C J α β : Type}

/-! ### Masked JSON -/

namespace Redactor

variable {r : Redactor F}

/-- The order of the keys does not matter. -/
theorem masked_sortKeys (j : Json F) : r.Masked j.sortKeys ↔ r.Masked j := by
  have hmask : ∀ j : Json F, j.sortKeys = .str (lit "[REDACTED]") ↔ j = .str (lit "[REDACTED]") := by
    intro j
    cases j with
    | arr xs => simp [Json.sortKeys]
    | obj kvs => simp [Json.sortKeys]
    | _ => rfl
  induction j using Json.induct with
  | arr xs ih =>
    rw [Json.sortKeys_arr, masked_arr, masked_arr, List.forall_mem_map]
    exact forall₂_congr ih
  | obj kvs ih =>
    rw [Json.sortKeys_obj, masked_obj, masked_obj, List.forall_mem_map]
    simp only [mem_sortByKey, hmask]
    exact forall₂_congr fun p hp => and_congr_right fun _ => ih p hp
  | _ => rfl

variable [PyFloat F]

/-- What an event keeps of a payload shows what the payload shows. -/
theorem masked_safePayload (items : List (PyKey F × PyVal F)) :
    r.Masked (toJsonable (.dict (safePayload (.dict items)))) ↔
      r.Masked (toJsonable (.dict items)) := by
  have hclean := toJsonable_clean (PyVal.dict items)
  rw [toJsonable] at hclean
  have hback : toJsonable (.dict (safePayload (.dict items))) = (toJsonable (.dict items)).sortKeys := by
    rw [safePayload, toJsonable]
    have hjson := toJsonable_ofJson hclean.distinct
    rwa [hclean.nameFloats, PyVal.ofJson] at hjson
  rw [hback, masked_sortKeys]

theorem masked_fields {fields : PyDict F} (hnodup : (fields.map Prod.fst).Nodup) :
    r.Masked (toJsonable (.dict (dictItems fields))) ↔ ∀ p ∈ fields,
      (r.blocks p.1 = true → toJsonable p.2 = .str (lit "[REDACTED]")) ∧
        r.Masked (toJsonable p.2) := by
  rw [toJsonable_dict, members_dictItems hnodup, masked_obj, List.forall_mem_map]
  simp only [mem_sortByKey]

/-- An audit event as JSON. -/
def auditJson (event : AuditEvent F) : Json F := toJsonable (.ofFields event.toDict)

theorem masked_ofOptStr (text : Option Str) : r.Masked (toJsonable (.ofOptStr text)) := by
  cases text with
  | none => exact nofun
  | some text => exact masked_str text

/-- What an audit event shows: its own fields, and its payload. -/
theorem masked_auditJson (event : AuditEvent F) :
    r.Masked (auditJson event) ↔
      (∀ p ∈ event.toDict, r.blocks p.1 = true → toJsonable p.2 = .str (lit "[REDACTED]")) ∧
        r.Masked (toJsonable (.dict event.payload)) := by
  have hfields : (∀ p ∈ event.toDict, r.Masked (toJsonable p.2)) ↔
      r.Masked (toJsonable (.dict event.payload)) := by
    simp only [AuditEvent.toDict, AuditEvent.baseDict, List.cons_append, List.nil_append,
      List.forall_mem_cons]
    have hnone : ∀ p ∈ ([] : PyDict F), r.Masked (toJsonable p.2) := List.forall_mem_nil _
    have htime : r.Masked (toJsonable (.int event.tsEpochMs)) := by
      intro key value h
      cases h
    constructor
    · exact fun h => h.2.2.2.2.2.1
    · exact fun h => ⟨masked_str _, masked_str _, masked_str _, htime, masked_str _, h,
        masked_ofOptStr _, masked_ofOptStr _, hnone⟩
  rw [← hfields]
  refine (masked_fields event.nodup_keys_toDict).trans ?_
  exact ⟨fun h => ⟨fun p hp => (h p hp).1, fun p hp => (h p hp).2⟩,
    fun h p hp => ⟨h.1 p hp, h.2 p hp⟩⟩

/-! ### Values that do not leak -/

theorem not_leaks_of_masked {v : PyVal F} (h : enters v = false) (hmasked : r.Masked (toJsonable v)) :
    ¬r.Leaks v := by
  intro hleaks
  cases hleaks with
  | kept _ hnot => exact hnot hmasked
  | dict | list | tuple | set => cases h

@[simp] theorem not_leaks_str (s : Str) : ¬r.Leaks (.str s) :=
  not_leaks_of_masked rfl (masked_str s)

@[simp] theorem not_leaks_int (i : Int) : ¬r.Leaks (.int i) :=
  not_leaks_of_masked rfl nofun

@[simp] theorem not_leaks_bool (b : Bool) : ¬r.Leaks (.bool b) :=
  not_leaks_of_masked rfl nofun

@[simp] theorem not_leaks_none : ¬r.Leaks (.none : PyVal F) :=
  not_leaks_of_masked rfl nofun

@[simp] theorem not_leaks_float (x : FloatVal F) : ¬r.Leaks (.float x) := by
  refine not_leaks_of_masked rfl ?_
  cases x with
  | finite x => exact nofun
  | nan => exact masked_str _
  | inf => exact masked_str _
  | negInf => exact masked_str _

/-- A dictionary leaks only what one of its values leaks. -/
theorem not_leaks_dict {items : List (PyKey F × PyVal F)} (h : ∀ p ∈ items, ¬r.Leaks p.2) :
    ¬r.Leaks (.dict items) := by
  rw [leaks_dict]
  rintro ⟨p, hp, -, hleaks⟩
  obtain ⟨q, hq, -, hvalue⟩ := mem_of_mem_members hp
  exact h q hq (hvalue ▸ hleaks)

theorem not_leaks_ofFields {fields : PyDict F} (h : ∀ p ∈ fields, ¬r.Leaks p.2) :
    ¬r.Leaks (.ofFields fields) :=
  not_leaks_dict (List.forall_mem_map.mpr h)

end Redactor

/-! ### Entries -/

/-- The names that are added to the data of an event for the sinks. -/
def runtimeNames : List Str :=
  [lit "organization_id", lit "environment", lit "agent_id", lit "correlation_id", lit "run_id",
    lit "audit_event_id"]

/-- The names of the fields of an audit event. -/
def auditNames : List Str :=
  [lit "event_id", lit "correlation_id", lit "run_id", lit "ts_epoch_ms", lit "event_type",
    lit "payload", lit "prev_hash", lit "hash"]

theorem nodup_runtimeData {data : PyDict F} (h : (data.map Prod.fst).Nodup)
    (fields : RuntimeEventFields) : ((runtimeData data fields).map Prod.fst).Nodup := by
  simp only [runtimeData, List.foldl_cons, List.foldl_nil]
  exact nodup_keys_dictInsert (nodup_keys_dictInsert (nodup_keys_dictInsert
    (nodup_keys_dictInsert (nodup_keys_dictInsert h))))

/-- What stands in the data was added or stood there. -/
theorem mem_runtimeData {data : PyDict F} {fields : RuntimeEventFields} {eventId : Str}
    {p : Str × PyVal F}
    (h : p ∈ runtimeData (dictInsert (lit "audit_event_id") (.str eventId) data) fields) :
    (p.1 ∈ runtimeNames ∧ ∃ text, p.2 = .str text) ∨ p ∈ data := by
  have hname : ∀ {name text : Str} {d : PyDict F}, name ∈ runtimeNames →
      p ∈ dictInsert name (.str text) d →
      (p.1 ∈ runtimeNames ∧ ∃ text, p.2 = .str text) ∨ p ∈ d := by
    intro name text d hmem hp
    rcases mem_dictInsert hp with rfl | hp
    · exact .inl ⟨hmem, text, rfl⟩
    · exact .inr hp
  simp only [runtimeData, List.foldl_cons, List.foldl_nil] at h
  refine (hname (by decide) h).elim .inl fun h => ?_
  refine (hname (by decide) h).elim .inl fun h => ?_
  refine (hname (by decide) h).elim .inl fun h => ?_
  refine (hname (by decide) h).elim .inl fun h => ?_
  exact (hname (by decide) h).elim .inl fun h => hname (by decide) h

namespace LogEntry

variable [PyFloat F] {entry : LogEntry F} {runner : SentinelRunner F W C} {fresh : FreshRun}

/-- All that the events of the entry show is masked. -/
structure IsMasked (r : Redactor F) (entry : LogEntry F) : Prop where
  recorded : ∀ event, entry.recorded = some event → r.Masked (Redactor.auditJson event)
  published : ∀ event, entry.published = some event → r.Masked (toJsonable (.dict event.data))

/-- No part of the payload leaks, and no field of the events themselves shows
what a blocked key stands for. -/
structure Covered (r : Redactor F) (entry : LogEntry F) : Prop where
  payload : entry.recorded.isSome = true → ¬r.Leaks (.dict (dictItems entry.payload))
  event : ∀ event, entry.recorded = some event → ∀ p ∈ event.toDict, r.blocks p.1 = true →
    toJsonable p.2 = .str (lit "[REDACTED]")
  data : ∀ event, entry.published = some event → ∀ p ∈ event.data, p.1.text ∈ runtimeNames →
    r.blocks p.1.text = true → toJsonable p.2 = .str (lit "[REDACTED]")

omit [PyFloat F] in
theorem nodup_of_map_eq {fields safe : PyDict F} {f : Str → PyVal F → PyVal F}
    (hsafe : safe = fields.map fun p => (p.1, f p.1 p.2)) (h : (fields.map Prod.fst).Nodup) :
    (safe.map Prod.fst).Nodup := by
  rw [hsafe, List.map_map]
  exact h

/-- The redacted payload is masked exactly if nothing leaks. -/
theorem masked_redactFields {r : Redactor F} {payload safe : PyDict F}
    (h : r.redactFields payload = .ok safe) :
    r.Masked (toJsonable (.dict (dictItems safe))) ↔ ¬r.Leaks (.dict (dictItems payload)) := by
  refine Redactor.masked_redact_iff _ _ ?_
  rw [Redactor.redact, redactItems_dictItems h]
  rfl

theorem isMasked_iff (hlogged : runner.Logged fresh entry)
    (hnodup : (entry.payload.map Prod.fst).Nodup) :
    entry.IsMasked runner.redactor ↔ entry.Covered runner.redactor := by
  have hrecorded : ∀ event, entry.recorded = some event →
      (runner.redactor.Masked (toJsonable (.dict event.payload)) ↔
        ¬runner.redactor.Leaks (.dict (dictItems entry.payload))) := by
    intro event hevent
    obtain ⟨safe, hsafe, -, -, -, hmade⟩ := hlogged.recorded event hevent
    rw [hmade, Redactor.masked_safePayload, masked_redactFields hsafe]
  -- the data of an event for the sinks, as fields
  have hpublished : ∀ event, entry.published = some event → ∃ (safe data : PyDict F)
      (eventId : Str) (fields : RuntimeEventFields),
      runner.redactor.redactFields entry.payload = .ok safe ∧ entry.recorded.isSome = true ∧
      data = runtimeData (dictInsert (lit "audit_event_id") (.str eventId) safe) fields ∧
      (data.map Prod.fst).Nodup ∧ event.data = dictItems data := by
    intro event hevent
    obtain ⟨safe, audit, drawn, hsafe, haudit, rfl⟩ := hlogged.published event hevent
    refine ⟨safe, _, audit.eventId, _, hsafe, Option.isSome_iff_exists.mpr ⟨audit, haudit⟩, rfl,
      nodup_runtimeData (nodup_keys_dictInsert ?_) _, rfl⟩
    exact nodup_of_map_eq (redactFields_eq_ok hsafe) hnodup
  constructor
  · intro h
    refine ⟨fun hsome => ?_, fun event hevent => ?_, fun event hevent p hp _ hblocks => ?_⟩
    · obtain ⟨event, hevent⟩ := Option.isSome_iff_exists.mp hsome
      exact (hrecorded event hevent).mp
        ((Redactor.masked_auditJson event).mp (h.recorded event hevent)).2
    · exact ((Redactor.masked_auditJson event).mp (h.recorded event hevent)).1
    · obtain ⟨safe, data, eventId, fields, -, -, -, hkeys, hdata⟩ := hpublished event hevent
      have hmasked := h.published event hevent
      rw [hdata, Redactor.masked_fields hkeys] at hmasked
      rw [hdata] at hp
      obtain ⟨q, hq, rfl⟩ := List.mem_map.mp hp
      exact (hmasked q hq).1 hblocks
  · intro h
    refine ⟨fun event hevent => ?_, fun event hevent => ?_⟩
    · refine (Redactor.masked_auditJson event).mpr ⟨h.event event hevent, ?_⟩
      exact (hrecorded event hevent).mpr (h.payload (Option.isSome_iff_exists.mpr ⟨event, hevent⟩))
    · obtain ⟨safe, data, eventId, fields, hsafe, hsome, hruntime, hkeys, hdata⟩ :=
        hpublished event hevent
      have hfields := (masked_redactFields hsafe).mpr (h.payload hsome)
      rw [Redactor.masked_fields (nodup_of_map_eq (redactFields_eq_ok hsafe) hnodup)] at hfields
      rw [hdata, Redactor.masked_fields hkeys]
      intro q hq
      rcases mem_runtimeData (hruntime ▸ hq) with ⟨hname, text, htext⟩ | hmem
      · have hp : (PyKey.str q.1, q.2) ∈ event.data := by
          rw [hdata]
          exact List.mem_map_of_mem hq
        refine ⟨h.data event hevent _ hp hname, ?_⟩
        rw [htext]
        exact Redactor.masked_str text
      · exact hfields q hmem

end LogEntry

/-! ### Payloads that do not leak -/

section Payloads

variable [PyFloat F] {runner : SentinelRunner F W C} {fresh : FreshRun} {eventType : Str}
  {payload : PyDict F}

open ContextConfig

theorem nodup_of_contextPayload (h : (runner.newContext fresh).ContextPayload eventType payload) :
    (payload.map Prod.fst).Nodup := by
  cases h with
  | decision =>
    simp only [accessContext, List.cons_append, List.nil_append, List.map_cons, List.map_nil]
    decide
  | missingPrincipal =>
    simp only [List.map_cons, List.map_nil]
    decide
  | granted h =>
    rcases h with rfl | ⟨text, rfl⟩
    · simp only [grantedFields, List.append_nil, List.map_cons, List.map_nil]
      decide
    · simp only [grantedFields, List.cons_append, List.nil_append, List.map_cons, List.map_nil]
      decide
  | required =>
    simp only [checkpointFields, List.map_cons, List.map_nil]
    decide
  | @tool _ _ _ _ _ _ eventBase detail hbase hdetail =>
    have hbaseKeys : eventBase.map Prod.fst = [lit "tool_name", lit "tool_version", lit "risk",
        lit "requires_approval", lit "cost_usd", lit "arguments_digest", lit "action_digest",
        lit "handler", lit "principal_subject", lit "organization_id", lit "environment",
        lit "agent_id", lit "retry_max_attempts", lit "circuit_breaker", lit "idempotent"] := by
      obtain ⟨argumentsDigest, -, hbase⟩ := except_bind_eq_ok.mp hbase
      obtain rfl := Except.ok.inj hbase
      rfl
    rw [List.map_append, hbaseKeys]
    cases hdetail with
    | requested | authorized | started =>
      rw [List.map_nil, List.append_nil]
      decide
    | failed | completed =>
      simp only [List.map_cons, List.map_nil]
      decide

theorem nodup_of_runnerPayload (h : RunnerPayload runner fresh eventType payload) :
    (payload.map Prod.fst).Nodup := by
  cases h with
  | started hshown =>
    rcases hshown with rfl | ⟨text, rfl⟩
    · simp only [startedPayload, List.append_nil, List.map_cons, List.map_nil]
      decide
    · simp only [startedPayload, List.cons_append, List.nil_append, List.map_cons, List.map_nil]
      decide
  | output hshown =>
    rcases hshown with rfl | ⟨text, rfl⟩
    · simp only [outputPayload, List.append_nil, List.map_cons, List.map_nil]
      decide
    · simp only [outputPayload, List.cons_append, List.nil_append, List.map_cons, List.map_nil]
      decide
  | decided =>
    simp only [decidedPayload, List.map_cons, List.map_nil]
    decide
  | awaited =>
    simp only [awaitedPayload, List.map_cons, List.map_nil]
    decide
  | failed =>
    simp only [failedPayload, List.map_cons, List.map_nil]
    decide
  | completed =>
    simp only [completedPayload, List.map_cons, List.map_nil]
    decide

/-- The values that a runner is given leak nothing, and none of the names that
the events have themselves is blocked. -/
structure SentinelRunner.Discreet (runner : SentinelRunner F W C) : Prop where
  metadata : ∀ p ∈ runner.metadata, ¬runner.redactor.Leaks p.2
  principal : ∀ principal, runner.principal = some principal →
    ¬runner.redactor.Leaks principal.subject
  module : ∀ fn, ¬runner.redactor.Leaks (runner.callables.module fn)
  qualname : ∀ fn, ¬runner.redactor.Leaks (runner.callables.qualname fn)
  auditNames : ∀ name ∈ auditNames, runner.redactor.blocks name = false
  runtimeNames : ∀ name ∈ runtimeNames, runner.redactor.blocks name = false

variable (hdiscreet : runner.Discreet)

include hdiscreet

theorem not_leaks_principalSubject :
    ¬runner.redactor.Leaks (runner.newContext fresh).principalSubject := by
  show ¬runner.redactor.Leaks (runner.principal.elim (.str []) PrincipalRef.subject)
  cases hprincipal : runner.principal with
  | none => exact Redactor.not_leaks_str []
  | some principal => exact hdiscreet.principal principal hprincipal

theorem not_leaks_contextMetadata : ¬runner.redactor.Leaks (.dict runner.contextMetadata) := by
  refine Redactor.not_leaks_dict (List.forall_mem_cons.mpr ⟨?_, fun p hp => ?_⟩)
  · show ¬runner.redactor.Leaks (((runner.metadata.find? _).map Prod.snd).getD _)
    cases hfind : runner.metadata.find? fun p => SentinelRunner.isName p.1 with
    | none => exact Redactor.not_leaks_str _
    | some p => exact hdiscreet.metadata p (List.mem_of_find?_eq_some hfind)
  · exact hdiscreet.metadata p (List.mem_filter.mp hp).1

theorem not_leaks_snapshot (s : ContextState F W C (RunnerJournal F)) :
    ¬runner.redactor.Leaks (.ofFields ((runner.newContext fresh).snapshot s)) := by
  refine Redactor.not_leaks_ofFields ?_
  have hstate : ¬runner.redactor.Leaks (.ofFields [
      (lit "steps", .int s.steps), (lit "tool_calls", .int s.toolCalls),
      (lit "cost_usd", .float ((runner.newContext fresh).costFloat s.costUsd))]) := by
    refine Redactor.not_leaks_ofFields ?_
    simp
  have hmetadata : ¬runner.redactor.Leaks (.dict (runner.newContext fresh).metadata) :=
    not_leaks_contextMetadata hdiscreet
  simp [snapshot, hstate, hmetadata, not_leaks_principalSubject hdiscreet]

theorem not_leaks_contextPayload (h : (runner.newContext fresh).ContextPayload eventType payload) :
    ∀ p ∈ payload, ¬runner.redactor.Leaks p.2 := by
  have hprincipal : ¬runner.redactor.Leaks (runner.newContext fresh).principalSubject :=
    not_leaks_principalSubject hdiscreet
  cases h with
  | decision => simp [accessContext, hprincipal]
  | missingPrincipal => simp
  | granted h =>
    rcases h with rfl | ⟨text, rfl⟩
    · simp [grantedFields]
    · simp [grantedFields]
  | required => simp [checkpointFields, hprincipal]
  | @tool _ _ tool _ _ checkpoint eventBase detail hbase hdetail =>
    have hcallable : ¬runner.redactor.Leaks ((runner.newContext fresh).callableIdentity tool.handler) := by
      refine Redactor.not_leaks_ofFields ?_
      have hmodule := hdiscreet.module tool.handler
      have hqualname := hdiscreet.qualname tool.handler
      exact List.forall_mem_cons.mpr ⟨hmodule, List.forall_mem_singleton.mpr hqualname⟩
    have hdigest : ¬runner.redactor.Leaks
        (checkpoint.elim PyVal.none fun cp => PyVal.str cp.actionDigest) := by
      cases checkpoint with
      | none => exact Redactor.not_leaks_none
      | some cp => exact Redactor.not_leaks_str _
    have hall : ∀ p ∈ eventBase, ¬runner.redactor.Leaks p.2 := by
      obtain ⟨argumentsDigest, -, hbase⟩ := except_bind_eq_ok.mp hbase
      obtain rfl := Except.ok.inj hbase
      simp [hprincipal, hcallable, hdigest]
    refine List.forall_mem_append.mpr ⟨hall, ?_⟩
    cases hdetail with
    | requested | authorized | started => exact List.forall_mem_nil _
    | failed | completed => simp

theorem not_leaks_runnerPayload (h : RunnerPayload runner fresh eventType payload) :
    ∀ p ∈ payload, ¬runner.redactor.Leaks p.2 := by
  have hprincipal : ¬runner.redactor.Leaks (runner.newContext fresh).principalSubject :=
    not_leaks_principalSubject hdiscreet
  have hsnapshot : ∀ s, ¬runner.redactor.Leaks (.ofFields ((runner.newContext fresh).snapshot s)) :=
    not_leaks_snapshot hdiscreet
  cases h with
  | started hshown =>
    rcases hshown with rfl | ⟨text, rfl⟩
    · simp [startedPayload, hprincipal, hsnapshot]
    · simp [startedPayload, hprincipal, hsnapshot]
  | output hshown =>
    rcases hshown with rfl | ⟨text, rfl⟩
    · simp [outputPayload]
    · simp [outputPayload]
  | decided =>
    have hsignal : ∀ signal, ¬runner.redactor.Leaks (runner.shownSignal signal) := by
      intro signal
      unfold shownSignal
      split <;> simp
    have hinputs : ∀ inputs, ¬runner.redactor.Leaks (runner.shownInputs inputs) := by
      intro inputs
      refine Redactor.not_leaks_ofFields ?_
      simp [hsignal]
    simp [decidedPayload, hinputs]
  | awaited => simp [awaitedPayload]
  | failed => simp [failedPayload, hsnapshot]
  | completed => simp [completedPayload, hsnapshot]

/-- Every entry of a run of a discreet runner is covered. -/
theorem covered_of_discreet {entry : LogEntry F}
    (hpayload : RunPayload runner fresh entry.eventType entry.payload) :
    entry.Covered runner.redactor := by
  have hvalues : ∀ p ∈ entry.payload, ¬runner.redactor.Leaks p.2 :=
    hpayload.elim (not_leaks_contextPayload hdiscreet) (not_leaks_runnerPayload hdiscreet)
  refine ⟨fun _ => ?_, fun event _ p hp hblocks => ?_, fun event _ p _ hname hblocks => ?_⟩
  · exact Redactor.not_leaks_dict (List.forall_mem_map.mpr hvalues)
  · rw [hdiscreet.auditNames p.1 (List.mem_map_of_mem hp)] at hblocks
    cases hblocks
  · rw [hdiscreet.runtimeNames p.1.text hname] at hblocks
    cases hblocks

end Payloads

/-! ### Runs -/

section Runs

variable [PyFloat F] [DecidableEq C] {runner : SentinelRunner F W C} {fresh : FreshRun}
  {input : PyVal F} {call : Proc (RunPool F W C) PyExc (SentinelResult F)}
  {breakers : ℕ → BreakerMemory} {stores : ℕ → IdempotencyStore F} {outside : W}
  {ended pool : RunPool F W C} {r : Except PyExc (SentinelResult F)}

/-- What an entry of a run shows is masked exactly if the entry is covered, and
the entries of a discreet runner are. -/
theorem redacted_iff (h : StartsRun runner fresh input call)
    (hrun : call.run (newPool breakers stores outside) = (r, ended))
    (hlater : Later runner fresh ended pool) :
    (∀ entry ∈ pool.state.journal.entries,
        entry.IsMasked runner.redactor ↔ entry.Covered runner.redactor) ∧
      (runner.Discreet → ∀ entry ∈ pool.state.journal.entries, entry.IsMasked runner.redactor) := by
  obtain ⟨new, given, hextends⟩ := h.extends_later hrun hlater
  have hentries : pool.state.journal.entries = new := by rw [hextends.entries, List.append_nil]
  rw [hentries]
  have hmasked : ∀ entry ∈ new,
      entry.IsMasked runner.redactor ↔ entry.Covered runner.redactor := by
    intro entry hentry
    obtain ⟨hlogged, hpayload⟩ := hextends.logged entry hentry
    exact LogEntry.isMasked_iff hlogged
      (hpayload.elim nodup_of_contextPayload nodup_of_runnerPayload)
  refine ⟨hmasked, fun hdiscreet entry hentry => ?_⟩
  obtain ⟨-, hpayload⟩ := hextends.logged entry hentry
  exact (hmasked entry hentry).mpr (covered_of_discreet hdiscreet hpayload)

end Runs

theorem discreet_bareRunner : bareRunner.Discreet where
  metadata := nofun
  principal principal hprincipal := by
    obtain rfl := Option.some.inj hprincipal
    exact Redactor.not_leaks_str _
  module _ := Redactor.not_leaks_str _
  qualname _ := Redactor.not_leaks_str _
  auditNames := by decide
  runtimeNames := by decide

/-- A run without metadata. -/
theorem redacted_idleRun : bareRunner.Discreet ∧
    ∀ entry ∈ (idleRun bareRunner).2.state.journal.entries, entry.IsMasked bareRunner.redactor :=
  ⟨discreet_bareRunner, (redacted_iff (startsRun_idle bareRunner) (run_idleAgent bareRunner)
    .refl).2 discreet_bareRunner⟩

/-! ### A secret in the metadata -/

/-- The text under a path of keys. -/
def Json.textAt : Json F → List Str → Option Str
  | .str text, [] => some text
  | .obj members, key :: keys =>
    match dictGet key members with
    | some j => textAt j keys
    | none => none
  | _, _ => none

/-- The text under the last key of a path is a member. -/
theorem Json.hasMember_of_textAt {keys : List Str} {key text : Str} {j : Json F}
    (h : j.textAt (keys ++ [key]) = some text) : j.HasMember key (.str text) := by
  induction keys generalizing j with
  | nil =>
    cases j with
    | obj members =>
      rw [List.nil_append, textAt] at h
      cases hget : dictGet key members with
      | none =>
        rw [hget] at h
        cases h
      | some found =>
        rw [hget] at h
        cases found with
        | str s =>
          obtain rfl : s = text := Option.some.inj h
          exact .here (mem_of_dictGet hget)
        | _ => cases h
    | _ => cases h
  | cons first keys ih =>
    cases j with
    | obj members =>
      rw [List.cons_append, textAt] at h
      cases hget : dictGet first members with
      | none =>
        rw [hget] at h
        cases h
      | some found =>
        rw [hget] at h
        exact .inObject (mem_of_dictGet hget) (ih h)
    | _ => cases h

/-- A runner whose metadata holds `UserDict({"password": "hunter2"})`: a mapping
that is no `dict`, and that `deepcopy` copies. -/
def settingsRunner : SentinelRunner Half Unit Bool :=
  { bareRunner with
    metadata := [(.str (lit "settings"),
      .mapping [(.str (lit "password"), .str (lit "hunter2"))])] }

/-- The password is recorded. -/
theorem password_recorded : ∃ entry ∈ (idleRun settingsRunner).2.state.journal.entries,
    ∃ event, entry.recorded = some event ∧
      (Redactor.auditJson event).HasMember (lit "password") (.str (lit "hunter2")) ∧
      settingsRunner.redactor.blocks (lit "password") = true ∧
      ¬entry.IsMasked settingsRunner.redactor := by
  have hfound : ∃ entry ∈ (idleRun settingsRunner).2.state.journal.entries,
      (entry.recorded.bind fun event => (Redactor.auditJson event).textAt
        ([lit "payload", lit "ctx", lit "metadata", lit "settings"] ++ [lit "password"])) =
          some (lit "hunter2") := by decide +kernel
  obtain ⟨entry, hentry, hfound⟩ := hfound
  obtain ⟨event, hevent, htext⟩ := Option.bind_eq_some_iff.mp hfound
  have hmember := Json.hasMember_of_textAt htext
  refine ⟨entry, hentry, event, hevent, hmember, by decide, fun h => ?_⟩
  have hmask := h.recorded event hevent _ _ hmember (by decide)
  exact absurd (Json.str.inj hmask) (by decide)

end AgentRoi
