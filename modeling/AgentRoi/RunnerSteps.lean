/-
What the steps of a run do to its journal.

* `mem_safePayload` — what an audit event holds of the redacted fields;
* `SentinelRunner.Logged` — what an entry of the journal says of the audit event
  and of the event for the sinks;
* `log_step` — a call of `_log` makes one entry, and each sink is given its event
  at most once;
* `Extends` — what several calls of `_log` do;
* `ContextPayload` — the events of a context, with their payloads.
-/
import AgentRoi.CallLayers
import AgentRoi.Runner

namespace AgentRoi

open ContextState

variable {F W C α β : Type}

/-! ### Redacted fields -/

section Redacted

variable [PyFloat F] {r : Redactor F} {fields safe : PyDict F}

theorem redactItems_dictItems (h : r.redactFields fields = .ok safe) :
    r.redactItems (dictItems fields) = .ok (dictItems safe) := by
  induction fields generalizing safe with
  | nil =>
    cases h
    rfl
  | cons p fields ih =>
    obtain ⟨key, v⟩ := p
    rw [Redactor.redactFields] at h
    obtain ⟨v', hv, h⟩ := except_bind_eq_ok.mp h
    obtain ⟨rest, hrest, h⟩ := except_bind_eq_ok.mp h
    cases h
    show r.redactItems ((.str key, v) :: dictItems fields) = _
    rw [Redactor.redactItems]
    refine except_bind_eq_ok.mpr ⟨v', hv, except_bind_eq_ok.mpr ⟨_, ih hrest, rfl⟩⟩

/-- The redacted fields have the keys of the fields. -/
theorem redactFields_eq_ok (h : r.redactFields fields = .ok safe) :
    safe = fields.map fun p => (p.1, r.shown p.1 p.2) := by
  have hitems := (Redactor.redactItems_eq_ok (redactItems_dictItems h)).1
  have hinj : Function.Injective fun p : Str × PyVal F => (PyKey.str (F := F) p.1, p.2) := by
    rintro ⟨k, v⟩ ⟨k', v'⟩ heq
    simpa using heq
  refine hinj.list_map ?_
  rw [List.map_map]
  refine hitems.trans ?_
  rw [dictItems, List.map_map]
  rfl

/-- The members of fields with distinct keys. -/
theorem members_dictItems (hnodup : (fields.map Prod.fst).Nodup) :
    Redactor.members (dictItems fields) = sortByKey fields := by
  have htexts : (dictItems fields).map (fun p => (p.1.text, p.2)) = fields := by
    rw [dictItems, List.map_map]
    exact List.map_id _
  rw [Redactor.members, htexts, dictOf_of_nodup (nodup_keys_sortByKey.mpr hnodup)]

theorem mem_safePayload {k : Str} {w : PyVal F} (hnodup : (safe.map Prod.fst).Nodup) :
    (.str k, w) ∈ safePayload (.dict (dictItems safe)) ↔
      ∃ v, (k, v) ∈ safe ∧ w = PyVal.ofJson (toJsonable v) := by
  rw [safePayload, Redactor.toJsonable_dict, members_dictItems hnodup]
  simp only [PyVal.ofJsonMembers_eq_map, List.map_map, List.mem_map, mem_sortByKey,
    Function.comp_apply, Prod.mk.injEq, PyKey.str.injEq, Prod.exists]
  constructor
  · rintro ⟨k', v, hmem, rfl, rfl⟩
    exact ⟨v, hmem, rfl⟩
  · rintro ⟨v, hmem, rfl⟩
    exact ⟨k, v, hmem, rfl, rfl⟩

end Redacted

namespace RunnerJournal

/-- The events that the sink `k` is given, newest first. -/
def givenTo (k : ℕ) (delivered : List (ℕ × CloudEvent F)) : List (CloudEvent F) :=
  (delivered.filter fun p => p.1 = k).map Prod.snd

theorem givenTo_append (k : ℕ) (delivered more : List (ℕ × CloudEvent F)) :
    givenTo k (delivered ++ more) = givenTo k delivered ++ givenTo k more := by
  rw [givenTo, List.filter_append, List.map_append]
  rfl

end RunnerJournal

open RunnerJournal

namespace SentinelRunner

variable [PyFloat F] (runner : SentinelRunner F W C) (fresh : FreshRun)

/-- What an entry says of the audit event and of the event for the sinks. -/
structure Logged (entry : LogEntry F) : Prop where
  recorded : ∀ event, entry.recorded = some event →
    ∃ safe, runner.redactor.redactFields entry.payload = .ok safe ∧
      event.correlationId = fresh.correlationId ∧ event.runId = fresh.runId ∧
      event.eventType = entry.eventType ∧ event.payload = safePayload (.dict (dictItems safe))
  published : ∀ event, entry.published = some event →
    ∃ safe audit drawn, runner.redactor.redactFields entry.payload = .ok safe ∧
      entry.recorded = some audit ∧
      event = runner.cloudEvent fresh entry.eventType safe audit drawn
  unrecorded : entry.recorded = none → ∃ e, entry.result = .error e
  heard : entry.recorded.isSome = true → runner.eventSinks ≠ [] → entry.published.isSome = true

variable {runner fresh} {eventType : Str} {payload : PyDict F}

/-- A call that does not raise records its event. -/
theorem Logged.recorded_of_ok {entry : LogEntry F} (hlogged : runner.Logged fresh entry)
    (h : entry.result = .ok ()) : entry.recorded.isSome = true := by
  cases hrecorded : entry.recorded with
  | none =>
    obtain ⟨e, he⟩ := hlogged.unrecorded hrecorded
    rw [h] at he
    cases he
  | some event => rfl

/-! ### One call of `_log` -/

/-- What the loop over the sinks leaves behind. -/
structure Delivers (event : CloudEvent F) (first count : ℕ) (r : Except PyExc Unit)
    (before after : RunnerJournal F) : Prop where
  entries : after.entries = before.entries
  delivered : ∃ given, after.delivered = given ++ before.delivered ∧
    ∀ k, (givenTo k given = [] ∨ givenTo k given = [event]) ∧
      (k < first → givenTo k given = []) ∧
      (r = .ok () → first ≤ k → k < first + count → givenTo k given = [event])

variable (runner eventType) in
theorem delivers_emitToSink (event : CloudEvent F) (k : ℕ) (sink : RunnerSink F W)
    (s : W × RunnerJournal F) :
    (runner.emitToSink eventType event k sink s).2.2.entries = s.2.entries ∧
      (runner.emitToSink eventType event k sink s).2.2.delivered = (k, event) :: s.2.delivered := by
  simp only [emitToSink, PyM.bind_apply, PyM.modify_apply, PyM.tryExcept, PyM.on]
  rcases (sink.emit event s.1).1 with e | ⟨⟨⟩⟩
  · by_cases hexception : e.isException = true
    · simp only [hexception, if_true, PyM.bind_apply, PyM.ofExcept_apply]
      rcases OutboxWorker.errorString e with e' | text
      · exact ⟨rfl, rfl⟩
      · cases runner.failOnEventSinkError with
        | true => exact ⟨rfl, rfl⟩
        | false => exact ⟨rfl, rfl⟩
    · simp only [if_neg hexception]
      exact ⟨rfl, rfl⟩
  · exact ⟨rfl, rfl⟩

variable (runner eventType) in
theorem delivers_emitToSinks (event : CloudEvent F) (first : ℕ) (sinks : List (RunnerSink F W))
    (s : W × RunnerJournal F) :
    Delivers event first sinks.length (runner.emitToSinks eventType event first sinks s).1 s.2
      (runner.emitToSinks eventType event first sinks s).2.2 := by
  induction sinks generalizing first s with
  | nil =>
    refine ⟨rfl, [], rfl, fun k => ⟨.inl rfl, fun _ => rfl, fun _ hle hlt => ?_⟩⟩
    exact absurd hlt (Nat.not_lt.mpr hle)
  | cons sink sinks ih =>
    obtain ⟨hentries, hdelivered⟩ := delivers_emitToSink runner eventType event first
      sink s
    rcases hrun : runner.emitToSink eventType event first sink s with ⟨e | ⟨⟨⟩⟩, t⟩
    · rw [hrun] at hentries hdelivered
      rw [emitToSinks, PyM.bind_of_error hrun]
      refine ⟨hentries, [(first, event)], hdelivered, fun k => ⟨?_, fun hlt => ?_, nofun⟩⟩
      · by_cases hk : first = k
        · exact .inr (by simp [givenTo, hk])
        · exact .inl (by simp [givenTo, hk])
      · simp [givenTo, Nat.ne_of_gt hlt]
    · rw [hrun] at hentries hdelivered
      rw [emitToSinks, PyM.bind_of_ok hrun]
      obtain ⟨hrest, given, hgiven, hall⟩ := ih (first + 1) t
      refine ⟨hrest.trans hentries, given ++ [(first, event)], ?_, fun k => ?_⟩
      · rw [hgiven, hdelivered, List.append_assoc]
        rfl
      obtain ⟨hone, hbefore, hlater⟩ := hall k
      rw [givenTo_append]
      -- the sink `first` is given the event once, and not again by the rest
      by_cases hk : first = k
      · subst hk
        have hnone := hbefore (Nat.lt_succ_self first)
        have hself : givenTo first [(first, event)] = [event] := by simp [givenTo]
        rw [hnone, hself]
        exact ⟨.inr rfl, fun hlt => absurd hlt (Nat.lt_irrefl _), fun _ _ _ => rfl⟩
      · have hother : givenTo k [(first, event)] = [] := by simp [givenTo, hk]
        rw [hother, List.append_nil]
        refine ⟨hone, fun hlt => hbefore (Nat.lt_succ_of_lt hlt), fun hok hle hlt => ?_⟩
        refine hlater hok (Nat.lt_of_le_of_ne hle hk) ?_
        rw [List.length_cons] at hlt
        omega

/-- What one call of `_log` does to the journal. -/
structure LogStep (runner : SentinelRunner F W C) (fresh : FreshRun) (eventType : Str)
    (payload : PyDict F) (r : Except PyExc Unit) (before after : RunnerJournal F)
    (entry : LogEntry F) (given : List (ℕ × CloudEvent F)) : Prop where
  entries : after.entries = entry :: before.entries
  delivered : after.delivered = given ++ before.delivered
  logged : runner.Logged fresh entry
  eventType : entry.eventType = eventType
  payload : entry.payload = payload
  result : entry.result = r
  once : ∀ k, givenTo k given = [] ∨ givenTo k given = entry.published.toList
  all : r = .ok () → ∀ k < runner.eventSinks.length, givenTo k given = entry.published.toList

variable (runner fresh eventType payload) in
theorem log_step (s : W × RunnerJournal F) : ∃ entry given,
    LogStep runner fresh eventType payload (runner.log fresh eventType payload s).1 s.2
      (runner.log fresh eventType payload s).2.2 entry given := by
  rw [log]
  rcases hrecord : runner.recordEvent fresh eventType payload s.1 with ⟨e | ⟨safe, event⟩, w⟩
  · refine ⟨⟨eventType, payload, none, none, .error e⟩, [], rfl, rfl, ⟨nofun, nofun, ?_, nofun⟩, rfl,
      rfl, rfl, fun _ => .inl rfl, nofun⟩
    exact fun _ => ⟨e, rfl⟩
  · rw [recordEvent, PyM.ofExcept_bind_eq_ok] at hrecord
    obtain ⟨safe', hsafe, hrecord⟩ := hrecord
    obtain ⟨event', w', hevent, hrecord⟩ := PyM.bind_eq_ok.mp hrecord
    cases hrecord
    obtain ⟨hcorrelation, hrun, htype, hpayload⟩ := runner.recorder.made _ _ _ _ _ _
      (congrArg Prod.fst hevent)
    have hmade : ∀ audit, some event = some audit →
        ∃ safe, runner.redactor.redactFields payload = .ok safe ∧
          audit.correlationId = fresh.correlationId ∧ audit.runId = fresh.runId ∧
          audit.eventType = eventType ∧ audit.payload = safePayload (.dict (dictItems safe)) := by
      intro audit haudit
      obtain rfl := Option.some.inj haudit
      exact ⟨safe, hsafe, hcorrelation, hrun, htype, hpayload⟩
    simp only
    split_ifs with hsinks
    · refine ⟨⟨eventType, payload, some event, none, .ok ()⟩, [], rfl, rfl,
        ⟨hmade, nofun, nofun, fun _ hne => ?_⟩, rfl, rfl, rfl, fun _ => .inl rfl, fun _ _ _ => rfl⟩
      exact absurd (List.isEmpty_iff.mp hsinks) hne
    · obtain ⟨hentries, given, hgiven, hall⟩ := delivers_emitToSinks runner eventType
        (runner.cloudEvent fresh eventType safe event (runner.newEvent w).1) 0 runner.eventSinks
        ((runner.newEvent w).2, s.2)
      refine ⟨⟨eventType, payload, some event, some (runner.cloudEvent fresh eventType safe event
        (runner.newEvent w).1), _⟩, given, congrArg _ hentries, hgiven, ⟨hmade, ?_, nofun, fun _ _ => rfl⟩, rfl,
        rfl, rfl, fun k => (hall k).1, fun hok k hk => (hall k).2.2 hok (Nat.zero_le k) ?_⟩
      · intro published hpublished
        obtain rfl := Option.some.inj hpublished
        exact ⟨safe, event, _, hsafe, rfl, rfl⟩
      · rwa [Nat.zero_add]

/-! ### Several entries -/

/-- The journal got the entries `new`, all of the kind `P`, and the sinks were
given `given`. -/
structure Extends (runner : SentinelRunner F W C) (fresh : FreshRun) (P : Str → PyDict F → Prop)
    (before after : RunnerJournal F) (new : List (LogEntry F)) (given : List (ℕ × CloudEvent F)) :
    Prop where
  entries : after.entries = new ++ before.entries
  delivered : after.delivered = given ++ before.delivered
  logged : ∀ entry ∈ new, runner.Logged fresh entry ∧ P entry.eventType entry.payload
  once : ∀ k, (givenTo k given).Sublist (new.filterMap LogEntry.published)
  all : (∀ entry ∈ new, entry.result = .ok ()) → ∀ k < runner.eventSinks.length,
    givenTo k given = new.filterMap LogEntry.published

variable {P Q : Str → PyDict F → Prop} {before middle after : RunnerJournal F}
  {new more : List (LogEntry F)} {given others : List (ℕ × CloudEvent F)}

theorem Extends.refl (before : RunnerJournal F) : Extends runner fresh P before before [] [] where
  entries := rfl
  delivered := rfl
  logged := nofun
  once _ := List.Sublist.slnil
  all _ _ _ := rfl

theorem Extends.trans (h : Extends runner fresh P before middle new given)
    (h' : Extends runner fresh P middle after more others) :
    Extends runner fresh P before after (more ++ new) (others ++ given) where
  entries := by rw [h'.entries, h.entries, List.append_assoc]
  delivered := by rw [h'.delivered, h.delivered, List.append_assoc]
  logged entry hentry := (List.mem_append.mp hentry).elim (h'.logged entry) (h.logged entry)
  once k := by
    rw [givenTo_append, List.filterMap_append]
    exact (h'.once k).append (h.once k)
  all hok k hk := by
    rw [givenTo_append, List.filterMap_append,
      h'.all (fun entry hentry => hok entry (List.mem_append_left _ hentry)) k hk,
      h.all (fun entry hentry => hok entry (List.mem_append_right _ hentry)) k hk]

theorem Extends.imp (h : Extends runner fresh P before after new given)
    (hpq : ∀ entry ∈ new, P entry.eventType entry.payload → Q entry.eventType entry.payload) :
    Extends runner fresh Q before after new given :=
  { h with logged := fun entry hentry =>
      ⟨(h.logged entry hentry).1, hpq entry hentry (h.logged entry hentry).2⟩ }

theorem LogStep.extends {r : Except PyExc Unit} {entry : LogEntry F}
    (h : LogStep runner fresh eventType payload r before after entry given)
    (hp : P eventType payload) : Extends runner fresh P before after [entry] given where
  entries := h.entries
  delivered := h.delivered
  logged e he := by
    obtain rfl := List.mem_singleton.mp he
    rw [h.eventType, h.payload]
    exact ⟨h.logged, hp⟩
  once k := by
    have hpublished : [entry].filterMap LogEntry.published = entry.published.toList := by
      cases hentry : entry.published <;> simp [hentry]
    rw [hpublished]
    rcases h.once k with hnone | hsome
    · rw [hnone]
      exact List.nil_sublist _
    · rw [hsome]
  all hok k hk := by
    have hpublished : [entry].filterMap LogEntry.published = entry.published.toList := by
      cases hentry : entry.published <;> simp [hentry]
    rw [hpublished]
    exact h.all (h.result ▸ hok entry List.mem_cons_self) k hk

end SentinelRunner

/-! ### The events of a context -/

namespace ContextConfig

/-- The events that tell of a tool, and what they show beside `event_base`. -/
inductive ToolDetail : Str → PyDict F → Prop
  | requested : ToolDetail (lit "tool_requested") []
  | authorized : ToolDetail (lit "tool_authorized") []
  | started : ToolDetail (lit "tool_started") []
  | failed (elapsed : Int) (name : Str) : ToolDetail (lit "tool_failed")
      [(lit "elapsed_ms", .int elapsed), (lit "error_type", .str name)]
  | completed (elapsed : Int) (name : Str) : ToolDetail (lit "tool_completed")
      [(lit "elapsed_ms", .int elapsed), (lit "result_type", .str name)]

/-- The events of a context, with their payloads. -/
inductive ContextPayload {J : Type} [PyFloat F] (cfg : ContextConfig F W C J) :
    Str → PyDict F → Prop
  | decision {eventType toolName allowed spec}
      (h : eventType = lit "authorization_decision" ∨ eventType = lit "authorization_denied") :
      ContextPayload cfg eventType ([(lit "tool_name", .str toolName),
        (lit "allowed", .bool allowed), (lit "principal_subject", cfg.principalSubject)] ++
          cfg.accessContext spec)
  | missingPrincipal {toolName} : ContextPayload cfg (lit "authorization_denied")
      [(lit "tool_name", .str toolName), (lit "reason", .str (lit "missing_principal"))]
  | granted {spec cp approvedBy reason}
      (h : reason = [] ∨ ∃ text, reason = [(lit "reason", .str text)]) :
      ContextPayload cfg (lit "approval_granted")
        (grantedFields (F := F) (W := W) (C := C) spec cp approvedBy ++ reason)
  | required {cp} : ContextPayload cfg (lit "approval_required") (cfg.checkpointFields cp)
  | tool {eventType toolName tool kwargs cost checkpoint eventBase detail}
      (hbase : cfg.eventBase toolName tool kwargs cost checkpoint = .ok eventBase)
      (hdetail : ToolDetail eventType detail) :
      ContextPayload cfg eventType (eventBase ++ detail)

end ContextConfig

end AgentRoi
