/-
The frame of the audit events of a run.

* `Framed` — the events of a run begin with its start and end with its end,
  which tells how it ended;
* `Tolerated` — the calls of `_log` after which the runner goes on as if they
  had not raised;
* `framed_iff` — the events of a run are framed exactly if all its calls of
  `_log` are tolerated, its input can be shown, the status is not masked, and
  nothing is recorded after its end.
-/
import AgentRoi.RunnerEnds

namespace AgentRoi

open ContextState RunnerJournal SentinelRunner

variable {F W C α β : Type}

/-- The payload of the event shows this status. -/
def AuditEvent.HasStatus (event : AuditEvent F) (status : Str) : Prop :=
  (.str (lit "status"), .str status) ∈ event.payload

/-- The audit events of a run that has returned, or raised, oldest first. -/
inductive Framed (returned : Prop) : List (AuditEvent F) → Prop
  | mk {first last : AuditEvent F} {between : List (AuditEvent F)}
      (hfirst : first.eventType = lit "run_started") (hlast : last.eventType = lit "run_completed")
      (hbetween : ∀ event ∈ between,
        event.eventType ≠ lit "run_started" ∧ event.eventType ≠ lit "run_completed")
      (hreturned : (last.HasStatus (lit "ok") ∨ last.HasStatus (lit "pending_approval")) ↔ returned)
      (hraised : last.HasStatus (lit "error") ↔ ¬returned) :
      Framed returned (first :: (between ++ [last]))

/-- A call of `_log` that does not raise, as far as the end of the run depends
on it. -/
structure LogEntry.Tolerated (entry : LogEntry F) : Prop where
  started : entry.eventType = lit "run_started" → entry.result = .ok ()
  failed : entry.eventType = lit "run_failed" → entry.result = .ok ()
  awaited : entry.Awaits → entry.result = .ok ()
  pending : entry.Completes (lit "pending_approval") → entry.result = .ok ()
  returned : entry.Completes (lit "ok") → entry.recorded.isSome = true → entry.result = .ok ()
  raised : entry.Completes (lit "error") → entry.recorded.isSome = true

/-! ### The status of an end -/

namespace LogEntry

variable [PyFloat F] {entry : LogEntry F} {status : Str}

omit [PyFloat F] in
theorem Completes.status_eq {status' : Str} (h : entry.Completes status)
    (h' : entry.Completes status') : status = status' := by
  obtain ⟨-, elapsed, snapshot, hpayload⟩ := h
  obtain ⟨-, elapsed', snapshot', hpayload'⟩ := h'
  rw [hpayload] at hpayload'
  simpa [completedPayload] using (List.cons.inj hpayload').1

variable {runner : SentinelRunner F W C} {fresh : FreshRun}

/-- The status that is recorded, masked or not. -/
theorem Completes.hasStatus_iff (h : entry.Completes status)
    (hlogged : runner.Logged fresh entry) {event : AuditEvent F}
    (hevent : entry.recorded = some event) (shown : Str) :
    event.HasStatus shown ↔
      shown = if runner.redactor.blocks (lit "status") then lit "[REDACTED]" else status := by
  obtain ⟨-, elapsed, snapshot, hpayload⟩ := h
  obtain ⟨safe, hsafe, -, -, -, hmade⟩ := hlogged.recorded event hevent
  rw [hpayload] at hsafe
  have hfields := redactFields_eq_ok hsafe
  have hkeys : safe.map Prod.fst = [lit "status", lit "elapsed_ms", lit "ctx"] := by
    rw [hfields]
    rfl
  have hstatus : ∀ v, (lit "status", v) ∈ safe ↔
      v = runner.redactor.shown (lit "status") (.str status) := by
    intro v
    have helapsed : lit "status" ≠ lit "elapsed_ms" := by decide
    have hctx : lit "status" ≠ lit "ctx" := by decide
    rw [hfields]
    simp [completedPayload, helapsed, hctx]
  have hshown : runner.redactor.shown (lit "status") (.str status) =
      .str (if runner.redactor.blocks (lit "status") then lit "[REDACTED]" else status) := by
    rw [Redactor.shown]
    cases runner.redactor.blocks (lit "status") with
    | true => rfl
    | false => rfl
  rw [AuditEvent.HasStatus, hmade, mem_safePayload (by rw [hkeys]; decide)]
  simp only [hstatus, exists_eq_left, hshown]
  exact ⟨fun heq => by cases heq; rfl, fun heq => by rw [heq]; rfl⟩

/-- How the status of an event tells the end of a run. -/
theorem Completes.tells_iff (h : entry.Completes status) (hlogged : runner.Logged fresh entry)
    {event : AuditEvent F} (hevent : entry.recorded = some event) {returned : Prop}
    (hstatus : status = lit "error" ∧ ¬returned ∨
      (status = lit "ok" ∨ status = lit "pending_approval") ∧ returned) :
    (((event.HasStatus (lit "ok") ∨ event.HasStatus (lit "pending_approval")) ↔ returned) ∧
        (event.HasStatus (lit "error") ↔ ¬returned)) ↔
      runner.redactor.blocks (lit "status") = false := by
  have hok : lit "ok" ≠ lit "[REDACTED]" := by decide
  have hpending : lit "pending_approval" ≠ lit "[REDACTED]" := by decide
  have herror : lit "error" ≠ lit "[REDACTED]" := by decide
  have hokerror : lit "ok" ≠ lit "error" := by decide
  have hpendingerror : lit "pending_approval" ≠ lit "error" := by decide
  simp only [h.hasStatus_iff hlogged hevent]
  cases runner.redactor.blocks (lit "status") with
  | true =>
    -- a masked status tells nothing
    simp only [if_true, hok, hpending, herror, or_self]
    refine iff_of_false (fun hboth => ?_) Bool.noConfusion
    exact hboth.2.mpr hboth.1.mpr
  | false =>
    refine iff_of_true ?_ rfl
    simp only [Bool.false_eq_true, if_false]
    rcases hstatus with ⟨rfl, hraised⟩ | ⟨rfl | rfl, hreturned⟩
    · simp [hokerror, hpendingerror, hraised]
    · simp [hreturned, Ne.symm hokerror]
    · simp [hreturned, Ne.symm hpendingerror]

/-! ### What is tolerated -/

omit [PyFloat F] in
theorem tolerated_of_ordinary (h : entry.Ordinary) : entry.Tolerated where
  started htype := absurd htype h.started
  failed htype := absurd htype h.failed
  awaited hawaits := absurd ⟨hawaits.eventType, hawaits.reason⟩ h.awaited
  pending hlast := absurd hlast.eventType h.completed
  returned hlast := absurd hlast.eventType h.completed
  raised hlast := absurd hlast.eventType h.completed

omit [PyFloat F] in
theorem tolerated_of_recorded (hrecorded : entry.recorded.isSome = true)
    (h : entry.result = .ok ()) : entry.Tolerated where
  started _ := h
  failed _ := h
  awaited _ := h
  pending _ := h
  returned _ _ := h
  raised _ := hrecorded

theorem tolerated_of_ok (hlogged : runner.Logged fresh entry) (h : entry.result = .ok ()) :
    entry.Tolerated := tolerated_of_recorded (hlogged.recorded_of_ok h) h

omit [PyFloat F] in
theorem Completes.tolerated_iff_of_error (h : entry.Completes (lit "error")) :
    entry.Tolerated ↔ entry.recorded.isSome = true := by
  have hne : ∀ {name : Str}, lit "run_completed" ≠ name → entry.eventType ≠ name := by
    intro name hname htype
    exact hname (h.eventType.symm.trans htype)
  refine ⟨fun htolerated => htolerated.raised h, fun hrecorded => ?_⟩
  exact {
    started := fun htype => absurd htype (hne (by decide))
    failed := fun htype => absurd htype (hne (by decide))
    awaited := fun hawaits => absurd hawaits.eventType (hne (by decide))
    pending := fun hother => absurd (h.status_eq hother) (by decide)
    returned := fun hother => absurd (h.status_eq hother) (by decide)
    raised := fun _ => hrecorded }

omit [PyFloat F] in
/-- The end of a run that was to return is tolerated if it is not recorded. -/
theorem Completes.tolerated_iff_of_raised (h : entry.Completes (lit "ok")) {e : PyExc}
    (hresult : entry.result = .error e) : entry.Tolerated ↔ ¬entry.recorded.isSome = true := by
  have hne : ∀ {name : Str}, lit "run_completed" ≠ name → entry.eventType ≠ name := by
    intro name hname htype
    exact hname (h.eventType.symm.trans htype)
  constructor
  · intro htolerated hrecorded
    have hok := htolerated.returned h hrecorded
    rw [hresult] at hok
    cases hok
  · intro hunrecorded
    exact {
      started := fun htype => absurd htype (hne (by decide))
      failed := fun htype => absurd htype (hne (by decide))
      awaited := fun hawaits => absurd hawaits.eventType (hne (by decide))
      pending := fun hother => absurd (h.status_eq hother) (by decide)
      returned := fun _ hrecorded => absurd hrecorded hunrecorded
      raised := fun hother => absurd (h.status_eq hother) (by decide) }

/-- The entry recorded the end of a run. -/
def closed (entry : LogEntry F) : Bool :=
  entry.recorded.isSome && decide (entry.eventType = lit "run_completed")

end LogEntry

open LogEntry

variable [PyFloat F] {runner : SentinelRunner F W C} {fresh : FreshRun} {R : Type}

/-! ### Framed entries -/

/-- The recorded ends are the ends among the events. -/
theorem filter_completed {entries : List (LogEntry F)}
    (hlogged : ∀ entry ∈ entries, runner.Logged fresh entry) :
    (entries.filterMap recorded).filter (fun event => event.eventType = lit "run_completed") =
      (entries.filter closed).filterMap recorded := by
  induction entries with
  | nil => rfl
  | cons entry entries ih =>
    have hrest := ih fun other hother => hlogged other (List.mem_cons_of_mem _ hother)
    cases hrecorded : entry.recorded with
    | none =>
      have hopen : closed entry = false := by
        rw [closed, hrecorded]
        rfl
      rw [List.filterMap_cons_none hrecorded, List.filter_cons_of_neg (by rw [hopen]; nofun), hrest]
    | some event =>
      obtain ⟨-, -, -, -, htype, -⟩ := (hlogged entry List.mem_cons_self).recorded event hrecorded
      have hclosed : closed entry = decide (event.eventType = lit "run_completed") := by
        rw [closed, hrecorded, htype]
        rfl
      rw [List.filterMap_cons_some hrecorded, List.filter_cons, List.filter_cons, hrest, hclosed]
      split
      · rw [List.filterMap_cons_some hrecorded]
      · rfl

/-- Framed events have one end, and it was recorded by one entry. -/
theorem Framed.closed_eq {returned : Prop} {entries : List (LogEntry F)}
    (h : Framed returned (entries.filterMap recorded).reverse)
    (hlogged : ∀ entry ∈ entries, runner.Logged fresh entry) :
    ∃ entry event, entries.filter closed = [entry] ∧ entry.recorded = some event ∧
      ((event.HasStatus (lit "ok") ∨ event.HasStatus (lit "pending_approval")) ↔ returned) ∧
      (event.HasStatus (lit "error") ↔ ¬returned) := by
  generalize hevents : (entries.filterMap recorded).reverse = events at h
  cases h with
  | @mk first last between hfirst hlast hbetween hreturned hraised =>
    have hne : lit "run_started" ≠ lit "run_completed" := by decide
    -- the one end among the events is what the closing entries recorded
    have hends : (entries.filter closed).filterMap recorded = [last] := by
      have hall : entries.filterMap recorded = last :: (between.reverse ++ [first]) := by
        rw [← List.reverse_reverse (entries.filterMap recorded), hevents]
        simp
      have hnone : between.reverse.filter
          (fun event => decide (event.eventType = lit "run_completed")) = [] := by
        refine List.filter_eq_nil_iff.mpr fun event hevent => ?_
        rw [decide_eq_true_iff]
        exact (hbetween event (List.mem_reverse.mp hevent)).2
      rw [← filter_completed hlogged, hall, List.filter_cons_of_pos (by simp [hlast]),
        List.filter_append, hnone, List.filter_cons_of_neg (by simp [hfirst, hne])]
      rfl
    have hsome : ∀ entry ∈ entries.filter closed, ∃ event, entry.recorded = some event := by
      intro entry hentry
      have hclosed := (List.mem_filter.mp hentry).2
      rw [closed, Bool.and_eq_true] at hclosed
      exact Option.isSome_iff_exists.mp hclosed.1
    cases hfilter : entries.filter closed with
    | nil =>
      rw [hfilter] at hends
      cases hends
    | cons entry rest =>
      rw [hfilter] at hends hsome
      obtain ⟨event, hevent⟩ := hsome entry List.mem_cons_self
      rw [List.filterMap_cons_some hevent] at hends
      obtain ⟨rfl, hrest⟩ := List.cons.inj hends
      cases rest with
      | nil => exact ⟨entry, event, rfl, hevent, hreturned, hraised⟩
      | cons other rest =>
        obtain ⟨event', hevent'⟩ := hsome other (List.mem_cons_of_mem _ List.mem_cons_self)
        rw [List.filterMap_cons_some hevent'] at hrest
        cases hrest

/-- No run has raised whose recorded ends tell of a return. -/
theorem not_framed_of_returned {returned : Prop} {entries : List (LogEntry F)}
    (hreturned : ¬returned)
    (hlogged : ∀ entry ∈ entries, runner.Logged fresh entry)
    (h : ∀ entry ∈ entries, closed entry = true →
      entry.Completes (lit "ok") ∨ entry.Completes (lit "pending_approval")) :
    ¬Framed returned (entries.filterMap recorded).reverse := by
  intro hframed
  obtain ⟨entry, event, hfilter, hevent, -, hraised⟩ := hframed.closed_eq hlogged
  obtain ⟨hentry, hclosed⟩ := List.mem_filter.mp (hfilter ▸ List.mem_singleton_self entry)
  have hstatus := hraised.mpr hreturned
  have hmask : lit "error" ≠ lit "[REDACTED]" := by decide
  have hother : ∀ status, entry.Completes status → lit "error" ≠ status → False := by
    intro status hcompletes hne
    rw [hcompletes.hasStatus_iff (hlogged entry hentry) hevent] at hstatus
    split at hstatus
    · exact hmask hstatus
    · exact hne hstatus
  rcases h entry hentry hclosed with hok | hpending
  · exact hother _ hok (by decide)
  · exact hother _ hpending (by decide)

/-- Entries between a start and an end are framed if no other end is recorded. -/
theorem framed_ends_iff {returned : Prop} {first last : LogEntry F} {between : List (LogEntry F)}
    {status : Str} (hlogged : ∀ entry ∈ last :: (between ++ [first]), runner.Logged fresh entry)
    (hfirst : first.eventType = lit "run_started") (hstarted : first.result = .ok ())
    (hlast : last.Completes status) (hrecorded : last.recorded.isSome = true)
    (hbetween : ∀ entry ∈ between, entry.eventType ≠ lit "run_started")
    (hstatus : status = lit "error" ∧ ¬returned ∨
      (status = lit "ok" ∨ status = lit "pending_approval") ∧ returned) :
    Framed returned ((last :: (between ++ [first])).filterMap recorded).reverse ↔
      runner.redactor.blocks (lit "status") = false ∧
        ∀ entry ∈ between, ¬closed entry = true := by
  have hmem : last ∈ last :: (between ++ [first]) := List.mem_cons_self
  have hmemfirst : first ∈ last :: (between ++ [first]) := by simp
  obtain ⟨event, hevent⟩ := Option.isSome_iff_exists.mp hrecorded
  have hclosed : closed last = true := by
    rw [closed, hrecorded, hlast.eventType]
    rfl
  -- whether the end tells how the run ended is whether its status shows
  have htells := hlast.tells_iff (hlogged last hmem) hevent hstatus
  constructor
  · intro hframed
    -- framed events have one end, which is the last one
    obtain ⟨entry, event', hfilter, hevent', hstatuses⟩ := hframed.closed_eq hlogged
    rw [List.filter_cons_of_pos hclosed] at hfilter
    obtain ⟨rfl, hrest⟩ := List.cons.inj hfilter
    obtain rfl := Option.some.inj (hevent.symm.trans hevent')
    refine ⟨htells.mp hstatuses, fun entry hentry => ?_⟩
    exact List.filter_eq_nil_iff.mp hrest entry (List.mem_append_left _ hentry)
  · rintro ⟨hblocks, hopen⟩
    have htype : ∀ entry ∈ last :: (between ++ [first]), ∀ event, entry.recorded = some event →
        event.eventType = entry.eventType := by
      intro entry hentry event hevent
      obtain ⟨-, -, -, -, htype, -⟩ := (hlogged entry hentry).recorded event hevent
      exact htype
    obtain ⟨start, hstart⟩ := Option.isSome_iff_exists.mp
      ((hlogged first hmemfirst).recorded_of_ok hstarted)
    -- the start and the end are recorded, around what is recorded between them
    have hshape : ((last :: (between ++ [first])).filterMap recorded).reverse =
        start :: ((between.filterMap recorded).reverse ++ [event]) := by
      rw [List.filterMap_cons_some hevent, List.filterMap_append,
        List.filterMap_cons_some hstart]
      simp
    rw [hshape]
    obtain ⟨hreturned, hraised⟩ := htells.mpr hblocks
    refine .mk ((htype first hmemfirst start hstart).trans hfirst)
      ((htype last hmem event hevent).trans hlast.eventType) (fun other hother => ?_) hreturned
      hraised
    obtain ⟨entry, hentry, hrecorded'⟩ :=
      List.mem_filterMap.mp (List.mem_reverse.mp hother)
    rw [htype entry (List.mem_cons_of_mem _ (List.mem_append_left _ hentry)) other hrecorded']
    refine ⟨hbetween entry hentry, fun hcompleted => hopen entry hentry ?_⟩
    rw [closed, hrecorded', hcompleted]
    rfl

/-! ### The ends of a run -/

omit [PyFloat F] in
theorem not_closed_of_ordinary {entry : LogEntry F} (h : entry.Ordinary) : ¬closed entry = true := by
  rw [closed, Bool.and_eq_true, decide_eq_true_iff]
  exact fun hboth => h.completed hboth.2

omit [PyFloat F] in
theorem not_closed_of_name {entry : LogEntry F} {name : Str} (h : entry.eventType = name)
    (hname : name ≠ lit "run_completed") : ¬closed entry = true := by
  rw [closed, Bool.and_eq_true, decide_eq_true_iff, h]
  exact fun hboth => hname hboth.2

omit [PyFloat F] in
/-- What the body of a run made, that did not return: no start, and no end but
that of a return that was not reported. -/
theorem SuccessEnds.between {e : PyExc} {new : List (LogEntry F)}
    (h : SuccessEnds (.error e : Except PyExc R) new) :
    (∀ entry ∈ new, entry.eventType ≠ lit "run_started") ∧
      (∀ entry ∈ new, closed entry = true → entry.Completes (lit "ok")) ∧
      (∀ entry ∈ new, entry.Tolerated ↔ ¬closed entry = true) := by
  have hordinary : ∀ {new : List (LogEntry F)}, (∀ entry ∈ new, entry.Ordinary) →
      ∀ entry ∈ new, entry.eventType ≠ lit "run_started" ∧
        (closed entry = true → entry.Completes (lit "ok")) ∧
        (entry.Tolerated ↔ ¬closed entry = true) := by
    intro new hnew entry hentry
    have hopen := not_closed_of_ordinary (hnew entry hentry)
    exact ⟨(hnew entry hentry).started, fun hclosed => absurd hclosed hopen,
      iff_of_true (tolerated_of_ordinary (hnew entry hentry)) hopen⟩
  have hall : ∀ entry ∈ new, entry.eventType ≠ lit "run_started" ∧
      (closed entry = true → entry.Completes (lit "ok")) ∧
      (entry.Tolerated ↔ ¬closed entry = true) := by
    cases h with
    | stopped hnew => exact hordinary hnew
    | @raised e last new hnew hlast hresult =>
      refine List.forall_mem_cons.mpr ⟨⟨?_, fun _ => hlast, ?_⟩, hordinary hnew⟩
      · rw [hlast.eventType]
        decide
      · rw [hlast.tolerated_iff_of_raised hresult, closed, hlast.eventType]
        simp
  exact ⟨fun entry hentry => (hall entry hentry).1, fun entry hentry => (hall entry hentry).2.1,
    fun entry hentry => (hall entry hentry).2.2⟩

section Ends

variable {r : Except PyExc R} {first last : LogEntry F} {new closing : List (LogEntry F)}

/-- The events are framed exactly if the calls of `_log` are tolerated. -/
def FramedIf (runner : SentinelRunner F W C) (r : Except PyExc R) (entries : List (LogEntry F)) :
    Prop :=
  Framed (r.isOk = true) (entries.filterMap recorded).reverse ↔
    entries ≠ [] ∧ runner.redactor.blocks (lit "status") = false ∧
      ∀ entry ∈ entries, entry.Tolerated

/-- Entries that end with the end of the run. -/
theorem framedIf_of_ended (between : List (LogEntry F)) {status : Str}
    (hlogged : ∀ entry ∈ last :: (between ++ [first]), runner.Logged fresh entry)
    (hfirst : first.eventType = lit "run_started") (hstarted : first.result = .ok ())
    (hlast : last.Completes status) (hrecorded : last.recorded.isSome = true)
    (htolerated : last.Tolerated) (hbetween : ∀ entry ∈ between, entry.eventType ≠ lit "run_started")
    (hopen : ∀ entry ∈ between, entry.Tolerated ↔ ¬closed entry = true)
    (hstatus : status = lit "error" ∧ ¬r.isOk = true ∨
      (status = lit "ok" ∨ status = lit "pending_approval") ∧ r.isOk = true) :
    FramedIf runner r (last :: (between ++ [first])) := by
  have hfirsttolerated := tolerated_of_ok (hlogged first (by simp)) hstarted
  rw [FramedIf, framed_ends_iff hlogged hfirst hstarted hlast hrecorded hbetween hstatus]
  simp only [ne_eq, reduceCtorEq, not_false_eq_true, true_and, List.forall_mem_cons,
    List.forall_mem_append, List.not_mem_nil, false_implies, implies_true, and_true, htolerated,
    hfirsttolerated]
  exact and_congr_right fun _ => forall₂_congr fun entry hentry => (hopen entry hentry).symm

/-- Entries of a run that has raised, and recorded no end that tells so. -/
theorem framedIf_of_untold (hfirst : first.eventType = lit "run_started")
    (hok : ∀ entry ∈ new, closed entry = true → entry.Completes (lit "ok"))
    (hlogged : ∀ entry ∈ closing ++ (new ++ [first]), runner.Logged fresh entry)
    (hraised : ¬r.isOk = true) (hnot : ¬∀ entry ∈ closing, entry.Tolerated)
    (hclosing : ∀ entry ∈ closing, closed entry = true → entry.Completes (lit "pending_approval")) :
    FramedIf runner r (closing ++ (new ++ [first])) := by
  refine iff_of_false (not_framed_of_returned hraised hlogged fun entry hentry hclosed => ?_)
    fun hall => hnot fun entry hentry => hall.2.2 entry (List.mem_append_left _ hentry)
  rcases List.mem_append.mp hentry with hentry | hentry
  · exact .inr (hclosing entry hentry hclosed)
  · rcases List.mem_append.mp hentry with hentry | hentry
    · exact .inl (hok entry hentry hclosed)
    · rw [List.mem_singleton.mp hentry] at hclosed
      exact absurd hclosed (not_closed_of_name hfirst (by decide))

/-- A run whose body has raised, and that awaits approval. -/
theorem framedIf_of_awaited {e : PyExc} (hfirst : first.eventType = lit "run_started")
    (hstarted : first.result = .ok ()) (hbody : SuccessEnds (.error e : Except PyExc R) new)
    (hlogged : ∀ entry ∈ closing ++ (new ++ [first]), runner.Logged fresh entry)
    (hclosing : ApprovalEnds r closing) : FramedIf runner r (closing ++ (new ++ [first])) := by
  obtain ⟨hnew, hok, htolerated⟩ := hbody.between
  have hopen : ∀ {decision : LogEntry F}, decision.Awaits → ¬closed decision = true :=
    fun hdecision => not_closed_of_name hdecision.eventType (by decide)
  cases hclosing with
  | @stopped e' decision hdecision hresult =>
    refine framedIf_of_untold hfirst hok hlogged nofun (fun hall => ?_)
      fun entry hentry hclosed => ?_
    · have hdecided := (hall decision List.mem_cons_self).awaited hdecision
      rw [hresult] at hdecided
      cases hdecided
    · rw [List.mem_singleton.mp hentry] at hclosed
      exact absurd hclosed (hopen hdecision)
  | @raised e' last decision hdecision hdecided hlast hresult =>
    refine framedIf_of_untold hfirst hok hlogged nofun (fun hall => ?_)
      (List.forall_mem_cons.mpr ⟨fun _ => hlast, fun entry hentry hclosed => ?_⟩)
    · have hended := (hall last List.mem_cons_self).pending hlast
      rw [hresult] at hended
      cases hended
    · rw [List.mem_singleton.mp hentry] at hclosed
      exact absurd hclosed (hopen hdecision)
  | @ended a last decision hdecision hdecided hlast hresult =>
    have hlastlogged := hlogged last List.mem_cons_self
    have hdecisionlogged := hlogged decision (List.mem_cons_of_mem _ List.mem_cons_self)
    refine framedIf_of_ended (decision :: new) hlogged hfirst hstarted hlast
      (hlastlogged.recorded_of_ok hresult) (tolerated_of_ok hlastlogged hresult) ?_ ?_
      (.inr ⟨.inr rfl, rfl⟩)
    · refine List.forall_mem_cons.mpr ⟨?_, hnew⟩
      rw [hdecision.eventType]
      decide
    · refine List.forall_mem_cons.mpr ⟨?_, htolerated⟩
      exact iff_of_true (tolerated_of_ok hdecisionlogged hdecided) (hopen hdecision)

/-- A run whose body has raised, and that has reported its failure. -/
theorem framedIf_of_reported {e e' : PyExc} {failed : LogEntry F}
    (hfirst : first.eventType = lit "run_started") (hstarted : first.result = .ok ())
    (hbody : SuccessEnds (.error e : Except PyExc R) new)
    (hlogged : ∀ entry ∈ [last, failed] ++ (new ++ [first]), runner.Logged fresh entry)
    (hfailed : failed.eventType = lit "run_failed") (hresult : failed.result = .ok ())
    (hlast : last.Completes (lit "error")) :
    FramedIf runner (.error e' : Except PyExc R) ([last, failed] ++ (new ++ [first])) := by
  obtain ⟨hnew, hok, htolerated⟩ := hbody.between
  have hopen : ¬closed failed = true := not_closed_of_name hfailed (by decide)
  have hfailedlogged := hlogged failed (List.mem_cons_of_mem _ List.mem_cons_self)
  by_cases hrecorded : last.recorded.isSome = true
  · refine framedIf_of_ended (failed :: new) hlogged hfirst hstarted hlast hrecorded
      (hlast.tolerated_iff_of_error.mpr hrecorded) ?_ ?_ (.inl ⟨rfl, nofun⟩)
    · refine List.forall_mem_cons.mpr ⟨?_, hnew⟩
      rw [hfailed]
      decide
    · refine List.forall_mem_cons.mpr ⟨?_, htolerated⟩
      exact iff_of_true (tolerated_of_ok hfailedlogged hresult) hopen
  · refine framedIf_of_untold hfirst hok hlogged nofun (fun hall => ?_)
      (List.forall_mem_cons.mpr ⟨fun hclosed => ?_, fun entry hentry hclosed => ?_⟩)
    · exact hrecorded (hlast.tolerated_iff_of_error.mp (hall last List.mem_cons_self))
    · rw [closed, Bool.and_eq_true] at hclosed
      exact absurd hclosed.1 hrecorded
    · rw [List.mem_singleton.mp hentry] at hclosed
      exact absurd hclosed hopen

/-- A run whose body has raised, and that reports its failure. -/
theorem framedIf_of_failed {e e' : PyExc} {q : Except PyExc Unit}
    (hfirst : first.eventType = lit "run_started") (hstarted : first.result = .ok ())
    (hbody : SuccessEnds (.error e : Except PyExc R) new)
    (hlogged : ∀ entry ∈ closing ++ (new ++ [first]), runner.Logged fresh entry)
    (hclosing : FailureEnds q closing) :
    FramedIf runner (.error e' : Except PyExc R) (closing ++ (new ++ [first])) := by
  cases hclosing with
  | @stopped e failed hfailed hresult =>
    refine framedIf_of_untold hfirst hbody.between.2.1 hlogged nofun (fun hall => ?_)
      fun entry hentry hclosed => ?_
    · have hreport := (hall failed List.mem_cons_self).failed hfailed
      rw [hresult] at hreport
      cases hreport
    · rw [List.mem_singleton.mp hentry] at hclosed
      exact absurd hclosed (not_closed_of_name hfailed (by decide))
  | raised hfailed hresult hlast =>
    exact framedIf_of_reported hfirst hstarted hbody hlogged hfailed hresult hlast
  | ended hfailed hresult hlast =>
    exact framedIf_of_reported hfirst hstarted hbody hlogged hfailed hresult hlast

/-- How a run ends decides whether its events are framed. -/
theorem RunEnds.framedIf {entries : List (LogEntry F)} (h : RunEnds r entries)
    (hlogged : ∀ entry ∈ entries, runner.Logged fresh entry)
    (hexception : ∀ e, r = .error e → e.isException = true) : FramedIf runner r entries := by
  cases h with
  | unstarted =>
    refine iff_of_false (fun hframed => ?_) fun hall => hall.1 rfl
    obtain ⟨entry, event, hfilter, -⟩ := hframed.closed_eq hlogged
    cases hfilter
  | @stopped e first hfirst hresult =>
    refine iff_of_false (fun hframed => ?_) fun hall => ?_
    · obtain ⟨entry, event, hfilter, -⟩ := hframed.closed_eq hlogged
      rw [List.filter_cons_of_neg (not_closed_of_name hfirst (by decide))] at hfilter
      cases hfilter
    · have hok := (hall.2.2 first List.mem_cons_self).started hfirst
      rw [hresult] at hok
      cases hok
  | @succeeded a first new hfirst hstarted hbody =>
    cases hbody with
    | @ended a last new hnew hlast hresult =>
      have hlastlogged := hlogged last List.mem_cons_self
      refine framedIf_of_ended new hlogged hfirst hstarted hlast (hlastlogged.recorded_of_ok hresult)
        (tolerated_of_ok hlastlogged hresult) (fun entry hentry => (hnew entry hentry).started)
        (fun entry hentry => ?_) (.inr ⟨.inl rfl, rfl⟩)
      exact iff_of_true (tolerated_of_ordinary (hnew entry hentry))
        (not_closed_of_ordinary (hnew entry hentry))
  | awaited hfirst hstarted hbody hclosing =>
    exact framedIf_of_awaited hfirst hstarted hbody hlogged hclosing
  | failed hfirst hstarted hbody hclosing =>
    exact framedIf_of_failed hfirst hstarted hbody hlogged hclosing
  | @interrupted e first new hfirst hstarted hbody he =>
    rw [hexception e rfl] at he
    cases he

end Ends

/-! ### Runs -/

omit [PyFloat F] in
/-- Nothing follows the end of framed events. -/
theorem Framed.newest {returned : Prop} {event : AuditEvent F} {older : List (AuditEvent F)}
    (h : Framed returned (event :: older).reverse) : event.eventType = lit "run_completed" := by
  generalize hevents : (event :: older).reverse = events at h
  cases h with
  | @mk first last between _ hlast =>
    have hends := congrArg List.getLast? hevents
    rw [List.reverse_cons, ← List.cons_append, List.getLast?_append, List.getLast?_append] at hends
    obtain rfl : event = last := by simpa using hends
    exact hlast

omit [PyFloat F] in
/-- Framed events have one end. -/
theorem Framed.count_completed {returned : Prop} {events : List (AuditEvent F)}
    (h : Framed returned events) :
    (events.map AuditEvent.eventType).count (lit "run_completed") = 1 := by
  cases h with
  | @mk first last between hfirst hlast hbetween =>
    have hnone : lit "run_completed" ∉ between.map AuditEvent.eventType := by
      rintro hmem
      obtain ⟨event, hevent, htype⟩ := List.mem_map.mp hmem
      exact (hbetween event hevent).2 htype
    simp only [List.map_cons, List.map_append, List.map_nil, hfirst, hlast]
    rw [List.count_cons_of_ne (by decide), List.count_append, List.count_eq_zero.mpr hnone]
    simp

variable [DecidableEq C]

variable {input : PyVal F} {call : Proc (RunPool F W C) PyExc (SentinelResult F)}
  {breakers : ℕ → BreakerMemory} {stores : ℕ → IdempotencyStore F} {outside : W}

/-- The audit events of a run are framed exactly if all its calls of `_log` are
tolerated, its input can be shown, the status is not masked, and nothing is
recorded after its end. -/
theorem framed_iff {ended pool : RunPool F W C} {r : Except PyExc (SentinelResult F)}
    (h : StartsRun runner fresh input call)
    (hrun : call.run (newPool breakers stores outside) = (r, ended))
    (hexception : ∀ e, r = .error e → e.isException = true) (hlater : Later runner fresh ended pool) :
    Framed (r.isOk = true) pool.state.journal.events ↔
      ¬runner.Unshown input ∧ runner.redactor.blocks (lit "status") = false ∧
        (∀ entry ∈ ended.state.journal.entries, entry.Tolerated) ∧
        pool.state.journal.events = ended.state.journal.events := by
  obtain ⟨hfollow, new, given, hextends, hends, hshown⟩ := h.extends
    breakers stores outside
  rw [hrun] at hfollow hextends hends
  obtain ⟨-, more, others, hmore⟩ := later_extends hfollow hlater
  have hentries : ended.state.journal.entries = new := by
    rw [hextends.entries, List.append_nil]
  have hframed := hends.framedIf (fun entry hentry => (hextends.logged entry hentry).1) hexception
  have hevents : pool.state.journal.events =
      (more.filterMap LogEntry.recorded ++ new.filterMap LogEntry.recorded).reverse := by
    rw [RunnerJournal.events, hmore.entries, hentries, List.filterMap_append]
  have hended : ended.state.journal.events = (new.filterMap LogEntry.recorded).reverse := by
    rw [RunnerJournal.events, hentries]
  rw [hevents, hended, hentries, ← hshown, ← ne_eq]
  cases hrecorded : more.filterMap LogEntry.recorded with
  | nil =>
    rw [List.nil_append]
    refine hframed.trans ?_
    simp only [and_true]
  | cons event rest =>
    -- what the agent left running is no end
    have hother : event.eventType ≠ lit "run_completed" := by
      have hmem : event ∈ more.filterMap LogEntry.recorded := by
        rw [hrecorded]
        exact List.mem_cons_self
      obtain ⟨entry, hentry, hevent⟩ := List.mem_filterMap.mp hmem
      obtain ⟨hlogged, hpayload⟩ := hmore.logged entry hentry
      obtain ⟨-, -, -, -, htype, -⟩ := hlogged.recorded event hevent
      rw [htype]
      exact (ordinary_of_contextPayload hpayload).completed
    refine iff_of_false (fun h => hother h.newest) fun hall => ?_
    have hlength := congrArg List.length hall.2.2.2
    simp at hlength

theorem isOk_idleRun : (idleRun bareRunner).1.isOk = true := by decide +kernel

theorem logged_idleRun : ∀ entry ∈ (idleRun bareRunner).2.state.journal.entries,
    entry.recorded.isSome = true ∧ entry.result.isOk = true := by decide +kernel

/-- A run without sinks. -/
theorem framed_idleRun :
    Framed ((idleRun bareRunner).1.isOk = true) (idleRun bareRunner).2.state.journal.events := by
  refine (framed_iff (startsRun_idle bareRunner) (run_idleAgent bareRunner) (fun e he => ?_)
    .refl).mpr
    ⟨?_, by decide, fun entry hentry => ?_, rfl⟩
  · have hok := isOk_idleRun
    rw [he] at hok
    cases hok
  · rintro ⟨e, he⟩
    cases he
  · obtain ⟨hrecorded, hresult⟩ := logged_idleRun entry hentry
    refine LogEntry.tolerated_of_recorded hrecorded ?_
    cases hended : entry.result with
    | ok u => rfl
    | error e =>
      rw [hended] at hresult
      cases hresult

/-- A sink that raises on one type of events. -/
def deafSink (eventType : Str) : RunnerSink Half Unit where
  typeName := lit "Sink"
  emit event :=
    if event.type = runtimeType eventType then .raise (.runtimeError (lit "down")) else pure ()

/-- A runner that fails with a sink which does not take the end of a run. -/
def deafRunner : SentinelRunner Half Unit Bool :=
  { bareRunner with
    eventSinks := [deafSink (lit "run_completed")]
    failOnEventSinkError := true }

/-- A run that was to return is ended twice, if a sink raises on its end. -/
theorem ended_twice : (idleRun deafRunner).1.isOk = false ∧
    (idleRun deafRunner).2.state.journal.events.map AuditEvent.eventType =
      [lit "run_started", lit "agent_output", lit "decision_made", lit "run_completed",
        lit "run_failed", lit "run_completed"] ∧
    ¬Framed ((idleRun deafRunner).1.isOk = true) (idleRun deafRunner).2.state.journal.events := by
  have htypes : (idleRun deafRunner).2.state.journal.events.map AuditEvent.eventType =
      [lit "run_started", lit "agent_output", lit "decision_made", lit "run_completed",
        lit "run_failed", lit "run_completed"] := by decide +kernel
  refine ⟨by decide +kernel, htypes, fun h => ?_⟩
  have hcount := h.count_completed
  rw [htypes] at hcount
  exact absurd hcount (by decide)

end AgentRoi
