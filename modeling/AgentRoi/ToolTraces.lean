/-
The events each tool call contributes to the audit log.

* `CallMark`, `mark` — the charge, the starts of the handler and the `tool_…`
  events of a call;
* `ContextConfig.Refused` — `_prepare_call` raised, before or after the request
  of the tool was told; `ContextConfig.Admitted` — it returned;
* `ContextConfig.Closed`, `ContextConfig.Course` — what a call contributes that
  has ended, and what any call contributes;
* `ContextConfig.CallsReach` — the states of a context with any calls at a time,
  each of which may be stopped; whatever else the agent does is a step beside
  them;
* `courses_step` — a step of a call keeps the courses;
* `tool_traces_well_formed` — so a call that is refused before its request
  contributes no `tool_…` event, one that is refused later only
  `tool_requested`, and one that was admitted is requested, charged, authorised
  and started, and has exactly one of `tool_completed` and `tool_failed` once it
  has ended in a result or an `Exception`.
-/
import AgentRoi.ToolMediation
import AgentRoi.TraceSegments

namespace AgentRoi

variable {F W C J : Type}

open EventTrace

/-- What the log tells of a call, its charge, and the starts of its handler. -/
inductive CallMark where
  | charged
  | invoked
  | told (eventType : Str)
  deriving DecidableEq

/-- The charge, the starts of the handler, and the events whose type begins with
`tool_`. -/
def mark : CallEvent F C → Option CallMark
  | .charged _ => some .charged
  | .invoked _ _ _ => some .invoked
  | .emitted eventType _ =>
    if (lit "tool_").isPrefixOf eventType then some (.told eventType) else none
  | _ => none

/-- The marks of a call that has come to its handler, oldest first. -/
def opened : List CallMark :=
  [.told (lit "tool_requested"), .charged, .told (lit "tool_authorized"),
    .told (lit "tool_started")]

/-- The marks of a call whose handler was started `n` times. -/
def running (n : ℕ) : List CallMark := opened ++ List.replicate n .invoked

theorem charged_mem_running (n : ℕ) : CallMark.charged ∈ running n :=
  List.mem_append_left _ (by decide)

theorem running_succ (n : ℕ) : running n ++ [.invoked] = running (n + 1) := by
  rw [running, running, List.append_assoc, ← List.replicate_succ']

namespace ContextConfig

section

variable (cfg : ContextConfig F W C J) [PyFloat F] [DecidableEq C] (i : ℕ)

/-! ### What a call contributes -/

/-- These are all the events of a call whose preparation raised `e`; `requested`
tells whether it raised after the tool was resolved, permitted and priced, when
its request is told. -/
def Refused (requested : Bool) (e : PyExc) (segment : List (CallEvent F C)) : Prop :=
  ∃ call asyncMode s t, (cfg.requestTool i call asyncMode s).1.isOk = requested ∧
    cfg.prepareCall i call asyncMode s = (.error e, t) ∧
    t.trace = segment.map (i, ·) ++ s.trace

/-- The events begin with those of a preparation that returned. -/
def Admitted (segment : List (CallEvent F C)) : Prop :=
  ∃ call asyncMode prepared s t later noted,
    cfg.prepareCall i call asyncMode s = (.ok prepared, t) ∧
    t.trace = noted.map (i, ·) ++ s.trace ∧ segment = later ++ noted

/-- What a call contributes that has ended in a result or an `Exception`. -/
inductive Closed (segment : List (CallEvent F C)) : Except PyExc (ToolResult F) → Prop
  | refused {e : PyExc} (h : cfg.Refused i false e segment)
      (hevents : ∀ x ∈ segment, isCalled x = true ∨ BeforeRequest x)
      (hmarks : marksOf mark segment = []) : Closed segment (.error e)
  | declined {e : PyExc} (h : cfg.Refused i true e segment)
      (hmarks : marksOf mark segment = [.told (lit "tool_requested")]) :
      Closed segment (.error e)
  | completed {result : ToolResult F} {n : ℕ} (h : cfg.Admitted i segment)
      (hmarks : marksOf mark segment = running n ++ [.told (lit "tool_completed")]) :
      Closed segment (.ok result)
  | failed {e : PyExc} {n : ℕ} (h : cfg.Admitted i segment)
      (hmarks : marksOf mark segment = running n ++ [.told (lit "tool_failed")]) :
      Closed segment (.error e)

/-- What a call contributes: it is closed, or it was admitted and nothing closed it
yet. -/
inductive Course (segment : List (CallEvent F C)) : Prop
  | started {n : ℕ} (h : cfg.Admitted i segment) (hmarks : marksOf mark segment = running n)
  | ended {r : Except PyExc (ToolResult F)} (h : cfg.Closed i segment r)

end

variable {cfg : ContextConfig F W C J} {i : ℕ}

theorem mark_of_beforeRequest {e : CallEvent F C} (h : BeforeRequest e) : mark e = none := by
  cases e with
  | emitted eventType payload => obtain ⟨rfl | rfl, -⟩ := h <;> rfl
  | authorizerAnswered allowed => rfl
  | estimatorAnswered cost => rfl
  | _ => cases h

theorem mark_of_ofApproval {e : CallEvent F C} (h : OfApproval e) : mark e = none := by
  cases e with
  | emitted eventType payload => obtain ⟨rfl | rfl, -⟩ := h <;> rfl
  | callbackAnswered checkpoint answer => rfl
  | grantValidated grant checkpoint nowMs => rfl
  | _ => cases h

theorem told_eq (hheard : cfg.Heard) (eventType : Str) (payload : PyDict F) :
    cfg.told eventType payload = [(.emitted eventType payload : CallEvent F C)] := by
  obtain ⟨emitter, hemitter, -⟩ := hheard
  rw [told, hemitter]
  rfl

variable [PyFloat F] [DecidableEq C] {s t u : ContextState F W C J}
  {call : ToolCall F C} {asyncMode : Bool} {prepared : PreparedCall F W C}
  {before approval segment more old : List (CallEvent F C)} {e : PyExc}

theorem Admitted.append (h : cfg.Admitted i segment) (more : List (CallEvent F C)) :
    cfg.Admitted i (more ++ segment) := by
  obtain ⟨call, asyncMode, prepared, s, t, later, noted, hrun, htrace, rfl⟩ := h
  exact ⟨call, asyncMode, prepared, s, t, more ++ later, noted, hrun, htrace,
    (List.append_assoc _ _ _).symm⟩

/-- Only a call that was admitted is charged. -/
theorem Course.admitted (h : cfg.Course i segment)
    (hcharged : .charged ∈ marksOf mark segment) : cfg.Admitted i segment := by
  cases h with
  | started h => exact h
  | ended h =>
    cases h with
    | refused _ _ hmarks =>
      rw [hmarks] at hcharged
      cases hcharged
    | declined _ hmarks =>
      rw [hmarks] at hcharged
      cases List.mem_singleton.mp hcharged
    | completed h => exact h
    | failed h => exact h

/-! ### The preparation -/

omit [PyFloat F] [DecidableEq C] in
theorem isSegment_called (hbefore : ∀ x ∈ before, BeforeRequest x) (call : ToolCall F C) :
    IsSegment isCalled (before ++ [.called call]) :=
  ⟨before, .called call, rfl, rfl, fun x hx => isCalled_of_beforeRequest (hbefore x hx)⟩

omit [PyFloat F] [DecidableEq C] in
theorem marksOf_called (hbefore : ∀ x ∈ before, BeforeRequest x) (call : ToolCall F C) :
    marksOf mark (before ++ [.called call]) = [] := by
  refine marksOf_eq_nil (forall_append (fun x hx => mark_of_beforeRequest (hbefore x hx)) ?_)
  intro x hx
  rw [List.mem_singleton.mp hx]
  rfl

omit [PyFloat F] [DecidableEq C] in
/-- The marks of a call as far as its approval. -/
theorem marksOf_requested (hheard : cfg.Heard) (hbefore : ∀ x ∈ before, BeforeRequest x)
    (happroval : ∀ x ∈ approval, OfApproval x) (call : ToolCall F C) (payload : PyDict F) :
    marksOf mark ((approval ++ cfg.told (lit "tool_requested") payload) ++
      (before ++ [.called call])) = [.told (lit "tool_requested")] := by
  have hnone : marksOf mark approval = [] :=
    marksOf_eq_nil fun x hx => mark_of_ofApproval (happroval x hx)
  rw [marksOf_append mark (approval ++ _), marksOf_called hbefore, marksOf_append, hnone,
    told_eq hheard]
  rfl

theorem marksOf_upToStart (hheard : cfg.Heard) {checkpoint : Option Checkpoint}
    (h : cfg.Authorised call asyncMode before approval prepared checkpoint) :
    marksOf mark (cfg.upToStart call before approval prepared) = running 0 := by
  have hshape : cfg.upToStart call before approval prepared =
      (cfg.told (lit "tool_started") prepared.eventBase ++
        cfg.told (lit "tool_authorized") prepared.eventBase) ++
      ([.charged prepared.selectedCost] ++
        ((approval ++ cfg.told (lit "tool_requested") prepared.eventBase) ++
          (before ++ [.called call]))) := by
    simp [upToStart, upToCharge]
  rw [hshape, marksOf_append, marksOf_append, marksOf_requested hheard h.before h.ofApproval,
    told_eq hheard, told_eq hheard]
  rfl

theorem isSegment_upToStart {checkpoint : Option Checkpoint}
    (h : cfg.Authorised call asyncMode before approval prepared checkpoint) :
    IsSegment isCalled (cfg.upToStart call before approval prepared) := by
  rw [upToStart_eq]
  exact ⟨_, .called call, rfl, rfl, h.forall_startEvents (fun _ _ => rfl) rfl
    (fun x => isCalled_of_beforeRequest) fun x => isCalled_of_ofApproval⟩

omit [PyFloat F] [DecidableEq C] in
/-- What was noted can be read off the traces. -/
theorem Notes.events_eq {events : List (CallEvent F C)} (h : cfg.Notes i events s t)
    (htrace : t.trace = segment.map (i, ·) ++ s.trace) : events = segment := by
  rw [h.trace] at htrace
  have hmap := List.append_cancel_right htrace
  have hinj : Function.Injective fun x : CallEvent F C => (i, x) :=
    fun _ _ hxy => (Prod.mk.inj hxy).2
  exact List.map_injective_iff.mpr hinj hmap

/-- A preparation that raises is a call that has ended. -/
theorem closed_of_refused (hheard : cfg.Heard)
    (hrun : cfg.prepareCall i call asyncMode s = (.error e, t))
    (htrace : t.trace = segment.map (i, ·) ++ s.trace) :
    IsSegment isCalled segment ∧ cfg.Closed i segment (.error e) := by
  have hlogs : cfg.Logs i _ (cfg.requestTool i call asyncMode) := logs_requestTool call asyncMode
  obtain ⟨events, hnotes, before, rfl, hbefore, hrequested⟩ := hlogs s
  rcases hrequest : cfg.requestTool i call asyncMode s with ⟨e' | ⟨prepared, checkpoint⟩, u⟩
  · -- the call ends where the request of its tool failed
    have hend : cfg.prepareCall i call asyncMode s = (.error e', u) := PyM.bind_of_error hrequest
    obtain ⟨he, rfl⟩ := Prod.mk.inj (hend.symm.trans hrun)
    obtain rfl := Except.error.inj he
    rw [hrequest] at hnotes
    obtain rfl := hnotes.events_eq htrace
    have hrefused : cfg.Refused i false e' (before ++ [.called call]) := by
      refine ⟨call, asyncMode, s, u, ?_, hrun, htrace⟩
      rw [hrequest]
      rfl
    refine ⟨isSegment_called hbefore call, .refused hrefused (fun x hx => ?_)
      (marksOf_called hbefore call)⟩
    rcases List.mem_append.mp hx with hx | hx
    · exact .inr (hbefore x hx)
    · rw [List.mem_singleton.mp hx]
      exact .inl rfl
  · -- the request was told, and what followed failed
    rw [hrequest] at hnotes hrequested
    have hrest : cfg.admitRequest i call (prepared, checkpoint) u = (.error e, t) :=
      (PyM.bind_of_ok hrequest).symm.trans hrun
    obtain ⟨more, hmore, -, hunadmitted⟩ :=
      logs_admitRequest (i := i) hbefore (hrequested _ rfl) u
    rw [hrest] at hmore hunadmitted
    obtain ⟨approval, happroval, rfl⟩ := (hunadmitted hheard).resolve_left nofun
    obtain rfl := (hnotes.trans hmore).events_eq htrace
    have hdeclined : cfg.Refused i true e ((approval ++
        cfg.told (lit "tool_requested") prepared.eventBase) ++ (before ++ [.called call])) := by
      refine ⟨call, asyncMode, s, t, ?_, hrun, htrace⟩
      rw [hrequest]
      rfl
    refine ⟨(isSegment_called hbefore call).append ?_, .declined hdeclined
      (marksOf_requested hheard hbefore happroval call _)⟩
    exact forall_append (fun x hx => isCalled_of_ofApproval (happroval x hx)) (forall_told rfl)

/-- However a preparation ends, the call has a course. -/
theorem course_of_prepareCall (hheard : cfg.Heard) {r : Except PyExc (PreparedCall F W C)}
    (h : cfg.Preparation call asyncMode r segment)
    (hrun : cfg.prepareCall i call asyncMode s = (r, t))
    (htrace : t.trace = segment.map (i, ·) ++ s.trace) :
    IsSegment isCalled segment ∧ cfg.Course i segment := by
  cases r with
  | error e =>
    obtain ⟨hsegment, hclosed⟩ := closed_of_refused hheard hrun htrace
    exact ⟨hsegment, .ended hclosed⟩
  | ok prepared =>
    cases h with
    | @prepared before approval _ checkpoint h =>
      have hadmitted : cfg.Admitted i (cfg.upToStart call before approval prepared) :=
        ⟨call, asyncMode, prepared, s, t, [], _, hrun, htrace, rfl⟩
      exact ⟨isSegment_upToStart h, .started hadmitted (marksOf_upToStart hheard h)⟩

/-! ### The steps of a call -/

/-- The events of a call that runs, and its marks. -/
theorem marksOf_runs (hheard : cfg.Heard) {checkpoint : Option Checkpoint}
    (hauth : cfg.Authorised call asyncMode before approval prepared checkpoint)
    {runs : List (CallEvent F C)}
    (hruns : ∀ x ∈ runs, x = .invoked prepared.handler prepared.args call.kwargs) :
    IsSegment isCalled (runs ++ cfg.upToStart call before approval prepared) ∧
      marksOf mark (runs ++ cfg.upToStart call before approval prepared) =
        running runs.length := by
  refine ⟨(isSegment_upToStart hauth).append fun x hx => ?_, ?_⟩
  · rw [hruns x hx]
    rfl
  · have hinvoked : marksOf mark runs = List.replicate runs.length .invoked := by
      refine marksOf_replicate fun x hx => ?_
      rw [hruns x hx]
      rfl
    rw [marksOf_append, marksOf_upToStart hheard hauth, hinvoked]
    rfl

theorem Running.marks (hheard : cfg.Heard) (h : cfg.Running i call asyncMode prepared s) :
    ∃ segment old n, own i s.trace = segment ++ old ∧ IsSegment isCalled segment ∧
      marksOf mark segment = running n := by
  obtain ⟨before, approval, checkpoint, runs, old, hauth, hruns, hown⟩ := h
  obtain ⟨hsegment, hmarks⟩ := marksOf_runs hheard hauth hruns
  exact ⟨_, old, _, hown.trans (List.append_assoc _ _ _).symm, hsegment, hmarks⟩

omit [PyFloat F] [DecidableEq C] in
theorem Ending.isCalled_eq_false {r : Except PyExc (ToolResult F)} {ending : List (CallEvent F C)}
    (h : cfg.Ending prepared r ending) : ∀ x ∈ ending, isCalled x = false := by
  cases h with
  | completed => exact forall_told rfl
  | failed => exact forall_told rfl
  | silent => exact nofun

/-- A call that ran, and how it closed. -/
theorem Ending.closed (hheard : cfg.Heard) {r : Except PyExc (ToolResult F)}
    {ending : List (CallEvent F C)} (h : cfg.Ending prepared r ending) {n : ℕ}
    (hadmitted : cfg.Admitted i (ending ++ segment)) (hmarks : marksOf mark segment = running n) :
    cfg.Closed i (ending ++ segment) r ∨
      ending = [] ∧ ∃ e, r = .error e ∧ e.isException = false := by
  cases h with
  | completed hok =>
    cases r with
    | error e => cases hok hheard
    | ok result =>
      refine .inl (.completed (n := n) hadmitted ?_)
      rw [marksOf_append, hmarks, told_eq hheard]
      rfl
  | failed =>
    refine .inl (.failed (n := n) hadmitted ?_)
    rw [marksOf_append, hmarks, told_eq hheard]
    rfl
  | silent he => exact .inr ⟨rfl, _, rfl, he⟩

/-- Each call has a course. -/
def Traced (cfg : ContextConfig F W C J) (s : ContextState F W C J) : Prop :=
  ∀ i, ∀ segment ∈ segments isCalled (own i s.trace), cfg.Course i segment

/-- The newest of the calls, when it was charged. -/
theorem Traced.admitted (hs : cfg.Traced s) (hown : own i s.trace = segment ++ old)
    (hsegment : IsSegment isCalled segment) (hcharged : .charged ∈ marksOf mark segment) :
    cfg.Admitted i segment ∧ ∀ x ∈ segments isCalled old, cfg.Course i x := by
  have hcourses := hs i
  rw [hown, segments_append hsegment] at hcourses
  obtain ⟨hcourse, hold⟩ := List.forall_mem_cons.mp hcourses
  exact ⟨hcourse.admitted hcharged, hold⟩

/-- A step of a call keeps the courses. -/
theorem courses_step (hheard : cfg.Heard) (h : cfg.CallStep i s t) (hs : cfg.Traced s) :
    cfg.Traced t := by
  intro j
  by_cases hij : i = j
  · subst hij
    cases h with
    | idle hnotes =>
      rw [hnotes.own]
      exact hs i
    | prepared h hrun hnotes =>
      obtain ⟨hsegment, hcourse⟩ := course_of_prepareCall hheard h hrun hnotes.trace
      rw [hnotes.own, segments_append hsegment]
      exact List.forall_mem_cons.mpr ⟨hcourse, hs i⟩
    | invoked h hnotes =>
      obtain ⟨segment, old, n, hown, hsegment, hmarks⟩ := h.marks hheard
      obtain ⟨hadmitted, hold⟩ := hs.admitted hown hsegment (hmarks ▸ charged_mem_running n)
      rw [hnotes.own, hown, ← List.append_assoc,
        segments_append (hsegment.append (by simp [isCalled]))]
      refine List.forall_mem_cons.mpr ⟨.started (n := n + 1) (hadmitted.append _) ?_, hold⟩
      rw [marksOf_append, hmarks, ← running_succ]
      rfl
    | ended h hending hnotes =>
      obtain ⟨segment, old, n, hown, hsegment, hmarks⟩ := h.marks hheard
      obtain ⟨hadmitted, hold⟩ := hs.admitted hown hsegment (hmarks ▸ charged_mem_running n)
      rw [hnotes.own, hown, ← List.append_assoc,
        segments_append (hsegment.append hending.isCalled_eq_false)]
      refine List.forall_mem_cons.mpr ⟨?_, hold⟩
      rcases hending.closed hheard (hadmitted.append _) hmarks with hclosed | ⟨rfl, -⟩
      · exact .ended hclosed
      · exact .started hadmitted hmarks
  · have hothers : own j t.trace = own j s.trace := h.others hij
    rw [hothers]
    exact hs j

/-! ### Any calls at a time -/

variable (cfg) in
/-- The states of a context with any calls at a time, each of which may be
stopped; the other operations of an agent are steps of the environment. -/
def CallsReach (init : ContextState F W C J → Prop) :
    Pool ℕ (ContextState F W C J) PyExc (ToolResult F) → Prop :=
  Pool.Reach init (fun i p => ∃ asyncMode call, p = cfg.toolCall i asyncMode call)
    fun s t => Elsewhere s t ∨ cfg.Counted s t

omit [PyFloat F] [DecidableEq C] in
theorem trace_of_environment (h : Elsewhere s t ∨ cfg.Counted s t) : t.trace = s.trace := by
  rcases h with h | h
  · exact h.trace
  · exact h.trace

/-- However the calls interleave, each has a course, and one that has ended ran or
was refused. -/
theorem CallsReach.traced (hheard : cfg.Heard)
    {pool : Pool ℕ (ContextState F W C J) PyExc (ToolResult F)}
    (h : cfg.CallsReach (fun s => s.trace = []) pool) : cfg.Traced pool.state ∧
      ∀ i r, pool.procs i = some (.done r) →
        ∃ asyncMode call, cfg.RanOrRefused i call asyncMode r pool.state := by
  have hsafe : ∀ i p s, (∃ asyncMode call, p = cfg.toolCall i asyncMode call) → cfg.Traced s →
      Proc.Safe (Rely i) (cfg.CallStep i) cfg.Traced
        (fun r t => ∃ asyncMode call, cfg.RanOrRefused i call asyncMode r t) p s := by
    rintro i _ s ⟨asyncMode, call, rfl⟩ -
    have hkeeps : Proc.Safe (Rely i) (cfg.CallStep i) cfg.Traced
        (cfg.RanOrRefused i call asyncMode) (cfg.toolCall i asyncMode call) s :=
      Proc.Safe.keeps (fun _ _ hstep hs => courses_step hheard hstep hs)
        (safe_toolCall cfg i asyncMode call s)
    exact hkeeps.imp fun _ _ _ hran => ⟨asyncMode, call, hran⟩
  have hcompatible : Pool.Compatible cfg.Traced Rely
      (fun i => cfg.CallStep i) fun s t => Elsewhere s t ∨ cfg.Counted s t :=
    { refl := fun _ => Rely.refl
      trans := fun _ _ _ _ => Rely.trans
      others := fun _ _ _ _ hij hstep => hstep.others hij
      env_inv := fun s t henv hs j => by
        rw [trace_of_environment henv]
        exact hs j
      env_rely := fun j s t henv => by
        rw [Rely, trace_of_environment henv] }
  obtain ⟨htraced, hprocs⟩ := Pool.Reach.safe hcompatible
    (fun s hs j => by rw [hs]; exact List.forall_mem_nil _) hsafe h
  exact ⟨htraced, fun i r hr => hprocs i _ hr pool.state (Rely.refl _) htraced⟩

/-- The newest of the calls of `i`, when one of them has just ended in a result
or an `Exception`. -/
theorem RanOrRefused.closed (hheard : cfg.Heard) {r : Except PyExc (ToolResult F)}
    (h : cfg.RanOrRefused i call asyncMode r t) (ht : cfg.Traced t)
    (hexception : ∀ e, r = .error e → e.isException = true) :
    ∃ segment rest, segments isCalled (own i t.trace) = segment :: rest ∧
      cfg.Closed i segment r := by
  rcases h with ⟨before, approval, prepared, checkpoint, runs, ending, old, hauth, hruns, hending,
    hown⟩ | ⟨e, s, u, rfl, hrun, hrely⟩
  · obtain ⟨hsegment, hmarks⟩ := marksOf_runs hheard hauth hruns
    have hwhole := hsegment.append hending.isCalled_eq_false
    rw [← List.append_assoc runs, ← List.append_assoc] at hown
    have hcharged : .charged ∈ marksOf mark
        (ending ++ (runs ++ cfg.upToStart call before approval prepared)) := by
      rw [marksOf_append, hmarks]
      exact List.mem_append_left _ (charged_mem_running _)
    obtain ⟨hadmitted, -⟩ := ht.admitted hown hwhole hcharged
    refine ⟨_, _, by rw [hown, segments_append hwhole], ?_⟩
    refine (hending.closed hheard hadmitted hmarks).resolve_right ?_
    rintro ⟨-, e, he, hsilent⟩
    rw [hexception e he] at hsilent
    cases hsilent
  · obtain ⟨events, hnotes, -⟩ := logs_prepareCall cfg i call asyncMode s
    rw [hrun] at hnotes
    obtain ⟨hsegment, hclosed⟩ := closed_of_refused hheard hrun hnotes.trace
    have hown : own i t.trace = events ++ own i s.trace := Eq.trans hrely hnotes.own
    rw [hown, segments_append hsegment]
    exact ⟨events, _, rfl, hclosed⟩

/-- However tool calls interleave, and wherever they are stopped, each has a
course, and one that has ended in a result or an `Exception` is closed by it. -/
theorem tool_traces_well_formed (hheard : cfg.Heard)
    {pool : Pool ℕ (ContextState F W C J) PyExc (ToolResult F)}
    (h : cfg.CallsReach (fun s => s.trace = []) pool) (i : ℕ) :
    (∀ segment ∈ segments isCalled (own i pool.state.trace), cfg.Course i segment) ∧
      ∀ r, pool.procs i = some (.done r) → (∀ e, r = .error e → e.isException = true) →
        ∃ segment rest, segments isCalled (own i pool.state.trace) = segment :: rest ∧
          cfg.Closed i segment r := by
  obtain ⟨htraced, hended⟩ := h.traced hheard
  refine ⟨htraced i, fun r hr hexception => ?_⟩
  obtain ⟨asyncMode, call, hran⟩ := hended i r hr
  exact hran.closed hheard htraced hexception

/-! ### Calls that were paid and denied -/

/-- A context whose authorizer refuses everything. -/
def deniedContext : ContextConfig Half Unit Bool Unit :=
  { payContext with authorizer := some fun _ _ => pure false }

theorem heard_payContext : payContext.Heard := ⟨fun _ _ => pure (), rfl, fun _ _ _ => rfl⟩

theorem heard_deniedContext : deniedContext.Heard := ⟨fun _ _ => pure (), rfl, fun _ _ _ => rfl⟩

/-- One payment, and what it returns. -/
def paid (cfg : ContextConfig Half Unit Bool Unit) :
    Except PyExc (ToolResult Half) × ContextState Half Unit Bool Unit :=
  (cfg.toolCall 0 false payCall).run newContextState

/-- The context with the call that has ended. -/
def paidPool (cfg : ContextConfig Half Unit Bool Unit) :
    Pool ℕ (ContextState Half Unit Bool Unit) PyExc (ToolResult Half) :=
  ⟨(paid cfg).2, Function.update (fun _ => none) 0 (some (.done (paid cfg).1))⟩

theorem reach_paidPool (cfg : ContextConfig Half Unit Bool Unit) :
    cfg.CallsReach (fun s => s.trace = []) (paidPool cfg) :=
  Pool.Reach.finish (.init rfl) ⟨false, payCall, rfl⟩

theorem procs_paidPool {cfg : ContextConfig Half Unit Bool Unit}
    {r : Except PyExc (ToolResult Half)} (h : (paid cfg).1 = r) :
    (paidPool cfg).procs 0 = some (.done r) := by
  simp only [paidPool, h, Function.update_self]

/-- The type of an event that was handed to the emitter. -/
def emittedType : CallEvent F C → Option Str
  | .emitted eventType _ => some eventType
  | _ => none

/-- A payment contributes the whole sequence, and is closed by its result. -/
theorem tool_traces_well_formed_pay :
    (segments isCalled (own 0 (paidPool payContext).state.trace)).map (marksOf mark) =
        [running 1 ++ [.told (lit "tool_completed")]] ∧
      ∃ result segment rest,
        segments isCalled (own 0 (paidPool payContext).state.trace) = segment :: rest ∧
          payContext.Closed 0 segment (.ok result) := by
  refine ⟨by decide +kernel, ?_⟩
  have hok : (paid payContext).1.isOk = true := by decide +kernel
  rcases hresult : (paid payContext).1 with e | result
  · rw [hresult] at hok
    cases hok
  · obtain ⟨-, hclosed⟩ :=
      tool_traces_well_formed heard_payContext (reach_paidPool payContext) 0
    exact ⟨result, hclosed (.ok result) (procs_paidPool hresult) nofun⟩

/-- A payment that is denied contributes events, and `tool_requested` is none of them. -/
theorem denied_call_not_requested :
    deniedContext.Heard ∧ deniedContext.CallsReach (fun s => s.trace = []) (paidPool deniedContext) ∧
      (segments isCalled (own 0 (paidPool deniedContext).state.trace)).map (marksOf emittedType) =
        [[lit "authorization_decision", lit "authorization_denied"]] :=
  ⟨heard_deniedContext, reach_paidPool deniedContext, by decide +kernel⟩

end ContextConfig

end AgentRoi
