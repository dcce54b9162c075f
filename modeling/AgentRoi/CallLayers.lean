/-
The layers between a call and its handler, step by step.

* `Quiet` — a step that changes at most breakers and the world outside;
* `stays_execution` — retries, breaker and handler follow any step relation
  that allows quiet steps and the start of the handler;
* `Settling` — a step that changes stores too;
* `Stays.execute` — so does the record around them, if settling is allowed;
* `follows_layers` — and so does a whole call, if its preparation and the event
  that tells of its end are allowed.
-/
import AgentRoi.ToolCalls

namespace AgentRoi

open ContextState

variable {F W C J α β : Type}

/-- At most breakers and the world outside change. -/
def Quiet (s t : ContextState F W C J) : Prop :=
  ∃ breakers outside, t = { s with breakers, outside }

/-- At most breakers, stores and the world outside change. -/
def Settling (s t : ContextState F W C J) : Prop :=
  ∃ breakers stores outside, t = { s with breakers, stores, outside }

variable {s t u : ContextState F W C J}

theorem Quiet.refl (s : ContextState F W C J) : Quiet s s := ⟨s.breakers, s.outside, rfl⟩

theorem Quiet.trans (h : Quiet s t) (h' : Quiet t u) : Quiet s u := by
  obtain ⟨breakers, outside, rfl⟩ := h
  obtain ⟨breakers', outside', rfl⟩ := h'
  exact ⟨breakers', outside', rfl⟩

theorem Quiet.settling (h : Quiet s t) : Settling s t := by
  obtain ⟨breakers, outside, rfl⟩ := h
  exact ⟨breakers, s.stores, outside, rfl⟩

theorem Settling.trans (h : Settling s t) (h' : Settling t u) : Settling s u := by
  obtain ⟨breakers, stores, outside, rfl⟩ := h
  obtain ⟨breakers', stores', outside', rfl⟩ := h'
  exact ⟨breakers', stores', outside', rfl⟩

theorem Quiet.stores (h : Quiet s t) : t.stores = s.stores := by
  obtain ⟨breakers, outside, rfl⟩ := h
  rfl

theorem Settling.trace (h : Settling s t) : t.trace = s.trace := by
  obtain ⟨breakers, stores, outside, rfl⟩ := h
  rfl

theorem Settling.journal (h : Settling s t) : t.journal = s.journal := by
  obtain ⟨breakers, stores, outside, rfl⟩ := h
  rfl

/-! ### Methods as steps -/

theorem run_atomic_of_ok {σ β : Type} {x : PyM σ α} {f : α → Proc σ PyExc β} {s t : σ} {a : α}
    (h : x s = (.ok a, t)) : (Proc.atomic x >>= f).run s = (f a).run t := by
  have hrun : (Proc.atomic x).run s = (.ok a, t) := h
  rw [Proc.run_bind, hrun]

theorem run_atomic_of_error {σ β : Type} {x : PyM σ α} {f : α → Proc σ PyExc β} {s t : σ}
    {e : PyExc} (h : x s = (.error e, t)) : (Proc.atomic x >>= f).run s = (.error e, t) := by
  have hrun : (Proc.atomic x).run s = (.error e, t) := h
  rw [Proc.run_bind, hrun]

/-! ### Methods -/

/-- Every step of the method is of the kind `P`. -/
def Each (P : ContextState F W C J → ContextState F W C J → Prop)
    (x : PyM (ContextState F W C J) α) : Prop := ∀ s, P s (x s).2

theorem each_bind {P : ContextState F W C J → ContextState F W C J → Prop}
    (htrans : ∀ s t u, P s t → P t u → P s u) {x : PyM (ContextState F W C J) α}
    {f : α → PyM (ContextState F W C J) β} (hx : Each P x) (hf : ∀ a, Each P (f a)) :
    Each P (x >>= f) := by
  intro s
  have hfirst := hx s
  rcases hrun : x s with ⟨e | a, t⟩
  · rw [hrun] at hfirst
    rw [PyM.bind_of_error hrun]
    exact hfirst
  · rw [hrun] at hfirst
    rw [PyM.bind_of_ok hrun]
    exact htrans s t _ hfirst (hf a t)

theorem quiet_bind {x : PyM (ContextState F W C J) α} {f : α → PyM (ContextState F W C J) β}
    (hx : Each Quiet x) (hf : ∀ a, Each Quiet (f a)) : Each Quiet (x >>= f) :=
  each_bind (fun _ _ _ h h' => h.trans h') hx hf

theorem quiet_get : Each Quiet (PyM.get : PyM (ContextState F W C J) _) := Quiet.refl

theorem quiet_pure (a : α) : Each Quiet (pure a : PyM (ContextState F W C J) α) := Quiet.refl

theorem quiet_onWorld (x : PyM W α) : Each Quiet (onWorld x : PyM (ContextState F W C J) α) :=
  fun s => ⟨s.breakers, (x s.outside).2, rfl⟩

theorem quiet_onBreaker (n : ℕ) (x : PyM BreakerMemory α) :
    Each Quiet (onBreaker n x : PyM (ContextState F W C J) α) :=
  fun s => ⟨Function.update s.breakers n (x (s.breakers n)).2, s.outside, rfl⟩

theorem quiet_beforeCall (ref : BreakerRef W) :
    Each Quiet (ref.beforeCall : PyM (ContextState F W C J) Unit) := by
  refine quiet_bind quiet_get fun m => ?_
  split
  · exact quiet_bind (quiet_onWorld _) fun _ => quiet_onBreaker _ _
  · exact quiet_onBreaker _ _

theorem quiet_recordFailure (ref : BreakerRef W) :
    Each Quiet (ref.recordFailure : PyM (ContextState F W C J) Unit) := by
  refine quiet_bind quiet_get fun m => quiet_bind (quiet_onBreaker _ _) fun _ => ?_
  split
  · exact quiet_bind (quiet_onWorld _) fun _ => quiet_onBreaker _ _
  · exact quiet_pure _

theorem settling_inStore (n : ℕ) (x : PyM (IdempotencyStore F) α) :
    Each Settling (inStore n x : PyM (ContextState F W C J) α) :=
  fun s => ⟨s.breakers, Function.update s.stores n (x (s.stores n)).2, s.outside, rfl⟩

theorem settling_of_quiet {x : PyM (ContextState F W C J) α} (hx : Each Quiet x) :
    Each Settling x := fun s => (hx s).settling

theorem settling_bind {x : PyM (ContextState F W C J) α} {f : α → PyM (ContextState F W C J) β}
    (hx : Each Settling x) (hf : ∀ a, Each Settling (f a)) : Each Settling (x >>= f) :=
  each_bind (fun _ _ _ h h' => h.trans h') hx hf

namespace ContextConfig

variable {cfg : ContextConfig F W C J}

theorem quiet_rejectAwaitable (tool : ResolvedTool F W C) (result : ToolResult F) :
    Each Quiet (cfg.rejectAwaitable tool result) := by
  unfold rejectAwaitable
  split
  · exact quiet_bind (quiet_onWorld _) fun _ => Quiet.refl
  · exact quiet_pure _

theorem settling_prepareRequest [PyFloat F] (policy : IdempotencyPolicy F W)
    (args : List (PyVal F)) (kwargs : PyDict F) :
    Each Settling (cfg.prepareRequest policy args kwargs) := by
  have hstays : ∀ {γ : Type} (r : Except PyExc γ),
      Each Settling (.ofExcept r : PyM (ContextState F W C J) γ) :=
    fun r s => (Quiet.refl s).settling
  refine settling_bind (settling_of_quiet (quiet_onWorld _)) fun text => ?_
  split
  · exact fun s => (Quiet.refl s).settling
  · exact settling_bind (hstays _) fun _ =>
      settling_bind (settling_of_quiet (quiet_onWorld _)) fun _ =>
        settling_bind (settling_of_quiet (quiet_onWorld _)) fun _ =>
          settling_bind (settling_inStore _ _) fun _ => settling_of_quiet (quiet_pure _)

theorem settling_completeRequest [PyFloat F] (policy : IdempotencyPolicy F W) (key : Str)
    (response : PyVal F) : Each Settling (cfg.completeRequest policy key response) :=
  settling_bind (settling_of_quiet (quiet_onWorld _)) fun _ => settling_inStore _ _

theorem settling_failRequest [PyFloat F] (policy : IdempotencyPolicy F W) (key : Str) (e : PyExc) :
    Each Settling (cfg.failRequest policy key e) :=
  settling_bind (fun s => (Quiet.refl s).settling) fun _ =>
    settling_bind (settling_of_quiet (quiet_onWorld _)) fun _ => settling_inStore _ _

/-! ### Programs -/

/-- What stands between `begin` and the report to the store. -/
def execution (cfg : ContextConfig F W C J) (i : ℕ) (asyncMode : Bool)
    (tool : ResolvedTool F W C) (kwargs : PyDict F) :
    Proc (ContextState F W C J) PyExc (ToolResult F) :=
  if asyncMode then tool.retried cfg.asyncSleep (tool.guarded (cfg.arawCall i tool kwargs))
  else do
    let result ← tool.retried cfg.sleep (tool.guarded (cfg.rawCall i tool kwargs))
    .atomic (cfg.rejectAwaitable tool result)

section Follows

variable {R G : ContextState F W C J → ContextState F W C J → Prop}
  {p : Proc (ContextState F W C J) PyExc α} {i : ℕ}

/-- Each step of the program is one of `G`, from every state on. -/
def Stays (R G : ContextState F W C J → ContextState F W C J → Prop)
    (p : Proc (ContextState F W C J) PyExc α) : Prop := ∀ s, Proc.Follows R G p s

theorem stays_done (r : Except PyExc α) :
    Stays R G (.done r : Proc (ContextState F W C J) PyExc α) := fun _ _ _ _ => trivial

theorem stays_atomic {x : PyM (ContextState F W C J) α} (hx : Each G x) :
    Stays R G (.atomic x) := fun _ => Proc.follows_atomic fun t _ => hx t

theorem Stays.attempt (hp : Stays R G p) : Stays R G p.attempt :=
  fun s => Proc.safe_attempt (hp s) fun _ _ _ _ => trivial

theorem Stays.bind (hrefl : ∀ s, R s s) {f : α → Proc (ContextState F W C J) PyExc β}
    (hp : Stays R G p) (hf : ∀ a, Stays R G (f a)) : Stays R G (p >>= f) :=
  fun s => Proc.follows_bind hrefl (hp s) hf

theorem stays_inWorld (hquiet : ∀ s t, Quiet s t → G s t) (q : Proc W PyExc α) :
    Stays R G (inWorld q : Proc (ContextState F W C J) PyExc α) := by
  induction q with
  | done r => exact stays_done r
  | step act next ih =>
    exact fun s t _ _ => ⟨trivial, hquiet t _ ⟨t.breakers, _, rfl⟩, ih t.outside _⟩

theorem Stays.guarded (hrefl : ∀ s, R s s) (hquiet : ∀ s t, Quiet s t → G s t)
    (tool : ResolvedTool F W C) (hp : Stays R G p) : Stays R G (tool.guarded p) := by
  unfold ResolvedTool.guarded
  split
  · exact hp
  · rename_i ref _
    refine (stays_atomic fun s => hquiet s _ (quiet_beforeCall ref s)).bind hrefl fun _ =>
      hp.attempt.bind hrefl fun r => ?_
    cases r with
    | error e =>
      exact (stays_atomic fun s => hquiet s _ (quiet_recordFailure ref s)).bind hrefl fun _ =>
        stays_done _
    | ok a =>
      exact (stays_atomic fun s => hquiet s _ (quiet_onBreaker _ _ s)).bind hrefl fun _ =>
        stays_done _

theorem Stays.retryFrom (hrefl : ∀ s, R s s) (hquiet : ∀ s t, Quiet s t → G s t)
    (policy : RetryPolicy W) (sleep : ℕ → PyM W Unit) (hp : Stays R G p)
    (attempt remaining : ℕ) :
    Stays R G (retryFrom policy (pauseAfter policy sleep) p attempt remaining) := by
  induction remaining generalizing attempt with
  | zero => exact stays_done _
  | succ remaining ih =>
    refine hp.attempt.bind hrefl fun r => ?_
    cases r with
    | ok a => exact stays_done _
    | error e =>
      show Stays R G (if _ then _ else _)
      split
      · exact stays_done _
      · exact (stays_atomic fun s => hquiet s _ (quiet_onWorld _ s)).bind hrefl fun _ =>
          ih (attempt + 1)

theorem Stays.retried (hrefl : ∀ s, R s s) (hquiet : ∀ s t, Quiet s t → G s t)
    (tool : ResolvedTool F W C) (sleep : ℕ → PyM W Unit) (hp : Stays R G p) :
    Stays R G (tool.retried sleep p) := by
  unfold ResolvedTool.retried
  split
  · exact hp
  · exact hp.retryFrom hrefl hquiet _ _ _ _

/-- Retries, breaker and handler. -/
theorem stays_execution (hrefl : ∀ s, R s s) (hquiet : ∀ s t, Quiet s t → G s t)
    {tool : ResolvedTool F W C} {kwargs : PyDict F}
    (hinvoke : ∀ s, G s (note i (.invoked tool.handler tool.args kwargs) s)) (asyncMode : Bool) :
    Stays R G (cfg.execution i asyncMode tool kwargs) := by
  have hcall : ∀ q : Proc W PyExc (ToolResult F), Stays R G
      (Proc.atomic (PyM.modify (note i (.invoked tool.handler tool.args kwargs))) >>= fun _ =>
        (inWorld q : Proc (ContextState F W C J) PyExc (ToolResult F))) :=
    fun q => Stays.bind hrefl (stays_atomic fun s => hinvoke s) fun _ => stays_inWorld hquiet q
  cases asyncMode with
  | true => exact ((hcall _).guarded hrefl hquiet tool).retried hrefl hquiet tool _
  | false =>
    exact (((hcall _).guarded hrefl hquiet tool).retried hrefl hquiet tool _).bind hrefl
      fun result => stays_atomic fun s => hquiet s _ (quiet_rejectAwaitable tool result s)

/-- The record around an execution. -/
theorem Stays.execute [PyFloat F] (hrefl : ∀ s, R s s) (hsettling : ∀ s t, Settling s t → G s t)
    (tool : ResolvedTool F W C) (kwargs : PyDict F)
    {q : Proc (ContextState F W C J) PyExc (ToolResult F)} (hq : Stays R G q) :
    Stays R G (cfg.execute tool kwargs q) := by
  unfold ContextConfig.execute
  split
  · exact hq
  · rename_i policy _
    refine (stays_atomic fun s => hsettling s _ (settling_prepareRequest policy _ _ s)).bind hrefl
      fun request => ?_
    split
    · exact stays_done _
    · refine hq.attempt.bind hrefl fun r => ?_
      cases r with
      | ok result =>
        exact (stays_atomic fun s => hsettling s _ (settling_completeRequest policy _ _ s)).bind
          hrefl fun _ => stays_done _
      | error e =>
        show Stays R G (if _ then _ else _)
        split
        · exact (stays_atomic fun s => hsettling s _ (settling_failRequest policy _ _ s)).bind
            hrefl fun _ => stays_done _
        · exact stays_done _

/-- A whole call: its preparation, the layers, and the event that tells of its
end. -/
theorem follows_layers [PyFloat F] [DecidableEq C] {call : ToolCall F C} {asyncMode : Bool}
    (hrefl : ∀ s, R s s) (hsettling : ∀ s t, Settling s t → G s t)
    (hprepare : ∀ s, G s (cfg.prepareCall i call asyncMode s).2)
    (hinvoke : ∀ s prepared, (cfg.prepareCall i call asyncMode s).1 = .ok prepared →
      ∀ t, G t (note i (.invoked prepared.handler prepared.args call.kwargs) t))
    (hend : ∀ s prepared, (cfg.prepareCall i call asyncMode s).1 = .ok prepared →
      ∀ started name t,
        G t (cfg.emitEnd i prepared started (lit "tool_failed") (lit "error_type", .str name) t).2 ∧
        G t (cfg.emitEnd i prepared started (lit "tool_completed")
          (lit "result_type", .str name) t).2)
    (s : ContextState F W C J) : Proc.Follows R G (cfg.toolCall i asyncMode call) s := by
  have hquiet : ∀ s t, Quiet s t → G s t := fun s t h => hsettling s t h.settling
  have hreport : ∀ t prepared, (cfg.prepareCall i call asyncMode t).1 = .ok prepared →
      Stays R G (cfg.reportCall i prepared (cfg.execute prepared.toResolvedTool call.kwargs
        (cfg.execution i asyncMode prepared.toResolvedTool call.kwargs))) := by
    intro t prepared hok
    have hexecute : Stays R G (cfg.execute prepared.toResolvedTool call.kwargs
        (cfg.execution i asyncMode prepared.toResolvedTool call.kwargs)) :=
      .execute hrefl hsettling _ _ (stays_execution hrefl hquiet (hinvoke t prepared hok) asyncMode)
    refine (stays_atomic fun s => hquiet s _ (quiet_onWorld _ s)).bind hrefl fun started =>
      hexecute.attempt.bind hrefl fun r => ?_
    cases r with
    | ok result =>
      exact (stays_atomic fun s => (hend t prepared hok started _ s).2).bind hrefl
        fun _ => stays_done _
    | error e =>
      show Stays _ _ (if _ then _ else _)
      split
      · exact (stays_atomic fun s => (hend t prepared hok started _ s).1).bind hrefl
          fun _ => stays_done _
      · exact stays_done _
  cases asyncMode with
  | true => exact Proc.follows_step fun t _ => ⟨hprepare t, fun prepared hok => hreport t prepared hok _⟩
  | false => exact Proc.follows_step fun t _ => ⟨hprepare t, fun prepared hok => hreport t prepared hok _⟩

end Follows

end ContextConfig

end AgentRoi
