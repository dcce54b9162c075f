/-
The rules for a pass of an outbox worker.

What a worker does to the store and to the world outside it does in a few
operations: it claims, it invokes a handler, and it settles what it claimed.

* `Within` — the rely and the guarantee of every worker: an invariant goes on
  holding, and the states before and after are related;
* `PassRules` — what each operation has to do for it: a claimed event is
  `Held`, and an event whose handler returned is `Landed`;
* `PassRules.runOnce_safe` — the rule for a pass, which retries, asks breakers
  and goes on with the next event;
* `PassRules.invariant` — the rule for every pool of workers.
-/
import AgentRoi.OutboxWorker

namespace AgentRoi

open OutboxWorld

variable {F W V T : Type} [PyFloat F]

/-- Where the invariant holds it goes on holding, and `Step` relates the
states. -/
def Within {σ : Type} (I : σ → Prop) (Step : σ → σ → Prop) (s t : σ) : Prop :=
  I s → I t ∧ Step s t

/-- What the operations of a worker's pass keep, and what is known of an event
that was claimed, and of one that its handler returned for. -/
structure PassRules (fleet : OutboxFleet F W V T) (i : ℕ) (I : OutboxWorld F W V T → Prop)
    (Step : OutboxWorld F W V T → OutboxWorld F W V T → Prop)
    (Held Landed : OutboxEvent F → OutboxWorld F W V T → Prop) : Prop where
  refl : ∀ s, Step s s
  trans : ∀ s t u, Step s t → Step t u → Step s u
  held : ∀ event s t, Step s t → Held event s → Held event t
  landed : ∀ event s t, Step s t → Landed event s → Landed event t
  /-- What breakers and the trace are told. -/
  aside : ∀ s t, t.tables = s.tables → t.outside = s.outside → I s → I t ∧ Step s t
  delay : ∀ attempt s, I s →
    let t := (onOutside ((fleet.workers i).retryPolicy.delay attempt) s).2
    I t ∧ Step s t
  take : ∀ limit destination s, I s →
    let result := OutboxWorker.take fleet i limit destination s
    I result.2 ∧ Step s result.2 ∧
      ∀ events, result.1 = .ok events → ∀ event ∈ events, Held event result.2
  invoke : ∀ event handler s, (fleet.workers i).handlers event.destination = some handler →
    I s → Held event s →
    let result := OutboxWorker.invoke i event handler s
    I result.2 ∧ Step s result.2 ∧ (result.1 = .ok () → Landed event result.2)
  finish : ∀ event s, I s → Held event s → Landed event s →
    let t := (OutboxWorker.finish fleet i event s).2
    I t ∧ Step s t
  bury : ∀ event e s, I s → Held event s →
    let t := (OutboxWorker.bury fleet i event e s).2
    I t ∧ Step s t
  postpone : ∀ event e s, I s → Held event s →
    let t := (OutboxWorker.postpone fleet i event e s).2
    I t ∧ Step s t

namespace PassRules

variable {fleet : OutboxFleet F W V T} {i : ℕ} {I : OutboxWorld F W V T → Prop}
  {Step : OutboxWorld F W V T → OutboxWorld F W V T → Prop}
  {Held Landed : OutboxEvent F → OutboxWorld F W V T → Prop}
  {s t : OutboxWorld F W V T} {event : OutboxEvent F}

/-- How the delivery of an event may end. -/
def Ended (Held Landed : OutboxEvent F → OutboxWorld F W V T → Prop) (event : OutboxEvent F)
    (r : Except PyExc Unit) (s : OutboxWorld F W V T) : Prop :=
  Held event s ∧ (r = .ok () → Landed event s)

/-- Every step of the program keeps to the rules. -/
abbrev Passes (I : OutboxWorld F W V T → Prop)
    (Step : OutboxWorld F W V T → OutboxWorld F W V T → Prop) {α : Type}
    (Q : Except PyExc α → OutboxWorld F W V T → Prop)
    (p : Proc (OutboxWorld F W V T) PyExc α) (s : OutboxWorld F W V T) : Prop :=
  Proc.Safe (Within I Step) (Within I Step) I Q p s

theorem within_refl (rules : PassRules fleet i I Step Held Landed) (s : OutboxWorld F W V T) :
    Within I Step s s := fun hs => ⟨hs, rules.refl s⟩

theorem within_trans (rules : PassRules fleet i I Step Held Landed)
    (s t u : OutboxWorld F W V T) (hst : Within I Step s t) (htu : Within I Step t u) :
    Within I Step s u := by
  intro hs
  obtain ⟨ht, hstep⟩ := hst hs
  obtain ⟨hu, hstep'⟩ := htu ht
  exact ⟨hu, rules.trans s t u hstep hstep'⟩

omit [PyFloat F] in
theorem ended_error (hheld : Held event s) (e : PyExc) :
    Ended Held Landed event (.error e) s := by
  refine ⟨hheld, fun hok => ?_⟩
  cases hok

theorem Ended.later (rules : PassRules fleet i I Step Held Landed) {r : Except PyExc Unit}
    (h : Ended Held Landed event r s) (hst : Step s t) : Ended Held Landed event r t :=
  ⟨rules.held event s t hst h.1, fun hok => rules.landed event s t hst (h.2 hok)⟩

omit [PyFloat F] in
/-- One step, from what is known before it. -/
theorem safe_of_step {α : Type} {x : PyM (OutboxWorld F W V T) α}
    {P : OutboxWorld F W V T → Prop} {Q : Except PyExc α → OutboxWorld F W V T → Prop}
    (hs : I s) (hp : P s) (hkeep : ∀ s t, Step s t → P s → P t)
    (hlater : ∀ r s t, Step s t → Q r s → Q r t)
    (hx : ∀ t, I t → P t → I (x t).2 ∧ Step t (x t).2 ∧ Q (x t).1 (x t).2) :
    Passes I Step Q (.atomic x) s := by
  refine Proc.safe_atomic fun t hst ht => ?_
  obtain ⟨hi, hstep, hq⟩ := hx t ht (hkeep s t (hst hs).2 hp)
  exact ⟨hi, fun _ => ⟨hi, hstep⟩, fun u hu _ => hlater _ _ u (hu hi).2 hq⟩

/-- A step that changes neither the tables nor the world outside. -/
theorem aside_safe (rules : PassRules fleet i I Step Held Landed) {α : Type}
    {x : PyM (OutboxWorld F W V T) α} {P : OutboxWorld F W V T → Prop}
    (hx : ∀ t, (x t).2.tables = t.tables ∧ (x t).2.outside = t.outside)
    (hkeep : ∀ s t, Step s t → P s → P t) (hs : I s) (hp : P s) :
    Passes I Step (fun _ t => P t) (.atomic x) s := by
  refine safe_of_step hs hp hkeep (fun _ => hkeep) fun t ht hpt => ?_
  obtain ⟨hi, hstep⟩ := rules.aside t (x t).2 (hx t).1 (hx t).2 ht
  exact ⟨hi, hstep, hkeep t _ hstep hpt⟩

theorem invoke_safe (rules : PassRules fleet i I Step Held Landed)
    {handler : OutboxEvent F → PyM W Unit}
    (hhandler : (fleet.workers i).handlers event.destination = some handler) (hs : I s)
    (hheld : Held event s) : Passes I Step (Ended Held Landed event)
      (.atomic (OutboxWorker.invoke i event handler)) s := by
  refine safe_of_step hs hheld (rules.held event) (fun r s t hst h => Ended.later rules h hst) ?_
  intro t ht hheldt
  obtain ⟨hi, hstep, hlanded⟩ := rules.invoke event handler t hhandler ht hheldt
  exact ⟨hi, hstep, rules.held event t _ hstep hheldt, hlanded⟩

omit [PyFloat F] in
theorem onBreaker_aside {α : Type} (b : ℕ) (x : PyM BreakerMemory α) (s : OutboxWorld F W V T) :
    (onBreaker b x s).2.tables = s.tables ∧ (onBreaker b x s).2.outside = s.outside := ⟨rfl, rfl⟩

theorem askBreaker_aside (b : ℕ) (s : OutboxWorld F W V T) :
    (OutboxWorker.askBreaker fleet i b event s).2.tables = s.tables ∧
      (OutboxWorker.askBreaker fleet i b event s).2.outside = s.outside := by
  rw [OutboxWorker.askBreaker, PyM.get_bind, PyM.tryExcept]
  rcases hbefore : onBreaker b ((fleet.breakers b).beforeCall s.monotonic) s with ⟨e | u, t⟩
  · have haside := onBreaker_aside b ((fleet.breakers b).beforeCall s.monotonic) s
    rw [hbefore] at haside
    exact haside
  · have haside := onBreaker_aside b ((fleet.breakers b).beforeCall s.monotonic) s
    rw [hbefore] at haside
    exact haside

/-- A handler behind a breaker. -/
theorem guarded_safe (rules : PassRules fleet i I Step Held Landed) {b : ℕ}
    {handler : OutboxEvent F → PyM W Unit}
    (hhandler : (fleet.workers i).handlers event.destination = some handler) (hs : I s)
    (hheld : Held event s) : Passes I Step (Ended Held Landed event)
      (OutboxWorker.guarded fleet i b event handler) s := by
  refine Proc.safe_bind (Q := fun _ t => Held event t) rules.within_refl
    (rules.aside_safe (askBreaker_aside b) (rules.held event) hs hheld) hs ?_
    fun e t _ h => ended_error h e
  intro _ t ht hheldt
  refine Proc.safe_attempt_bind rules.within_refl (rules.invoke_safe hhandler ht hheldt) ht ?_
  intro r u hu hended
  cases r with
  | ok _ =>
    -- what is known is known whatever `record_success` does
    refine (rules.aside_safe (P := Ended Held Landed event (.ok ())) (onBreaker_aside b _)
      (fun s t hst h => Ended.later rules h hst) hu hended).imp ?_
    exact fun q v _ h => ⟨h.1, fun _ => h.2 rfl⟩
  | error e =>
    refine Proc.safe_bind (Q := fun _ t => Held event t) rules.within_refl
      (rules.aside_safe (fun _ => ⟨rfl, rfl⟩) (rules.held event) hu hended.1) hu ?_
      fun e' v _ h => ended_error h e'
    intro _ v hv hheldv
    refine Proc.safe_raise fun w hvw _ => ?_
    exact ended_error (rules.held event v w (hvw hv).2 hheldv) e

theorem deliver_safe (rules : PassRules fleet i I Step Held Landed) (hs : I s)
    (hheld : Held event s) :
    Passes I Step (Ended Held Landed event) (OutboxWorker.deliver fleet i event) s := by
  rw [OutboxWorker.deliver]
  cases hhandler : (fleet.workers i).handlers event.destination with
  | none =>
    refine Proc.safe_raise fun t hst _ => ?_
    exact ended_error (rules.held event s t (hst hs).2 hheld) _
  | some handler =>
    cases (fleet.workers i).circuitBreakers event.destination with
    | none => exact rules.invoke_safe hhandler hs hheld
    | some b => exact rules.guarded_safe hhandler hs hheld

/-- The pause before the next attempt. -/
theorem pause_safe (rules : PassRules fleet i I Step Held Landed) {attempt : ℕ} (hs : I s)
    (hheld : Held event s) :
    Passes I Step (fun _ t => Held event t) (OutboxWorker.pause fleet i attempt) s := by
  refine safe_of_step hs hheld (rules.held event) (fun _ => rules.held event) fun t ht hheldt => ?_
  obtain ⟨hi, hstep⟩ := rules.delay attempt t ht
  have hsame : (onOutside (do
      let _ ← (fleet.workers i).retryPolicy.delay attempt
      return ()) t).2 = (onOutside ((fleet.workers i).retryPolicy.delay attempt) t).2 := by
    show { t with outside := _ } = { t with outside := _ }
    rcases hdelay : (fleet.workers i).retryPolicy.delay attempt t.outside with ⟨e | n, w⟩
    · rw [PyM.bind_of_error hdelay]
    · rw [PyM.bind_of_ok hdelay]
      rfl
  rw [hsame]
  exact ⟨hi, hstep, rules.held event t _ hstep hheldt⟩

/-- Induction on the attempts that are left. -/
theorem retryFrom_safe (rules : PassRules fleet i I Step Held Landed) {attempt remaining : ℕ}
    (hs : I s) (hheld : Held event s) :
    Passes I Step (Ended Held Landed event)
      (retryFrom (fleet.workers i).retryPolicy (OutboxWorker.pause fleet i)
        (OutboxWorker.deliver fleet i event) attempt remaining) s := by
  induction remaining generalizing attempt s with
  | zero =>
    refine Proc.safe_raise fun t hst _ => ?_
    exact ended_error (rules.held event s t (hst hs).2 hheld) _
  | succ remaining ih =>
    refine Proc.safe_attempt_bind rules.within_refl (rules.deliver_safe hs hheld) hs ?_
    intro r t ht hended
    cases r with
    | ok u => exact Proc.safe_pure fun v hv _ => Ended.later rules hended (hv ht).2
    | error e =>
      show Passes I Step _ (if _ then _ else _) t
      split
      · exact Proc.safe_raise fun v hv _ => Ended.later rules hended (hv ht).2
      · refine Proc.safe_bind (Q := fun _ v => Held event v) rules.within_refl
          (rules.pause_safe ht hended.1) ht ?_ fun e' v _ h => ended_error h e'
        exact fun _ v hv hheldv => ih hv hheldv

theorem settle_safe (rules : PassRules fleet i I Step Held Landed) {r : Except PyExc Unit}
    (hs : I s) (hended : Ended Held Landed event r s) :
    Passes I Step (fun _ _ => True) (OutboxWorker.settle fleet i event r) s := by
  have hlater : ∀ s t, Step s t → Ended Held Landed event r s → Ended Held Landed event r t :=
    fun s t hst h => Ended.later rules h hst
  cases r with
  | ok u =>
    refine safe_of_step hs hended hlater (fun _ _ _ _ _ => trivial) fun t ht h => ?_
    obtain ⟨hi, hstep⟩ := rules.finish event t ht h.1 (h.2 rfl)
    exact ⟨hi, hstep, trivial⟩
  | error e =>
    rw [OutboxWorker.settle]
    split_ifs
    · exact Proc.safe_raise fun _ _ _ => trivial
    · refine safe_of_step hs hended hlater (fun _ _ _ _ _ => trivial) fun t ht h => ?_
      obtain ⟨hi, hstep⟩ := rules.bury event e t ht h.1
      exact ⟨hi, hstep, trivial⟩
    · refine safe_of_step hs hended hlater (fun _ _ _ _ _ => trivial) fun t ht h => ?_
      obtain ⟨hi, hstep⟩ := rules.postpone event e t ht h.1
      exact ⟨hi, hstep, trivial⟩

/-- Induction on the events that were claimed. -/
theorem deliverAll_safe (rules : PassRules fleet i I Step Held Landed)
    {events : List (OutboxEvent F)} {summary : RunSummary} (hs : I s)
    (hheld : ∀ event ∈ events, Held event s) :
    Passes I Step (fun _ _ => True) (OutboxWorker.deliverAll fleet i events summary) s := by
  induction events generalizing summary s with
  | nil => exact Proc.safe_pure fun _ _ _ => trivial
  | cons event events ih =>
    obtain ⟨hfirst, hrest⟩ := List.forall_mem_cons.mp hheld
    -- the events that are still to come stay held
    have hkeep : ∀ s t, Within I Step s t → (I s ∧ ∀ event ∈ events, Held event s) →
        I t ∧ ∀ event ∈ events, Held event t := by
      intro s t hst h
      obtain ⟨ht, hstep⟩ := hst h.1
      exact ⟨ht, fun event he => rules.held event s t hstep (h.2 event he)⟩
    have hdelivery : Passes I Step (Ended Held Landed event)
        (retryFrom (fleet.workers i).retryPolicy (OutboxWorker.pause fleet i)
          (OutboxWorker.deliver fleet i event) 1 (fleet.workers i).retryPolicy.maxAttempts) s :=
      rules.retryFrom_safe hs hfirst
    refine Proc.safe_attempt_bind rules.within_refl (hdelivery.frame hkeep hkeep ⟨hs, hrest⟩) hs ?_
    intro r t ht h
    obtain ⟨hended, hmore⟩ := h
    refine Proc.safe_bind rules.within_refl
      ((rules.settle_safe ht hended).frame hkeep hkeep hmore) ht ?_ fun _ _ _ _ => trivial
    intro outcome u hu h
    exact ih hu h.2.2

/-- The rule for a pass. -/
theorem runOnce_safe (rules : PassRules fleet i I Step Held Landed) {limit : Int}
    {destination : Str} (hs : I s) :
    Passes I Step (fun _ _ => True) (OutboxWorker.runOnce fleet i limit destination) s := by
  refine Proc.safe_bind
    (Q := fun r t => ∀ events, r = .ok events → ∀ event ∈ events, Held event t)
    rules.within_refl ?_ hs ?_ fun _ _ _ _ => trivial
  · refine safe_of_step (P := fun _ => True) hs trivial (fun _ _ _ _ => trivial) ?_ ?_
    · intro r s t hst h events hevents event he
      exact rules.held event s t hst (h events hevents event he)
    · exact fun t ht _ => rules.take limit destination t ht
  · exact fun events t ht h => rules.deliverAll_safe ht (h events rfl)

/-- The rule for pools: what holds first, what the environment keeps and what
every worker keeps. -/
theorem invariant {init : OutboxWorld F W V T → Prop}
    {env : OutboxWorld F W V T → OutboxWorld F W V T → Prop}
    (hrules : ∀ i, PassRules fleet i I Step Held Landed) (hinit : ∀ s, init s → I s)
    (henv : ∀ s t, env s t → Within I Step s t)
    {pool : Pool ℕ (OutboxWorld F W V T) PyExc RunSummary}
    (hreach : Pool.Reach init
      (fun i p => ∃ limit destination, p = OutboxWorker.runOnce fleet i limit destination) env
      pool) : I pool.state := by
  refine (hreach.safe (R := fun _ => Within I Step) (G := fun _ => Within I Step)
    (Q := fun _ _ _ => True) ?_ hinit ?_).1
  · constructor
    · exact fun i => (hrules i).within_refl
    · exact fun i => (hrules i).within_trans
    · exact fun _ _ _ _ _ h => h
    · exact fun s t hst hs => (henv s t hst hs).1
    · exact fun _ s t hst => henv s t hst
  · rintro i p s ⟨limit, destination, rfl⟩ hs
    exact (hrules i).runOnce_safe hs

end PassRules

end AgentRoi
