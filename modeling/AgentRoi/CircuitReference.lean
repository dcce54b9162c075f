/-
The circuit breaker of `agent_roi.runtime.resilience`, used by one call after
the other.

The reference remembers no fields: it looks at the history of the calls that
ran, newest first, and at the time each failure was seen.  The time since the
breaker opened is the float nearest to the difference of two readings of the
clock, as the source computes it; where that difference has more than 53 bits,
the float can reach the recovery timeout first (`rounded_recovery`).

* `Completion`, `standing`, `lastOpening`, `recentlyOpened` — what a history
  says of the breaker;
* `elapsed_lt_of_recentlyOpened` — the rounding never keeps a breaker open that
  has waited long enough;
* `Use`, `use`, `useAll` — calls, reads of `state` and the time between them;
* `Reference`, `referenceUse`, `referenceUseAll` — the same uses by the history;
* `Remembers` — the fields of a breaker after a history;
* `useAll_eq_reference` — the breaker shows what the reference shows.
-/
import AgentRoi.CircuitRuns

namespace AgentRoi

namespace CircuitBreaker

variable {ι W α : Type} {breaker : CircuitBreaker}

/-! ### What a history says -/

/-- How a call that ran has ended; a failure is seen at a time. -/
inductive Completion where
  | succeeded
  | failed (clock : Binary64)

/-- Closed after so many failures in a row, since the last success, closing or
start; or recovering after so many successful probes in a row. -/
inductive Standing where
  | closed (failures : ℕ)
  | recovering (probes : ℕ)
  deriving DecidableEq

def standing (breaker : CircuitBreaker) : List Completion → Standing
  | [] => .closed 0
  | .succeeded :: older =>
    match standing breaker older with
    | .closed _ => .closed 0
    | .recovering probes =>
      if breaker.successThreshold ≤ probes + 1 then .closed 0 else .recovering (probes + 1)
  | .failed _ :: older =>
    match standing breaker older with
    | .closed failures =>
      if breaker.failureThreshold ≤ failures + 1 then .recovering 0 else .closed (failures + 1)
    | .recovering _ => .recovering 0

/-- The time at which the breaker last opened: each failure after which it is
not closed opens it. -/
def lastOpening (breaker : CircuitBreaker) : List Completion → Option Binary64
  | [] => none
  | .succeeded :: older => lastOpening breaker older
  | .failed clock :: older =>
    match standing breaker (.failed clock :: older) with
    | .closed _ => lastOpening breaker older
    | .recovering _ => some clock

/-- The time from one reading of the clock to another, as a float. -/
def elapsed (opening clock : Binary64) : ℚ := nearest (clock.value - opening.value)

/-- The breaker last opened less than the recovery timeout ago. -/
def recentlyOpened (breaker : CircuitBreaker) (history : List Completion) (clock : Binary64) :
    Bool :=
  (lastOpening breaker history).any fun opening =>
    elapsed opening clock < breaker.recoveryTimeoutSeconds.value

/-- The state that shows. -/
def shown (breaker : CircuitBreaker) (history : List Completion) (clock : Binary64) :
    CircuitState :=
  match standing breaker history with
  | .closed _ => .closed
  | .recovering _ => if recentlyOpened breaker history clock then .opened else .halfOpen

/-- Closed after `n` failures in a row since the last success, or the start;
a breaker that has just closed has seen a success. -/
theorem standing_eq_closed_iff {history : List Completion} {n : ℕ} :
    standing breaker history = .closed n ↔ n < breaker.failureThreshold ∧
      ∃ (clocks : List Binary64) (older : List Completion), clocks.length = n ∧
        history = clocks.map .failed ++ older ∧ standing breaker older = .closed 0 ∧
          (older = [] ∨ ∃ rest, older = .succeeded :: rest) := by
  induction history generalizing n with
  | nil =>
    constructor
    · intro h
      cases h
      exact ⟨breaker.failureThreshold_pos, [], [], rfl, rfl, rfl, .inl rfl⟩
    · rintro ⟨-, clocks, older, rfl, hsplit, -, -⟩
      obtain ⟨hclocks, -⟩ := List.append_eq_nil_iff.mp hsplit.symm
      rw [List.map_eq_nil_iff] at hclocks
      subst hclocks
      rfl
  | cons newest older ih =>
    cases newest with
    | succeeded =>
      constructor
      · intro h
        -- a success leaves no failure in a row
        have hn : n = 0 := by
          rw [standing] at h
          split at h
          · cases h
            rfl
          · split at h <;> cases h
            rfl
        subst hn
        exact ⟨breaker.failureThreshold_pos, [], _, rfl, rfl, h, .inr ⟨older, rfl⟩⟩
      · rintro ⟨-, clocks, rest, rfl, hsplit, hstanding, -⟩
        cases clocks with
        | nil =>
          rw [hsplit]
          exact hstanding
        | cons clock clocks => cases hsplit
    | failed clock =>
      constructor
      · intro h
        rw [standing] at h
        split at h
        · split at h
          · cases h
          · next failures hbefore hfewer =>
            cases h
            obtain ⟨-, clocks, rest, hlength, hsplit, hrest⟩ := ih.mp hbefore
            exact ⟨not_le.mp hfewer, clock :: clocks, rest, by simp [hlength],
              by simp [hsplit], hrest⟩
        · cases h
      · rintro ⟨hlt, clocks, rest, rfl, hsplit, hstanding, hrest⟩
        cases clocks with
        | nil =>
          -- the newest call has failed
          rcases hrest with rfl | ⟨_, rfl⟩ <;> cases hsplit
        | cons first clocks =>
          simp only [List.map_cons, List.cons_append, List.cons.injEq] at hsplit
          simp only [List.length_cons] at hlt ⊢
          have hbefore := ih.mpr ⟨Nat.lt_of_succ_lt hlt, clocks, rest, rfl, hsplit.2, hstanding, hrest⟩
          rw [standing, hbefore]
          simp only [if_neg (not_le.mpr hlt)]

/-! ### Uses of the breaker -/

/-- What a function and the time between two calls work on. -/
structure Surroundings (W : Type) where
  clock : Binary64
  outside : W

/-- A function to call; the clock does not go back while it runs. -/
structure Action (W α : Type) where
  body : Proc (Surroundings W) PyExc α
  forward : ∀ s, s.clock.value ≤ (body.run s).2.clock.value

/-- While a user waits, the clock goes on in any way but back. -/
inductive Use (ι W α : Type) where
  | call (i : ι) (fn : Action W α)
  | readState
  | wait (tick : Binary64 → Binary64) (forward : ∀ clock, clock.value ≤ (tick clock).value)
    (change : W → W)

/-- What the user of the breaker sees. -/
inductive Observation (α : Type) where
  | outcome (r : Except PyExc α)
  | state (r : Except PyExc CircuitState)
  | nothing

def surroundings (w : CircuitWorld ι W) : Surroundings W := ⟨w.clock, w.outside⟩

def setSurroundings (w : CircuitWorld ι W) (s : Surroundings W) : CircuitWorld ι W :=
  { w with clock := s.clock, outside := s.outside }

/-- The function as one of the calls through the breaker. -/
def Action.proc (fn : Action W α) : Proc (CircuitWorld ι W) PyExc α :=
  fn.body.within surroundings setSurroundings

variable [DecidableEq ι]

def use (breaker : CircuitBreaker) : Use ι W α → CircuitWorld ι W → Observation α × CircuitWorld ι W
  | .call i fn, w => let r := (breaker.call i fn.proc).run w; (.outcome r.1, r.2)
  | .readState, w =>
    let r := breaker.currentState w.clock w.circuit.memory
    (.state r.1, { w with circuit := { w.circuit with memory := r.2 } })
  | .wait tick _ change, w =>
    (.nothing, { w with clock := tick w.clock, outside := change w.outside })

def useAll (breaker : CircuitBreaker) :
    List (Use ι W α) → CircuitWorld ι W → List (Observation α) × CircuitWorld ι W
  | [], w => ([], w)
  | u :: us, w =>
    let r := use breaker u w
    let rest := useAll breaker us r.2
    (r.1 :: rest.1, rest.2)

/-- The reference, which has the history in place of a memory. -/
structure Reference (W : Type) where
  history : List Completion
  clock : Binary64
  outside : W

/-- How a call has ended that ran until the clock showed a time. -/
def completion (r : Except PyExc α) (clock : Binary64) : Completion :=
  match r with
  | .ok _ => .succeeded
  | .error _ => .failed clock

def referenceUse (breaker : CircuitBreaker) :
    Use ι W α → Reference W → Observation α × Reference W
  | .call _ fn, r =>
    if recentlyOpened breaker r.history r.clock then
      (.outcome (.error (.circuitOpenError (lit "Circuit breaker is open"))), r)
    else
      let s := fn.body.run ⟨r.clock, r.outside⟩
      (.outcome s.1, ⟨completion s.1 s.2.clock :: r.history, s.2.clock, s.2.outside⟩)
  | .readState, r => (.state (.ok (shown breaker r.history r.clock)), r)
  | .wait tick _ change, r =>
    (.nothing, { r with clock := tick r.clock, outside := change r.outside })

def referenceUseAll (breaker : CircuitBreaker) :
    List (Use ι W α) → Reference W → List (Observation α) × Reference W
  | [], r => ([], r)
  | u :: us, r =>
    let s := referenceUse breaker u r
    let rest := referenceUseAll breaker us s.2
    (s.1 :: rest.1, rest.2)

/-! ### The fields after a history -/

omit [DecidableEq ι]

/-- The fields of a breaker, between two calls, after a history. -/
inductive Remembers (breaker : CircuitBreaker) (history : List Completion) (clock : Binary64)
    (m : BreakerMemory) : Prop
  | closed (hstate : m.state = .closed) (hstanding : standing breaker history = .closed m.failures)
      (hfailures : m.failures < breaker.failureThreshold)
      (hrecent : recentlyOpened breaker history clock = false)
  | opened (hstate : m.state = .opened) (hstanding : standing breaker history = .recovering 0)
      (hopening : lastOpening breaker history = some m.openedAt) (hsuccesses : m.successes = 0)
  | halfOpen (hstate : m.state = .halfOpen)
      (hstanding : standing breaker history = .recovering m.successes)
      (hrecent : recentlyOpened breaker history clock = false) (hprobe : m.probeInFlight = false)

/-- The fields while a call runs after a history. -/
inductive Admits (breaker : CircuitBreaker) (history : List Completion) (m : BreakerMemory) : Prop
  | closed (hstate : m.state = .closed) (hstanding : standing breaker history = .closed m.failures)
      (hfailures : m.failures < breaker.failureThreshold)
  | probe (hstate : m.state = .halfOpen)
      (hstanding : standing breaker history = .recovering m.successes)

variable {history : List Completion} {opening clock clock' : Binary64} {m : BreakerMemory}

/-- Once the recovery timeout has passed, it stays so. -/
theorem timeout_le_elapsed_later (hle : clock.value ≤ clock'.value)
    (h : breaker.recoveryTimeoutSeconds.value ≤ elapsed opening clock) :
    breaker.recoveryTimeoutSeconds.value ≤ elapsed opening clock' := by
  have hforward : 0 ≤ clock.value - opening.value := by
    by_contra hback
    have hpos := breaker.recoveryTimeout_pos
    have hnonpos : elapsed opening clock ≤ 0 := nearest_nonpos (not_le.mp hback).le
    linarith
  exact h.trans (nearest_mono hforward (by linarith))

theorem recentlyOpened_later (hle : clock.value ≤ clock'.value)
    (h : recentlyOpened breaker history clock = false) :
    recentlyOpened breaker history clock' = false := by
  rw [recentlyOpened, Option.any_eq_false_iff_get] at h ⊢
  intro hsome
  have hpassed := h hsome
  simp only [decide_eq_false_iff_not, not_lt] at hpassed ⊢
  exact timeout_le_elapsed_later hle hpassed

theorem recentlyOpened_of_lastOpening (clock : Binary64)
    (h : lastOpening breaker history = some opening) : recentlyOpened breaker history clock =
      !breaker.recovered clock opening := by
  have hiff : breaker.recovered clock opening = true ↔
      breaker.recoveryTimeoutSeconds.value ≤ nearest (clock.value - opening.value) :=
    recovered_iff
  rw [recentlyOpened, h, Option.any_some, elapsed]
  cases hrecovered : breaker.recovered clock opening with
  | true => simpa using hiff.mp hrecovered
  | false =>
    rw [hrecovered] at hiff
    simpa using hiff

/-- A breaker that opened recently, by the float, did so by the exact time too:
rounding does not take a difference below the timeout. -/
theorem elapsed_lt_of_recentlyOpened (h : recentlyOpened breaker history clock = true)
    (hopening : lastOpening breaker history = some opening) :
    clock.value - opening.value < breaker.recoveryTimeoutSeconds.value := by
  rw [recentlyOpened, hopening, Option.any_some, decide_eq_true_iff, elapsed] at h
  by_contra hpassed
  have hround := nearest_mono breaker.recoveryTimeout_pos.le (not_lt.mp hpassed)
  rw [nearest_value breaker.recoveryTimeoutSeconds.hasBits] at hround
  linarith

theorem remembers_fresh (clock : Binary64) :
    Remembers breaker [] clock (Circuit.fresh : Circuit ι).memory :=
  .closed rfl rfl breaker.failureThreshold_pos rfl

/-- Time changes nothing the breaker remembers. -/
theorem Remembers.later (hle : clock.value ≤ clock'.value) (h : Remembers breaker history clock m) :
    Remembers breaker history clock' m := by
  cases h with
  | closed hstate hstanding hfailures hrecent =>
    exact .closed hstate hstanding hfailures (recentlyOpened_later hle hrecent)
  | opened hstate hstanding hopening hsuccesses =>
    exact .opened hstate hstanding hopening hsuccesses
  | halfOpen hstate hstanding hrecent hprobe =>
    exact .halfOpen hstate hstanding (recentlyOpened_later hle hrecent) hprobe

/-- Reading the state shows what the history says. -/
theorem Remembers.currentState (h : Remembers breaker history clock m) :
    ∃ m', breaker.currentState clock m = (.ok m'.state, m') ∧
      m'.state = shown breaker history clock ∧ Remembers breaker history clock m' := by
  cases h with
  | closed hstate hstanding hfailures hrecent =>
    refine ⟨m, ?_, ?_, .closed hstate hstanding hfailures hrecent⟩
    · simp [CircuitBreaker.currentState, PyM.bind_apply, hstate]
    · simp [shown, hstate, hstanding]
  | halfOpen hstate hstanding hrecent hprobe =>
    refine ⟨m, ?_, ?_, .halfOpen hstate hstanding hrecent hprobe⟩
    · simp [CircuitBreaker.currentState, PyM.bind_apply, hstate]
    · simp [shown, hstate, hstanding, hrecent]
  | opened hstate hstanding hopening hsuccesses =>
    have hrecent := recentlyOpened_of_lastOpening clock hopening
    cases hrecovered : breaker.recovered clock m.openedAt with
    | false =>
      rw [hrecovered] at hrecent
      refine ⟨m, ?_, ?_, .opened hstate hstanding hopening hsuccesses⟩
      · simp [CircuitBreaker.currentState, PyM.bind_apply, hstate, hrecovered]
      · simp [shown, hstate, hstanding, hrecent]
    | true =>
      -- the recovery timeout has passed
      rw [hrecovered] at hrecent
      refine ⟨{ m with state := .halfOpen, probeInFlight := false }, ?_, ?_,
        .halfOpen rfl (hstanding.trans (by rw [hsuccesses])) hrecent rfl⟩
      · simp [CircuitBreaker.currentState, PyM.bind_apply, hstate, hrecovered]
      · simp [shown, hstanding, hrecent]

/-- A call is refused when the breaker opened recently, and else admitted. -/
theorem Remembers.beforeCall (h : Remembers breaker history clock m) :
    (recentlyOpened breaker history clock = true ∧ breaker.beforeCall clock m =
        (.error (.circuitOpenError (lit "Circuit breaker is open")), m)) ∨
      (recentlyOpened breaker history clock = false ∧
        ∃ m', breaker.beforeCall clock m = (.ok (), m') ∧ Admits breaker history m') := by
  obtain ⟨m', hread, hshown, hm'⟩ := h.currentState
  cases hm' with
  | closed hstate hstanding hfailures hrecent =>
    refine .inr ⟨hrecent, m', ?_, .closed hstate hstanding hfailures⟩
    simp [CircuitBreaker.beforeCall, PyM.bind_apply, hread, hstate]
  | halfOpen hstate hstanding hrecent hprobe =>
    refine .inr ⟨hrecent, { m' with probeInFlight := true }, ?_, .probe hstate hstanding⟩
    simp [CircuitBreaker.beforeCall, PyM.bind_apply, hread, hstate, hprobe]
  | opened hstate hstanding hopening hsuccesses =>
    -- a breaker that a read leaves open has opened recently
    have hrecent : recentlyOpened breaker history clock = true := by
      by_contra hnot
      rw [hstate, shown, hstanding] at hshown
      simp [hnot] at hshown
    have hsame : m' = m := by
      rcases currentState_cases breaker clock m with hsame | ⟨-, hhalf⟩
      · rwa [hread] at hsame
      · simp only [hread] at hhalf
        rw [hhalf] at hstate
        cases hstate
    subst hsame
    refine .inl ⟨hrecent, ?_⟩
    simp [CircuitBreaker.beforeCall, PyM.bind_apply, hread, hstate]

/-- A call that returns. -/
theorem Admits.succeeded (h : Admits breaker history m)
    (hrecent : recentlyOpened breaker history clock = false) :
    Remembers breaker (.succeeded :: history) clock (breaker.recordSuccess m).2 := by
  cases h with
  | closed hstate hstanding hfailures =>
    rw [recordSuccess_of_ne (by rw [hstate]; decide)]
    exact .closed hstate (by simp [standing, hstanding]) breaker.failureThreshold_pos hrecent
  | probe hstate hstanding =>
    rw [recordSuccess_halfOpen hstate]
    by_cases henough : m.successes + 1 ≥ breaker.successThreshold
    · rw [if_pos henough]
      exact .closed rfl (by simp [standing, hstanding, henough]) breaker.failureThreshold_pos hrecent
    · rw [if_neg henough]
      exact .halfOpen hstate (by simp [standing, hstanding, henough]) hrecent rfl

/-- A call that raises. -/
theorem Admits.failed (h : Admits breaker history m)
    (hrecent : recentlyOpened breaker history clock = false) :
    Remembers breaker (.failed clock :: history) clock (breaker.recordFailure clock m).2 := by
  rw [recordFailure_eq]
  cases h with
  | closed hstate hstanding hfailures =>
    by_cases hreached : m.failures + 1 ≥ breaker.failureThreshold
    · have hstands : standing breaker (.failed clock :: history) = .recovering 0 := by
        simp [standing, hstanding, hreached]
      rw [if_pos (.inr hreached)]
      exact .opened rfl hstands (by rw [lastOpening, hstands]) rfl
    · have hstands : standing breaker (.failed clock :: history) = .closed (m.failures + 1) := by
        simp [standing, hstanding, hreached]
      have hopens : ¬ Circuit.Opens breaker m := by simp [Circuit.Opens, hstate, hreached]
      rw [if_neg hopens]
      refine .closed hstate hstands (not_le.mp hreached) ?_
      rw [recentlyOpened, lastOpening, hstands]
      exact hrecent
  | probe hstate hstanding =>
    -- a failed probe reopens the breaker
    have hstands : standing breaker (.failed clock :: history) = .recovering 0 := by
      simp [standing, hstanding]
    rw [if_pos (.inl hstate)]
    exact .opened rfl hstands (by rw [lastOpening, hstands]) rfl

/-! ### One use after the other -/

/-- The breaker and the reference have seen the same. -/
structure Agrees (breaker : CircuitBreaker) (w : CircuitWorld ι W) (r : Reference W) : Prop where
  clock : w.clock = r.clock
  outside : w.outside = r.outside
  memory : Remembers breaker r.history r.clock w.circuit.memory

theorem run_proc (fn : Action W α) (w : CircuitWorld ι W) : fn.proc.run w =
    ((fn.body.run ⟨w.clock, w.outside⟩).1,
      setSurroundings w (fn.body.run ⟨w.clock, w.outside⟩).2) :=
  Proc.run_within (fun w s => (rfl : surroundings (setSurroundings w s) = s)) (fun _ => rfl)
    (fun _ _ _ => rfl) fn.body w

variable [DecidableEq ι] {w : CircuitWorld ι W} {r : Reference W} {i : ι}

theorem run_call_of_refused {e : PyExc} (fn : Action W α)
    (h : breaker.beforeCall w.clock w.circuit.memory = (.error e, w.circuit.memory)) :
    (breaker.call i fn.proc).run w = (.error e, w) := by
  have hbegin : (Proc.atomic (breaker.begin i)).run w = (.error e, w) := by
    show breaker.begin i w = (.error e, w)
    simp [begin, Circuit.started, h]
  rw [call, Proc.run_bind, hbegin]

theorem run_take (s : Binary64 → CircuitStep ι) (w : CircuitWorld ι W) :
    (Proc.atomic (breaker.take s)).run w =
      (.ok (), { w with circuit := (Circuit.perform breaker (s w.clock) w.circuit).getD w.circuit }) :=
  rfl

/-- The function of an admitted call runs to its end, which is then recorded. -/
theorem run_call_of_admitted {m' : BreakerMemory} (fn : Action W α)
    (h : breaker.beforeCall w.clock w.circuit.memory = (.ok (), m')) :
    ∃ c : Circuit ι, (breaker.call i fn.proc).run w =
        ((fn.body.run ⟨w.clock, w.outside⟩).1,
          setSurroundings { w with circuit := c } (fn.body.run ⟨w.clock, w.outside⟩).2) ∧
      c.memory = match (fn.body.run ⟨w.clock, w.outside⟩).1 with
        | .ok _ => (breaker.recordSuccess m').2
        | .error _ => (breaker.recordFailure (fn.body.run ⟨w.clock, w.outside⟩).2.clock m').2 := by
  have hbegin : (Proc.atomic (breaker.begin i)).run w =
      (.ok (), { w with circuit := w.circuit.started breaker i w.clock }) := by
    show breaker.begin i w = _
    simp [begin, h]
  rw [call, Proc.run_bind, hbegin]
  dsimp only
  rw [Proc.run_bind, Proc.run_attempt, run_proc]
  dsimp only
  -- the call is in flight when its end is recorded
  have hflight : (w.circuit.started breaker i w.clock).inFlight i =
      some ⟨m'.state, w.circuit.opening⟩ := by
    simp [Circuit.started, h]
  have hmemory : (w.circuit.started breaker i w.clock).memory = m' := by
    simp [Circuit.started, h]
  rcases fn.body.run ⟨w.clock, w.outside⟩ with ⟨e | a, s⟩
  · refine ⟨(w.circuit.started breaker i w.clock).failed breaker i s.clock, ?_, ?_⟩
    · rw [Proc.run_bind, run_take]
      simp [Circuit.perform, hflight, setSurroundings]
    · show (breaker.recordFailure s.clock (w.circuit.started breaker i w.clock).memory).2 = _
      rw [hmemory]
  · refine ⟨(w.circuit.started breaker i w.clock).succeeded breaker i
      ⟨m'.state, w.circuit.opening⟩, ?_, ?_⟩
    · rw [Proc.run_bind, run_take]
      simp [Circuit.perform, hflight, setSurroundings]
    · show (breaker.recordSuccess (w.circuit.started breaker i w.clock).memory).2 = _
      rw [hmemory]

/-- A step of the simulation: both show the same, and stay in agreement. -/
theorem Agrees.use (h : Agrees breaker w r) (u : Use ι W α) :
    (CircuitBreaker.use breaker u w).1 = (referenceUse breaker u r).1 ∧
      Agrees breaker (CircuitBreaker.use breaker u w).2 (referenceUse breaker u r).2 := by
  obtain ⟨hclock, houtside, hmemory⟩ := h
  cases u with
  | readState =>
    obtain ⟨m', hread, hshown, hm'⟩ := hmemory.currentState
    rw [← hclock] at hread
    simp only [CircuitBreaker.use, referenceUse, hread, hshown]
    exact ⟨trivial, hclock, houtside, hm'⟩
  | wait tick forward change =>
    simp only [CircuitBreaker.use, referenceUse]
    exact ⟨trivial, by rw [hclock], by rw [houtside], hmemory.later (forward r.clock)⟩
  | call i fn =>
    rcases hmemory.beforeCall with ⟨hrecent, hbefore⟩ | ⟨hrecent, m', hbefore, hadmits⟩
    · rw [← hclock] at hbefore
      simp only [CircuitBreaker.use, referenceUse, run_call_of_refused fn hbefore, if_pos hrecent]
      exact ⟨trivial, hclock, houtside, hmemory⟩
    · rw [← hclock] at hbefore
      obtain ⟨c, hrun, hc⟩ := run_call_of_admitted (i := i) fn hbefore
      -- what is known of the clock when the function ends
      have hforward := fn.forward ⟨r.clock, r.outside⟩
      rw [hclock, houtside] at hrun hc
      simp only [CircuitBreaker.use, referenceUse, hrun, hrecent, Bool.false_eq_true, if_false]
      refine ⟨trivial, rfl, rfl, ?_⟩
      show Remembers breaker (completion _ _ :: r.history) _ c.memory
      rw [hc]
      have hlater := recentlyOpened_later hforward hrecent
      cases (fn.body.run ⟨r.clock, r.outside⟩).1 with
      | ok a => exact hadmits.succeeded hlater
      | error e => exact hadmits.failed hlater

theorem Agrees.useAll (h : Agrees breaker w r) (us : List (Use ι W α)) :
    (CircuitBreaker.useAll breaker us w).1 = (referenceUseAll breaker us r).1 ∧
      Agrees breaker (CircuitBreaker.useAll breaker us w).2 (referenceUseAll breaker us r).2 := by
  induction us generalizing w r with
  | nil => exact ⟨rfl, h⟩
  | cons u us ih =>
    obtain ⟨hfirst, hnext⟩ := h.use u
    obtain ⟨hrest, hlast⟩ := ih hnext
    exact ⟨congrArg₂ List.cons hfirst hrest, hlast⟩

/-- While the breaker is closed it has counted its failures in a row, and fewer
than the threshold. -/
theorem Remembers.of_closed {history : List Completion} {clock : Binary64} {m : BreakerMemory}
    (h : Remembers breaker history clock m) (hclosed : m.state = .closed) :
    standing breaker history = .closed m.failures ∧ m.failures < breaker.failureThreshold := by
  cases h with
  | closed _ hstanding hfailures _ => exact ⟨hstanding, hfailures⟩
  | opened hstate => rw [hstate] at hclosed; cases hclosed
  | halfOpen hstate => rw [hstate] at hclosed; cases hclosed

/-- Used by one call after the other, with reads of its state and any time in
between, a new breaker shows what the reference shows and leaves the outside as
the reference does; while closed it has seen fewer failures in a row than its
threshold, and while it refuses less than the timeout has passed exactly. -/
theorem useAll_eq_reference (breaker : CircuitBreaker) (us : List (Use ι W α)) (clock : Binary64)
    (outside : W) :
    let used := useAll breaker us ⟨Circuit.fresh, clock, outside⟩
    let reference := referenceUseAll breaker us ⟨[], clock, outside⟩
    used.1 = reference.1 ∧ surroundings used.2 = ⟨reference.2.clock, reference.2.outside⟩ ∧
      (used.2.circuit.memory.state = .closed →
        standing breaker reference.2.history = .closed used.2.circuit.memory.failures ∧
          used.2.circuit.memory.failures < breaker.failureThreshold) ∧
      ∀ opening, lastOpening breaker reference.2.history = some opening →
        recentlyOpened breaker reference.2.history reference.2.clock = true →
          reference.2.clock.value - opening.value < breaker.recoveryTimeoutSeconds.value := by
  have hfresh : Agrees breaker (⟨Circuit.fresh, clock, outside⟩ : CircuitWorld ι W)
      ⟨[], clock, outside⟩ := ⟨rfl, rfl, remembers_fresh clock⟩
  obtain ⟨hshown, hagrees⟩ := hfresh.useAll us
  refine ⟨hshown, ?_, hagrees.memory.of_closed, fun opening hopening hrecent => ?_⟩
  · rw [surroundings, hagrees.clock, hagrees.outside]
  · exact elapsed_lt_of_recentlyOpened hrecent hopening

end CircuitBreaker

namespace CircuitBreaker

/-! ### A difference with more than 53 bits -/

/-- The float `0.7`. -/
def openingTime : Binary64 := ⟨nearest (7 / 10), hasBits_nearest _, by decide +kernel⟩

/-- The float `30.7`. -/
def probeTime : Binary64 := ⟨nearest (307 / 10), hasBits_nearest _, by decide +kernel⟩

/-- One failure opens it for 30 seconds, and one success closes it. -/
def thirtySeconds : CircuitBreaker :=
  ⟨1, Circuit.halfMinute, 1, Nat.one_pos, Circuit.halfMinute_pos, Nat.one_pos⟩

def failingAction : Action Unit Unit := ⟨.raise .overflowError, fun _ => le_rfl⟩

def returningAction : Action Unit Unit := ⟨pure (), fun _ => le_rfl⟩

/-- The clock shows `30.7`, if it has not gone further. -/
def untilProbe (clock : Binary64) : Binary64 :=
  if clock.value ≤ probeTime.value then probeTime else clock

theorem le_untilProbe (clock : Binary64) : clock.value ≤ (untilProbe clock).value := by
  rw [untilProbe]
  split
  · assumption
  · exact le_rfl

/-- The function was invoked, and returned. -/
def Observation.returned {α : Type} : Observation α → Bool
  | .outcome (.ok _) => true
  | _ => false

/-- A function that returns is invoked at `30.7` by a breaker that opened at
`0.7`, which is less than 30 seconds before. -/
theorem rounded_recovery :
    let opened := use thirtySeconds (.call 0 failingAction) ⟨Circuit.fresh, openingTime, ()⟩
    let waited : CircuitWorld ℕ Unit :=
      (use thirtySeconds (.wait untilProbe le_untilProbe id : Use ℕ Unit Unit) opened.2).2
    opened.2.circuit.memory.state = .opened ∧
      opened.2.circuit.memory.openedAt = openingTime ∧ waited.clock = probeTime ∧
      probeTime.value - openingTime.value < thirtySeconds.recoveryTimeoutSeconds.value ∧
      (use thirtySeconds (.call 0 returningAction) waited).1.returned = true := by
  decide +kernel

end CircuitBreaker

end AgentRoi
