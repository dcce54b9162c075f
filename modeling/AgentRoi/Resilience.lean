/-
`agent_roi.runtime.resilience`: retries and the circuit breaker.

The classes of exceptions to retry are a predicate and the delays come from
outside; the monotonic clock shows finite floats, and the recovery timeout is
one.

* `RetryPolicy`, `retryCall` — `retry_call` over any program;
* `CircuitBreaker` — `before_call`, `record_success` and `record_failure`;
* `recovered_iff` — the time since the opening is compared as a float;
* `beforeCall_refused` — only an open breaker, or one with a probe in flight,
  refuses a call.
-/
import AgentRoi.Interleaving
import AgentRoi.PyM
import AgentRoi.PyNumber

namespace AgentRoi

variable {W σ α : Type}

/-- `delay` is in microseconds. -/
structure RetryPolicy (W : Type) where
  maxAttempts : ℕ
  maxAttempts_pos : 1 ≤ maxAttempts
  shouldRetry : PyExc → Bool
  delay : ℕ → PyM W ℕ

/-- The attempts from `attempt` on, of which `remaining` are left. -/
def retryFrom (policy : RetryPolicy W) (pause : ℕ → Proc σ PyExc Unit) (fn : Proc σ PyExc α)
    (attempt : ℕ) : ℕ → Proc σ PyExc α
  | 0 => .raise (.other (lit "AssertionError") (some (lit "unreachable")) true)
  | remaining + 1 => do
    match ← fn.attempt with
    | .ok a => return a
    | .error e =>
      if attempt ≥ policy.maxAttempts || !policy.shouldRetry e then .raise e
      else do
        pause attempt
        retryFrom policy pause fn (attempt + 1) remaining

/-- `retry_call(fn, policy)`, where `pause` sleeps for the delay of an attempt. -/
def retryCall (policy : RetryPolicy W) (pause : ℕ → Proc σ PyExc Unit) (fn : Proc σ PyExc α) :
    Proc σ PyExc α := retryFrom policy pause fn 1 policy.maxAttempts

/-! ### The circuit breaker -/

inductive CircuitState where
  | closed
  | opened
  | halfOpen
  deriving DecidableEq

/-- The settings of a breaker, which its constructor checks. -/
structure CircuitBreaker where
  failureThreshold : ℕ
  recoveryTimeoutSeconds : Binary64
  successThreshold : ℕ
  failureThreshold_pos : 1 ≤ failureThreshold
  recoveryTimeout_pos : 0 < recoveryTimeoutSeconds.value
  successThreshold_pos : 1 ≤ successThreshold

/-- `_state`, `_failures`, `_successes`, `_opened_at` and `_probe_in_flight`. -/
structure BreakerMemory where
  state : CircuitState
  failures : ℕ
  successes : ℕ
  openedAt : Binary64
  probeInFlight : Bool
  deriving DecidableEq

namespace CircuitBreaker

variable {breaker : CircuitBreaker} {clock openedAt : Binary64} {m m' : BreakerMemory}

/-- `self.clock() - self._opened_at >= self.recovery_timeout_seconds`. -/
def recovered (breaker : CircuitBreaker) (clock openedAt : Binary64) : Bool :=
  PyNumber.le (.float (.finite breaker.recoveryTimeoutSeconds))
    (.float (Binary64.minus (.finite clock) (.finite openedAt)))

/-- The property `state`: an open breaker becomes half open in time. -/
def currentState (breaker : CircuitBreaker) (clock : Binary64) :
    PyM BreakerMemory CircuitState := do
  let m ← PyM.get
  if m.state = .opened ∧ breaker.recovered clock m.openedAt then
    .set { m with state := .halfOpen, probeInFlight := false }
    return .halfOpen
  else return m.state

def beforeCall (breaker : CircuitBreaker) (clock : Binary64) : PyM BreakerMemory Unit := do
  match ← currentState breaker clock with
  | .opened => .raise (.circuitOpenError (lit "Circuit breaker is open"))
  | .halfOpen =>
    let m ← PyM.get
    if m.probeInFlight then
      .raise (.circuitOpenError (lit "Circuit breaker half-open probe is already in progress"))
    else .set { m with probeInFlight := true }
  | .closed => return ()

def recordSuccess (breaker : CircuitBreaker) : PyM BreakerMemory Unit := do
  let m ← PyM.get
  if m.state = .halfOpen then
    if m.successes + 1 ≥ breaker.successThreshold then
      .set { m with state := .closed, failures := 0, successes := 0, probeInFlight := false }
    else .set { m with successes := m.successes + 1, probeInFlight := false }
  else .set { m with failures := 0 }

def recordFailure (breaker : CircuitBreaker) (clock : Binary64) : PyM BreakerMemory Unit := do
  let m ← PyM.get
  if m.state = .halfOpen ∨ m.failures + 1 ≥ breaker.failureThreshold then
    .set { m with state := .opened, failures := m.failures + 1, successes := 0
                  probeInFlight := false, openedAt := clock }
  else .set { m with failures := m.failures + 1, successes := 0, probeInFlight := false }

theorem recovered_iff : breaker.recovered clock openedAt = true ↔
    breaker.recoveryTimeoutSeconds.value ≤ nearest (clock.value - openedAt.value) :=
  PyNumber.le_rounded_iff breaker.recoveryTimeout_pos

/-- Whether the breaker is open, or half open with its probe in flight. -/
def Refusing (m : BreakerMemory) : Prop :=
  m.state = .opened ∨ (m.state = .halfOpen ∧ m.probeInFlight = true)

/-- Only an open breaker, or one with a probe in flight, refuses a call. -/
theorem beforeCall_refused {e : PyExc} (h : beforeCall breaker clock m = (.error e, m')) :
    Refusing m ∧ m' = m := by
  by_cases hopen : m.state = .opened ∧ breaker.recovered clock m.openedAt
  · -- the breaker has just become half open, and no probe is in flight
    simp [beforeCall, currentState, PyM.bind_apply, hopen] at h
  · cases hstate : m.state with
    | closed => simp [beforeCall, currentState, PyM.bind_apply, hstate] at h
    | opened =>
      simp only [hstate, true_and] at hopen
      simp [beforeCall, currentState, PyM.bind_apply, hstate, hopen] at h
      exact ⟨.inl hstate, h.2.symm⟩
    | halfOpen =>
      cases hprobe : m.probeInFlight with
      | false => simp [beforeCall, currentState, PyM.bind_apply, hstate, hprobe] at h
      | true =>
        simp [beforeCall, currentState, PyM.bind_apply, hstate, hprobe] at h
        exact ⟨.inr ⟨hstate, hprobe⟩, h.2.symm⟩

theorem recordSuccess_ok : (recordSuccess breaker m).1 = .ok () := by
  simp only [recordSuccess, PyM.get_bind]
  split
  · split <;> rfl
  · rfl

end CircuitBreaker

end AgentRoi
