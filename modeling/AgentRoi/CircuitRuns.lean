/-
Concurrent calls through one `CircuitBreaker` of `agent_roi.runtime.resilience`.

Each `before_call`, `record_success` and `record_failure` is one atomic step
under the lock.  Beside the breaker's own memory stands what the calls in
flight were admitted as, which the source does not remember.

* `Circuit`, `CircuitStep`, `perform` — a breaker with its calls in flight,
  and what may happen to it;
* `CircuitBreaker.call` — `call` and `acall`; every step of theirs is one of
  these (`call_moves`);
* `SingleProbe`, `ClosesByProbes`, `EarlierHarmless` — what half open promises;
* `half_open_probes` — it holds in every run in which no earlier call completes
  while the breaker is half open;
* `earlier_success_frees_probe_slot` — a call admitted before the breaker
  opened lets a second probe in.
-/
import AgentRoi.Resilience

namespace AgentRoi

variable {ι W α : Type}

/-- The state of the breaker a call was admitted in, and how often the breaker
had opened by then. -/
structure Admission where
  state : CircuitState
  opening : ℕ
  deriving DecidableEq

/-- `probeSuccesses` counts the successes, since the breaker last opened, of
calls admitted since then while it was half open. -/
structure Circuit (ι : Type) where
  memory : BreakerMemory
  inFlight : ι → Option Admission
  opening : ℕ
  probeSuccesses : ℕ

inductive CircuitStep (ι : Type) where
  | start (i : ι) (clock : Binary64)
  | observe (clock : Binary64)
  | succeed (i : ι)
  | fail (i : ι) (clock : Binary64)

namespace Circuit

/-- A new breaker. -/
def fresh : Circuit ι := ⟨⟨.closed, 0, 0, .zero, false⟩, fun _ => none, 0, 0⟩

/-- The call was admitted as a probe since the breaker last opened. -/
def Probe (c : Circuit ι) (i : ι) : Prop := c.inFlight i = some ⟨.halfOpen, c.opening⟩

/-- Whether `record_failure` takes the branch that opens the breaker. -/
def Opens (breaker : CircuitBreaker) (m : BreakerMemory) : Prop :=
  m.state = .halfOpen ∨ m.failures + 1 ≥ breaker.failureThreshold

instance (breaker : CircuitBreaker) (m : BreakerMemory) : Decidable (Opens breaker m) := by
  unfold Opens; infer_instance

variable [DecidableEq ι]

def started (breaker : CircuitBreaker) (i : ι) (clock : Binary64) (c : Circuit ι) : Circuit ι :=
  match breaker.beforeCall clock c.memory with
  | (.ok _, m) =>
    { c with memory := m, inFlight := Function.update c.inFlight i (some ⟨m.state, c.opening⟩) }
  | (.error _, m) => { c with memory := m }

def succeeded (breaker : CircuitBreaker) (i : ι) (a : Admission) (c : Circuit ι) : Circuit ι :=
  { memory := (breaker.recordSuccess c.memory).2
    inFlight := Function.update c.inFlight i none
    opening := c.opening
    probeSuccesses := if a = ⟨.halfOpen, c.opening⟩ then c.probeSuccesses + 1 else c.probeSuccesses }

def failed (breaker : CircuitBreaker) (i : ι) (clock : Binary64) (c : Circuit ι) : Circuit ι :=
  { memory := (breaker.recordFailure clock c.memory).2
    inFlight := Function.update c.inFlight i none
    opening := if Opens breaker c.memory then c.opening + 1 else c.opening
    probeSuccesses := if Opens breaker c.memory then 0 else c.probeSuccesses }

/-- One step; none where it cannot be taken. -/
def perform (breaker : CircuitBreaker) : CircuitStep ι → Circuit ι → Option (Circuit ι)
  | .start i clock, c => if c.inFlight i = none then some (c.started breaker i clock) else none
  | .observe clock, c => some { c with memory := (breaker.currentState clock c.memory).2 }
  | .succeed i, c => (c.inFlight i).map fun a => c.succeeded breaker i a
  | .fail i clock, c => (c.inFlight i).map fun _ => c.failed breaker i clock

/-- The circuits that can arise through steps of a kind. -/
inductive Reach (breaker : CircuitBreaker) (allowed : Circuit ι → CircuitStep ι → Prop) :
    Circuit ι → Prop
  | fresh : Reach breaker allowed fresh
  | step {c c' : Circuit ι} {s : CircuitStep ι} : Reach breaker allowed c → allowed c s →
      perform breaker s c = some c' → Reach breaker allowed c'

/-! ### What half open promises -/

/-- At most one call in flight was admitted while the breaker was half open. -/
def SingleProbe (c : Circuit ι) : Prop :=
  ∀ i j a b, c.inFlight i = some a → c.inFlight j = some b → a.state = .halfOpen →
    b.state = .halfOpen → i = j

/-- Half open becomes closed through successes of its probes only. -/
def ClosesByProbes (breaker : CircuitBreaker) (c c' : Circuit ι) : Prop :=
  c.memory.state = .halfOpen → c'.memory.state = .closed →
    breaker.successThreshold ≤ c'.probeSuccesses

/-- The completion of a call that is no probe neither closes the breaker nor
frees the probe slot. -/
def EarlierHarmless (c : Circuit ι) (s : CircuitStep ι) (c' : Circuit ι) : Prop :=
  ∀ i, (s = .succeed i ∨ ∃ clock, s = .fail i clock) → ¬ c.Probe i →
    (c.memory.state ≠ .closed → c'.memory.state ≠ .closed) ∧
      (c.memory.probeInFlight = true → c'.memory.probeInFlight = true)

/-- While the breaker is half open only its probes complete; another call may
fail while no probe is in flight. -/
def Undisturbed (c : Circuit ι) : CircuitStep ι → Prop
  | .succeed i => c.memory.state = .halfOpen → c.Probe i
  | .fail i _ => c.memory.state = .halfOpen → c.memory.probeInFlight = true → c.Probe i
  | _ => True

end Circuit

/-! ### The calls themselves -/

/-- A breaker with the clock it reads and the state outside. -/
structure CircuitWorld (ι W : Type) where
  circuit : Circuit ι
  clock : Binary64
  outside : W

namespace CircuitBreaker

variable [DecidableEq ι] {breaker : CircuitBreaker} {i : ι}

/-- `self.before_call()` of the call `i`. -/
def begin (breaker : CircuitBreaker) (i : ι) : PyM (CircuitWorld ι W) Unit := fun w =>
  ((breaker.beforeCall w.clock w.circuit.memory).1,
    { w with circuit := w.circuit.started breaker i w.clock })

/-- A step of the circuit, at the time the clock shows. -/
def take (breaker : CircuitBreaker) (s : Binary64 → CircuitStep ι) : PyM (CircuitWorld ι W) Unit :=
  .modify fun w => { w with circuit := (Circuit.perform breaker (s w.clock) w.circuit).getD w.circuit }

/-- `call(fn)` and `acall(fn)`; `i` names the call. -/
def call (breaker : CircuitBreaker) (i : ι) (fn : Proc (CircuitWorld ι W) PyExc α) :
    Proc (CircuitWorld ι W) PyExc α := do
  .atomic (begin breaker i)
  match ← fn.attempt with
  | .error e =>
    .atomic (take breaker (.fail i))
    .raise e
  | .ok a =>
    .atomic (take breaker fun _ => .succeed i)
    return a

/-- Others do not complete the call. -/
def Keeps (i : ι) (w w' : CircuitWorld ι W) : Prop := w'.circuit.inFlight i = w.circuit.inFlight i

/-- The circuit takes one of its steps, or none. -/
def Moves (breaker : CircuitBreaker) (w w' : CircuitWorld ι W) : Prop :=
  w'.circuit = w.circuit ∨ ∃ s, Circuit.perform breaker s w.circuit = some w'.circuit

theorem take_moves (s : Binary64 → CircuitStep ι) (w : CircuitWorld ι W) :
    Moves breaker w (take breaker s w).2 := by
  rcases hs : Circuit.perform breaker (s w.clock) w.circuit with _ | c
  · exact .inl (by simp [take, hs])
  · exact .inr ⟨s w.clock, by simp [take, hs]⟩

/-- A call through the breaker takes the steps of the circuit, if the handler
does: it may call through the same breaker itself. -/
theorem call_moves {fn : Proc (CircuitWorld ι W) PyExc α} {w : CircuitWorld ι W}
    (hfn : ∀ t, Proc.Follows (Keeps i) (Moves breaker) fn t) (hfree : w.circuit.inFlight i = none) :
    Proc.Follows (Keeps i) (Moves breaker) (call breaker i fn) w := by
  have hrefl : ∀ t : CircuitWorld ι W, Keeps i t t := fun _ => rfl
  refine Proc.follows_step fun t ht => ⟨.inr ⟨.start i t.clock, ?_⟩, fun _ _ => ?_⟩
  · -- the call is not in flight yet
    have hnone : t.circuit.inFlight i = none := Eq.trans ht hfree
    simp [Circuit.perform, begin, hnone]
  · refine Proc.follows_bind hrefl (Proc.safe_attempt (hfn _) fun _ _ _ _ => trivial) fun r u => ?_
    cases r with
    | error e => exact Proc.follows_step fun v _ => ⟨take_moves _ v, fun _ _ => Proc.follows_raise⟩
    | ok a => exact Proc.follows_step fun v _ => ⟨take_moves _ v, fun _ _ => Proc.follows_pure⟩

end CircuitBreaker

namespace CircuitBreaker

variable {breaker : CircuitBreaker} {clock : Binary64} {m m' : BreakerMemory}

/-! ### What the methods do to the memory -/

variable (breaker clock m) in
/-- Reading the state changes an open breaker only. -/
theorem currentState_cases : (breaker.currentState clock m).2 = m ∨
    (m.state = .opened ∧
      (breaker.currentState clock m).2 = { m with state := .halfOpen, probeInFlight := false }) := by
  by_cases h : m.state = .opened ∧ breaker.recovered clock m.openedAt
  · exact .inr ⟨h.1, by simp [currentState, PyM.bind_apply, h]⟩
  · exact .inl (by simp [currentState, PyM.bind_apply, h])

variable (breaker clock m) in
/-- A call is admitted by a closed breaker, or as the probe of a half open one
that has no other in flight. -/
theorem beforeCall_cases : (∃ e, breaker.beforeCall clock m = (.error e, m)) ∨
    (m.state = .closed ∧ breaker.beforeCall clock m = (.ok (), m)) ∨
    ((m.state = .opened ∨ (m.state = .halfOpen ∧ m.probeInFlight = false)) ∧
      breaker.beforeCall clock m =
        (.ok (), { m with state := .halfOpen, probeInFlight := true })) := by
  rcases hr : breaker.beforeCall clock m with ⟨e | _, m'⟩
  · obtain ⟨-, rfl⟩ := beforeCall_refused hr
    exact .inl ⟨e, rfl⟩
  · right
    rw [← hr]
    by_cases hopen : m.state = .opened ∧ breaker.recovered clock m.openedAt
    · exact .inr ⟨.inl hopen.1, by simp [beforeCall, currentState, PyM.bind_apply, hopen]⟩
    · cases hstate : m.state with
      | closed => exact .inl ⟨rfl, by simp [beforeCall, currentState, PyM.bind_apply, hstate]⟩
      | opened =>
        -- an open breaker whose time has not come refuses
        simp only [hstate, true_and] at hopen
        simp [beforeCall, currentState, PyM.bind_apply, hstate, hopen] at hr
      | halfOpen =>
        cases hprobe : m.probeInFlight with
        | true => simp [beforeCall, currentState, PyM.bind_apply, hstate, hprobe] at hr
        | false =>
          refine .inr ⟨.inr ⟨rfl, rfl⟩, ?_⟩
          simp [beforeCall, currentState, PyM.bind_apply, hstate, hprobe]

theorem recordSuccess_halfOpen (h : m.state = .halfOpen) :
    (breaker.recordSuccess m).2 = if m.successes + 1 ≥ breaker.successThreshold then
      { m with state := .closed, failures := 0, successes := 0, probeInFlight := false }
    else { m with successes := m.successes + 1, probeInFlight := false } := by
  simp only [recordSuccess, PyM.get_bind, if_pos h]
  split <;> rfl

theorem recordSuccess_of_ne (h : m.state ≠ .halfOpen) :
    (breaker.recordSuccess m).2 = { m with failures := 0 } := by
  simp only [recordSuccess, PyM.get_bind, if_neg h]
  rfl

theorem recordFailure_eq : (breaker.recordFailure clock m).2 = if Circuit.Opens breaker m then
      { m with state := .opened, failures := m.failures + 1, successes := 0
               probeInFlight := false, openedAt := clock }
    else { m with failures := m.failures + 1, successes := 0, probeInFlight := false } := by
  simp only [recordFailure, PyM.get_bind]
  by_cases h : m.state = .halfOpen ∨ m.failures + 1 ≥ breaker.failureThreshold
  · rw [if_pos h, if_pos (show Circuit.Opens breaker m from h)]
    rfl
  · rw [if_neg h, if_neg (show ¬ Circuit.Opens breaker m from h)]
    rfl

end CircuitBreaker

namespace Circuit

variable {breaker : CircuitBreaker} {c c' : Circuit ι} {s : CircuitStep ι}

/-! ### Runs in which no earlier call interferes -/

/-- What holds while no earlier call interferes: a call admitted as a probe is
the one the breaker waits for, and its successes are those of its probes. -/
structure Inv (c : Circuit ι) : Prop where
  probe : ∀ i a, c.inFlight i = some a → a.state = .halfOpen →
    c.memory.state = .halfOpen ∧ c.memory.probeInFlight = true ∧ a.opening = c.opening
  single : SingleProbe c
  slot : c.memory.probeInFlight = true → c.memory.state = .halfOpen
  opened : c.memory.state = .opened → c.memory.successes = 0
  successes : c.memory.state = .halfOpen → c.memory.successes ≤ c.probeSuccesses

theorem inv_fresh : Inv (fresh : Circuit ι) where
  probe := by intro i a h; cases h
  single := by intro i j a b h; cases h
  slot := by intro h; cases h
  opened := by intro h; cases h
  successes := by intro h; cases h

/-- A probe in flight is admitted since the breaker last opened. -/
theorem Inv.probe_of_halfOpen (hi : Inv c) {i : ι} {a : Admission} (h : c.inFlight i = some a)
    (ha : a.state = .halfOpen) : c.Probe i := by
  obtain ⟨-, -, hopening⟩ := hi.probe i a h ha
  rw [Probe, h, ← ha, ← hopening]

/-- Where no probe is in flight, no call in flight was admitted as one. -/
theorem Inv.not_halfOpen (hi : Inv c)
    (h : c.memory.state ≠ .halfOpen ∨ c.memory.probeInFlight = false) {i : ι} {a : Admission}
    (ha : c.inFlight i = some a) : a.state ≠ .halfOpen := by
  intro hstate
  obtain ⟨hhalf, hprobe, -⟩ := hi.probe i a ha hstate
  rcases h with h | h
  · exact h hhalf
  · rw [hprobe] at h
    cases h

theorem single_of_none (h : ∀ i a, c.inFlight i = some a → a.state ≠ .halfOpen) :
    SingleProbe c := fun i _ a _ ha _ hstate _ => absurd hstate (h i a ha)

theorem Inv.observe (hi : Inv c) (clock : Binary64) :
    Inv { c with memory := (breaker.currentState clock c.memory).2 } := by
  rcases CircuitBreaker.currentState_cases breaker clock c.memory
    with hm | ⟨hopened, hm⟩
  · rw [hm]
    exact hi
  · -- no probe is in flight when an open breaker becomes half open
    have hnone : ∀ i a, c.inFlight i = some a → a.state ≠ .halfOpen := fun i a ha =>
      hi.not_halfOpen (.inl (by rw [hopened]; decide)) ha
    rw [hm]
    exact ⟨fun i a ha hstate => absurd hstate (hnone i a ha), single_of_none hnone,
      fun h => (by cases h), fun h => (by cases h),
      fun _ => (hi.opened hopened).trans_le (Nat.zero_le _)⟩

variable [DecidableEq ι]

/-- Once the probe has completed, none is in flight. -/
theorem Inv.after_probe (hi : Inv c) {i j : ι} {a : Admission} (h : c.Probe i)
    (ha : Function.update c.inFlight i none j = some a) : a.state ≠ .halfOpen := by
  intro hstate
  by_cases hij : j = i
  · subst hij
    rw [Function.update_self] at ha
    cases ha
  · rw [Function.update_of_ne hij] at ha
    exact hij (hi.single j i a _ ha h hstate rfl)

/-- The completion of another call leaves none in flight where there was none. -/
theorem Inv.after_other (hi : Inv c)
    (h : c.memory.state ≠ .halfOpen ∨ c.memory.probeInFlight = false) {i j : ι} {a : Admission}
    (ha : Function.update c.inFlight i none j = some a) : a.state ≠ .halfOpen := by
  by_cases hij : j = i
  · subst hij
    rw [Function.update_self] at ha
    cases ha
  · rw [Function.update_of_ne hij] at ha
    exact hi.not_halfOpen h ha

theorem Inv.start (hi : Inv c) (i : ι) (clock : Binary64) : Inv (c.started breaker i clock) := by
  rcases CircuitBreaker.beforeCall_cases breaker clock c.memory
    with ⟨e, he⟩ | ⟨hclosed, he⟩ | ⟨hfree, he⟩
  · simp only [started, he]
    exact hi
  · -- the call in flight is no probe
    simp only [started, he]
    have hnone : ∀ j a, Function.update c.inFlight i (some ⟨c.memory.state, c.opening⟩) j = some a →
        a.state ≠ .halfOpen := by
      intro j a ha
      by_cases hij : j = i
      · subst hij
        rw [Function.update_self, Option.some.injEq] at ha
        subst ha
        simp [hclosed]
      · rw [Function.update_of_ne hij] at ha
        exact hi.not_halfOpen (.inl (by rw [hclosed]; decide)) ha
    exact ⟨fun j a ha hstate => absurd hstate (hnone j a ha), single_of_none hnone,
      hi.slot, hi.opened, hi.successes⟩
  · -- the call is the only probe
    have hnone : ∀ j a, c.inFlight j = some a → a.state ≠ .halfOpen := by
      intro j a ha
      refine hi.not_halfOpen ?_ ha
      rcases hfree with hopened | ⟨-, hslot⟩
      · exact .inl (by rw [hopened]; decide)
      · exact .inr hslot
    have honly : ∀ j a, Function.update c.inFlight i (some ⟨.halfOpen, c.opening⟩) j = some a →
        a.state = .halfOpen → j = i ∧ a.opening = c.opening := by
      intro j a ha hstate
      by_cases hij : j = i
      · subst hij
        rw [Function.update_self, Option.some.injEq] at ha
        subst ha
        exact ⟨rfl, rfl⟩
      · rw [Function.update_of_ne hij] at ha
        exact absurd hstate (hnone j a ha)
    simp only [started, he]
    refine ⟨fun j a ha hstate => ⟨rfl, rfl, (honly j a ha hstate).2⟩, ?_, fun _ => rfl,
      fun h => (by cases h), fun _ => ?_⟩
    · intro j k a b ha hb hstate hstate'
      rw [(honly j a ha hstate).1, (honly k b hb hstate').1]
    · show c.memory.successes ≤ c.probeSuccesses
      rcases hfree with hopened | ⟨hhalf, -⟩
      · exact (hi.opened hopened).trans_le (Nat.zero_le _)
      · exact hi.successes hhalf

theorem Inv.succeed (hi : Inv c) {i : ι} {a : Admission} (ha : c.inFlight i = some a)
    (hu : Undisturbed c (.succeed i)) : Inv (c.succeeded breaker i a) := by
  by_cases hhalf : c.memory.state = .halfOpen
  · have hprobe : c.Probe i := hu hhalf
    have hcount : a = ⟨.halfOpen, c.opening⟩ := by
      rw [Probe, ha, Option.some.injEq] at hprobe
      exact hprobe
    have hnone : ∀ j b, (c.succeeded breaker i a).inFlight j = some b → b.state ≠ .halfOpen :=
      fun j b hb => hi.after_probe hprobe hb
    have hle := hi.successes hhalf
    refine ⟨fun j b hb hstate => absurd hstate (hnone j b hb), single_of_none hnone, ?_, ?_, ?_⟩ <;>
      simp only [succeeded, CircuitBreaker.recordSuccess_halfOpen hhalf, if_pos hcount] <;>
      split <;> simp [hhalf, hle]
  · have hnone : ∀ j b, (c.succeeded breaker i a).inFlight j = some b → b.state ≠ .halfOpen :=
      fun j b hb => hi.after_other (.inl hhalf) hb
    refine ⟨fun j b hb hstate => absurd hstate (hnone j b hb), single_of_none hnone, ?_, ?_, ?_⟩ <;>
      simp only [succeeded, CircuitBreaker.recordSuccess_of_ne hhalf]
    · exact hi.slot
    · exact hi.opened
    · exact fun h => absurd h hhalf

theorem Inv.fail (hi : Inv c) {i : ι} {clock : Binary64} (hu : Undisturbed c (.fail i clock)) :
    Inv (c.failed breaker i clock) := by
  have hnone : ∀ j b, (c.failed breaker i clock).inFlight j = some b → b.state ≠ .halfOpen := by
    intro j b hb
    by_cases hwaits : c.memory.state = .halfOpen ∧ c.memory.probeInFlight = true
    · exact hi.after_probe (hu hwaits.1 hwaits.2) hb
    · refine hi.after_other ?_ hb
      rw [not_and_or, Bool.not_eq_true] at hwaits
      exact hwaits
  refine ⟨fun j b hb hstate => absurd hstate (hnone j b hb), single_of_none hnone, ?_, ?_, ?_⟩ <;>
    simp only [failed, CircuitBreaker.recordFailure_eq] <;> split <;> simp

theorem Inv.step (hi : Inv c) (hu : Undisturbed c s) (h : perform breaker s c = some c') :
    Inv c' := by
  cases s with
  | start i clock =>
    simp only [perform] at h
    split at h
    · cases h
      exact hi.start i clock
    · cases h
  | observe clock =>
    cases h
    exact hi.observe clock
  | succeed i =>
    simp only [perform, Option.map_eq_some_iff] at h
    obtain ⟨a, ha, rfl⟩ := h
    exact hi.succeed ha hu
  | fail i clock =>
    simp only [perform, Option.map_eq_some_iff] at h
    obtain ⟨a, -, rfl⟩ := h
    exact hi.fail hu

theorem Reach.inv (h : Reach breaker Undisturbed c) : Inv c := by
  induction h with
  | fresh => exact inv_fresh
  | step _ hu hperform ih => exact ih.step hu hperform

/-- An undisturbed step closes a half open breaker by a success of its probe. -/
theorem Inv.closes (hi : Inv c) (hu : Undisturbed c s) (h : perform breaker s c = some c') :
    ClosesByProbes breaker c c' := by
  intro hhalf hclosed
  cases s with
  | start i clock =>
    simp only [perform] at h
    split at h
    · cases h
      rcases CircuitBreaker.beforeCall_cases breaker clock c.memory
        with ⟨e, he⟩ | ⟨hstate, -⟩ | ⟨-, he⟩
      · simp [started, he, hhalf] at hclosed
      · rw [hhalf] at hstate
        cases hstate
      · simp [started, he] at hclosed
    · cases h
  | observe clock =>
    cases h
    rcases CircuitBreaker.currentState_cases breaker clock c.memory
      with hm | ⟨hopened, -⟩
    · simp [hm, hhalf] at hclosed
    · rw [hhalf] at hopened
      cases hopened
  | succeed i =>
    simp only [perform, Option.map_eq_some_iff] at h
    obtain ⟨a, ha, rfl⟩ := h
    -- an undisturbed success while half open is that of the probe
    have hcount : a = ⟨.halfOpen, c.opening⟩ := by
      have hprobe : c.Probe i := hu hhalf
      rw [Probe, ha, Option.some.injEq] at hprobe
      exact hprobe
    -- the breaker counts no more successes than its probes had
    have hle := hi.successes hhalf
    simp only [succeeded, CircuitBreaker.recordSuccess_halfOpen hhalf] at hclosed
    show breaker.successThreshold ≤ if a = ⟨.halfOpen, c.opening⟩ then _ else _
    rw [if_pos hcount]
    split at hclosed
    · omega
    · simp [hhalf] at hclosed
  | fail i clock =>
    simp only [perform, Option.map_eq_some_iff] at h
    obtain ⟨a, -, rfl⟩ := h
    simp only [failed, CircuitBreaker.recordFailure_eq] at hclosed
    split at hclosed
    · cases hclosed
    · simp [hhalf] at hclosed

theorem Inv.earlier_harmless (hi : Inv c) (hu : Undisturbed c s)
    (h : perform breaker s c = some c') : EarlierHarmless c s c' := by
  rintro i (rfl | ⟨clock, rfl⟩) hprobe
  · simp only [perform, Option.map_eq_some_iff] at h
    obtain ⟨a, -, rfl⟩ := h
    have hhalf : c.memory.state ≠ .halfOpen := fun hhalf => hprobe (hu hhalf)
    simp only [succeeded, CircuitBreaker.recordSuccess_of_ne hhalf]
    exact ⟨id, id⟩
  · simp only [perform, Option.map_eq_some_iff] at h
    obtain ⟨a, -, rfl⟩ := h
    have hslot : c.memory.probeInFlight ≠ true := fun hslot => hprobe (hu (hi.slot hslot) hslot)
    refine ⟨fun hstate => ?_, fun h => absurd h hslot⟩
    simp only [failed, CircuitBreaker.recordFailure_eq]
    split
    · simp
    · exact hstate

/-- While no earlier call completes in the half open state, one probe is in
flight at a time, and only its successes close the breaker. -/
theorem half_open_probes (h : Reach breaker Undisturbed c) : SingleProbe c ∧
    ∀ s c', Undisturbed c s → perform breaker s c = some c' →
      ClosesByProbes breaker c c' ∧ EarlierHarmless c s c' :=
  ⟨h.inv.single, fun _ _ hu hs => ⟨h.inv.closes hu hs, h.inv.earlier_harmless hu hs⟩⟩

/-- One failure opens it, for half a minute. -/
def sampleBreaker : CircuitBreaker :=
  ⟨1, .ofSmallInt 30 (by decide), 2, Nat.one_pos, by decide, by decide⟩

/-- The clock half a minute after its start. -/
def halfMinute : Binary64 := .ofSmallInt 30 (by decide)

theorem halfMinute_pos : 0 < halfMinute.value := by decide

theorem half_open_probes_sample :
    SingleProbe (started sampleBreaker 1 halfMinute (failed sampleBreaker 0 .zero
      (started sampleBreaker 0 .zero (fresh : Circuit ℕ)))) :=
  (half_open_probes (((Reach.fresh.step (s := .start 0 .zero) trivial rfl).step
    (s := .fail 0 .zero) (fun h => by cases h) rfl).step
    (s := .start 1 halfMinute) trivial rfl)).1

def runAll (breaker : CircuitBreaker) : List (CircuitStep ι) → Circuit ι → Option (Circuit ι)
  | [], c => some c
  | s :: steps, c => (perform breaker s c).bind (runAll breaker steps)

theorem Reach.runAll {steps : List (CircuitStep ι)} (h : Reach breaker (fun _ _ => True) c)
    (hrun : runAll breaker steps c = some c') : Reach breaker (fun _ _ => True) c' := by
  induction steps generalizing c with
  | nil =>
    cases hrun
    exact h
  | cons s steps ih =>
    obtain ⟨c₁, hs, hrest⟩ := Option.bind_eq_some_iff.mp hrun
    exact ih (h.step trivial hs) hrest

/-- Two calls are admitted by a closed breaker; one fails and opens it, and the
other returns when half a minute later a probe is in flight. -/
def disturbedRun : List (CircuitStep ℕ) :=
  [.start 0 .zero, .start 1 .zero, .fail 0 .zero, .start 2 halfMinute, .succeed 1,
    .start 3 halfMinute]

/-- A call admitted before the breaker opened frees the probe slot, and a
second probe is admitted. -/
theorem earlier_success_frees_probe_slot :
    ¬ ∀ (breaker : CircuitBreaker) (c : Circuit ℕ), Reach breaker (fun _ _ => True) c →
      SingleProbe c ∧ ∀ s c', perform breaker s c = some c' →
        ClosesByProbes breaker c c' ∧ EarlierHarmless c s c' := by
  intro hclaim
  have hrun : ((runAll sampleBreaker disturbedRun fresh).map
      fun c => (c.inFlight 2, c.inFlight 3)) =
      some (some ⟨.halfOpen, 1⟩, some ⟨.halfOpen, 1⟩) := by decide +kernel
  obtain ⟨c, hc, hcalls⟩ := Option.map_eq_some_iff.mp hrun
  obtain ⟨h₂, h₃⟩ := Prod.mk.inj hcalls
  have hsame := (hclaim _ c (Reach.fresh.runAll hc)).1 2 3 _ _ h₂ h₃ rfl rfl
  cases hsame

end Circuit

end AgentRoi
