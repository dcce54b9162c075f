/-
`retry_call` and `aretry_call` of `agent_roi.runtime.resilience`, with the
delays that `RetryPolicy` computes.

* `Platform` — float powers, and what `time.sleep` and `timedelta` take;
* `AcceptedPolicy.retryCall` — `retry_call`, which waits between the attempts;
* `logged` — a function with the list of what its invocations came to;
* `Transparent` — the function is invoked until it returns, raises what should
  not be retried or has been invoked often enough, and its last outcome is
  passed on;
* `retry_bounded_iff` — when the delays keep their bounds, and when every
  function is retried transparently.
-/
import AgentRoi.Resilience
import AgentRoi.RetryDelay

namespace AgentRoi

variable {σ α : Type}

/-- What the platform decides: the last bits of a float power, the numbers of
seconds `time.sleep` takes, and `timedelta(seconds=…)` in microseconds. -/
structure Platform where
  power : PowerFunction
  sleepable : PyNumber → Bool
  timedelta : PyNumber → Except PyExc ℕ

/-- What `random.random()` returns. -/
structure Draw extends Sample where
  lt_one : toFloat.value < 1

/-- `random.random()` and the passing of time, on a state. -/
structure Waiting (σ : Type) where
  random : σ → Draw × σ
  wait : PyNumber → σ → σ

namespace AcceptedPolicy

variable (platform : Platform) (p : AcceptedPolicy) (waiting : Waiting σ)

/-- `policy.delay(attempt)`. -/
def drawDelay (attempt : ℕ) : PyM σ PyNumber := fun s =>
  (p.delay platform.power attempt (waiting.random s).1.toSample, (waiting.random s).2)

/-- `time.sleep(seconds)`. -/
def sleep (seconds : PyNumber) : PyM σ Unit := fun s =>
  if platform.sleepable seconds then (.ok (), waiting.wait seconds s)
  else (.error .overflowError, s)

/-- `time.sleep(policy.delay(attempt))`. -/
def pause (attempt : ℕ) : Proc σ PyExc Unit := do
  let seconds ← .atomic (p.drawDelay platform waiting attempt)
  .atomic (sleep platform waiting seconds)

/-- The policy, where `max_attempts` is an integer. -/
def policy (n : ℤ) (h : p.maxAttempts.integer = some n) : RetryPolicy σ where
  maxAttempts := n.toNat
  maxAttempts_pos := by
    have := p.sound.attempts n h
    omega
  shouldRetry := p.shouldRetry
  delay attempt := do
    let seconds ← p.drawDelay platform waiting attempt
    .ofExcept (platform.timedelta seconds)

/-- `retry_call(fn, policy)`; `range` takes integers only. -/
def retryCall (fn : Proc σ PyExc α) : Proc σ PyExc α :=
  match h : p.maxAttempts.integer with
  | none => .raise (.typeError (lit "'float' object cannot be interpreted as an integer"))
  | some n =>
    AgentRoi.retryCall (p.policy platform waiting n h) (p.pause platform waiting) fn

end AcceptedPolicy

/-! ### Invocations -/

/-- A function that leaves a list of what its invocations came to, the last one
first. -/
def logged (fn : Proc σ PyExc α) : Proc (σ × List (Except PyExc α)) PyExc α := do
  let outcome ← (fn.within Prod.fst fun t s => (s, t.2)).attempt
  .atomic fun t => (outcome, (t.1, outcome :: t.2))

/-- Waiting beside the list. -/
def Waiting.beside (waiting : Waiting σ) (τ : Type) : Waiting (σ × τ) where
  random t := ((waiting.random t.1).1, ((waiting.random t.1).2, t.2))
  wait seconds t := (waiting.wait seconds t.1, t.2)

/-- The function was invoked at least once and at most `max_attempts` times, all
invocations but the last raised what should be retried, and the last one did
not, or was the last allowed; its outcome is the one passed on. -/
def Transparent (p : RetryFields) (result : Except PyExc α) (log : List (Except PyExc α)) : Prop :=
  ∃ earlier, log = result :: earlier ∧ PyNumber.le (.int log.length) p.maxAttempts = true ∧
    (∀ r ∈ earlier, ∃ e, r = .error e ∧ p.shouldRetry e = true) ∧
    ∀ e, result = .error e → p.shouldRetry e = true →
      PyNumber.le p.maxAttempts (.int log.length) = true

theorem run_logged (fn : Proc σ PyExc α) (t : σ × List (Except PyExc α)) : (logged fn).run t =
    ((fn.run t.1).1, ((fn.run t.1).2, (fn.run t.1).1 :: t.2)) := by
  have hwithin := Proc.run_within (fun (t : σ × List (Except PyExc α)) (s : σ) =>
    (rfl : Prod.fst ((s, t.2) : σ × List (Except PyExc α)) = s)) (fun _ => rfl)
    (fun _ _ _ => rfl) fn t
  rw [logged, Proc.run_bind, Proc.run_attempt, hwithin]
  rfl

/-! ### One attempt after the other -/

section

variable {W : Type} {policy : RetryPolicy W} {fn : Proc σ PyExc α}
  {pause : ℕ → Proc (σ × List (Except PyExc α)) PyExc Unit} {s : σ} {log : List (Except PyExc α)}
  {attempt remaining : ℕ}

/-- The function returns, or raises what is not retried or no attempt is left. -/
theorem run_retryFrom_last (hlast : ∀ e, (fn.run s).1 = .error e →
      attempt ≥ policy.maxAttempts ∨ policy.shouldRetry e = false) :
    (retryFrom policy pause (logged fn) attempt (remaining + 1)).run (s, log) =
      ((fn.run s).1, ((fn.run s).2, (fn.run s).1 :: log)) := by
  rw [retryFrom, Proc.run_bind, Proc.run_attempt, run_logged]
  dsimp only
  rcases hrun : (fn.run s).1 with e | a
  · have hstop : (decide (attempt ≥ policy.maxAttempts) || !policy.shouldRetry e) = true := by
      rcases hlast e hrun with h | h <;> simp [h]
    simp only [hstop, if_true]
    rfl
  · rfl

/-- The function raises what is retried. -/
theorem run_retryFrom_next {e : PyExc} (hrun : (fn.run s).1 = .error e)
    (hleft : attempt < policy.maxAttempts) (hretry : policy.shouldRetry e = true) :
    (retryFrom policy pause (logged fn) attempt (remaining + 1)).run (s, log) =
      (pause attempt >>= fun _ => retryFrom policy pause (logged fn) (attempt + 1) remaining).run
        ((fn.run s).2, .error e :: log) := by
  rw [retryFrom, Proc.run_bind, Proc.run_attempt, run_logged]
  dsimp only
  have hgo : (decide (attempt ≥ policy.maxAttempts) || !policy.shouldRetry e) = false := by
    simp [hleft, hretry]
  rw [hrun]
  simp only [hgo]
  rfl

/-- The pauses between two attempts do not raise, and leave the list alone. -/
def Pauses (pause : ℕ → Proc (σ × List (Except PyExc α)) PyExc Unit) (attempt : ℕ) : Prop :=
  ∀ s log, ∃ s', (pause attempt).run (s, log) = (.ok (), (s', log))

theorem int_le_iff {x : PyNumber} {n : ℤ} (hx : x.integer = some n) (m : ℤ) :
    PyNumber.le (.int m) x = true ↔ m ≤ n := by
  rw [PyNumber.le_eq, PyNumber.value_of_integer hx]
  simp [PyNumber.value]

theorem le_int_iff {x : PyNumber} {n : ℤ} (hx : x.integer = some n) (m : ℤ) :
    PyNumber.le x (.int m) = true ↔ n ≤ m := by
  rw [PyNumber.le_eq, PyNumber.value_of_integer hx]
  simp [PyNumber.value]

/-- From an attempt on, with the earlier ones on the list. -/
theorem retryFrom_transparent {p : RetryFields} {n : ℤ} (hn : p.maxAttempts.integer = some n)
    (hmax : (policy.maxAttempts : ℤ) = n) (hretry : policy.shouldRetry = p.shouldRetry)
    (hpauses : ∀ k, 1 ≤ k → k < policy.maxAttempts → Pauses pause k)
    (hcount : attempt + remaining = policy.maxAttempts + 1) (hremaining : 1 ≤ remaining)
    (hattempt : 1 ≤ attempt) (hlength : log.length + 1 = attempt)
    (hearlier : ∀ r ∈ log, ∃ e, r = .error e ∧ p.shouldRetry e = true) :
    let run := (retryFrom policy pause (logged fn) attempt remaining).run (s, log)
    Transparent p run.1 run.2.2 := by
  induction remaining generalizing attempt s log with
  | zero => omega
  | succ remaining ih =>
    by_cases hlast : ∀ e, (fn.run s).1 = .error e →
        attempt ≥ policy.maxAttempts ∨ policy.shouldRetry e = false
    · rw [run_retryFrom_last hlast]
      refine ⟨log, rfl, ?_, hearlier, fun e he hshould => ?_⟩
      · rw [int_le_iff hn, List.length_cons]
        omega
      · rw [le_int_iff hn, List.length_cons]
        rcases hlast e he with hstop | hstop
        · omega
        · rw [hretry, hshould] at hstop
          cases hstop
    · push Not at hlast
      obtain ⟨e, hrun, hleft, hshould⟩ := hlast
      rw [ne_eq, Bool.not_eq_false] at hshould
      rw [run_retryFrom_next hrun hleft hshould, Proc.run_bind]
      obtain ⟨s', hs'⟩ := hpauses attempt hattempt hleft (fn.run s).2 (.error e :: log)
      rw [hs']
      refine ih (by omega) (by omega) (by omega) (by simpa using hlength) ?_
      rw [hretry] at hshould
      exact List.forall_mem_cons.mpr ⟨⟨e, rfl, hshould⟩, hearlier⟩

/-- Where every attempt raises what is retried, a pause that raises is noticed. -/
theorem pauses_of_transparent {p : RetryFields} {n : ℤ} (hn : p.maxAttempts.integer = some n)
    (hmax : (policy.maxAttempts : ℤ) = n) (hretry : policy.shouldRetry = p.shouldRetry)
    {e : PyExc} (hshould : p.shouldRetry e = true)
    {pause : ℕ → Proc (Unit × List (Except PyExc α)) PyExc Unit} {log : List (Except PyExc α)}
    {outcome : ℕ → Except PyExc Unit} (hpause : ∀ k t, (pause k).run t = (outcome k, t))
    (hcount : attempt + remaining = policy.maxAttempts + 1) (hlength : log.length + 1 = attempt)
    (hdone : Transparent p
      ((retryFrom policy pause (logged (.raise e)) attempt remaining).run ((), log)).1
      ((retryFrom policy pause (logged (.raise e)) attempt remaining).run ((), log)).2.2)
    {k : ℕ} (hle : attempt ≤ k) (hlt : k < policy.maxAttempts) : outcome k = .ok () := by
  induction remaining generalizing attempt log with
  | zero => omega
  | succ remaining ih =>
    have hnext : (retryFrom policy pause (logged (.raise e)) attempt (remaining + 1)).run ((), log) =
        (pause attempt >>= fun _ =>
          retryFrom policy pause (logged (.raise e)) (attempt + 1) remaining).run
            ((), .error e :: log) :=
      run_retryFrom_next rfl (by omega) (hretry ▸ hshould)
    rw [hnext, Proc.run_bind, hpause] at hdone
    rcases hout : outcome attempt with e' | _
    · -- the attempts end here, and one is left
      rw [hout] at hdone
      obtain ⟨earlier, hlog, -, -, hspent⟩ := hdone
      obtain ⟨hresult, -⟩ := List.cons.inj hlog
      have hfew := (le_int_iff hn _).mp (hspent e hresult.symm hshould)
      simp only [List.length_cons] at hfew
      omega
    · rw [hout] at hdone
      rcases hle.eq_or_lt with rfl | hlater
      · exact hout
      · exact ih (by omega) (by simpa using hlength) hdone hlater

end

/-! ### When every function is retried transparently -/

namespace AcceptedPolicy

variable (platform : Platform) (p : AcceptedPolicy)

/-- The delays before the last attempt are computed, and `time.sleep` takes
them. -/
def PausesFit : Prop :=
  ∀ k : ℕ, 1 ≤ k → PyNumber.lt (.int k) p.maxAttempts = true → p.PowerFits k ∧
    ∀ (draw : Draw) (seconds : PyNumber),
      p.delay platform.power k draw.toSample = .ok seconds → platform.sleepable seconds = true

variable {platform p}

theorem run_pause (waiting : Waiting σ) (k : ℕ) (s : σ) :
    (p.pause platform waiting k).run s =
      match p.delay platform.power k (waiting.random s).1.toSample with
      | .error e => (.error e, (waiting.random s).2)
      | .ok seconds => sleep platform waiting seconds (waiting.random s).2 := by
  rw [pause, Proc.run_bind]
  have hdraw : (Proc.atomic (p.drawDelay platform waiting k)).run s =
      (p.delay platform.power k (waiting.random s).1.toSample, (waiting.random s).2) := rfl
  rw [hdraw]
  rcases p.delay platform.power k (waiting.random s).1.toSample <;> rfl

theorem pauses_of_fit (hfit : p.PausesFit platform) (waiting : Waiting σ) {n : ℤ}
    (hn : p.maxAttempts.integer = some n) {k : ℕ} (hk : 1 ≤ k) (hlt : (k : ℤ) < n) :
    Pauses (p.pause platform (waiting.beside (List (Except PyExc α)))) k := by
  intro s log
  have hless : PyNumber.lt (.int k) p.maxAttempts = true := by
    rw [PyNumber.lt_of_values rfl (PyNumber.value_of_integer hn), decide_eq_true_iff]
    exact_mod_cast hlt
  obtain ⟨hpower, hsleeps⟩ := hfit k hk hless
  obtain ⟨seconds, hdelay⟩ := (RetryFields.delay_ok_iff p.sound (waiting.random s).1.toSample).mpr
    hpower
  have hsleep := hsleeps _ seconds hdelay
  refine ⟨waiting.wait seconds (waiting.random s).2, ?_⟩
  rw [run_pause]
  simp only [Waiting.beside, hdelay]
  rw [sleep, if_pos hsleep]

/-- `retry_call` of the function with its list, from an empty list. -/
def observe (platform : Platform) (p : AcceptedPolicy) (waiting : Waiting σ)
    (fn : Proc σ PyExc α) (s : σ) : Except PyExc α × List (Except PyExc α) :=
  let run := (p.retryCall platform (waiting.beside (List (Except PyExc α))) (logged fn)).run (s, [])
  (run.1, run.2.2)

/-- Every function is retried transparently. -/
def RetriesTransparently (platform : Platform) (p : AcceptedPolicy) : Prop :=
  ∀ (σ α : Type) (waiting : Waiting σ) (fn : Proc σ PyExc α) (s : σ),
    Transparent p.toRetryFields (observe platform p waiting fn s).1
      (observe platform p waiting fn s).2

theorem retryCall_of_integer {n : ℤ} (hn : p.maxAttempts.integer = some n) (waiting : Waiting σ)
    (fn : Proc σ PyExc α) : p.retryCall platform waiting fn =
      AgentRoi.retryCall (p.policy platform waiting n hn) (p.pause platform waiting) fn := by
  rw [retryCall]
  split
  · next hnone =>
    rw [hn] at hnone
    cases hnone
  · next m hm =>
    obtain rfl := Option.some.inj (hn.symm.trans hm)
    rfl

theorem retryCall_of_none (hnone : p.maxAttempts.integer = none) (waiting : Waiting σ)
    (fn : Proc σ PyExc α) : p.retryCall platform waiting fn =
      .raise (.typeError (lit "'float' object cannot be interpreted as an integer")) := by
  rw [retryCall]
  split
  · rfl
  · next m hm =>
    rw [hnone] at hm
    cases hm

/-- Always the same draw. -/
def steadyWaiting (draw : Draw) : Waiting Unit := ⟨fun _ => (draw, ()), fun _ _ => ()⟩

theorem zero_sample_nonneg : 0 ≤ Binary64.zero.value := le_rfl

theorem zero_sample_le_one : Binary64.zero.value ≤ 1 := zero_le_one

theorem zero_draw_lt_one : Binary64.zero.value < 1 := zero_lt_one

def zeroDraw : Draw := ⟨⟨.zero, zero_sample_nonneg, zero_sample_le_one⟩, zero_draw_lt_one⟩

/-- What a pause comes to that draws the same each time. -/
def pauseOutcome (platform : Platform) (p : AcceptedPolicy) (draw : Draw) (k : ℕ) :
    Except PyExc Unit :=
  match p.delay platform.power k draw.toSample with
  | .error e => .error e
  | .ok seconds => if platform.sleepable seconds then .ok () else .error .overflowError

theorem run_pause_steady (draw : Draw) (k : ℕ) (t : Unit × List (Except PyExc α)) :
    (p.pause platform ((steadyWaiting draw).beside (List (Except PyExc α))) k).run t =
      (pauseOutcome platform p draw k, t) := by
  rw [run_pause, pauseOutcome]
  simp only [Waiting.beside, steadyWaiting]
  rcases p.delay platform.power k draw.toSample with e | seconds
  · rfl
  · simp only [sleep]
    split <;> rfl

theorem pauseOutcome_eq_ok {draw : Draw} {k : ℕ} (h : pauseOutcome platform p draw k = .ok ()) :
    ∃ seconds, p.delay platform.power k draw.toSample = .ok seconds ∧
      platform.sleepable seconds = true := by
  rw [pauseOutcome] at h
  split at h
  · cases h
  · next seconds hdelay =>
    split at h
    · next hsleep => exact ⟨seconds, hdelay, hsleep⟩
    · cases h

theorem retriesTransparently_iff :
    p.RetriesTransparently platform ↔ p.maxAttempts.integer ≠ none ∧ p.PausesFit platform := by
  constructor
  · intro hall
    have hint : p.maxAttempts.integer ≠ none := by
      intro hnone
      -- the function is never invoked
      obtain ⟨earlier, hlog, -⟩ := hall Unit Unit (steadyWaiting zeroDraw) (pure ()) ()
      rw [observe, retryCall_of_none hnone] at hlog
      cases hlog
    refine ⟨hint, fun k hk hlt => ?_⟩
    obtain ⟨n, hn⟩ := Option.ne_none_iff_exists'.mp hint
    obtain ⟨e, he⟩ := p.sound.retried
    have hpos := p.sound.attempts n hn
    have hcast : ((n.toNat : ℕ) : ℤ) = n := Int.toNat_of_nonneg (by omega)
    rw [PyNumber.lt_of_values rfl (PyNumber.value_of_integer hn), decide_eq_true_iff] at hlt
    have hless : (k : ℤ) < n := by exact_mod_cast hlt
    have hlast : k < n.toNat := by omega
    -- the pause with each draw, seen by a function that always raises
    have hpause : ∀ draw : Draw, ∃ seconds, p.delay platform.power k draw.toSample = .ok seconds ∧
        platform.sleepable seconds = true := by
      intro draw
      have hdone := hall Unit Unit (steadyWaiting draw) (.raise e) ()
      rw [observe, retryCall_of_integer hn] at hdone
      exact pauseOutcome_eq_ok (pauses_of_transparent hn hcast rfl he (run_pause_steady draw)
        (Nat.add_comm 1 _) rfl hdone hk hlast)
    constructor
    · obtain ⟨seconds, hdelay, -⟩ := hpause zeroDraw
      exact (RetryFields.delay_ok_iff p.sound zeroDraw.toSample).mp ⟨seconds, hdelay⟩
    · intro draw seconds hdelay
      obtain ⟨seconds', hdelay', hsleep⟩ := hpause draw
      obtain rfl := Except.ok.inj (hdelay.symm.trans hdelay')
      exact hsleep
  · rintro ⟨hint, hfit⟩ σ α waiting fn s
    obtain ⟨n, hn⟩ := Option.ne_none_iff_exists'.mp hint
    have hpos := p.sound.attempts n hn
    have hcast : ((n.toNat : ℕ) : ℤ) = n := Int.toNat_of_nonneg (by omega)
    rw [observe, retryCall_of_integer hn]
    refine retryFrom_transparent hn hcast rfl (fun k hk hlt => ?_) (Nat.add_comm 1 _)
      (p.policy platform _ n hn).maxAttempts_pos le_rfl rfl fun r hr => absurd hr List.not_mem_nil
    have hlast : k < n.toNat := hlt
    exact pauses_of_fit hfit waiting hn hk (by omega)

/-- For every policy its constructor accepts: a delay is computed and bounded
exactly where no power overflows and no huge integer maximum is rounded above
itself, which no maximum of up to 53 bits is; and every function is retried
transparently exactly where `max_attempts` is an integer and each delay before
the last attempt is computed and slept. -/
theorem retry_bounded_iff (platform : Platform) (p : AcceptedPolicy) :
    (∀ attemptNumber : ℤ,
      ((∀ sample, ∃ v, p.delay platform.power attemptNumber sample = .ok v ∧ p.InBounds v) ↔
        p.PowerFits attemptNumber ∧ p.CeilingFits platform.power attemptNumber) ∧
      ((∀ k, p.maxBackoffSeconds.integer = some k → k ≤ 2 ^ 53) →
        p.CeilingFits platform.power attemptNumber)) ∧
      (p.RetriesTransparently platform ↔
        p.maxAttempts.integer ≠ none ∧ p.PausesFit platform) :=
  ⟨fun _ => ⟨RetryFields.delay_in_bounds_iff p.sound, RetryFields.ceilingFits_of_small p.sound⟩,
    retriesTransparently_iff⟩

/-! ### The default multiplier -/

/-- Powers rounded to the nearest float. -/
def nearestPower : PowerFunction where
  pow d n := (Binary64.round (d.value ^ n)).getD .one
  pow_nonneg d n hd := by
    rcases hround : Binary64.round (d.value ^ n) with _ | f
    · exact zero_le_one
    · rw [Option.getD_some, ← Binary64.round_eq_some.mp hround]
      exact nearest_nonneg (pow_nonneg hd n)

/-- Sleeps of up to 292 years. -/
def samplePlatform : Platform where
  power := nearestPower
  sleepable seconds := seconds.le (.int 9223372036)
  timedelta seconds :=
    match seconds.value with
    | .finite q => .ok ⌊q * 10 ^ 6⌋₊
    | _ => .error .overflowError

def osError : ExceptionClass where
  instances e := e.className = lit "OSError"
  inhabited := ⟨.other (lit "OSError") none true, by decide⟩

/-- `RetryPolicy(max_attempts=2000, initial_backoff_seconds=1.0, multiplier=2.0,
max_backoff_seconds=10.0, jitter_ratio=1.0, retry_exceptions=(OSError,))`. -/
def doublingPolicy : AcceptedPolicy where
  maxAttempts := .int 2000
  initialBackoffSeconds := .float (.finite .one)
  multiplier := .float (.finite .two)
  maxBackoffSeconds := .float (.finite (.ofSmallInt 10 (by decide)))
  jitterRatio := .float (.finite .one)
  retryExceptions := [some osError]
  accepted := by decide

theorem not_powerFits_doublingPolicy : ¬ doublingPolicy.PowerFits 1025 := by
  rintro ⟨x, hx, hpow⟩
  have hvalue : x.value = 1024 := by
    rw [← Binary64.round_eq_some.mp hx]
    exact nearest_value (hasBits_intCast (n := 1024) (by decide))
  have h := hpow 2 rfl
  rw [hvalue] at h
  exact absurd h (not_le.mpr largest_lt)

/-- The 1025th delay of a multiplier of 2.0 raises, and so does a call retried
that often. -/
theorem doublingPolicy_overflows :
    (¬ ∀ (platform : Platform) (p : AcceptedPolicy) (attemptNumber : ℤ) (sample : Sample),
      1 ≤ attemptNumber → ∃ v, p.delay platform.power attemptNumber sample = .ok v ∧ p.InBounds v) ∧
    ¬ ∀ (platform : Platform) (p : AcceptedPolicy), p.RetriesTransparently platform := by
  constructor
  · intro h
    obtain ⟨v, hv, -⟩ := h samplePlatform doublingPolicy 1025 RetryFields.fullSample (by decide)
    exact not_powerFits_doublingPolicy ((RetryFields.delay_ok_iff doublingPolicy.sound _).mp ⟨v, hv⟩)
  · intro h
    obtain ⟨-, hfit⟩ := retriesTransparently_iff.mp (h samplePlatform doublingPolicy)
    exact not_powerFits_doublingPolicy (hfit 1025 (by decide) (by decide)).1

end AcceptedPolicy

end AgentRoi
