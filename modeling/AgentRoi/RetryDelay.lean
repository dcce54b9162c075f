/-
`RetryPolicy` of `agent_roi.runtime.resilience`: what its constructor accepts,
and the delays it computes.

* `RetryFields`, `RetryFields.postInit` — the arguments and the checks of
  `__post_init__`; `AcceptedPolicy` — the ones it accepts;
* `backoff`, `jittered`, `delay` — `delay`, up to `base` and after it;
* `PowerFits`, `CeilingFits` — no overflow on the way to `base`, and a huge
  integer maximum that the rounding of a product with it does not exceed;
* `ceilingFits_of_small` — an integer maximum of up to 53 bits is none of these;
* `delay_in_bounds_iff` — a delay is between zero and twice the maximum for
  every sample exactly then.
-/
import AgentRoi.PyM
import AgentRoi.PyNumber

namespace AgentRoi

/-- A class of exceptions, by its instances. -/
structure ExceptionClass where
  instances : PyExc → Bool
  inhabited : ∃ e, instances e = true

/-- The arguments of `RetryPolicy`.  An item of `retry_exceptions` that is no
class of exceptions is none. -/
structure RetryFields where
  maxAttempts : PyNumber
  initialBackoffSeconds : PyNumber
  multiplier : PyNumber
  maxBackoffSeconds : PyNumber
  jitterRatio : PyNumber
  retryExceptions : List (Option ExceptionClass)

/-- `random_value`, or what `random.random()` returns. -/
structure Sample where
  toFloat : Binary64
  nonneg : 0 ≤ toFloat.value
  le_one : toFloat.value ≤ 1

def Sample.number (s : Sample) : PyNumber := .float (.finite s.toFloat)

namespace RetryFields

/-- `isinstance(max_attempts, bool) or int(max_attempts) < 1`. -/
def badAttempts : PyNumber → Except PyExc Bool
  | .bool _ => .ok true
  | x => do
    let n ← x.toInt
    return n < 1

/-- `if condition: raise ValueError(message)`. -/
def refuseIf (condition : Bool) (message : Str) : Except PyExc Unit :=
  if condition then .error (.valueError message) else .ok ()

/-- The check of one amount of seconds or of a factor. -/
def checkAmount (name : String) (x : PyNumber) : Except PyExc Unit := do
  match ← x.toFloat with
  | .finite d => refuseIf (d.value < 0) (lit name ++ lit " must be finite and nonnegative")
  | _ => refuseIf true (lit name ++ lit " must be finite and nonnegative")

/-- `__post_init__`. -/
def postInit (p : RetryFields) : Except PyExc Unit := do
  refuseIf (← badAttempts p.maxAttempts) (lit "max_attempts must be an integer >= 1")
  checkAmount "initial_backoff_seconds" p.initialBackoffSeconds
  checkAmount "multiplier" p.multiplier
  checkAmount "max_backoff_seconds" p.maxBackoffSeconds
  checkAmount "jitter_ratio" p.jitterRatio
  refuseIf (p.multiplier.lt (.int 1)) (lit "multiplier must be >= 1")
  refuseIf (PyNumber.lt (.int 1) p.jitterRatio) (lit "jitter_ratio must be <= 1")
  refuseIf (p.retryExceptions.isEmpty || p.retryExceptions.any (·.isNone))
    (lit "retry_exceptions must contain exception classes")

/-- `should_retry`. -/
def shouldRetry (p : RetryFields) (e : PyExc) : Bool :=
  p.retryExceptions.any fun item => item.any fun c => c.instances e

variable (power : PowerFunction) (p : RetryFields)

/-- `base` in `delay`. -/
def backoff (attemptNumber : ℤ) : Except PyExc PyNumber := do
  let grown ← p.initialBackoffSeconds.mul
    (← p.multiplier.pow power (max 0 (attemptNumber - 1)).toNat)
  return if grown.lt p.maxBackoffSeconds then grown else p.maxBackoffSeconds

/-- `factor` in `delay`. -/
def factor (sample : Sample) : Except PyExc PyNumber := do
  let rest ← PyNumber.sub (.int 1) p.jitterRatio
  let twice ← PyNumber.mul (.int 2) p.jitterRatio
  rest.add (← twice.mul sample.number)

/-- What `delay` returns for `base`. -/
def jittered (base : PyNumber) (sample : Sample) : Except PyExc PyNumber :=
  if base.isZero || p.jitterRatio.isZero then .ok base
  else do
    let product ← base.mul (← p.factor sample)
    return if PyNumber.lt (.float (.finite .zero)) product then product else .float (.finite .zero)

def delay (attemptNumber : ℤ) (sample : Sample) : Except PyExc PyNumber := do
  p.jittered (← p.backoff power attemptNumber) sample

end RetryFields

/-- A policy that its constructor accepts. -/
structure AcceptedPolicy extends RetryFields where
  accepted : toRetryFields.postInit = .ok ()

/-! ### What the constructor accepts -/

namespace RetryFields

theorem refuseIf_eq_ok {condition : Bool} {message : Str} {u : Unit} :
    refuseIf condition message = .ok u ↔ condition = false := by
  cases condition <;> simp [refuseIf]

theorem checkAmount_eq_ok {name : String} {x : PyNumber} {u : Unit}
    (h : checkAmount name x = .ok u) : ∃ q, PyNumber.Amount x q := by
  rw [checkAmount, except_bind_eq_ok] at h
  obtain ⟨v, hfloat, hcheck⟩ := h
  cases v with
  | nan => cases refuseIf_eq_ok.mp hcheck
  | inf => cases refuseIf_eq_ok.mp hcheck
  | negInf => cases refuseIf_eq_ok.mp hcheck
  | finite d =>
    have hneg : ¬ d.value < 0 := of_decide_eq_false (refuseIf_eq_ok.mp hcheck)
    cases x with
    | bool b =>
      cases b with
      | false => exact ⟨0, rfl, le_rfl, .zero, Binary64.round_value .zero⟩
      | true => exact ⟨1, rfl, zero_le_one, .one, Binary64.round_value .one⟩
    | float v =>
      cases hfloat
      exact ⟨d.value, PyNumber.amount_float (not_lt.mp hneg)⟩
    | int n =>
      rw [PyNumber.toFloat_of_value rfl] at hfloat
      rcases hround : Binary64.round n with _ | d'
      · rw [hround] at hfloat
        cases hfloat
      · rw [hround] at hfloat
        cases hfloat
        refine ⟨n, rfl, ?_, d, hround⟩
        by_contra hnot
        -- a negative integer has a negative float
        have hle : (n : ℚ) ≤ -1 := by
          rw [not_le] at hnot
          have : n < 0 := by exact_mod_cast hnot
          exact_mod_cast (by omega : n ≤ -1)
        rw [Binary64.round_eq_some] at hround
        exact hneg (hround ▸ nearest_neg hle)

/-- What is known of the arguments that the constructor accepts. -/
structure Sound (p : RetryFields) : Prop where
  attempts : ∀ n, p.maxAttempts.integer = some n → 1 ≤ n
  initial : ∃ q, PyNumber.Amount p.initialBackoffSeconds q
  multiplier : ∃ q, PyNumber.Amount p.multiplier q ∧ 1 ≤ q
  maximum : ∃ q, PyNumber.Amount p.maxBackoffSeconds q
  jitter : ∃ q, PyNumber.Amount p.jitterRatio q ∧ q ≤ 1
  retried : ∃ e, p.shouldRetry e = true

theorem one_le_of_badAttempts {x : PyNumber} {n : ℤ} (h : badAttempts x = .ok false)
    (hx : x.integer = some n) : 1 ≤ n := by
  cases x with
  | bool b => cases h
  | float v => cases hx
  | int m =>
    cases hx
    have hless : decide (n < 1) = false := Except.ok.inj h
    exact not_lt.mp (of_decide_eq_false hless)

theorem sound_of_postInit {p : RetryFields} (h : p.postInit = .ok ()) : p.Sound := by
  simp only [postInit, except_bind_eq_ok, refuseIf_eq_ok] at h
  obtain ⟨bad, hattempts, _, rfl, _, hinitial, _, hmultiplier, _, hmaximum, _, hjitter, _, hone,
    _, hratio, hclasses⟩ := h
  obtain ⟨m, hm⟩ := checkAmount_eq_ok hmultiplier
  obtain ⟨j, hj⟩ := checkAmount_eq_ok hjitter
  refine ⟨fun n => one_le_of_badAttempts hattempts, checkAmount_eq_ok hinitial, ⟨m, hm, ?_⟩,
    checkAmount_eq_ok hmaximum, ⟨j, hj, ?_⟩, ?_⟩
  · rw [PyNumber.lt_of_values hm.value rfl] at hone
    exact_mod_cast not_lt.mp (of_decide_eq_false hone)
  · rw [PyNumber.lt_of_values rfl hj.value] at hratio
    exact_mod_cast not_lt.mp (of_decide_eq_false hratio)
  · -- the first of the classes has an instance
    rw [Bool.or_eq_false_iff] at hclasses
    cases hlist : p.retryExceptions with
    | nil =>
      rw [hlist] at hclasses
      cases hclasses.1
    | cons item items =>
      rw [hlist, List.any_cons, Bool.or_eq_false_iff] at hclasses
      cases item with
      | none => cases hclasses.2.1
      | some c =>
        obtain ⟨e, he⟩ := c.inhabited
        exact ⟨e, by simp [shouldRetry, hlist, he]⟩

/-! ### The factor -/

/-- The factor of the jitter, for a ratio and a sample. -/
def factorValue (j s : ℚ) : ℚ := nearest (nearest (1 - j) + nearest (nearest (2 * j) * s))

theorem factorValue_nonneg {j s : ℚ} (hj : 0 ≤ j) (hone : j ≤ 1) (hs : 0 ≤ s) :
    0 ≤ factorValue j s := by
  have hrest : 0 ≤ nearest (1 - j) := nearest_nonneg (by linarith)
  have htwice : 0 ≤ nearest (2 * j) := nearest_nonneg (by linarith)
  exact nearest_nonneg (add_nonneg hrest (nearest_nonneg (mul_nonneg htwice hs)))

theorem factorValue_mono {j s t : ℚ} (hj : 0 ≤ j) (hone : j ≤ 1) (hs : 0 ≤ s) (h : s ≤ t) :
    factorValue j s ≤ factorValue j t := by
  have hrest : 0 ≤ nearest (1 - j) := nearest_nonneg (by linarith)
  have htwice : 0 ≤ nearest (2 * j) := nearest_nonneg (by linarith)
  have hspread := nearest_mono (mul_nonneg htwice hs) (mul_le_mul_of_nonneg_left h htwice)
  refine nearest_mono (add_nonneg hrest (nearest_nonneg (mul_nonneg htwice hs))) ?_
  linarith

/-- The parts of the factor add up to two at most, rounded as they are. -/
theorem factorParts_le_two {j s : ℚ} (hbits : HasBits j) (hj : 0 ≤ j) (hone : j ≤ 1) (hs : 0 ≤ s)
    (hsample : s ≤ 1) : nearest (1 - j) + nearest (nearest (2 * j) * s) ≤ 2 := by
  have htwice : nearest (2 * j) = 2 * j := nearest_value hbits.double
  have hprod : 2 * j * s ≤ 2 * j := by nlinarith
  have hspread := nearest_mono (mul_nonneg (by linarith) hs) hprod
  rw [htwice] at hspread ⊢
  by_cases hhalf : 1 / 2 ≤ j
  · -- the difference to one is exact
    rw [nearest_value (hbits.one_sub hhalf hone)]
    linarith
  · have hrest : nearest (1 - j) ≤ nearest 1 := nearest_mono (by linarith) (by linarith)
    have hone' : nearest (2 * j) ≤ nearest 1 := nearest_mono (by linarith) (by linarith)
    rw [nearest_value Binary64.hasBits_one] at hrest hone'
    linarith

theorem factorValue_le_two {j s : ℚ} (hbits : HasBits j) (hj : 0 ≤ j) (hone : j ≤ 1) (hs : 0 ≤ s)
    (hsample : s ≤ 1) : factorValue j s ≤ 2 := by
  have hrest : 0 ≤ nearest (1 - j) := nearest_nonneg (by linarith)
  have htwice : 0 ≤ nearest (2 * j) := nearest_nonneg (by linarith)
  have h := nearest_mono (add_nonneg hrest (nearest_nonneg (mul_nonneg htwice hs)))
    (factorParts_le_two hbits hj hone hs hsample)
  rwa [nearest_value Binary64.hasBits_two] at h

theorem factorValue_zero : factorValue 0 1 = 1 := by
  simp [factorValue, nearest_value Binary64.hasBits_one]

/-- The factor of the largest sample, for a ratio from one half on. -/
theorem factorValue_one {j : ℚ} (hbits : HasBits j) (hhalf : 1 / 2 ≤ j) (hone : j ≤ 1) :
    factorValue j 1 = nearest (1 + j) := by
  have hexact := nearest_value (hbits.one_sub hhalf hone)
  have htwice := nearest_value hbits.double
  rw [factorValue, mul_one, htwice, htwice, hexact]
  congr 1
  ring

theorem factorValue_of_large {j : ℚ} (hbits : HasBits j) (hone : j ≤ 1)
    (hlarge : 1 - 1 / 2 ^ 53 ≤ j) : factorValue j 1 = 2 := by
  have hhalf : 1 / 2 ≤ j := by
    refine le_trans ?_ hlarge
    norm_num
  -- a tie, and the even one of the two is taken
  have hmiddle : nearest (2 - 1 / 2 ^ 53) = 2 := by decide +kernel
  rw [factorValue_one hbits hhalf hone]
  apply le_antisymm
  · have hle := nearest_mono (by linarith) (show 1 + j ≤ 2 by linarith)
    rwa [nearest_value Binary64.hasBits_two] at hle
  · rw [← hmiddle]
    exact nearest_mono (by norm_num) (by linarith)

theorem factorValue_of_small {j : ℚ} (hbits : HasBits j) (hj : 0 ≤ j)
    (hsmall : j < 1 - 1 / 2 ^ 53) : factorValue j 1 ≤ 2 - 1 / 2 ^ 52 := by
  by_cases hhalf : 1 / 2 ≤ j
  · rw [factorValue_one hbits hhalf (by linarith)]
    have hlast : lastBit (1 + j) ≤ -52 := lastBit_le (by norm_num) (by linarith) (by
      norm_num
      linarith)
    have hle := nearest_le_of_lt (n := 2 ^ 53 - 1) (by norm_num) hlast (by
      norm_num
      norm_num at hsmall
      linarith)
    refine hle.trans ?_
    norm_num
  · rw [not_le] at hhalf
    have hthree : HasBits (3 / 4) := ⟨3, -2, by norm_num, by norm_num, by norm_num⟩
    have hseven : HasBits (7 / 4) := ⟨7, -2, by norm_num, by norm_num, by norm_num⟩
    have hrest : nearest (1 - j) + 2 * j ≤ 7 / 4 := by
      by_cases hquarter : j ≤ 1 / 4
      · have hle := nearest_mono (by linarith) (show 1 - j ≤ 1 by linarith)
        rw [nearest_value Binary64.hasBits_one] at hle
        linarith
      · have hle := nearest_mono (by linarith) (show 1 - j ≤ 3 / 4 by linarith)
        rw [nearest_value hthree] at hle
        linarith
    have htwice := nearest_value hbits.double
    have hrest0 : 0 ≤ nearest (1 - j) := nearest_nonneg (by linarith)
    rw [factorValue, mul_one, htwice, htwice]
    refine (nearest_mono (by linarith) hrest).trans ?_
    rw [nearest_value hseven]
    norm_num
variable {p : RetryFields} {j : ℚ}

/-- A ratio that is not zero is one, or a float. -/
theorem hasBits_of_ratio (hj : PyNumber.Amount p.jitterRatio j) (hone : j ≤ 1) (hne : j ≠ 0) :
    HasBits j ∧ (p.jitterRatio.integer = some 1 ∨ p.jitterRatio.integer = none) := by
  rcases hint : p.jitterRatio.integer with _ | n
  · obtain ⟨d, -, rfl⟩ := hj.eq_float hint
    exact ⟨d.hasBits, .inr rfl⟩
  · have hvalue := PyNumber.value_of_integer hint
    rw [hj.value, FloatVal.finite.injEq] at hvalue
    subst hvalue
    have hnonneg : 0 ≤ n := by exact_mod_cast hj.nonneg
    have hle : n ≤ 1 := by exact_mod_cast hone
    have hzero : n ≠ 0 := by exact_mod_cast hne
    obtain rfl : n = 1 := by omega
    exact ⟨by simpa using Binary64.hasBits_one, .inl rfl⟩

theorem value_of_one (hj : PyNumber.Amount p.jitterRatio j)
    (hint : p.jitterRatio.integer = some 1) : j = 1 := by
  have hvalue := PyNumber.value_of_integer hint
  rw [hj.value, FloatVal.finite.injEq] at hvalue
  rw [hvalue, Int.cast_one]

/-- `1 - self.jitter_ratio`. -/
theorem one_sub_ratio (hj : PyNumber.Amount p.jitterRatio j)
    (hint : p.jitterRatio.integer = some 1 ∨ p.jitterRatio.integer = none) {rest : Binary64}
    (hrest : Binary64.round (1 - j) = some rest) :
    ∃ x, PyNumber.sub (.int 1) p.jitterRatio = .ok x ∧ x.value = .finite rest.value := by
  rcases hint with hint | hint
  · have hzero : rest.value = 0 := by
      rw [← Binary64.round_eq_some.mp hrest, value_of_one hj hint, sub_self, nearest_zero]
    refine ⟨_, PyNumber.arithmetic_ints rfl hint, ?_⟩
    simp [PyNumber.value, hzero]
  · obtain ⟨d, -, hvalue⟩ := hj.eq_float hint
    refine ⟨_, PyNumber.arithmetic_finite (.inr hint) rfl hj.value Binary64.round_one
      (hvalue ▸ Binary64.round_value d), ?_⟩
    show (PyNumber.float (Binary64.rounded (1 - d.value))).value = _
    rw [hvalue, Binary64.rounded_of_some hrest]
    rfl

/-- `2 * self.jitter_ratio`. -/
theorem two_mul_ratio (hj : PyNumber.Amount p.jitterRatio j)
    (hint : p.jitterRatio.integer = some 1 ∨ p.jitterRatio.integer = none) {twice : Binary64}
    (htwice : Binary64.round (2 * j) = some twice) :
    ∃ x, PyNumber.mul (.int 2) p.jitterRatio = .ok x ∧ x.value = .finite twice.value := by
  rcases hint with hint | hint
  · have htwo : twice.value = 2 := by
      rw [← Binary64.round_eq_some.mp htwice, value_of_one hj hint, mul_one,
        nearest_value Binary64.hasBits_two]
    refine ⟨_, PyNumber.arithmetic_ints rfl hint, ?_⟩
    simp [PyNumber.value, htwo]
  · obtain ⟨d, -, hvalue⟩ := hj.eq_float hint
    refine ⟨_, PyNumber.arithmetic_finite (.inr hint) rfl hj.value Binary64.round_two
      (hvalue ▸ Binary64.round_value d), ?_⟩
    show (PyNumber.float (Binary64.rounded (2 * d.value))).value = _
    rw [hvalue, Binary64.rounded_of_some htwice]
    rfl

/-- The factor is computed without an exception. -/
theorem factor_eq (hj : PyNumber.Amount p.jitterRatio j) (hone : j ≤ 1) (hne : j ≠ 0)
    (sample : Sample) : ∃ f : Binary64, p.factor sample = .ok (.float (.finite f)) ∧
      f.value = factorValue j sample.toFloat.value := by
  obtain ⟨hbits, hint⟩ := hasBits_of_ratio hj hone hne
  have hsum := factorParts_le_two hbits hj.nonneg hone sample.nonneg sample.le_one
  -- the floats on the way
  obtain ⟨rest, hrest, hrest0, -⟩ := Binary64.round_of_le .one
    (by linarith : 0 ≤ 1 - j) (show 1 - j ≤ 1 by linarith [hj.nonneg])
  obtain ⟨twice, htwice, htwice0, -⟩ := Binary64.round_of_le .two
    (by linarith [hj.nonneg] : 0 ≤ 2 * j) (show 2 * j ≤ 2 by linarith)
  obtain ⟨spread, hspread, hspread0, -⟩ := Binary64.round_of_le twice
    (mul_nonneg htwice0 sample.nonneg) (mul_le_of_le_one_right htwice0 sample.le_one)
  have hrest' := Binary64.round_eq_some.mp hrest
  have htwice' := Binary64.round_eq_some.mp htwice
  have hspread' := Binary64.round_eq_some.mp hspread
  rw [htwice', hspread', hrest'] at hsum
  obtain ⟨f, hf, -, -⟩ := Binary64.round_of_le .two (add_nonneg hrest0 hspread0) hsum
  obtain ⟨restNumber, hsub, hrestValue⟩ := one_sub_ratio hj hint hrest
  obtain ⟨twiceNumber, hmul, htwiceValue⟩ := two_mul_ratio hj hint htwice
  have hproduct : twiceNumber.mul sample.number = .ok (.float (.finite spread)) := by
    refine (PyNumber.arithmetic_finite (.inr rfl) htwiceValue rfl (Binary64.round_value _)
      (Binary64.round_value _)).trans ?_
    show Except.ok (PyNumber.float (Binary64.rounded (twice.value * sample.toFloat.value))) = _
    rw [Binary64.rounded_of_some hspread]
  have hadd : restNumber.add (.float (.finite spread)) = .ok (.float (.finite f)) := by
    refine (PyNumber.arithmetic_finite (.inr rfl) hrestValue rfl (Binary64.round_value _)
      (Binary64.round_value _)).trans ?_
    show Except.ok (PyNumber.float (Binary64.rounded (rest.value + spread.value))) = _
    rw [Binary64.rounded_of_some hf]
  refine ⟨f, ?_, ?_⟩
  · rw [factor, hsub, hmul]
    exact (congrArg (· >>= fun x => restNumber.add x) hproduct).trans hadd
  · rw [factorValue, hrest', htwice', hspread', Binary64.round_eq_some.mp hf]

/-! ### The delay -/

/-- The largest sample. -/
def fullSample : Sample := ⟨.one, zero_le_one, le_rfl⟩

/-- No overflow on the way to `base`: an integer power has a float where it is
multiplied with one, and a float power is not above the largest float. -/
def PowerFits (p : RetryFields) (attemptNumber : ℤ) : Prop :=
  match p.multiplier.integer with
  | some m => p.initialBackoffSeconds.integer = none →
      ∃ d, Binary64.round ((m ^ (max 0 (attemptNumber - 1)).toNat : ℤ) : ℚ) = some d
  | none => ∃ x, Binary64.round (max 0 (attemptNumber - 1)).toNat = some x ∧
      ∀ q, p.multiplier.value = .finite q → q ^ ⌊x.value⌋₊ ≤ largest

/-- What is asked of a delay. -/
def InBounds (p : RetryFields) (v : PyNumber) : Prop :=
  PyNumber.le (.int 0) v = true ∧
    ∃ most, PyNumber.mul (.int 2) p.maxBackoffSeconds = .ok most ∧ v.le most = true

/-- `b` is the lesser of the maximum and `initial_backoff_seconds *
multiplier ** (attempt_number - 1)`. -/
def BaseValue (power : PowerFunction) (p : RetryFields) (attemptNumber : ℤ) (b : ℚ) : Prop :=
  ∃ x grown m, p.multiplier.pow power (max 0 (attemptNumber - 1)).toNat = .ok x ∧
    p.initialBackoffSeconds.mul x = .ok grown ∧ p.maxBackoffSeconds.value = .finite m ∧
    b = match grown.value with
      | .finite q => min q m
      | _ => m

/-- Where the maximum is an integer: the product with the largest factor does
not overflow, and where that factor is two, the number that is multiplied is
not rounded above the maximum. -/
def CeilingFits (power : PowerFunction) (p : RetryFields) (attemptNumber : ℤ) : Prop :=
  ∀ (k : ℤ) (j b : ℚ), p.maxBackoffSeconds.integer = some k →
    p.jitterRatio.value = .finite j → p.BaseValue power attemptNumber b →
      (∃ d, Binary64.round (nearest b * factorValue j 1) = some d) ∧
        (1 - 1 / 2 ^ 53 ≤ j → nearest b ≤ k)

variable {power : PowerFunction} {attemptNumber : ℤ} {base v : PyNumber} {b m : ℚ}

theorem pow_of_integer {x : PyNumber} {k : ℤ} (hk : x.integer = some k) (e : ℕ) :
    x.pow power e = .ok (.int (k ^ e)) := by
  rw [PyNumber.pow, hk]

theorem pow_of_float (d : Binary64) (e : ℕ) : (PyNumber.float (.finite d)).pow power e =
    match Binary64.round e with
    | none => .error .overflowError
    | some x =>
      if largest < |d.value| ^ ⌊x.value⌋₊ then .error .overflowError
      else .ok (.float (.finite (power.pow d ⌊x.value⌋₊))) := by
  show (match Binary64.round e with
    | none => Except.error PyExc.overflowError
    | some x => PyNumber.floatPow power (.finite d) ⌊x.value⌋₊ >>= fun v => pure (PyNumber.float v)) = _
  rcases Binary64.round e with _ | x
  · rfl
  · simp only [PyNumber.floatPow]
    split <;> rfl

/-- The power of an accepted multiplier is an amount, but for its float. -/
theorem pow_spec (h : p.Sound) {e : ℕ} {x : PyNumber} (hx : p.multiplier.pow power e = .ok x) :
    ∃ q, 0 ≤ q ∧ x.value = .finite q := by
  obtain ⟨q, hq, hone⟩ := h.multiplier
  rcases hint : p.multiplier.integer with _ | k
  · obtain ⟨d, hd, hvalue⟩ := hq.eq_float hint
    rw [hd, pow_of_float] at hx
    split at hx
    · cases hx
    · split at hx
      · cases hx
      · cases hx
        exact ⟨_, power.pow_nonneg d _ (by linarith), rfl⟩
  · rw [pow_of_integer hint] at hx
    cases hx
    have hk : 0 ≤ k := by
      have hvalue := PyNumber.value_of_integer hint
      rw [hq.value, FloatVal.finite.injEq] at hvalue
      have hnonneg : (0 : ℚ) ≤ k := hvalue ▸ hq.nonneg
      exact_mod_cast hnonneg
    exact ⟨_, by exact_mod_cast pow_nonneg hk e, rfl⟩

/-- A product of such numbers is one, or infinite. -/
theorem mul_spec {x y g : PyNumber} {q r : ℚ} (hx : x.value = .finite q) (hq : 0 ≤ q)
    (hy : y.value = .finite r) (hr : 0 ≤ r) (hg : x.mul y = .ok g) :
    (∃ t, 0 ≤ t ∧ g.value = .finite t) ∨ g.value = .inf := by
  by_cases hints : x.integer = none ∨ y.integer = none
  · have hmul : x.mul y = _ := PyNumber.arithmetic_floats hints
    rw [hmul, PyNumber.toFloat_of_value hx, PyNumber.toFloat_of_value hy] at hg
    rcases hdx : Binary64.round q with _ | d
    · rw [hdx] at hg
      cases hg
    · rcases hdy : Binary64.round r with _ | d'
      · rw [hdx, hdy] at hg
        cases hg
      · rw [hdx, hdy] at hg
        cases hg
        have hd : 0 ≤ d.value := Binary64.round_eq_some.mp hdx ▸ nearest_nonneg hq
        have hd' : 0 ≤ d'.value := Binary64.round_eq_some.mp hdy ▸ nearest_nonneg hr
        rcases PyNumber.rounded_cases (mul_nonneg hd hd') with ⟨f, -, hf, hvalue⟩ | ⟨-, hvalue⟩
        · exact .inl ⟨f.value, hf, hvalue⟩
        · exact .inr hvalue
  · rw [not_or] at hints
    obtain ⟨i, hi⟩ := Option.ne_none_iff_exists'.mp hints.1
    obtain ⟨k, hk⟩ := Option.ne_none_iff_exists'.mp hints.2
    have hmul : x.mul y = _ := PyNumber.arithmetic_ints hi hk
    rw [hmul] at hg
    cases hg
    have hvi := PyNumber.value_of_integer hi
    have hvk := PyNumber.value_of_integer hk
    rw [hx, FloatVal.finite.injEq] at hvi
    rw [hy, FloatVal.finite.injEq] at hvk
    refine .inl ⟨q * r, mul_nonneg hq hr, ?_⟩
    rw [hvi, hvk]
    simp [PyNumber.value]

theorem backoff_eq : p.backoff power attemptNumber =
    (p.multiplier.pow power (max 0 (attemptNumber - 1)).toNat >>= fun x =>
      p.initialBackoffSeconds.mul x >>= fun grown =>
        pure (if grown.lt p.maxBackoffSeconds then grown else p.maxBackoffSeconds)) := rfl

/-- What `delay` takes for `base` is an amount. -/
theorem backoff_spec (h : p.Sound) (hbase : p.backoff power attemptNumber = .ok base) :
    ∃ b, p.BaseValue power attemptNumber b ∧ PyNumber.Amount base b := by
  simp only [backoff_eq, except_bind_eq_ok] at hbase
  obtain ⟨x, hx, grown, hgrown, hmin⟩ := hbase
  obtain ⟨i, hi⟩ := h.initial
  obtain ⟨m, hm⟩ := h.maximum
  obtain ⟨q, hq, hvalue⟩ := pow_spec h hx
  obtain rfl := Except.ok.inj hmin
  rcases mul_spec hi.value hi.nonneg hvalue hq hgrown with ⟨t, ht, hgrow⟩ | hgrow
  · refine ⟨min t m, ⟨x, grown, m, hx, hgrown, hm.value, by rw [hgrow]⟩, ?_⟩
    rw [PyNumber.lt_of_values hgrow hm.value]
    by_cases hlt : t < m
    · rw [decide_eq_true hlt, if_pos rfl, min_eq_left hlt.le]
      obtain ⟨d, hd⟩ := hm.float
      obtain ⟨d', hround, -, -⟩ := Binary64.round_le ht hlt.le hd
      exact ⟨hgrow, ht, d', hround⟩
    · rw [decide_eq_false hlt, min_eq_right (not_lt.mp hlt)]
      exact hm
  · -- an infinite product is not below the maximum
    refine ⟨m, ⟨x, grown, m, hx, hgrown, hm.value, by rw [hgrow]⟩, ?_⟩
    have hlt : grown.lt p.maxBackoffSeconds = false := by
      rw [PyNumber.lt, hgrow, hm.value]
      rfl
    rw [hlt]
    exact hm

theorem BaseValue.backoff (hb : p.BaseValue power attemptNumber b) :
    ∃ base, p.backoff power attemptNumber = .ok base := by
  obtain ⟨x, grown, m, hx, hgrown, -⟩ := hb
  refine ⟨if grown.lt p.maxBackoffSeconds then grown else p.maxBackoffSeconds, ?_⟩
  simp only [backoff_eq, except_bind_eq_ok]
  exact ⟨x, hx, grown, hgrown, rfl⟩

theorem BaseValue.unique {b' : ℚ} (hb : p.BaseValue power attemptNumber b)
    (hb' : p.BaseValue power attemptNumber b') : b = b' := by
  obtain ⟨x, grown, m, hx, hgrown, hm, rfl⟩ := hb
  obtain ⟨x', grown', m', hx', hgrown', hm', rfl⟩ := hb'
  obtain rfl := Except.ok.inj (hx.symm.trans hx')
  obtain rfl := Except.ok.inj (hgrown.symm.trans hgrown')
  rw [hm, FloatVal.finite.injEq] at hm'
  rw [hm']

theorem BaseValue.le (hb : p.BaseValue power attemptNumber b)
    (hm : p.maxBackoffSeconds.value = .finite m) : b ≤ m := by
  obtain ⟨x, grown, m', -, -, hm', rfl⟩ := hb
  rw [hm, FloatVal.finite.injEq] at hm'
  subst hm'
  split
  · exact min_le_right _ _
  · exact le_rfl

/-- When a product does not raise. -/
theorem mul_ok_iff {x y : PyNumber} {q r : ℚ} (hx : PyNumber.Amount x q)
    (hy : y.value = .finite r) : (∃ g, x.mul y = .ok g) ↔
      (x.integer ≠ none ∧ y.integer ≠ none) ∨ ∃ d, Binary64.round r = some d := by
  obtain ⟨dx, hdx⟩ := hx.float
  by_cases hints : x.integer = none ∨ y.integer = none
  · have hmul : x.mul y = _ := PyNumber.arithmetic_floats hints
    rw [hmul, PyNumber.toFloat_of_round hx.value hdx, PyNumber.toFloat_of_value hy]
    have hnot : ¬ (x.integer ≠ none ∧ y.integer ≠ none) := by
      rintro ⟨hnx, hny⟩
      rcases hints with hnone | hnone
      · exact hnx hnone
      · exact hny hnone
    rw [or_iff_right hnot]
    rcases hdy : Binary64.round r with _ | d
    · constructor
      · rintro ⟨g, hg⟩
        cases hg
      · rintro ⟨d, hd⟩
        cases hd
    · exact ⟨fun _ => ⟨d, rfl⟩, fun _ => ⟨_, rfl⟩⟩
  · rw [not_or] at hints
    obtain ⟨i, hi⟩ := Option.ne_none_iff_exists'.mp hints.1
    obtain ⟨k, hk⟩ := Option.ne_none_iff_exists'.mp hints.2
    exact ⟨fun _ => .inl hints, fun _ => ⟨_, PyNumber.arithmetic_ints hi hk⟩⟩

/-- When a float power does not raise; it is a float then. -/
theorem pow_float_ok_iff {d : Binary64} {e : ℕ} :
    (∃ x, (PyNumber.float (.finite d)).pow power e = .ok x) ↔
      ∃ y, Binary64.round e = some y ∧ |d.value| ^ ⌊y.value⌋₊ ≤ largest := by
  rw [pow_of_float]
  rcases Binary64.round e with _ | y
  · constructor
    · rintro ⟨x, hx⟩
      cases hx
    · rintro ⟨y, hy, -⟩
      cases hy
  · by_cases hlarge : largest < |d.value| ^ ⌊y.value⌋₊
    · simp [hlarge]
    · simp [hlarge, not_lt.mp hlarge]

theorem pow_float_value {d : Binary64} {e : ℕ} {x : PyNumber}
    (h : (PyNumber.float (.finite d)).pow power e = .ok x) :
    ∃ f : Binary64, x = .float (.finite f) := by
  rw [pow_of_float] at h
  split at h
  · cases h
  · split at h
    · cases h
    · cases h
      exact ⟨_, rfl⟩

theorem backoff_ok_iff_mul : (∃ base, p.backoff power attemptNumber = .ok base) ↔
    ∃ x, p.multiplier.pow power (max 0 (attemptNumber - 1)).toNat = .ok x ∧
      ∃ grown, p.initialBackoffSeconds.mul x = .ok grown := by
  simp only [backoff_eq, except_bind_eq_ok]
  constructor
  · rintro ⟨base, x, hx, grown, hgrown, -⟩
    exact ⟨x, hx, grown, hgrown⟩
  · rintro ⟨x, hx, grown, hgrown⟩
    exact ⟨_, x, hx, grown, hgrown, rfl⟩

/-- `delay` comes to `base` exactly where nothing overflows. -/
theorem backoff_ok_iff (h : p.Sound) :
    (∃ base, p.backoff power attemptNumber = .ok base) ↔ p.PowerFits attemptNumber := by
  obtain ⟨i, hi⟩ := h.initial
  obtain ⟨q, hq, hone⟩ := h.multiplier
  rw [backoff_ok_iff_mul]
  rcases hint : p.multiplier.integer with _ | k
  · -- a float power, with which the product is one of floats
    obtain ⟨d, hd, hvalue⟩ := hq.eq_float hint
    have hmul : ∀ x, p.multiplier.pow power (max 0 (attemptNumber - 1)).toNat = .ok x →
        ∃ grown, p.initialBackoffSeconds.mul x = .ok grown := by
      intro x hx
      rw [hd] at hx
      obtain ⟨f, rfl⟩ := pow_float_value hx
      exact (mul_ok_iff hi rfl).mpr (.inr ⟨f, Binary64.round_value f⟩)
    have hfits : p.PowerFits attemptNumber ↔
        ∃ x, p.multiplier.pow power (max 0 (attemptNumber - 1)).toNat = .ok x := by
      rw [hd, pow_float_ok_iff, PowerFits, hint, hd, hvalue, abs_of_nonneg hq.nonneg]
      simp [PyNumber.value, hvalue]
    rw [hfits]
    constructor
    · rintro ⟨x, hx, -⟩
      exact ⟨x, hx⟩
    · rintro ⟨x, hx⟩
      exact ⟨x, hx, hmul x hx⟩
  · -- an exact power, which needs a float where the initial backoff is one
    have hmul := mul_ok_iff hi (y := .int (k ^ (max 0 (attemptNumber - 1)).toNat)) rfl
    rw [PowerFits, hint, pow_of_integer hint]
    constructor
    · rintro ⟨x, hx, hgrown⟩ hnone
      cases hx
      rcases hmul.mp hgrown with ⟨hsome, -⟩ | hround
      · exact absurd hnone hsome
      · exact hround
    · intro hfits
      refine ⟨_, rfl, hmul.mpr ?_⟩
      by_cases hnone : p.initialBackoffSeconds.integer = none
      · exact .inr (hfits hnone)
      · exact .inl ⟨hnone, Option.some_ne_none _⟩

/-! ### The bounds -/

/-- `max(0.0, product)` has the value of the product. -/
theorem value_max_zero {q : ℚ} (hq : 0 ≤ q) :
    (if PyNumber.lt (.float (.finite .zero)) (.float (Binary64.rounded q)) then
      PyNumber.float (Binary64.rounded q) else .float (.finite .zero)).value =
        (PyNumber.float (Binary64.rounded q)).value := by
  rcases PyNumber.rounded_cases hq with ⟨d, -, hd, hvalue⟩ | ⟨-, hvalue⟩
  · rw [PyNumber.lt_of_values rfl hvalue, hvalue]
    by_cases hpos : 0 < d.value
    · rw [decide_eq_true (show Binary64.zero.value < d.value from hpos), if_pos rfl, hvalue]
    · rw [decide_eq_false (show ¬ Binary64.zero.value < d.value from hpos), if_neg (by decide)]
      rw [show d.value = 0 from le_antisymm (not_lt.mp hpos) hd]
      rfl
  · have hlt : PyNumber.lt (.float (.finite .zero)) (.float (Binary64.rounded q)) = true := by
      rw [PyNumber.lt, hvalue]
      rfl
    rw [hlt, if_pos rfl]

/-- The jitter returns `base`, or a float rounded from a product. -/
theorem jittered_spec (hb : PyNumber.Amount base b) (hj : PyNumber.Amount p.jitterRatio j)
    (hone : j ≤ 1) (sample : Sample) : ∃ v, p.jittered base sample = .ok v ∧
      (((b = 0 ∨ j = 0) ∧ v = base) ∨ (¬ (b = 0 ∨ j = 0) ∧ ∃ d : Binary64,
        Binary64.round b = some d ∧ 0 ≤ d.value ∧ v.value = (PyNumber.float (Binary64.rounded
          (d.value * factorValue j sample.toFloat.value))).value)) := by
  rw [jittered, PyNumber.isZero_of_value hb.value, PyNumber.isZero_of_value hj.value]
  by_cases hzero : b = 0 ∨ j = 0
  · refine ⟨base, ?_, .inl ⟨hzero, rfl⟩⟩
    rcases hzero with hzero | hzero <;> simp [hzero]
  · obtain ⟨f, hf, hvalue⟩ := factor_eq hj hone (fun hj0 => hzero (.inr hj0)) sample
    obtain ⟨d, hd⟩ := hb.float
    have hnonneg : 0 ≤ d.value := Binary64.round_eq_some.mp hd ▸ nearest_nonneg hb.nonneg
    have hmul : base.mul (.float (.finite f)) =
        .ok (.float (Binary64.rounded (d.value * f.value))) :=
      PyNumber.arithmetic_finite (.inr rfl) hb.value rfl hd (Binary64.round_value f)
    have hf0 : 0 ≤ f.value := hvalue ▸ factorValue_nonneg hj.nonneg hone sample.nonneg
    refine ⟨_, ?_, .inr ⟨hzero, d, hd, hnonneg,
      hvalue ▸ value_max_zero (mul_nonneg hnonneg hf0)⟩⟩
    rw [hf, ← Bool.decide_or, decide_eq_false hzero, if_neg (by decide)]
    show (base.mul (.float (.finite f)) >>= fun product =>
      pure (if PyNumber.lt (.float (.finite .zero)) product then product
        else .float (.finite .zero))) = _
    rw [hmul, hvalue]
    rfl

/-- Twice the maximum, which Python computes exactly or as a float. -/
theorem mul_two_maximum (hm : PyNumber.Amount p.maxBackoffSeconds m) :
    ∃ most, PyNumber.mul (.int 2) p.maxBackoffSeconds = .ok most ∧
      ((p.maxBackoffSeconds.integer ≠ none ∧ most.value = .finite (2 * m)) ∨
        (p.maxBackoffSeconds.integer = none ∧ ∃ d : Binary64, d.value = m ∧
          most.value = (PyNumber.float (Binary64.rounded (2 * m))).value)) := by
  rcases hint : p.maxBackoffSeconds.integer with _ | k
  · obtain ⟨d, hd, hvalue⟩ := hm.eq_float hint
    refine ⟨_, PyNumber.arithmetic_finite (.inr hint) rfl hm.value Binary64.round_two
      (hvalue ▸ Binary64.round_value d), .inr ⟨rfl, d, hvalue, ?_⟩⟩
    rw [← hvalue]
    rfl
  · refine ⟨_, PyNumber.arithmetic_ints rfl hint, .inl ⟨Option.some_ne_none k, ?_⟩⟩
    have hvalue := PyNumber.value_of_integer hint
    rw [hm.value, FloatVal.finite.injEq] at hvalue
    rw [hvalue]
    simp [PyNumber.value]

/-- The delay does not fall as the sample grows. -/
theorem jittered_mono (hb : PyNumber.Amount base b) (hj : PyNumber.Amount p.jitterRatio j)
    (hone : j ≤ 1) {sample sample' : Sample} (hle : sample.toFloat.value ≤ sample'.toFloat.value)
    {v' : PyNumber} (hv : p.jittered base sample = .ok v) (hv' : p.jittered base sample' = .ok v') :
    PyNumber.leValue v.value v'.value = true := by
  obtain ⟨u, hu, hspec⟩ := jittered_spec hb hj hone sample
  obtain ⟨u', hu', hspec'⟩ := jittered_spec hb hj hone sample'
  obtain rfl := Except.ok.inj (hv.symm.trans hu)
  obtain rfl := Except.ok.inj (hv'.symm.trans hu')
  rcases hspec with ⟨hzero, rfl⟩ | ⟨hne, d, hd, hd0, hvalue⟩
  · rcases hspec' with ⟨-, rfl⟩ | ⟨hne, -⟩
    · rw [hb.value, PyNumber.leValue_finite, decide_eq_true le_rfl]
    · exact absurd hzero hne
  · rcases hspec' with ⟨hzero, -⟩ | ⟨-, d', hd', -, hvalue'⟩
    · exact absurd hzero hne
    · obtain rfl := Option.some.inj (hd.symm.trans hd')
      rw [hvalue, hvalue']
      exact PyNumber.rounded_le
        (mul_nonneg hd0 (factorValue_nonneg hj.nonneg hone sample.nonneg))
        (mul_le_mul_of_nonneg_left (factorValue_mono hj.nonneg hone sample.nonneg hle) hd0)

/-- A delay is not negative. -/
theorem zero_le_jittered (hb : PyNumber.Amount base b) (hj : PyNumber.Amount p.jitterRatio j)
    (hone : j ≤ 1) {sample : Sample} (hv : p.jittered base sample = .ok v) :
    PyNumber.le (.int 0) v = true := by
  obtain ⟨u, hu, hspec⟩ := jittered_spec hb hj hone sample
  obtain rfl := Except.ok.inj (hv.symm.trans hu)
  rw [PyNumber.le_eq]
  rcases hspec with ⟨-, rfl⟩ | ⟨-, d, -, hd0, hvalue⟩
  · rw [hb.value]
    simp [PyNumber.value, hb.nonneg]
  · rw [hvalue]
    rcases PyNumber.rounded_cases
      (mul_nonneg hd0 (factorValue_nonneg hj.nonneg hone sample.nonneg)) with
      ⟨f, -, hf, hf'⟩ | ⟨-, hf'⟩
    · rw [hf']
      simp [PyNumber.value, hf]
    · rw [hf']
      rfl

/-- Below a maximum that has a float the delay is at most twice that float. -/
theorem jittered_le (most : Binary64) (hb : PyNumber.Amount base b) (hle : b ≤ most.value)
    (hj : PyNumber.Amount p.jitterRatio j) (hone : j ≤ 1) {sample : Sample}
    (hv : p.jittered base sample = .ok v) : PyNumber.leValue v.value
      (PyNumber.float (Binary64.rounded (2 * most.value))).value = true := by
  obtain ⟨u, hu, hspec⟩ := jittered_spec hb hj hone sample
  obtain rfl := Except.ok.inj (hv.symm.trans hu)
  have hmost : 0 ≤ most.value := hb.nonneg.trans hle
  rcases hspec with ⟨-, hsame⟩ | ⟨hne, d, hd, hd0, hvalue⟩
  · -- the maximum is a float, and twice the maximum is above it
    have hself : PyNumber.leValue v.value
        (PyNumber.float (Binary64.rounded most.value)).value = true := by
      rw [hsame, hb.value, Binary64.rounded_value]
      simpa [PyNumber.value] using hle
    exact PyNumber.leValue_trans hself (PyNumber.rounded_le hmost (by linarith))
  · obtain ⟨hbits, -⟩ := hasBits_of_ratio hj hone fun h => hne (.inr h)
    have hd' : d.value ≤ most.value := by
      obtain ⟨d', hround, -, hd'⟩ := Binary64.round_of_le most hb.nonneg hle
      obtain rfl := Option.some.inj (hd.symm.trans hround)
      exact hd'
    have hfactor := factorValue_le_two hbits hj.nonneg hone sample.nonneg sample.le_one
    have hfactor0 := factorValue_nonneg hj.nonneg hone sample.nonneg
    rw [hvalue]
    refine PyNumber.rounded_le (mul_nonneg hd0 hfactor0) ?_
    calc d.value * factorValue j sample.toFloat.value ≤ most.value * 2 :=
          mul_le_mul hd' hfactor hfactor0 hmost
      _ = 2 * most.value := mul_comm _ 2

/-- The largest jitter of `base` against twice an integer maximum. -/
theorem rounded_jitter_le_iff {k : ℤ} (hb : PyNumber.Amount base b) (hle : b ≤ k)
    (hbits : HasBits j) (hj : 0 ≤ j) (hone : j ≤ 1) :
    nearest (nearest b * factorValue j 1) ≤ 2 * k ↔ (1 - 1 / 2 ^ 53 ≤ j → nearest b ≤ k) := by
  have hdouble : nearest (nearest b * 2) = 2 * nearest b := by
    rw [mul_comm, nearest_value (hasBits_nearest b).double]
  have hb0 : 0 ≤ nearest b := nearest_nonneg hb.nonneg
  have hf0 : 0 ≤ factorValue j 1 := factorValue_nonneg hj hone zero_le_one
  by_cases hlarge : 1 - 1 / 2 ^ 53 ≤ j
  · rw [factorValue_of_large hbits hone hlarge, hdouble]
    constructor
    · intro h _
      linarith
    · intro h
      linarith [h hlarge]
  · refine iff_of_true ?_ fun h => absurd h hlarge
    have hfactor := factorValue_of_small hbits hj (not_le.mp hlarge)
    by_cases hup : nearest b ≤ b
    · -- not rounded up, so that twice the float of `base` is below the bound
      have hprod : nearest b * factorValue j 1 ≤ nearest b * 2 := by
        refine mul_le_mul_of_nonneg_left (hfactor.trans ?_) hb0
        norm_num
      have hround := nearest_mono (mul_nonneg hb0 hf0) hprod
      linarith
    · -- rounded up, which happens to an integer only
      rw [not_le] at hup
      have hone' : 1 ≤ b := by
        rcases hint : base.integer with _ | n
        · obtain ⟨d, -, hd⟩ := hb.eq_float hint
          rw [← hd, nearest_value d.hasBits] at hup
          exact absurd hup (lt_irrefl _)
        · have hvalue := PyNumber.value_of_integer hint
          rw [hb.value, FloatVal.finite.injEq] at hvalue
          subst hvalue
          have hn : 0 ≤ n := by exact_mod_cast hb.nonneg
          have hne : n ≠ 0 := by
            rintro rfl
            simp at hup
          exact_mod_cast (by omega : 1 ≤ n)
      rcases hf0.eq_or_lt with hzero | hpos
      · rw [← hzero, mul_zero, nearest_zero]
        linarith [hb.nonneg]
      · linarith [nearest_mul_le hone' hup hpos hfactor]

/-- Under an integer maximum, the largest delay that is made of one `base`. -/
theorem inBounds_full_iff {k : ℤ} (hm : p.maxBackoffSeconds.integer = some k)
    (hb : PyNumber.Amount base b) (hle : b ≤ k) (hj : PyNumber.Amount p.jitterRatio j)
    (hone : j ≤ 1) (hv : p.jittered base fullSample = .ok v) :
    p.InBounds v ↔ (∃ d, Binary64.round (nearest b * factorValue j 1) = some d) ∧
      (1 - 1 / 2 ^ 53 ≤ j → nearest b ≤ k) := by
  have hbounds : p.InBounds v ↔ PyNumber.leValue v.value (.finite (2 * k)) = true := by
    have hmul : PyNumber.mul (.int 2) p.maxBackoffSeconds = .ok (.int (2 * k)) :=
      PyNumber.arithmetic_ints rfl hm
    have htwice : (PyNumber.int (2 * k)).value = .finite (2 * k) := by simp [PyNumber.value]
    rw [← htwice, ← PyNumber.le_eq]
    constructor
    · rintro ⟨-, most, hmost, hle'⟩
      obtain rfl := Except.ok.inj (hmul.symm.trans hmost)
      exact hle'
    · exact fun hle' => ⟨zero_le_jittered hb hj hone hv, _, hmul, hle'⟩
  rw [hbounds]
  obtain ⟨u, hu, hspec⟩ := jittered_spec hb hj hone fullSample
  obtain rfl := Except.ok.inj (hv.symm.trans hu)
  obtain ⟨d, hd⟩ := hb.float
  have hd' := Binary64.round_eq_some.mp hd
  rcases hspec with ⟨hcase, rfl⟩ | ⟨hne, e, he, he0, hvalue⟩
  · -- without a jitter both sides hold
    refine iff_of_true ?_ ⟨?_, ?_⟩
    · rw [hb.value, PyNumber.leValue_finite, decide_eq_true_iff]
      linarith [hb.nonneg]
    · rcases hcase with rfl | rfl
      · exact ⟨.zero, by rw [nearest_zero, zero_mul]; exact Binary64.round_value .zero⟩
      · exact ⟨d, by rw [factorValue_zero, mul_one, hd', Binary64.round_value]⟩
    · intro hlarge
      rcases hcase with rfl | rfl
      · rwa [nearest_zero]
      · norm_num at hlarge
  · obtain ⟨hbits, -⟩ := hasBits_of_ratio hj hone fun h0 => hne (.inr h0)
    obtain rfl := Option.some.inj (hd.symm.trans he)
    have hfull : fullSample.toFloat.value = 1 := rfl
    have hnonneg : 0 ≤ d.value * factorValue j 1 :=
      mul_nonneg he0 (factorValue_nonneg hj.nonneg hone zero_le_one)
    rw [hvalue, hfull, ← rounded_jitter_le_iff hb hle hbits hj.nonneg hone, hd']
    rcases PyNumber.rounded_cases hnonneg with ⟨f, hf, -, hf'⟩ | ⟨hf, hf'⟩
    · rw [hf', PyNumber.leValue_finite, decide_eq_true_iff, Binary64.round_eq_some.mp hf]
      exact ⟨fun hle' => ⟨⟨f, hf⟩, hle'⟩, fun h => h.2⟩
    · -- an overflow gives infinity, which is above every integer
      rw [hf', hf]
      refine iff_of_false (by simp) ?_
      rintro ⟨⟨f, hnone⟩, -⟩
      cases hnone

/-- Under an integer maximum, the largest delay of an attempt is in bounds
exactly under the condition on the fields. -/
theorem ceilingFits_iff (h : p.Sound) : p.CeilingFits power attemptNumber ↔
    ∀ base v, p.maxBackoffSeconds.integer ≠ none → p.backoff power attemptNumber = .ok base →
      p.jittered base fullSample = .ok v → p.InBounds v := by
  obtain ⟨j, hj, hone⟩ := h.jitter
  constructor
  · intro hfits base v hint hbase hv
    obtain ⟨k, hk⟩ := Option.ne_none_iff_exists'.mp hint
    obtain ⟨b, hbv, hb⟩ := backoff_spec h hbase
    have hle := hbv.le (PyNumber.value_of_integer hk)
    exact (inBounds_full_iff hk hb hle hj hone hv).mpr (hfits k j b hk hj.value hbv)
  · intro hall k j' b hk hj' hbv
    obtain rfl : j = j' := by rwa [hj.value, FloatVal.finite.injEq] at hj'
    obtain ⟨base, hbase⟩ := hbv.backoff
    obtain ⟨b', hbv', hb⟩ := backoff_spec h hbase
    obtain rfl := hbv.unique hbv'
    obtain ⟨v, hv, -⟩ := jittered_spec hb hj hone fullSample
    have hint : p.maxBackoffSeconds.integer ≠ none := by
      rw [hk]
      exact Option.some_ne_none k
    have hle := hbv.le (PyNumber.value_of_integer hk)
    exact (inBounds_full_iff hk hb hle hj hone hv).mp (hall base v hint hbase hv)

/-- An integer maximum of up to 53 bits keeps the bound. -/
theorem ceilingFits_of_small (h : p.Sound)
    (hsmall : ∀ k, p.maxBackoffSeconds.integer = some k → k ≤ 2 ^ 53) :
    p.CeilingFits power attemptNumber := by
  intro k j b hk hj hbv
  obtain ⟨j', hj', hone⟩ := h.jitter
  obtain rfl : j' = j := by rwa [hj'.value, FloatVal.finite.injEq] at hj
  obtain ⟨base, hbase⟩ := hbv.backoff
  obtain ⟨b', hbv', hb⟩ := backoff_spec h hbase
  obtain rfl := hbv.unique hbv'
  have hle := hbv.le (PyNumber.value_of_integer hk)
  have hk53 : (k : ℚ) ≤ 2 ^ 53 := by exact_mod_cast hsmall k hk
  have hk0 : (0 : ℚ) ≤ k := hb.nonneg.trans hle
  have hk0' : 0 ≤ k := by exact_mod_cast hk0
  -- the maximum is a float itself
  have hround : nearest b ≤ k := by
    have hbits : HasBits k := hasBits_intCast (abs_le.mpr ⟨by omega, hsmall k hk⟩)
    rw [← nearest_value hbits]
    exact nearest_mono hb.nonneg hle
  refine ⟨?_, fun _ => hround⟩
  have hb0 : 0 ≤ nearest b := nearest_nonneg hb.nonneg
  have hf0 : 0 ≤ factorValue j' 1 := factorValue_nonneg hj'.nonneg hone zero_le_one
  have hf2 : factorValue j' 1 ≤ 2 := by
    by_cases hzero : j' = 0
    · rw [hzero, factorValue_zero]
      norm_num
    · exact factorValue_le_two (hasBits_of_ratio hj' hone hzero).1 hj'.nonneg hone zero_le_one le_rfl
  have hproduct : nearest b * factorValue j' 1 ≤ 2 ^ 54 :=
    calc nearest b * factorValue j' 1 ≤ 2 ^ 53 * 2 :=
          mul_le_mul (hround.trans hk53) hf2 hf0 (by norm_num)
      _ = 2 ^ 54 := by norm_num
  have hbits : HasBits (2 ^ 54) := ⟨1, 54, by norm_num, by norm_num, by norm_num⟩
  obtain ⟨d, hd, -⟩ := Binary64.round_of_le
    ⟨2 ^ 54, hbits, by rw [abs_of_pos (by norm_num)]; exact two_pow_le_largest (by norm_num)⟩
    (mul_nonneg hb0 hf0) hproduct
  exact ⟨d, hd⟩

theorem delay_eq (sample : Sample) : p.delay power attemptNumber sample =
    p.backoff power attemptNumber >>= fun base => p.jittered base sample := rfl

/-- The delay of an attempt is computed exactly where no power overflows. -/
theorem delay_ok_iff (h : p.Sound) (sample : Sample) :
    (∃ v, p.delay power attemptNumber sample = .ok v) ↔ p.PowerFits attemptNumber := by
  obtain ⟨j, hj, hone⟩ := h.jitter
  have hbackoff : (∃ base, p.backoff power attemptNumber = .ok base) ↔ _ := backoff_ok_iff h
  rw [← hbackoff]
  constructor
  · rintro ⟨v, hv⟩
    rw [delay_eq, except_bind_eq_ok] at hv
    obtain ⟨base, hbase, -⟩ := hv
    exact ⟨base, hbase⟩
  · rintro ⟨base, hbase⟩
    obtain ⟨b, -, hb⟩ := backoff_spec h hbase
    obtain ⟨v, hv, -⟩ := jittered_spec hb hj hone sample
    exact ⟨v, by rw [delay_eq, hbase]; exact hv⟩

/-- For every sample, the delay of an attempt is computed without an exception
and lies between zero and twice the maximum, exactly where nothing overflows
and no huge integer is rounded above the bound. -/
theorem delay_in_bounds_iff (h : p.Sound) :
    (∀ sample, ∃ v, p.delay power attemptNumber sample = .ok v ∧ p.InBounds v) ↔
      p.PowerFits attemptNumber ∧ p.CeilingFits power attemptNumber := by
  obtain ⟨m, hm⟩ := h.maximum
  obtain ⟨j, hj, hone⟩ := h.jitter
  rw [ceilingFits_iff h]
  constructor
  · intro hall
    constructor
    · obtain ⟨v, hv, -⟩ := hall fullSample
      exact (delay_ok_iff h fullSample).mp ⟨v, hv⟩
    · intro base v _ hbase hv
      obtain ⟨u, hu, hbounds⟩ := hall fullSample
      rw [delay_eq, hbase] at hu
      obtain rfl := Except.ok.inj (hv.symm.trans hu)
      exact hbounds
  · rintro ⟨hpower, hceiling⟩ sample
    obtain ⟨base, hbase⟩ : ∃ base, p.backoff power attemptNumber = .ok base :=
      (backoff_ok_iff h).mpr hpower
    obtain ⟨b, hbv, hb⟩ := backoff_spec h hbase
    have hle := hbv.le hm.value
    obtain ⟨v, hv, -⟩ := jittered_spec hb hj hone sample
    refine ⟨v, by rw [delay_eq, hbase]; exact hv, zero_le_jittered hb hj hone hv, ?_⟩
    obtain ⟨most, hmost, ⟨hint, hvalue⟩ | ⟨-, most', rfl, hvalue⟩⟩ := mul_two_maximum hm
    · -- the largest sample gives the largest delay
      obtain ⟨u, hu, -⟩ := jittered_spec hb hj hone fullSample
      obtain ⟨-, most', hmost', hu'⟩ := hceiling base u hint hbase hu
      exact ⟨most', hmost', PyNumber.leValue_trans
        (jittered_mono hb hj hone sample.le_one hv hu) hu'⟩
    · refine ⟨most, hmost, ?_⟩
      rw [PyNumber.le_eq, hvalue]
      exact jittered_le most' hb hle hj hone hv

end RetryFields

theorem AcceptedPolicy.sound (p : AcceptedPolicy) : p.toRetryFields.Sound :=
  RetryFields.sound_of_postInit p.accepted

end AgentRoi
