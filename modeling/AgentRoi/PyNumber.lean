/-
Python's numbers: booleans, integers of any size and double precision floats.

* `PyNumber`, `value` — a number, and the rational it stands for if it is
  finite;
* `Binary64.times`, `Binary64.plus`, `Binary64.minus` — float arithmetic, which
  overflows to an infinity;
* `toFloat`, `mul`, `add`, `sub`, `lt`, `le` — the operations on numbers: two
  integers stay exact, anything else is computed in floats, and an integer that
  is too large for one raises;
* `PowerFunction`, `pow` — `x ** e`; the last bits of a float power are the
  platform's;
* `Amount`, `mul_floats`, `rounded_le` — what is computed with amounts, that is
  with finite numbers that are not negative.
-/
import AgentRoi.Binary64
import AgentRoi.Json
import AgentRoi.PyExc

namespace AgentRoi

/-! ### Floats -/

namespace Binary64

/-- The float nearest to a rational. -/
def rounded (q : ℚ) : FloatVal Binary64 :=
  match round q with
  | some d => .finite d
  | none => if 0 < q then .inf else .negInf

def signOf : FloatVal Binary64 → ℤ
  | .finite d => if 0 < d.value then 1 else if d.value < 0 then -1 else 0
  | .inf => 1
  | .negInf => -1
  | .nan => 0

def times : FloatVal Binary64 → FloatVal Binary64 → FloatVal Binary64
  | .finite a, .finite b => rounded (a.value * b.value)
  | .nan, _ => .nan
  | _, .nan => .nan
  | a, b =>
    if signOf a * signOf b = 0 then .nan
    else if 0 < signOf a * signOf b then .inf else .negInf

def plus : FloatVal Binary64 → FloatVal Binary64 → FloatVal Binary64
  | .finite a, .finite b => rounded (a.value + b.value)
  | .nan, _ => .nan
  | _, .nan => .nan
  | .inf, .negInf => .nan
  | .negInf, .inf => .nan
  | .finite _, b => b
  | a, _ => a

def minus : FloatVal Binary64 → FloatVal Binary64 → FloatVal Binary64
  | .finite a, .finite b => rounded (a.value - b.value)
  | a, .inf => plus a .negInf
  | a, .negInf => plus a .inf
  | a, b => plus a b

variable {q r : ℚ} {d : Binary64}

theorem rounded_of_some (h : round q = some d) : rounded q = .finite d := by
  rw [rounded, h]

@[simp] theorem rounded_value (d : Binary64) : rounded d.value = .finite d :=
  rounded_of_some (round_value d)

/-- A rational that is not negative overflows upwards. -/
theorem rounded_of_none (hq : 0 ≤ q) (h : round q = none) : rounded q = .inf := by
  rw [rounded, h]
  have hpos : 0 < q := by
    rcases hq.lt_or_eq with hlt | rfl
    · exact hlt
    · rw [show (0 : ℚ) = zero.value from rfl, round_value] at h
      cases h
  exact if_pos hpos

end Binary64

/-! ### Numbers -/

inductive PyNumber where
  | bool (b : Bool)
  | int (n : ℤ)
  | float (x : FloatVal Binary64)

/-- The powers the platform computes, exact or not. -/
structure PowerFunction where
  pow : Binary64 → ℕ → Binary64
  pow_nonneg : ∀ d n, 0 ≤ d.value → 0 ≤ (pow d n).value

namespace PyNumber

/-- The integer that a boolean or an integer is. -/
def integer : PyNumber → Option ℤ
  | .bool b => some (if b then 1 else 0)
  | .int n => some n
  | .float _ => none

def value (x : PyNumber) : FloatVal ℚ :=
  match x with
  | .bool b => .finite (if b then 1 else 0)
  | .int n => .finite n
  | .float (.finite d) => .finite d.value
  | .float .nan => .nan
  | .float .inf => .inf
  | .float .negInf => .negInf

/-- `float(x)`. -/
def toFloat (x : PyNumber) : Except PyExc (FloatVal Binary64) :=
  match x with
  | .float v => .ok v
  | .bool b => .ok (.finite (if b then .one else .zero))
  | .int n =>
    match Binary64.round n with
    | some d => .ok (.finite d)
    | none => .error .overflowError

/-- An operation, exact on integers. -/
def arithmetic (onInts : ℤ → ℤ → ℤ)
    (onFloats : FloatVal Binary64 → FloatVal Binary64 → FloatVal Binary64) (a b : PyNumber) :
    Except PyExc PyNumber :=
  match a.integer, b.integer with
  | some m, some n => .ok (.int (onInts m n))
  | _, _ => do
    let x ← a.toFloat
    let y ← b.toFloat
    return .float (onFloats x y)

def mul : PyNumber → PyNumber → Except PyExc PyNumber := arithmetic (· * ·) Binary64.times

def add : PyNumber → PyNumber → Except PyExc PyNumber := arithmetic (· + ·) Binary64.plus

def sub : PyNumber → PyNumber → Except PyExc PyNumber := arithmetic (· - ·) Binary64.minus

/-- Comparisons are exact. -/
def ltValue : FloatVal ℚ → FloatVal ℚ → Bool
  | .finite p, .finite q => p < q
  | .finite _, .inf => true
  | .negInf, .finite _ => true
  | .negInf, .inf => true
  | _, _ => false

def eqValue : FloatVal ℚ → FloatVal ℚ → Bool
  | .finite p, .finite q => p = q
  | .inf, .inf => true
  | .negInf, .negInf => true
  | _, _ => false

def lt (a b : PyNumber) : Bool := ltValue a.value b.value

def le (a b : PyNumber) : Bool := ltValue a.value b.value || eqValue a.value b.value

def isZero (a : PyNumber) : Bool := eqValue a.value (.finite 0)

/-- `x ** e` of a float and of the exponent as a float. -/
def floatPow (power : PowerFunction) : FloatVal Binary64 → ℕ → Except PyExc (FloatVal Binary64)
  | .finite d, e =>
    if largest < |d.value| ^ e then .error .overflowError else .ok (.finite (power.pow d e))
  | .nan, e => .ok (if e = 0 then .finite .one else .nan)
  | .inf, e => .ok (if e = 0 then .finite .one else .inf)
  | .negInf, e => .ok (if e = 0 then .finite .one else if e % 2 = 0 then .inf else .negInf)

/-- `x ** e`. -/
def pow (power : PowerFunction) (x : PyNumber) (e : ℕ) : Except PyExc PyNumber :=
  match x.integer with
  | some n => .ok (.int (n ^ e))
  | none => do
    let base ← x.toFloat
    match Binary64.round e with
    | none => .error .overflowError
    | some exponent => return .float (← floatPow power base ⌊exponent.value⌋₊)

/-- `int(x)`. -/
def toInt (x : PyNumber) : Except PyExc ℤ :=
  match x with
  | .bool b => .ok (if b then 1 else 0)
  | .int n => .ok n
  | .float (.finite d) => .ok (if 0 ≤ d.value then ⌊d.value⌋ else ⌈d.value⌉)
  | .float .nan => .error (.valueError (lit "cannot convert float NaN to integer"))
  | .float _ => .error .overflowError

/-! ### Amounts -/

/-- A finite number that is not negative and has a float. -/
structure Amount (x : PyNumber) (q : ℚ) : Prop where
  value : x.value = .finite q
  nonneg : 0 ≤ q
  float : ∃ d, Binary64.round q = some d

variable {a b x : PyNumber} {p q : ℚ} {d d' : Binary64}

/-- The float of a finite number is the one nearest to it. -/
theorem toFloat_of_value (h : x.value = .finite q) : x.toFloat =
    match Binary64.round q with
    | some d => .ok (.finite d)
    | none => .error .overflowError := by
  cases x with
  | bool b =>
    cases b with
    | false =>
      cases h
      rw [show ((if false = true then 1 else 0 : ℚ)) = Binary64.zero.value from rfl,
        Binary64.round_value]
      rfl
    | true =>
      cases h
      rw [show ((if true = true then 1 else 0 : ℚ)) = Binary64.one.value from rfl,
        Binary64.round_value]
      rfl
  | int n =>
    cases h
    rfl
  | float v =>
    cases v with
    | finite d =>
      cases h
      rw [Binary64.round_value]
      rfl
    | nan => cases h
    | inf => cases h
    | negInf => cases h

theorem toFloat_of_round (h : x.value = .finite q) (hd : Binary64.round q = some d) :
    x.toFloat = .ok (.finite d) := by
  rw [toFloat_of_value h, hd]

/-- The value of an integer. -/
theorem value_of_integer {n : ℤ} (h : x.integer = some n) : x.value = .finite n := by
  cases x with
  | bool b => cases b <;> cases h <;> rfl
  | int m => cases h; rfl
  | float v => cases h

theorem arithmetic_ints {onInts : ℤ → ℤ → ℤ}
    {onFloats : FloatVal Binary64 → FloatVal Binary64 → FloatVal Binary64} {m n : ℤ}
    (ha : a.integer = some m) (hb : b.integer = some n) :
    arithmetic onInts onFloats a b = .ok (.int (onInts m n)) := by
  rw [arithmetic, ha, hb]

theorem arithmetic_floats {onInts : ℤ → ℤ → ℤ}
    {onFloats : FloatVal Binary64 → FloatVal Binary64 → FloatVal Binary64}
    (h : a.integer = none ∨ b.integer = none) :
    arithmetic onInts onFloats a b = (do
      let x ← a.toFloat
      let y ← b.toFloat
      return .float (onFloats x y)) := by
  rw [arithmetic]
  rcases h with h | h
  · rw [h]
  · rw [h]
    cases a.integer <;> rfl

/-- Float arithmetic on finite numbers that have floats. -/
theorem arithmetic_finite {onInts : ℤ → ℤ → ℤ}
    {onFloats : FloatVal Binary64 → FloatVal Binary64 → FloatVal Binary64}
    (h : a.integer = none ∨ b.integer = none) (ha : a.value = .finite p) (hb : b.value = .finite q)
    (hd : Binary64.round p = some d) (hd' : Binary64.round q = some d') :
    arithmetic onInts onFloats a b = .ok (.float (onFloats (.finite d) (.finite d'))) := by
  rw [arithmetic_floats h, toFloat_of_round ha hd, toFloat_of_round hb hd']
  rfl

theorem amount_float (hd : 0 ≤ d.value) : Amount (.float (.finite d)) d.value :=
  ⟨rfl, hd, d, Binary64.round_value d⟩

/-- An amount that is not an integer is a float. -/
theorem Amount.eq_float (h : Amount x q) (hx : x.integer = none) :
    ∃ d, x = .float (.finite d) ∧ d.value = q := by
  cases x with
  | bool b => cases hx
  | int n => cases hx
  | float v =>
    have hvalue := h.value
    cases v with
    | finite d => exact ⟨d, rfl, FloatVal.finite.inj hvalue⟩
    | nan => cases hvalue
    | inf => cases hvalue
    | negInf => cases hvalue

/-! ### Comparisons -/

theorem lt_of_values (ha : a.value = .finite p) (hb : b.value = .finite q) :
    a.lt b = decide (p < q) := by
  rw [lt, ha, hb]
  rfl

theorem isZero_of_value (ha : a.value = .finite p) : a.isZero = decide (p = 0) := by
  rw [isZero, ha]
  rfl

/-- Less or equal, on values. -/
def leValue (v w : FloatVal ℚ) : Bool := ltValue v w || eqValue v w

theorem le_eq (a b : PyNumber) : a.le b = leValue a.value b.value := rfl

@[simp] theorem leValue_finite : leValue (.finite p) (.finite q) = decide (p ≤ q) := by
  simp [leValue, ltValue, eqValue, le_iff_lt_or_eq]

@[simp] theorem leValue_inf (q : ℚ) : leValue (.finite q) .inf = true := rfl

@[simp] theorem leValue_inf_inf : leValue .inf .inf = true := rfl

@[simp] theorem leValue_inf_finite (q : ℚ) : leValue .inf (.finite q) = false := rfl

theorem leValue_trans {u v w : FloatVal ℚ} (huv : leValue u v = true) (hvw : leValue v w = true) :
    leValue u w = true := by
  cases u <;> cases v <;> cases w <;> simp_all [leValue, ltValue, eqValue]
  -- three finite values are left
  grind

/-- A float rounded from a rational that is not negative. -/
theorem rounded_cases (hq : 0 ≤ q) :
    (∃ d, Binary64.round q = some d ∧ 0 ≤ d.value ∧
      (PyNumber.float (Binary64.rounded q)).value = .finite d.value) ∨
    (Binary64.round q = none ∧ (PyNumber.float (Binary64.rounded q)).value = .inf) := by
  rcases hround : Binary64.round q with _ | d
  · exact .inr ⟨rfl, by rw [Binary64.rounded_of_none hq hround]; rfl⟩
  · refine .inl ⟨d, rfl, ?_, by rw [Binary64.rounded_of_some hround]; rfl⟩
    rw [← Binary64.round_eq_some.mp hround]
    exact nearest_nonneg hq

/-- A float against one that was rounded, infinities included. -/
theorem le_rounded_iff (hd : 0 < d.value) :
    le (.float (.finite d)) (.float (Binary64.rounded q)) = true ↔ d.value ≤ nearest q := by
  rw [le_eq]
  rcases hround : Binary64.round q with _ | d'
  · have hlarge := Binary64.round_eq_none.mp hround
    rcases le_or_gt q 0 with hq | hq
    · rw [Binary64.rounded, hround, if_neg (not_lt.mpr hq)]
      exact iff_of_false (by simp [value, leValue, ltValue, eqValue]) (not_le.mpr ((nearest_nonpos hq).trans_lt hd))
    · rw [Binary64.rounded, hround, if_pos hq]
      rw [abs_of_nonneg (nearest_nonneg hq.le)] at hlarge
      exact iff_of_true rfl (((le_abs_self _).trans d.bounded).trans hlarge.le)
  · rw [Binary64.rounded_of_some hround, Binary64.round_eq_some.mp hround]
    simp [value]

/-- Rounding keeps the order, infinity included. -/
theorem rounded_le (hp : 0 ≤ p) (h : p ≤ q) :
    leValue (PyNumber.float (Binary64.rounded p)).value
      (PyNumber.float (Binary64.rounded q)).value = true := by
  rcases rounded_cases (hp.trans h) with ⟨d', hq, -, hvalue'⟩ | ⟨hq, hvalue'⟩
  · obtain ⟨d, hround, -, hle⟩ := Binary64.round_le hp h hq
    rw [hvalue', Binary64.rounded_of_some hround]
    show leValue (.finite d.value) (.finite d'.value) = true
    rw [leValue_finite, decide_eq_true hle]
  · rw [hvalue']
    rcases rounded_cases hp with ⟨d, -, -, hvalue⟩ | ⟨-, hvalue⟩ <;> rw [hvalue] <;> rfl

end PyNumber

end AgentRoi
