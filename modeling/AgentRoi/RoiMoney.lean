/-
Money in `agent_roi.roi.ledger`.

The tables hold integer cents, the methods take and answer with floats, and the
way between the two is `decimal`.

* `PyDecimal` — what `Decimal(str(value))` makes of an amount;
* `moneyToCents`, `centsToMoney` — `_money_to_cents` and `_cents_to_money`;
* `Kept` — the cents that come back from the float they are answered as;
* `IsDouble`, `kept_of_lt` — in double precision all do, up to 100 · 2 ^ 44.
-/
import AgentRoi.Binary64
import AgentRoi.JsonbNumbers
import AgentRoi.PyM

namespace AgentRoi

variable {F : Type}

inductive PyDecimal where
  | finite (d : DecimalLiteral)
  | infinite
  | nan
  deriving DecidableEq

/-- `Decimal(str(value))` of a float. -/
def PyDecimal.ofFloat [PyFloat F] : FloatVal F → PyDecimal
  | .finite f => .finite (literalOf (PyFloat.repr f))
  | .nan => .nan
  | .inf | .negInf => .infinite

/-- `quantize(Decimal("0.01"), rounding=ROUND_HALF_UP)`, of the absolute value
and in cents. -/
def DecimalLiteral.cents (d : DecimalLiteral) : ℕ :=
  let dropped := (d.scale - 2).toNat
  if dropped = 0 then d.mantissa * 10 ^ (2 - d.scale).toNat
  else (2 * d.mantissa + 10 ^ dropped) / (2 * 10 ^ dropped)

/-- `_money_to_cents`, given what `Decimal(str(value))` yields, or that it
raises.  The context holds 28 digits. -/
def moneyToCents : Option PyDecimal → Except PyExc ℕ
  | none => .error (.valueError (lit "Money values must be numeric"))
  | some (.finite d) =>
    if d.negative && d.mantissa ≠ 0 then
      .error (.valueError (lit "Money values must be finite and nonnegative"))
    else if d.cents < 10 ^ 28 then .ok d.cents
    else .error (.valueError (lit "Money values must be numeric"))
  | some _ => .error (.valueError (lit "Money values must be finite and nonnegative"))

/-- `n / unit`, half to even. -/
def roundHalfEven (n unit : ℕ) : ℕ :=
  let q := n / unit
  let twice := 2 * (n % unit)
  if unit < twice ∨ (unit = twice ∧ q % 2 = 1) then q + 1 else q

/-- `Decimal(int(cents)) / Decimal(100)`, rounded to 28 digits. -/
def centsQuotient (cents : Int) : DecimalLiteral :=
  let dropped := (natDigits cents.natAbs).length - 28
  { negative := cents < 0
    mantissa := roundHalfEven cents.natAbs (10 ^ dropped)
    scale := 2 - dropped }

section

variable [PyFloat F] [PyDecimalFloat F]

variable (F) in
/-- `_cents_to_money`. -/
def centsToMoney (cents : Int) : FloatVal F := PyDecimalFloat.ofDecimal (centsQuotient cents)

variable (F) in
/-- What is read from the float that `cents` are answered as. -/
def centsOfMoney (cents : ℕ) : Except PyExc ℕ :=
  moneyToCents (some (.ofFloat (centsToMoney F cents)))

variable (F) in
/-- The cents come back. -/
def Kept (cents : ℕ) : Prop := centsOfMoney F cents = .ok cents

instance instDecidableKept (cents : ℕ) : Decidable (Kept F cents) :=
  inferInstanceAs (Decidable (_ = _))

end

/-! ### Amounts in double precision -/

namespace DecimalLiteral

/-- The number a literal stands for. -/
def value (d : DecimalLiteral) : ℚ := (if d.negative then -1 else 1) * d.mantissa * 10 ^ (-d.scale)

theorem value_of_plus {d : DecimalLiteral} (h : d.negative = false) :
    d.value = d.mantissa * 10 ^ (-d.scale) := by
  rw [value, h, if_neg Bool.false_ne_true, one_mul]

/-- An amount is read as the cents it is nearest to. -/
theorem cents_eq {d : DecimalLiteral} {cents : ℕ} (hsign : d.negative = false)
    (h : |d.value * 100 - cents| < 1 / 2) : d.cents = cents := by
  obtain ⟨hlow, hhigh⟩ := abs_lt.mp h
  have hten : (10 : ℚ) ≠ 0 := by norm_num
  have hvalue : d.value * 100 = d.mantissa * 10 ^ (2 - d.scale) := by
    rw [value_of_plus hsign, sub_eq_neg_add, zpow_add₀ hten, ← mul_assoc]
    norm_num
  rw [hvalue] at hlow hhigh
  rw [DecimalLiteral.cents]
  split
  · -- at most two decimals: a whole number of cents
    next hdropped =>
    have hwhole : (d.mantissa : ℚ) * 10 ^ (2 - d.scale) =
        ((d.mantissa * 10 ^ (2 - d.scale).toNat : ℕ) : ℚ) := by
      push_cast
      rw [← zpow_natCast, Int.toNat_of_nonneg (by omega)]
    rw [hwhole] at hlow hhigh
    have habove : ((cents : ℤ) : ℚ) < ((d.mantissa * 10 ^ (2 - d.scale).toNat : ℕ) : ℤ) + 1 := by
      push_cast at hlow ⊢
      linarith
    have hbelow : (((d.mantissa * 10 ^ (2 - d.scale).toNat : ℕ) : ℤ) : ℚ) < (cents : ℤ) + 1 := by
      push_cast at hhigh ⊢
      linarith
    have habove' : (cents : ℤ) < ((d.mantissa * 10 ^ (2 - d.scale).toNat : ℕ) : ℤ) + 1 := by
      exact_mod_cast habove
    have hbelow' : ((d.mantissa * 10 ^ (2 - d.scale).toNat : ℕ) : ℤ) < (cents : ℤ) + 1 := by
      exact_mod_cast hbelow
    omega
  · -- the decimals that are dropped are rounded
    next hdropped =>
    obtain ⟨k, hk⟩ : ∃ k, k = (d.scale - 2).toNat := ⟨_, rfl⟩
    have hpow : (0 : ℚ) < 10 ^ k := by positivity
    have hquotient : (d.mantissa : ℚ) * 10 ^ (2 - d.scale) = d.mantissa / 10 ^ k := by
      have hexponent : 2 - d.scale = -(k : ℤ) := by omega
      rw [hexponent, zpow_neg, zpow_natCast, div_eq_mul_inv]
    rw [hquotient] at hlow hhigh
    rw [lt_sub_iff_add_lt, lt_div_iff₀ hpow] at hlow
    rw [sub_lt_iff_lt_add, div_lt_iff₀ hpow] at hhigh
    have hfloor : cents * (2 * 10 ^ k) ≤ 2 * d.mantissa + 10 ^ k := by
      have hle : ((cents * (2 * 10 ^ k) : ℕ) : ℚ) ≤ (2 * d.mantissa + 10 ^ k : ℕ) := by
        push_cast
        linarith
      exact_mod_cast hle
    have hceil : 2 * d.mantissa + 10 ^ k < (cents + 1) * (2 * 10 ^ k) := by
      have hlt : ((2 * d.mantissa + 10 ^ k : ℕ) : ℚ) < ((cents + 1) * (2 * 10 ^ k) : ℕ) := by
        push_cast
        linarith
      exact_mod_cast hlt
    rw [← hk]
    exact Nat.div_eq_of_lt_le hfloor hceil

end DecimalLiteral

section

variable [PyFloat F] [PyDecimalFloat F]

/-- The floats are doubles: `float` of a number is the nearest of them. -/
def IsDouble (valueOf : F → Binary64) : Prop :=
  ∀ d f, PyDecimalFloat.ofDecimal d = .finite f → Binary64.round d.value = some (valueOf f)

theorem value_centsQuotient {cents : ℕ} (h : cents < 10 ^ 28) :
    (centsQuotient cents).negative = false ∧ (centsQuotient cents).value = cents / 100 := by
  have hdigits : (natDigits cents).length - 28 = 0 := by
    rw [Nat.sub_eq_zero_iff_le, natDigits]
    split
    · decide
    · rw [List.length_reverse, List.length_map]
      exact Nat.digits_length_le_iff (by norm_num) cents |>.mpr h
  have hquotient : centsQuotient cents = ⟨false, cents, 2⟩ := by
    simp [centsQuotient, hdigits, roundHalfEven, Nat.mod_one]
  rw [hquotient]
  refine ⟨rfl, (DecimalLiteral.value_of_plus rfl).trans ?_⟩
  norm_num
  ring

/-- Two numbers below 2 ^ 45 that are rounded to the same double differ by less
than half a cent. -/
theorem abs_sub_lt_of_nearest {q r : ℚ} (hq : 0 ≤ q) (hq' : q < 2 ^ 44) (hr : 0 ≤ r)
    (h : nearest r = nearest q) : |r - q| < 1 / 200 := by
  have hpower : ∀ n : ℤ, |n| ≤ 2 ^ 53 → nearest (n : ℚ) = n :=
    fun n hn => nearest_value (hasBits_intCast hn)
  have hr' : r < 2 ^ 45 := by
    by_contra hlarge
    have hlow : nearest ((2 ^ 45 : ℤ) : ℚ) ≤ nearest r :=
      nearest_mono (by norm_num) (by exact_mod_cast not_lt.mp hlarge)
    have hhigh : nearest q ≤ nearest ((2 ^ 44 : ℤ) : ℚ) := nearest_mono hq (by exact_mod_cast hq'.le)
    rw [hpower _ (by norm_num), h] at hlow
    rw [hpower _ (by norm_num)] at hhigh
    have hle := hlow.trans hhigh
    norm_num at hle
  have hmovedQ : |nearest q - q| ≤ 2 ^ (-9 : ℤ) / 2 :=
    abs_nearest_sub_le_of_lt (by norm_num) hq (by exact_mod_cast hq')
  have hmovedR : |nearest r - r| ≤ 2 ^ (-8 : ℤ) / 2 :=
    abs_nearest_sub_le_of_lt (by norm_num) hr (by exact_mod_cast hr')
  rw [h] at hmovedR
  have hsub : |r - q| ≤ |nearest q - r| + |nearest q - q| := by
    rw [abs_sub_comm (nearest q) r]
    exact abs_sub_le r (nearest q) q
  refine hsub.trans_lt ((add_le_add hmovedR hmovedQ).trans_lt ?_)
  norm_num

/-- Amounts below 100 · 2 ^ 44 cents come back. -/
theorem kept_of_lt {valueOf : F → Binary64} {cents : ℕ} {f : F} (hdouble : IsDouble valueOf)
    (hfinite : centsToMoney F cents = .finite f) (h : cents < 100 * 2 ^ 44) : Kept F cents := by
  obtain ⟨hplus, hvalue⟩ := value_centsQuotient (h.trans (by norm_num))
  -- the literal of the float is rounded to the same double as the amount
  have hamount := hdouble _ f hfinite
  have hliteral := hdouble _ f (PyDecimalFloat.ofDecimal_repr f)
  have hsign : (literalOf (PyFloat.repr f)).negative = false :=
    (PyDecimalFloat.ofDecimal_sign _ f hfinite).trans hplus
  have hsame : nearest (literalOf (PyFloat.repr f)).value = nearest (cents / 100) := by
    rw [← hvalue, Binary64.round_eq_some.mp hamount, Binary64.round_eq_some.mp hliteral]
  have hnonneg : 0 ≤ (literalOf (PyFloat.repr f)).value := by
    rw [DecimalLiteral.value_of_plus hsign]
    exact mul_nonneg (Nat.cast_nonneg _) (zpow_nonneg (by norm_num) _)
  have hsmall : (cents / 100 : ℚ) < 2 ^ 44 := by
    rw [div_lt_iff₀ (by norm_num), mul_comm]
    exact_mod_cast h
  have hnear := abs_sub_lt_of_nearest (by positivity) hsmall hnonneg hsame
  have hcents : (literalOf (PyFloat.repr f)).cents = cents := by
    refine DecimalLiteral.cents_eq hsign ?_
    rw [abs_lt] at hnear ⊢
    constructor <;> linarith
  rw [Kept, centsOfMoney, hfinite]
  show moneyToCents (some (.finite (literalOf (PyFloat.repr f)))) = .ok cents
  have hlarge : (literalOf (PyFloat.repr f)).cents < 10 ^ 28 := by
    rw [hcents]
    exact h.trans (by norm_num)
  rw [moneyToCents, hsign, if_neg (by simp), if_pos hlarge, hcents]

end

/-! ### The four floats -/

theorem DecimalLiteral.value_of_isRatio {d : DecimalLiteral} {p q : ℕ} (hsign : d.negative = false)
    (hq : q ≠ 0) (h : d.isRatio p q = true) : d.value = p / q := by
  have hten : (10 : ℚ) ≠ 0 := by norm_num
  have hcast : (d.mantissa * q * 10 ^ (-d.scale).toNat : ℚ) = p * 10 ^ d.scale.toNat := by
    exact_mod_cast of_decide_eq_true h
  have hpow : (10 : ℚ) ^ (-d.scale) * 10 ^ d.scale.toNat = 10 ^ (-d.scale).toNat := by
    rw [← zpow_natCast, ← zpow_natCast, ← zpow_add₀ hten]
    congr 1
    omega
  rw [value_of_plus hsign, eq_div_iff (Nat.cast_ne_zero.mpr hq)]
  refine mul_right_cancel₀ (pow_ne_zero d.scale.toNat hten) ?_
  rw [← hcast, ← hpow]
  ring

theorem hasBits_half : HasBits (1 / 2) := ⟨1, -1, by norm_num, by norm_num, by norm_num⟩

theorem hasBits_huge : HasBits (10 ^ 16) := ⟨5 * 10 ^ 15, 1, by norm_num, by norm_num, by norm_num⟩

def SmallFloat.binary64 : SmallFloat → Binary64
  | .zero => .zero
  | .half => ⟨1 / 2, hasBits_half, by
    rw [abs_of_pos (by norm_num)]
    exact le_trans (by norm_num) (two_pow_le_largest (Nat.zero_le 971))⟩
  | .one => .one
  | .huge => ⟨10 ^ 16, hasBits_huge, by
    rw [abs_of_pos (by norm_num)]
    exact le_trans (by norm_num : (10 : ℚ) ^ 16 ≤ 2 ^ 54) (two_pow_le_largest (by norm_num))⟩

theorem isDouble_smallFloat : IsDouble SmallFloat.binary64 := by
  intro d f h
  have hround : ∀ (x : Binary64) (p q : ℕ), d.negative = false → q ≠ 0 → d.isRatio p q = true →
      x.value = p / q → Binary64.round d.value = some x := by
    intro x p q hsign hq hratio hvalue
    rw [DecimalLiteral.value_of_isRatio hsign hq hratio, ← hvalue, Binary64.round_value]
  unfold PyDecimalFloat.ofDecimal instPyDecimalFloatSmallFloat at h
  dsimp only at h
  split_ifs at h with hsign hzero hhalf hone hhuge <;> cases h
  · exact hround .zero 0 1 (by simpa using hsign) (by decide) hzero (by norm_num [Binary64.zero])
  · exact hround _ 1 2 (by simpa using hsign) (by decide) hhalf (by norm_num [SmallFloat.binary64])
  · exact hround .one 1 1 (by simpa using hsign) (by decide) hone (by norm_num [Binary64.one])
  · exact hround _ (10 ^ 16) 1 (by simpa using hsign) (by decide) hhuge
      (by norm_num [SmallFloat.binary64])

end AgentRoi
