/-
Double precision numbers, known by their values.

Nothing here mentions the package:

* `halfEven` — the nearest integer, the even one of two;
* `nearest` — the nearest number with 53 bits, of any size;
* `Binary64`, `Binary64.round` — the finite numbers of the format, and the one
  a rational is rounded to, unless it overflows;
* `nearest_mono`, `nearest_value` — rounding keeps the order, and leaves the
  numbers of the format alone;
* `abs_nearest_sub_le` — it moves a number by half of the last bit at most;
* `nearest_mul_le` — a product with a number that was rounded up;
* `Binary64.round_le` — below a number of the format nothing overflows.
-/
import Mathlib.Data.Int.Log
import Mathlib.Data.Rat.Floor
import Mathlib.Tactic.Linarith
import Mathlib.Tactic.NormNum
import Mathlib.Tactic.Positivity
import Mathlib.Tactic.Ring

namespace AgentRoi

variable {q r : ℚ} {n : ℤ}

/-! ### The nearest integer -/

def halfEven (q : ℚ) : ℤ :=
  if 1 < 2 * (q - ⌊q⌋) ∨ (2 * (q - ⌊q⌋) = 1 ∧ ⌊q⌋ % 2 = 1) then ⌊q⌋ + 1 else ⌊q⌋

theorem floor_le_halfEven (q : ℚ) : ⌊q⌋ ≤ halfEven q := by
  rw [halfEven]
  split <;> omega

theorem halfEven_le_floor_succ (q : ℚ) : halfEven q ≤ ⌊q⌋ + 1 := by
  rw [halfEven]
  split <;> omega

@[simp] theorem halfEven_intCast (n : ℤ) : halfEven n = n := by
  simp [halfEven]

theorem halfEven_mono (h : q ≤ r) : halfEven q ≤ halfEven r := by
  rcases (Int.floor_mono h).lt_or_eq with hlt | heq
  · -- the floors differ
    have hq := halfEven_le_floor_succ q
    have hr := floor_le_halfEven r
    omega
  · -- the fractional parts are compared
    rw [halfEven, halfEven, heq]
    split
    · next hup =>
      rw [if_pos]
      rcases hup with hup | ⟨hup, hodd⟩
      · exact .inl (by linarith)
      · rcases h.lt_or_eq with hlt | rfl
        · exact .inl (by linarith)
        · exact .inr ⟨hup, hodd⟩
    · split <;> omega

theorem halfEven_sub_le (q : ℚ) : halfEven q - q ≤ 1 / 2 := by
  have hfloor := Int.floor_le q
  rw [halfEven]
  split
  · next hup =>
    push_cast
    rcases hup with hup | ⟨hup, -⟩ <;> linarith
  · linarith

theorem sub_halfEven_le (q : ℚ) : q - halfEven q ≤ 1 / 2 := by
  have hfloor := Int.lt_floor_add_one q
  rw [halfEven]
  split
  · push_cast
    linarith
  · next hup =>
    push Not at hup
    linarith [hup.1]

/-- Below the middle between two integers the lower one is the nearest. -/
theorem halfEven_le_of_lt (h : q < n + 1 / 2) : halfEven q ≤ n := by
  have hfloor : ⌊q⌋ ≤ n := by
    have hlt : ⌊q⌋ < n + 1 := Int.floor_lt.mpr (by push_cast; linarith)
    omega
  rcases hfloor.lt_or_eq with hlt | heq
  · have := halfEven_le_floor_succ q
    omega
  · rw [halfEven, heq, if_neg]
    rintro (hup | ⟨hup, -⟩) <;> linarith

/-! ### The nearest number with 53 bits -/

/-- The exponent of the last of the 53 bits; the least is -1074. -/
def lastBit (q : ℚ) : ℤ := max (Int.log 2 |q| - 52) (-1074)

def nearest (q : ℚ) : ℚ := halfEven (q / 2 ^ lastBit q) * 2 ^ lastBit q

/-- The numbers with 53 bits above the least exponent. -/
def HasBits (q : ℚ) : Prop := ∃ m e : ℤ, |m| < 2 ^ 53 ∧ -1074 ≤ e ∧ q = m * 2 ^ e

theorem two_zpow_pos (e : ℤ) : (0 : ℚ) < 2 ^ e := zpow_pos two_pos e

/-- Rounding moves a number by half of the last bit at most. -/
theorem abs_nearest_sub_le (q : ℚ) : |nearest q - q| ≤ 2 ^ lastBit q / 2 := by
  have hbit := two_zpow_pos (lastBit q)
  have hunits : |(halfEven (q / 2 ^ lastBit q) : ℚ) - q / 2 ^ lastBit q| ≤ 1 / 2 :=
    abs_sub_le_iff.mpr ⟨halfEven_sub_le _, sub_halfEven_le _⟩
  have hscaled : nearest q - q =
      (halfEven (q / 2 ^ lastBit q) - q / 2 ^ lastBit q) * 2 ^ lastBit q := by
    rw [sub_mul, div_mul_cancel₀ _ hbit.ne', nearest]
  calc |nearest q - q|
      = |(halfEven (q / 2 ^ lastBit q) : ℚ) - q / 2 ^ lastBit q| * 2 ^ lastBit q := by
        rw [hscaled, abs_mul, abs_of_pos hbit]
    _ ≤ 1 / 2 * 2 ^ lastBit q := mul_le_mul_of_nonneg_right hunits hbit.le
    _ = 2 ^ lastBit q / 2 := by ring

/-- Above the least exponent, 53 bits leave no leading zero. -/
theorem two_zpow_le_of_lastBit (hq : 0 < q) (h : -1074 < lastBit q) : 2 ^ (lastBit q + 52) ≤ q := by
  have hlog : lastBit q + 52 = Int.log 2 q := by
    rw [lastBit, abs_of_pos hq] at h ⊢
    omega
  rw [hlog]
  exact Int.zpow_log_le_self (b := 2) (by norm_num) hq

theorem abs_lt_two_zpow_lastBit (q : ℚ) : |q| < 2 ^ (lastBit q + 53) := by
  have hlog := Int.lt_zpow_succ_log_self (b := 2) (by norm_num) |q|
  refine hlog.trans_le (zpow_le_zpow_right₀ (by norm_num) ?_)
  rw [lastBit]
  omega

theorem lastBit_mono (hq : 0 < q) (h : q ≤ r) : lastBit q ≤ lastBit r := by
  rw [lastBit, lastBit, abs_of_pos hq, abs_of_pos (hq.trans_le h)]
  have := Int.log_mono_right (b := 2) hq h
  omega

theorem nearest_nonneg (hq : 0 ≤ q) : 0 ≤ nearest q := by
  have hbit := (two_zpow_pos (lastBit q)).le
  have h : halfEven ((0 : ℤ) : ℚ) ≤ halfEven (q / 2 ^ lastBit q) :=
    halfEven_mono (by rw [Int.cast_zero]; exact div_nonneg hq hbit)
  rw [halfEven_intCast] at h
  exact mul_nonneg (by exact_mod_cast h) hbit

theorem nearest_nonpos (hq : q ≤ 0) : nearest q ≤ 0 := by
  have hbit := (two_zpow_pos (lastBit q)).le
  have h : halfEven (q / 2 ^ lastBit q) ≤ halfEven ((0 : ℤ) : ℚ) :=
    halfEven_mono (by rw [Int.cast_zero]; exact div_nonpos_of_nonpos_of_nonneg hq hbit)
  rw [halfEven_intCast] at h
  exact mul_nonpos_of_nonpos_of_nonneg (by exact_mod_cast h) hbit

@[simp] theorem nearest_zero : nearest 0 = 0 := by
  have h : halfEven ((0 : ℤ) : ℚ) = 0 := halfEven_intCast 0
  rw [Int.cast_zero] at h
  simp [nearest, h]

theorem two_zpow_eq {d e : ℤ} (h : d ≤ e) :
    (2 : ℚ) ^ e = ((2 ^ (e - d).toNat : ℤ) : ℚ) * 2 ^ d := by
  push_cast
  rw [← zpow_natCast, ← zpow_add₀ two_ne_zero]
  congr 1
  omega

/-- A bound by a power of two, with room for the last bit, survives rounding. -/
theorem nearest_le_two_zpow {e : ℤ} (he : lastBit q ≤ e) (h : q ≤ 2 ^ e) : nearest q ≤ 2 ^ e := by
  have hbit := two_zpow_pos (lastBit q)
  have hround : halfEven (q / 2 ^ lastBit q) ≤ 2 ^ (e - lastBit q).toNat := by
    rw [← halfEven_intCast (2 ^ (e - lastBit q).toNat)]
    refine halfEven_mono ?_
    rw [div_le_iff₀ hbit, ← two_zpow_eq he]
    exact h
  rw [two_zpow_eq he, nearest]
  exact mul_le_mul_of_nonneg_right (by exact_mod_cast hround) hbit.le

theorem two_zpow_le_nearest {e : ℤ} (he : lastBit q ≤ e) (h : 2 ^ e ≤ q) :
    2 ^ e ≤ nearest q := by
  have hbit := two_zpow_pos (lastBit q)
  have hround : 2 ^ (e - lastBit q).toNat ≤ halfEven (q / 2 ^ lastBit q) := by
    rw [← halfEven_intCast (2 ^ (e - lastBit q).toNat)]
    refine halfEven_mono ?_
    rw [le_div_iff₀ hbit, ← two_zpow_eq he]
    exact h
  rw [two_zpow_eq he, nearest]
  exact mul_le_mul_of_nonneg_right (by exact_mod_cast hround) hbit.le

/-- Rounding keeps the order. -/
theorem nearest_mono (hq : 0 ≤ q) (h : q ≤ r) : nearest q ≤ nearest r := by
  rcases hq.lt_or_eq with hpos | rfl
  · rcases (lastBit_mono hpos h).lt_or_eq with hlt | heq
    · -- a power of two lies between the two
      have hr := two_zpow_le_of_lastBit (hpos.trans_le h)
        (lt_of_le_of_lt (le_max_right _ _) hlt)
      have hq' : q ≤ 2 ^ (lastBit r + 52) := ((le_abs_self q).trans
        (abs_lt_two_zpow_lastBit q).le).trans (zpow_le_zpow_right₀ (by norm_num) (by omega))
      exact (nearest_le_two_zpow (by omega) hq').trans (two_zpow_le_nearest (by omega) hr)
    · have hbit := two_zpow_pos (lastBit r)
      rw [nearest, nearest, heq]
      refine mul_le_mul_of_nonneg_right ?_ hbit.le
      exact_mod_cast halfEven_mono (div_le_div_of_nonneg_right h hbit.le)
  · rw [nearest_zero]
    exact nearest_nonneg h

/-- Numbers with 53 bits are left alone. -/
theorem nearest_value (h : HasBits q) : nearest q = q := by
  obtain ⟨m, e, hm, he, rfl⟩ := h
  by_cases hzero : m = 0
  · rw [hzero, Int.cast_zero, zero_mul, nearest_zero]
  · have hpos : 0 < |(m : ℚ) * 2 ^ e| := abs_pos.mpr
      (mul_ne_zero (Int.cast_ne_zero.mpr hzero) (two_zpow_pos e).ne')
    have hlt : |(m : ℚ) * 2 ^ e| < 2 ^ (e + 53) := by
      rw [abs_mul, abs_of_pos (two_zpow_pos e), zpow_add₀ two_ne_zero, mul_comm]
      refine mul_lt_mul_of_pos_left ?_ (two_zpow_pos e)
      exact_mod_cast hm
    -- the last bit is not above the exponent
    have hle : lastBit (m * 2 ^ e) ≤ e := by
      have := (Int.lt_zpow_iff_log_lt (b := 2) (by norm_num) hpos).mp hlt
      rw [lastBit]
      omega
    have hbit := (two_zpow_pos (lastBit (m * 2 ^ e))).ne'
    have hint : (m : ℚ) * 2 ^ e / 2 ^ lastBit (m * 2 ^ e) =
        ((m * 2 ^ (e - lastBit (m * 2 ^ e)).toNat : ℤ) : ℚ) := by
      rw [div_eq_iff hbit, Int.cast_mul, mul_assoc, ← two_zpow_eq hle]
    rw [nearest, hint, halfEven_intCast, ← hint, div_mul_cancel₀ _ hbit]

/-- What rounding yields has 53 bits. -/
theorem hasBits_nearest (q : ℚ) : HasBits (nearest q) := by
  have hbit := two_zpow_pos (lastBit q)
  have hbounds : |q / 2 ^ lastBit q| ≤ 2 ^ 53 := by
    rw [abs_div, abs_of_pos hbit, div_le_iff₀ hbit]
    refine (abs_lt_two_zpow_lastBit q).le.trans_eq ?_
    rw [zpow_add₀ two_ne_zero, mul_comm]
    rfl
  have hlow : -2 ^ 53 ≤ halfEven (q / 2 ^ lastBit q) := by
    rw [← halfEven_intCast (-2 ^ 53)]
    refine halfEven_mono ?_
    push_cast
    exact (abs_le.mp hbounds).1
  have hhigh : halfEven (q / 2 ^ lastBit q) ≤ 2 ^ 53 := by
    rw [← halfEven_intCast (2 ^ 53)]
    refine halfEven_mono ?_
    push_cast
    exact (abs_le.mp hbounds).2
  have hleast : -1074 ≤ lastBit q := le_max_right _ _
  by_cases hlt : |halfEven (q / 2 ^ lastBit q)| < 2 ^ 53
  · exact ⟨_, _, hlt, hleast, rfl⟩
  · -- the 54th bit is zero
    refine ⟨halfEven (q / 2 ^ lastBit q) / 2, lastBit q + 1, ?_, by omega, ?_⟩
    · rw [abs_lt]
      omega
    · have heven : halfEven (q / 2 ^ lastBit q) = halfEven (q / 2 ^ lastBit q) / 2 * 2 := by
        rw [abs_lt] at hlt
        omega
      rw [nearest, zpow_add₀ two_ne_zero, zpow_one]
      conv_lhs => rw [heven]
      push_cast
      ring

/-- Below the middle between two numbers with 53 bits the lower one is the nearest. -/
theorem nearest_le_of_lt {e : ℤ} (hn : 2 ^ 52 ≤ n) (he : lastBit q ≤ e)
    (h : q < (n + 1 / 2) * 2 ^ e) : nearest q ≤ n * 2 ^ e := by
  have hbit := two_zpow_pos e
  rcases he.lt_or_eq with hlt | rfl
  · -- the bits of the number end before those of the bound begin
    have habs : |q| < 2 ^ (e + 52) :=
      (abs_lt_two_zpow_lastBit q).trans_le (zpow_le_zpow_right₀ (by norm_num) (by omega))
    have hle : nearest q ≤ 2 ^ (e + 52) :=
      nearest_le_two_zpow (by omega) ((le_abs_self q).trans habs.le)
    refine hle.trans ?_
    rw [zpow_add₀ two_ne_zero, mul_comm]
    exact mul_le_mul_of_nonneg_right (by exact_mod_cast hn) hbit.le
  · have hround : halfEven (q / 2 ^ lastBit q) ≤ n :=
      halfEven_le_of_lt ((div_lt_iff₀ hbit).mpr h)
    exact mul_le_mul_of_nonneg_right (by exact_mod_cast hround) hbit.le

theorem lastBit_le {e : ℤ} (he : -1074 ≤ e) (hq : 0 < q) (h : q < 2 ^ (e + 53)) :
    lastBit q ≤ e := by
  have hlog := (Int.lt_zpow_iff_log_lt (b := 2) (by norm_num) (abs_pos.mpr hq.ne')).mp
    (by rw [abs_of_pos hq]; exact h)
  rw [lastBit]
  omega

/-- Numbers below a bound are moved by half of its last bit at most. -/
theorem abs_nearest_sub_le_of_lt {e : ℤ} (he : -1074 ≤ e) (hq : 0 ≤ q) (h : q < 2 ^ (e + 53)) :
    |nearest q - q| ≤ 2 ^ e / 2 := by
  rcases hq.eq_or_lt with rfl | hpos
  · rw [nearest_zero, sub_zero, abs_zero]
    exact (half_pos (two_zpow_pos e)).le
  · refine (abs_nearest_sub_le q).trans (div_le_div_of_nonneg_right ?_ two_pos.le)
    exact zpow_le_zpow_right₀ (by norm_num) (lastBit_le he hpos h)

theorem lastBit_of_one_le (h : 1 ≤ q) : -1074 < lastBit q := by
  have hlog : 0 ≤ Int.log 2 |q| := by
    rw [← Int.zpow_le_iff_le_log (by norm_num) (abs_pos.mpr (by linarith)),
      abs_of_pos (by linarith)]
    simpa using h
  rw [lastBit]
  omega

theorem HasBits.double (h : HasBits q) : HasBits (2 * q) := by
  obtain ⟨m, e, hm, he, rfl⟩ := h
  refine ⟨m, e + 1, hm, by omega, ?_⟩
  rw [zpow_add₀ two_ne_zero, zpow_one]
  ring

/-- Integers of up to 53 bits have 53 bits. -/
theorem hasBits_intCast (h : |n| ≤ 2 ^ 53) : HasBits n := by
  by_cases hlt : |n| < 2 ^ 53
  · exact ⟨n, 0, hlt, by norm_num, by simp⟩
  · refine ⟨n / 2, 1, ?_, by norm_num, ?_⟩
    · rw [abs_lt]
      rw [abs_le] at h
      omega
    · have heven : n = n / 2 * 2 := by
        rw [abs_lt] at hlt
        rw [abs_le] at h
        omega
      rw [zpow_one]
      exact_mod_cast heven

/-- The negative of a number of ordinary size stays negative. -/
theorem nearest_neg (h : q ≤ -1) : nearest q < 0 := by
  have hbit := two_zpow_pos (lastBit q)
  have habs : 1 ≤ |q| := by
    rw [abs_of_neg (by linarith)]
    linarith
  have hpos : 0 < |q| := by linarith
  have hlog : 0 ≤ Int.log 2 |q| := by
    rw [← Int.zpow_le_iff_le_log (by norm_num) hpos]
    simpa using habs
  have hle : (2 : ℚ) ^ lastBit q ≤ |q| := by
    refine le_trans (zpow_le_zpow_right₀ (by norm_num) ?_)
      (Int.zpow_log_le_self (b := 2) (by norm_num) hpos)
    rw [lastBit]
    omega
  have hround : halfEven (q / 2 ^ lastBit q) ≤ -1 := by
    rw [← halfEven_intCast (-1)]
    refine halfEven_mono ?_
    rw [div_le_iff₀ hbit]
    rw [abs_of_neg (by linarith)] at hle
    push_cast
    linarith
  have hcast : (halfEven (q / 2 ^ lastBit q) : ℚ) ≤ -1 := by exact_mod_cast hround
  rw [nearest]
  exact mul_neg_of_neg_of_pos (by linarith) hbit

/-- A number that was rounded up, times a factor below two, stays below twice the
number, however the product is rounded. -/
theorem nearest_mul_le {f : ℚ} (hq : 1 ≤ q) (hup : q < nearest q) (hf0 : 0 < f)
    (hf : f ≤ 2 - 1 / 2 ^ 52) : nearest (nearest q * f) ≤ 2 * q := by
  have hbit := two_zpow_pos (lastBit q)
  have hlast := lastBit_of_one_le hq
  -- `n` units of the last bit are the rounded number
  obtain ⟨n, hn⟩ : ∃ n, n = halfEven (q / 2 ^ lastBit q) := ⟨_, rfl⟩
  have hnearest : nearest q = n * 2 ^ lastBit q := by rw [hn, nearest]
  have hnormal : (2 : ℚ) ^ 52 ≤ q / 2 ^ lastBit q := by
    rw [le_div_iff₀ hbit]
    calc (2 : ℚ) ^ 52 * 2 ^ lastBit q = 2 ^ (lastBit q + 52) := by
          rw [zpow_add₀ two_ne_zero, mul_comm]
          rfl
      _ ≤ q := two_zpow_le_of_lastBit (by linarith) hlast
  have habove : q / 2 ^ lastBit q < n := by
    rw [div_lt_iff₀ hbit, ← hnearest]
    exact hup
  have hhalf : (n : ℚ) - 1 / 2 ≤ q / 2 ^ lastBit q := by
    have := halfEven_sub_le (q / 2 ^ lastBit q)
    rw [← hn] at this
    linarith
  have hlarge : (2 : ℤ) ^ 52 + 1 ≤ n := by
    have hlt : ((2 ^ 52 : ℤ) : ℚ) < n := by
      push_cast
      exact hnormal.trans_lt habove
    have : (2 : ℤ) ^ 52 < n := by exact_mod_cast hlt
    omega
  have hhalf' : (2 * (n - 1) + 1 : ℚ) * 2 ^ lastBit q ≤ 2 * q := by
    rw [le_div_iff₀ hbit] at hhalf
    linarith
  -- the product lies below the middle between `2 * (n - 1)` and `2 * n` units
  have hproduct : nearest q * f < ((n - 1 : ℤ) + 1 / 2) * 2 ^ (lastBit q + 1) := by
    have hfactor : (n : ℚ) * f < 2 * (n - 1) + 1 := by
      have hn0 : (2 : ℚ) ^ 52 + 1 ≤ n := by exact_mod_cast hlarge
      have hle : (n : ℚ) * f ≤ n * (2 - 1 / 2 ^ 52) :=
        mul_le_mul_of_nonneg_left hf (by linarith)
      have hrest : (1 : ℚ) < n * (1 / 2 ^ 52) := by
        rw [mul_one_div, one_lt_div (by norm_num)]
        linarith
      linarith
    rw [hnearest, zpow_add₀ two_ne_zero, zpow_one]
    push_cast
    calc (n : ℚ) * 2 ^ lastBit q * f = n * f * 2 ^ lastBit q := by ring
      _ < (2 * (n - 1) + 1) * 2 ^ lastBit q := mul_lt_mul_of_pos_right hfactor hbit
      _ = _ := by ring
  have hpos : 0 < nearest q * f := mul_pos (by linarith) hf0
  have hsmall : lastBit (nearest q * f) ≤ lastBit q + 1 := by
    refine lastBit_le (by omega) hpos ?_
    have hq' := (abs_lt_two_zpow_lastBit q).le
    have hround : nearest q ≤ 2 ^ (lastBit q + 53) :=
      nearest_le_two_zpow (by omega) ((le_abs_self q).trans hq')
    have hf2 : f < 2 := by
      refine hf.trans_lt ?_
      norm_num
    calc nearest q * f < nearest q * 2 := mul_lt_mul_of_pos_left hf2 (by linarith)
      _ ≤ 2 ^ (lastBit q + 53) * 2 := mul_le_mul_of_nonneg_right hround (by norm_num)
      _ = 2 ^ (lastBit q + 1 + 53) := by
          rw [show lastBit q + 1 + 53 = lastBit q + 53 + 1 by ring,
            zpow_add_one₀ two_ne_zero]
  refine (nearest_le_of_lt (by omega) hsmall hproduct).trans (le_trans ?_ hhalf')
  rw [zpow_add₀ two_ne_zero, zpow_one]
  push_cast
  linarith

/-- The difference to one is exact from one half on. -/
theorem HasBits.one_sub (h : HasBits q) (hhalf : 1 / 2 ≤ q) (hone : q ≤ 1) : HasBits (1 - q) := by
  have hq : 0 < |q| := abs_pos.mpr (by linarith)
  have hlow : -1 ≤ Int.log 2 |q| := by
    rw [← Int.zpow_le_iff_le_log (by norm_num) hq, abs_of_pos (by linarith)]
    norm_num at hhalf ⊢
    exact hhalf
  have hhigh : Int.log 2 |q| < 1 := by
    rw [← Int.lt_zpow_iff_log_lt (by norm_num) hq, abs_of_pos (by linarith)]
    norm_num
    linarith
  have hbit : -53 ≤ lastBit q ∧ lastBit q ≤ 0 := by
    rw [lastBit]
    omega
  have hpos := two_zpow_pos (lastBit q)
  have hvalue : (halfEven (q / 2 ^ lastBit q) : ℚ) * 2 ^ lastBit q = q := nearest_value h
  have hwhole : (1 : ℚ) = ((2 ^ (0 - lastBit q).toNat : ℤ) : ℚ) * 2 ^ lastBit q := by
    rw [← two_zpow_eq hbit.2, zpow_zero]
  have hdiff : 1 - q =
      ((2 ^ (0 - lastBit q).toNat - halfEven (q / 2 ^ lastBit q) : ℤ) : ℚ) * 2 ^ lastBit q := by
    rw [Int.cast_sub, sub_mul, ← hwhole, hvalue]
  refine ⟨_, lastBit q, ?_, by omega, hdiff⟩
  have hsmall : (2 : ℚ) ^ (-53 : ℤ) ≤ 2 ^ lastBit q := zpow_le_zpow_right₀ (by norm_num) hbit.1
  -- the difference is at most one half
  have hbound : |((2 ^ (0 - lastBit q).toNat - halfEven (q / 2 ^ lastBit q) : ℤ) : ℚ)| *
      2 ^ lastBit q ≤ 1 / 2 := by
    rw [← abs_of_pos hpos, ← abs_mul, abs_of_pos hpos, ← hdiff, abs_of_nonneg (by linarith)]
    linarith
  have hlt : |((2 ^ (0 - lastBit q).toNat - halfEven (q / 2 ^ lastBit q) : ℤ) : ℚ)| < 2 ^ 53 := by
    by_contra hnot
    have hlarge := mul_le_mul (not_lt.mp hnot) hsmall (by positivity) (abs_nonneg _)
    norm_num at hlarge hbound
    linarith
  exact_mod_cast hlt

/-! ### The finite numbers -/

def largest : ℚ := (2 ^ 53 - 1) * 2 ^ 971

theorem two_pow_le_largest {e : ℕ} (h : e ≤ 971) : 2 ^ e ≤ largest := by
  have hpow : (2 : ℚ) ^ e ≤ 2 ^ 971 := pow_le_pow_right₀ (by norm_num) h
  refine hpow.trans ?_
  rw [largest]
  exact le_mul_of_one_le_left (by positivity) (by norm_num)

theorem largest_lt : largest < 2 ^ 1024 := by
  have hpow : (2 : ℚ) ^ 1024 = 2 ^ 53 * 2 ^ 971 := by rw [← pow_add]
  rw [largest, hpow]
  exact mul_lt_mul_of_pos_right (by norm_num) (by positivity)

structure Binary64 where
  value : ℚ
  hasBits : HasBits value
  bounded : |value| ≤ largest

namespace Binary64

variable {d d' : Binary64}

@[ext] theorem ext (h : d.value = d'.value) : d = d' := by
  cases d
  cases d'
  cases h
  rfl

instance : DecidableEq Binary64 := fun d d' =>
  decidable_of_iff (d.value = d'.value) ⟨ext, congrArg value⟩

/-- The number of the format nearest to a rational; none if that is too large. -/
def round (q : ℚ) : Option Binary64 :=
  if h : |nearest q| ≤ largest then some ⟨nearest q, hasBits_nearest q, h⟩ else none

theorem round_eq_some : round q = some d ↔ nearest q = d.value := by
  rw [round]
  constructor
  · intro h
    split at h
    · cases h
      rfl
    · cases h
  · intro h
    rw [dif_pos (by rw [h]; exact d.bounded)]
    exact congrArg some (ext h)

theorem round_eq_none : round q = none ↔ largest < |nearest q| := by
  rw [round]
  constructor
  · intro h
    split at h
    · cases h
    · next hlarge => exact not_le.mp hlarge
  · intro h
    rw [dif_neg (not_le.mpr h)]

@[simp] theorem round_value (d : Binary64) : round d.value = some d :=
  round_eq_some.mpr (nearest_value d.hasBits)

/-- Below a rational that does not overflow, none does. -/
theorem round_le (hq : 0 ≤ q) (h : q ≤ r) (hr : round r = some d') :
    ∃ d, round q = some d ∧ 0 ≤ d.value ∧ d.value ≤ d'.value := by
  rw [round_eq_some] at hr
  have hmono := nearest_mono hq h
  have hnonneg := nearest_nonneg hq
  have hbounded : |nearest q| ≤ largest := by
    rw [abs_of_nonneg hnonneg]
    have := d'.bounded
    rw [abs_of_nonneg (hr ▸ hnonneg.trans hmono)] at this
    rw [hr] at hmono
    exact hmono.trans this
  exact ⟨⟨nearest q, hasBits_nearest q, hbounded⟩, round_eq_some.mpr rfl, hnonneg, hr ▸ hmono⟩

theorem hasBits_zero : HasBits 0 := ⟨0, 0, by norm_num, by norm_num, by norm_num⟩

theorem hasBits_one : HasBits 1 := ⟨1, 0, by norm_num, by norm_num, by norm_num⟩

theorem hasBits_two : HasBits 2 := ⟨1, 1, by norm_num, by norm_num, by norm_num⟩

def zero : Binary64 := ⟨0, hasBits_zero, by rw [abs_zero, largest]; positivity⟩

def one : Binary64 :=
  ⟨1, hasBits_one, by rw [abs_one]; exact two_pow_le_largest (Nat.zero_le 971)⟩

def two : Binary64 :=
  ⟨2, hasBits_two, by
    rw [abs_of_pos two_pos, ← pow_one 2]; exact two_pow_le_largest (by norm_num)⟩

/-- An integer of up to 53 bits. -/
def ofSmallInt (n : ℤ) (h : |n| ≤ 2 ^ 53) : Binary64 :=
  ⟨n, hasBits_intCast h, by
    have habs : |(n : ℚ)| ≤ 2 ^ 53 := by exact_mod_cast h
    exact habs.trans (two_pow_le_largest (by norm_num))⟩

theorem round_one : round ((1 : ℤ) : ℚ) = some one := by
  rw [Int.cast_one]
  exact round_value one

theorem round_two : round ((2 : ℤ) : ℚ) = some two := by
  rw [Int.cast_ofNat]
  exact round_value two

/-- Rationals up to a number of the format round to one that is not above it. -/
theorem round_of_le (d' : Binary64) (hq : 0 ≤ q) (h : q ≤ d'.value) :
    ∃ d, round q = some d ∧ 0 ≤ d.value ∧ d.value ≤ d'.value :=
  round_le hq h (round_value d')

end Binary64

end AgentRoi
