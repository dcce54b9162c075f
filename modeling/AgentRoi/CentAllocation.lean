/-
Amounts rounded to cents, and an amount given out in cents.

Nothing here mentions the package.

* `cents`, `IsCents` — the nearest cent, the even one of two; amounts in whole
  cents;
* `allocate` — each claimant in turn gets what it asks for or what is left,
  and both are rounded;
* `cents_min_le` — nobody gets more than it asks for;
* `Fits`, `allocate_sum_le_iff` — when not more is given out than there is.
-/
import AgentRoi.Binary64

namespace AgentRoi

variable {q r g : ℚ} {gs : List ℚ}

/-! ### Cents -/

/-- `round(q, 2)`. -/
def cents (q : ℚ) : ℚ := halfEven (100 * q) / 100

def IsCents (q : ℚ) : Prop := ∃ n : ℤ, q = n / 100

theorem isCents_cents (q : ℚ) : IsCents (cents q) := ⟨halfEven (100 * q), rfl⟩

theorem isCents_zero : IsCents 0 := ⟨0, by norm_num⟩

theorem IsCents.sub (hq : IsCents q) (hr : IsCents r) : IsCents (q - r) := by
  obtain ⟨m, rfl⟩ := hq
  obtain ⟨n, rfl⟩ := hr
  refine ⟨m - n, ?_⟩
  push_cast
  ring

theorem IsCents.add (hq : IsCents q) (hr : IsCents r) : IsCents (q + r) := by
  obtain ⟨m, rfl⟩ := hq
  obtain ⟨n, rfl⟩ := hr
  refine ⟨m + n, ?_⟩
  push_cast
  ring

theorem IsCents.min (hq : IsCents q) (hr : IsCents r) : IsCents (min q r) := by
  rcases min_choice q r with h | h
  · rwa [h]
  · rwa [h]

theorem IsCents.sum (h : ∀ q ∈ gs, IsCents q) : IsCents gs.sum := by
  induction gs with
  | nil => exact isCents_zero
  | cons g gs ih =>
    obtain ⟨hg, hgs⟩ := List.forall_mem_cons.mp h
    rw [List.sum_cons]
    exact hg.add (ih hgs)

/-- Whole cents are left as they are. -/
theorem IsCents.cents_eq (h : IsCents q) : cents q = q := by
  obtain ⟨n, rfl⟩ := h
  have hn : (100 : ℚ) * (n / 100) = n := by ring
  rw [cents, hn, halfEven_intCast]

theorem cents_mono (h : q ≤ r) : cents q ≤ cents r := by
  have hint : halfEven (100 * q) ≤ halfEven (100 * r) :=
    halfEven_mono (mul_le_mul_of_nonneg_left h (by norm_num))
  have hrat : (halfEven (100 * q) : ℚ) ≤ halfEven (100 * r) := by exact_mod_cast hint
  exact div_le_div_of_nonneg_right hrat (by norm_num)

theorem cents_nonneg (h : 0 ≤ q) : 0 ≤ cents q := by
  have hmono := cents_mono h
  rwa [isCents_zero.cents_eq] at hmono

/-- Nothing is left of half a cent. -/
theorem cents_of_small (hq : 0 ≤ q) (h : q ≤ 1 / 200) : cents q = 0 := by
  have hhalf : halfEven (1 / 2) = 0 := by decide +kernel
  have hle : cents q ≤ 0 := by
    refine (cents_mono h).trans (le_of_eq ?_)
    have htimes : (100 : ℚ) * (1 / 200) = 1 / 2 := by norm_num
    rw [cents, htimes, hhalf]
    norm_num
  exact le_antisymm hle (cents_nonneg hq)

theorem cents_rest (q : ℚ) : cents (max 0 (q - cents q)) = 0 := by
  refine cents_of_small (le_max_left _ _) (max_le (by norm_num) ?_)
  have hrest := sub_halfEven_le (100 * q)
  rw [cents]
  linarith

/-! ### An amount given out -/

/-- What the claimants get, one after the other, out of what remains. -/
def allocate : List ℚ → ℚ → List ℚ
  | [], _ => []
  | g :: gs, remaining =>
    cents (min g remaining) ::
      allocate gs (cents (max 0 (remaining - cents (min g remaining))))

/-- An estimate is not negative, and in whole cents. -/
def IsEstimate (g : ℚ) : Prop := 0 ≤ g ∧ IsCents g

theorem cents_min_le (hg : IsEstimate g) (r : ℚ) : cents (min g r) ≤ g :=
  (cents_mono (min_le_left g r)).trans_eq hg.2.cents_eq

theorem sum_estimates_nonneg (hgs : ∀ g ∈ gs, IsEstimate g) : 0 ≤ gs.sum :=
  List.sum_nonneg fun g hg => (hgs g hg).1

/-- Of whole cents, everything is given out that is asked for, as far as it
goes. -/
theorem allocate_sum_of_isCents (hgs : ∀ g ∈ gs, IsEstimate g) (hr : 0 ≤ r) (h : IsCents r) :
    (allocate gs r).sum = min gs.sum r := by
  induction gs generalizing r with
  | nil => exact (min_eq_left hr).symm
  | cons g gs ih =>
    obtain ⟨hg, hgs⟩ := List.forall_mem_cons.mp hgs
    have hmin : cents (min g r) = min g r := (hg.2.min h).cents_eq
    have hrest : cents (max 0 (r - min g r)) = r - min g r := by
      rw [max_eq_right (sub_nonneg.mpr (min_le_right g r))]
      exact (h.sub (hg.2.min h)).cents_eq
    have hnonneg : 0 ≤ r - min g r := sub_nonneg.mpr (min_le_right g r)
    rw [allocate, hmin, hrest, List.sum_cons, List.sum_cons,
      ih hgs hnonneg (h.sub (hg.2.min h))]
    have hsum := sum_estimates_nonneg hgs
    rcases le_total g r with hle | hle
    · rw [min_eq_left hle, ← min_add_add_left]
      congr 1
      ring
    · rw [min_eq_right hle, sub_self, min_eq_right hsum, add_zero, min_eq_right (by linarith)]

/-- What the first claimant asks for, if there is so much. -/
def firstFitting (gs : List ℚ) (r : ℚ) : ℚ :=
  match gs with
  | [] => 0
  | g :: _ => if g ≤ r then g else 0

/-- There is enough for all, or what the first leaves is not rounded up. -/
def Fits (gs : List ℚ) (r : ℚ) : Prop :=
  gs.sum ≤ r ∨ cents (r - firstFitting gs r) ≤ r - firstFitting gs r

instance (gs : List ℚ) (r : ℚ) : Decidable (Fits gs r) := inferInstanceAs (Decidable (_ ∨ _))

/-- No more is given out than there is, exactly when the claims fit. -/
theorem allocate_sum_le_iff (hgs : ∀ g ∈ gs, IsEstimate g) (hr : 0 ≤ r) :
    (allocate gs r).sum ≤ r ↔ Fits gs r := by
  cases gs with
  | nil => exact iff_of_true hr (.inl hr)
  | cons g gs =>
    obtain ⟨hg, hgs⟩ := List.forall_mem_cons.mp hgs
    have hsum := sum_estimates_nonneg hgs
    rw [allocate, Fits, firstFitting, List.sum_cons, List.sum_cons]
    by_cases hle : g ≤ r
    · -- the rest is rounded once, and what follows is exact
      have hnonneg : 0 ≤ r - g := sub_nonneg.mpr hle
      rw [if_pos hle, min_eq_left hle, hg.2.cents_eq, max_eq_right hnonneg,
        allocate_sum_of_isCents hgs (cents_nonneg hnonneg) (isCents_cents _)]
      rw [← le_sub_iff_add_le', ← le_sub_iff_add_le', min_le_iff]
    · -- the first gets everything
      have hlt : r < g := not_le.mp hle
      rw [if_neg hle, min_eq_right hlt.le, cents_rest, sub_zero,
        allocate_sum_of_isCents hgs le_rfl isCents_zero, min_eq_right hsum, add_zero]
      exact (or_iff_right (by linarith)).symm

/-- Whole cents are enough. -/
theorem fits_of_isCents (hgs : ∀ g ∈ gs, IsEstimate g) (h : IsCents r) : Fits gs r := by
  refine .inr (le_of_eq ?_)
  have hfirst : IsCents (firstFitting gs r) := by
    unfold firstFitting
    split
    · exact isCents_zero
    · split
      · exact (hgs _ List.mem_cons_self).2
      · exact isCents_zero
  exact (h.sub hfirst).cents_eq

end AgentRoi
