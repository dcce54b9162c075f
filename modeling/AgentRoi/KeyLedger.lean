/-
Ledgers of keyed entries that expire.

A ledger maps keys to entries.  A call works on one key; before it does, any
of the entries that are late may be removed, under whatever key.  Nothing here
mentions the package:

* `Swept`, `Move` — what is removed, and what one call can do;
* `Move.frame` — a call leaves the other keys alone, up to removal;
* `Move.kept` — an entry that is not late survives a call, and changes at most
  by being settled.
-/
import Mathlib.Logic.Function.Basic

namespace AgentRoi

namespace KeyLedger

variable {K R C : Type*} [DecidableEq K]

omit [DecidableEq K] in
/-- Some entries that are late are gone. -/
def Swept (late : C → R → Prop) (now : C) (σ σ' : K → Option R) : Prop :=
  ∀ k, σ' k = σ k ∨ σ' k = none ∧ ∃ r, σ k = some r ∧ late now r

/-- What one call on the key `k` does: it removes late entries and adds one
where none is left, or it settles the entry. -/
inductive Move (late : C → R → Prop) (settles : R → R → Prop) (now : C) (k : K)
    (σ : K → Option R) : (K → Option R) → Prop
  | swept {σ' : K → Option R} : Swept late now σ σ' → Move late settles now k σ σ'
  | started {σ' : K → Option R} (r : R) : Swept late now σ σ' → σ' k = none →
      Move late settles now k σ (Function.update σ' k (some r))
  | settled {r r' : R} : σ k = some r → settles r r' →
      Move late settles now k σ (Function.update σ k (some r'))

variable {late : C → R → Prop} {settles : R → R → Prop} {now : C} {σ σ' : K → Option R}

omit [DecidableEq K] in
theorem swept_refl : Swept late now σ σ := fun _ => .inl rfl

omit [DecidableEq K] in
theorem Swept.kept {k : K} {r : R} (h : Swept late now σ σ') (hr : σ k = some r)
    (hlate : ¬late now r) : σ' k = some r := by
  rcases h k with h | ⟨-, r₀, hr₀, hl⟩
  · rw [h, hr]
  · rw [hr] at hr₀
    cases hr₀
    exact absurd hl hlate

/-- The other keys are touched by removal only. -/
theorem Move.frame {k k' : K} (h : Move late settles now k σ σ') (hne : k' ≠ k) :
    σ' k' = σ k' ∨ σ' k' = none ∧ ∃ r, σ k' = some r ∧ late now r := by
  cases h with
  | swept h => exact h k'
  | started r h _ => rw [Function.update_of_ne hne]; exact h k'
  | settled _ _ => rw [Function.update_of_ne hne]; exact .inl rfl

/-- An entry that is not late survives. -/
theorem Move.kept {k k' : K} {r : R} (h : Move late settles now k σ σ') (hr : σ k' = some r)
    (hlate : ¬late now r) : ∃ r', σ' k' = some r' ∧ (r' = r ∨ settles r r') := by
  by_cases hk : k' = k
  · subst hk
    cases h with
    | swept h => exact ⟨r, h.kept hr hlate, .inl rfl⟩
    | started r₀ h hnone => exact absurd (h.kept hr hlate) (by rw [hnone]; simp)
    | settled h hs =>
      rw [hr] at h
      cases h
      exact ⟨_, Function.update_self .., .inr hs⟩
  · rcases h.frame hk with h | ⟨-, r₀, hr₀, hl⟩
    · exact ⟨r, by rw [h, hr], .inl rfl⟩
    · rw [hr] at hr₀
      cases hr₀
      exact absurd hl hlate

end KeyLedger

end AgentRoi
