/-
Two machines that run the same operations.

Nothing here mentions the package.

* `outcomes` — what the operations return, one after the other;
* `AllSteps` — a condition on each operation and the state it finds;
* `outcomes_alike_iff` — two machines that agree on a step exactly where the
  condition holds, and stay related there, agree on a run exactly where it
  holds of every step.
-/
import Mathlib.Data.List.Forall2

namespace AgentRoi

namespace Lockstep

variable {σ τ O R S : Type}

/-- What the operations return. -/
def outcomes (exec : O → σ → R × σ) : σ → List O → List R
  | _, [] => []
  | s, o :: os => (exec o s).1 :: outcomes exec (exec o s).2 os

/-- The condition holds of every operation in the state it finds. -/
def AllSteps (exec : O → σ → R × σ) (fits : σ → O → Prop) : σ → List O → Prop
  | _, [] => True
  | s, o :: os => fits s o ∧ AllSteps exec fits (exec o s).2 os

/-- A step on which the machines agree exactly if `fits`, and after which they
are related if so. -/
structure Step (sim : σ → τ → Prop) (alike : R → S → Prop) (fits : Prop) (x : R × σ)
    (y : S × τ) : Prop where
  alike_iff : alike x.1 y.1 ↔ fits
  related : fits → sim x.2 y.2

variable {exec : O → σ → R × σ} {exec' : O → τ → S × τ} {fits : σ → O → Prop}
  {sim : σ → τ → Prop} {alike : R → S → Prop} {s : σ} {t : τ}

/-- Two machines agree on a run exactly where they agree on every step. -/
theorem outcomes_alike_iff
    (hstep : ∀ s t o, sim s t → Step sim alike (fits s o) (exec o s) (exec' o t))
    (h : sim s t) (os : List O) : List.Forall₂ alike (outcomes exec s os) (outcomes exec' t os) ↔
      AllSteps exec fits s os := by
  induction os generalizing s t with
  | nil => exact iff_of_true .nil trivial
  | cons o os ih =>
    rw [outcomes, outcomes, List.forall₂_cons, AllSteps, (hstep s t o h).alike_iff]
    exact and_congr_right fun hfits => ih ((hstep s t o h).related hfits)

end Lockstep

end AgentRoi
