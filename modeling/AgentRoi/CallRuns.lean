/-
Runs of calls on a shared state, each call one atomic step.

Nothing here mentions the package.

* `Run` — the calls with their results, newest first, and the state they
  leave;
* `Run.inv` — what holds at first and is kept by every call holds in the end;
* `Run.kept` — what every call keeps holds from a state on.
-/
import Mathlib.Data.List.Basic

namespace AgentRoi

namespace CallRuns

variable {σ C R : Type}

/-- From `init`, the calls and their results, and the state after them.
Which call may come next may depend on the calls before. -/
inductive Run (exec : C → σ → R × σ) (allowed : C → List (C × R) → Prop) (init : σ) :
    List (C × R) → σ → Prop
  | nil : Run exec allowed init [] init
  | call {log : List (C × R)} {s : σ} {c : C} : Run exec allowed init log s → allowed c log →
      Run exec allowed init ((c, (exec c s).1) :: log) (exec c s).2

variable {exec : C → σ → R × σ} {allowed : C → List (C × R) → Prop} {init s t : σ}
  {log later earlier : List (C × R)}

/-- What holds at first and is kept by every call holds in the end. -/
theorem Run.inv {J : List (C × R) → σ → Prop} (hinit : J [] init)
    (hcall : ∀ {log s c}, Run exec allowed init log s → allowed c log → J log s →
      J ((c, (exec c s).1) :: log) (exec c s).2)
    (h : Run exec allowed init log s) : J log s := by
  induction h with
  | nil => exact hinit
  | call hrun hallowed ih => exact hcall hrun hallowed ih

/-- The calls determine the state. -/
theorem Run.unique (hs : Run exec allowed init log s) (ht : Run exec allowed init log t) :
    s = t := by
  induction hs generalizing t with
  | nil =>
    cases ht
    rfl
  | @call log s c _ _ ih =>
    generalize hentry : (c, (exec c s).1) = entry at ht
    cases ht with
    | @call _ t c' hrun _ =>
      obtain rfl := ih hrun
      obtain ⟨rfl, -⟩ := Prod.mk.inj hentry
      rfl

/-- The part of a run before some of its calls. -/
theorem Run.before (h : Run exec allowed init (later ++ earlier) t) :
    ∃ s, Run exec allowed init earlier s := by
  induction later generalizing t with
  | nil => exact ⟨t, h⟩
  | cons entry later ih =>
    rw [List.cons_append] at h
    cases h with
    | call hrun _ => exact ih hrun

/-- What every call keeps holds from a state on. -/
theorem Run.kept {P : σ → Prop}
    (hcall : ∀ {log s c}, Run exec allowed init log s → allowed c log → P s → P (exec c s).2)
    (hs : Run exec allowed init earlier s) (hp : P s)
    (ht : Run exec allowed init (later ++ earlier) t) : P t := by
  induction later generalizing t with
  | nil => exact hs.unique ht ▸ hp
  | cons entry later ih =>
    rw [List.cons_append] at ht
    cases ht with
    | call hrun hallowed => exact hcall hrun hallowed (ih hrun)

/-- The last call of a run. -/
theorem Run.last {c : C} {r : R} (h : Run exec allowed init ((c, r) :: log) t) :
    ∃ s, Run exec allowed init log s ∧ allowed c log ∧ exec c s = (r, t) := by
  cases h with
  | @call _ s _ hrun hallowed => exact ⟨s, hrun, hallowed, rfl⟩

/-- A call of a run. -/
theorem Run.at {c : C} {r : R} (h : Run exec allowed init (later ++ (c, r) :: earlier) t) :
    ∃ s, Run exec allowed init earlier s ∧ allowed c earlier ∧ (exec c s).1 = r := by
  obtain ⟨u, hu⟩ := h.before
  obtain ⟨s, hrun, hallowed, hexec⟩ := hu.last
  exact ⟨s, hrun, hallowed, by rw [hexec]⟩

end CallRuns

end AgentRoi
