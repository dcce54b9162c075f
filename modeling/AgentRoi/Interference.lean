/-
One program among others: it takes its steps in whatever states the others
leave.

Nothing here mentions the package:

* `Proc.amid` — how a program ends whose steps find given states;
  `amid_bind`, `amid_attempt` are the rules for programs;
* `Proc.Takes` — one of the steps is of a kind; `takes_bind`, `takes_attempt`,
  `Follows.takes`;
* `Pool.Reach.amid` — every program of a pool that has ended, ended so.
-/
import AgentRoi.Interleaving
import Mathlib.Data.Nat.Notation

namespace AgentRoi

namespace Proc

variable {σ ε α β : Type} {found : ℕ → σ}

/-- How the program ends that finds the state `found n` in the step `n`, and
the number of the step after its last. -/
def amid (found : ℕ → σ) : ℕ → Proc σ ε α → Except ε α × ℕ
  | n, .done r => (r, n)
  | n, .step _ next => amid found (n + 1) (next (found n))

/-- The rule for a sequence. -/
theorem amid_bind (p : Proc σ ε α) (f : α → Proc σ ε β) (n : ℕ) :
    amid found n (p >>= f) = match amid found n p with
      | (.ok a, m) => amid found m (f a)
      | (.error e, m) => (.error e, m) := by
  induction p generalizing n with
  | done r => cases r <;> rfl
  | step act next ih => exact ih (found n) (n + 1)

/-- The rule for a step and what comes after it. -/
theorem amid_step (x : σ → Except ε α × σ) (f : α → Proc σ ε β) (n : ℕ) :
    amid found n (atomic x >>= f) = match (x (found n)).1 with
      | .ok a => amid found (n + 1) (f a)
      | .error e => (.error e, n + 1) := by
  show amid found (n + 1) ((Proc.done (x (found n)).1).bind f) = _
  cases (x (found n)).1 <;> rfl

/-- The rule for what is caught. -/
theorem amid_attempt (p : Proc σ ε α) (n : ℕ) :
    amid found n p.attempt = (.ok (amid found n p).1, (amid found n p).2) := by
  induction p generalizing n with
  | done r => rfl
  | step act next ih => exact ih (found n) (n + 1)

/-- One of the steps, from the state it finds to the state it leaves, is of
the kind `P`. -/
def Takes (P : σ → σ → Prop) (found : ℕ → σ) : ℕ → Proc σ ε α → Prop
  | _, .done _ => False
  | n, .step act next => P (found n) (act (found n)) ∨ Takes P found (n + 1) (next (found n))

variable {P : σ → σ → Prop}

theorem takes_atomic {x : σ → Except ε α × σ} {n : ℕ} (h : P (found n) (x (found n)).2) :
    Takes P found n (atomic x) := .inl h

theorem takes_bind {p : Proc σ ε α} (f : α → Proc σ ε β) {n : ℕ} (h : Takes P found n p) :
    Takes P found n (p >>= f) := by
  induction p generalizing n with
  | done r => exact h.elim
  | step act next ih => exact h.imp id (ih (found n))

theorem takes_attempt {p : Proc σ ε α} {n : ℕ} (h : Takes P found n p) :
    Takes P found n p.attempt := by
  induction p generalizing n with
  | done r => exact h.elim
  | step act next ih => exact h.imp id (ih (found n))

/-- The rule for a step and what comes after it. -/
theorem takes_step {x : σ → Except ε α × σ} {f : α → Proc σ ε β} {n : ℕ}
    (h : P (found n) (x (found n)).2 ∨
      ∃ a, (x (found n)).1 = .ok a ∧ Takes P found (n + 1) (f a)) :
    Takes P found n (atomic x >>= f) := by
  rcases h with h | ⟨a, hx, h⟩
  · exact .inl h
  · refine .inr ?_
    show Takes P found (n + 1) ((Proc.done (x (found n)).1).bind f)
    rw [hx]
    exact h

/-- A step that a program takes is one of those it follows. -/
theorem Follows.takes {G : σ → σ → Prop} {p : Proc σ ε α} {s : σ} {n : ℕ}
    (h : Follows (fun _ _ => True) G p s) (htakes : Takes P found n p) : ∃ t u, G t u ∧ P t u := by
  induction p generalizing s n with
  | done r => exact htakes.elim
  | step act next ih =>
    obtain ⟨-, hguarantee, hnext⟩ := h (found n) trivial trivial
    rcases htakes with hfirst | hlater
    · exact ⟨found n, act (found n), hguarantee, hfirst⟩
    · exact ih (found n) hnext hlater

/-- What remains of the program after `k` steps. -/
def rest (found : ℕ → σ) (p : Proc σ ε α) : ℕ → Proc σ ε α
  | 0 => p
  | k + 1 =>
    match rest found p k with
    | .done r => .done r
    | .step _ next => next (found k)

theorem amid_rest (p : Proc σ ε α) (k : ℕ) :
    (amid found k (rest found p k)).1 = (amid found 0 p).1 := by
  induction k with
  | zero => rfl
  | succ k ih =>
    rw [← ih, rest]
    cases rest found p k <;> rfl

/-- The first steps depend on the first states. -/
theorem rest_congr {found' : ℕ → σ} {k : ℕ} (h : ∀ n < k, found n = found' n) (p : Proc σ ε α) :
    rest found p k = rest found' p k := by
  induction k with
  | zero => rfl
  | succ k ih =>
    rw [rest, rest, ih fun n hn => h n (Nat.lt_succ_of_lt hn), h k (Nat.lt_succ_self k)]

end Proc

/-- A program of a pool that has ended took its steps in some states. -/
theorem Pool.Reach.amid {ι σ ε α : Type} [DecidableEq ι] {init : σ → Prop}
    {programs : ι → Proc σ ε α → Prop} {env : σ → σ → Prop} {pool : Pool ι σ ε α}
    (h : Reach init programs env pool) {i : ι} {r : Except ε α}
    (hdone : pool.procs i = some (.done r)) :
    ∃ p found, programs i p ∧ (p.amid found 0).1 = r := by
  -- every program is what remains of one that was started
  have hrest : ∀ j q, pool.procs j = some q →
      ∃ p found k, programs j p ∧ p.rest found k = q := by
    clear hdone
    induction h with
    | init =>
      intro j q hq
      cases hq
    | @start s procs i p _ _ hp ih =>
      intro j q hq
      rcases update_eq_some hq with ⟨rfl, hsome⟩ | ⟨-, hsome⟩
      · obtain rfl := Option.some.inj hsome
        exact ⟨p, fun _ => s, 0, hp, rfl⟩
      · exact ih j q hsome
    | @step s procs i act next _ hproc ih =>
      intro j q hq
      rcases update_eq_some hq with ⟨rfl, hsome⟩ | ⟨-, hsome⟩
      · obtain rfl := Option.some.inj hsome
        obtain ⟨p, found, k, hp, hk⟩ := ih j _ hproc
        refine ⟨p, Function.update found k s, k + 1, hp, ?_⟩
        have hsame : p.rest (Function.update found k s) k = .step act next := by
          rw [← hk]
          exact Proc.rest_congr (fun n hn => Function.update_of_ne (Nat.ne_of_lt hn) _ _) p
        rw [Proc.rest, hsame, Function.update_self]
      · exact ih j q hsome
    | stop _ _ ih =>
      intro j q hq
      rcases update_eq_some hq with ⟨-, hsome⟩ | ⟨-, hsome⟩
      · cases hsome
      · exact ih j q hsome
    | env _ _ ih => exact ih
  obtain ⟨p, found, k, hp, hk⟩ := hrest i _ hdone
  refine ⟨p, found, hp, ?_⟩
  rw [← Proc.amid_rest p k, hk]
  rfl

end AgentRoi
