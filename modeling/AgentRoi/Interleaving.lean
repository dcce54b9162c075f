/-
Programs that interleave in atomic steps on a shared state.

Nothing here mentions the package:

* `Proc` — a program that takes one atomic step after the other, and returns
  or raises; `Proc.run` is the program without interference;
* `Proc.Safe` — every step keeps an invariant and a guarantee, whatever the
  rely lets the others do between two steps; `safe_atomic`, `safe_bind` are
  the rules for programs;
* `Proc.Follows` — every step is one of a step relation; `follows_step` is
  the rule for programs;
* `Pool`, `Pool.Reach` — any number of programs, started, stepped and stopped
  in any order;
* `Pool.Reach.safe`, `Pool.Reach.invariant` — what the steps of the programs
  keep holds in every pool;
* `Pool.Next`, `Pool.Reach.kept` — the pools after one another, and what stays
  from a pool on; `Pool.Next.run` is the rule for a program that runs alone;
* `Pool.ReachUnder` — the pools of the runs whose steps meet a condition.
-/
import Mathlib.Logic.Function.Basic
import Mathlib.Logic.Relation

namespace AgentRoi

/-- A program in atomic steps: a step changes the state, and what remains to
be done may depend on the state it found. -/
inductive Proc (σ ε α : Type) where
  | done (r : Except ε α)
  | step (act : σ → σ) (next : σ → Proc σ ε α)

namespace Proc

variable {σ ε α β : Type}

/-- One atomic step. -/
def atomic (x : σ → Except ε α × σ) : Proc σ ε α :=
  .step (fun s => (x s).2) fun s => .done (x s).1

protected def bind : Proc σ ε α → (α → Proc σ ε β) → Proc σ ε β
  | .done (.ok a), f => f a
  | .done (.error e), _ => .done (.error e)
  | .step act next, f => .step act fun s => (next s).bind f

instance instMonad : Monad (Proc σ ε) where
  pure a := .done (.ok a)
  bind := Proc.bind

def raise (e : ε) : Proc σ ε α := .done (.error e)

/-- `try: …`, with what became of it as the result. -/
def attempt : Proc σ ε α → Proc σ ε (Except ε α)
  | .done r => .done (.ok r)
  | .step act next => .step act fun s => (next s).attempt

/-- The program run to its end without interference. -/
def run : Proc σ ε α → σ → Except ε α × σ
  | .done r, s => (r, s)
  | .step act next, s => run (next s) (act s)

/-- A program on a part of the state. -/
def within {τ : Type} (part : τ → σ) (update : τ → σ → τ) : Proc σ ε α → Proc τ ε α
  | .done r => .done r
  | .step act next =>
    .step (fun t => update t (act (part t))) fun t => (next (part t)).within part update

/-- What remains of the program after at most `n` steps without interference. -/
def after : Nat → Proc σ ε α → σ → Proc σ ε α × σ
  | 0, p, s => (p, s)
  | _ + 1, .done r, s => (.done r, s)
  | n + 1, .step act next, s => after n (next s) (act s)

@[simp] theorem pure_bind (a : α) (f : α → Proc σ ε β) : (pure a >>= f) = f a := rfl

theorem bind_assoc {γ : Type} (p : Proc σ ε α) (f : α → Proc σ ε β) (g : β → Proc σ ε γ) :
    (p >>= f) >>= g = p >>= fun a => f a >>= g := by
  induction p with
  | done r => cases r <;> rfl
  | step act next ih => exact congrArg (Proc.step act) (funext ih)

@[simp] theorem run_pure (a : α) (s : σ) : run (pure a : Proc σ ε α) s = (.ok a, s) := rfl

@[simp] theorem run_raise (e : ε) (s : σ) : run (raise e : Proc σ ε α) s = (.error e, s) := rfl

@[simp] theorem run_atomic (x : σ → Except ε α × σ) (s : σ) : run (atomic x) s = x s := rfl

theorem run_bind (p : Proc σ ε α) (f : α → Proc σ ε β) (s : σ) :
    run (p >>= f) s = match run p s with
      | (.ok a, t) => run (f a) t
      | (.error e, t) => (.error e, t) := by
  induction p generalizing s with
  | done r => cases r <;> rfl
  | step act next ih => exact ih s (act s)

/-- A sequence returns when both parts do. -/
theorem run_bind_eq_ok {p : Proc σ ε α} {f : α → Proc σ ε β} {s u : σ} {b : β} :
    run (p >>= f) s = (.ok b, u) ↔ ∃ a t, run p s = (.ok a, t) ∧ run (f a) t = (.ok b, u) := by
  rw [run_bind]
  rcases run p s with ⟨_ | a, t⟩
  · constructor
    · intro h
      cases h
    · rintro ⟨_, _, h, -⟩
      cases h
  · constructor
    · exact fun h => ⟨a, t, rfl, h⟩
    · rintro ⟨_, _, h, hf⟩
      cases h
      exact hf

/-- A program on a part of the state leaves the rest as it is. -/
theorem run_within {τ : Type} {part : τ → σ} {update : τ → σ → τ}
    (hpart : ∀ t s, part (update t s) = s) (hself : ∀ t, update t (part t) = t)
    (htwice : ∀ t s s', update (update t s) s' = update t s') (p : Proc σ ε α) (t : τ) :
    run (p.within part update) t = ((run p (part t)).1, update t (run p (part t)).2) := by
  induction p generalizing t with
  | done r => exact congrArg (Prod.mk r) (hself t).symm
  | step act next ih =>
    refine (ih (part t) (update t (act (part t)))).trans ?_
    rw [hpart, htwice]
    rfl

theorem run_attempt (p : Proc σ ε α) (s : σ) : run p.attempt s = (.ok (run p s).1, (run p s).2) := by
  induction p generalizing s with
  | done r => rfl
  | step act next ih => exact ih s (act s)

/-! ### Rely and guarantee -/

/-- From the state `s`, whatever the others do between two steps within the
rely `R`, each step keeps the invariant and the guarantee, and the result
meets the postcondition. -/
def Safe (R G : σ → σ → Prop) (I : σ → Prop) (Q : Except ε α → σ → Prop) :
    Proc σ ε α → σ → Prop
  | .done r, s => ∀ t, R s t → I t → Q r t
  | .step act next, s => ∀ t, R s t → I t →
      I (act t) ∧ G t (act t) ∧ Safe R G I Q (next t) (act t)

variable {R G : σ → σ → Prop} {I : σ → Prop} {Q : Except ε α → σ → Prop}

/-- Safety survives what the others do. -/
theorem Safe.rely (htrans : ∀ s t u, R s t → R t u → R s u) {p : Proc σ ε α} {s t : σ}
    (h : Safe R G I Q p s) (hst : R s t) : Safe R G I Q p t := by
  cases p with
  | done r => exact fun u hu hi => h u (htrans s t u hst hu) hi
  | step act next => exact fun u hu hi => h u (htrans s t u hst hu) hi

theorem Safe.imp {Q' : Except ε α → σ → Prop} {p : Proc σ ε α} {s : σ}
    (h : Safe R G I Q p s) (hq : ∀ r t, I t → Q r t → Q' r t) : Safe R G I Q' p s := by
  induction p generalizing s with
  | done r => exact fun t ht hi => hq r t hi (h t ht hi)
  | step act next ih =>
    intro t ht hi
    obtain ⟨hi', hg, hs⟩ := h t ht hi
    exact ⟨hi', hg, ih t hs⟩

/-- Two things known of one program. -/
theorem Safe.and {Q' : Except ε α → σ → Prop} {p : Proc σ ε α} {s : σ} (h : Safe R G I Q p s)
    (h' : Safe R (fun _ _ => True) (fun _ => True) Q' p s) :
    Safe R G I (fun r t => Q r t ∧ Q' r t) p s := by
  induction p generalizing s with
  | done r => exact fun t ht hi => ⟨h t ht hi, h' t ht trivial⟩
  | step act next ih =>
    intro t ht hi
    obtain ⟨hi', hg, hs⟩ := h t ht hi
    obtain ⟨-, -, hs'⟩ := h' t ht trivial
    exact ⟨hi', hg, ih t hs hs'⟩

theorem Safe.weaken {G' : σ → σ → Prop} (hg : ∀ s t, G s t → G' s t) {p : Proc σ ε α} {s : σ}
    (h : Safe R G I Q p s) : Safe R G' I Q p s := by
  induction p generalizing s with
  | done r => exact h
  | step act next ih =>
    intro t ht hi
    obtain ⟨hi', hguarantee, hs⟩ := h t ht hi
    exact ⟨hi', hg _ _ hguarantee, ih t hs⟩

/-- What the rely and the guarantee keep, holds when the program ends. -/
theorem Safe.frame {J : σ → Prop} (hr : ∀ s t, R s t → J s → J t) (hg : ∀ s t, G s t → J s → J t)
    {p : Proc σ ε α} {s : σ} (h : Safe R G I Q p s) (hj : J s) :
    Safe R G I (fun r t => Q r t ∧ J t) p s := by
  induction p generalizing s with
  | done r => exact fun t ht hi => ⟨h t ht hi, hr s t ht hj⟩
  | step act next ih =>
    intro t ht hi
    obtain ⟨hi', hguarantee, hs⟩ := h t ht hi
    exact ⟨hi', hguarantee, ih t hs (hg t _ hguarantee (hr s t ht hj))⟩

/-- Safety says how a program ends that runs without interference. -/
theorem Safe.run (hrefl : ∀ s, R s s) {p : Proc σ ε α} {s : σ} (h : Safe R G I Q p s)
    (hi : I s) : I (p.run s).2 ∧ Q (p.run s).1 (p.run s).2 := by
  induction p generalizing s with
  | done r => exact ⟨hi, h s (hrefl s) hi⟩
  | step act next ih =>
    obtain ⟨hi', -, hs⟩ := h s (hrefl s) hi
    exact ih s hs hi'

/-- The rule for a returned value. -/
theorem safe_pure {a : α} {s : σ} (h : ∀ t, R s t → I t → Q (.ok a) t) :
    Safe R G I Q (pure a) s := h

theorem safe_raise {e : ε} {s : σ} (h : ∀ t, R s t → I t → Q (.error e) t) :
    Safe R G I Q (raise e) s := h

/-- The rule for one atomic step. -/
theorem safe_atomic {x : σ → Except ε α × σ} {s : σ}
    (h : ∀ t, R s t → I t → I (x t).2 ∧ G t (x t).2 ∧
      ∀ u, R (x t).2 u → I u → Q (x t).1 u) : Safe R G I Q (atomic x) s := h

/-- The rule for a sequence. -/
theorem safe_bind (hrefl : ∀ s, R s s) {Q' : Except ε β → σ → Prop} {p : Proc σ ε α}
    {f : α → Proc σ ε β} {s : σ} (hp : Safe R G I Q p s) (hi : I s)
    (hok : ∀ a t, I t → Q (.ok a) t → Safe R G I Q' (f a) t)
    (herror : ∀ e t, I t → Q (.error e) t → Q' (.error e) t) : Safe R G I Q' (p >>= f) s := by
  induction p generalizing s with
  | done r =>
    cases r with
    | ok a => exact hok a s hi (hp s (hrefl s) hi)
    | error e => exact fun t ht hit => herror e t hit (hp t ht hit)
  | step act next ih =>
    intro t ht hit
    obtain ⟨hi', hg, hs⟩ := hp t ht hit
    exact ⟨hi', hg, ih t hs hi'⟩

/-- The rule for what is caught. -/
theorem safe_attempt {Q' : Except ε (Except ε α) → σ → Prop} {p : Proc σ ε α} {s : σ}
    (h : Safe R G I Q p s) (hq : ∀ r t, I t → Q r t → Q' (.ok r) t) :
    Safe R G I Q' (attempt p) s := by
  induction p generalizing s with
  | done r => exact fun t ht hi => hq r t hi (h t ht hi)
  | step act next ih =>
    intro t ht hi
    obtain ⟨hi', hg, hs⟩ := h t ht hi
    exact ⟨hi', hg, ih t hs⟩

/-- The rule for a sequence that begins with what is caught. -/
theorem safe_attempt_bind (hrefl : ∀ s, R s s) {Q' : Except ε β → σ → Prop} {p : Proc σ ε α}
    {f : Except ε α → Proc σ ε β} {s : σ} (hp : Safe R G I Q p s) (hi : I s)
    (hf : ∀ r t, I t → Q r t → Safe R G I Q' (f r) t) : Safe R G I Q' (attempt p >>= f) s := by
  refine safe_bind (Q := fun r t => ∃ q, r = .ok q ∧ Q q t) hrefl
    (safe_attempt hp fun r t _ hq => ⟨r, rfl, hq⟩) hi ?_ ?_
  · rintro r t hit ⟨_, hr, hq⟩
    obtain rfl := Except.ok.inj hr
    exact hf r t hit hq
  · rintro e t hit ⟨_, hr, -⟩
    cases hr

/-- The rule for a step and what comes after it. -/
theorem safe_step {Q' : Except ε β → σ → Prop} {x : σ → Except ε α × σ} {f : α → Proc σ ε β}
    {s : σ} (h : ∀ t, R s t → I t → I (x t).2 ∧ G t (x t).2 ∧
      (∀ a, (x t).1 = .ok a → Safe R G I Q' (f a) (x t).2) ∧
      ∀ e, (x t).1 = .error e → ∀ u, R (x t).2 u → I u → Q' (.error e) u) :
    Safe R G I Q' (atomic x >>= f) s := by
  intro t ht hit
  obtain ⟨hi, hg, hok, herror⟩ := h t ht hit
  refine ⟨hi, hg, ?_⟩
  show Safe R G I Q' ((Proc.done (x t).1).bind f) (x t).2
  rcases hx : (x t).1 with e | a
  · exact herror e hx
  · exact hok a hx

/-! ### Programs that follow a step relation -/

/-- Each step of the program is one of `G`, whatever the others do between two
steps within the rely. -/
def Follows (R G : σ → σ → Prop) (p : Proc σ ε α) (s : σ) : Prop :=
  Safe R G (fun _ => True) (fun _ _ => True) p s

theorem follows_pure {a : α} {s : σ} : Follows R G (pure a : Proc σ ε α) s :=
  fun _ _ _ => trivial

theorem follows_raise {e : ε} {s : σ} : Follows R G (raise e : Proc σ ε α) s :=
  fun _ _ _ => trivial

/-- The rule for a step and what comes after it. -/
theorem follows_step {x : σ → Except ε α × σ} {f : α → Proc σ ε β} {s : σ}
    (h : ∀ t, R s t → G t (x t).2 ∧ ∀ a, (x t).1 = .ok a → Follows R G (f a) (x t).2) :
    Follows R G (atomic x >>= f) s := by
  intro t ht _
  obtain ⟨hg, hf⟩ := h t ht
  refine ⟨trivial, hg, ?_⟩
  show Safe R G _ _ ((Proc.done (x t).1).bind f) (x t).2
  rcases hx : (x t).1 with e | a
  · exact fun _ _ _ => trivial
  · exact hf a hx

theorem follows_atomic {x : σ → Except ε α × σ} {s : σ} (h : ∀ t, R s t → G t (x t).2) :
    Follows R G (atomic x) s := by
  intro t ht _
  exact ⟨trivial, h t ht, fun _ _ _ => trivial⟩

theorem follows_bind (hrefl : ∀ s, R s s) {p : Proc σ ε α} {f : α → Proc σ ε β} {s : σ}
    (hp : Follows R G p s) (hf : ∀ a t, Follows R G (f a) t) : Follows R G (p >>= f) s :=
  safe_bind hrefl hp trivial (fun a t _ _ => hf a t) fun _ _ _ _ => trivial

/-- What every step of the guarantee keeps, the program keeps. -/
theorem Safe.keeps {J : σ → Prop} (hstep : ∀ s t, G s t → J s → J t) {p : Proc σ ε α} {s : σ}
    (h : Safe R G (fun _ => True) Q p s) : Safe R G J Q p s := by
  induction p generalizing s with
  | done r => exact fun t ht _ => h t ht trivial
  | step act next ih =>
    intro t ht hj
    obtain ⟨-, hg, hs⟩ := h t ht trivial
    exact ⟨hstep t _ hg hj, hg, ih t hs⟩

/-- Two step relations that one program follows. -/
theorem Follows.and {G' : σ → σ → Prop} {p : Proc σ ε α} {s : σ} (h : Follows R G p s)
    (h' : Follows (fun _ _ => True) G' p s) : Follows R (fun s t => G s t ∧ G' s t) p s := by
  induction p generalizing s with
  | done r => exact h
  | step act next ih =>
    intro t ht _
    obtain ⟨-, hg, hs⟩ := h t ht trivial
    obtain ⟨-, hg', hs'⟩ := h' t trivial trivial
    exact ⟨trivial, ⟨hg, hg'⟩, ih t hs hs'⟩

/-- What every step of `G` keeps, a program that follows `G` keeps. -/
theorem Follows.safe {J : σ → Prop} (hstep : ∀ s t, G s t → J s → J t) {p : Proc σ ε α} {s : σ}
    (h : Follows R G p s) : Safe R G J (fun _ _ => True) p s := Safe.keeps hstep h

/-- Without interference too. -/
theorem Follows.run (hrefl : ∀ s, R s s) {J : σ → Prop} (hstep : ∀ s t, G s t → J s → J t)
    {p : Proc σ ε α} {s : σ} (h : Follows R G p s) (hj : J s) : J (p.run s).2 := by
  induction p generalizing s with
  | done r => exact hj
  | step act next ih =>
    obtain ⟨-, hg, hs⟩ := h s (hrefl s) trivial
    exact ih s hs (hstep s _ hg hj)

end Proc

/-! ### Pools -/

/-- The shared state and the programs that run on it. -/
structure Pool (ι σ ε α : Type) where
  state : σ
  procs : ι → Option (Proc σ ε α)

namespace Pool

variable {ι σ ε α : Type} [DecidableEq ι]

/-- The pools that can arise: programs start, take a step and stop in any
order, and the environment changes the state. -/
inductive Reach (init : σ → Prop) (programs : ι → Proc σ ε α → Prop) (env : σ → σ → Prop) :
    Pool ι σ ε α → Prop
  | init {s : σ} : init s → Reach init programs env ⟨s, fun _ => none⟩
  | start {s : σ} {procs : ι → Option (Proc σ ε α)} {i : ι} {p : Proc σ ε α} :
      Reach init programs env ⟨s, procs⟩ → procs i = none → programs i p →
      Reach init programs env ⟨s, Function.update procs i (some p)⟩
  | step {s : σ} {procs : ι → Option (Proc σ ε α)} {i : ι} {act : σ → σ}
      {next : σ → Proc σ ε α} :
      Reach init programs env ⟨s, procs⟩ → procs i = some (.step act next) →
      Reach init programs env ⟨act s, Function.update procs i (some (next s))⟩
  | stop {s : σ} {procs : ι → Option (Proc σ ε α)} {i : ι} {p : Proc σ ε α} :
      Reach init programs env ⟨s, procs⟩ → procs i = some p →
      Reach init programs env ⟨s, Function.update procs i none⟩
  | env {s s' : σ} {procs : ι → Option (Proc σ ε α)} :
      Reach init programs env ⟨s, procs⟩ → env s s' → Reach init programs env ⟨s', procs⟩

/-- What the rely of every program must allow. -/
structure Compatible (I : σ → Prop) (R G : ι → σ → σ → Prop) (env : σ → σ → Prop) : Prop where
  refl : ∀ i s, R i s s
  trans : ∀ i s t u, R i s t → R i t u → R i s u
  others : ∀ i j s t, i ≠ j → G i s t → R j s t
  env_inv : ∀ s t, env s t → I s → I t
  env_rely : ∀ i s t, env s t → R i s t

theorem update_eq_some {β : Type} {f : ι → Option β} {i j : ι} {o : Option β} {b : β}
    (h : Function.update f i o j = some b) : (j = i ∧ o = some b) ∨ (j ≠ i ∧ f j = some b) := by
  by_cases hij : j = i
  · subst hij
    rw [Function.update_self] at h
    exact .inl ⟨rfl, h⟩
  · rw [Function.update_of_ne hij] at h
    exact .inr ⟨hij, h⟩

/-- In every pool of safe programs the invariant holds, and what remains of
each program is safe. -/
theorem Reach.safe {init : σ → Prop} {programs : ι → Proc σ ε α → Prop} {env : σ → σ → Prop}
    {I : σ → Prop} {R G : ι → σ → σ → Prop} {Q : ι → Except ε α → σ → Prop}
    (hc : Compatible I R G env) (hinit : ∀ s, init s → I s)
    (hsafe : ∀ i p s, programs i p → I s → Proc.Safe (R i) (G i) I (Q i) p s)
    {pool : Pool ι σ ε α} (h : Reach init programs env pool) :
    I pool.state ∧ ∀ i p, pool.procs i = some p → Proc.Safe (R i) (G i) I (Q i) p pool.state := by
  induction h with
  | init hs => exact ⟨hinit _ hs, fun i p hp => by cases hp⟩
  | @start s procs i p _ _ hprog ih =>
    obtain ⟨hi, hall⟩ := ih
    refine ⟨hi, fun j q hq => ?_⟩
    rcases update_eq_some hq with ⟨rfl, hsome⟩ | ⟨-, hsome⟩
    · obtain rfl := Option.some.inj hsome
      exact hsafe j p s hprog hi
    · exact hall j q hsome
  | @step s procs i act next _ hproc ih =>
    obtain ⟨hi, hall⟩ := ih
    obtain ⟨hi', hg, hs⟩ := hall i _ hproc s (hc.refl i s) hi
    refine ⟨hi', fun j q hq => ?_⟩
    rcases update_eq_some hq with ⟨rfl, hsome⟩ | ⟨hij, hsome⟩
    · obtain rfl := Option.some.inj hsome
      exact hs
    · -- the step of `i` is within the rely of `j`
      exact (hall j q hsome).rely (hc.trans j) (hc.others i j _ _ (Ne.symm hij) hg)
  | @stop s procs i p _ _ ih =>
    obtain ⟨hi, hall⟩ := ih
    refine ⟨hi, fun j q hq => ?_⟩
    rcases update_eq_some hq with ⟨-, hsome⟩ | ⟨-, hsome⟩
    · cases hsome
    · exact hall j q hsome
  | @env s s' procs _ henv ih =>
    obtain ⟨hi, hall⟩ := ih
    exact ⟨hc.env_inv _ _ henv hi,
      fun j q hq => (hall j q hq).rely (hc.trans j) (hc.env_rely j _ _ henv)⟩

/-- What the steps of all the programs keep holds in every pool. -/
theorem Reach.invariant {init : σ → Prop} {programs : ι → Proc σ ε α → Prop}
    {env : σ → σ → Prop} {J : σ → Prop} {R G : ι → σ → σ → Prop}
    (hrefl : ∀ i s, R i s s) (htrans : ∀ i s t u, R i s t → R i t u → R i s u)
    (hothers : ∀ i j s t, i ≠ j → G i s t → R j s t) (henv : ∀ i s t, env s t → R i s t)
    (hfollows : ∀ i p s, programs i p → Proc.Follows (R i) (G i) p s)
    (hinit : ∀ s, init s → J s) (hstep : ∀ i s t, G i s t → J s → J t)
    (hjenv : ∀ s t, env s t → J s → J t) {pool : Pool ι σ ε α}
    (h : Reach init programs env pool) : J pool.state :=
  (h.safe (Q := fun _ _ _ => True) ⟨hrefl, htrans, hothers, hjenv, henv⟩ hinit
    fun i p s hp _ => (hfollows i p s hp).safe (hstep i)).1

/-- One pool after another. -/
inductive Next (programs : ι → Proc σ ε α → Prop) (env : σ → σ → Prop) :
    Pool ι σ ε α → Pool ι σ ε α → Prop
  | start {s : σ} {procs : ι → Option (Proc σ ε α)} {i : ι} {p : Proc σ ε α} :
      procs i = none → programs i p →
      Next programs env ⟨s, procs⟩ ⟨s, Function.update procs i (some p)⟩
  | step {s : σ} {procs : ι → Option (Proc σ ε α)} {i : ι} {act : σ → σ}
      {next : σ → Proc σ ε α} : procs i = some (.step act next) →
      Next programs env ⟨s, procs⟩ ⟨act s, Function.update procs i (some (next s))⟩
  | stop {s : σ} {procs : ι → Option (Proc σ ε α)} {i : ι} {p : Proc σ ε α} :
      procs i = some p → Next programs env ⟨s, procs⟩ ⟨s, Function.update procs i none⟩
  | env {s s' : σ} {procs : ι → Option (Proc σ ε α)} :
      env s s' → Next programs env ⟨s, procs⟩ ⟨s', procs⟩

theorem Reach.next {init : σ → Prop} {programs : ι → Proc σ ε α → Prop} {env : σ → σ → Prop}
    {pool pool' : Pool ι σ ε α} (h : Reach init programs env pool)
    (hnext : Next programs env pool pool') : Reach init programs env pool' := by
  cases hnext with
  | start hfree hp => exact h.start hfree hp
  | step hproc => exact h.step hproc
  | stop hproc => exact h.stop hproc
  | env hs => exact h.env hs

/-- What the guarantees keep stays, from a pool on. -/
theorem Reach.kept {init : σ → Prop} {programs : ι → Proc σ ε α → Prop} {env : σ → σ → Prop}
    {I J : σ → Prop} {R G : ι → σ → σ → Prop} {Q : ι → Except ε α → σ → Prop}
    (hc : Compatible I R G env) (hinit : ∀ s, init s → I s)
    (hsafe : ∀ i p s, programs i p → I s → Proc.Safe (R i) (G i) I (Q i) p s)
    (hstep : ∀ i s t, G i s t → J s → J t) (henv : ∀ s t, env s t → J s → J t)
    {pool pool' : Pool ι σ ε α} (h : Reach init programs env pool)
    (hlater : Relation.ReflTransGen (Next programs env) pool pool') (hj : J pool.state) :
    Reach init programs env pool' ∧ J pool'.state := by
  induction hlater with
  | refl => exact ⟨h, hj⟩
  | @tail pool₁ pool₂ _ hnext ih =>
    obtain ⟨hreach, hj⟩ := ih
    refine ⟨hreach.next hnext, ?_⟩
    obtain ⟨hi, hall⟩ := hreach.safe hc hinit hsafe
    cases hnext with
    | start => exact hj
    | @step s procs i act next hproc =>
      obtain ⟨-, hg, -⟩ := hall i _ hproc s (hc.refl i s) hi
      exact hstep i _ _ hg hj
    | stop => exact hj
    | env hs => exact henv _ _ hs hj

/-- Each program follows its relation, whatever happens between its steps. -/
def Follow (G : ι → σ → σ → Prop) (pool : Pool ι σ ε α) : Prop :=
  ∀ i p s, pool.procs i = some p → Proc.Follows (fun _ _ => True) (G i) p s

theorem Next.follow {programs : ι → Proc σ ε α → Prop} {env : σ → σ → Prop}
    {G : ι → σ → σ → Prop} {pool pool' : Pool ι σ ε α}
    (hprograms : ∀ i p s, programs i p → Proc.Follows (fun _ _ => True) (G i) p s)
    (h : Next programs env pool pool') (hfollow : pool.Follow G) :
    pool'.Follow G ∧ (pool'.state = pool.state ∨ (∃ i, G i pool.state pool'.state) ∨
      env pool.state pool'.state) := by
  cases h with
  | @start s procs i p _ hp =>
    refine ⟨fun j q t hq => ?_, .inl rfl⟩
    rcases update_eq_some hq with ⟨rfl, hsome⟩ | ⟨-, hsome⟩
    · obtain rfl := Option.some.inj hsome
      exact hprograms j p t hp
    · exact hfollow j q t hsome
  | @step s procs i act next hproc =>
    obtain ⟨-, hg, hs⟩ := hfollow i _ s hproc s trivial trivial
    refine ⟨fun j q t hq => ?_, .inr (.inl ⟨i, hg⟩)⟩
    rcases update_eq_some hq with ⟨rfl, hsome⟩ | ⟨-, hsome⟩
    · obtain rfl := Option.some.inj hsome
      exact hs.rely (fun _ _ _ _ _ => trivial) trivial
    · exact hfollow j q t hsome
  | @stop s procs i p _ =>
    refine ⟨fun j q t hq => ?_, .inl rfl⟩
    rcases update_eq_some hq with ⟨-, hsome⟩ | ⟨-, hsome⟩
    · cases hsome
    · exact hfollow j q t hsome
  | env hs => exact ⟨fun j q t hq => hfollow j q t hq, .inr (.inr hs)⟩

/-- What the steps of the programs and of the environment do, from a pool on. -/
theorem Follow.later {programs : ι → Proc σ ε α → Prop} {env : σ → σ → Prop}
    {G : ι → σ → σ → Prop} {K : σ → σ → Prop} {pool pool' : Pool ι σ ε α}
    (hprograms : ∀ i p s, programs i p → Proc.Follows (fun _ _ => True) (G i) p s)
    (hrefl : ∀ s, K s s) (htrans : ∀ s t u, K s t → K t u → K s u)
    (hstep : ∀ i s t, G i s t → K s t) (henv : ∀ s t, env s t → K s t)
    (hfollow : pool.Follow G) (h : Relation.ReflTransGen (Next programs env) pool pool') :
    pool'.Follow G ∧ K pool.state pool'.state := by
  induction h with
  | refl => exact ⟨hfollow, hrefl _⟩
  | tail _ hnext ih =>
    obtain ⟨hfollow', hk⟩ := ih
    obtain ⟨hfollow'', hsame | ⟨i, hg⟩ | hs⟩ := hnext.follow hprograms hfollow'
    · rw [hsame]
      exact ⟨hfollow'', hk⟩
    · exact ⟨hfollow'', htrans _ _ _ hk (hstep i _ _ hg)⟩
    · exact ⟨hfollow'', htrans _ _ _ hk (henv _ _ hs)⟩

/-- The pools of the runs whose steps all meet a condition, on the pool they
are taken in and the state they lead to. -/
inductive ReachUnder (init : σ → Prop) (programs : ι → Proc σ ε α → Prop)
    (ok : Pool ι σ ε α → σ → Prop) : Pool ι σ ε α → Prop
  | init {s : σ} : init s → ReachUnder init programs ok ⟨s, fun _ => none⟩
  | start {s : σ} {procs : ι → Option (Proc σ ε α)} {i : ι} {p : Proc σ ε α} :
      ReachUnder init programs ok ⟨s, procs⟩ → procs i = none → programs i p →
      ReachUnder init programs ok ⟨s, Function.update procs i (some p)⟩
  | step {s : σ} {procs : ι → Option (Proc σ ε α)} {i : ι} {act : σ → σ}
      {next : σ → Proc σ ε α} :
      ReachUnder init programs ok ⟨s, procs⟩ → procs i = some (.step act next) →
      ok ⟨s, procs⟩ (act s) →
      ReachUnder init programs ok ⟨act s, Function.update procs i (some (next s))⟩
  | stop {s : σ} {procs : ι → Option (Proc σ ε α)} {i : ι} {p : Proc σ ε α} :
      ReachUnder init programs ok ⟨s, procs⟩ → procs i = some p →
      ReachUnder init programs ok ⟨s, Function.update procs i none⟩

theorem ReachUnder.reach {init : σ → Prop} {programs : ι → Proc σ ε α → Prop}
    {ok : Pool ι σ ε α → σ → Prop} {env : σ → σ → Prop} {pool : Pool ι σ ε α}
    (h : ReachUnder init programs ok pool) : Reach init programs env pool := by
  induction h with
  | init hs => exact .init hs
  | start _ hfree hp ih => exact ih.start hfree hp
  | step _ hproc _ ih => exact ih.step hproc
  | stop _ hproc ih => exact ih.stop hproc

/-- A program that takes some steps while the others wait. -/
theorem Reach.after {init : σ → Prop} {programs : ι → Proc σ ε α → Prop} {env : σ → σ → Prop}
    {s : σ} {procs : ι → Option (Proc σ ε α)} {i : ι} {p : Proc σ ε α} (n : Nat)
    (h : Reach init programs env ⟨s, Function.update procs i (some p)⟩) :
    Reach init programs env ⟨(p.after n s).2, Function.update procs i (some (p.after n s).1)⟩ := by
  induction n generalizing p s with
  | zero => exact h
  | succ n ih =>
    cases p with
    | done r => exact h
    | step act next =>
      have hnext := h.step (Function.update_self i _ _)
      rw [Function.update_idem] at hnext
      exact ih hnext

/-- A program that runs alone to its end, and is not taken out. -/
theorem Reach.finish {init : σ → Prop} {programs : ι → Proc σ ε α → Prop} {env : σ → σ → Prop}
    {s : σ} {i : ι} {p : Proc σ ε α} (h : Reach init programs env ⟨s, fun _ => none⟩)
    (hp : programs i p) : Reach init programs env
      ⟨(p.run s).2, Function.update (fun _ => none) i (some (.done (p.run s).1))⟩ := by
  have hstart : Reach init programs env ⟨s, Function.update (fun _ => none) i (some p)⟩ :=
    h.start rfl hp
  clear h hp
  induction p generalizing s with
  | done r => exact hstart
  | step act next ih =>
    have hnext := hstart.step (Function.update_self i _ _)
    rw [Function.update_idem] at hnext
    exact ih s hnext

/-- A program that runs alone to its end. -/
theorem Reach.run {init : σ → Prop} {programs : ι → Proc σ ε α → Prop} {env : σ → σ → Prop}
    {s : σ} {i : ι} {p : Proc σ ε α} (h : Reach init programs env ⟨s, fun _ => none⟩)
    (hp : programs i p) : Reach init programs env ⟨(p.run s).2, fun _ => none⟩ := by
  have hstop := (h.finish hp).stop (Function.update_self i _ _)
  rwa [Function.update_idem, Function.update_eq_self_iff.mpr rfl] at hstop

/-- A program that runs alone to its end leads from one pool to another. -/
theorem Next.run {programs : ι → Proc σ ε α → Prop} {env : σ → σ → Prop} {s : σ} (i : ι)
    {p : Proc σ ε α} (hp : programs i p) : Relation.ReflTransGen (Next programs env)
      ⟨s, fun _ => none⟩ ⟨(p.run s).2, fun _ => none⟩ := by
  refine .head (.start (i := i) rfl hp) ?_
  clear hp
  induction p generalizing s with
  | done r =>
    have hstop : Next programs env ⟨s, Function.update (fun _ => none) i (some (.done r))⟩ _ :=
      .stop (Function.update_self i _ _)
    rw [Function.update_idem, Function.update_eq_self_iff.mpr rfl] at hstop
    exact .single hstop
  | step act next ih =>
    have hstep : Next programs env ⟨s, Function.update (fun _ => none) i (some (.step act next))⟩ _ :=
      .step (Function.update_self i _ _)
    rw [Function.update_idem] at hstep
    exact .head hstep (ih s)

end Pool

end AgentRoi
