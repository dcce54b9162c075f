/-
Programs whose own steps are written down.

Nothing here mentions the package:

* `Watched` — the shared state, and the steps each program has taken since it
  started;
* `Proc.watched` — the same program, with its steps written down;
* `Safe.watching` — the program is as safe as it was;
* `Proc.Clean` — a program that changes nothing, or else returns;
* `Clean.watching` — such a program has changed nothing when it raises.
-/
import AgentRoi.Interleaving

namespace AgentRoi

/-- The steps are pairs of the states before and after, the newest first. -/
structure Watched (ι σ : Type) where
  state : σ
  steps : ι → List (σ × σ)

namespace Watched

variable {ι σ : Type}

/-- What the others do. -/
def Others (R : σ → σ → Prop) (i : ι) (w w' : Watched ι σ) : Prop :=
  R w.state w'.state ∧ w'.steps i = w.steps i

/-- What a program does itself. -/
def Own (G : σ → σ → Prop) (i : ι) (w w' : Watched ι σ) : Prop :=
  G w.state w'.state ∧ ∀ j, j ≠ i → w'.steps j = w.steps j

/-- None of the steps of `i` changed the state. -/
def Unchanged (i : ι) (w : Watched ι σ) : Prop := ∀ step ∈ w.steps i, step.2 = step.1

variable [DecidableEq ι]

/-- A step of `i`. -/
def take (i : ι) (act : σ → σ) (w : Watched ι σ) : Watched ι σ where
  state := act w.state
  steps := Function.update w.steps i ((w.state, act w.state) :: w.steps i)

/-- No steps of `i` so far. -/
def restart (i : ι) (w : Watched ι σ) : Watched ι σ :=
  { w with steps := Function.update w.steps i [] }

@[simp] theorem take_state (i : ι) (act : σ → σ) (w : Watched ι σ) :
    (w.take i act).state = act w.state := rfl

@[simp] theorem take_steps (i : ι) (act : σ → σ) (w : Watched ι σ) :
    (w.take i act).steps i = (w.state, act w.state) :: w.steps i := Function.update_self i _ _

@[simp] theorem restart_state (i : ι) (w : Watched ι σ) : (w.restart i).state = w.state := rfl

@[simp] theorem restart_steps (i : ι) (w : Watched ι σ) : (w.restart i).steps i = [] :=
  Function.update_self i _ _

theorem take_steps_of_ne {i j : ι} (h : j ≠ i) (act : σ → σ) (w : Watched ι σ) :
    (w.take i act).steps j = w.steps j := Function.update_of_ne h _ _

theorem restart_steps_of_ne {i j : ι} (h : j ≠ i) (w : Watched ι σ) :
    (w.restart i).steps j = w.steps j := Function.update_of_ne h _ _

end Watched

namespace Proc

variable {ι σ ε α : Type} [DecidableEq ι]

def watching (i : ι) : Proc σ ε α → Proc (Watched ι σ) ε α
  | .done r => .done r
  | .step act next => .step (Watched.take i act) fun w => (next w.state).watching i

/-- The program starts with no steps taken. -/
def watched (i : ι) (p : Proc σ ε α) : Proc (Watched ι σ) ε α :=
  .step (Watched.restart i) fun _ => p.watching i

/-- The program returns, whatever the others do. -/
def Returns (R : σ → σ → Prop) (p : Proc σ ε α) (s : σ) : Prop :=
  Safe R (fun _ _ => True) (fun _ => True) (fun r _ => ∃ a, r = .ok a) p s

/-- Each step changes nothing, or the program returns from there. -/
def Clean (R : σ → σ → Prop) : Proc σ ε α → σ → Prop
  | .done _, _ => True
  | .step act next, s => ∀ t, R s t →
      (act t = t ∧ Clean R (next t) (act t)) ∨ Returns R (next t) (act t)

variable {R G : σ → σ → Prop} {i : ι} {p : Proc σ ε α} {w : Watched ι σ}

omit [DecidableEq ι] in
theorem Returns.bind_pure {β : Type} {b : β} {s : σ} (h : Returns R p s) :
    Returns R (p >>= fun _ => pure b) s := by
  induction p generalizing s with
  | done r =>
    cases r with
    | ok a => exact fun _ _ _ => ⟨b, rfl⟩
    | error e =>
      intro t ht _
      obtain ⟨a, ha⟩ := h t ht trivial
      cases ha
  | step act next ih =>
    intro t ht _
    obtain ⟨-, -, hs⟩ := h t ht trivial
    exact ⟨trivial, trivial, ih t hs⟩

omit [DecidableEq ι] in
theorem Clean.bind_pure {β : Type} {b : β} {s : σ} (h : Clean R p s) :
    Clean R (p >>= fun _ => pure b) s := by
  induction p generalizing s with
  | done r => cases r <;> trivial
  | step act next ih =>
    intro t ht
    rcases h t ht with ⟨hsame, hclean⟩ | hreturns
    · exact .inl ⟨hsame, ih t hclean⟩
    · exact .inr hreturns.bind_pure

/-- What is known of the program is known of it watched. -/
theorem Safe.watching {I : σ → Prop} {Q : Except ε α → σ → Prop}
    (h : Safe R G I Q p w.state) :
    Safe (Watched.Others R i) (Watched.Own G i) (fun w => I w.state) (fun r w => Q r w.state)
      (p.watching i) w := by
  induction p generalizing w with
  | done r => exact fun u hu hi => h u.state hu.1 hi
  | step act next ih =>
    intro u hu hi
    obtain ⟨hi', hg, hs⟩ := h u.state hu.1 hi
    exact ⟨hi', ⟨hg, fun j hj => Watched.take_steps_of_ne hj act u⟩, ih u.state hs⟩

theorem Returns.watching (h : Returns R p w.state) :
    Returns (Watched.Others R i) (p.watching i) w := by
  induction p generalizing w with
  | done r => exact fun u hu _ => h u.state hu.1 trivial
  | step act next ih =>
    intro u hu _
    obtain ⟨-, -, hs⟩ := h u.state hu.1 trivial
    exact ⟨trivial, trivial, ih u.state hs⟩

/-- A program that raises has changed nothing: either nothing was changed so
far, or it returns. -/
theorem Clean.watching (h : Clean R p w.state) (hw : w.Unchanged i) :
    Safe (Watched.Others R i) (fun _ _ => True) (fun _ => True)
      (fun r w => (∃ e, r = .error e) → w.Unchanged i) (p.watching i) w := by
  induction p generalizing w with
  | done r =>
    intro u hu _ _
    rw [Watched.Unchanged, hu.2]
    exact hw
  | step act next ih =>
    intro u hu _
    refine ⟨trivial, trivial, ?_⟩
    have hunchanged : u.Unchanged i := by
      rw [Watched.Unchanged, hu.2]
      exact hw
    rcases h u.state hu.1 with ⟨hsame, hclean⟩ | hreturns
    · refine ih u.state hclean fun step hstep => ?_
      rw [Watched.take_steps] at hstep
      rcases List.mem_cons.mp hstep with rfl | hstep
      · exact hsame
      · exact hunchanged step hstep
    · refine Safe.imp (hreturns.watching (w := _)) fun r _ _ hr => ?_
      obtain ⟨a, rfl⟩ := hr
      rintro ⟨e, he⟩
      cases he

/-- A watched program, from its start. -/
theorem safe_watched {Q : Except ε α → Watched ι σ → Prop} {I : σ → Prop} (hrefl : ∀ s, G s s)
    (h : ∀ u : Watched ι σ, R w.state u.state → I u.state → u.steps i = [] →
      Safe (Watched.Others R i) (Watched.Own G i) (fun w => I w.state) Q (p.watching i) u) :
    Safe (Watched.Others R i) (Watched.Own G i) (fun w => I w.state) Q (p.watched i) w := by
  intro u hu hi
  refine ⟨hi, ⟨hrefl u.state, fun j hj => Watched.restart_steps_of_ne hj u⟩, ?_⟩
  exact h (u.restart i) hu.1 hi (Watched.restart_steps i u)

end Proc

end AgentRoi
