/-
Programs that run to their end without interference.

Nothing here mentions the package.

* `Proc.SameRuns` — two programs that do the same from every state;
* `Proc.ReturnsOnly` — a program that returns only what meets a condition;
* `SameRuns.bind`, `SameRuns.bind_of_returns` — the rules for sequences, the
  second of which knows what the first part returned.
-/
import AgentRoi.Interleaving

namespace AgentRoi

namespace Proc

variable {σ τ ε α β : Type} {p q r : Proc σ ε α} {P : α → Prop}

/-- The programs do the same from every state. -/
def SameRuns (p q : Proc σ ε α) : Prop := ∀ s, p.run s = q.run s

/-- What the program returns meets `P`. -/
def ReturnsOnly (P : α → Prop) (p : Proc σ ε α) : Prop := ∀ s a t, p.run s = (.ok a, t) → P a

theorem SameRuns.refl (p : Proc σ ε α) : SameRuns p p := fun _ => rfl

theorem SameRuns.trans (h : SameRuns p q) (h' : SameRuns q r) : SameRuns p r :=
  fun s => (h s).trans (h' s)

/-- The rule for a sequence whose first part returns only what meets `P`. -/
theorem SameRuns.bind_of_returns {f g : α → Proc σ ε β} (h : SameRuns p q)
    (hp : ReturnsOnly P p) (hfg : ∀ a, P a → SameRuns (f a) (g a)) :
    SameRuns (p >>= f) (q >>= g) := by
  intro s
  rw [run_bind, run_bind, ← h s]
  rcases hrun : p.run s with ⟨e | a, t⟩
  · rfl
  · exact hfg a (hp s a t hrun) t

theorem SameRuns.bind {f g : α → Proc σ ε β} (h : SameRuns p q)
    (hfg : ∀ a, SameRuns (f a) (g a)) : SameRuns (p >>= f) (q >>= g) :=
  h.bind_of_returns (P := fun _ => True) (fun _ _ _ _ => trivial) fun a _ => hfg a

theorem SameRuns.attempt (h : SameRuns p q) : SameRuns p.attempt q.attempt := by
  intro s
  rw [run_attempt, run_attempt, h s]

/-- A sequence whose second part only hands on what it is given. -/
theorem sameRuns_bind_pure {f : α → Proc σ ε α} (hp : ReturnsOnly P p)
    (hf : ∀ a, P a → SameRuns (f a) (pure a)) : SameRuns (p >>= f) p := by
  intro s
  rw [run_bind]
  rcases hrun : p.run s with ⟨e | a, t⟩
  · rfl
  · exact hf a (hp s a t hrun) t

/-- Programs on a part of the state. -/
theorem SameRuns.within {part : τ → σ} {update : τ → σ → τ}
    (hpart : ∀ t s, part (update t s) = s) (hself : ∀ t, update t (part t) = t)
    (htwice : ∀ t s s', update (update t s) s' = update t s') (h : SameRuns p q) :
    SameRuns (p.within part update) (q.within part update) := by
  intro t
  rw [run_within hpart hself htwice, run_within hpart hself htwice, h]

theorem returnsOnly_raise (e : ε) : ReturnsOnly P (raise e : Proc σ ε α) := by
  intro s a t h
  cases h

theorem returnsOnly_pure {a : α} (ha : P a) : ReturnsOnly P (pure a : Proc σ ε α) := by
  intro s b t h
  cases h
  exact ha

theorem returnsOnly_within {part : τ → σ} {update : τ → σ → τ}
    (hpart : ∀ t s, part (update t s) = s) (hself : ∀ t, update t (part t) = t)
    (htwice : ∀ t s s', update (update t s) s' = update t s') (hp : ReturnsOnly P p) :
    ReturnsOnly P (p.within part update) := by
  intro s a t h
  rw [run_within hpart hself htwice] at h
  have hresult : (p.run (part s)).1 = .ok a := congrArg Prod.fst h
  exact hp (part s) a _ (Prod.ext hresult rfl)

/-- What a sequence returns is returned by its second part. -/
theorem returnsOnly_bind {Q : β → Prop} {f : α → Proc σ ε β} (hf : ∀ a, ReturnsOnly Q (f a)) :
    ReturnsOnly Q (p >>= f) := by
  intro s b t h
  obtain ⟨a, u, -, h⟩ := run_bind_eq_ok.mp h
  exact hf a u b t h

/-- What is caught may be given out again. -/
theorem returnsOnly_attempt_bind {Q : β → Prop} {f : Except ε α → Proc σ ε β}
    (hp : ReturnsOnly P p) (hok : ∀ a, P a → ReturnsOnly Q (f (.ok a)))
    (herror : ∀ e, ReturnsOnly Q (f (.error e))) : ReturnsOnly Q (p.attempt >>= f) := by
  intro s b t h
  rw [run_bind, run_attempt] at h
  rcases hrun : p.run s with ⟨e | a, u⟩
  · rw [hrun] at h
    exact herror e u b t h
  · rw [hrun] at h
    exact hok a (hp s a u hrun) u b t h

end Proc

end AgentRoi
