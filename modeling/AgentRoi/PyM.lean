/-
Methods that may raise.

A method takes the state it works on and leaves a state behind whether it
returns or raises: what it changed before raising stays changed, unless a
database transaction restores it.

* `PyM` — such methods, with `get`, `set`, `raise`, `tryExcept`;
* `PyM.transaction` — `BEGIN … COMMIT`, with a rollback when the body raises;
* `PyM.on` — a method of a part of the state;
* `PyM.AllOrNothing` — a method that changes nothing when it raises;
* `bind_eq_ok`, `bind_eq_error` — how a sequence of two methods can end.
-/
import AgentRoi.PyExc

namespace AgentRoi

/-- A method on a state: it returns or raises, and leaves a state either way. -/
def PyM (σ α : Type) : Type := σ → Except PyExc α × σ

theorem except_bind_eq_ok {ε α β : Type} {x : Except ε α} {f : α → Except ε β} {b : β} :
    (x >>= f) = .ok b ↔ ∃ a, x = .ok a ∧ f a = .ok b := by
  cases x with
  | error e => simp [bind, Except.bind]
  | ok a => simp [bind, Except.bind]

namespace PyM

variable {σ τ α β : Type}

instance : Monad (PyM σ) where
  pure a := fun s => (.ok a, s)
  bind x f := fun s =>
    match x s with
    | (.ok a, s') => f a s'
    | (.error e, s') => (.error e, s')

def get : PyM σ σ := fun s => (.ok s, s)

def set (s : σ) : PyM σ Unit := fun _ => (.ok (), s)

def modify (f : σ → σ) : PyM σ Unit := fun s => (.ok (), f s)

def raise (e : PyExc) : PyM σ α := fun s => (.error e, s)

/-- A result that depends on no state. -/
def ofExcept (r : Except PyExc α) : PyM σ α := fun s => (r, s)

/-- `try: … except BaseException as exc: …`. -/
def tryExcept (x : PyM σ α) (handler : PyExc → PyM σ α) : PyM σ α := fun s =>
  match x s with
  | (.ok a, s') => (.ok a, s')
  | (.error e, s') => handler e s'

/-- A transaction: when the body raises, the state is the one it began with. -/
def transaction (x : PyM σ α) : PyM σ α := fun s =>
  match x s with
  | (.ok a, s') => (.ok a, s')
  | (.error e, _) => (.error e, s)

/-- A method of a part of the state. -/
def on (part : τ → σ) (update : τ → σ → τ) (x : PyM σ α) : PyM τ α := fun t =>
  ((x (part t)).1, update t (x (part t)).2)

/-- A method of one kind of state, run where the state may be of several. -/
def embed (f : σ → τ) (x : PyM σ α) (s : σ) : Except PyExc α × τ := ((x s).1, f (x s).2)

theorem embed_eq {f : σ → τ} {x : PyM σ α} {s : σ} {r : Except PyExc α} {t : τ} :
    embed f x s = (r, t) ↔ ∃ s', x s = (r, s') ∧ t = f s' := by
  rcases hx : x s with ⟨q, s'⟩
  simp only [embed, hx, Prod.mk.injEq]
  constructor
  · rintro ⟨rfl, rfl⟩
    exact ⟨s', ⟨rfl, rfl⟩, rfl⟩
  · rintro ⟨_, ⟨rfl, rfl⟩, rfl⟩
    exact ⟨rfl, rfl⟩

@[simp] theorem pure_apply (a : α) (s : σ) : (pure a : PyM σ α) s = (.ok a, s) := rfl

@[simp] theorem get_apply (s : σ) : (get : PyM σ σ) s = (.ok s, s) := rfl

@[simp] theorem set_apply (s s' : σ) : set s' s = (.ok (), s') := rfl

@[simp] theorem modify_apply (f : σ → σ) (s : σ) : modify f s = (.ok (), f s) := rfl

@[simp] theorem raise_apply (e : PyExc) (s : σ) : (raise e : PyM σ α) s = (.error e, s) := rfl

@[simp] theorem ofExcept_apply (r : Except PyExc α) (s : σ) : ofExcept r s = (r, s) := rfl

/-- A call that did not raise. -/
theorem exists_of_isOk {p : Except PyExc α × σ} (h : p.1.isOk = true) :
    ∃ a s, p = (.ok a, s) := by
  rcases p with ⟨_ | a, s⟩
  · cases h
  · exact ⟨a, s, rfl⟩

/-- What is known of the result of a call that did not raise. -/
theorem exists_of_map_eq_some {p : Except PyExc α × σ} {f : α → β} {b : β}
    (h : p.1.toOption.map f = some b) : ∃ a s, p = (.ok a, s) ∧ f a = b := by
  rcases p with ⟨_ | a, s⟩
  · cases h
  · exact ⟨a, s, rfl, Option.some.inj h⟩

theorem bind_apply (x : PyM σ α) (f : α → PyM σ β) (s : σ) :
    (x >>= f) s = match x s with
      | (.ok a, s') => f a s'
      | (.error e, s') => (.error e, s') := rfl

theorem bind_of_ok {x : PyM σ α} {f : α → PyM σ β} {s s' : σ} {a : α}
    (h : x s = (.ok a, s')) : (x >>= f) s = f a s' := by
  rw [bind_apply, h]

theorem bind_of_error {x : PyM σ α} {f : α → PyM σ β} {s s' : σ} {e : PyExc}
    (h : x s = (.error e, s')) : (x >>= f) s = (.error e, s') := by
  rw [bind_apply, h]

theorem map_of_ok {x : PyM σ α} {f : α → β} {s s' : σ} {a : α} (h : x s = (.ok a, s')) :
    (f <$> x) s = (.ok (f a), s') := bind_of_ok h

theorem map_of_error {x : PyM σ α} {f : α → β} {s s' : σ} {e : PyExc}
    (h : x s = (.error e, s')) : (f <$> x) s = (.error e, s') := bind_of_error h

/-- A sequence returns when both parts do. -/
theorem bind_eq_ok {x : PyM σ α} {f : α → PyM σ β} {s s'' : σ} {b : β} :
    (x >>= f) s = (.ok b, s'') ↔ ∃ a s', x s = (.ok a, s') ∧ f a s' = (.ok b, s'') := by
  rcases hx : x s with ⟨r, s'⟩
  cases r with
  | ok a =>
    rw [bind_of_ok hx]
    constructor
    · exact fun h => ⟨a, s', rfl, h⟩
    · rintro ⟨a', t, ht, h⟩
      cases ht
      exact h
  | error e =>
    rw [bind_of_error hx]
    constructor
    · intro h
      cases h
    · rintro ⟨a', t, ht, -⟩
      cases ht

/-- A sequence raises when its first part does, or the second after it. -/
theorem bind_eq_error {x : PyM σ α} {f : α → PyM σ β} {s s'' : σ} {e : PyExc} :
    (x >>= f) s = (.error e, s'') ↔
      x s = (.error e, s'') ∨ ∃ a s', x s = (.ok a, s') ∧ f a s' = (.error e, s'') := by
  rcases hx : x s with ⟨r, s'⟩
  cases r with
  | ok a =>
    rw [bind_of_ok hx]
    constructor
    · exact fun h => .inr ⟨a, s', rfl, h⟩
    · rintro (ht | ⟨a', t, ht, h⟩)
      · cases ht
      · cases ht
        exact h
  | error e' =>
    rw [bind_of_error hx]
    constructor
    · intro h
      cases h
      exact .inl rfl
    · rintro (ht | ⟨a', t, ht, -⟩)
      · cases ht
        rfl
      · cases ht

/-- A sequence ends as its first part does when that raises, and as the second
part otherwise. -/
theorem bind_cases {x : PyM σ α} {f : α → PyM σ β} {s s'' : σ} {r : Except PyExc β}
    (h : (x >>= f) s = (r, s'')) :
    (∃ e, x s = (.error e, s'') ∧ r = .error e) ∨ ∃ a s', x s = (.ok a, s') ∧ f a s' = (r, s'') := by
  rcases hx : x s with ⟨e | a, s'⟩
  · rw [bind_of_error hx] at h
    cases h
    exact .inl ⟨e, rfl, rfl⟩
  · rw [bind_of_ok hx] at h
    exact .inr ⟨a, s', rfl, h⟩

theorem bind_assoc {γ : Type} (x : PyM σ α) (f : α → PyM σ β) (g : β → PyM σ γ) :
    x >>= f >>= g = x >>= fun a => f a >>= g := by
  funext s
  rcases hx : x s with ⟨e | a, s'⟩
  · rw [bind_of_error hx, bind_of_error (bind_of_error hx)]
  · rw [bind_of_ok hx, bind_apply, bind_of_ok hx, bind_apply]

theorem pure_bind (a : α) (f : α → PyM σ β) : pure a >>= f = f a := rfl

/-- A sequence that begins by reading the state. -/
theorem get_bind (f : σ → PyM σ β) (s : σ) : (get >>= f) s = f s s := rfl

/-- A sequence that begins with a result that depends on no state. -/
theorem ofExcept_bind_eq_ok {r : Except PyExc α} {f : α → PyM σ β} {s s' : σ} {b : β} :
    (ofExcept r >>= f) s = (.ok b, s') ↔ ∃ a, r = .ok a ∧ f a s = (.ok b, s') := by
  cases r <;> simp [bind_apply]

theorem ofExcept_bind_eq_error {r : Except PyExc α} {f : α → PyM σ β} {s s' : σ} {e : PyExc} :
    (ofExcept r >>= f) s = (.error e, s') ↔
      (r = .error e ∧ s' = s) ∨ ∃ a, r = .ok a ∧ f a s = (.error e, s') := by
  cases r <;> simp [bind_apply, eq_comm]

/-- A method of a part of the state that returns. -/
theorem on_eq_ok {part : τ → σ} {update : τ → σ → τ} {x : PyM σ α} {t t' : τ} {a : α} :
    on part update x t = (.ok a, t') ↔ ∃ s, x (part t) = (.ok a, s) ∧ t' = update t s := by
  rcases hx : x (part t) with ⟨r, s⟩
  simp only [on, hx, Prod.mk.injEq]
  constructor
  · rintro ⟨rfl, rfl⟩
    exact ⟨s, ⟨rfl, rfl⟩, rfl⟩
  · rintro ⟨_, ⟨rfl, rfl⟩, rfl⟩
    exact ⟨rfl, rfl⟩

theorem tryExcept_of_ok {x : PyM σ α} {handler : PyExc → PyM σ α} {s s' : σ} {a : α}
    (h : x s = (.ok a, s')) : tryExcept x handler s = (.ok a, s') := by
  unfold tryExcept
  rw [h]

theorem tryExcept_of_error {x : PyM σ α} {handler : PyExc → PyM σ α} {s s' : σ} {e : PyExc}
    (h : x s = (.error e, s')) : tryExcept x handler s = handler e s' := by
  unfold tryExcept
  rw [h]

theorem tryExcept_eq_ok {x : PyM σ α} {handler : PyExc → PyM σ α} {s s' : σ} {a : α} :
    tryExcept x handler s = (.ok a, s') ↔ x s = (.ok a, s') ∨
      ∃ e s₁, x s = (.error e, s₁) ∧ handler e s₁ = (.ok a, s') := by
  unfold tryExcept
  rcases hx : x s with ⟨e | b, s₁⟩
  · simp
  · simp

theorem transaction_eq_ok {x : PyM σ α} {s s' : σ} {a : α} :
    transaction x s = (.ok a, s') ↔ x s = (.ok a, s') := by
  rcases hx : x s with ⟨_ | _, t⟩ <;> simp [transaction, hx]

/-- A transaction returns what its body returns. -/
theorem transaction_returns {x : PyM σ α} {s : σ} {a : α} (h : (x s).1 = .ok a) :
    (transaction x s).1 = .ok a := by
  rw [transaction_eq_ok.mpr (Prod.ext h rfl)]

/-- A transaction that raises changes nothing. -/
theorem transaction_eq_error {x : PyM σ α} {s s' : σ} {e : PyExc} :
    transaction x s = (.error e, s') ↔ s' = s ∧ (x s).1 = .error e := by
  rcases hx : x s with ⟨_ | _, t⟩ <;> simp [transaction, hx, and_comm, eq_comm]

/-- A transaction raises and changes nothing, or does what its body does. -/
theorem transaction_cases {x : PyM σ α} {s s' : σ} {r : Except PyExc α}
    (h : transaction x s = (r, s')) :
    (∃ e, r = .error e ∧ s' = s) ∨ ∃ a, r = .ok a ∧ x s = (.ok a, s') := by
  cases r with
  | error e => exact .inl ⟨e, rfl, (transaction_eq_error.mp h).1⟩
  | ok a => exact .inr ⟨a, rfl, transaction_eq_ok.mp h⟩

/-- A method that changes nothing when it raises. -/
def AllOrNothing (x : PyM σ α) : Prop := ∀ s s' e, x s = (.error e, s') → s' = s

namespace AllOrNothing

protected theorem raise (e : PyExc) : AllOrNothing (PyM.raise e : PyM σ α) := by
  intro s s' e' h
  cases h
  rfl

protected theorem set (t : σ) : AllOrNothing (PyM.set t) := by
  intro s s' e h
  cases h

protected theorem modify (f : σ → σ) : AllOrNothing (PyM.modify f) := by
  intro s s' e h
  cases h

theorem ofExcept_bind {r : Except PyExc α} {f : α → PyM σ β} (h : ∀ a, AllOrNothing (f a)) :
    AllOrNothing (ofExcept r >>= f) := by
  intro s s' e hx
  rcases ofExcept_bind_eq_error.mp hx with ⟨-, hs⟩ | ⟨a, -, hx⟩
  · exact hs
  · exact h a s s' e hx

theorem get_bind {f : σ → PyM σ β} (h : ∀ t, AllOrNothing (f t)) : AllOrNothing (get >>= f) :=
  fun s s' e hx => h s s s' e hx

/-- What follows a method that may raise does not raise itself. -/
theorem bind_pure {x : PyM σ α} (h : AllOrNothing x) (f : α → β) :
    AllOrNothing (x >>= fun a => pure (f a)) := by
  intro s s' e hx
  rcases bind_eq_error.mp hx with hx | ⟨a, t, -, hpure⟩
  · exact h s s' e hx
  · cases hpure

/-- Raising another exception changes no more. -/
theorem tryExcept_raise {x : PyM σ α} (h : AllOrNothing x) (f : PyExc → PyExc) :
    AllOrNothing (tryExcept x fun e => raise (f e)) := by
  intro s s' e hx
  rcases hxs : x s with ⟨e' | a, t⟩
  · rw [tryExcept_of_error hxs] at hx
    cases hx
    exact h s s' e' hxs
  · rw [tryExcept_of_ok hxs] at hx
    cases hx

end AllOrNothing

end PyM

/-- Binding a string as `TEXT`. -/
def bindText (s : Str) : Except PyExc Unit :=
  if (encodeUtf8 s).isSome then .ok () else .error .unicodeEncodeError

theorem bindText_eq_ok {s : Str} {u : Unit} (h : bindText s = .ok u) :
    (encodeUtf8 s).isSome := by
  unfold bindText at h
  split_ifs at h with hs
  exact hs

theorem bindText_of_isSome {s : Str} (h : (encodeUtf8 s).isSome) : bindText s = .ok () := if_pos h

end AgentRoi
