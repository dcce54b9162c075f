/-
Whose outcome an idempotency store returns.

`_execute_sync` and `_execute_async` begin with `begin`; when it returns
`started` they run the handler and issue at most one of `complete` and `fail`
on the same namespace and key.  Any number of executions interleave, each call
at any reading of the clock.

* `Obs`, `World`, `step`, `runSteps` — the calls of the executions and what
  each of them saw, newest first;
* `lastStarted` — the execution whose record a key holds;
* `OnTime` — an execution settles before another one has taken its key over;
* `WorldInv`, `step_inv`, `runSteps_inv` — every record belongs to the
  execution that started it, in every run whose executions settle on time;
* `provenance_of_onTime` — then every replayed outcome is one of that execution.

A record does not say who started it: an execution that outlives its record
settles the next one (`lateSettle_counterexample`).
-/
import AgentRoi.IdempotencyRuns

namespace AgentRoi

open KeyLedger

variable {F : Type}

namespace IdempotencyStore

/-! ### The executions -/

/-- A call of an execution, and what came of it. -/
inductive Obs (F : Type) where
  | began (k : Str × Str) (requestDigest : Str) (r : Except PyExc (IdempotencyResult F))
  | completed (response : PyVal F) (r : Except PyExc Unit)
  | failed (error : Str) (r : Except PyExc Unit)

/-- What an execution does next. -/
inductive Act (F : Type) where
  | begin (namesp key requestDigest : Str) (ttlSeconds : Int)
  | complete (response : PyVal F)
  | fail (error : Str)

/-- The store, and the calls of the executions so far. -/
structure World (F : Type) where
  store : IdempotencyStore F
  trace : List (Nat × Obs F)

/-- The key of a `begin` that returned `started`. -/
def Obs.startedKey : Obs F → Option (Str × Str)
  | .began k _ (.ok .started) => some k
  | _ => none

/-- The key of an execution that runs its handler: its last call was a `begin`
that returned `started`. -/
def running (i : Nat) : List (Nat × Obs F) → Option (Str × Str)
  | [] => none
  | (j, obs) :: trace => if j = i then obs.startedKey else running i trace

/-- The execution whose `begin` was the last to return `started` for a key. -/
def lastStarted (k : Str × Str) : List (Nat × Obs F) → Option Nat
  | [] => none
  | (i, obs) :: trace => if obs.startedKey = some k then some i else lastStarted k trace

variable [PyFloat F]

/-- One call of one execution; none where the execution does not make it. -/
def step (w : World F) (i : Nat) (now : Instant) : Act F → Option (World F)
  | .begin namesp key requestDigest ttlSeconds =>
    if ∀ p ∈ w.trace, p.1 ≠ i then
      let called := begin now namesp key requestDigest ttlSeconds w.store
      some ⟨called.2, (i, .began (namesp, key) requestDigest called.1) :: w.trace⟩
    else none
  | .complete response =>
    match running i w.trace with
    | some (namesp, key) =>
      let called := complete namesp key response w.store
      some ⟨called.2, (i, .completed response called.1) :: w.trace⟩
    | none => none
  | .fail error =>
    match running i w.trace with
    | some (namesp, key) =>
      let called := fail namesp key error w.store
      some ⟨called.2, (i, .failed error called.1) :: w.trace⟩
    | none => none

def runSteps : List (Nat × Instant × Act F) → World F → Option (World F)
  | [], w => some w
  | (i, now, act) :: steps, w => (step w i now act).bind (runSteps steps)

/-- A store without records. -/
def empty (driver : Option (PgDriver F)) : IdempotencyStore F :=
  match driver with
  | none => .sqlite fun _ => none
  | some driver => .postgres driver fun _ => none

/-- The outcome a store returns for an execution that settled. -/
def SettledWith (driver : Option (PgDriver F)) (trace : List (Nat × Obs F)) (i : Nat)
    (result : IdempotencyResult F) : Prop :=
  (∃ response value, (i, .completed response (.ok ())) ∈ trace ∧
      stored driver response = some value ∧ result = .completed value) ∨
    ∃ error, (i, .failed error (.ok ())) ∈ trace ∧ result = .failed error

def Settled (trace : List (Nat × Obs F)) (i : Nat) : Prop :=
  (∃ response, (i, .completed response (.ok ())) ∈ trace) ∨
    ∃ error, (i, .failed error (.ok ())) ∈ trace

/-- An execution that completes or fails does so while the last execution
started on its key is itself, or has settled, or has no record left; and the
PostgreSQL store can return what it completes with. -/
def OnTime (w : World F) (i : Nat) : Act F → Prop
  | .begin _ _ _ _ => True
  | .complete response => Replayable w.store.driver? response ∧
      ∀ k, running i w.trace = some k → ∀ j, lastStarted k w.trace = some j →
        j = i ∨ Settled w.trace j ∨ w.store.entries k = none
  | .fail _ => ∀ k, running i w.trace = some k → ∀ j, lastStarted k w.trace = some j →
      j = i ∨ Settled w.trace j ∨ w.store.entries k = none

/-! ### Reading the trace -/

omit [PyFloat F] in
theorem Obs.startedKey_eq_some {obs : Obs F} {k : Str × Str} (h : obs.startedKey = some k) :
    ∃ d, obs = .began k d (.ok .started) := by
  unfold startedKey at h
  split at h
  · cases h
    exact ⟨_, rfl⟩
  · cases h

omit [PyFloat F] in
theorem began_of_lastStarted {i : Nat} {k : Str × Str} {trace : List (Nat × Obs F)}
    (h : lastStarted k trace = some i) : ∃ d, (i, .began k d (.ok .started)) ∈ trace := by
  induction trace with
  | nil => cases h
  | cons p trace ih =>
    obtain ⟨j, obs⟩ := p
    rw [lastStarted] at h
    split_ifs at h with hk
    · obtain ⟨d, rfl⟩ := Obs.startedKey_eq_some hk
      cases h
      exact ⟨d, List.mem_cons_self⟩
    · obtain ⟨d, hd⟩ := ih h
      exact ⟨d, List.mem_cons_of_mem _ hd⟩

/-- The call settled a record. -/
def Obs.Settles : Obs F → Prop
  | .began _ _ _ => False
  | .completed _ r => r = .ok ()
  | .failed _ r => r = .ok ()

omit [PyFloat F] in
theorem lastStarted_cons {k : Str × Str} {i : Nat} {obs : Obs F} {trace : List (Nat × Obs F)}
    (h : ∀ d, obs ≠ .began k d (.ok .started)) :
    lastStarted k ((i, obs) :: trace) = lastStarted k trace := by
  refine if_neg fun hk => ?_
  obtain ⟨d, hd⟩ := Obs.startedKey_eq_some hk
  exact h d hd

omit [PyFloat F] in
theorem Obs.not_settles_began {k : Str × Str} {d : Str} {r : Except PyExc (IdempotencyResult F)} :
    ¬(Obs.began k d r).Settles := fun h => h

omit [PyFloat F] in
theorem settled_cons {i j : Nat} {obs : Obs F} {trace : List (Nat × Obs F)}
    (h : i = j → ¬obs.Settles) (hj : Settled ((i, obs) :: trace) j) : Settled trace j := by
  have htail : ∀ obs', obs'.Settles → (j, obs') ∈ (i, obs) :: trace → (j, obs') ∈ trace := by
    intro obs' hs hmem
    rcases List.mem_cons.mp hmem with heq | hmem
    · cases heq
      exact absurd hs (h rfl)
    · exact hmem
  rcases hj with ⟨response, hmem⟩ | ⟨error, hmem⟩
  · exact .inl ⟨response, htail _ rfl hmem⟩
  · exact .inr ⟨error, htail _ rfl hmem⟩

theorem SettledWith.cons {driver : Option (PgDriver F)} {trace : List (Nat × Obs F)} {i : Nat}
    {result : IdempotencyResult F} (h : SettledWith driver trace i result) (p : Nat × Obs F) :
    SettledWith driver (p :: trace) i result := by
  rcases h with ⟨response, value, hmem, h⟩ | ⟨error, hmem, h⟩
  · exact .inl ⟨response, value, List.mem_cons_of_mem _ hmem, h⟩
  · exact .inr ⟨error, List.mem_cons_of_mem _ hmem, h⟩

/-! ### The invariant -/

/-- An entry belongs to the execution that started its key last: it is pending
until that execution settles, and then answers with its outcome. -/
def OwnedBy (driver : Option (PgDriver F)) (trace : List (Nat × Obs F)) (k : Str × Str)
    (e : Entry F) (j : Nat) : Prop :=
  lastStarted k trace = some j ∧ (j, .began k e.requestDigest (.ok .started)) ∈ trace ∧
    ((e.status = .pending ∧ e.answer = .error idempotencyInProgress ∧ ¬Settled trace j) ∨
      (e.status ≠ .pending ∧ ∃ result, SettledWith driver trace j result ∧ e.answer = .ok result))

structure WorldInv (driver : Option (PgDriver F)) (w : World F) : Prop where
  driver_eq : w.store.driver? = driver
  owned : ∀ k e, w.store.entries k = some e → ∃ j, OwnedBy driver w.trace k e j
  once : ∀ i k, running i w.trace = some k → ∀ p ∈ w.trace, p.1 = i →
    ∃ d, p.2 = .began k d (.ok .started)

/-- A pending entry that an execution settles on time is its own. -/
theorem OwnedBy.eq_of_pending {driver : Option (PgDriver F)} {trace : List (Nat × Obs F)}
    {k : Str × Str} {e : Entry F} {σ : Str × Str → Option (Entry F)} {i j : Nat}
    (h : OwnedBy driver trace k e j) (hp : e.status = .pending) (he : σ k = some e)
    (honTime : ∀ j, lastStarted k trace = some j → j = i ∨ Settled trace j ∨ σ k = none) :
    j = i := by
  obtain ⟨hlast, -, hcases⟩ := h
  rcases hcases with ⟨-, -, hns⟩ | ⟨hs, -⟩
  · rcases honTime j hlast with hij | hset | hnone
    · exact hij
    · exact absurd hset hns
    · rw [hnone] at he
      cases he
  · exact absurd hp hs

/-- A call that starts and settles nothing leaves the owners alone. -/
theorem OwnedBy.cons {driver : Option (PgDriver F)} {trace : List (Nat × Obs F)} {k : Str × Str}
    {e : Entry F} {i j : Nat} {obs : Obs F} (h : OwnedBy driver trace k e j)
    (hstart : ∀ d, obs ≠ .began k d (.ok .started))
    (hsettle : i = j → ¬obs.Settles) :
    OwnedBy driver ((i, obs) :: trace) k e j := by
  obtain ⟨hlast, hbegan, hcases⟩ := h
  refine ⟨(lastStarted_cons hstart).trans hlast, List.mem_cons_of_mem _ hbegan, ?_⟩
  rcases hcases with ⟨hp, ha, hns⟩ | ⟨hs, result, hw, ha⟩
  · exact .inl ⟨hp, ha, fun h => hns (settled_cons hsettle h)⟩
  · exact .inr ⟨hs, result, hw.cons _, ha⟩

/-! ### What a step does -/

/-- A step is the `begin` of a new execution, or the one `complete` or `fail`
of a running execution. -/
inductive StepCase (driver : Option (PgDriver F)) (w w' : World F) (i : Nat) : Prop
  | began {now : Instant} {k : Str × Str} {d : Str} {expires : Except PyExc Instant}
      {accepts : Prop} {r : Except PyExc (IdempotencyResult F)} :
      (∀ p ∈ w.trace, p.1 ≠ i) → w'.trace = (i, .began k d r) :: w.trace →
      BeginStep now k d expires accepts w.store.entries r w'.store.entries →
      StepCase driver w w' i
  | settled {k : Str × Str} {obs : Obs F} {r : Except PyExc Unit}
      {outcome : Except PyExc (IdempotencyResult F) → Prop} :
      running i w.trace = some k → w'.trace = (i, obs) :: w.trace →
      (∀ k d r, obs ≠ .began k d r) → (obs.Settles ↔ r = .ok ()) →
      SettleStep k outcome w.store.entries r w'.store.entries →
      (∀ a, outcome a → r = .ok () →
        ∃ result, a = .ok result ∧ SettledWith driver w'.trace i result) →
      (∀ j, lastStarted k w.trace = some j →
        j = i ∨ Settled w.trace j ∨ w.store.entries k = none) →
      StepCase driver w w' i

theorem step_cases {driver : Option (PgDriver F)} {w w' : World F} {i : Nat} {now : Instant}
    {act : Act F} (hdriver : w.store.driver? = driver) (h : step w i now act = some w')
    (honTime : OnTime w i act) : w'.store.driver? = driver ∧ StepCase driver w w' i := by
  subst hdriver
  cases act with
  | begin namesp key requestDigest ttlSeconds =>
    rw [step] at h
    split_ifs at h with hfresh
    rcases hx : begin now namesp key requestDigest ttlSeconds w.store with ⟨r, s'⟩
    rw [hx] at h
    cases h
    obtain ⟨hd, hstep⟩ := begin_step hx
    exact ⟨hd, .began hfresh rfl hstep⟩
  | complete response =>
    rw [step] at h
    split at h
    · rename_i namesp key hrun
      rcases hx : complete namesp key response w.store with ⟨r, s'⟩
      rw [hx] at h
      cases h
      obtain ⟨hd, hstep⟩ := complete_step hx
      refine ⟨hd, .settled hrun rfl (by simp) Iff.rfl hstep ?_ (honTime.2 _ hrun)⟩
      rintro a ⟨value, hv, ha⟩ rfl
      exact ⟨_, ha honTime.1, .inl ⟨response, value, List.mem_cons_self, hv, rfl⟩⟩
    · cases h
  | fail error =>
    rw [step] at h
    split at h
    · rename_i namesp key hrun
      rcases hx : fail namesp key error w.store with ⟨r, s'⟩
      rw [hx] at h
      cases h
      obtain ⟨hd, hstep⟩ := fail_step hx
      refine ⟨hd, .settled hrun rfl (by simp) Iff.rfl hstep ?_ (honTime _ hrun)⟩
      rintro a rfl rfl
      exact ⟨_, rfl, .inr ⟨error, List.mem_cons_self, rfl⟩⟩
    · cases h

/-- What the trace of a run says: every outcome that `begin` replayed is one of
an execution of the same key and digest, and every execution that settled a
record was the last to start its key. -/
def Provenance (driver : Option (PgDriver F)) (trace : List (Nat × Obs F)) : Prop :=
  (∀ i k d result pre, (i, .began k d (.ok result)) :: pre <:+ trace → result ≠ .started →
    ∃ j, (j, .began k d (.ok .started)) ∈ pre ∧ SettledWith driver pre j result) ∧
  ∀ i obs pre, (i, obs) :: pre <:+ trace → obs.Settles →
    ∃ k, running i pre = some k ∧ lastStarted k pre = some i

/-- The trace of a step: what a new execution saw at its `begin`, and whose
record a running one settled. -/
theorem StepCase.provenance {driver : Option (PgDriver F)} {w w' : World F} {i : Nat}
    (h : StepCase driver w w' i) (hinv : WorldInv driver w) (hw : Provenance driver w.trace) :
    Provenance driver w'.trace := by
  cases h with
  | @began now k d expires accepts r hfresh htrace hstep =>
    rw [htrace]
    constructor
    · intro i' k' d' result pre hpre hne
      rcases List.suffix_cons_iff.mp hpre with heq | hpre
      · cases heq
        generalize hr : (.ok result : Except PyExc (IdempotencyResult F)) = r at hstep
        generalize w'.store.entries = σ' at hstep
        cases hstep with
        | refused _ _ => cases hr
        | conflict _ _ _ _ => cases hr
        -- it did not start, so its answer was in a record that someone had settled
        | started _ _ _ _ => exact absurd (Except.ok.inj hr) hne
        | answered _ he _ hd =>
          subst hd
          obtain ⟨j, -, hbegan, hcases⟩ := hinv.owned _ _ he
          rcases hcases with ⟨-, ha, -⟩ | ⟨-, result', hsettled, ha⟩
          · rw [ha] at hr
            cases hr
          · rw [ha] at hr
            cases hr
            exact ⟨j, hbegan, hsettled⟩
      · exact hw.1 _ _ _ _ _ hpre hne
    · intro i' obs pre hpre hs
      rcases List.suffix_cons_iff.mp hpre with heq | hpre
      · cases heq
        exact absurd hs Obs.not_settles_began
      · exact hw.2 _ _ _ hpre hs
  | @settled k obs r outcome hrun htrace hobs hsettles hstep houtcome honTime =>
    rw [htrace]
    constructor
    · intro i' k' d' result pre hpre hne
      rcases List.suffix_cons_iff.mp hpre with heq | hpre
      · cases heq
        exact absurd rfl (hobs _ _ _)
      · exact hw.1 _ _ _ _ _ hpre hne
    · intro i' obs' pre hpre hs
      rcases List.suffix_cons_iff.mp hpre with heq | hpre
      · cases heq
        refine ⟨k, hrun, ?_⟩
        rw [hsettles.mp hs] at hstep
        generalize w'.store.entries = σ' at hstep
        cases hstep with
        | settled he hp _ _ =>
          obtain ⟨j, hown⟩ := hinv.owned _ _ he
          -- a pending record that is settled on time is that of the party itself
          have hij := hown.eq_of_pending hp he honTime
          subst hij
          exact hown.1
      · exact hw.2 _ _ _ hpre hs

/-- An execution runs on one key only. -/
theorem StepCase.once {driver : Option (PgDriver F)} {w w' : World F} {i : Nat}
    (h : StepCase driver w w' i) (hinv : WorldInv driver w) {j : Nat} {k : Str × Str}
    (hrun : running j w'.trace = some k) {p : Nat × Obs F} (hp : p ∈ w'.trace) (hj : p.1 = j) :
    ∃ d, p.2 = .began k d (.ok .started) := by
  cases h with
  | @began now k' d expires accepts r hfresh htrace hstep =>
    rw [htrace] at hrun hp
    rw [running] at hrun
    split_ifs at hrun with hij
    · rcases List.mem_cons.mp hp with rfl | hp
      · exact Obs.startedKey_eq_some hrun
      · exact absurd (hj.trans hij.symm) (hfresh p hp)
    · rcases List.mem_cons.mp hp with rfl | hp
      · exact absurd hj hij
      · exact hinv.once j k hrun p hp hj
  | @settled k' obs r outcome _ htrace hobs hsettles hstep houtcome honTime =>
    rw [htrace] at hrun hp
    rw [running] at hrun
    split_ifs at hrun with hij
    · obtain ⟨d, hd⟩ := Obs.startedKey_eq_some hrun
      exact absurd hd (hobs _ _ _)
    · rcases List.mem_cons.mp hp with rfl | hp
      · exact absurd hj hij
      · exact hinv.once j k hrun p hp hj

theorem StepCase.owned {driver : Option (PgDriver F)} {w w' : World F} {i : Nat}
    (h : StepCase driver w w' i) (hinv : WorldInv driver w) {k' : Str × Str} {e' : Entry F}
    (he' : w'.store.entries k' = some e') : ∃ j, OwnedBy driver w'.trace k' e' j := by
  cases h with
  | @began now k d expires accepts r hfresh htrace hstep =>
    rw [htrace]
    -- the entries that are left are those of the executions that own them
    have hkeep : ∀ {σ' : Str × Str → Option (Entry F)} {k' : Str × Str} {e' : Entry F},
        Swept Entry.Late now w.store.entries σ' → σ' k' = some e' →
        (r = .ok .started → k' ≠ k) →
        ∃ j, OwnedBy driver ((i, .began k d r) :: w.trace) k' e' j := by
      intro σ' k' e' hswept he' hne
      rcases hswept k' with heq | ⟨hnone, -⟩
      · obtain ⟨j, hown⟩ := hinv.owned k' e' (heq.symm.trans he')
        refine ⟨j, hown.cons (fun d' hd' => ?_) fun _ => Obs.not_settles_began⟩
        cases hd'
        exact hne rfl rfl
      · rw [hnone] at he'
        cases he'
    generalize w'.store.entries = σ' at hstep he'
    cases hstep with
    | refused exc _ => exact hkeep swept_refl he' fun h => by cases h
    | conflict hswept _ _ _ => exact hkeep hswept he' fun h => by cases h
    | answered hswept he _ _ =>
      refine hkeep hswept he' fun h => ?_
      exact absurd h (entries_answer_ne he)
    | @started σ' t hswept hnone _ _ =>
      by_cases hk : k' = k
      · subst hk
        rw [Function.update_self] at he'
        cases he'
        refine ⟨i, if_pos rfl, List.mem_cons_self, .inl ⟨rfl, rfl, fun hs => ?_⟩⟩
        rcases settled_cons (fun _ => Obs.not_settles_began) hs with ⟨_, hmem⟩ | ⟨_, hmem⟩
        · exact hfresh _ hmem rfl
        · exact hfresh _ hmem rfl
      · rw [Function.update_of_ne hk] at he'
        exact hkeep hswept he' fun _ => hk
  | @settled k obs r outcome hrun htrace hobs hsettles hstep houtcome honTime =>
    rw [htrace] at houtcome ⊢
    have hother : ∀ {k' e'}, w.store.entries k' = some e' → (r = .ok () → k' ≠ k) →
        ∃ j, OwnedBy driver ((i, obs) :: w.trace) k' e' j := by
      intro k' e' he' hne
      obtain ⟨j, hown⟩ := hinv.owned k' e' he'
      refine ⟨j, hown.cons (fun _ => hobs _ _ _) fun hij hs => hne (hsettles.mp hs) ?_⟩
      obtain ⟨d, hd⟩ := began_of_lastStarted hown.1
      obtain ⟨d', hd'⟩ := hinv.once i k hrun _ hd hij.symm
      cases hd'
      rfl
    generalize w'.store.entries = σ' at hstep he'
    cases hstep with
    | refused exc => exact hother he' fun h => by cases h
    | @settled e status answer he hp hs ho =>
      by_cases hk : k' = k
      · subst hk
        rw [Function.update_self] at he'
        cases he'
        obtain ⟨j, hown⟩ := hinv.owned k' e he
        have hij := hown.eq_of_pending hp he honTime
        subst hij
        obtain ⟨hlast, hbegan, -⟩ := hown
        obtain ⟨result, ha, hw⟩ := houtcome answer ho rfl
        exact ⟨j, (lastStarted_cons fun _ => hobs _ _ _).trans hlast,
          List.mem_cons_of_mem _ hbegan, .inr ⟨hs, result, hw, ha⟩⟩
      · rw [Function.update_of_ne hk] at he'
        exact hother he' fun _ => hk

theorem step_inv {driver : Option (PgDriver F)} {w w' : World F} {i : Nat} {now : Instant}
    {act : Act F} (hinv : WorldInv driver w) (h : step w i now act = some w')
    (honTime : OnTime w i act) : WorldInv driver w' := by
  obtain ⟨hdriver, hcase⟩ := step_cases hinv.driver_eq h honTime
  exact ⟨hdriver, fun _ _ he => hcase.owned hinv he,
    fun _ _ hrun _ hp hj => hcase.once hinv hrun hp hj⟩

/-! ### Runs -/

/-- A world in which nothing has happened. -/
def World.new (driver : Option (PgDriver F)) : World F := ⟨empty driver, []⟩

theorem worldInv_new (driver : Option (PgDriver F)) : WorldInv driver (World.new driver) where
  driver_eq := by cases driver <;> rfl
  owned := fun k e he => by cases driver <;> cases he
  once := fun i k h => by cases h

theorem provenance_nil (driver : Option (PgDriver F)) : Provenance driver [] :=
  ⟨fun _ _ _ _ _ h => by simp at h, fun _ _ _ h => by simp at h⟩

theorem runSteps_append (xs ys : List (Nat × Instant × Act F)) (w : World F) :
    runSteps (xs ++ ys) w = (runSteps xs w).bind (runSteps ys) := by
  induction xs generalizing w with
  | nil => rfl
  | cons x xs ih =>
    obtain ⟨i, now, act⟩ := x
    simp only [List.cons_append, runSteps, Option.bind_assoc]
    exact congrArg _ (funext ih)

theorem runSteps_inv {driver : Option (PgDriver F)} {steps : List (Nat × Instant × Act F)}
    {w : World F} (h : runSteps steps (.new driver) = some w)
    (honTime : ∀ pre i now act post, steps = pre ++ (i, now, act) :: post →
      ∀ u, runSteps pre (.new driver) = some u → OnTime u i act) :
    WorldInv driver w ∧ Provenance driver w.trace := by
  induction steps using List.reverseRecOn generalizing w with
  | nil =>
    cases h
    exact ⟨worldInv_new driver, provenance_nil driver⟩
  | append_singleton steps x ih =>
    obtain ⟨i, now, act⟩ := x
    rw [runSteps_append] at h
    obtain ⟨u, hu, hstep⟩ := Option.bind_eq_some_iff.mp h
    obtain ⟨w', hstep, hw⟩ := Option.bind_eq_some_iff.mp hstep
    cases hw
    obtain ⟨hinv, hprov⟩ := ih hu fun pre j t a post hsteps =>
      honTime pre j t a (post ++ [(i, now, act)]) (by simp [hsteps])
    have hact := honTime steps i now act [] rfl u hu
    refine ⟨step_inv hinv hstep hact, ?_⟩
    exact (step_cases hinv.driver_eq hstep hact).2.provenance hinv hprov

/-- In every run whose executions settle on time, whenever `begin` replays an
outcome, an execution that began with the same namespace, key and digest was
started and settled with it before; and whenever an execution settles a
record, it is the one that was last to start the key. -/
theorem provenance_of_onTime {driver : Option (PgDriver F)} {steps : List (Nat × Instant × Act F)}
    {w : World F} (h : runSteps steps (.new driver) = some w)
    (honTime : ∀ pre i now act post, steps = pre ++ (i, now, act) :: post →
      ∀ u, runSteps pre (.new driver) = some u → OnTime u i act) :
    Provenance driver w.trace :=
  (runSteps_inv h honTime).2

def columnDriver : PgDriver Half := ⟨Json.loads⟩

/-- An execution that completes before its replay. -/
def promptSettle : List (Nat × Instant × Act Half) :=
  [(1, firstInstant, .begin (lit "n") (lit "k") (lit "d") 60),
    (1, firstInstant, .complete (.int 1)),
    (2, firstInstant, .begin (lit "n") (lit "k") (lit "d") 60)]

theorem provenance_promptSettle : ∃ w, runSteps promptSettle (.new (some columnDriver)) = some w ∧
    Provenance (some columnDriver) w.trace := by
  have hrun : runSteps promptSettle (.new (some columnDriver)) = some _ := rfl
  refine ⟨_, hrun, provenance_of_onTime hrun fun pre i now act post hsteps u hu => ?_⟩
  match pre with
  | [] =>
    cases hsteps
    trivial
  | [_] =>
    cases hsteps
    cases hu
    refine ⟨fun _ text h => ?_, fun k hk j hj => .inl ?_⟩
    · cases h
    · cases hk
      cases hj
      rfl
  | [_, _] =>
    cases hsteps
    trivial
  | _ :: _ :: _ :: pre => simp [promptSettle] at hsteps

def secondInstant : Instant := ⟨2000000, by decide⟩

/-- An execution that outlives its record and completes the next one. -/
def lateSettle : List (Nat × Instant × Act Half) :=
  [(1, firstInstant, .begin (lit "n") (lit "k") (lit "d1") 1),
    (2, secondInstant, .begin (lit "n") (lit "k") (lit "d2") 60),
    (1, secondInstant, .complete (.int 1)),
    (3, secondInstant, .begin (lit "n") (lit "k") (lit "d2") 60)]

/-- What the executions of `lateSettle` see. -/
def lateTrace : List (Nat × Obs Half) :=
  [(3, .began (lit "n", lit "k") (lit "d2") (.ok (.completed (.int 1)))),
    (1, .completed (.int 1) (.ok ())),
    (2, .began (lit "n", lit "k") (lit "d2") (.ok .started)),
    (1, .began (lit "n", lit "k") (lit "d1") (.ok .started))]

theorem not_provenance_lateTrace : ¬Provenance (some columnDriver) lateTrace := by
  intro h
  obtain ⟨j, hbegan, hsettled⟩ := h.1 3 _ _ _ _ List.suffix_rfl (by simp)
  have hj : j = 2 := by
    rcases List.mem_cons.mp hbegan with heq | hbegan
    · cases heq
    rcases List.mem_cons.mp hbegan with heq | hbegan
    · cases heq
      rfl
    · cases List.mem_singleton.mp hbegan
  subst hj
  rcases hsettled with ⟨response, value, hmem, -⟩ | ⟨error, hmem, -⟩ <;> simp at hmem

/-- The request with the digest `d2` is answered with the result of `d1`. -/
theorem lateSettle_counterexample :
    (∃ w, runSteps lateSettle (.new (some columnDriver)) = some w ∧ w.trace = lateTrace) ∧
      ¬Provenance (some columnDriver) lateTrace :=
  ⟨⟨_, rfl, rfl⟩, not_provenance_lateTrace⟩

end IdempotencyStore

end AgentRoi
