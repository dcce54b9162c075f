/-
Rollouts and the active policy.

* `Consistent`, `Resolves` — a rollout splits the agents between the active
  version and another, and every agent gets one of the two;
* `consistent_iff` — it holds all the time exactly when every rollout was
  written while the version that `start_rollout` had read was still active;
* `stale_rollout` — an activation between the read and the write.
-/
import AgentRoi.RowRevisions

namespace AgentRoi

variable {F V T : Type}

namespace PolicyStore

variable [PyFloat F] {store : PolicyStore F V T} {H : Sha256} {s s' : StoreWorld F V T}
  {t t' : ControlPlaneTables V T} {key : PolicyKey}

/-- The primary version of a rollout is the active one, and its candidate is
another. -/
def Consistent (t : ControlPlaneTables V T) (key : PolicyKey) : Prop :=
  ∀ row, t.rollout key = some row → ∃ active, t.activeRow key = some active ∧
    row.primaryVersion = active.version ∧ row.candidateVersion ≠ active.version

/-- Where nothing else runs, `resolve_active` answers with the active bundle
or with the candidate of the rollout. -/
def Resolves (store : PolicyStore F V T) (H : Sha256) (t : ControlPlaneTables V T)
    (key : PolicyKey) : Prop :=
  ∀ log agentId bundle s', (store.resolveActive H key agentId).run ⟨t, log⟩ = (.ok bundle, s') →
    (∃ active, t.activeRow key = some active ∧ bundle.version = active.version) ∨
      ∃ row, t.rollout key = some row ∧ bundle.version = row.candidateVersion

/-- A rollout is written while its primary version is the active one. -/
def WritesCurrent (t : ControlPlaneTables V T) : PolicyWrite F → Prop
  | .startRollout key primary _ _ _ _ _ _ =>
    ∃ active, t.activeRow key = some active ∧ active.version = primary
  | _ => True

/-! ### One write -/

theorem rollout_of_activate {version now activatedBy : Str} {expected : Option Int} {u : Unit}
    (h : store.write (.activate key version now activatedBy expected) t = (.ok u, t')) :
    t'.rollout key = none := by
  obtain ⟨row, hrow, -, rfl⟩ := write_activate h
  exact ControlPlaneTables.rollout_deleteRollout_self

/-- What was written while its primary version was active is consistent. -/
theorem consistent_of_write {w : PolicyWrite F} {u : Unit} (hw : w.Checked)
    (h : store.write w t = (.ok u, t')) (hcurrent : WritesCurrent t w) (hc : Consistent t key) :
    Consistent t' key := by
  rcases activeRow_of_write key h with hactive | ⟨_, _, _, _, _, rfl, -⟩
  · rcases rollout_of_write key h with
      hsame | hnone | ⟨primary, candidate, _, _, _, _, _, row, rfl, hrow, hprimary, hcandidate, -⟩
    · rw [Consistent, hsame, hactive]
      exact hc
    · intro row hrow
      rw [hnone] at hrow
      cases hrow
    · intro row' hrow'
      obtain rfl : row = row' := Option.some.inj (hrow.symm.trans hrow')
      obtain ⟨active, hactive', hversion⟩ := hcurrent
      have hne : primary ≠ candidate := hw
      rw [hactive]
      refine ⟨active, hactive', hprimary.trans hversion.symm, ?_⟩
      rw [hcandidate, hversion]
      exact hne.symm
  · -- an activation leaves no rollout
    intro row hrow
    rw [rollout_of_activate h] at hrow
    cases hrow

/-- A rollout that is consistent once it is written was written while its
primary version was active. -/
theorem current_of_consistent {w : PolicyWrite F} {u : Unit} (h : store.write w t = (.ok u, t'))
    (hc : ∀ key, Consistent t' key) : WritesCurrent t w := by
  cases w with
  | startRollout key primary candidate percentage seed now updatedBy expected =>
    obtain ⟨row, hrow, hnew, rfl⟩ := write_startRollout h
    obtain ⟨rfl, hprimary, -⟩ := newRollout_eq_ok hnew
    obtain ⟨active, hactive, hversion, -⟩ := hc row.key row
      (ControlPlaneTables.rollout_putRollout_self (h := hrow))
    exact ⟨active, hactive, hversion.symm.trans hprimary⟩
  | _ => trivial

/-! ### Resolution -/

omit [PyFloat F] in
/-- Where the rollout is consistent, every agent gets one of its versions. -/
theorem Consistent.resolves (hc : Consistent t key) : Resolves store H t key := by
  intro log agentId bundle s' h
  obtain ⟨primary, s₁, hactive, h⟩ := Proc.run_bind_eq_ok.mp h
  obtain ⟨rfl, active, hrow, hversion⟩ := getActive_eq_ok hactive
  obtain ⟨r, s₂, hrollout, h⟩ := Proc.run_bind_eq_ok.mp h
  obtain ⟨hfound, rfl⟩ := attempt_reading_eq_ok.mp hrollout
  cases r with
  | error e =>
    cases e with
    | keyError message =>
      cases h
      exact .inl ⟨active, hrow, hversion⟩
    | _ => cases h
  | ok rollout =>
    have hrolloutRow := findRollout_eq_ok hfound
    obtain ⟨active', hactive', hprimary, -⟩ := hc rollout hrolloutRow
    obtain rfl : active = active' := Option.some.inj (hrow.symm.trans hactive')
    obtain ⟨bucket, s₃, hbucket, h⟩ := Proc.run_bind_eq_ok.mp h
    obtain ⟨-, -, hanswer⟩ := getBundle_eq_ok h
    split at hanswer
    · exact .inr ⟨rollout, hrolloutRow, hanswer⟩
    · exact .inl ⟨active, hrow, hanswer.trans hprimary⟩

/-! ### Whole histories -/

theorem History.consistent (h : store.History s)
    (hcurrent : ∀ w t, (w, t) ∈ s.log → WritesCurrent t w) :
    ∀ t ∈ s.states, ∀ key, Consistent t key := by
  induction h with
  | init =>
    intro t ht key row hrow
    obtain rfl : t = .empty := List.mem_singleton.mp ht
    cases hrow
  | @write s w t' _ hw hwrite ih =>
    have hold := ih fun w t hmem => hcurrent w t (List.mem_cons_of_mem _ hmem)
    intro t ht key
    rcases List.mem_cons.mp ht with rfl | ht
    · exact consistent_of_write hw hwrite (hcurrent w s.tables List.mem_cons_self)
        (hold s.tables List.mem_cons_self key)
    · exact hold t ht key

theorem History.current (h : store.History s)
    (hconsistent : ∀ t ∈ s.states, ∀ key, Consistent t key) :
    ∀ w t, (w, t) ∈ s.log → WritesCurrent t w := by
  induction h with
  | init =>
    intro w t hmem
    cases hmem
  | @write s w t' _ hw hwrite ih =>
    have hold := ih fun t ht => hconsistent t (List.mem_cons_of_mem _ ht)
    intro w' t hmem
    rcases List.mem_cons.mp hmem with heq | hmem
    · cases heq
      exact current_of_consistent hwrite (hconsistent t' List.mem_cons_self)
    · exact hold w' t hmem

/-- The rollouts and the active versions agree all the time, and every agent
gets one of the two, exactly when every rollout was written while the version
read for it was active. -/
theorem consistent_iff {pool : Pool ℕ (StoreWorld F V T) PyExc Unit} (h : StoreReach store H pool) :
    (∀ t ∈ pool.state.states, ∀ key, Consistent t key ∧ Resolves store H t key) ↔
      ∀ w t, (w, t) ∈ pool.state.log → WritesCurrent t w := by
  constructor
  · exact fun hall => h.history.current fun t ht key => (hall t ht key).1
  · intro hcurrent t ht key
    have hc := h.history.consistent hcurrent t ht key
    exact ⟨hc, hc.resolves⟩

theorem consistent_sample :
    (runSample rolloutPrograms).tables.rollout sampleKey =
      some ⟨sampleKey, lit "1", lit "3", 50, lit "seed", [], [], 2⟩ ∧
    ((∀ t ∈ (runSample rolloutPrograms).states, ∀ key, Consistent t key ∧
        Resolves (sqliteStore : PolicyStore Half Str Str) default t key) ↔
      ∀ w t, (w, t) ∈ (runSample rolloutPrograms).log → WritesCurrent t w) :=
  ⟨rolloutPrograms_rollout, consistent_iff (runSample_reach rolloutPrograms_store)⟩

/-- `start_rollout` has read the active version 1, and waits to write. -/
def waitingRollout : SampleProgram × StoreWorld Half Str Str :=
  (rolloutSample "2" none).after 4 (runSample samplePrograms)

/-- Version 3 is activated in the meantime. -/
def interrupted : SampleProgram × StoreWorld Half Str Str :=
  (activateSample "3").after 3 waitingRollout.2

def staleRollout : SampleProgram × StoreWorld Half Str Str :=
  waitingRollout.1.after 3 interrupted.2

theorem staleRollout_reach : ∃ procs, StoreReach (sqliteStore : PolicyStore Half Str Str) default
    ⟨staleRollout.2, procs⟩ := by
  have hstart : StoreReach (sqliteStore : PolicyStore Half Str Str) default
      ⟨runSample samplePrograms, Function.update (fun _ => none) 0 (some (rolloutSample "2" none))⟩ :=
    .start (runSample_reach samplePrograms_store) rfl (.startRollout _ _ _ _ _ _ _)
  have hother := (hstart.after 4).start (i := 1) rfl (.activate sampleKey (lit "3") [] [] none)
  have hactivated := hother.after 3
  rw [Function.update_comm (by decide)] at hactivated
  exact ⟨_, hactivated.after 3⟩

/-- The rollout splits the agents between versions 1 and 2, and version 3 is
active. -/
theorem stale_rollout :
    ¬ ∀ pool, StoreReach (sqliteStore : PolicyStore Half Str Str) default pool →
      ∀ t ∈ pool.state.states, ∀ key, Consistent t key ∧ Resolves (sqliteStore : PolicyStore Half Str Str) default t key := by
  intro hclaim
  obtain ⟨procs, hreach⟩ := staleRollout_reach
  have hrollout : staleRollout.2.tables.rollout sampleKey =
      some ⟨sampleKey, lit "1", lit "2", 50, lit "seed", [], [], 1⟩ := by decide +kernel
  have hactive : staleRollout.2.tables.activeRow sampleKey =
      some ⟨sampleKey, lit "3", [], [], 2⟩ := by decide +kernel
  obtain ⟨active, hrow, hprimary, -⟩ :=
    (hclaim _ hreach _ List.mem_cons_self sampleKey).1 _ hrollout
  obtain rfl := Option.some.inj (hactive.symm.trans hrow)
  have hversion : lit "1" = lit "3" := hprimary
  exact absurd hversion (by decide)

end PolicyStore

end AgentRoi
