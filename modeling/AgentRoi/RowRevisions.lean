/-
`expected_revision` and the revisions of `active_policies`, `policy_rollouts`
and `agents`.

* `StoreWorld.states` — what the tables were, newest first;
* `NoLostUpdates` — a revision of a row names one content, a write with an
  expected revision overwrites the row of that revision, and a stale one
  changes nothing;
* `no_lost_updates_iff` — it holds unless a rollout is started again for a
  policy whose earlier rollout was deleted;
* `restarted_rollout_loses_update` — a cancelled rollout, started again,
  begins at revision 1, and is overwritten by a caller who read the first.
-/
import AgentRoi.ControlPlaneMethods

namespace AgentRoi

open RevisionHistory

variable {F V T : Type}

/-- What the tables were, newest first. -/
def StoreWorld.states (s : StoreWorld F V T) : List (ControlPlaneTables V T) :=
  s.tables :: s.log.map Prod.snd

namespace PolicyStore

variable [PyFloat F] {store : PolicyStore F V T} {H : Sha256} {s : StoreWorld F V T}

/-- What `expected_revision` is for. -/
structure NoLostUpdates (store : PolicyStore F V T) (s : StoreWorld F V T) : Prop where
  active : ∀ key, Stable ActiveRow.revision (s.states.map fun t => t.activeRow key)
  rollouts : ∀ key, Stable RolloutRow.revision (s.states.map fun t => t.rollout key)
  agents : ∀ key, Stable AgentRow.revision (s.states.map fun t => t.agent key)
  overwrites : ∀ w t, (w, t) ∈ s.log → ∀ r, w.expected = some r →
    ∃ n, w.found t = some n ∧ (n : Int) = r
  stale : ∀ w r, w.expected = some r → (w.found s.tables).map Int.ofNat ≠ some r →
    store.write w s.tables =
      (store.bindWrite r w >>= fun _ => .error (controlPlaneError (conflict w)), s.tables)

/-- A property of single writes holds of the whole history. -/
theorem History.rowHistory (h : store.History s) {ρ : Type} {revision : ρ → ℕ}
    {row : ControlPlaneTables V T → Option ρ} (hempty : row .empty = none)
    (hwrite : ∀ w t t', store.write w t = (.ok (), t') → Change revision (row t) (row t')) :
    RowHistory revision (s.states.map row) := by
  induction h with
  | init =>
    show RowHistory revision [row .empty]
    rw [hempty]
    exact .init
  | write _ _ hw ih => exact .step ih (hwrite _ _ _ hw)

theorem History.kept (h : store.History s) {ρ : Type} {row : ControlPlaneTables V T → Option ρ}
    (hwrite : ∀ w t t', store.write w t = (.ok (), t') → (row t).isSome → (row t').isSome) :
    (s.states.map row).IsChain fun new old => old.isSome → new.isSome := by
  induction h with
  | init => exact List.isChain_singleton _
  | write _ _ hw ih => exact List.isChain_cons_cons.mpr ⟨hwrite _ _ _ hw, ih⟩

theorem History.active_stable (h : store.History s) (key : PolicyKey) :
    Stable ActiveRow.revision (s.states.map fun t => t.activeRow key) := by
  have hhistory : RowHistory ActiveRow.revision (s.states.map fun t => t.activeRow key) := by
    refine h.rowHistory rfl fun w t t' hw => ?_
    rcases activeRow_of_write key hw with hsame | ⟨_, _, _, _, row, -, hrow, -, hrevision⟩
    · rw [hsame]
      exact .same _
    · rw [hrow]
      exact .written hrevision
  refine (stable_iff hhistory).mpr (not_recreated (h.kept fun w t t' hw hsome => ?_))
  rcases activeRow_of_write key hw with hsame | ⟨_, _, _, _, row, -, hrow, -, -⟩
  · rw [hsame]
    exact hsome
  · rw [hrow]
    rfl

theorem History.agents_stable (h : store.History s) (key : AgentKey) :
    Stable AgentRow.revision (s.states.map fun t => t.agent key) := by
  have hhistory : RowHistory AgentRow.revision (s.states.map fun t => t.agent key) := by
    refine h.rowHistory rfl fun w t t' hw => ?_
    rcases agent_of_write key hw with hsame | ⟨row, hrow, hrevision⟩
    · rw [hsame]
      exact .same _
    · rw [hrow]
      exact .written hrevision
  refine (stable_iff hhistory).mpr (not_recreated (h.kept fun w t t' hw hsome => ?_))
  rcases agent_of_write key hw with hsame | ⟨row, hrow, -⟩
  · rw [hsame]
    exact hsome
  · rw [hrow]
    rfl

theorem History.rollout_history (h : store.History s) (key : PolicyKey) :
    RowHistory RolloutRow.revision (s.states.map fun t => t.rollout key) := by
  refine h.rowHistory rfl fun w t t' hw => ?_
  rcases rollout_of_write key hw with
    hsame | hnone | ⟨_, _, _, _, _, _, _, row, -, hrow, -, -, hrevision⟩
  · rw [hsame]
    exact .same _
  · rw [hnone]
    exact .deleted
  · rw [hrow]
    exact .written hrevision

theorem History.overwrites (h : store.History s) : ∀ w t, (w, t) ∈ s.log → ∀ r,
    w.expected = some r → ∃ n, w.found t = some n ∧ (n : Int) = r := by
  induction h with
  | init =>
    intro w t hmem
    cases hmem
  | write _ _ hw ih =>
    intro w t hmem r hr
    rcases List.mem_cons.mp hmem with heq | hmem
    · cases heq
      exact expected_of_write hw hr
    · exact ih w t hmem r hr

/-- No update is lost unless a rollout is started again where one was deleted. -/
theorem no_lost_updates_iff {pool : Pool ℕ (StoreWorld F V T) PyExc Unit}
    (h : StoreReach store H pool) : NoLostUpdates store pool.state ↔
      ∀ key, ¬ Recreated (pool.state.states.map fun t => t.rollout key) := by
  have hhistory := h.history
  constructor
  · exact fun hnone key => (stable_iff (hhistory.rollout_history key)).mp (hnone.rollouts key)
  · exact fun hkept => {
      active := hhistory.active_stable
      rollouts := fun key => (stable_iff (hhistory.rollout_history key)).mpr (hkept key)
      agents := hhistory.agents_stable
      overwrites := hhistory.overwrites
      stale := fun _ _ hr hstale => write_stale hr hstale }

theorem no_lost_updates_sample :
    (runSample rolloutPrograms).tables.rollout sampleKey =
      some ⟨sampleKey, lit "1", lit "3", 50, lit "seed", [], [], 2⟩ ∧
    (NoLostUpdates sqliteStore (runSample rolloutPrograms) ↔
      ∀ key, ¬ Recreated ((runSample rolloutPrograms).states.map fun t => t.rollout key)) :=
  ⟨rolloutPrograms_rollout, no_lost_updates_iff (runSample_reach rolloutPrograms_store)⟩

/-- A rollout of version 2 is cancelled, one of version 3 is started, and a
caller who read the first at revision 1 overwrites it. -/
def restartPrograms : List SampleProgram :=
  samplePrograms ++ [rolloutSample "2" none, sqliteStore.cancelRollout sampleKey,
    rolloutSample "3" none, rolloutSample "2" (some 1)]

theorem restartPrograms_store : ∀ p ∈ restartPrograms, StoreProgram sqliteStore default p := by
  simp only [restartPrograms, List.mem_append, List.mem_cons, List.not_mem_nil, or_false]
  rintro p (hp | rfl | rfl | rfl | rfl)
  · exact samplePrograms_store p hp
  · exact .startRollout _ _ _ _ _ _ _
  · exact .cancelRollout _
  · exact .startRollout _ _ _ _ _ _ _
  · exact .startRollout _ _ _ _ _ _ _

/-- The two rollouts of revision 1 differ, and the second is lost. -/
theorem restarted_rollout_loses_update :
    ¬ ∀ pool, StoreReach (sqliteStore : PolicyStore Half Str Str) default pool →
      NoLostUpdates sqliteStore pool.state := by
  intro hclaim
  have hrows : (runSample restartPrograms).states.map (fun t => t.rollout sampleKey) =
      [some ⟨sampleKey, lit "1", lit "2", 50, lit "seed", [], [], 2⟩] ++
        some ⟨sampleKey, lit "1", lit "3", 50, lit "seed", [], [], 1⟩ :: ([none] ++
          some ⟨sampleKey, lit "1", lit "2", 50, lit "seed", [], [], 1⟩ ::
            [none, none, none, none, none]) := by decide +kernel
  have hsame := ((hclaim _ (runSample_reach restartPrograms_store)).rollouts sampleKey
    _ _ _ _ _ hrows rfl).1
  have hcandidate : lit "3" = lit "2" := congrArg RolloutRow.candidateVersion hsame
  exact absurd hcandidate (by decide)

end PolicyStore

end AgentRoi
