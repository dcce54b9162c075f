/-
Canary rollouts.

* `CanaryRun` — the writes of a run that rolls out one candidate, under the
  default seed and with percentages that do not decrease, and activates other
  versions in between;
* `rollout_origin`, `active_origin` — what is in force was written by one of
  the writes;
* `resolve_sticky` — an agent that had the candidate has it again;
* `canary_assignment` — so it is in both stores, whatever the administrators
  do, and the two give every agent the same version after the same writes.
-/
import AgentRoi.PolicyReplay

namespace AgentRoi

variable {F V T : Type}

/-- The percentage of the rollout that a write starts for the policy. -/
def PolicyWrite.percentageFor (key : PolicyKey) : PolicyWrite F → Option Int
  | .startRollout k _ _ percentage _ _ _ _ => if k = key then some percentage else none
  | _ => none

namespace PolicyStore

/-- The writes of a run, the newest first, are free for other policies. -/
structure CanaryRun [PyFloat F] (H : Sha256) (key : PolicyKey) (candidate : Str)
    (writes : List (PolicyWrite F)) : Prop where
  started : ∀ primary version percentage seed now updatedBy expected,
    .startRollout key primary version percentage seed now updatedBy expected ∈ writes →
      version = candidate ∧ seedOr (F := F) H key candidate [] = .ok seed
  activated : ∀ version now activatedBy expected,
    .activate key version now activatedBy expected ∈ writes → version ≠ candidate
  rising : (writes.filterMap (PolicyWrite.percentageFor key)).Pairwise (· ≥ ·)

end PolicyStore

namespace PolicyView

/-- The version is neither active nor in a rollout. -/
structure Idle (view : PolicyView) (version : Str) : Prop where
  active : view.active ≠ some version
  rollout : ∀ split, view.rollout = some split → split.primary ≠ version ∧ split.candidate ≠ version

variable {H : Sha256} {key : PolicyKey} {candidate agentId : Str} {view : PolicyView}

/-- What a list of writes makes of a view, the newest first. -/
abbrev afterAll (key : PolicyKey) (writes : List (PolicyWrite F)) (view : PolicyView) : PolicyView :=
  writes.foldr (fun w view => view.after key w) view

/-- A rollout in force was there before, or one of the writes started it. -/
theorem rollout_origin {writes : List (PolicyWrite F)} {split : PolicySplit}
    (h : (afterAll key writes view).rollout = some split) : view.rollout = some split ∨
      ∃ now updatedBy expected, .startRollout key split.primary split.candidate split.percentage
        split.seed now updatedBy expected ∈ writes := by
  induction writes with
  | nil => exact .inl h
  | cons w writes ih =>
    have hold : (afterAll key writes view).rollout = some split → view.rollout = some split ∨
        ∃ now updatedBy expected, .startRollout key split.primary split.candidate split.percentage
          split.seed now updatedBy expected ∈ w :: writes := by
      intro hrollout
      rcases ih hrollout with hview | ⟨now, updatedBy, expected, hmem⟩
      · exact .inl hview
      · exact .inr ⟨now, updatedBy, expected, List.mem_cons_of_mem w hmem⟩
    change ((afterAll key writes view).after key w).rollout = some split at h
    cases w with
    | startRollout k primary version percentage seed now updatedBy expected =>
      by_cases hk : k = key
      · subst hk
        simp only [after, if_true] at h
        cases h
        exact .inr ⟨now, updatedBy, expected, List.mem_cons_self⟩
      · simp only [after, if_neg hk] at h
        exact hold h
    | activate k version now activatedBy expected =>
      by_cases hk : k = key
      · simp [after, hk] at h
      · simp only [after, if_neg hk] at h
        exact hold h
    | cancelRollout k =>
      by_cases hk : k = key
      · simp [after, hk] at h
      · simp only [after, if_neg hk] at h
        exact hold h
    | _ => exact hold h

/-- The active version was active before, or one of the writes activated it. -/
theorem active_origin {writes : List (PolicyWrite F)} {version : Str}
    (h : (afterAll key writes view).active = some version) : view.active = some version ∨
      ∃ now activatedBy expected, .activate key version now activatedBy expected ∈ writes := by
  induction writes with
  | nil => exact .inl h
  | cons w writes ih =>
    have hold : (afterAll key writes view).active = some version → view.active = some version ∨
        ∃ now activatedBy expected,
          .activate key version now activatedBy expected ∈ w :: writes := by
      intro hactive
      rcases ih hactive with hview | ⟨now, activatedBy, expected, hmem⟩
      · exact .inl hview
      · exact .inr ⟨now, activatedBy, expected, List.mem_cons_of_mem w hmem⟩
    change ((afterAll key writes view).after key w).active = some version at h
    cases w with
    | activate k v now activatedBy expected =>
      by_cases hk : k = key
      · subst hk
        simp only [after, if_true] at h
        cases h
        exact .inr ⟨now, activatedBy, expected, List.mem_cons_self⟩
      · simp only [after, if_neg hk] at h
        exact hold h
    | startRollout k primary v percentage seed now updatedBy expected =>
      refine hold (h.symm.trans ?_).symm
      rw [after]
      split <;> rfl
    | cancelRollout k =>
      refine hold (h.symm.trans ?_).symm
      rw [after]
      split <;> rfl
    | _ => exact hold h

/-- A policy that has an active version keeps one. -/
theorem active_kept {writes : List (PolicyWrite F)} (h : view.active.isSome) :
    (afterAll key writes view).active.isSome := by
  induction writes with
  | nil => exact h
  | cons w writes ih =>
    show ((afterAll key writes view).after key w).active.isSome
    cases w with
    | activate => rw [after]; split; exacts [rfl, ih]
    | startRollout => rw [after]; split <;> exact ih
    | cancelRollout => rw [after]; split <;> exact ih
    | _ => exact ih

theorem mem_percentages {writes : List (PolicyWrite F)} {primary version : Str} {percentage : Int}
    {seed now updatedBy : Str} {expected : Option Int}
    (h : .startRollout key primary version percentage seed now updatedBy expected ∈ writes) :
    percentage ∈ writes.filterMap (PolicyWrite.percentageFor key) :=
  List.mem_filterMap.mpr ⟨_, h, if_pos rfl⟩

/-- In a run that rolls out the candidate, an agent that had it has it again:
the seed is the same, and the percentage is at least what it was. -/
theorem resolve_sticky [PyFloat F] {later earlier : List (PolicyWrite F)}
    (hrun : PolicyStore.CanaryRun H key candidate (later ++ earlier))
    (hchecked : ∀ w ∈ later ++ earlier, w.Checked) (hidle : view.Idle candidate)
    (hgot : (afterAll key earlier view).resolve H key agentId = some candidate)
    {split : PolicySplit}
    (hforce : (afterAll key later (afterAll key earlier view)).rollout = some split)
    (hcandidate : split.candidate = candidate) :
    (afterAll key later (afterAll key earlier view)).resolve H key agentId = some candidate := by
  obtain ⟨active, hactive, hresolved⟩ := Option.bind_eq_some_iff.mp hgot
  have hother : active ≠ candidate := by
    rcases active_origin hactive with hbefore | ⟨now, activatedBy, expected, hmem⟩
    · exact fun heq => hidle.active (heq ▸ hbefore)
    · exact hrun.activated _ _ _ _ (List.mem_append_right later hmem)
  -- the agent had the candidate from a rollout that the run started
  cases hrollout : (afterAll key earlier view).rollout with
  | none =>
    rw [hrollout] at hresolved
    exact absurd (Option.some.inj hresolved) hother
  | some old =>
    simp only [hrollout] at hresolved
    cases hbucket : rolloutBucket H old.seed key agentId with
    | error e => simp [hbucket] at hresolved
    | ok bucket =>
      simp only [hbucket, Option.some.injEq] at hresolved
      have hstarted : ∃ now updatedBy expected, .startRollout key old.primary old.candidate
          old.percentage old.seed now updatedBy expected ∈ earlier := by
        rcases rollout_origin hrollout with hbefore | hmem
        · obtain ⟨hprimary, hne⟩ := hidle.rollout old hbefore
          split at hresolved
          · exact absurd hresolved hne
          · exact absurd hresolved hprimary
        · exact hmem
      obtain ⟨now, updatedBy, expected, hmem⟩ := hstarted
      obtain ⟨hversion, hseed⟩ := hrun.started _ _ _ _ _ _ _ (List.mem_append_right later hmem)
      have hne : old.primary ≠ old.candidate := hchecked _ (List.mem_append_right later hmem)
      have hbelow : (bucket : Int) < old.percentage := by
        by_contra hnot
        rw [if_neg hnot] at hresolved
        exact hne (hresolved.trans hversion.symm)
      -- the rollout in force is that one, or a later one with the same seed
      have hsplit : split.seed = old.seed ∧ old.percentage ≤ split.percentage := by
        rcases rollout_origin hforce with hsame | ⟨now', updatedBy', expected', hmem'⟩
        · rw [hrollout] at hsame
          cases hsame
          exact ⟨rfl, le_rfl⟩
        · obtain ⟨-, hseed'⟩ := hrun.started _ _ _ _ _ _ _ (List.mem_append_left earlier hmem')
          have hrising := hrun.rising
          rw [List.filterMap_append, List.pairwise_append] at hrising
          exact ⟨Except.ok.inj (hseed'.symm.trans hseed),
            hrising.2.2 _ (mem_percentages hmem') _ (mem_percentages hmem)⟩
      have hkept : (afterAll key later (afterAll key earlier view)).active.isSome :=
        active_kept (Option.isSome_iff_exists.mpr ⟨active, hactive⟩)
      obtain ⟨now', hnow'⟩ := Option.isSome_iff_exists.mp hkept
      have hbelow' : (bucket : Int) < split.percentage := lt_of_lt_of_le hbelow hsplit.2
      rw [resolve, hnow', hforce]
      simp only [Option.bind_some, hsplit.1, hbucket, if_pos hbelow', hcandidate]

end PolicyView

namespace PolicyStore

section

variable [PyFloat F] {store : PolicyStore F V T} {H : Sha256}
  {pool pool' : Pool ℕ (StoreWorld F V T) PyExc Unit}

theorem History.checked {s : StoreWorld F V T} (h : store.History s) :
    ∀ w ∈ s.log.map Prod.fst, w.Checked := by
  induction h with
  | init =>
    intro w hw
    cases hw
  | write _ hchecked _ ih =>
    intro w hw
    rcases List.mem_cons.mp hw with rfl | hw
    · exact hchecked
    · exact ih w hw

/-- The store after another one, whatever the administrators do in between. -/
abbrev StoreLater (store : PolicyStore F V T) (H : Sha256) :
    Pool ℕ (StoreWorld F V T) PyExc Unit → Pool ℕ (StoreWorld F V T) PyExc Unit → Prop :=
  Relation.ReflTransGen (Pool.Next (fun _ p => StoreProgram store H p) fun s s' => s' = s)

/-- A log only grows. -/
theorem StoreReach.later (h : StoreReach store H pool) (hlater : StoreLater store H pool pool') :
    StoreReach store H pool' ∧ ∃ writes, pool'.state.log = writes ++ pool.state.log :=
  Pool.Reach.kept (I := fun _ => True) (J := fun s => ∃ writes, s.log = writes ++ pool.state.log)
    (R := fun _ _ _ => True) (G := fun _ => store.Steps) (Q := fun _ _ _ => True)
    ⟨fun _ _ => trivial, fun _ _ _ _ _ _ => trivial, fun _ _ _ _ _ _ => trivial,
      fun _ _ _ _ => trivial, fun _ _ _ _ => trivial⟩
    (fun _ _ => trivial) (fun _ _ _ hp _ => hp.follows fun _ => trivial)
    (fun _ s t hstep hj => by
      obtain ⟨writes, hlog⟩ := hj
      rcases hstep with rfl | ⟨w, t, -, -, rfl⟩
      · exact ⟨writes, hlog⟩
      · exact ⟨(w, s.tables) :: writes, congrArg (List.cons _) hlog⟩)
    (fun s t hst hj => by rw [hst]; exact hj) h hlater ⟨[], rfl⟩

/-- In every run that rolls out one candidate, an agent that had the candidate
has it whenever a rollout of the candidate is in force later. -/
def Sticky (store : PolicyStore F V T) (H : Sha256) : Prop :=
  ∀ key candidate agentId start first later writes, StoreReach store H start →
    StoreLater store H start first → StoreLater store H first later →
    later.state.log.map Prod.fst = writes ++ start.state.log.map Prod.fst →
    CanaryRun H key candidate writes → (start.state.tables.view key).Idle candidate →
    store.Assigns H first.state key agentId candidate →
    (∃ row, later.state.tables.rollout key = some row ∧ row.candidateVersion = candidate) →
    store.Assigns H later.state key agentId candidate

theorem sticky (store : PolicyStore F V T) (H : Sha256) : Sticky store H := by
  rintro key candidate agentId start first later writes hstart hfirst hlater hlog hrun hidle hgot
    ⟨row, hrow, hcandidate⟩
  obtain ⟨hreach₁, earlier, hearlier⟩ := hstart.later hfirst
  obtain ⟨hreach₂, after, hafter⟩ := hreach₁.later hlater
  have hwrites : writes = after.map Prod.fst ++ earlier.map Prod.fst := by
    rw [hafter, hearlier, List.map_append, List.map_append, ← List.append_assoc] at hlog
    exact (List.append_cancel_right hlog).symm
  have hview₁ : first.state.tables.view key =
      PolicyView.afterAll key (earlier.map Prod.fst) (start.state.tables.view key) := by
    rw [hreach₁.history.view, hearlier, List.map_append, PolicyView.replay_append,
      hstart.history.view]
  have hview₂ : later.state.tables.view key = PolicyView.afterAll key (after.map Prod.fst)
      (PolicyView.afterAll key (earlier.map Prod.fst) (start.state.tables.view key)) := by
    rw [← hview₁, hreach₂.history.view, hafter, List.map_append, PolicyView.replay_append,
      hreach₁.history.view]
  have hgot' := resolve_of_assigns hgot
  rw [hview₁] at hgot'
  have hforce : (later.state.tables.view key).rollout = some row.split := by
    rw [ControlPlaneTables.view, hrow]
    rfl
  rw [hview₂] at hforce
  refine assigns_of_resolve hreach₂.served ?_
  rw [hview₂]
  refine PolicyView.resolve_sticky (hwrites ▸ hrun) (fun w hw => ?_) hidle hgot' hforce hcandidate
  refine hreach₂.history.checked w ?_
  rw [hlog, hwrites]
  exact List.mem_append_left _ hw

/-- After the same writes, the two stores give every agent the same version. -/
def SameAssignments {V' T' : Type} (store : PolicyStore F V T) (store' : PolicyStore F V' T')
    (H : Sha256) : Prop :=
  ∀ pool pool', StoreReach store H pool → StoreReach store' H pool' →
    pool.state.log.map Prod.fst = pool'.state.log.map Prod.fst →
    ∀ key agentId version, store.Assigns H pool.state key agentId version ↔
      store'.Assigns H pool'.state key agentId version

theorem sameAssignments {V' T' : Type} (store : PolicyStore F V T) (store' : PolicyStore F V' T')
    (H : Sha256) : SameAssignments store store' H := by
  intro pool pool' hreach hreach' hlog key agentId version
  rw [hreach.assigns_iff, hreach'.assigns_iff, hlog]

/-- Canary assignment is sticky in both stores, and the same in both. -/
theorem canary_assignment (driver : PgPolicyDriver F) (H : Sha256) :
    Sticky (sqliteStore : PolicyStore F Str Str) H ∧ Sticky (postgresStore driver) H ∧
      SameAssignments (sqliteStore : PolicyStore F Str Str) (postgresStore driver) H :=
  ⟨sticky _ H, sticky _ H, sameAssignments _ _ H⟩

end

/-! ### A rollout that is cancelled and started again -/

/-- `start_rollout` of version 2 under the default seed. -/
def canarySample (percentage : Int) : SampleProgram := do
  let _ ← sqliteStore.startRollout default sampleKey (lit "2") percentage [] [] [] none
  return ()

/-- Version 3 is activated before the rollout starts again. -/
def restartedCanary : List SampleProgram :=
  [sqliteStore.cancelRollout sampleKey, activateSample "3", canarySample 60]

theorem later_foldl {programs : List SampleProgram}
    (h : ∀ p ∈ programs, StoreProgram sqliteStore default p) (s : StoreWorld Half Str Str) :
    StoreLater sqliteStore default ⟨s, fun _ => none⟩
      ⟨programs.foldl (fun s p => (p.run s).2) s, fun _ => none⟩ := by
  induction programs generalizing s with
  | nil => exact .refl
  | cons p programs ih =>
    exact (Pool.Next.run 0 (h p List.mem_cons_self)).trans
      (ih (fun q hq => h q (List.mem_cons_of_mem p hq)) _)

theorem restartedCanary_program : ∀ p ∈ restartedCanary, StoreProgram sqliteStore default p := by
  simp only [restartedCanary, List.mem_cons, List.not_mem_nil, or_false]
  rintro p (rfl | rfl | rfl)
  · exact .cancelRollout _
  · exact .activate _ _ _ _ _
  · exact .startRollout _ _ _ _ _ _ _

/-- The writes of the sample run, the newest first. -/
def restartedWrites : List (PolicyWrite Half) :=
  [.startRollout sampleKey (lit "3") (lit "2") 60 (List.replicate 16 48) [] [] none,
    .activate sampleKey (lit "3") [] [] none, .cancelRollout sampleKey,
    .startRollout sampleKey (lit "1") (lit "2") 10 (List.replicate 16 48) [] [] none]

theorem restartedWrites_canary : CanaryRun default sampleKey (lit "2") restartedWrites where
  started primary version percentage seed now updatedBy expected hmem := by
    have hseed : seedOr (F := Half) default sampleKey (lit "2") [] = .ok (List.replicate 16 48) := by
      rfl
    simp only [restartedWrites, List.mem_cons, PolicyWrite.startRollout.injEq, reduceCtorEq,
      false_or, List.not_mem_nil, or_false] at hmem
    rcases hmem with ⟨-, -, rfl, -, rfl, -⟩ | ⟨-, -, rfl, -, rfl, -⟩ <;> exact ⟨rfl, hseed⟩
  activated version now activatedBy expected hmem := by
    simp only [restartedWrites, List.mem_cons, PolicyWrite.activate.injEq, reduceCtorEq,
      false_or, List.not_mem_nil, or_false] at hmem
    obtain ⟨-, rfl, -⟩ := hmem
    decide
  rising := by decide

/-- The agent that had version 2 has it again. -/
theorem canary_assignment_sample : (sqliteStore : PolicyStore Half Str Str).Assigns default
    (runSample (samplePrograms ++ canarySample 10 :: restartedCanary)) sampleKey (lit "agent")
    (lit "2") := by
  have hcanary : StoreProgram sqliteStore default (canarySample 10) := .startRollout _ _ _ _ _ _ _
  have hreach : StoreReach (sqliteStore : PolicyStore Half Str Str) default
      ⟨runSample samplePrograms, fun _ => none⟩ := runSample_reach samplePrograms_store
  have hgot : (sqliteStore : PolicyStore Half Str Str).Assigns default
      ((canarySample 10).run (runSample samplePrograms)).2 sampleKey (lit "agent") (lit "2") :=
    ⟨_, rfl, rfl⟩
  have hactive : ((runSample samplePrograms).tables.view sampleKey) = ⟨some (lit "1"), none⟩ := by
    rfl
  have hidle : ((runSample samplePrograms).tables.view sampleKey).Idle (lit "2") := by
    rw [hactive]
    exact ⟨by decide, fun _ hnone => by cases hnone⟩
  -- the rollout is cancelled, version 3 activated, and 60 percent get version 2
  exact (canary_assignment ⟨⟨fun _ => none⟩, fun _ => none, fun _ => []⟩ default).1 sampleKey
    (lit "2") (lit "agent") _ _
    ⟨runSample (samplePrograms ++ canarySample 10 :: restartedCanary), fun _ => none⟩ restartedWrites
    hreach (Pool.Next.run 0 hcanary) (later_foldl restartedCanary_program _) rfl
    restartedWrites_canary hidle hgot ⟨_, rfl, rfl⟩

end PolicyStore

end AgentRoi
