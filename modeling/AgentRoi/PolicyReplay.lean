/-
What `resolve_active` answers, as a function of the writes.

* `PolicyView`, `replay` — the active version and the rollout of a policy, and
  what a list of writes makes of them;
* `PolicyView.resolve` — the version an agent gets;
* `History.view` — the tables show what the writes in the log make;
* `Served`, `StoreReach.served` — every version that is active or rolled out
  can be read, whatever the administrators do;
* `StoreReach.assigns_iff` — `resolve_active` answers with the version of the
  replayed writes, in SQLite and in PostgreSQL.
-/
import AgentRoi.ControlPlaneMethods

namespace AgentRoi

variable {F V T : Type}

/-! ### Views -/

/-- A rollout, without who wrote it and when. -/
structure PolicySplit where
  primary : Str
  candidate : Str
  percentage : Int
  seed : Str
  deriving DecidableEq

/-- What `resolve_active` reads of a policy. -/
structure PolicyView where
  active : Option Str
  rollout : Option PolicySplit
  deriving DecidableEq

def RolloutRow.split (row : RolloutRow T) : PolicySplit :=
  ⟨row.primaryVersion, row.candidateVersion, row.candidatePercentage, row.seed⟩

def ControlPlaneTables.view (t : ControlPlaneTables V T) (key : PolicyKey) : PolicyView :=
  ⟨(t.activeRow key).map ActiveRow.version, (t.rollout key).map RolloutRow.split⟩

namespace PolicyView

/-- An activation ends the rollout. -/
def after (key : PolicyKey) (view : PolicyView) : PolicyWrite F → PolicyView
  | .activate k version _ _ _ => if k = key then ⟨some version, none⟩ else view
  | .startRollout k primary candidate percentage seed _ _ _ =>
    if k = key then ⟨view.active, some ⟨primary, candidate, percentage, seed⟩⟩ else view
  | .cancelRollout k => if k = key then ⟨view.active, none⟩ else view
  | _ => view

/-- What the writes make of a policy, the newest first. -/
def replay (key : PolicyKey) (writes : List (PolicyWrite F)) : PolicyView :=
  writes.foldr (fun w view => view.after key w) ⟨none, none⟩

/-- The version an agent gets. -/
def resolve (H : Sha256) (key : PolicyKey) (agentId : Str) (view : PolicyView) : Option Str :=
  view.active.bind fun version =>
    match view.rollout with
    | none => some version
    | some split =>
      match rolloutBucket H split.seed key agentId with
      | .ok bucket =>
        some (if (bucket : Int) < split.percentage then split.candidate else split.primary)
      | .error _ => none

theorem replay_append (key : PolicyKey) (later earlier : List (PolicyWrite F)) :
    replay key (later ++ earlier) =
      later.foldr (fun w view => view.after key w) (replay key earlier) :=
  List.foldr_append

end PolicyView

namespace PolicyStore

variable [PyFloat F] {store : PolicyStore F V T} {H : Sha256} {s : StoreWorld F V T}
  {t t' : ControlPlaneTables V T} {key : PolicyKey}

/-! ### The tables show what was written -/

omit [PyFloat F] in
theorem newRollout_split {primary candidate : Str} {percentage : Int} {seed now updatedBy : Str}
    {expected : Option Int} {row : RolloutRow T}
    (h : store.newRollout t key primary candidate percentage seed now updatedBy expected = .ok row) :
    row.split = ⟨primary, candidate, percentage, seed⟩ := by
  cases expected with
  | none =>
    simp only [newRollout, except_bind_eq_ok] at h
    obtain ⟨_, -, _, -, _, -, _, -, _, -, _, -, h⟩ := h
    cases h
    rfl
  | some revision =>
    simp only [newRollout, except_bind_eq_ok] at h
    obtain ⟨_, -, _, -, _, -, _, -, _, -, _, -, _, -, h⟩ := h
    cases h
    rfl

omit [PyFloat F] in
theorem view_deleteRollout (k : PolicyKey) : (t.deleteRollout k).view key =
    if k = key then ⟨(t.view key).active, none⟩ else t.view key := by
  split
  · next hk =>
    subst hk
    rw [ControlPlaneTables.view, ControlPlaneTables.rollout_deleteRollout_self]
    rfl
  · next hk =>
    rw [ControlPlaneTables.view, ControlPlaneTables.rollout_deleteRollout_of_ne (Ne.symm hk)]
    rfl

/-- A write does to the tables what it does to the view. -/
theorem view_of_write {w : PolicyWrite F} {u : Unit} (h : store.write w t = (.ok u, t')) :
    t'.view key = (t.view key).after key w := by
  cases w with
  | saveBundle bundle =>
    obtain ⟨_, _, -, rfl⟩ := write_saveBundle h
    rfl
  | activate k version now activatedBy expected =>
    obtain ⟨row, hrow, hnew, rfl⟩ := write_activate h
    obtain ⟨rfl, rfl, -⟩ := newActive_eq_ok hnew
    rw [view_deleteRollout]
    by_cases hk : row.key = key
    · subst hk
      simp [ControlPlaneTables.view, PolicyView.after]
    · simp [ControlPlaneTables.view, PolicyView.after, hk,
        ControlPlaneTables.activeRow_putActive_of_ne (h := hrow) hk]
  | startRollout k primary candidate percentage seed now updatedBy expected =>
    obtain ⟨row, hrow, hnew, rfl⟩ := write_startRollout h
    have hsplit := newRollout_split hnew
    obtain ⟨rfl, -⟩ := newRollout_eq_ok hnew
    by_cases hk : row.key = key
    · subst hk
      simp [ControlPlaneTables.view, PolicyView.after, hsplit]
    · simp [ControlPlaneTables.view, PolicyView.after, hk,
        ControlPlaneTables.rollout_putRollout_of_ne (h := hrow) hk]
  | cancelRollout k =>
    obtain rfl := write_cancelRollout h
    exact view_deleteRollout k
  | registerAgent agent owner purpose status metadata v now expected =>
    obtain ⟨_, -, rfl⟩ := write_registerAgent h
    rfl
  | heartbeat agent digest v status now expected =>
    obtain ⟨_, -, rfl⟩ := write_heartbeat h
    rfl

/-- The tables of a store show what the writes in its log make. -/
theorem History.view (h : store.History s) (key : PolicyKey) :
    s.tables.view key = PolicyView.replay key (s.log.map Prod.fst) := by
  induction h with
  | init => rfl
  | write _ _ hwrite ih =>
    rw [view_of_write hwrite, ih]
    rfl

/-! ### What can be read -/

/-- `get_bundle` finds the version. -/
def Readable (store : PolicyStore F V T) (t : ControlPlaneTables V T) (key : PolicyKey)
    (version : Str) : Prop := ∃ bundle, store.findBundle key version t = .ok bundle

/-- Every version that is active or rolled out can be read. -/
structure Served (store : PolicyStore F V T) (t : ControlPlaneTables V T) : Prop where
  active : ∀ key version, (t.view key).active = some version → store.Readable t key version
  rollout : ∀ key split, (t.view key).rollout = some split →
    store.Readable t key split.primary ∧ store.Readable t key split.candidate

/-- The methods read the versions before they write them. -/
def HasRead (store : PolicyStore F V T) (t : ControlPlaneTables V T) : PolicyWrite F → Prop
  | .activate key version _ _ _ => store.Readable t key version
  | .startRollout key primary candidate _ _ _ _ _ =>
    store.Readable t key primary ∧ store.Readable t key candidate
  | _ => True

omit [PyFloat F] in
/-- What can be read depends on the rows of the bundles. -/
theorem Readable.kept {version : Str} (h : store.Readable t key version)
    (hrows : ∀ row, t.bundle key version = some row → t'.bundle key version = some row) :
    store.Readable t' key version := by
  obtain ⟨bundle, hfind⟩ := h
  obtain ⟨row, hrow, -⟩ := findBundle_eq_ok hfind
  refine ⟨bundle, ?_⟩
  rw [findBundle, hrows row hrow]
  rw [findBundle, hrow] at hfind
  exact hfind

omit [PyFloat F] in
theorem served_empty : store.Served ControlPlaneTables.empty := by
  constructor
  · intro key version hactive
    cases hactive
  · intro key split hrollout
    cases hrollout

theorem served_of_write {w : PolicyWrite F} {u : Unit} (h : store.write w t = (.ok u, t'))
    (hread : store.HasRead t w) (hs : store.Served t) : store.Served t' := by
  have hkept : ∀ {key version}, store.Readable t key version → store.Readable t' key version :=
    fun hv => hv.kept fun _ hrow => bundle_of_write h hrow
  -- first what is active, then what is rolled out, by the write that was made
  constructor
  · intro key version hactive
    rw [view_of_write h] at hactive
    cases w with
    | activate k v now activatedBy expected =>
      by_cases hk : k = key
      · subst hk
        simp only [PolicyView.after, if_true] at hactive
        cases hactive
        -- the write has read the version it activates
        exact hkept hread
      · simp only [PolicyView.after, if_neg hk] at hactive
        exact hkept (hs.active key version hactive)
    | startRollout k primary candidate percentage seed now updatedBy expected =>
      refine hkept (hs.active key version ?_)
      rw [← hactive, PolicyView.after]
      split <;> rfl
    | cancelRollout k =>
      refine hkept (hs.active key version ?_)
      rw [← hactive, PolicyView.after]
      split <;> rfl
    | _ => exact hkept (hs.active key version hactive)
  · intro key split hrollout
    rw [view_of_write h] at hrollout
    have hold : (t.view key).rollout = some split →
        store.Readable t' key split.primary ∧ store.Readable t' key split.candidate :=
      fun heq => (hs.rollout key split heq).imp hkept hkept
    cases w with
    | activate k v now activatedBy expected =>
      by_cases hk : k = key
      · simp [PolicyView.after, hk] at hrollout
      · exact hold (by simpa [PolicyView.after, hk] using hrollout)
    | startRollout k primary candidate percentage seed now updatedBy expected =>
      by_cases hk : k = key
      · subst hk
        simp only [PolicyView.after, if_true] at hrollout
        cases hrollout
        -- and both versions of the split it stores
        exact hread.imp hkept hkept
      · exact hold (by simpa [PolicyView.after, hk] using hrollout)
    | cancelRollout k =>
      by_cases hk : k = key
      · simp [PolicyView.after, hk] at hrollout
      · exact hold (by simpa [PolicyView.after, hk] using hrollout)
    | _ => exact hold hrollout

/-! ### Whatever the administrators do -/

/-- The bundles of one state are there in the other. -/
def KeepsBundles (s s' : StoreWorld F V T) : Prop :=
  ∀ key version row, s.tables.bundle key version = some row →
    s'.tables.bundle key version = some row

/-- A step of the methods writes what has been read. -/
def StepsAfterRead (store : PolicyStore F V T) (s s' : StoreWorld F V T) : Prop :=
  s' = s ∨ ∃ w t, store.HasRead s.tables w ∧ store.write w s.tables = (.ok (), t) ∧
    s' = ⟨t, (w, s.tables) :: s.log⟩

theorem StepsAfterRead.keepsBundles {s' : StoreWorld F V T} (h : store.StepsAfterRead s s') :
    KeepsBundles s s' := by
  intro key version row hrow
  rcases h with rfl | ⟨w, t, -, hwrite, rfl⟩
  · exact hrow
  · exact bundle_of_write hwrite hrow

theorem StepsAfterRead.served {s' : StoreWorld F V T} (h : store.StepsAfterRead s s')
    (hs : store.Served s.tables) : store.Served s'.tables := by
  rcases h with rfl | ⟨w, t, hread, hwrite, rfl⟩
  · exact hs
  · exact served_of_write hwrite hread hs

/-- A program takes such steps, while the others keep the bundles. -/
abbrev ReadsFirst {α : Type} (store : PolicyStore F V T) (p : Proc (StoreWorld F V T) PyExc α)
    (s : StoreWorld F V T) : Prop := Proc.Follows KeepsBundles store.StepsAfterRead p s

theorem stepsAfterRead_writing {w : PolicyWrite F} (hread : store.HasRead s.tables w) :
    store.StepsAfterRead s ((store.writing w).run s).2 := by
  rcases hrun : (store.writing w).run s with ⟨r, u⟩
  rcases writing_eq hrun with ⟨e, rfl, -, rfl⟩ | ⟨t, rfl, hwrite, rfl⟩
  · exact .inl rfl
  · exact .inr ⟨w, t, hread, hwrite, rfl⟩

theorem readsFirst_writing {w : PolicyWrite F}
    (hread : ∀ s', KeepsBundles s s' → store.HasRead s'.tables w) :
    store.ReadsFirst (store.writing w) s :=
  Proc.follows_atomic fun s' hs => stepsAfterRead_writing (hread s' hs)

theorem readsFirst_reading {α β : Type} {x : ControlPlaneTables V T → Except PyExc α}
    {f : α → Proc (StoreWorld F V T) PyExc β}
    (h : ∀ s' a, KeepsBundles s s' → x s'.tables = .ok a → store.ReadsFirst (f a) s') :
    store.ReadsFirst (reading x >>= f) s :=
  Proc.follows_step fun s' hs => ⟨.inl rfl, fun a ha => h s' a hs ha⟩

theorem readsFirst_getActive {β : Type} {f : PolicyBundle F → Proc (StoreWorld F V T) PyExc β}
    (h : ∀ s' bundle, KeepsBundles s s' → store.Readable s'.tables key bundle.version →
      store.ReadsFirst (f bundle) s') : store.ReadsFirst (store.getActive key >>= f) s := by
  rw [getActive, Proc.bind_assoc]
  refine readsFirst_reading fun s₁ version hs₁ _ => ?_
  refine readsFirst_reading fun s₂ bundle hs₂ hfind => h s₂ bundle ?_ ⟨bundle, ?_⟩
  · exact fun k v row hrow => hs₂ k v row (hs₁ k v row hrow)
  · obtain ⟨row, hrow, hbundle⟩ := findBundle_eq_ok hfind
    obtain ⟨-, hversion⟩ := bundleOfRow_version hbundle
    rw [hversion, (ControlPlaneTables.key_of_bundle hrow).2]
    exact hfind

theorem readsFirst_startRollout {candidate : Str} {percentage : Int} {now updatedBy seed : Str}
    {expected : Option Int} : store.ReadsFirst
      (store.startRollout H key candidate percentage now updatedBy seed expected) s := by
  unfold startRollout
  split
  · exact Proc.follows_raise
  · refine readsFirst_getActive fun s₁ primary _ hprimary => ?_
    refine readsFirst_reading fun s₂ bundle hs₂ hcandidate => ?_
    split
    · exact Proc.follows_raise
    · refine readsFirst_reading fun s₃ seedValue hs₃ _ => ?_
      refine Proc.follows_bind (fun _ _ _ _ h => h) (readsFirst_writing fun s₄ hs₄ => ?_)
        fun _ _ => follows_reading fun _ => .inl rfl
      -- what was read before is still there when the rollout is written
      have hfound : store.Readable s₂.tables key candidate := ⟨bundle, hcandidate⟩
      exact ⟨hprimary.kept fun row hrow => hs₄ _ _ row (hs₃ _ _ row (hs₂ _ _ row hrow)),
        hfound.kept fun row hrow => hs₄ _ _ row (hs₃ _ _ row hrow)⟩

theorem StoreProgram.readsFirst {p : Proc (StoreWorld F V T) PyExc Unit}
    (h : StoreProgram store H p) : store.ReadsFirst p s := by
  have hrefl : ∀ s : StoreWorld F V T, KeepsBundles s s := fun _ _ _ _ hrow => hrow
  have hsame : ∀ s, store.StepsAfterRead s s := fun _ => .inl rfl
  have hdrop : ∀ {β : Type} {q : Proc (StoreWorld F V T) PyExc β} {u : StoreWorld F V T},
      store.ReadsFirst q u → store.ReadsFirst (q >>= fun _ => pure ()) u :=
    fun hq => Proc.follows_bind hrefl hq fun _ _ => Proc.follows_pure
  cases h with
  | saveBundle bundle => exact readsFirst_writing fun _ _ => trivial
  | activate key version now activatedBy expected =>
    refine hdrop (readsFirst_reading fun s₁ bundle _ hfind => ?_)
    refine Proc.follows_bind hrefl (readsFirst_writing fun s₂ hs₂ => ?_) fun _ _ =>
      Proc.follows_pure
    have hfound : store.Readable s₁.tables key version := ⟨bundle, hfind⟩
    exact hfound.kept fun row hrow => hs₂ _ _ row hrow
  | startRollout key candidate percentage now updatedBy seed expected =>
    exact hdrop readsFirst_startRollout
  | cancelRollout key => exact readsFirst_writing fun _ _ => trivial
  | resolveActive key agentId => exact hdrop (follows_resolveActive hrefl hsame)
  | registerAgent key owner purpose status metadata version now expected =>
    exact hdrop (Proc.follows_bind hrefl (readsFirst_writing fun _ _ => trivial) fun _ _ =>
      follows_reading hsame)
  | heartbeat key policyDigest version status now expected =>
    exact hdrop (Proc.follows_bind hrefl (readsFirst_writing fun _ _ => trivial) fun _ _ =>
      follows_reading hsame)

/-- In every store that can arise, what is active or rolled out can be read. -/
theorem StoreReach.served {pool : Pool ℕ (StoreWorld F V T) PyExc Unit}
    (h : StoreReach store H pool) : store.Served pool.state.tables :=
  Pool.Reach.invariant (J := fun s => store.Served s.tables) (R := fun _ => KeepsBundles)
    (G := fun _ => store.StepsAfterRead) (fun _ _ _ _ _ hrow => hrow)
    (fun _ _ _ _ hst htu k v row hrow => htu k v row (hst k v row hrow))
    (fun _ _ _ _ _ hg => hg.keepsBundles) (fun _ s t hst k v row hrow => by rw [hst]; exact hrow)
    (fun _ _ _ hp => hp.readsFirst)
    (fun s hs => by
      rw [NewStore] at hs
      rw [hs]
      exact served_empty)
    (fun _ _ _ hg hs => hg.served hs) (fun _ _ hst hs => by rw [hst]; exact hs) h

/-! ### What `resolve_active` answers -/

/-- `resolve_active` answers with this version. -/
def Assigns (store : PolicyStore F V T) (H : Sha256) (s : StoreWorld F V T) (key : PolicyKey)
    (agentId version : Str) : Prop :=
  ∃ bundle, (store.resolveActive H key agentId).run s = (.ok bundle, s) ∧ bundle.version = version

omit [PyFloat F] in
theorem resolve_of_assigns {agentId version : Str} (h : store.Assigns H s key agentId version) :
    (s.tables.view key).resolve H key agentId = some version := by
  obtain ⟨bundle, hrun, rfl⟩ := h
  obtain ⟨primary, s₁, hactive, h⟩ := Proc.run_bind_eq_ok.mp hrun
  have hbind : store.format.bindKey key = .ok () := by
    obtain ⟨_, _, hread, -⟩ := Proc.run_bind_eq_ok.mp hactive
    obtain ⟨u, hu, -⟩ := except_bind_eq_ok.mp (reading_eq_ok.mp hread).1
    exact hu
  obtain ⟨rfl, active, hrow, hversion⟩ := getActive_eq_ok hactive
  obtain ⟨r, s₂, hrollout, h⟩ := Proc.run_bind_eq_ok.mp h
  obtain ⟨hfound, rfl⟩ := attempt_reading_eq_ok.mp hrollout
  cases r with
  | error e =>
    have hnone : s₂.tables.rollout key = none := by
      rw [findRollout, hbind] at hfound
      cases hrollout : s₂.tables.rollout key with
      | none => rfl
      | some row =>
        rw [hrollout] at hfound
        cases hfound
    cases e with
    | keyError message =>
      cases h
      simp [ControlPlaneTables.view, PolicyView.resolve, hrow, hnone, hversion]
    | _ => cases h
  | ok rollout =>
    obtain ⟨bucket, s₃, hread, h⟩ := Proc.run_bind_eq_ok.mp h
    obtain ⟨hbucket, rfl⟩ := reading_eq_ok.mp hread
    obtain ⟨-, -, hanswer⟩ := getBundle_eq_ok h
    have hsplit : rolloutBucket H rollout.split.seed key agentId = .ok bucket := hbucket
    simp only [ControlPlaneTables.view, PolicyView.resolve, hrow, findRollout_eq_ok hfound,
      Option.map_some, Option.bind_some, hsplit]
    exact congrArg some hanswer.symm

omit [PyFloat F] in
theorem Readable.bindKey {version : Str} (h : store.Readable t key version) :
    store.format.bindKey key = .ok () := by
  obtain ⟨bundle, hfind⟩ := h
  obtain ⟨u, hu, -⟩ := except_bind_eq_ok.mp hfind
  exact hu

omit [PyFloat F] in
theorem Readable.getBundle {version : Str} (h : store.Readable s.tables key version) :
    ∃ bundle, (store.getBundle key version).run s = (.ok bundle, s) ∧ bundle.version = version := by
  obtain ⟨bundle, hfind⟩ := h
  have hrun : (store.getBundle key version).run s = (.ok bundle, s) := reading_eq_ok.mpr ⟨hfind, rfl⟩
  exact ⟨bundle, hrun, (getBundle_eq_ok hrun).2.2⟩

omit [PyFloat F] in
theorem assigns_of_resolve (hs : store.Served s.tables) {agentId version : Str}
    (h : (s.tables.view key).resolve H key agentId = some version) :
    store.Assigns H s key agentId version := by
  obtain ⟨active, hactive, hsplit⟩ := Option.bind_eq_some_iff.mp h
  have hreadable := hs.active key active hactive
  obtain ⟨row, hrow, rfl⟩ := Option.map_eq_some_iff.mp hactive
  obtain ⟨primary, hprimary, hversion⟩ := hreadable.getBundle
  have hget : (store.getActive key).run s = (.ok primary, s) := by
    refine Proc.run_bind_eq_ok.mpr ⟨row.version, s, reading_eq_ok.mpr ⟨?_, rfl⟩, hprimary⟩
    rw [findActive, hreadable.bindKey, hrow]
    rfl
  -- the client sees a rollout exactly when the row is there
  cases hrollout : s.tables.rollout key with
  | none =>
    have hnone : (s.tables.view key).rollout = none := by
      rw [ControlPlaneTables.view, hrollout]
      rfl
    rw [hnone] at hsplit
    have hfind : store.findRollout key s.tables =
        .error (.keyError [lit "No active policy rollout"]) := by
      rw [findRollout, hreadable.bindKey, hrollout]
      rfl
    refine ⟨primary, ?_, hversion.trans (Option.some.inj hsplit)⟩
    refine Proc.run_bind_eq_ok.mpr ⟨primary, s, hget, ?_⟩
    exact Proc.run_bind_eq_ok.mpr ⟨_, s, attempt_reading_eq_ok.mpr ⟨hfind, rfl⟩, rfl⟩
  | some rollout =>
    have hsome : (s.tables.view key).rollout = some rollout.split := by
      rw [ControlPlaneTables.view, hrollout]
      rfl
    obtain ⟨hprimaryVersion, hcandidateVersion⟩ := hs.rollout key _ hsome
    rw [hsome] at hsplit
    have hfind : store.findRollout key s.tables = .ok rollout := by
      rw [findRollout, hreadable.bindKey, hrollout]
      rfl
    cases hbucket : rolloutBucket H rollout.split.seed key agentId with
    | error e => simp [hbucket] at hsplit
    | ok bucket =>
      simp only [hbucket, Option.some.injEq] at hsplit
      -- either side of the split can be read
      have hanswer : store.Readable s.tables key version := by
        rw [← hsplit]
        split
        · exact hcandidateVersion
        · exact hprimaryVersion
      obtain ⟨bundle, hbundle, hname⟩ := hanswer.getBundle
      refine ⟨bundle, ?_, hname⟩
      refine Proc.run_bind_eq_ok.mpr ⟨primary, s, hget, ?_⟩
      refine Proc.run_bind_eq_ok.mpr ⟨_, s, attempt_reading_eq_ok.mpr ⟨hfind, rfl⟩, ?_⟩
      refine Proc.run_bind_eq_ok.mpr ⟨bucket, s, reading_eq_ok.mpr ⟨hbucket, rfl⟩, ?_⟩
      rw [← hsplit] at hbundle
      exact hbundle

/-- In every store that can arise, `resolve_active` answers with the version
that the writes in the log give the agent. -/
theorem StoreReach.assigns_iff {pool : Pool ℕ (StoreWorld F V T) PyExc Unit}
    (h : StoreReach store H pool) (key : PolicyKey) (agentId version : Str) :
    store.Assigns H pool.state key agentId version ↔
      (PolicyView.replay key (pool.state.log.map Prod.fst)).resolve H key agentId =
        some version := by
  rw [← h.history.view key]
  exact ⟨resolve_of_assigns, assigns_of_resolve h.served⟩

end PolicyStore

end AgentRoi
