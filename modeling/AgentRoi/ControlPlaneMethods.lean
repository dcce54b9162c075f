/-
The methods of the control-plane stores, as programs: every read and every
transaction is one atomic step.

* `StoreWorld` — the tables, and the writes that changed them, each with the
  tables it found;
* `getBundle`, `activate`, `getActive`, `startRollout`, `getRollout`,
  `cancelRollout`, `resolveActive`, `registerAgent`, `heartbeat`, `getAgent` —
  the methods of `SqliteControlPlaneStore` and `PostgresControlPlaneStore`;
* `StoreProgram`, `StoreReach` — the stores that administrators bring about,
  who call any methods at any time;
* `History`, `StoreReach.history` — such a store is the result of the writes
  in its log, one after the other.
-/
import AgentRoi.ControlPlaneStore
import AgentRoi.Interleaving

namespace AgentRoi

variable {F V T α : Type}

structure StoreWorld (F V T : Type) where
  tables : ControlPlaneTables V T
  log : List (PolicyWrite F × ControlPlaneTables V T)

/-- A row of `agents`, with its metadata. -/
structure AgentRecord (F V T : Type) where
  row : AgentRow V T
  metadata : Json F

/-- `int(text, 16)` of lowercase digits. -/
def hexValue (text : Str) : ℕ :=
  text.foldl (fun n c => 16 * n + if c < 58 then c - 48 else c - 87) 0

/-- The bucket of an agent, out of a hundred. -/
def rolloutBucket (H : Sha256) (seed : Str) (key : PolicyKey) (agentId : Str) :
    Except PyExc ℕ :=
  match encodeUtf8 (seed ++ lit ":" ++ key.organizationId ++ lit ":" ++ key.environment ++
      lit ":" ++ agentId) with
  | some bytes => .ok (hexValue ((H.hexdigest bytes).take 8) % 100)
  | none => .error .unicodeEncodeError

/-- `start_rollout` writes no rollout whose candidate is the version it read. -/
def PolicyWrite.Checked : PolicyWrite F → Prop
  | .startRollout _ primary candidate _ _ _ _ _ => primary ≠ candidate
  | _ => True

namespace PolicyStore

variable [PyFloat F] (store : PolicyStore F V T) (H : Sha256)

/-- A read in a transaction of its own. -/
def reading (x : ControlPlaneTables V T → Except PyExc α) : Proc (StoreWorld F V T) PyExc α :=
  .atomic fun s => (x s.tables, s)

/-- A transaction that writes. -/
def writing (w : PolicyWrite F) : Proc (StoreWorld F V T) PyExc Unit :=
  .atomic fun s =>
    match store.write w s.tables with
    | (.ok u, t) => (.ok u, ⟨t, (w, s.tables) :: s.log⟩)
    | (.error e, t) => (.error e, ⟨t, s.log⟩)

def findBundle (key : PolicyKey) (version : Str) (t : ControlPlaneTables V T) :
    Except PyExc (PolicyBundle F) := do
  store.format.bindKey key
  store.format.bind version
  match t.bundle key version with
  | some row => bundleOfRow store.format row
  | none => .error (.keyError [lit "Policy bundle not found: " ++ key.organizationId ++ lit "/" ++
      key.environment ++ lit "/" ++ key.name ++ lit "/" ++ version])

def findActive (key : PolicyKey) (t : ControlPlaneTables V T) : Except PyExc Str := do
  store.format.bindKey key
  match t.activeRow key with
  | some row => return row.version
  | none => .error (.keyError [lit "No active policy: " ++ key.organizationId ++ lit "/" ++
      key.environment ++ lit "/" ++ key.name])

def findRollout (key : PolicyKey) (t : ControlPlaneTables V T) : Except PyExc (RolloutRow T) := do
  store.format.bindKey key
  match t.rollout key with
  | some row => return row
  | none => .error (.keyError [lit "No active policy rollout"])

def findAgent (key : AgentKey) (t : ControlPlaneTables V T) :
    Except PyExc (AgentRecord F V T) := do
  store.bindAgent key
  match t.agent key with
  | some row =>
    let metadata ← store.format.readJson row.metadataJson
    return ⟨row, metadata⟩
  | none => .error (.keyError [key.agentId])

def saveBundle (bundle : PolicyBundle F) : Proc (StoreWorld F V T) PyExc Unit :=
  store.writing (.saveBundle bundle)

def getBundle (key : PolicyKey) (version : Str) : Proc (StoreWorld F V T) PyExc (PolicyBundle F) :=
  reading (store.findBundle key version)

def activate (key : PolicyKey) (version now activatedBy : Str) (expected : Option Int) :
    Proc (StoreWorld F V T) PyExc (PolicyBundle F) := do
  let bundle ← store.getBundle key version
  store.writing (.activate key version now activatedBy expected)
  return bundle

def getActive (key : PolicyKey) : Proc (StoreWorld F V T) PyExc (PolicyBundle F) := do
  let version ← reading (store.findActive key)
  store.getBundle key version

def getRollout (key : PolicyKey) : Proc (StoreWorld F V T) PyExc (RolloutRow T) :=
  reading (store.findRollout key)

/-- `seed or digest_value({…})[:16]`. -/
def seedOr (key : PolicyKey) (candidate seed : Str) : Except PyExc Str :=
  if seed = [] then
    (digestValue H (PyVal.ofFields (F := F) [
      (lit "organization_id", .str key.organizationId), (lit "name", .str key.name),
      (lit "environment", .str key.environment), (lit "candidate", .str candidate)])).map
      fun digest => digest.take 16
  else .ok seed

def startRollout (key : PolicyKey) (candidate : Str) (percentage : Int) (now updatedBy seed : Str)
    (expected : Option Int) : Proc (StoreWorld F V T) PyExc (RolloutRow T) :=
  if ¬ (1 ≤ percentage ∧ percentage ≤ 99) then
    .raise (.valueError (lit "candidate_percentage must be between 1 and 99"))
  else do
    let primary ← store.getActive key
    let _ ← store.getBundle key candidate
    if primary.version = candidate then
      .raise (.valueError (lit "candidate_version must differ from the active version"))
    else do
      let seedValue ← reading fun _ => seedOr (F := F) H key candidate seed
      store.writing
        (.startRollout key primary.version candidate percentage seedValue now updatedBy expected)
      store.getRollout key

def cancelRollout (key : PolicyKey) : Proc (StoreWorld F V T) PyExc Unit :=
  store.writing (.cancelRollout key)

def resolveActive (key : PolicyKey) (agentId : Str) :
    Proc (StoreWorld F V T) PyExc (PolicyBundle F) := do
  let primary ← store.getActive key
  match ← (store.getRollout key).attempt with
  | .ok rollout =>
    let bucket ← reading fun _ => rolloutBucket H rollout.seed key agentId
    store.getBundle key <|
      if (bucket : Int) < rollout.candidatePercentage then rollout.candidateVersion
      else rollout.primaryVersion
  | .error (.keyError _) => return primary
  | .error e => .raise e

def getAgent (key : AgentKey) : Proc (StoreWorld F V T) PyExc (AgentRecord F V T) :=
  reading (store.findAgent key)

def registerAgent (key : AgentKey) (owner purpose status : Str)
    (metadata : List (PyKey F × PyVal F)) (version now : Str) (expected : Option Int) :
    Proc (StoreWorld F V T) PyExc (AgentRecord F V T) := do
  store.writing (.registerAgent key owner purpose status metadata version now expected)
  store.getAgent key

def heartbeat (key : AgentKey) (policyDigest version status now : Str) (expected : Option Int) :
    Proc (StoreWorld F V T) PyExc (AgentRecord F V T) := do
  store.writing (.heartbeat key policyDigest version status now expected)
  store.getAgent key

section

variable {store} {s s' : StoreWorld F V T}

omit [PyFloat F] in
theorem reading_eq_ok {x : ControlPlaneTables V T → Except PyExc α} {a : α} :
    (reading x).run s = (.ok a, s') ↔ x s.tables = .ok a ∧ s' = s := by
  show (x s.tables, s) = (Except.ok a, s') ↔ _
  rw [Prod.mk.injEq, eq_comm (a := s)]

omit [PyFloat F] in
theorem attempt_reading_eq_ok {x : ControlPlaneTables V T → Except PyExc α} {r : Except PyExc α} :
    (reading x).attempt.run s = (.ok r, s') ↔ x s.tables = r ∧ s' = s := by
  show (Except.ok (x s.tables), s) = (Except.ok r, s') ↔ _
  rw [Prod.mk.injEq, Except.ok.injEq, eq_comm (a := s)]

omit [PyFloat F] in
theorem bundleOfRow_version {row : BundleRow V T} {bundle : PolicyBundle F}
    (h : bundleOfRow store.format row = .ok bundle) :
    bundle.key = row.key ∧ bundle.version = row.version := by
  obtain ⟨_, -, h⟩ := except_bind_eq_ok.mp h
  cases h
  exact ⟨rfl, rfl⟩

omit [PyFloat F] in
theorem findBundle_eq_ok {key : PolicyKey} {version : Str} {t : ControlPlaneTables V T}
    {bundle : PolicyBundle F} (h : store.findBundle key version t = .ok bundle) :
    ∃ row, t.bundle key version = some row ∧ bundleOfRow store.format row = .ok bundle := by
  obtain ⟨_, -, h⟩ := except_bind_eq_ok.mp h
  obtain ⟨_, -, h⟩ := except_bind_eq_ok.mp h
  cases hrow : t.bundle key version with
  | none =>
    rw [hrow] at h
    cases h
  | some row =>
    rw [hrow] at h
    exact ⟨row, rfl, h⟩

omit [PyFloat F] in
/-- `get_bundle` answers with the bundle asked for, and changes nothing. -/
theorem getBundle_eq_ok {key : PolicyKey} {version : Str} {bundle : PolicyBundle F}
    (h : (store.getBundle key version).run s = (.ok bundle, s')) :
    s' = s ∧ bundle.key = key ∧ bundle.version = version := by
  obtain ⟨hfind, rfl⟩ := reading_eq_ok.mp h
  obtain ⟨row, hrow, hbundle⟩ := findBundle_eq_ok hfind
  obtain ⟨hkey, hversion⟩ := bundleOfRow_version hbundle
  obtain ⟨hkey', hversion'⟩ := ControlPlaneTables.key_of_bundle hrow
  exact ⟨rfl, hkey.trans hkey', hversion.trans hversion'⟩

omit [PyFloat F] in
/-- `get_active` answers with the active version. -/
theorem getActive_eq_ok {key : PolicyKey} {bundle : PolicyBundle F}
    (h : (store.getActive key).run s = (.ok bundle, s')) : s' = s ∧
      ∃ active, s.tables.activeRow key = some active ∧ bundle.version = active.version := by
  obtain ⟨version, s₁, hread, hget⟩ := Proc.run_bind_eq_ok.mp h
  obtain ⟨hfind, rfl⟩ := reading_eq_ok.mp hread
  obtain ⟨rfl, -, rfl⟩ := getBundle_eq_ok hget
  refine ⟨rfl, ?_⟩
  obtain ⟨_, -, hfind⟩ := except_bind_eq_ok.mp hfind
  cases hrow : s'.tables.activeRow key with
  | none =>
    rw [hrow] at hfind
    cases hfind
  | some row =>
    rw [hrow] at hfind
    exact ⟨row, rfl, (Except.ok.inj hfind).symm⟩

/-- A transaction is one write, or it raises and changes nothing. -/
theorem writing_eq {w : PolicyWrite F} {r : Except PyExc Unit}
    (h : (store.writing w).run s = (r, s')) :
    (∃ e, r = .error e ∧ (store.write w s.tables).1 = .error e ∧ s' = s) ∨
      ∃ t, r = .ok () ∧ store.write w s.tables = (.ok (), t) ∧
        s' = ⟨t, (w, s.tables) :: s.log⟩ := by
  rw [writing, Proc.run_atomic] at h
  rcases hwrite : store.write w s.tables with ⟨e | u, t⟩
  · obtain rfl := write_eq_error hwrite
    rw [hwrite] at h
    cases h
    exact .inl ⟨e, rfl, rfl, rfl⟩
  · rw [hwrite] at h
    cases h
    exact .inr ⟨t, rfl, rfl, rfl⟩

/-- `activate` writes once, after it found the bundle it answers with. -/
theorem activate_eq {key : PolicyKey} {version now activatedBy : Str} {expected : Option Int}
    {r : Except PyExc (PolicyBundle F)}
    (h : (store.activate key version now activatedBy expected).run s = (r, s')) :
    (s' = s ∧ (∃ e, r = .error e) ∧ ∀ bundle, store.findBundle key version s.tables = .ok bundle →
        (store.write (.activate key version now activatedBy expected) s.tables).1 ≠ .ok ()) ∨
      ∃ bundle t, r = .ok bundle ∧ store.findBundle key version s.tables = .ok bundle ∧
        store.write (.activate key version now activatedBy expected) s.tables = (.ok (), t) ∧
        s' = ⟨t, (.activate key version now activatedBy expected, s.tables) :: s.log⟩ := by
  rw [activate, getBundle, Proc.run_bind] at h
  have hread : (reading (store.findBundle key version)).run s =
      (store.findBundle key version s.tables, s) := rfl
  rw [hread] at h
  cases hfind : store.findBundle key version s.tables with
  | error e =>
    rw [hfind] at h
    cases h
    exact .inl ⟨rfl, ⟨e, rfl⟩, fun _ hbundle => by cases hbundle⟩
  | ok bundle =>
    rw [hfind] at h
    dsimp only at h
    rw [Proc.run_bind] at h
    rcases hwrite : (store.writing (.activate key version now activatedBy expected)).run s with
      ⟨q, u⟩
    rcases writing_eq hwrite with ⟨e, rfl, herror, rfl⟩ | ⟨t, rfl, hok, rfl⟩
    · rw [hwrite] at h
      cases h
      refine .inl ⟨rfl, ⟨e, rfl⟩, fun _ _ => ?_⟩
      rw [herror]
      exact fun hok => by cases hok
    · rw [hwrite] at h
      cases h
      exact .inr ⟨bundle, t, rfl, rfl, hok, rfl⟩

omit [PyFloat F] in
/-- `get_active` answers with a bundle of the store. -/
theorem getActive_found {key : PolicyKey} {bundle : PolicyBundle F}
    (h : (store.getActive key).run s = (.ok bundle, s')) :
    s' = s ∧ ∃ version, store.findBundle key version s.tables = .ok bundle := by
  obtain ⟨version, s₁, hread, hget⟩ := Proc.run_bind_eq_ok.mp h
  obtain ⟨-, rfl⟩ := reading_eq_ok.mp hread
  obtain ⟨hfind, rfl⟩ := reading_eq_ok.mp hget
  exact ⟨rfl, version, hfind⟩

omit [PyFloat F] in
/-- So does `resolve_active`. -/
theorem resolveActive_found {H : Sha256} {key : PolicyKey} {agentId : Str} {bundle : PolicyBundle F}
    (h : (store.resolveActive H key agentId).run s = (.ok bundle, s')) :
    s' = s ∧ ∃ version, store.findBundle key version s.tables = .ok bundle := by
  obtain ⟨primary, s₁, hprimary, hrest⟩ := Proc.run_bind_eq_ok.mp h
  obtain ⟨rfl, hfound⟩ := getActive_found hprimary
  obtain ⟨r, s₂, hrollout, hend⟩ := Proc.run_bind_eq_ok.mp hrest
  obtain ⟨-, rfl⟩ := attempt_reading_eq_ok.mp hrollout
  cases r with
  | ok rollout =>
    obtain ⟨bucket, s₃, hbucket, hget⟩ := Proc.run_bind_eq_ok.mp hend
    obtain ⟨-, rfl⟩ := reading_eq_ok.mp hbucket
    obtain ⟨hfind, rfl⟩ := reading_eq_ok.mp hget
    exact ⟨rfl, _, hfind⟩
  | error e =>
    cases e
    case keyError message =>
      cases hend
      exact ⟨rfl, hfound⟩
    all_goals cases hend

omit [PyFloat F] in
theorem findRollout_eq_ok {key : PolicyKey} {t : ControlPlaneTables V T} {row : RolloutRow T}
    (h : store.findRollout key t = .ok row) : t.rollout key = some row := by
  obtain ⟨_, -, h⟩ := except_bind_eq_ok.mp h
  cases hrow : t.rollout key with
  | none =>
    rw [hrow] at h
    cases h
  | some r =>
    rw [hrow] at h
    cases h
    rfl

end

/-! ### Stores under any number of administrators -/

/-- The calls of an administrator. -/
inductive StoreProgram : Proc (StoreWorld F V T) PyExc Unit → Prop
  | saveBundle (bundle : PolicyBundle F) : StoreProgram (store.saveBundle bundle)
  | activate (key : PolicyKey) (version now activatedBy : Str) (expected : Option Int) :
      StoreProgram do
        let _ ← store.activate key version now activatedBy expected
        return ()
  | startRollout (key : PolicyKey) (candidate : Str) (percentage : Int) (now updatedBy seed : Str)
      (expected : Option Int) :
      StoreProgram do
        let _ ← store.startRollout H key candidate percentage now updatedBy seed expected
        return ()
  | cancelRollout (key : PolicyKey) : StoreProgram (store.cancelRollout key)
  | resolveActive (key : PolicyKey) (agentId : Str) :
      StoreProgram do
        let _ ← store.resolveActive H key agentId
        return ()
  | registerAgent (key : AgentKey) (owner purpose status : Str)
      (metadata : List (PyKey F × PyVal F)) (version now : Str) (expected : Option Int) :
      StoreProgram do
        let _ ← store.registerAgent key owner purpose status metadata version now expected
        return ()
  | heartbeat (key : AgentKey) (policyDigest version status now : Str) (expected : Option Int) :
      StoreProgram do
        let _ ← store.heartbeat key policyDigest version status now expected
        return ()

/-- A new database. -/
def NewStore (s : StoreWorld F V T) : Prop := s = ⟨.empty, []⟩

/-- The stores that can arise, where any of the calls run at the same time. -/
abbrev StoreReach : Pool ℕ (StoreWorld F V T) PyExc Unit → Prop :=
  Pool.Reach NewStore (fun _ p => StoreProgram store H p) fun s s' => s' = s

/-- A store is the result of the writes in its log. -/
inductive History : StoreWorld F V T → Prop
  | init : History ⟨.empty, []⟩
  | write {s : StoreWorld F V T} {w : PolicyWrite F} {t : ControlPlaneTables V T} : History s →
      w.Checked → store.write w s.tables = (.ok (), t) → History ⟨t, (w, s.tables) :: s.log⟩

/-- What a step of a call does. -/
def Steps (s s' : StoreWorld F V T) : Prop :=
  s' = s ∨ ∃ w t, PolicyWrite.Checked w ∧ store.write w s.tables = (.ok (), t) ∧
    s' = ⟨t, (w, s.tables) :: s.log⟩

variable {store H}

theorem History.steps {s s' : StoreWorld F V T} (h : store.History s) (hs : store.Steps s s') :
    store.History s' := by
  rcases hs with rfl | ⟨w, t, hw, hwrite, rfl⟩
  · exact h
  · exact h.write hw hwrite

section

variable {R G : StoreWorld F V T → StoreWorld F V T → Prop} {s : StoreWorld F V T}

omit [PyFloat F] in
theorem follows_reading {x : ControlPlaneTables V T → Except PyExc α} (hread : ∀ s, G s s) :
    Proc.Follows R G (reading x) s := Proc.follows_atomic fun t _ => hread t

theorem follows_writing {w : PolicyWrite F} (hwrite : ∀ s, G s ((store.writing w).run s).2) :
    Proc.Follows R G (store.writing w) s := Proc.follows_atomic fun t _ => hwrite t

/-- A transaction is a step of the store. -/
theorem steps_writing {w : PolicyWrite F} (hw : w.Checked) (s : StoreWorld F V T) :
    store.Steps s ((store.writing w).run s).2 := by
  rcases hrun : (store.writing w).run s with ⟨r, u⟩
  rcases writing_eq hrun with ⟨e, rfl, -, rfl⟩ | ⟨t, rfl, hwrite, rfl⟩
  · exact .inl rfl
  · exact .inr ⟨w, t, hw, hwrite, rfl⟩

variable (hrefl : ∀ s, R s s) (hread : ∀ s, G s s)
include hrefl hread

omit [PyFloat F] in
theorem follows_getActive {key : PolicyKey} : Proc.Follows R G (store.getActive key) s :=
  Proc.follows_bind hrefl (follows_reading hread) fun _ _ => follows_reading hread

theorem follows_activate {key : PolicyKey} {version now activatedBy : Str} {expected : Option Int}
    (hwrite : ∀ s, G s
      ((store.writing (.activate key version now activatedBy expected)).run s).2) :
    Proc.Follows R G (store.activate key version now activatedBy expected) s :=
  Proc.follows_bind hrefl (follows_reading hread) fun _ _ =>
    Proc.follows_bind hrefl (follows_writing hwrite) fun _ _ => Proc.follows_pure

theorem follows_startRollout {key : PolicyKey} {candidate : Str} {percentage : Int}
    {now updatedBy seed : Str} {expected : Option Int}
    (hwrite : ∀ primary seedValue, primary ≠ candidate → ∀ s, G s ((store.writing
      (.startRollout key primary candidate percentage seedValue now updatedBy expected)).run s).2) :
    Proc.Follows R G
      (store.startRollout H key candidate percentage now updatedBy seed expected) s := by
  unfold startRollout
  split
  · exact Proc.follows_raise
  · refine Proc.follows_bind hrefl (follows_getActive hrefl hread) fun primary _ => ?_
    refine Proc.follows_bind hrefl (follows_reading hread) fun _ _ => ?_
    split
    · exact Proc.follows_raise
    · next hne =>
      refine Proc.follows_bind hrefl (follows_reading hread) fun seedValue _ => ?_
      exact Proc.follows_bind hrefl (follows_writing (hwrite _ seedValue hne)) fun _ _ =>
        follows_reading hread

omit [PyFloat F] in
theorem follows_resolveActive {key : PolicyKey} {agentId : Str} :
    Proc.Follows R G (store.resolveActive H key agentId) s := by
  refine Proc.follows_bind hrefl (follows_getActive hrefl hread) fun primary _ => ?_
  refine Proc.follows_bind hrefl
    (Proc.safe_attempt (follows_reading hread) fun _ _ _ _ => trivial) fun r _ => ?_
  cases r with
  | ok rollout =>
    exact Proc.follows_bind hrefl (follows_reading hread) fun _ _ => follows_reading hread
  | error e => cases e <;> first | exact Proc.follows_pure | exact Proc.follows_raise

omit hread in
theorem StoreProgram.follows {p : Proc (StoreWorld F V T) PyExc Unit}
    (h : StoreProgram store H p) : Proc.Follows R store.Steps p s := by
  have hdrop : ∀ {β : Type} {q : Proc (StoreWorld F V T) PyExc β} {u : StoreWorld F V T},
      Proc.Follows R store.Steps q u →
      Proc.Follows R store.Steps (q >>= fun _ => pure ()) u :=
    fun hq => Proc.follows_bind hrefl hq fun _ _ => Proc.follows_pure
  have hread : ∀ s, store.Steps s s := fun _ => .inl rfl
  cases h with
  | saveBundle bundle => exact follows_writing (steps_writing trivial)
  | activate key version now activatedBy expected =>
    exact hdrop (follows_activate hrefl hread (steps_writing trivial))
  | startRollout key candidate percentage now updatedBy seed expected =>
    exact hdrop (follows_startRollout hrefl hread fun _ _ hne => steps_writing hne)
  | cancelRollout key => exact follows_writing (steps_writing trivial)
  | resolveActive key agentId => exact hdrop (follows_resolveActive hrefl hread)
  | registerAgent key owner purpose status metadata version now expected =>
    exact hdrop (Proc.follows_bind hrefl (follows_writing (steps_writing trivial)) fun _ _ =>
      follows_reading hread)
  | heartbeat key policyDigest version status now expected =>
    exact hdrop (Proc.follows_bind hrefl (follows_writing (steps_writing trivial)) fun _ _ =>
      follows_reading hread)

end

/-- Whatever the administrators do, the store is the result of single writes. -/
theorem StoreReach.history {pool : Pool ℕ (StoreWorld F V T) PyExc Unit}
    (h : StoreReach store H pool) : store.History pool.state :=
  Pool.Reach.invariant (R := fun _ _ _ => True) (G := fun _ => store.Steps)
    (fun _ _ => trivial) (fun _ _ _ _ _ _ => trivial) (fun _ _ _ _ _ _ => trivial)
    (fun _ _ _ _ => trivial) (fun _ _ _ hp => hp.follows fun _ => trivial)
    (fun s hs => by rw [NewStore] at hs; rw [hs]; exact .init) (fun _ _ _ hs hh => hh.steps hs)
    (fun _ _ hs hh => by rw [hs]; exact hh) h

/-! ### A small store -/

def sampleKey : PolicyKey := ⟨lit "org", lit "policy", lit "prod"⟩

def sampleBundle (version : String) : PolicyBundle Half :=
  ⟨sampleKey, lit version, .obj [], [], [], [], lit "published", [], []⟩

abbrev SampleProgram := Proc (StoreWorld Half Str Str) PyExc Unit

def activateSample (version : String) : SampleProgram := do
  let _ ← sqliteStore.activate sampleKey (lit version) [] [] none
  return ()

def rolloutSample (candidate : String) (expected : Option Int) : SampleProgram := do
  let _ ← sqliteStore.startRollout default sampleKey (lit candidate) 50 [] [] (lit "seed") expected
  return ()

/-- Programs that run one after the other, on a new database. -/
def runSample (programs : List SampleProgram) : StoreWorld Half Str Str :=
  programs.foldl (fun s p => (p.run s).2) ⟨.empty, []⟩

theorem runSample_reach {programs : List SampleProgram}
    (h : ∀ p ∈ programs, StoreProgram sqliteStore default p) :
    StoreReach sqliteStore default ⟨runSample programs, fun _ => none⟩ := by
  have hfold : ∀ s : StoreWorld Half Str Str,
      StoreReach sqliteStore default ⟨s, fun _ => none⟩ →
      StoreReach sqliteStore default
        ⟨programs.foldl (fun s p => (p.run s).2) s, fun _ => none⟩ := by
    induction programs with
    | nil => exact fun s hs => hs
    | cons p programs ih =>
      intro s hs
      exact ih (fun q hq => h q (List.mem_cons_of_mem _ hq)) _
        (Pool.Reach.run (i := 0) hs (h p List.mem_cons_self))
  exact hfold _ (.init rfl)

/-- Three versions, of which the first is active. -/
def samplePrograms : List SampleProgram :=
  [sqliteStore.saveBundle (sampleBundle "1"), sqliteStore.saveBundle (sampleBundle "2"),
    sqliteStore.saveBundle (sampleBundle "3"), activateSample "1"]

theorem samplePrograms_store : ∀ p ∈ samplePrograms, StoreProgram sqliteStore default p := by
  simp only [samplePrograms, List.mem_cons, List.not_mem_nil, or_false]
  rintro p (rfl | rfl | rfl | rfl)
  · exact .saveBundle _
  · exact .saveBundle _
  · exact .saveBundle _
  · exact .activate _ _ _ _ _

/-- A rollout of version 2, and one of version 3 by a caller who read the first
at revision 1. -/
def rolloutPrograms : List SampleProgram :=
  samplePrograms ++ [rolloutSample "2" none, rolloutSample "3" (some 1)]

theorem rolloutPrograms_store : ∀ p ∈ rolloutPrograms, StoreProgram sqliteStore default p := by
  simp only [rolloutPrograms, List.mem_append, List.mem_cons, List.not_mem_nil, or_false]
  rintro p (hp | rfl | rfl)
  · exact samplePrograms_store p hp
  · exact .startRollout _ _ _ _ _ _ _
  · exact .startRollout _ _ _ _ _ _ _

theorem rolloutPrograms_rollout : (runSample rolloutPrograms).tables.rollout sampleKey =
    some ⟨sampleKey, lit "1", lit "3", 50, lit "seed", [], [], 2⟩ := by
  decide +kernel

end PolicyStore

end AgentRoi
