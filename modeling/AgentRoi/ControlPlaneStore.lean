/-
`SqliteControlPlaneStore` and `PostgresControlPlaneStore`.

The two stores run the same statements.  What differs is how they keep texts
and JSON, which revisions they can bind, and what `save_bundle` makes of an
exception.

* `PolicyWrite`, `PolicyStore.write` — the transactions that change a table;
* `newActive`, `newRollout`, `newAgent`, `beatenAgent` — the rows they write;
* `activeRow_of_write`, `rollout_of_write`, `agent_of_write`,
  `bundle_of_write` — what a write does to each table;
* `expected_of_write`, `write_stale` — a write with an expected revision finds
  it, or raises and changes nothing.

`now` is what `_utc_now()` yields.
-/
import AgentRoi.ControlPlaneTables
import AgentRoi.PyM
import AgentRoi.RevisionHistory

namespace AgentRoi

variable {F V T : Type}

def controlPlaneError (message : Str) : PyExc :=
  .other (lit "ControlPlaneError") (some message) true

/-- `bindRevision` is the binding of an `expected_revision`. -/
structure PolicyStore (F V T : Type) where
  format : PolicyFormat F V T
  bindRevision : Int → Except PyExc Unit
  saveError : PyExc → PyExc

/-- SQLite binds the integers of 64 bits. -/
def sqliteStore [PyFloat F] : PolicyStore F Str Str where
  format := sqlitePolicyFormat
  bindRevision i := if -2 ^ 63 ≤ i ∧ i < 2 ^ 63 then .ok () else .error .overflowError
  saveError
    | .integrityError => controlPlaneError (lit "Policy version already exists")
    | e => e

def postgresStore [PyFloat F] (driver : PgPolicyDriver F) : PolicyStore F (Json F) Instant where
  format := postgresPolicyFormat driver
  bindRevision _ := .ok ()
  saveError _ :=
    controlPlaneError (lit "Policy version already exists or could not be saved")

/-! ### Writes -/

/-- The transactions that change a table, with their parameters. -/
inductive PolicyWrite (F : Type) where
  | saveBundle (bundle : PolicyBundle F)
  | activate (key : PolicyKey) (version now activatedBy : Str) (expected : Option Int)
  | startRollout (key : PolicyKey) (primary candidate : Str) (percentage : Int)
      (seed now updatedBy : Str) (expected : Option Int)
  | cancelRollout (key : PolicyKey)
  | registerAgent (key : AgentKey) (owner purpose status : Str)
      (metadata : List (PyKey F × PyVal F)) (version now : Str) (expected : Option Int)
  | heartbeat (key : AgentKey) (policyDigest version status now : Str) (expected : Option Int)

/-- `int(expected_revision)`, where the write has one. -/
def PolicyWrite.expected : PolicyWrite F → Option Int
  | .saveBundle _ => none
  | .activate _ _ _ _ expected => expected
  | .startRollout _ _ _ _ _ _ _ expected => expected
  | .cancelRollout _ => none
  | .registerAgent _ _ _ _ _ _ _ expected => expected
  | .heartbeat _ _ _ _ _ expected => expected

/-- The revision of the row the write is about. -/
def PolicyWrite.found (t : ControlPlaneTables V T) : PolicyWrite F → Option ℕ
  | .saveBundle _ => none
  | .activate key _ _ _ _ => (t.activeRow key).map ActiveRow.revision
  | .startRollout key _ _ _ _ _ _ _ => (t.rollout key).map RolloutRow.revision
  | .cancelRollout key => (t.rollout key).map RolloutRow.revision
  | .registerAgent key _ _ _ _ _ _ _ => (t.agent key).map AgentRow.revision
  | .heartbeat key _ _ _ _ _ => (t.agent key).map AgentRow.revision

namespace PolicyStore

variable [PyFloat F] (store : PolicyStore F V T)

def bindAgent (key : AgentKey) : Except PyExc Unit := do
  store.format.bind key.organizationId
  store.format.bind key.agentId
  store.format.bind key.environment

/-- The row that `WHERE … AND revision=?` finds; with none, `cursor.rowcount != 1`. -/
def matchRow {ρ : Type} (revisionOf : ρ → ℕ) (row : Option ρ) (revision : Int) (conflict : Str) :
    Except PyExc ρ := do
  store.bindRevision revision
  match row with
  | some row =>
    if (revisionOf row : Int) = revision then .ok row else .error (controlPlaneError conflict)
  | none => .error (controlPlaneError conflict)

/-- The row of a bundle is there unless a foreign key fails. -/
def putActive (row : ActiveRow T) : PyM (ControlPlaneTables V T) Unit := fun t =>
  if h : t.HasBundle row.key row.version then (.ok (), t.putActive row h)
  else (.error .integrityError, t)

def putRollout (row : RolloutRow T) : PyM (ControlPlaneTables V T) Unit := fun t =>
  if h : t.HasBundle row.key row.primaryVersion ∧ t.HasBundle row.key row.candidateVersion then
    (.ok (), t.putRollout row h)
  else (.error .integrityError, t)

def insertBundle (row : BundleRow V T) : PyM (ControlPlaneTables V T) Unit := fun t =>
  if h : t.bundle row.key row.version = none then (.ok (), t.insertBundle row h)
  else (.error .integrityError, t)

/-- The row `activate` writes. -/
def newActive (t : ControlPlaneTables V T) (key : PolicyKey) (version now activatedBy : Str) :
    Option Int → Except PyExc (ActiveRow T)
  | none => do
    store.format.bindKey key
    store.format.bind version
    let time ← store.format.writeTime now
    store.format.bind activatedBy
    return ⟨key, version, time, activatedBy,
      RevisionHistory.next ((t.activeRow key).map ActiveRow.revision)⟩
  | some revision => do
    store.format.bind version
    let time ← store.format.writeTime now
    store.format.bind activatedBy
    store.format.bindKey key
    let row ← store.matchRow ActiveRow.revision (t.activeRow key) revision
      (lit "Active policy revision conflict")
    return ⟨key, version, time, activatedBy, row.revision + 1⟩

/-- The row `start_rollout` writes. -/
def newRollout (t : ControlPlaneTables V T) (key : PolicyKey) (primary candidate : Str)
    (percentage : Int) (seed now updatedBy : Str) : Option Int → Except PyExc (RolloutRow T)
  | none => do
    store.format.bindKey key
    store.format.bind primary
    store.format.bind candidate
    store.format.bind seed
    let time ← store.format.writeTime now
    store.format.bind updatedBy
    return ⟨key, primary, candidate, percentage, seed, time, updatedBy,
      RevisionHistory.next ((t.rollout key).map RolloutRow.revision)⟩
  | some revision => do
    store.format.bind primary
    store.format.bind candidate
    store.format.bind seed
    let time ← store.format.writeTime now
    store.format.bind updatedBy
    store.format.bindKey key
    let row ← store.matchRow RolloutRow.revision (t.rollout key) revision
      (lit "Policy rollout revision conflict")
    return ⟨key, primary, candidate, percentage, seed, time, updatedBy, row.revision + 1⟩

/-- The row `register_agent` writes: of a known agent it keeps the rest. -/
def newAgent (t : ControlPlaneTables V T) (key : AgentKey) (owner purpose status : Str)
    (metadata : List (PyKey F × PyVal F)) (version now : Str) :
    Option Int → Except PyExc (AgentRow V T)
  | none => do
    store.bindAgent key
    store.format.bind owner
    store.format.bind purpose
    store.format.bind status
    let value ← store.format.writeJson (canonicalJson (.dict metadata))
    let time ← store.format.writeTime now
    store.format.bind version
    match t.agent key with
    | none => return ⟨key, owner, purpose, status, value, time, none, none, some version, 1⟩
    | some row => return { row with
        owner := owner, purpose := purpose, status := status, metadataJson := value
        version := some version, revision := row.revision + 1 }
  | some revision => do
    store.format.bind owner
    store.format.bind purpose
    store.format.bind status
    let value ← store.format.writeJson (canonicalJson (.dict metadata))
    store.format.bind version
    store.bindAgent key
    let row ← store.matchRow AgentRow.revision (t.agent key) revision
      (lit "Agent revision conflict")
    return { row with
      owner := owner, purpose := purpose, status := status, metadataJson := value
      version := some version, revision := row.revision + 1 }

/-- The row `heartbeat` updates. -/
def foundAgent (t : ControlPlaneTables V T) (key : AgentKey) : Option Int → Except PyExc (AgentRow V T)
  | some revision => store.matchRow AgentRow.revision (t.agent key) revision
      (lit "Agent heartbeat revision conflict")
  | none =>
    (t.agent key).elim (.error (.keyError [lit "Agent not registered: " ++ key.agentId])) .ok

/-- The row `heartbeat` writes. -/
def beatenAgent (t : ControlPlaneTables V T) (key : AgentKey)
    (policyDigest version status now : Str) (expected : Option Int) :
    Except PyExc (AgentRow V T) := do
  let time ← store.format.writeTime now
  store.format.bind policyDigest
  store.format.bind version
  store.format.bind status
  store.bindAgent key
  let row ← store.foundAgent t key expected
  return { row with
    lastHeartbeatUtc := some time, policyDigest := some policyDigest, version := some version
    status := status, revision := row.revision + 1 }

/-- The body of each transaction. -/
def statement : PolicyWrite F → PyM (ControlPlaneTables V T) Unit
  | .saveBundle bundle => .tryExcept (do
      let row ← .ofExcept (rowOfBundle store.format bundle)
      insertBundle row) fun e => .raise (store.saveError e)
  | .activate key version now activatedBy expected => do
    let t ← PyM.get
    let row ← .ofExcept (store.newActive t key version now activatedBy expected)
    putActive row
    .modify fun t => t.deleteRollout key
  | .startRollout key primary candidate percentage seed now updatedBy expected => do
    let t ← PyM.get
    let row ← .ofExcept
      (store.newRollout t key primary candidate percentage seed now updatedBy expected)
    putRollout row
  | .cancelRollout key => do
    .ofExcept (store.format.bindKey key)
    .modify fun t => t.deleteRollout key
  | .registerAgent key owner purpose status metadata version now expected => do
    let t ← PyM.get
    let row ← .ofExcept
      (store.newAgent t key owner purpose status metadata version now expected)
    .modify fun t => t.putAgent row
  | .heartbeat key policyDigest version status now expected => do
    let t ← PyM.get
    let row ← .ofExcept (store.beatenAgent t key policyDigest version status now expected)
    .modify fun t => t.putAgent row

/-- One transaction. -/
def write (w : PolicyWrite F) : PyM (ControlPlaneTables V T) Unit := .transaction (store.statement w)

/-! ### What the writes do -/

variable {store : PolicyStore F V T} {t t' : ControlPlaneTables V T} {key : PolicyKey}

omit [PyFloat F] in
theorem matchRow_eq_ok {ρ : Type} {revisionOf : ρ → ℕ} {found : Option ρ} {revision : Int}
    {conflict : Str} {row : ρ} (h : store.matchRow revisionOf found revision conflict = .ok row) :
    found = some row ∧ (revisionOf row : Int) = revision := by
  obtain ⟨_, -, h⟩ := except_bind_eq_ok.mp h
  cases found with
  | none => cases h
  | some r =>
    dsimp only at h
    split at h
    · next hr =>
      cases h
      exact ⟨rfl, hr⟩
    · cases h

omit [PyFloat F] in
theorem newActive_eq_ok {version now activatedBy : Str} {expected : Option Int} {row : ActiveRow T}
    (h : store.newActive t key version now activatedBy expected = .ok row) :
    row.key = key ∧ row.version = version ∧
      row.revision = RevisionHistory.next ((t.activeRow key).map ActiveRow.revision) ∧
      ∀ r, expected = some r → ∃ old, t.activeRow key = some old ∧ (old.revision : Int) = r := by
  cases expected with
  | none =>
    simp only [newActive, except_bind_eq_ok] at h
    obtain ⟨_, -, _, -, _, -, _, -, h⟩ := h
    cases h
    exact ⟨rfl, rfl, rfl, fun r hr => by cases hr⟩
  | some revision =>
    simp only [newActive, except_bind_eq_ok] at h
    obtain ⟨_, -, _, -, _, -, _, -, old, hold, h⟩ := h
    obtain ⟨hfound, hrevision⟩ := matchRow_eq_ok hold
    cases h
    refine ⟨rfl, rfl, by rw [hfound]; rfl, fun r hr => ⟨old, hfound, ?_⟩⟩
    cases hr
    exact hrevision

omit [PyFloat F] in
theorem newRollout_eq_ok {primary candidate : Str} {percentage : Int} {seed now updatedBy : Str}
    {expected : Option Int} {row : RolloutRow T}
    (h : store.newRollout t key primary candidate percentage seed now updatedBy expected = .ok row) :
    row.key = key ∧ row.primaryVersion = primary ∧ row.candidateVersion = candidate ∧
      row.revision = RevisionHistory.next ((t.rollout key).map RolloutRow.revision) ∧
      ∀ r, expected = some r → ∃ old, t.rollout key = some old ∧ (old.revision : Int) = r := by
  cases expected with
  | none =>
    simp only [newRollout, except_bind_eq_ok] at h
    obtain ⟨_, -, _, -, _, -, _, -, _, -, _, -, h⟩ := h
    cases h
    exact ⟨rfl, rfl, rfl, rfl, fun r hr => by cases hr⟩
  | some revision =>
    simp only [newRollout, except_bind_eq_ok] at h
    obtain ⟨_, -, _, -, _, -, _, -, _, -, _, -, old, hold, h⟩ := h
    obtain ⟨hfound, hrevision⟩ := matchRow_eq_ok hold
    cases h
    refine ⟨rfl, rfl, rfl, by rw [hfound]; rfl, fun r hr => ⟨old, hfound, ?_⟩⟩
    cases hr
    exact hrevision

section

variable {agent : AgentKey} {expected : Option Int} {row : AgentRow V T}

theorem newAgent_eq_ok {owner purpose status : Str} {metadata : List (PyKey F × PyVal F)}
    {version now : Str}
    (h : store.newAgent t agent owner purpose status metadata version now expected = .ok row) :
    row.key = agent ∧ row.revision = RevisionHistory.next ((t.agent agent).map AgentRow.revision) ∧
      ∀ r, expected = some r → ∃ old, t.agent agent = some old ∧ (old.revision : Int) = r := by
  cases expected with
  | none =>
    simp only [newAgent, except_bind_eq_ok] at h
    obtain ⟨_, -, _, -, _, -, _, -, _, -, _, -, _, -, h⟩ := h
    cases hagent : t.agent agent with
    | none =>
      rw [hagent] at h
      cases h
      exact ⟨rfl, rfl, fun r hr => by cases hr⟩
    | some old =>
      have hkey : old.key = agent := ControlPlaneTables.key_of_agent hagent
      rw [hagent] at h
      cases h
      exact ⟨hkey, rfl, fun r hr => by cases hr⟩
  | some revision =>
    simp only [newAgent, except_bind_eq_ok] at h
    obtain ⟨_, -, _, -, _, -, _, -, _, -, _, -, old, hold, h⟩ := h
    obtain ⟨hfound, hrevision⟩ := matchRow_eq_ok hold
    have hkey : old.key = agent := ControlPlaneTables.key_of_agent hfound
    cases h
    refine ⟨hkey, by rw [hfound]; rfl, fun r hr => ⟨old, hfound, ?_⟩⟩
    cases hr
    exact hrevision

omit [PyFloat F] in
theorem beatenAgent_eq_ok {policyDigest version status now : Str}
    (h : store.beatenAgent t agent policyDigest version status now expected = .ok row) :
    row.key = agent ∧ row.revision = RevisionHistory.next ((t.agent agent).map AgentRow.revision) ∧
      ∀ r, expected = some r → ∃ old, t.agent agent = some old ∧ (old.revision : Int) = r := by
  simp only [beatenAgent, except_bind_eq_ok] at h
  obtain ⟨_, -, _, -, _, -, _, -, _, -, old, hold, h⟩ := h
  have hfound : t.agent agent = some old ∧ ∀ r, expected = some r → (old.revision : Int) = r := by
    cases expected with
    | none =>
      unfold foundAgent at hold
      cases hagent : t.agent agent with
      | none =>
        rw [hagent] at hold
        cases hold
      | some found =>
        rw [hagent] at hold
        cases hold
        exact ⟨rfl, fun r hr => by cases hr⟩
    | some revision =>
      obtain ⟨hfound, hrevision⟩ := matchRow_eq_ok hold
      refine ⟨hfound, fun r hr => ?_⟩
      cases hr
      exact hrevision
  have hkey : old.key = agent := ControlPlaneTables.key_of_agent hfound.1
  cases h
  exact ⟨hkey, by rw [hfound.1]; rfl, fun r hr => ⟨old, hfound.1, hfound.2 r hr⟩⟩

end

theorem write_eq_ok {w : PolicyWrite F} {u : Unit} :
    store.write w t = (.ok u, t') ↔ store.statement w t = (.ok u, t') := PyM.transaction_eq_ok

/-- A write that raises changes nothing. -/
theorem write_eq_error {w : PolicyWrite F} {e : PyExc} (h : store.write w t = (.error e, t')) :
    t' = t := (PyM.transaction_eq_error.mp h).1

theorem write_activate {version now activatedBy : Str} {expected : Option Int} {u : Unit}
    (h : store.write (.activate key version now activatedBy expected) t = (.ok u, t')) :
    ∃ row hrow, store.newActive t key version now activatedBy expected = .ok row ∧
      t' = (t.putActive row hrow).deleteRollout key := by
  obtain ⟨row, hnew, h⟩ := PyM.ofExcept_bind_eq_ok.mp (write_eq_ok.mp h)
  obtain ⟨_, t₁, hput, h⟩ := PyM.bind_eq_ok.mp h
  unfold putActive at hput
  split at hput
  · next hrow =>
    cases hput
    cases h
    exact ⟨row, hrow, hnew, rfl⟩
  · cases hput

theorem write_startRollout {primary candidate : Str} {percentage : Int} {seed now updatedBy : Str}
    {expected : Option Int} {u : Unit}
    (h : store.write (.startRollout key primary candidate percentage seed now updatedBy expected) t =
      (.ok u, t')) :
    ∃ row hrow,
      store.newRollout t key primary candidate percentage seed now updatedBy expected = .ok row ∧
        t' = t.putRollout row hrow := by
  obtain ⟨row, hnew, h⟩ := PyM.ofExcept_bind_eq_ok.mp (write_eq_ok.mp h)
  unfold putRollout at h
  split at h
  · next hrow =>
    cases h
    exact ⟨row, hrow, hnew, rfl⟩
  · cases h

theorem write_cancelRollout {u : Unit} (h : store.write (.cancelRollout key) t = (.ok u, t')) :
    t' = t.deleteRollout key := by
  obtain ⟨_, -, h⟩ := PyM.ofExcept_bind_eq_ok.mp (write_eq_ok.mp h)
  cases h
  rfl

theorem write_saveBundle {bundle : PolicyBundle F} {u : Unit}
    (h : store.write (.saveBundle bundle) t = (.ok u, t')) :
    ∃ row hrow, rowOfBundle store.format bundle = .ok row ∧ t' = t.insertBundle row hrow := by
  have hstatement : PyM.tryExcept (do
      let row ← .ofExcept (rowOfBundle store.format bundle)
      insertBundle row) (fun e => .raise (store.saveError e)) t = (.ok u, t') := write_eq_ok.mp h
  rcases hbody : (do
      let row ← .ofExcept (rowOfBundle store.format bundle)
      insertBundle row : PyM (ControlPlaneTables V T) Unit) t with ⟨e | _, t₁⟩
  · rw [PyM.tryExcept, hbody] at hstatement
    cases hstatement
  · rw [PyM.tryExcept, hbody] at hstatement
    obtain ⟨row, hrow, hinsert⟩ := PyM.ofExcept_bind_eq_ok.mp hbody
    unfold insertBundle at hinsert
    split at hinsert
    · next hnone =>
      cases hinsert
      cases hstatement
      exact ⟨row, hnone, hrow, rfl⟩
    · cases hinsert

theorem write_registerAgent {agent : AgentKey} {owner purpose status : Str}
    {metadata : List (PyKey F × PyVal F)} {version now : Str} {expected : Option Int} {u : Unit}
    (h : store.write (.registerAgent agent owner purpose status metadata version now expected) t =
      (.ok u, t')) :
    ∃ row, store.newAgent t agent owner purpose status metadata version now expected = .ok row ∧
      t' = t.putAgent row := by
  obtain ⟨row, hnew, h⟩ := PyM.ofExcept_bind_eq_ok.mp (write_eq_ok.mp h)
  cases h
  exact ⟨row, hnew, rfl⟩

theorem write_heartbeat {agent : AgentKey} {policyDigest version status now : Str}
    {expected : Option Int} {u : Unit}
    (h : store.write (.heartbeat agent policyDigest version status now expected) t = (.ok u, t')) :
    ∃ row, store.beatenAgent t agent policyDigest version status now expected = .ok row ∧
      t' = t.putAgent row := by
  obtain ⟨row, hnew, h⟩ := PyM.ofExcept_bind_eq_ok.mp (write_eq_ok.mp h)
  cases h
  exact ⟨row, hnew, rfl⟩

/-- A write keeps the bundles there are. -/
theorem bundle_of_write {w : PolicyWrite F} {u : Unit} (h : store.write w t = (.ok u, t'))
    {version : Str} {row : BundleRow V T} (hrow : t.bundle key version = some row) :
    t'.bundle key version = some row := by
  cases w with
  | saveBundle bundle =>
    obtain ⟨_, _, -, rfl⟩ := write_saveBundle h
    exact ControlPlaneTables.bundle_insertBundle_of_some hrow
  | activate k v now by_ expected =>
    obtain ⟨_, _, -, rfl⟩ := write_activate h
    exact hrow
  | startRollout k primary candidate percentage seed now by_ expected =>
    obtain ⟨_, _, -, rfl⟩ := write_startRollout h
    exact hrow
  | cancelRollout k =>
    obtain rfl := write_cancelRollout h
    exact hrow
  | registerAgent agent owner purpose status metadata v now expected =>
    obtain ⟨_, -, rfl⟩ := write_registerAgent h
    exact hrow
  | heartbeat agent digest v status now expected =>
    obtain ⟨_, -, rfl⟩ := write_heartbeat h
    exact hrow

variable (key) in
/-- A write keeps the active version, or it activates the one it names. -/
theorem activeRow_of_write {w : PolicyWrite F} {u : Unit} (h : store.write w t = (.ok u, t')) :
    t'.activeRow key = t.activeRow key ∨
      ∃ version now activatedBy expected row, w = .activate key version now activatedBy expected ∧
        t'.activeRow key = some row ∧ row.version = version ∧
        row.revision = RevisionHistory.next ((t.activeRow key).map ActiveRow.revision) := by
  cases w with
  | saveBundle bundle =>
    obtain ⟨_, _, -, rfl⟩ := write_saveBundle h
    exact .inl rfl
  | activate k version now activatedBy expected =>
    obtain ⟨row, hrow, hnew, rfl⟩ := write_activate h
    obtain ⟨rfl, hversion, hrevision, -⟩ := newActive_eq_ok hnew
    by_cases hk : row.key = key
    · subst hk
      exact .inr ⟨version, now, activatedBy, expected, row, rfl,
        ControlPlaneTables.activeRow_putActive_self (h := hrow), hversion, hrevision⟩
    · exact .inl (ControlPlaneTables.activeRow_putActive_of_ne (h := hrow) hk)
  | startRollout k primary candidate percentage seed now by_ expected =>
    obtain ⟨_, _, -, rfl⟩ := write_startRollout h
    exact .inl rfl
  | cancelRollout k =>
    obtain rfl := write_cancelRollout h
    exact .inl rfl
  | registerAgent agent owner purpose status metadata v now expected =>
    obtain ⟨_, -, rfl⟩ := write_registerAgent h
    exact .inl rfl
  | heartbeat agent digest v status now expected =>
    obtain ⟨_, -, rfl⟩ := write_heartbeat h
    exact .inl rfl

omit [PyFloat F] in
variable (t key) in
theorem rollout_deleteRollout (k : PolicyKey) :
    (t.deleteRollout k).rollout key = t.rollout key ∨ (t.deleteRollout k).rollout key = none := by
  by_cases hk : key = k
  · subst hk
    exact .inr ControlPlaneTables.rollout_deleteRollout_self
  · exact .inl (ControlPlaneTables.rollout_deleteRollout_of_ne hk)

variable (key) in
/-- A write keeps the rollout, deletes it or writes the one it names. -/
theorem rollout_of_write {w : PolicyWrite F} {u : Unit} (h : store.write w t = (.ok u, t')) :
    t'.rollout key = t.rollout key ∨ t'.rollout key = none ∨
      ∃ primary candidate percentage seed now updatedBy expected row,
        w = .startRollout key primary candidate percentage seed now updatedBy expected ∧
        t'.rollout key = some row ∧ row.primaryVersion = primary ∧ row.candidateVersion = candidate ∧
        row.revision = RevisionHistory.next ((t.rollout key).map RolloutRow.revision) := by
  cases w with
  | saveBundle bundle =>
    obtain ⟨_, _, -, rfl⟩ := write_saveBundle h
    exact .inl rfl
  | activate k version now by_ expected =>
    obtain ⟨row, hrow, -, rfl⟩ := write_activate h
    rcases rollout_deleteRollout (t.putActive row hrow) key k with hsame | hnone
    · exact .inl hsame
    · exact .inr (.inl hnone)
  | startRollout k primary candidate percentage seed now updatedBy expected =>
    obtain ⟨row, hrow, hnew, rfl⟩ := write_startRollout h
    obtain ⟨rfl, hprimary, hcandidate, hrevision, -⟩ := newRollout_eq_ok hnew
    by_cases hk : row.key = key
    · subst hk
      exact .inr (.inr ⟨primary, candidate, percentage, seed, now, updatedBy, expected, row, rfl,
        ControlPlaneTables.rollout_putRollout_self (h := hrow), hprimary, hcandidate, hrevision⟩)
    · exact .inl (ControlPlaneTables.rollout_putRollout_of_ne (h := hrow) hk)
  | cancelRollout k =>
    obtain rfl := write_cancelRollout h
    rcases rollout_deleteRollout t key k with hsame | hnone
    · exact .inl hsame
    · exact .inr (.inl hnone)
  | registerAgent agent owner purpose status metadata v now expected =>
    obtain ⟨_, -, rfl⟩ := write_registerAgent h
    exact .inl rfl
  | heartbeat agent digest v status now expected =>
    obtain ⟨_, -, rfl⟩ := write_heartbeat h
    exact .inl rfl

/-- A write keeps an agent's row, or writes it under the next revision. -/
theorem agent_of_write {w : PolicyWrite F} {u : Unit} (agent : AgentKey)
    (h : store.write w t = (.ok u, t')) : t'.agent agent = t.agent agent ∨
      ∃ row, t'.agent agent = some row ∧
        row.revision = RevisionHistory.next ((t.agent agent).map AgentRow.revision) := by
  have hput : ∀ (a : AgentKey) (row : AgentRow V T), row.key = a →
      row.revision = RevisionHistory.next ((t.agent a).map AgentRow.revision) →
      (t.putAgent row).agent agent = t.agent agent ∨ ∃ r, (t.putAgent row).agent agent = some r ∧
        r.revision = RevisionHistory.next ((t.agent agent).map AgentRow.revision) := by
    rintro a row rfl hrevision
    by_cases hk : row.key = agent
    · subst hk
      exact .inr ⟨row, ControlPlaneTables.agent_putAgent_self, hrevision⟩
    · exact .inl (ControlPlaneTables.agent_putAgent_of_ne hk)
  cases w with
  | saveBundle bundle =>
    obtain ⟨_, _, -, rfl⟩ := write_saveBundle h
    exact .inl rfl
  | activate k version now by_ expected =>
    obtain ⟨_, _, -, rfl⟩ := write_activate h
    exact .inl rfl
  | startRollout k primary candidate percentage seed now by_ expected =>
    obtain ⟨_, _, -, rfl⟩ := write_startRollout h
    exact .inl rfl
  | cancelRollout k =>
    obtain rfl := write_cancelRollout h
    exact .inl rfl
  | registerAgent a owner purpose status metadata v now expected =>
    obtain ⟨row, hnew, rfl⟩ := write_registerAgent h
    obtain ⟨hkey, hrevision, -⟩ := newAgent_eq_ok hnew
    exact hput a row hkey hrevision
  | heartbeat a digest v status now expected =>
    obtain ⟨row, hnew, rfl⟩ := write_heartbeat h
    obtain ⟨hkey, hrevision, -⟩ := beatenAgent_eq_ok hnew
    exact hput a row hkey hrevision

/-- A write with an expected revision found it. -/
theorem expected_of_write {w : PolicyWrite F} {u : Unit} (h : store.write w t = (.ok u, t'))
    {r : Int} (hr : w.expected = some r) : ∃ n, w.found t = some n ∧ (n : Int) = r := by
  cases w with
  | saveBundle bundle => cases hr
  | activate k version now by_ expected =>
    obtain ⟨_, _, hnew, -⟩ := write_activate h
    obtain ⟨old, hold, heq⟩ := (newActive_eq_ok hnew).2.2.2 r hr
    exact ⟨old.revision, by simp [PolicyWrite.found, hold], heq⟩
  | startRollout k primary candidate percentage seed now by_ expected =>
    obtain ⟨_, _, hnew, -⟩ := write_startRollout h
    obtain ⟨old, hold, heq⟩ := (newRollout_eq_ok hnew).2.2.2.2 r hr
    exact ⟨old.revision, by simp [PolicyWrite.found, hold], heq⟩
  | cancelRollout k => cases hr
  | registerAgent a owner purpose status metadata v now expected =>
    obtain ⟨_, hnew, -⟩ := write_registerAgent h
    obtain ⟨old, hold, heq⟩ := (newAgent_eq_ok hnew).2.2 r hr
    exact ⟨old.revision, by simp [PolicyWrite.found, hold], heq⟩
  | heartbeat a digest v status now expected =>
    obtain ⟨_, hnew, -⟩ := write_heartbeat h
    obtain ⟨old, hold, heq⟩ := (beatenAgent_eq_ok hnew).2.2 r hr
    exact ⟨old.revision, by simp [PolicyWrite.found, hold], heq⟩

/-- The text a stale revision raises. -/
def conflict : PolicyWrite F → Str
  | .startRollout .. => lit "Policy rollout revision conflict"
  | .registerAgent .. => lit "Agent revision conflict"
  | .heartbeat .. => lit "Agent heartbeat revision conflict"
  | _ => lit "Active policy revision conflict"

/-- The parameters of a write with an expected revision. -/
def bindWrite (store : PolicyStore F V T) (revision : Int) : PolicyWrite F → Except PyExc Unit
  | .saveBundle _ | .cancelRollout _ => return ()
  | .activate key version now activatedBy _ => do
    store.format.bind version
    let _ ← store.format.writeTime now
    store.format.bind activatedBy
    store.format.bindKey key
    store.bindRevision revision
  | .startRollout key primary candidate _ seed now updatedBy _ => do
    store.format.bind primary
    store.format.bind candidate
    store.format.bind seed
    let _ ← store.format.writeTime now
    store.format.bind updatedBy
    store.format.bindKey key
    store.bindRevision revision
  | .registerAgent key owner purpose status metadata version _ _ => do
    store.format.bind owner
    store.format.bind purpose
    store.format.bind status
    let _ ← store.format.writeJson (canonicalJson (.dict metadata))
    store.format.bind version
    store.bindAgent key
    store.bindRevision revision
  | .heartbeat key policyDigest version status now _ => do
    let _ ← store.format.writeTime now
    store.format.bind policyDigest
    store.format.bind version
    store.format.bind status
    store.bindAgent key
    store.bindRevision revision

omit [PyFloat F] in
theorem matchRow_stale {ρ : Type} (revisionOf : ρ → ℕ) {found : Option ρ} {r : Int} {text : Str}
    (h : (found.map revisionOf).map Int.ofNat ≠ some r) :
    store.matchRow revisionOf found r text =
      (store.bindRevision r >>= fun _ => .error (controlPlaneError text)) := by
  cases found with
  | none => rfl
  | some row =>
    have hrow : ¬ (revisionOf row : Int) = r := fun heq => h (congrArg some heq)
    simp [matchRow, hrow]

/-- A transaction whose row cannot be made. -/
theorem transaction_raises {σ ρ : Type} {x : σ → Except PyExc ρ} {f : ρ → PyM σ Unit} {s : σ}
    {bound : Except PyExc Unit} {e : PyExc} (h : x s = (bound >>= fun _ => .error e)) :
    PyM.transaction (do
      let s ← PyM.get
      let row ← .ofExcept (x s)
      f row) s = (bound >>= fun _ => .error e, s) := by
  cases bound with
  | error e' => simp [PyM.transaction, h, bind, Except.bind]
  | ok u => simp [PyM.transaction, h, bind, Except.bind]

/-- A write whose revision is not the row's raises, and changes nothing. -/
theorem write_stale {w : PolicyWrite F} {r : Int} (hr : w.expected = some r)
    (hstale : (w.found t).map Int.ofNat ≠ some r) :
    store.write w t =
      (store.bindWrite r w >>= fun _ => .error (controlPlaneError (conflict w)), t) := by
  cases w with
  | saveBundle bundle => cases hr
  | cancelRollout k => cases hr
  | activate k version now by_ expected =>
    obtain rfl : expected = some r := hr
    refine transaction_raises (x := fun t => store.newActive t k version now by_ (some r)) ?_
    simp only [newActive, bindWrite, bind_assoc, matchRow_stale ActiveRow.revision hstale]
    rfl
  | startRollout k primary candidate percentage seed now by_ expected =>
    obtain rfl : expected = some r := hr
    refine transaction_raises (x := fun t =>
      store.newRollout t k primary candidate percentage seed now by_ (some r)) ?_
    simp only [newRollout, bindWrite, bind_assoc, matchRow_stale RolloutRow.revision hstale]
    rfl
  | registerAgent a owner purpose status metadata v now expected =>
    obtain rfl : expected = some r := hr
    refine transaction_raises (x := fun t =>
      store.newAgent t a owner purpose status metadata v now (some r)) ?_
    simp only [newAgent, bindWrite, bind_assoc, matchRow_stale AgentRow.revision hstale]
    rfl
  | heartbeat a digest v status now expected =>
    obtain rfl : expected = some r := hr
    refine transaction_raises (x := fun t => store.beatenAgent t a digest v status now (some r)) ?_
    simp only [beatenAgent, foundAgent, bindWrite, bind_assoc, matchRow_stale AgentRow.revision hstale]
    rfl

end PolicyStore

end AgentRoi
