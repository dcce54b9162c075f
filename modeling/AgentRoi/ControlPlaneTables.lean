/-
`agent_roi.enterprise.control_plane`: policy bundles and the tables of the
control plane.

* `PolicyBundle` — a bundle, as the stores answer with it;
* `ControlPlaneTables` — `policy_bundles`, `active_policies`,
  `policy_rollouts` and `agents`, with their keys and references;
* `PolicyFormat` — what a store makes of texts, JSON and times: SQLite keeps
  JSON and times as texts, PostgreSQL as `jsonb` and `timestamptz`;
* `bundleOfRow`, `rowOfBundle` — a bundle as a row.
-/
import AgentRoi.OutboxTables

namespace AgentRoi

open RowTable

variable {F V T : Type}

/-- `organization_id`, `name` and `environment`. -/
structure PolicyKey where
  organizationId : Str
  name : Str
  environment : Str
  deriving DecidableEq

/-- `organization_id`, `agent_id` and `environment`. -/
structure AgentKey where
  organizationId : Str
  agentId : Str
  environment : Str
  deriving DecidableEq

structure PolicyBundle (F : Type) where
  key : PolicyKey
  version : Str
  policy : Json F
  digest : Str
  signature : Str
  signerKeyId : Str
  status : Str
  createdAtUtc : Str
  createdBy : Str

/-! ### The tables -/

/-- A row of `policy_bundles`. -/
structure BundleRow (V T : Type) where
  key : PolicyKey
  version : Str
  payloadJson : V
  digest : Str
  signature : Str
  signerKeyId : Str
  status : Str
  createdAtUtc : T
  createdBy : Str
  deriving DecidableEq

def BundleRow.identity (row : BundleRow V T) : PolicyKey × Str := (row.key, row.version)

/-- A row of `active_policies`. -/
structure ActiveRow (T : Type) where
  key : PolicyKey
  version : Str
  activatedAtUtc : T
  activatedBy : Str
  revision : ℕ
  deriving DecidableEq

/-- A row of `policy_rollouts`. -/
structure RolloutRow (T : Type) where
  key : PolicyKey
  primaryVersion : Str
  candidateVersion : Str
  candidatePercentage : Int
  seed : Str
  updatedAtUtc : T
  updatedBy : Str
  revision : ℕ
  deriving DecidableEq

/-- A row of `agents`. -/
structure AgentRow (V T : Type) where
  key : AgentKey
  owner : Str
  purpose : Str
  status : Str
  metadataJson : V
  registeredAtUtc : T
  lastHeartbeatUtc : Option T
  policyDigest : Option Str
  version : Option Str
  revision : ℕ
  deriving DecidableEq

/-- The tables, with the constraints the database holds them to. -/
structure ControlPlaneTables (V T : Type) where
  bundles : List (BundleRow V T)
  active : List (ActiveRow T)
  rollouts : List (RolloutRow T)
  agents : List (AgentRow V T)
  bundleKeys : (bundles.map BundleRow.identity).Nodup
  activeKeys : (active.map ActiveRow.key).Nodup
  rolloutKeys : (rollouts.map RolloutRow.key).Nodup
  agentKeys : (agents.map AgentRow.key).Nodup
  activeBundle : ∀ row ∈ active, (row.key, row.version) ∈ bundles.map BundleRow.identity
  primaryBundle : ∀ row ∈ rollouts, (row.key, row.primaryVersion) ∈ bundles.map BundleRow.identity
  candidateBundle : ∀ row ∈ rollouts,
    (row.key, row.candidateVersion) ∈ bundles.map BundleRow.identity

namespace ControlPlaneTables

variable {t : ControlPlaneTables V T} {key k : PolicyKey} {version : Str}

def bundle (t : ControlPlaneTables V T) (key : PolicyKey) (version : Str) :
    Option (BundleRow V T) := rowAt BundleRow.identity (key, version) t.bundles

def activeRow (t : ControlPlaneTables V T) (key : PolicyKey) : Option (ActiveRow T) :=
  rowAt ActiveRow.key key t.active

def rollout (t : ControlPlaneTables V T) (key : PolicyKey) : Option (RolloutRow T) :=
  rowAt RolloutRow.key key t.rollouts

def agent (t : ControlPlaneTables V T) (key : AgentKey) : Option (AgentRow V T) :=
  rowAt AgentRow.key key t.agents

/-- What a reference to `policy_bundles` asks for. -/
def HasBundle (t : ControlPlaneTables V T) (key : PolicyKey) (version : Str) : Prop :=
  (key, version) ∈ t.bundles.map BundleRow.identity

instance instDecidableHasBundle : Decidable (t.HasBundle key version) :=
  inferInstanceAs (Decidable (_ ∈ _))

def empty : ControlPlaneTables V T where
  bundles := []
  active := []
  rollouts := []
  agents := []
  bundleKeys := .nil
  activeKeys := .nil
  rolloutKeys := .nil
  agentKeys := .nil
  activeBundle := fun _ h => absurd h List.not_mem_nil
  primaryBundle := fun _ h => absurd h List.not_mem_nil
  candidateBundle := fun _ h => absurd h List.not_mem_nil

/-- `INSERT INTO policy_bundles`, of a row that violates no constraint. -/
def insertBundle (t : ControlPlaneTables V T) (row : BundleRow V T)
    (h : t.bundle row.key row.version = none) : ControlPlaneTables V T where
  bundles := t.bundles ++ [row]
  active := t.active
  rollouts := t.rollouts
  agents := t.agents
  bundleKeys := nodup_append t.bundleKeys h
  activeKeys := t.activeKeys
  rolloutKeys := t.rolloutKeys
  agentKeys := t.agentKeys
  activeBundle r hr := by
    rw [List.map_append]
    exact List.mem_append_left _ (t.activeBundle r hr)
  primaryBundle r hr := by
    rw [List.map_append]
    exact List.mem_append_left _ (t.primaryBundle r hr)
  candidateBundle r hr := by
    rw [List.map_append]
    exact List.mem_append_left _ (t.candidateBundle r hr)

/-- Put a row into `active_policies`, in the place of the one with its key. -/
def putActive (t : ControlPlaneTables V T) (row : ActiveRow T)
    (h : t.HasBundle row.key row.version) : ControlPlaneTables V T where
  bundles := t.bundles
  active := upsert ActiveRow.key row t.active
  rollouts := t.rollouts
  agents := t.agents
  bundleKeys := t.bundleKeys
  activeKeys := nodup_upsert t.activeKeys
  rolloutKeys := t.rolloutKeys
  agentKeys := t.agentKeys
  activeBundle r hr := by
    rcases mem_upsert hr with rfl | hr
    · exact h
    · exact t.activeBundle r hr
  primaryBundle := t.primaryBundle
  candidateBundle := t.candidateBundle

/-- Put a row into `policy_rollouts`, in the place of the one with its key. -/
def putRollout (t : ControlPlaneTables V T) (row : RolloutRow T)
    (h : t.HasBundle row.key row.primaryVersion ∧ t.HasBundle row.key row.candidateVersion) :
    ControlPlaneTables V T where
  bundles := t.bundles
  active := t.active
  rollouts := upsert RolloutRow.key row t.rollouts
  agents := t.agents
  bundleKeys := t.bundleKeys
  activeKeys := t.activeKeys
  rolloutKeys := nodup_upsert t.rolloutKeys
  agentKeys := t.agentKeys
  activeBundle := t.activeBundle
  primaryBundle r hr := by
    rcases mem_upsert hr with rfl | hr
    · exact h.1
    · exact t.primaryBundle r hr
  candidateBundle r hr := by
    rcases mem_upsert hr with rfl | hr
    · exact h.2
    · exact t.candidateBundle r hr

/-- `DELETE FROM policy_rollouts WHERE …`. -/
def deleteRollout (t : ControlPlaneTables V T) (key : PolicyKey) : ControlPlaneTables V T where
  bundles := t.bundles
  active := t.active
  rollouts := t.rollouts.filter fun row => row.key ≠ key
  agents := t.agents
  bundleKeys := t.bundleKeys
  activeKeys := t.activeKeys
  rolloutKeys := nodup_filter t.rolloutKeys
  agentKeys := t.agentKeys
  activeBundle := t.activeBundle
  primaryBundle r hr := t.primaryBundle r (List.mem_filter.mp hr).1
  candidateBundle r hr := t.candidateBundle r (List.mem_filter.mp hr).1

/-- Put a row into `agents`, in the place of the one with its key. -/
def putAgent (t : ControlPlaneTables V T) (row : AgentRow V T) : ControlPlaneTables V T where
  bundles := t.bundles
  active := t.active
  rollouts := t.rollouts
  agents := upsert AgentRow.key row t.agents
  bundleKeys := t.bundleKeys
  activeKeys := t.activeKeys
  rolloutKeys := t.rolloutKeys
  agentKeys := nodup_upsert t.agentKeys
  activeBundle := t.activeBundle
  primaryBundle := t.primaryBundle
  candidateBundle := t.candidateBundle

/-! ### What the changes make of the rows -/

section

variable {row : ActiveRow T} {h : t.HasBundle row.key row.version}

@[simp] theorem activeRow_putActive_self : (t.putActive row h).activeRow row.key = some row :=
  rowAt_upsert_self t.activeKeys

theorem activeRow_putActive_of_ne (hne : row.key ≠ k) :
    (t.putActive row h).activeRow k = t.activeRow k := rowAt_upsert_of_ne hne

@[simp] theorem rollout_putActive : (t.putActive row h).rollout k = t.rollout k := rfl

@[simp] theorem bundle_putActive : (t.putActive row h).bundle k version = t.bundle k version := rfl

@[simp] theorem agent_putActive {a : AgentKey} : (t.putActive row h).agent a = t.agent a := rfl

end

section

variable {row : RolloutRow T}
  {h : t.HasBundle row.key row.primaryVersion ∧ t.HasBundle row.key row.candidateVersion}

@[simp] theorem rollout_putRollout_self : (t.putRollout row h).rollout row.key = some row :=
  rowAt_upsert_self t.rolloutKeys

theorem rollout_putRollout_of_ne (hne : row.key ≠ k) :
    (t.putRollout row h).rollout k = t.rollout k := rowAt_upsert_of_ne hne

@[simp] theorem activeRow_putRollout : (t.putRollout row h).activeRow k = t.activeRow k := rfl

@[simp] theorem bundle_putRollout : (t.putRollout row h).bundle k version = t.bundle k version :=
  rfl

@[simp] theorem agent_putRollout {a : AgentKey} : (t.putRollout row h).agent a = t.agent a := rfl

end

@[simp] theorem rollout_deleteRollout_self : (t.deleteRollout key).rollout key = none :=
  rowAt_filter_self

theorem rollout_deleteRollout_of_ne (h : k ≠ key) :
    (t.deleteRollout key).rollout k = t.rollout k := rowAt_filter_ne h

@[simp] theorem activeRow_deleteRollout : (t.deleteRollout key).activeRow k = t.activeRow k := rfl

@[simp] theorem bundle_deleteRollout :
    (t.deleteRollout key).bundle k version = t.bundle k version := rfl

@[simp] theorem agent_deleteRollout {a : AgentKey} : (t.deleteRollout key).agent a = t.agent a := rfl

section

variable {row : AgentRow V T} {a : AgentKey}

@[simp] theorem agent_putAgent_self : (t.putAgent row).agent row.key = some row :=
  rowAt_upsert_self t.agentKeys

theorem agent_putAgent_of_ne (h : row.key ≠ a) : (t.putAgent row).agent a = t.agent a :=
  rowAt_upsert_of_ne h

@[simp] theorem activeRow_putAgent : (t.putAgent row).activeRow k = t.activeRow k := rfl

@[simp] theorem rollout_putAgent : (t.putAgent row).rollout k = t.rollout k := rfl

@[simp] theorem bundle_putAgent : (t.putAgent row).bundle k version = t.bundle k version := rfl

end

section

variable {row : BundleRow V T} {h : t.bundle row.key row.version = none}

theorem bundle_insertBundle_self : (t.insertBundle row h).bundle row.key row.version = some row :=
  rowAt_append_self h

theorem bundle_insertBundle_of_some {r : BundleRow V T} (hr : t.bundle k version = some r) :
    (t.insertBundle row h).bundle k version = some r := by
  have hne : row.identity ≠ (k, version) := by
    intro heq
    simp only [BundleRow.identity, Prod.mk.injEq] at heq
    rw [heq.1, heq.2, hr] at h
    cases h
  exact (rowAt_append_of_ne hne).trans hr

@[simp] theorem activeRow_insertBundle : (t.insertBundle row h).activeRow k = t.activeRow k := rfl

@[simp] theorem rollout_insertBundle : (t.insertBundle row h).rollout k = t.rollout k := rfl

@[simp] theorem agent_insertBundle {a : AgentKey} :
    (t.insertBundle row h).agent a = t.agent a := rfl

end

theorem key_of_bundle {row : BundleRow V T} (h : t.bundle key version = some row) :
    row.key = key ∧ row.version = version := by
  have hidentity := key_of_rowAt h
  simpa [BundleRow.identity] using hidentity

theorem key_of_agent {agent : AgentKey} {row : AgentRow V T} (h : t.agent agent = some row) :
    row.key = agent := key_of_rowAt h

end ControlPlaneTables

/-! ### Texts, JSON and times -/

/-- How a store keeps JSON and times, and what its driver makes of parameters
and of columns. -/
structure PolicyFormat (F V T : Type) where
  bind : Str → Except PyExc Unit
  writeJson : Str → Except PyExc V
  readJson : V → Except PyExc (Json F)
  writeTime : Str → Except PyExc T
  timeText : T → Str

/-- `dict(value)`, of a value without pairs. -/
def asDict : Json F → Except PyExc (List (Str × Json F))
  | .obj members => .ok members
  | .arr [] | .str [] => .ok []
  | .arr _ | .str _ => .error (.valueError [])
  | _ => .error (.typeError [])

/-- `json.loads(text)`. -/
def loadsText [PyFloat F] (text : Str) : Except PyExc (Json F) :=
  (Json.loads text).elim (.error (.valueError [])) .ok

/-- `SqliteControlPlaneStore` reads JSON with `json.loads`. -/
def sqlitePolicyFormat [PyFloat F] : PolicyFormat F Str Str where
  bind := bindText
  writeJson text := do
    bindText text
    return text
  readJson := loadsText
  writeTime text := do
    bindText text
    return text
  timeText := id

/-- What PostgreSQL and its driver make of `jsonb` and `timestamptz` columns. -/
structure PgPolicyDriver (F : Type) extends PgDriver F where
  timestamptz : Str → Option Instant
  isoformat : Instant → Str

/-- `_json_value(value, {})`. -/
def jsonValue [PyFloat F] : Json F → Except PyExc (Json F)
  | .null => .ok (.obj [])
  | .str text => loadsText text
  | value => .ok value

/-- `PostgresControlPlaneStore` reads JSON with `dict(_json_value(…))`. -/
def postgresPolicyFormat [PyFloat F] (driver : PgPolicyDriver F) :
    PolicyFormat F (Json F) Instant where
  bind := pgText
  writeJson text := (driver.jsonb text).elim (.error dataError) .ok
  readJson value := do
    let members ← asDict (← jsonValue value)
    return .obj members
  writeTime text := (driver.timestamptz text).elim (.error dataError) .ok
  timeText := driver.isoformat

/-- The bundle `get_bundle` answers with. -/
def bundleOfRow (fmt : PolicyFormat F V T) (row : BundleRow V T) :
    Except PyExc (PolicyBundle F) := do
  let policy ← fmt.readJson row.payloadJson
  return {
    key := row.key
    version := row.version
    policy := policy
    digest := row.digest
    signature := row.signature
    signerKeyId := row.signerKeyId
    status := row.status
    createdAtUtc := fmt.timeText row.createdAtUtc
    createdBy := row.createdBy }

/-- The parameters `organization_id`, `name` and `environment`. -/
def PolicyFormat.bindKey (fmt : PolicyFormat F V T) (key : PolicyKey) : Except PyExc Unit := do
  fmt.bind key.organizationId
  fmt.bind key.name
  fmt.bind key.environment

/-- The row `save_bundle` inserts. -/
def rowOfBundle [PyFloat F] (fmt : PolicyFormat F V T) (bundle : PolicyBundle F) :
    Except PyExc (BundleRow V T) := do
  fmt.bindKey bundle.key
  fmt.bind bundle.version
  let payload ← fmt.writeJson (canonicalJson (PyVal.ofJson bundle.policy))
  fmt.bind bundle.digest
  fmt.bind bundle.signature
  fmt.bind bundle.signerKeyId
  fmt.bind bundle.status
  let created ← fmt.writeTime bundle.createdAtUtc
  fmt.bind bundle.createdBy
  return {
    key := bundle.key
    version := bundle.version
    payloadJson := payload
    digest := bundle.digest
    signature := bundle.signature
    signerKeyId := bundle.signerKeyId
    status := bundle.status
    createdAtUtc := created
    createdBy := bundle.createdBy }

end AgentRoi
