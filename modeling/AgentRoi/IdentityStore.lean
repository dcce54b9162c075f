/-
`SqliteIdentityStore` and `PostgresIdentityStore`, where they keep roles and
bindings.

* `IdentityTables` — `rbac_roles` and `rbac_bindings`, with their keys and the
  reference between them;
* `saveRole`, `deleteRole`, `saveBinding`, `deleteBinding` — the methods that
  write;
* `authorizer` — the authorizer that reads the tables;
* `Grants`, `Allows` — what a role gives, and what a principal may do;
* `grants_putRole`, `grants_removeRole`, `hasRole_addBinding`,
  `hasRole_removeBinding` — what the writes make of it.

A row of `rbac_roles` is the role that is read back from it; the column
`revision`, which only PostgreSQL has, stands beside the rows.
-/
import AgentRoi.ApprovalGrant
import AgentRoi.Identity
import AgentRoi.IdempotencyStore
import AgentRoi.RowTable

namespace AgentRoi

open RowTable

/-! ### Roles and bindings out of texts -/

theorem isClean_strip {text : Str} (h : isBlank text = false) : IsClean (strip text) := by
  exact ⟨(isBlank_strip text).trans h, strip_strip text⟩

theorem cleanSet_clean {values cleaned : List Str} (h : cleanSet values = .ok cleaned) :
    ∀ value ∈ cleaned, IsClean value := by
  induction values generalizing cleaned with
  | nil =>
    cases h
    exact fun _ hvalue => absurd hvalue List.not_mem_nil
  | cons value values ih =>
    unfold cleanSet at h
    split at h
    · cases h
    · next hblank =>
      obtain ⟨rest, hrest, h⟩ := except_bind_eq_ok.mp h
      cases h
      intro v hv
      rcases List.mem_cons.mp hv with rfl | hv
      · exact isClean_strip (Bool.eq_false_of_not_eq_true hblank)
      · exact ih hrest v hv

/-- `RoleDefinition(name, permissions, description)`. -/
def RoleDefinition.create (name : Str) (permissions : List Str) (description : Str) :
    Except PyExc RoleDefinition :=
  if hname : isBlank name = true then
    .error (.valueError (lit "Role name must be a non-empty string"))
  else
    match hcleaned : cleanSet permissions with
    | .error e => .error e
    | .ok cleaned => .ok {
        name := strip name
        permissions := cleaned
        description := description
        name_clean := isClean_strip (Bool.eq_false_of_not_eq_true hname)
        permissions_clean := cleanSet_clean hcleaned }

/-- `RoleBinding(role, organization_id, subject=…, group=…, environment=…)`. -/
def RoleBinding.create (role organizationId subject group environment : Str) :
    Except PyExc RoleBinding :=
  if hrole : isBlank role = false then
    if horganization : isBlank organizationId = false then
      if hsubject : isBlank subject = !isBlank group then
        .ok ⟨role, organizationId, subject, group, environment, hrole, horganization, hsubject⟩
      else .error (.valueError (lit "Exactly one of subject or group must be set"))
    else .error (.valueError (lit "role and organization_id are required"))
  else .error (.valueError (lit "role and organization_id are required"))

theorem RoleBinding.create_eq_ok {role organizationId subject group environment : Str}
    {binding : RoleBinding}
    (h : RoleBinding.create role organizationId subject group environment = .ok binding) :
    binding.role = role ∧ binding.organizationId = organizationId := by
  unfold RoleBinding.create at h
  split_ifs at h
  cases h
  exact ⟨rfl, rfl⟩

/-! ### What roles give -/

/-- A permission of the role covers the action. -/
def RoleDefinition.Covers (role : RoleDefinition) (action resource : Str) : Prop :=
  ∃ permission ∈ role.permissions, permission = lit "*" ∨ fnmatchcase action permission = true ∨
    fnmatchcase (RBACAuthorizer.requested action resource) permission = true

instance (role : RoleDefinition) (action resource : Str) : Decidable (role.Covers action resource) :=
  inferInstanceAs (Decidable (∃ permission ∈ role.permissions, _))

namespace RBACAuthorizer

variable {auth : RBACAuthorizer} {principal : Principal} {action resource environment : Str}

/-- The role is defined, and covers the action. -/
def Grants (auth : RBACAuthorizer) (name action resource : Str) : Prop :=
  ∃ definition, auth.role name = some definition ∧ definition.Covers action resource

/-- The principal carries the role, or is bound to it. -/
def HasRole (auth : RBACAuthorizer) (principal : Principal) (environment name : Str) : Prop :=
  name ∈ principal.roles ∨
    ∃ binding ∈ auth.bindings, binding.role = name ∧ Binds binding principal environment

theorem permitted_iff : auth.Permitted principal action resource environment ↔
    ∃ name, auth.HasRole principal environment name ∧ auth.Grants name action resource := by
  constructor
  · rintro ⟨name, definition, permission, hname, hrole, hmem, hmatch⟩
    exact ⟨name, hname, definition, hrole, permission, hmem, hmatch⟩
  · rintro ⟨name, hname, definition, hrole, permission, hmem, hmatch⟩
    exact ⟨name, definition, permission, hname, hrole, hmem, hmatch⟩

/-- The roles that a principal has depend on the bindings only. -/
theorem hasRole_congr {auth' : RBACAuthorizer} (h : auth'.bindings = auth.bindings)
    {name : Str} : auth'.HasRole principal environment name ↔
      auth.HasRole principal environment name := by
  unfold HasRole
  rw [h]

end RBACAuthorizer

/-! ### The tables -/

/-- A row of `rbac_bindings`. -/
structure BindingRow where
  bindingId : Str
  binding : RoleBinding

/-- The tables, with the constraints the database holds them to; `revision` is
that of the row of the role with the name, where there is one. -/
structure IdentityTables where
  roles : List RoleDefinition
  revision : Str → Int
  bindings : List BindingRow
  roleNames : (roles.map RoleDefinition.name).Nodup
  bindingIds : (bindings.map BindingRow.bindingId).Nodup
  bindingRole : ∀ row ∈ bindings, row.binding.role ∈ roles.map RoleDefinition.name

namespace IdentityTables

variable {t : IdentityTables}

theorem nodup_noNames : ([] : List Str).Nodup := .nil

theorem roles_noBindings : ∀ row ∈ ([] : List BindingRow),
    row.binding.role ∈ ([] : List RoleDefinition).map RoleDefinition.name :=
  fun _ h => absurd h List.not_mem_nil

def empty : IdentityTables where
  roles := []
  revision _ := 0
  bindings := []
  roleNames := nodup_noNames
  bindingIds := nodup_noNames
  bindingRole := roles_noBindings

/-- `INSERT INTO rbac_roles … ON CONFLICT(name) DO UPDATE …`. -/
def putRole (t : IdentityTables) (role : RoleDefinition) : IdentityTables where
  roles := upsert RoleDefinition.name role t.roles
  revision name :=
    if name ≠ role.name then t.revision name
    else if name ∈ t.roles.map RoleDefinition.name then t.revision name + 1
    else 1
  bindings := t.bindings
  roleNames := nodup_upsert t.roleNames
  bindingIds := t.bindingIds
  bindingRole row hrow := mem_keys_upsert (t.bindingRole row hrow)

theorem mem_names_putRole {role : RoleDefinition} {name : Str} :
    name ∈ (t.putRole role).roles.map RoleDefinition.name ↔
      name = role.name ∨ name ∈ t.roles.map RoleDefinition.name := by
  constructor
  · intro h
    obtain ⟨r, hr, rfl⟩ := List.mem_map.mp h
    rcases mem_upsert hr with rfl | hr
    · exact .inl rfl
    · exact .inr (List.mem_map_of_mem hr)
  · rintro (rfl | h)
    · exact List.mem_map_of_mem mem_upsert_self
    · exact mem_keys_upsert h

/-- `DELETE FROM rbac_roles WHERE name=?`; the bindings to the role go with it. -/
def removeRole (t : IdentityTables) (name : Str) : IdentityTables where
  roles := t.roles.filter fun role => role.name ≠ name
  revision := t.revision
  bindings := t.bindings.filter fun row => row.binding.role ≠ name
  roleNames := nodup_filter t.roleNames
  bindingIds := nodup_filter t.bindingIds
  bindingRole row hrow := by
    obtain ⟨hrow, hne⟩ := List.mem_filter.mp hrow
    obtain ⟨role, hrole, hname⟩ := List.mem_map.mp (t.bindingRole row hrow)
    refine List.mem_map.mpr ⟨role, List.mem_filter.mpr ⟨hrole, ?_⟩, hname⟩
    rw [hname]
    exact hne

theorem mem_names_removeRole {name removed : Str} :
    name ∈ (t.removeRole removed).roles.map RoleDefinition.name ↔
      name ∈ t.roles.map RoleDefinition.name ∧ name ≠ removed := by
  constructor
  · intro h
    obtain ⟨r, hr, rfl⟩ := List.mem_map.mp h
    obtain ⟨hr, hne⟩ := List.mem_filter.mp hr
    exact ⟨List.mem_map_of_mem hr, of_decide_eq_true hne⟩
  · rintro ⟨h, hne⟩
    obtain ⟨r, hr, rfl⟩ := List.mem_map.mp h
    exact List.mem_map_of_mem (List.mem_filter.mpr ⟨hr, decide_eq_true hne⟩)

/-- `INSERT INTO rbac_bindings`, of a row that violates no constraint. -/
def addBinding (t : IdentityTables) (row : BindingRow)
    (hid : rowAt BindingRow.bindingId row.bindingId t.bindings = none)
    (hrole : row.binding.role ∈ t.roles.map RoleDefinition.name) : IdentityTables where
  roles := t.roles
  revision := t.revision
  bindings := t.bindings ++ [row]
  roleNames := t.roleNames
  bindingIds := nodup_append t.bindingIds hid
  bindingRole r hr := by
    rcases List.mem_append.mp hr with hr | hr
    · exact t.bindingRole r hr
    · rw [List.mem_singleton.mp hr]
      exact hrole

/-- `DELETE FROM rbac_bindings WHERE binding_id=?`. -/
def removeBinding (t : IdentityTables) (bindingId : Str) : IdentityTables where
  roles := t.roles
  revision := t.revision
  bindings := t.bindings.filter fun row => row.bindingId ≠ bindingId
  roleNames := t.roleNames
  bindingIds := nodup_filter t.bindingIds
  bindingRole row hrow := t.bindingRole row (List.mem_filter.mp hrow).1

/-- `authorizer`. -/
def authorizer (t : IdentityTables) : RBACAuthorizer where
  roles := t.roles
  bindings := t.bindings.map BindingRow.binding
  defaultDeny := true
  distinct := t.roleNames
  known binding hbinding := by
    obtain ⟨row, hrow, rfl⟩ := List.mem_map.mp hbinding
    exact t.bindingRole row hrow

/-- The principal is permitted the action in the environment. -/
def Allows (t : IdentityTables) (principal : Principal) (action resource environment : Str) :
    Prop := t.authorizer.Permitted principal action resource environment

theorem authorize_eq_true {principal : Principal} {action resource environment : Str} :
    t.authorizer.authorize principal action resource environment = true ↔
      t.Allows principal action resource environment := by
  rw [RBACAuthorizer.authorize_iff]
  exact or_iff_left (show ¬ true = false by decide)

/-! ### What the writes make of the authorizer -/

section

variable {principal : Principal} {action resource environment name : Str}

theorem grants_putRole {role : RoleDefinition} :
    (t.putRole role).authorizer.Grants name action resource ↔
      if name = role.name then role.Covers action resource
      else t.authorizer.Grants name action resource := by
  split
  · next heq =>
    have hself : (t.putRole role).authorizer.role name = some role := by
      rw [heq]
      exact rowAt_upsert_self t.roleNames
    unfold RBACAuthorizer.Grants
    rw [hself]
    constructor
    · rintro ⟨definition, hdefinition, hcovers⟩
      cases hdefinition
      exact hcovers
    · exact fun hcovers => ⟨role, rfl, hcovers⟩
  · next hne =>
    have hother : (t.putRole role).authorizer.role name = t.authorizer.role name :=
      rowAt_upsert_of_ne (Ne.symm hne)
    unfold RBACAuthorizer.Grants
    rw [hother]

theorem grants_removeRole {removed : Str} :
    (t.removeRole removed).authorizer.Grants name action resource ↔
      name ≠ removed ∧ t.authorizer.Grants name action resource := by
  by_cases heq : name = removed
  · subst heq
    have hself : (t.removeRole name).authorizer.role name = none := rowAt_filter_self
    unfold RBACAuthorizer.Grants
    simp [hself]
  · have hother : (t.removeRole removed).authorizer.role name = t.authorizer.role name :=
      rowAt_filter_ne heq
    unfold RBACAuthorizer.Grants
    rw [hother]
    exact (and_iff_right heq).symm

theorem mem_bindings {binding : RoleBinding} :
    binding ∈ t.authorizer.bindings ↔ ∃ row ∈ t.bindings, row.binding = binding := List.mem_map

theorem hasRole_iff : t.authorizer.HasRole principal environment name ↔ name ∈ principal.roles ∨
    ∃ row ∈ t.bindings, row.binding.role = name ∧
      RBACAuthorizer.Binds row.binding principal environment := by
  refine or_congr_right ?_
  constructor
  · rintro ⟨binding, hbinding, hrole, hbinds⟩
    obtain ⟨row, hrow, rfl⟩ := mem_bindings.mp hbinding
    exact ⟨row, hrow, hrole, hbinds⟩
  · rintro ⟨row, hrow, hrole, hbinds⟩
    exact ⟨row.binding, mem_bindings.mpr ⟨row, hrow, rfl⟩, hrole, hbinds⟩

theorem hasRole_removeRole {removed : Str} (h : name ≠ removed) :
    (t.removeRole removed).authorizer.HasRole principal environment name ↔
      t.authorizer.HasRole principal environment name := by
  rw [hasRole_iff, hasRole_iff]
  refine or_congr_right ⟨?_, ?_⟩
  · rintro ⟨row, hrow, hrole, hbinds⟩
    exact ⟨row, (List.mem_filter.mp hrow).1, hrole, hbinds⟩
  · rintro ⟨row, hrow, hrole, hbinds⟩
    refine ⟨row, List.mem_filter.mpr ⟨hrow, ?_⟩, hrole, hbinds⟩
    rw [hrole]
    exact decide_eq_true h

theorem hasRole_addBinding {row : BindingRow}
    {hid : rowAt BindingRow.bindingId row.bindingId t.bindings = none}
    {hrole : row.binding.role ∈ t.roles.map RoleDefinition.name} :
    (t.addBinding row hid hrole).authorizer.HasRole principal environment name ↔
      t.authorizer.HasRole principal environment name ∨
        (row.binding.role = name ∧ RBACAuthorizer.Binds row.binding principal environment) := by
  rw [hasRole_iff, hasRole_iff, or_assoc]
  refine or_congr_right ?_
  show (∃ r ∈ t.bindings ++ [row], _) ↔ _
  simp only [List.mem_append, List.mem_singleton, or_and_right, exists_or, exists_eq_left]

/-- A role is kept, unless the binding that goes gave it. -/
theorem hasRole_removeBinding {bindingId : Str} :
    t.authorizer.HasRole principal environment name ↔
      (t.removeBinding bindingId).authorizer.HasRole principal environment name ∨
        ∃ row ∈ t.bindings, row.bindingId = bindingId ∧ row.binding.role = name ∧
          RBACAuthorizer.Binds row.binding principal environment := by
  rw [hasRole_iff, hasRole_iff, or_assoc]
  refine or_congr_right ⟨?_, ?_⟩
  · rintro ⟨row, hrow, hrest⟩
    by_cases hid : row.bindingId = bindingId
    · exact .inr ⟨row, hrow, hid, hrest⟩
    · exact .inl ⟨row, List.mem_filter.mpr ⟨hrow, decide_eq_true hid⟩, hrest⟩
  · rintro (⟨row, hrow, hrest⟩ | ⟨row, hrow, -, hrest⟩)
    · exact ⟨row, (List.mem_filter.mp hrow).1, hrest⟩
    · exact ⟨row, hrow, hrest⟩

end

end IdentityTables

/-! ### The stores -/

/-- What the drivers bind, what `save_binding` makes of an exception, given the
role of the binding, and whether `save_role` takes an `expected_revision`. -/
structure IdentityStore where
  bind : Str → Except PyExc Unit
  bindPermissions : List Str → Except PyExc Unit
  bindingError : Str → PyExc → PyExc
  takesRevision : Bool

def unknownRole (role : Str) : PyExc := .valueError (lit "Unknown RBAC role: " ++ role)

/-- SQLite keeps the permissions as an ASCII text. -/
def sqliteIdentityStore : IdentityStore where
  bind := bindText
  bindPermissions _ := .ok ()
  bindingError role e :=
    match e with
    | .integrityError => unknownRole role
    | e => e
  takesRevision := false

def postgresIdentityStore {F : Type} [PyFloat F] (driver : PgDriver F) : IdentityStore where
  bind := pgText
  bindPermissions permissions :=
    (driver.jsonb (canonicalJson (F := F) (.list (permissions.map .str)))).elim
      (.error dataError) fun _ => .ok ()
  bindingError role e := if e.isException then unknownRole role else e
  takesRevision := true

namespace IdentityStore

variable (store : IdentityStore)

/-- `UPDATE rbac_roles SET … WHERE name=%s AND revision=%s`. -/
def updateRole (role : RoleDefinition) (expected : Int) : PyM IdentityTables Unit := do
  .ofExcept (store.bindPermissions role.permissions)
  .ofExcept (store.bind role.description)
  .ofExcept (store.bind role.name)
  let t ← PyM.get
  if role.name ∈ t.roles.map RoleDefinition.name ∧ t.revision role.name = expected then
    PyM.set (t.putRole role)
  else .raise (.valueError (lit "RBAC role revision conflict"))

/-- `SqliteIdentityStore.save_role` has no `expected_revision`. -/
def saveRole (role : RoleDefinition) (expectedRevision : Option Int) :
    PyM IdentityTables Unit :=
  match expectedRevision with
  | none => do
    .ofExcept (store.bind role.name)
    .ofExcept (store.bindPermissions role.permissions)
    .ofExcept (store.bind role.description)
    .modify fun t => t.putRole role
  | some expected =>
    if store.takesRevision then store.updateRole role expected
    else .raise (.typeError (lit "SqliteIdentityStore.save_role() got an unexpected keyword " ++
      lit "argument 'expected_revision'"))

def deleteRole (name : Str) : PyM IdentityTables Unit := do
  .ofExcept (store.bind name)
  let t ← PyM.get
  if name ∈ t.roles.map RoleDefinition.name then PyM.set (t.removeRole name)
  else .raise (.keyError [name])

/-- The row that is inserted, unless a constraint fails. -/
def insertBinding (row : BindingRow) : PyM IdentityTables Unit := fun t =>
  if h : rowAt BindingRow.bindingId row.bindingId t.bindings = none ∧
      row.binding.role ∈ t.roles.map RoleDefinition.name then
    (.ok (), t.addBinding row h.1 h.2)
  else (.error .integrityError, t)

/-- `uuid` is what `str(uuid.uuid4())` yields. -/
def saveBinding (binding : RoleBinding) (uuid : Str) : PyM IdentityTables Str := do
  .tryExcept (do
    .ofExcept (store.bind uuid)
    .ofExcept (store.bind binding.role)
    .ofExcept (store.bind binding.organizationId)
    .ofExcept (store.bind binding.subject)
    .ofExcept (store.bind binding.group)
    .ofExcept (store.bind binding.environment)
    insertBinding ⟨uuid, binding⟩) fun e => .raise (store.bindingError binding.role e)
  return uuid

def deleteBinding (bindingId : Str) : PyM IdentityTables Unit := do
  .ofExcept (store.bind bindingId)
  let t ← PyM.get
  if bindingId ∈ t.bindings.map BindingRow.bindingId then PyM.set (t.removeBinding bindingId)
  else .raise (.keyError [bindingId])

variable {store} {t t' : IdentityTables} {u : Unit}

/-- A role that is saved with an expected revision had that revision. -/
theorem updateRole_eq_ok {role : RoleDefinition} {expected : Int}
    (h : store.updateRole role expected t = (.ok u, t')) :
    t' = t.putRole role ∧ role.name ∈ t.roles.map RoleDefinition.name ∧
      t.revision role.name = expected := by
  simp only [updateRole, PyM.ofExcept_bind_eq_ok] at h
  obtain ⟨_, -, _, -, _, -, h⟩ := h
  rw [PyM.get_bind] at h
  split at h
  · next hrevision =>
    cases h
    exact ⟨rfl, hrevision⟩
  · cases h

theorem saveRole_eq_ok {role : RoleDefinition} {expectedRevision : Option Int}
    (h : store.saveRole role expectedRevision t = (.ok u, t')) : t' = t.putRole role := by
  cases expectedRevision with
  | none =>
    simp only [saveRole, PyM.ofExcept_bind_eq_ok] at h
    obtain ⟨_, -, _, -, _, -, h⟩ := h
    cases h
    rfl
  | some expected =>
    rw [saveRole] at h
    split_ifs at h
    · exact (updateRole_eq_ok h).1
    · cases h

theorem deleteRole_eq_ok {name : Str} (h : store.deleteRole name t = (.ok u, t')) :
    t' = t.removeRole name := by
  obtain ⟨_, -, h⟩ := PyM.ofExcept_bind_eq_ok.mp h
  rw [PyM.get_bind] at h
  split at h
  · cases h
    rfl
  · cases h

theorem saveBinding_eq_ok {binding : RoleBinding} {uuid id : Str}
    (h : store.saveBinding binding uuid t = (.ok id, t')) :
    ∃ hid hrole, t' = t.addBinding ⟨uuid, binding⟩ hid hrole := by
  obtain ⟨_, t₁, htry, h⟩ := PyM.bind_eq_ok.mp h
  cases h
  rcases PyM.tryExcept_eq_ok.mp htry with h | ⟨e, t₂, -, h⟩
  · simp only [PyM.ofExcept_bind_eq_ok] at h
    obtain ⟨_, -, _, -, _, -, _, -, _, -, _, -, h⟩ := h
    unfold insertBinding at h
    split at h
    · next hrow =>
      cases h
      exact ⟨hrow.1, hrow.2, rfl⟩
    · cases h
  · cases h

theorem deleteBinding_eq_ok {bindingId : Str} (h : store.deleteBinding bindingId t = (.ok u, t')) :
    t' = t.removeBinding bindingId := by
  obtain ⟨_, -, h⟩ := PyM.ofExcept_bind_eq_ok.mp h
  rw [PyM.get_bind] at h
  split at h
  · cases h
    rfl
  · cases h

end IdentityStore

end AgentRoi
