/-
`PostgresIdentityStore` of `agent_roi.enterprise.postgres`, where it keeps users
and groups.

* `PgScimTables` — the tables of `0002_identity.sql`, with their keys and the
  references between them;
* `listUsers`, `listGroups`, `getUser`, `getGroup` — the methods that read;
* `createGroup`, `replaceGroup` — the ones that check members against a
  listing;
* `principalFor` — `principal_for`, which reads groups out of a listing.

A row of `scim_users` is the user that is read back from it; the organization
and the revision that `_row_to_user` puts among its attributes stay beside it.
-/
import AgentRoi.IdentityStore
import AgentRoi.ScimTables

namespace AgentRoi

open RowTable

/-- A row of `scim_users`. -/
structure PgUserRow (F : Type) where
  user : SCIMUser F
  organizationId : Str
  revision : Int

/-- A row of `scim_groups`. -/
structure PgGroupRow where
  id : Str
  displayName : Str
  externalId : Str
  organizationId : Str
  revision : Int
  deriving DecidableEq

/-- The order of texts in the database's collation. -/
structure PgCollation where
  le : Str → Str → Bool

/-- `ORDER BY` a column. -/
def PgCollation.sort {ρ : Type} (collation : PgCollation) (column : ρ → Str) (rows : List ρ) :
    List ρ := rows.mergeSort fun a b => collation.le (column a) (column b)

theorem PgCollation.sort_perm {ρ : Type} {collation : PgCollation} {column : ρ → Str}
    {rows : List ρ} : (collation.sort column rows).Perm rows := List.mergeSort_perm _ _

/-- The tables, with the constraints the database holds them to and what was
checked of every text before it was stored. -/
structure PgScimTables (F : Type) where
  users : List (PgUserRow F)
  groups : List PgGroupRow
  members : List MemberRow
  userIds : (users.map fun row => row.user.id).Nodup
  userNames : (users.map fun row => (row.organizationId, row.user.userName)).Nodup
  groupIds : (groups.map PgGroupRow.id).Nodup
  groupNames : (groups.map fun row => (row.organizationId, row.displayName)).Nodup
  memberships : members.Nodup
  memberGroup : ∀ row ∈ members, row.groupId ∈ groups.map PgGroupRow.id
  memberUser : ∀ row ∈ members, row.userId ∈ users.map fun row => row.user.id
  userTexts : ∀ row ∈ users, pgText row.user.id = .ok ()
  groupTexts : ∀ row ∈ groups, pgText row.id = .ok ()
  groupNamesClean : ∀ row ∈ groups, IsClean row.displayName

/-- The rows of an organization, or all of them for the empty one. -/
def ofOrganization {ρ : Type} (organization : ρ → Str) (organizationId : Str) (rows : List ρ) :
    List ρ :=
  if organizationId = [] then rows else rows.filter fun row => organization row = organizationId

/-- `LIMIT max(1, min(limit, 500)) OFFSET max(0, offset)`. -/
def pgPage {ρ : Type} (limit offset : Int) (rows : List ρ) : List ρ :=
  (rows.drop (max 0 offset).toNat).take (max 1 (min limit 500)).toNat

def authenticationError (message : Str) : PyExc :=
  .other (lit "AuthenticationError") (some message) true

/-- `Principal(…)`, of the fields that are kept. -/
def Principal.create (subject organizationId : Str) (roles groups : List Str) :
    Except PyExc Principal :=
  if hsubject : isBlank subject = false then
    if horganization : isBlank organizationId = false then
      match hroles : cleanSet roles with
      | .error e => .error e
      | .ok cleanRoles =>
        match hgroups : cleanSet groups with
        | .error e => .error e
        | .ok cleanGroups => .ok {
            subject := strip subject
            organizationId := strip organizationId
            roles := cleanRoles
            groups := cleanGroups
            subject_clean := isClean_strip hsubject
            organizationId_clean := isClean_strip horganization
            roles_clean := cleanSet_clean hroles
            groups_clean := cleanSet_clean hgroups }
    else .error (.valueError (lit "organization_id must be a non-empty string"))
  else .error (.valueError (lit "subject must be a non-empty string"))

namespace PgScimTables

variable {F : Type}

/-! ### The methods that read -/

/-- `organization_id` is a parameter of the query where it is not empty. -/
def bindOrganization (organizationId : Str) : Except PyExc Unit :=
  if organizationId = [] then .ok () else pgText organizationId

def getUser (userId : Str) : PyM (PgScimTables F) (SCIMUser F) := do
  .ofExcept (pgText userId)
  let t ← PyM.get
  match rowAt (fun row => row.user.id) userId t.users with
  | none => .raise (SCIMDirectory.userNotFound userId)
  | some row => return row.user

def listUsers (collation : PgCollation) (organizationId : Str) (limit offset : Int) :
    PyM (PgScimTables F) (List (SCIMUser F)) := do
  .ofExcept (bindOrganization organizationId)
  let t ← PyM.get
  return (pgPage limit offset (collation.sort (fun row => row.user.userName)
    (ofOrganization PgUserRow.organizationId organizationId t.users))).map PgUserRow.user

/-- The members of a group. -/
def membersOf (t : PgScimTables F) (groupId : Str) : Finset Str :=
  ((t.members.filter fun row => row.groupId = groupId).map MemberRow.userId).toFinset

/-- The group of a row. -/
def group (t : PgScimTables F) (row : PgGroupRow) : SCIMGroup :=
  ⟨row.id, row.displayName, t.membersOf row.id, row.externalId⟩

def getGroup (groupId : Str) : PyM (PgScimTables F) SCIMGroup := do
  .ofExcept (pgText groupId)
  let t ← PyM.get
  match rowAt PgGroupRow.id groupId t.groups with
  | none => .raise (SCIMDirectory.groupNotFound groupId)
  | some row => return t.group row

/-- `tuple(self.get_group(str(row["group_id"])) for row in rows)`. -/
def getGroups : List Str → PyM (PgScimTables F) (List SCIMGroup)
  | [] => pure []
  | groupId :: ids => do
    let group ← getGroup groupId
    let groups ← getGroups ids
    return group :: groups

def listGroups (collation : PgCollation) (organizationId : Str) (limit offset : Int) :
    PyM (PgScimTables F) (List SCIMGroup) := do
  .ofExcept (bindOrganization organizationId)
  let t ← PyM.get
  getGroups ((pgPage limit offset (collation.sort PgGroupRow.displayName
    (ofOrganization PgGroupRow.organizationId organizationId t.groups))).map PgGroupRow.id)

/-- `role_mapping.get(group, ())` is `roleMapping group`. -/
def principalFor (collation : PgCollation) (userId organizationId : Str)
    (roleMapping : Str → List Str) : PyM (PgScimTables F) Principal := do
  let user ← getUser userId
  if user.active = false then
    .raise (authenticationError (lit "SCIM user is inactive: " ++ userId)) else do
  let groups ← listGroups collation organizationId 500 0
  let names := (groups.filter fun group => userId ∈ group.members).map SCIMGroup.displayName
  .ofExcept (Principal.create user.id organizationId (names.flatMap roleMapping) names)

/-! ### The statements that write groups -/

/-- `INSERT INTO scim_groups`, of a row that violates no constraint. -/
def addGroup (t : PgScimTables F) (row : PgGroupRow)
    (hid : rowAt PgGroupRow.id row.id t.groups = none)
    (hname : (row.organizationId, row.displayName) ∉
      t.groups.map fun row => (row.organizationId, row.displayName))
    (htext : pgText row.id = .ok ()) (hclean : IsClean row.displayName) : PgScimTables F :=
  { t with
    groups := t.groups ++ [row]
    groupIds := nodup_append t.groupIds hid
    groupNames := nodup_append t.groupNames (rowAt_eq_none_iff.mpr hname)
    memberGroup := fun member hmember => by
      rw [List.map_append]
      exact List.mem_append_left _ (t.memberGroup member hmember)
    groupTexts := List.forall_mem_append.mpr ⟨t.groupTexts, List.forall_mem_singleton.mpr htext⟩
    groupNamesClean :=
      List.forall_mem_append.mpr ⟨t.groupNamesClean, List.forall_mem_singleton.mpr hclean⟩ }

/-- `UPDATE scim_groups SET … WHERE group_id=%s`, to a name no other row of the
organization has. -/
def changeGroup (t : PgScimTables F) (row : PgGroupRow)
    (hname : ∀ old ∈ t.groups, old.id = row.id → ∀ other ∈ t.groups,
      (other.organizationId, other.displayName) = (row.organizationId, row.displayName) →
        other.id = row.id)
    (htext : pgText row.id = .ok ()) (hclean : IsClean row.displayName) : PgScimTables F :=
  { t with
    groups := setRow PgGroupRow.id row t.groups
    groupIds := by
      rw [map_setRow]
      exact t.groupIds
    groupNames := nodup_setRow t.groupIds t.groupNames hname
    memberGroup := fun member hmember => by
      rw [map_setRow]
      exact t.memberGroup member hmember
    groupTexts := fun r hr => by
      rcases mem_setRow hr with rfl | ⟨hr, -⟩
      · exact htext
      · exact t.groupTexts r hr
    groupNamesClean := fun r hr => by
      rcases mem_setRow hr with rfl | ⟨hr, -⟩
      · exact hclean
      · exact t.groupNamesClean r hr }

/-- `INSERT INTO scim_group_members`, of a row that violates no constraint. -/
def addMember (t : PgScimTables F) (row : MemberRow) (hnew : row ∉ t.members)
    (hgroup : row.groupId ∈ t.groups.map PgGroupRow.id)
    (huser : row.userId ∈ t.users.map fun row => row.user.id) : PgScimTables F :=
  { t with
    members := t.members ++ [row]
    memberships := t.memberships.append (List.nodup_singleton row)
      (List.disjoint_singleton.mpr hnew)
    memberGroup := List.forall_mem_append.mpr
      ⟨t.memberGroup, List.forall_mem_singleton.mpr hgroup⟩
    memberUser := List.forall_mem_append.mpr ⟨t.memberUser, List.forall_mem_singleton.mpr huser⟩ }

/-- `DELETE FROM scim_group_members WHERE group_id=%s`. -/
def clearMembers (t : PgScimTables F) (groupId : Str) : PgScimTables F :=
  { t with
    members := t.members.filter fun row => row.groupId ≠ groupId
    memberships := t.memberships.filter _
    memberGroup := fun row hrow => t.memberGroup row (List.mem_filter.mp hrow).1
    memberUser := fun row hrow => t.memberUser row (List.mem_filter.mp hrow).1 }

def insertGroup (row : PgGroupRow) (hclean : IsClean row.displayName) :
    PyM (PgScimTables F) Unit := do
  .ofExcept (pgText row.displayName)
  .ofExcept (pgText row.organizationId)
  .ofExcept (pgText row.externalId)
  fun t =>
    match htext : pgText row.id with
    | .error e => (.error e, t)
    | .ok () =>
      if h : rowAt PgGroupRow.id row.id t.groups = none ∧ (row.organizationId, row.displayName) ∉
          t.groups.map fun row => (row.organizationId, row.displayName) then
        (.ok (), t.addGroup row h.1 h.2 htext hclean)
      else (.error .integrityError, t)

def insertMember (row : MemberRow) : PyM (PgScimTables F) Unit := do
  .ofExcept (pgText row.groupId)
  .ofExcept (pgText row.userId)
  fun t =>
    if h : row ∉ t.members ∧ row.groupId ∈ t.groups.map PgGroupRow.id ∧
        row.userId ∈ t.users.map fun row => row.user.id then
      (.ok (), t.addMember row h.1 h.2.1 h.2.2)
    else (.error .integrityError, t)

/-- One statement for each row. -/
def insertMembers : List MemberRow → PyM (PgScimTables F) Unit
  | [] => pure ()
  | row :: rows => do
    insertMember row
    insertMembers rows

/-- `UPDATE scim_groups SET display_name=%s,external_id=%s,revision=revision+1
WHERE group_id=%s`, with `AND revision=%s` for an expected revision. -/
def updateGroup (groupId displayName externalId : Str) (hclean : IsClean displayName)
    (expectedRevision : Option Int) : PyM (PgScimTables F) Unit := do
  .ofExcept (pgText displayName)
  .ofExcept (pgText externalId)
  .ofExcept (pgText groupId)
  fun t =>
    match hrow : t.groups.find? fun row =>
        row.id = groupId ∧ ∀ revision ∈ expectedRevision, row.revision = revision with
    | none => (.error (.valueError (lit "SCIM group revision conflict")), t)
    | some row =>
      if h : ∀ old ∈ t.groups, old.id = row.id → ∀ other ∈ t.groups,
          (other.organizationId, other.displayName) = (row.organizationId, displayName) →
            other.id = row.id then
        (.ok (), t.changeGroup { row with displayName, externalId, revision := row.revision + 1 } h
          (t.groupTexts row (List.mem_of_find?_eq_some hrow)) hclean)
      else (.error .integrityError, t)

/-! ### The methods that write groups -/

/-- What `_parse_group` yields. -/
structure ParsedGroup where
  group : SCIMGroup
  name_clean : IsClean group.displayName

variable [PyBuiltins F]

omit [PyBuiltins F] in
theorem isClean_of_strip_ne_nil {text : Str} (h : strip text ≠ []) : IsClean (strip text) :=
  isClean_strip (Bool.eq_false_of_not_eq_true fun hblank => h (strip_eq_nil_iff.mpr hblank))

/-- `_parse_group`, for a group whose id is `groupId`. -/
def parseGroup (p : ScimPayload F) (groupId : Str) : Except PyExc ParsedGroup :=
  if hname : strip p.displayName = [] then .error groupNameRequired
  else
    match anyItems p.members with
    | none => .error notIterable
    | some names => .ok ⟨p.group groupId names, isClean_of_strip_ne_nil hname⟩

def createGroup (collation : PgCollation) (p : ScimPayload F) (organizationId fresh : Str) :
    PyM (PgScimTables F) SCIMGroup := do
  let parsed ← .ofExcept (parseGroup p (p.id fresh))
  let known ← listUsers collation organizationId 500 0
  let unknown := parsed.group.members \ (known.map SCIMUser.id).toFinset
  if unknown ≠ ∅ then .raise (unknownUsers F (sortedTexts unknown)) else do
  .transaction (.tryExcept (do
    insertGroup ⟨parsed.group.id, parsed.group.displayName, parsed.group.externalId,
      organizationId, 1⟩ parsed.name_clean
    insertMembers (ScimTables.memberRows parsed.group)) fun _ =>
      .raise (groupExists parsed.group.displayName))
  return parsed.group

def replaceGroup (collation : PgCollation) (groupId : Str) (p : ScimPayload F)
    (expectedRevision : Option Int) : PyM (PgScimTables F) SCIMGroup := do
  let parsed ← .ofExcept (parseGroup p groupId)
  let _ ← getGroup groupId
  let known ← listUsers collation [] 500 0
  if parsed.group.members \ (known.map SCIMUser.id).toFinset ≠ ∅ then
    .raise (.valueError (lit "SCIM group references unknown users")) else do
  .transaction do
    updateGroup groupId parsed.group.displayName parsed.group.externalId parsed.name_clean
      expectedRevision
    .modify fun t => t.clearMembers groupId
    insertMembers (ScimTables.memberRows parsed.group)
  getGroup groupId

end PgScimTables

end AgentRoi
