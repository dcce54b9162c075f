/-
`SqliteIdentityStore` of `agent_roi.enterprise.identity`, where it keeps users
and groups.

* `ScimTables` — `scim_users`, `scim_groups` and `scim_group_members`, with
  their keys and the references between them;
* `insertUser`, `updateUser`, `insertGroup`, `updateGroup`, `insertMembers` —
  the statements a constraint can fail;
* `createUser`, … , `listGroups` — the methods.

A row of `scim_users` is the user that is read back from it.
-/
import AgentRoi.ScimDirectory

namespace AgentRoi

open RowTable

/-- A row of `scim_groups`. -/
structure GroupRow where
  id : Str
  displayName : Str
  externalId : Str
  deriving DecidableEq

/-- A row of `scim_group_members`. -/
structure MemberRow where
  groupId : Str
  userId : Str
  deriving DecidableEq

/-- The tables, with the constraints the database holds them to. -/
structure ScimTables (F : Type) where
  users : List (SCIMUser F)
  groups : List GroupRow
  members : List MemberRow
  userIds : (users.map SCIMUser.id).Nodup
  userNames : (users.map SCIMUser.userName).Nodup
  groupIds : (groups.map GroupRow.id).Nodup
  groupNames : (groups.map GroupRow.displayName).Nodup
  memberships : members.Nodup
  memberGroup : ∀ row ∈ members, row.groupId ∈ groups.map GroupRow.id
  memberUser : ∀ row ∈ members, row.userId ∈ users.map SCIMUser.id

/-- The user as the columns `emails_json` and `attributes_json` give it back. -/
def SCIMUser.stored {F : Type} (user : SCIMUser F) : SCIMUser F :=
  { user with
    emails := user.emails.map joinSurrogates
    attributes :=
      match (Json.obj user.attributes).readBack with
      | .obj kvs => kvs
      | _ => [] }

/-- A user made from a payload comes back as it is. -/
theorem SCIMUser.stored_eq_value {F : Type} [PyBuiltins F] (p : ScimPayload F) (userId : Str) :
    (p.user userId (textItems p.emails)).stored = (p.user userId (textItems p.emails)).value := by
  have hemails : (textItems p.emails).map joinSurrogates = textItems p.emails := by
    refine (List.map_congr_left fun name hname => ?_).trans (List.map_id _)
    exact joinSurrogates_of_isJoined (p.joined_emails name hname)
  unfold stored value
  simp only [ScimPayload.user]
  rw [p.readBack_attributes, hemails]

namespace ScimTables

variable {F : Type}

theorem noUsers : (([] : List (SCIMUser F)).map SCIMUser.id).Nodup := .nil

theorem noUserNames : (([] : List (SCIMUser F)).map SCIMUser.userName).Nodup := .nil

theorem noGroups : (([] : List GroupRow).map GroupRow.id).Nodup := .nil

theorem noGroupNames : (([] : List GroupRow).map GroupRow.displayName).Nodup := .nil

theorem noMembers : ([] : List MemberRow).Nodup := .nil

theorem noMemberGroups :
    ∀ row ∈ ([] : List MemberRow), row.groupId ∈ ([] : List GroupRow).map GroupRow.id :=
  fun _ h => absurd h List.not_mem_nil

theorem noMemberUsers :
    ∀ row ∈ ([] : List MemberRow), row.userId ∈ ([] : List (SCIMUser F)).map SCIMUser.id :=
  fun _ h => absurd h List.not_mem_nil

def empty : ScimTables F where
  users := []
  groups := []
  members := []
  userIds := noUsers
  userNames := noUserNames
  groupIds := noGroups
  groupNames := noGroupNames
  memberships := noMembers
  memberGroup := noMemberGroups
  memberUser := noMemberUsers

/-! ### The rows -/

/-- `INSERT INTO scim_users`, of a row that violates no constraint. -/
def addUser (t : ScimTables F) (user : SCIMUser F)
    (hid : rowAt SCIMUser.id user.id t.users = none)
    (hname : rowAt SCIMUser.userName user.userName t.users = none) : ScimTables F where
  users := t.users ++ [user]
  groups := t.groups
  members := t.members
  userIds := nodup_append t.userIds hid
  userNames := nodup_append t.userNames hname
  groupIds := t.groupIds
  groupNames := t.groupNames
  memberships := t.memberships
  memberGroup := t.memberGroup
  memberUser row hrow := by
    rw [List.map_append]
    exact List.mem_append_left _ (t.memberUser row hrow)

/-- `UPDATE scim_users SET … WHERE id=?`, to a name no other row has. -/
def changeUser (t : ScimTables F) (user : SCIMUser F)
    (hname : ∀ row ∈ t.users, row.id = user.id →
      ∀ other ∈ t.users, other.userName = user.userName → other.id = user.id) : ScimTables F where
  users := setRow SCIMUser.id user t.users
  groups := t.groups
  members := t.members
  userIds := by
    rw [map_setRow]
    exact t.userIds
  userNames := nodup_setRow t.userIds t.userNames hname
  groupIds := t.groupIds
  groupNames := t.groupNames
  memberships := t.memberships
  memberGroup := t.memberGroup
  memberUser row hrow := by
    rw [map_setRow]
    exact t.memberUser row hrow

/-- `DELETE FROM scim_users WHERE id=?`; the memberships go with it. -/
def removeUser (t : ScimTables F) (userId : Str) : ScimTables F where
  users := t.users.filter fun user => user.id ≠ userId
  groups := t.groups
  members := t.members.filter fun row => row.userId ≠ userId
  userIds := nodup_filter t.userIds
  userNames := nodup_filter t.userNames
  groupIds := t.groupIds
  groupNames := t.groupNames
  memberships := t.memberships.filter _
  memberGroup row hrow := t.memberGroup row (List.mem_filter.mp hrow).1
  memberUser row hrow := by
    obtain ⟨hrow, hne⟩ := List.mem_filter.mp hrow
    obtain ⟨user, huser, hid⟩ := List.mem_map.mp (t.memberUser row hrow)
    refine List.mem_map.mpr ⟨user, List.mem_filter.mpr ⟨huser, ?_⟩, hid⟩
    rw [hid]
    exact hne

/-- `INSERT INTO scim_groups`, of a row that violates no constraint. -/
def addGroup (t : ScimTables F) (group : GroupRow)
    (hid : rowAt GroupRow.id group.id t.groups = none)
    (hname : rowAt GroupRow.displayName group.displayName t.groups = none) : ScimTables F where
  users := t.users
  groups := t.groups ++ [group]
  members := t.members
  userIds := t.userIds
  userNames := t.userNames
  groupIds := nodup_append t.groupIds hid
  groupNames := nodup_append t.groupNames hname
  memberships := t.memberships
  memberGroup row hrow := by
    rw [List.map_append]
    exact List.mem_append_left _ (t.memberGroup row hrow)
  memberUser := t.memberUser

/-- `UPDATE scim_groups SET … WHERE id=?`, to a name no other row has. -/
def changeGroup (t : ScimTables F) (group : GroupRow)
    (hname : ∀ row ∈ t.groups, row.id = group.id →
      ∀ other ∈ t.groups, other.displayName = group.displayName → other.id = group.id) :
    ScimTables F where
  users := t.users
  groups := setRow GroupRow.id group t.groups
  members := t.members
  userIds := t.userIds
  userNames := t.userNames
  groupIds := by
    rw [map_setRow]
    exact t.groupIds
  groupNames := nodup_setRow t.groupIds t.groupNames hname
  memberships := t.memberships
  memberGroup row hrow := by
    rw [map_setRow]
    exact t.memberGroup row hrow
  memberUser := t.memberUser

/-- `DELETE FROM scim_groups WHERE id=?`; the memberships go with it. -/
def removeGroup (t : ScimTables F) (groupId : Str) : ScimTables F where
  users := t.users
  groups := t.groups.filter fun group => group.id ≠ groupId
  members := t.members.filter fun row => row.groupId ≠ groupId
  userIds := t.userIds
  userNames := t.userNames
  groupIds := nodup_filter t.groupIds
  groupNames := nodup_filter t.groupNames
  memberships := t.memberships.filter _
  memberGroup row hrow := by
    obtain ⟨hrow, hne⟩ := List.mem_filter.mp hrow
    obtain ⟨group, hgroup, hid⟩ := List.mem_map.mp (t.memberGroup row hrow)
    refine List.mem_map.mpr ⟨group, List.mem_filter.mpr ⟨hgroup, ?_⟩, hid⟩
    rw [hid]
    exact hne
  memberUser row hrow := t.memberUser row (List.mem_filter.mp hrow).1

/-- `INSERT INTO scim_group_members`, of rows that violate no constraint. -/
def addMembers (t : ScimTables F) (rows : List MemberRow) (hnew : (t.members ++ rows).Nodup)
    (hgroup : ∀ row ∈ rows, row.groupId ∈ t.groups.map GroupRow.id)
    (huser : ∀ row ∈ rows, row.userId ∈ t.users.map SCIMUser.id) : ScimTables F where
  users := t.users
  groups := t.groups
  members := t.members ++ rows
  userIds := t.userIds
  userNames := t.userNames
  groupIds := t.groupIds
  groupNames := t.groupNames
  memberships := hnew
  memberGroup := List.forall_mem_append.mpr ⟨t.memberGroup, hgroup⟩
  memberUser := List.forall_mem_append.mpr ⟨t.memberUser, huser⟩

/-- `DELETE FROM scim_group_members WHERE group_id=?`. -/
def clearMembers (t : ScimTables F) (groupId : Str) : ScimTables F where
  users := t.users
  groups := t.groups
  members := t.members.filter fun row => row.groupId ≠ groupId
  userIds := t.userIds
  userNames := t.userNames
  groupIds := t.groupIds
  groupNames := t.groupNames
  memberships := t.memberships.filter _
  memberGroup row hrow := t.memberGroup row (List.mem_filter.mp hrow).1
  memberUser row hrow := t.memberUser row (List.mem_filter.mp hrow).1

/-- The members of a group. -/
def membersOf (t : ScimTables F) (groupId : Str) : Finset Str :=
  ((t.members.filter fun row => row.groupId = groupId).map MemberRow.userId).toFinset

/-- The group of a row. -/
def group (t : ScimTables F) (row : GroupRow) : SCIMGroup :=
  ⟨row.id, row.displayName, t.membersOf row.id, row.externalId⟩

/-! ### Texts that can be stored -/

/-- The text can be bound. -/
def Encodes (text : Str) : Prop := (encodeUtf8 text).isSome

instance (text : Str) : Decidable (Encodes text) := inferInstanceAs (Decidable (_ = true))

/-- The parameters of a statement, one after the other. -/
def bindTexts : List Str → Except PyExc Unit
  | [] => .ok ()
  | text :: texts => do
    bindText text
    bindTexts texts

theorem bindTexts_of_encodes {texts : List Str} (h : ∀ text ∈ texts, Encodes text) :
    bindTexts texts = .ok () := by
  induction texts with
  | nil => rfl
  | cons text texts ih =>
    obtain ⟨htext, htexts⟩ := List.forall_mem_cons.mp h
    rw [bindTexts, bindText_of_isSome htext]
    exact ih htexts

theorem bindTexts_of_not {texts : List Str} (h : ¬ ∀ text ∈ texts, Encodes text) :
    bindTexts texts = .error .unicodeEncodeError := by
  induction texts with
  | nil => exact absurd (fun text htext => absurd htext List.not_mem_nil) h
  | cons text texts ih =>
    rw [bindTexts]
    by_cases htext : Encodes text
    · rw [bindText_of_isSome htext]
      exact ih fun htexts => h (List.forall_mem_cons.mpr ⟨htext, htexts⟩)
    · have herror : bindText text = .error .unicodeEncodeError := if_neg htext
      rw [herror]
      rfl

/-- The columns that keep a text as it stands; the JSON ones are ASCII. -/
def userTexts (user : SCIMUser F) : List Str :=
  [user.id, user.userName, user.displayName, user.externalId]

def groupTexts (group : SCIMGroup) : List Str := [group.id, group.displayName, group.externalId]

def UserEncodes (user : SCIMUser F) : Prop := ∀ text ∈ userTexts user, Encodes text

def GroupEncodes (group : SCIMGroup) : Prop := ∀ text ∈ groupTexts group, Encodes text

instance (user : SCIMUser F) : Decidable (UserEncodes user) :=
  inferInstanceAs (Decidable (∀ text ∈ _, _))

instance (group : SCIMGroup) : Decidable (GroupEncodes group) :=
  inferInstanceAs (Decidable (∀ text ∈ _, _))

/-! ### The statements -/

def insertUser (user : SCIMUser F) : PyM (ScimTables F) Unit := fun t =>
  if h : rowAt SCIMUser.id user.stored.id t.users = none ∧
      rowAt SCIMUser.userName user.stored.userName t.users = none then
    (.ok (), t.addUser user.stored h.1 h.2)
  else (.error .integrityError, t)

def updateUser (user : SCIMUser F) : PyM (ScimTables F) Unit := fun t =>
  if h : ∀ row ∈ t.users, row.id = user.stored.id →
      ∀ other ∈ t.users, other.userName = user.stored.userName → other.id = user.stored.id then
    (.ok (), t.changeUser user.stored h)
  else (.error .integrityError, t)

def groupRow (group : SCIMGroup) : GroupRow := ⟨group.id, group.displayName, group.externalId⟩

def memberRows (group : SCIMGroup) : List MemberRow :=
  (sortedTexts group.members).map fun userId => ⟨group.id, userId⟩

def insertGroup (row : GroupRow) : PyM (ScimTables F) Unit := fun t =>
  if h : rowAt GroupRow.id row.id t.groups = none ∧
      rowAt GroupRow.displayName row.displayName t.groups = none then
    (.ok (), t.addGroup row h.1 h.2)
  else (.error .integrityError, t)

def updateGroup (row : GroupRow) : PyM (ScimTables F) Unit := fun t =>
  if h : ∀ old ∈ t.groups, old.id = row.id →
      ∀ other ∈ t.groups, other.displayName = row.displayName → other.id = row.id then
    (.ok (), t.changeGroup row h)
  else (.error .integrityError, t)

/-- `executemany` of the rows. -/
def insertMembers (rows : List MemberRow) : PyM (ScimTables F) Unit := do
  .ofExcept (bindTexts (rows.map MemberRow.userId))
  fun t =>
    if h : (t.members ++ rows).Nodup ∧ (∀ row ∈ rows, row.groupId ∈ t.groups.map GroupRow.id) ∧
        ∀ row ∈ rows, row.userId ∈ t.users.map SCIMUser.id then
      (.ok (), t.addMembers rows h.1 h.2.1 h.2.2)
    else (.error .integrityError, t)

/-- The parameters of `LIMIT` and `OFFSET`, where the query has them. -/
def bindPage (limit : Option Int) (offset : Int) : Except PyExc Unit :=
  if (limit.isSome ∨ offset ≠ 0) ∧ 2 ^ 63 ≤ offset then .error .overflowError else .ok ()

/-! ### The methods -/

def getUser (userId : Str) : PyM (ScimTables F) (SCIMUser F) := do
  .ofExcept (bindText userId)
  let t ← PyM.get
  match rowAt SCIMUser.id userId t.users with
  | none => .raise (SCIMDirectory.userNotFound userId)
  | some user => return user

def getGroup (groupId : Str) : PyM (ScimTables F) SCIMGroup := do
  .ofExcept (bindText groupId)
  let t ← PyM.get
  match rowAt GroupRow.id groupId t.groups with
  | none => .raise (SCIMDirectory.groupNotFound groupId)
  | some row => return t.group row

def listUsers (limit : Option Int) (offset : Int) : PyM (ScimTables F) (List (SCIMUser F)) := do
  .ofExcept (checkPage limit offset)
  .ofExcept (bindPage limit offset)
  let t ← PyM.get
  return page limit offset (sortedOn SCIMUser.userName t.users)

/-- `tuple(self.get_group(group_id) for group_id in ids)`. -/
def getGroups : List Str → PyM (ScimTables F) (List SCIMGroup)
  | [] => pure []
  | groupId :: ids => do
    let group ← getGroup groupId
    let groups ← getGroups ids
    return group :: groups

def listGroups (limit : Option Int) (offset : Int) : PyM (ScimTables F) (List SCIMGroup) := do
  .ofExcept (checkPage limit offset)
  .ofExcept (bindPage limit offset)
  let t ← PyM.get
  getGroups ((page limit offset (sortedOn GroupRow.displayName t.groups)).map GroupRow.id)

def deleteUser (userId : Str) : PyM (ScimTables F) Unit := do
  .ofExcept (bindText userId)
  let t ← PyM.get
  if userId ∈ t.users.map SCIMUser.id then PyM.set (t.removeUser userId)
  else .raise (.keyError [userId])

def deleteGroup (groupId : Str) : PyM (ScimTables F) Unit := do
  .ofExcept (bindText groupId)
  let t ← PyM.get
  if groupId ∈ t.groups.map GroupRow.id then PyM.set (t.removeGroup groupId)
  else .raise (.keyError [groupId])

/-- `except sqlite3.IntegrityError as exc: raise … from exc`. -/
def integrityAs (e : PyExc) (x : PyM (ScimTables F) Unit) : PyM (ScimTables F) Unit :=
  .tryExcept x fun raised => .raise (if raised = .integrityError then e else raised)

variable [PyBuiltins F]

def createUser (p : ScimPayload F) (fresh : Str) : PyM (ScimTables F) (SCIMUser F) :=
  if p.userName = [] then .raise userNameRequired else do
  let user := p.user (p.id fresh) (textItems p.emails)
  .transaction (integrityAs (userExists user.userName) do
    .ofExcept (bindTexts (userTexts user))
    insertUser user)
  return user

def replaceUser (userId : Str) (p : ScimPayload F) : PyM (ScimTables F) (SCIMUser F) := do
  let _ ← getUser userId
  if p.userName = [] then .raise userNameRequired else do
  let emails ← .ofExcept (readItems p.emails)
  let user := p.user userId emails
  .transaction do
    .ofExcept (bindTexts (userTexts user))
    updateUser user
  return user

def createGroup (p : ScimPayload F) (fresh : Str) : PyM (ScimTables F) SCIMGroup :=
  if strip p.displayName = [] then .raise groupNameRequired else do
  let names ← .ofExcept (readItems p.members)
  let known ← listUsers none 0
  let unknown := names.toFinset \ (known.map SCIMUser.id).toFinset
  if unknown ≠ ∅ then .raise (unknownUsers F (sortedTexts unknown)) else do
  let group := p.group (p.id fresh) names
  .transaction (integrityAs (groupExists group.displayName) do
    .ofExcept (bindTexts (groupTexts group))
    insertGroup (groupRow group)
    insertMembers (memberRows group))
  return group

def replaceGroup (groupId : Str) (p : ScimPayload F) : PyM (ScimTables F) SCIMGroup := do
  let _ ← getGroup groupId
  if strip p.displayName = [] then .raise groupNameRequired else do
  let names ← .ofExcept (readItems p.members)
  let known ← listUsers none 0
  if names.toFinset \ (known.map SCIMUser.id).toFinset ≠ ∅ then
    .raise (.valueError (lit "SCIM group references unknown users")) else do
  let group := p.group groupId names
  .transaction do
    .ofExcept (bindTexts (groupTexts group))
    updateGroup (groupRow group)
    .modify fun t => t.clearMembers groupId
    insertMembers (memberRows group)
  getGroup groupId

/-! ### The outcomes -/

section

variable {t : ScimTables F} {p : ScimPayload F} {userId groupId fresh : Str} {names : List Str}

omit [PyBuiltins F] in
theorem statement_of_ok {e : PyExc} {x : PyM (ScimTables F) Unit} {t' : ScimTables F}
    (h : x t = (.ok (), t')) : PyM.transaction (integrityAs e x) t = (.ok (), t') :=
  PyM.transaction_eq_ok.mpr (PyM.tryExcept_eq_ok.mpr (.inl h))

omit [PyBuiltins F] in
theorem statement_of_error {e raised : PyExc} {x : PyM (ScimTables F) Unit} {t' : ScimTables F}
    (h : x t = (.error raised, t')) : PyM.transaction (integrityAs e x) t =
      (.error (if raised = .integrityError then e else raised), t) := by
  refine PyM.transaction_eq_error.mpr ⟨rfl, ?_⟩
  show (integrityAs e x t).1 = _
  rw [integrityAs, PyM.tryExcept, h]
  rfl

omit [PyBuiltins F] in
/-- A statement whose parameters are bound. -/
theorem bound_apply {texts : List Str} (h : ∀ text ∈ texts, Encodes text)
    (x : PyM (ScimTables F) Unit) :
    (do PyM.ofExcept (bindTexts texts); x : PyM (ScimTables F) Unit) t = x t :=
  PyM.bind_of_ok (congrArg (·, t) (bindTexts_of_encodes h))

omit [PyBuiltins F] in
theorem unbound_apply {texts : List Str} (h : ¬ ∀ text ∈ texts, Encodes text)
    (x : PyM (ScimTables F) Unit) :
    (do PyM.ofExcept (bindTexts texts); x : PyM (ScimTables F) Unit) t =
      (.error .unicodeEncodeError, t) :=
  PyM.bind_of_error (congrArg (·, t) (bindTexts_of_not h))

theorem readItems_apply {raw : Json F} (h : anyItems raw = some names) :
    (PyM.ofExcept (readItems raw) : PyM (ScimTables F) (List Str)) t = (.ok names, t) := by
  rw [readItems, h]
  rfl

theorem readItems_apply_of_none {raw : Json F} (h : anyItems raw = none) :
    (PyM.ofExcept (readItems raw) : PyM (ScimTables F) (List Str)) t = (.error notIterable, t) := by
  rw [readItems, h]
  rfl

/-- The user `create_user` makes. -/
def newUser (p : ScimPayload F) (fresh : Str) : SCIMUser F := p.user (p.id fresh) (textItems p.emails)

theorem createUser_of_blank (h : p.userName = []) :
    createUser p fresh t = (.error userNameRequired, t) := by
  rw [createUser, if_pos h]
  rfl

theorem createUser_of_unencodable (hname : p.userName ≠ []) (h : ¬ UserEncodes (newUser p fresh)) :
    createUser p fresh t = (.error .unicodeEncodeError, t) := by
  rw [createUser, if_neg hname]
  exact PyM.bind_of_error (statement_of_error (unbound_apply h _))

theorem createUser_of_taken (hname : p.userName ≠ []) (h : UserEncodes (newUser p fresh))
    (htaken : ¬ (rowAt SCIMUser.id (p.id fresh) t.users = none ∧
      rowAt SCIMUser.userName p.userName t.users = none)) :
    createUser p fresh t = (.error (userExists p.userName), t) := by
  have hinsert : insertUser (newUser p fresh) t = (.error .integrityError, t) := dif_neg htaken
  rw [createUser, if_neg hname]
  exact PyM.bind_of_error (statement_of_error ((bound_apply h _).trans hinsert))

theorem createUser_of_free (hname : p.userName ≠ []) (h : UserEncodes (newUser p fresh))
    (hid : rowAt SCIMUser.id (p.id fresh) t.users = none)
    (hfree : rowAt SCIMUser.userName p.userName t.users = none) :
    ∃ t', createUser p fresh t = (.ok (newUser p fresh), t') ∧
      t'.users = t.users ++ [(newUser p fresh).stored] ∧ t'.groups = t.groups ∧
        t'.members = t.members := by
  have hinsert : insertUser (newUser p fresh) t =
      (.ok (), t.addUser (newUser p fresh).stored hid hfree) := dif_pos ⟨hid, hfree⟩
  refine ⟨t.addUser (newUser p fresh).stored hid hfree, ?_, rfl, rfl, rfl⟩
  rw [createUser, if_neg hname]
  exact PyM.bind_of_ok (statement_of_ok ((bound_apply h _).trans hinsert))

omit [PyBuiltins F] in
theorem getUser_of_unencodable (h : ¬ Encodes userId) :
    getUser userId t = (.error .unicodeEncodeError, t) := PyM.bind_of_error (congrArg (·, t) (if_neg h))

omit [PyBuiltins F] in
theorem getUser_of_encodes (h : Encodes userId) : getUser userId t =
    ((rowAt SCIMUser.id userId t.users).elim (.error (SCIMDirectory.userNotFound userId)) .ok, t) := by
  refine (PyM.bind_of_ok (congrArg (·, t) (bindText_of_isSome h))).trans ?_
  rw [PyM.get_bind]
  cases rowAt SCIMUser.id userId t.users <;> rfl

omit [PyBuiltins F] in
theorem getGroup_of_unencodable (h : ¬ Encodes groupId) :
    getGroup groupId t = (.error .unicodeEncodeError, t) := PyM.bind_of_error (congrArg (·, t) (if_neg h))

omit [PyBuiltins F] in
theorem getGroup_of_encodes (h : Encodes groupId) : getGroup groupId t =
    (((rowAt GroupRow.id groupId t.groups).map t.group).elim
      (.error (SCIMDirectory.groupNotFound groupId)) .ok, t) := by
  refine (PyM.bind_of_ok (congrArg (·, t) (bindText_of_isSome h))).trans ?_
  rw [PyM.get_bind]
  cases rowAt GroupRow.id groupId t.groups <;> rfl

theorem replaceUser_of_unencodable_id (h : ¬ Encodes userId) :
    replaceUser userId p t = (.error .unicodeEncodeError, t) :=
  PyM.bind_of_error (getUser_of_unencodable h)

theorem replaceUser_of_missing (h : Encodes userId)
    (hrow : rowAt SCIMUser.id userId t.users = none) :
    replaceUser userId p t = (.error (SCIMDirectory.userNotFound userId), t) := by
  refine PyM.bind_of_error ((getUser_of_encodes h).trans ?_)
  rw [hrow]
  rfl

section

variable {row : SCIMUser F} (hid : Encodes userId)
  (hrow : rowAt SCIMUser.id userId t.users = some row)

include hid hrow

theorem replaceUser_of_row : replaceUser userId p t =
    (if p.userName = [] then PyM.raise userNameRequired else do
      let emails ← PyM.ofExcept (readItems p.emails)
      PyM.transaction do
        PyM.ofExcept (bindTexts (userTexts (p.user userId emails)))
        updateUser (p.user userId emails)
      return p.user userId emails : PyM (ScimTables F) (SCIMUser F)) t := by
  refine PyM.bind_of_ok (a := row) ((getUser_of_encodes hid).trans ?_)
  rw [hrow]
  rfl

theorem replaceUser_of_blank (h : p.userName = []) :
    replaceUser userId p t = (.error userNameRequired, t) := by
  rw [replaceUser_of_row hid hrow]
  exact congrFun (if_pos h) t

theorem replaceUser_of_notIterable (hname : p.userName ≠ []) (h : anyItems p.emails = none) :
    replaceUser userId p t = (.error notIterable, t) := by
  rw [replaceUser_of_row hid hrow]
  exact (congrFun (if_neg hname) t).trans (PyM.bind_of_error (readItems_apply_of_none h))

theorem replaceUser_of_items (hname : p.userName ≠ []) (h : anyItems p.emails = some names) :
    replaceUser userId p t = (do
      PyM.transaction do
        PyM.ofExcept (bindTexts (userTexts (p.user userId names)))
        updateUser (p.user userId names)
      return p.user userId names : PyM (ScimTables F) (SCIMUser F)) t := by
  rw [replaceUser_of_row hid hrow]
  exact (congrFun (if_neg hname) t).trans (PyM.bind_of_ok (readItems_apply h))

theorem replaceUser_of_unencodable (hname : p.userName ≠ []) (h : anyItems p.emails = some names)
    (htexts : ¬ UserEncodes (p.user userId names)) :
    replaceUser userId p t = (.error .unicodeEncodeError, t) := by
  rw [replaceUser_of_items hid hrow hname h]
  exact PyM.bind_of_error (PyM.transaction_eq_error.mpr
    ⟨rfl, congrArg Prod.fst (unbound_apply htexts _)⟩)

/-- A name of another user is refused by the database, and by nothing before
it. -/
theorem replaceUser_of_named (hname : p.userName ≠ []) (h : anyItems p.emails = some names)
    (htexts : UserEncodes (p.user userId names)) {other : SCIMUser F} (hother : other ∈ t.users)
    (hsame : other.userName = p.userName) (hne : other.id ≠ userId) :
    replaceUser userId p t = (.error .integrityError, t) := by
  have hupdate : updateUser (p.user userId names) t = (.error .integrityError, t) :=
    dif_neg fun hall => hne (hall row (mem_of_rowAt hrow) (key_of_rowAt hrow) other hother hsame)
  rw [replaceUser_of_items hid hrow hname h]
  exact PyM.bind_of_error (PyM.transaction_eq_error.mpr
    ⟨rfl, congrArg Prod.fst ((bound_apply htexts _).trans hupdate)⟩)

theorem replaceUser_of_free (hname : p.userName ≠ []) (h : anyItems p.emails = some names)
    (htexts : UserEncodes (p.user userId names))
    (hfree : ∀ other ∈ t.users, other.userName = p.userName → other.id = userId) :
    ∃ t', replaceUser userId p t = (.ok (p.user userId names), t') ∧
      t'.users = setRow SCIMUser.id (p.user userId names).stored t.users ∧
        t'.groups = t.groups ∧ t'.members = t.members := by
  have hall : ∀ old ∈ t.users, old.id = (p.user userId names).stored.id → ∀ other ∈ t.users,
      other.userName = (p.user userId names).stored.userName →
        other.id = (p.user userId names).stored.id := fun _ _ _ => hfree
  have hupdate : updateUser (p.user userId names) t =
      (.ok (), t.changeUser (p.user userId names).stored hall) := dif_pos hall
  refine ⟨t.changeUser (p.user userId names).stored hall, ?_, rfl, rfl, rfl⟩
  rw [replaceUser_of_items hid hrow hname h]
  exact PyM.bind_of_ok (PyM.transaction_eq_ok.mpr ((bound_apply htexts _).trans hupdate))

end

/-! #### Groups -/

omit [PyBuiltins F] in
theorem listUsers_all : listUsers none 0 t = (.ok (sortedOn SCIMUser.userName t.users), t) := rfl

/-- Every member that is read is a user. -/
def KnowsMembers (t : ScimTables F) (names : List Str) : Prop :=
  ∀ name ∈ names, name ∈ t.users.map SCIMUser.id

omit [PyBuiltins F] in
theorem unknown_eq_empty_iff : names.toFinset \
      ((sortedOn SCIMUser.userName t.users).map SCIMUser.id).toFinset = ∅ ↔
    t.KnowsMembers names := by
  have hids : ∀ name, name ∈ (sortedOn SCIMUser.userName t.users).map SCIMUser.id ↔
      name ∈ t.users.map SCIMUser.id := by
    intro name
    simp only [List.mem_map, mem_sortedOn]
  rw [Finset.sdiff_eq_empty_iff_subset]
  constructor
  · exact fun h name hname => (hids name).mp (List.mem_toFinset.mp (h (List.mem_toFinset.mpr hname)))
  · exact fun h name hname =>
      List.mem_toFinset.mpr ((hids name).mpr (h name (List.mem_toFinset.mp hname)))

theorem createGroup_of_blank (h : strip p.displayName = []) :
    createGroup p fresh t = (.error groupNameRequired, t) := by
  rw [createGroup, if_pos h]
  rfl

theorem createGroup_of_notIterable (hname : strip p.displayName ≠ [])
    (h : anyItems p.members = none) : createGroup p fresh t = (.error notIterable, t) := by
  rw [createGroup, if_neg hname]
  exact PyM.bind_of_error (readItems_apply_of_none h)

section

variable (hname : strip p.displayName ≠ []) (hitems : anyItems p.members = some names)

include hname hitems

theorem createGroup_of_unknown (h : ¬ t.KnowsMembers names) :
    ∃ unknown, createGroup p fresh t = (.error (unknownUsers F unknown), t) := by
  refine ⟨sortedTexts (names.toFinset \
    ((sortedOn SCIMUser.userName t.users).map SCIMUser.id).toFinset), ?_⟩
  rw [createGroup, if_neg hname]
  refine (PyM.bind_of_ok (readItems_apply hitems)).trans ?_
  refine (PyM.bind_of_ok listUsers_all).trans ?_
  exact congrFun (if_pos (unknown_eq_empty_iff.not.mpr h)) t

theorem createGroup_of_known (h : t.KnowsMembers names) : createGroup p fresh t = (do
    PyM.transaction (integrityAs (groupExists (strip p.displayName)) do
      PyM.ofExcept (bindTexts (groupTexts (p.group (p.id fresh) names)))
      insertGroup (groupRow (p.group (p.id fresh) names))
      insertMembers (memberRows (p.group (p.id fresh) names)))
    return p.group (p.id fresh) names : PyM (ScimTables F) SCIMGroup) t := by
  rw [createGroup, if_neg hname]
  refine (PyM.bind_of_ok (readItems_apply hitems)).trans ?_
  refine (PyM.bind_of_ok listUsers_all).trans ?_
  exact congrFun (if_neg (not_not_intro (unknown_eq_empty_iff.mpr h))) t

theorem createGroup_of_unencodable (hknown : t.KnowsMembers names)
    (h : ¬ GroupEncodes (p.group (p.id fresh) names)) :
    createGroup p fresh t = (.error .unicodeEncodeError, t) := by
  rw [createGroup_of_known hname hitems hknown]
  exact PyM.bind_of_error (statement_of_error (unbound_apply h _))

theorem createGroup_of_taken (hknown : t.KnowsMembers names)
    (h : GroupEncodes (p.group (p.id fresh) names))
    (htaken : ¬ (rowAt GroupRow.id (p.id fresh) t.groups = none ∧
      rowAt GroupRow.displayName (strip p.displayName) t.groups = none)) :
    createGroup p fresh t = (.error (groupExists (strip p.displayName)), t) := by
  have hinsert : insertGroup (groupRow (p.group (p.id fresh) names)) t =
      (.error .integrityError, t) := dif_neg htaken
  rw [createGroup_of_known hname hitems hknown]
  exact PyM.bind_of_error (statement_of_error ((bound_apply h _).trans (PyM.bind_of_error hinsert)))

omit [PyBuiltins F] hname hitems in
theorem mem_memberRows {group : SCIMGroup} {row : MemberRow} : row ∈ memberRows group ↔
    row.groupId = group.id ∧ row.userId ∈ group.members := by
  rcases row with ⟨groupId, userId⟩
  simp only [memberRows, sortedTexts, List.mem_map, Finset.mem_sort, MemberRow.mk.injEq]
  constructor
  · rintro ⟨_, hmem, rfl, rfl⟩
    exact ⟨rfl, hmem⟩
  · rintro ⟨rfl, hmem⟩
    exact ⟨userId, hmem, rfl, rfl⟩

omit [PyBuiltins F] hname hitems in
/-- Members of a group that has none, all of them users. -/
theorem insertMembers_of_known {group : SCIMGroup} (hgroup : group.id ∈ t.groups.map GroupRow.id)
    (hnone : ∀ row ∈ t.members, row.groupId ≠ group.id)
    (hknown : ∀ name ∈ group.members, name ∈ t.users.map SCIMUser.id)
    (hencodes : ∀ name ∈ group.members, Encodes name) :
    ∃ t', insertMembers (memberRows group) t = (.ok (), t') ∧ t'.users = t.users ∧
      t'.groups = t.groups ∧ t'.members = t.members ++ memberRows group := by
  have hbound : ∀ text ∈ (memberRows group).map MemberRow.userId, Encodes text := by
    intro text htext
    obtain ⟨row, hrow, rfl⟩ := List.mem_map.mp htext
    exact hencodes _ (mem_memberRows.mp hrow).2
  have hrows : (memberRows group).Nodup :=
    (Finset.sort_nodup _ _).map fun _ _ heq => (MemberRow.mk.inj heq).2
  have hnew : (t.members ++ memberRows group).Nodup :=
    t.memberships.append hrows fun row hold hrow => hnone row hold (mem_memberRows.mp hrow).1
  have hgroups : ∀ row ∈ memberRows group, row.groupId ∈ t.groups.map GroupRow.id := by
    intro row hrow
    rw [(mem_memberRows.mp hrow).1]
    exact hgroup
  have husers : ∀ row ∈ memberRows group, row.userId ∈ t.users.map SCIMUser.id :=
    fun row hrow => hknown _ (mem_memberRows.mp hrow).2
  refine ⟨t.addMembers (memberRows group) hnew hgroups husers, ?_, rfl, rfl, rfl⟩
  exact (PyM.bind_of_ok (congrArg (·, t) (bindTexts_of_encodes hbound))).trans
    (dif_pos ⟨hnew, hgroups, husers⟩)

theorem createGroup_of_free (hknown : t.KnowsMembers names)
    (h : GroupEncodes (p.group (p.id fresh) names))
    (hid : rowAt GroupRow.id (p.id fresh) t.groups = none)
    (hfree : rowAt GroupRow.displayName (strip p.displayName) t.groups = none)
    (hencodes : ∀ name ∈ names, Encodes name) :
    ∃ t', createGroup p fresh t = (.ok (p.group (p.id fresh) names), t') ∧ t'.users = t.users ∧
      t'.groups = t.groups ++ [groupRow (p.group (p.id fresh) names)] ∧
        t'.members = t.members ++ memberRows (p.group (p.id fresh) names) := by
  have hinsert : insertGroup (groupRow (p.group (p.id fresh) names)) t =
      (.ok (), t.addGroup (groupRow (p.group (p.id fresh) names)) hid hfree) := dif_pos ⟨hid, hfree⟩
  have hgroup : p.id fresh ∈ (t.groups ++ [groupRow (p.group (p.id fresh) names)]).map GroupRow.id :=
    List.mem_map_of_mem (List.mem_append_right _ (List.mem_singleton.mpr rfl))
  have hnone : ∀ row ∈ t.members, row.groupId ≠ p.id fresh := by
    intro row hrow heq
    rw [← heq, rowAt_eq_none_iff] at hid
    exact hid (t.memberGroup row hrow)
  have hinserted : ∃ t', insertMembers (memberRows (p.group (p.id fresh) names))
      (t.addGroup (groupRow (p.group (p.id fresh) names)) hid hfree) = (.ok (), t') ∧
        t'.users = t.users ∧ t'.groups = t.groups ++ [groupRow (p.group (p.id fresh) names)] ∧
          t'.members = t.members ++ memberRows (p.group (p.id fresh) names) :=
    insertMembers_of_known hgroup hnone
      (fun name hmem => hknown name (List.mem_toFinset.mp hmem))
      fun name hmem => hencodes name (List.mem_toFinset.mp hmem)
  obtain ⟨t', hmembers, hrest⟩ := hinserted
  refine ⟨t', ?_, hrest⟩
  rw [createGroup_of_known hname hitems hknown]
  exact PyM.bind_of_ok (statement_of_ok
    ((bound_apply h _).trans ((PyM.bind_of_ok hinsert).trans hmembers)))

end

section

variable {row : GroupRow} (hid : Encodes groupId)
  (hrow : rowAt GroupRow.id groupId t.groups = some row)

theorem replaceGroup_of_unencodable_id (h : ¬ Encodes groupId) :
    replaceGroup groupId p t = (.error .unicodeEncodeError, t) :=
  PyM.bind_of_error (getGroup_of_unencodable h)

theorem replaceGroup_of_missing (h : Encodes groupId)
    (hrow : rowAt GroupRow.id groupId t.groups = none) :
    replaceGroup groupId p t = (.error (SCIMDirectory.groupNotFound groupId), t) := by
  refine PyM.bind_of_error ((getGroup_of_encodes h).trans ?_)
  rw [hrow]
  rfl

include hid hrow

omit [PyBuiltins F] in
theorem getGroup_of_row : getGroup groupId t = (.ok (t.group row), t) := by
  rw [getGroup_of_encodes hid, hrow]
  rfl

theorem replaceGroup_of_blank (h : strip p.displayName = []) :
    replaceGroup groupId p t = (.error groupNameRequired, t) :=
  (PyM.bind_of_ok (getGroup_of_row hid hrow)).trans (congrFun (if_pos h) t)

theorem replaceGroup_of_notIterable (hname : strip p.displayName ≠ [])
    (h : anyItems p.members = none) : replaceGroup groupId p t = (.error notIterable, t) :=
  (PyM.bind_of_ok (getGroup_of_row hid hrow)).trans
    ((congrFun (if_neg hname) t).trans (PyM.bind_of_error (readItems_apply_of_none h)))

variable (hname : strip p.displayName ≠ []) (hitems : anyItems p.members = some names)

include hname hitems

theorem replaceGroup_of_items : replaceGroup groupId p t = (if names.toFinset \
      ((sortedOn SCIMUser.userName t.users).map SCIMUser.id).toFinset ≠ ∅ then
    PyM.raise (.valueError (lit "SCIM group references unknown users")) else do
    PyM.transaction do
      PyM.ofExcept (bindTexts (groupTexts (p.group groupId names)))
      updateGroup (groupRow (p.group groupId names))
      PyM.modify fun t => t.clearMembers groupId
      insertMembers (memberRows (p.group groupId names))
    getGroup groupId : PyM (ScimTables F) SCIMGroup) t :=
  (PyM.bind_of_ok (getGroup_of_row hid hrow)).trans
    ((congrFun (if_neg hname) t).trans ((PyM.bind_of_ok (readItems_apply hitems)).trans
      (PyM.bind_of_ok listUsers_all)))

theorem replaceGroup_of_unknown (h : ¬ t.KnowsMembers names) : replaceGroup groupId p t =
    (.error (.valueError (lit "SCIM group references unknown users")), t) :=
  (replaceGroup_of_items hid hrow hname hitems).trans
    (congrFun (if_pos (unknown_eq_empty_iff.not.mpr h)) t)

section

variable (hknown : t.KnowsMembers names)

include hknown

theorem replaceGroup_of_known : replaceGroup groupId p t = (do
    PyM.transaction do
      PyM.ofExcept (bindTexts (groupTexts (p.group groupId names)))
      updateGroup (groupRow (p.group groupId names))
      PyM.modify fun t => t.clearMembers groupId
      insertMembers (memberRows (p.group groupId names))
    getGroup groupId : PyM (ScimTables F) SCIMGroup) t :=
  (replaceGroup_of_items hid hrow hname hitems).trans
    (congrFun (if_neg (not_not_intro (unknown_eq_empty_iff.mpr hknown))) t)

theorem replaceGroup_of_unencodable (h : ¬ GroupEncodes (p.group groupId names)) :
    replaceGroup groupId p t = (.error .unicodeEncodeError, t) := by
  rw [replaceGroup_of_known hid hrow hname hitems hknown]
  exact PyM.bind_of_error (PyM.transaction_eq_error.mpr
    ⟨rfl, congrArg Prod.fst (unbound_apply h _)⟩)

/-- A name of another group is refused by the database, and by nothing before
it. -/
theorem replaceGroup_of_named (h : GroupEncodes (p.group groupId names)) {other : GroupRow}
    (hother : other ∈ t.groups) (hsame : other.displayName = strip p.displayName)
    (hne : other.id ≠ groupId) : replaceGroup groupId p t = (.error .integrityError, t) := by
  have hupdate : updateGroup (groupRow (p.group groupId names)) t = (.error .integrityError, t) :=
    dif_neg fun hall => hne (hall row (mem_of_rowAt hrow) (key_of_rowAt hrow) other hother hsame)
  rw [replaceGroup_of_known hid hrow hname hitems hknown]
  exact PyM.bind_of_error (PyM.transaction_eq_error.mpr
    ⟨rfl, congrArg Prod.fst ((bound_apply h _).trans (PyM.bind_of_error hupdate))⟩)

theorem replaceGroup_of_free (h : GroupEncodes (p.group groupId names))
    (hfree : ∀ other ∈ t.groups, other.displayName = strip p.displayName → other.id = groupId)
    (hencodes : ∀ name ∈ names, Encodes name) :
    ∃ t', replaceGroup groupId p t = (.ok (t'.group (groupRow (p.group groupId names))), t') ∧
      t'.users = t.users ∧
        t'.groups = setRow GroupRow.id (groupRow (p.group groupId names)) t.groups ∧
          t'.members = (t.members.filter fun row => row.groupId ≠ groupId) ++
            memberRows (p.group groupId names) := by
  have hall : ∀ old ∈ t.groups, old.id = groupId → ∀ other ∈ t.groups,
      other.displayName = strip p.displayName → other.id = groupId := fun _ _ _ => hfree
  have hupdate : updateGroup (groupRow (p.group groupId names)) t =
      (.ok (), t.changeGroup (groupRow (p.group groupId names)) hall) := dif_pos hall
  have hids : (setRow GroupRow.id (groupRow (p.group groupId names)) t.groups).map GroupRow.id =
      t.groups.map GroupRow.id := map_setRow
  have hgroup : groupId ∈
      (setRow GroupRow.id (groupRow (p.group groupId names)) t.groups).map GroupRow.id := by
    rw [hids, ← key_of_rowAt hrow]
    exact List.mem_map_of_mem (mem_of_rowAt hrow)
  have hinserted : ∃ t', insertMembers (memberRows (p.group groupId names))
      ((t.changeGroup (groupRow (p.group groupId names)) hall).clearMembers groupId) =
        (.ok (), t') ∧ t'.users = t.users ∧
          t'.groups = setRow GroupRow.id (groupRow (p.group groupId names)) t.groups ∧
            t'.members = (t.members.filter fun row => row.groupId ≠ groupId) ++
              memberRows (p.group groupId names) :=
    insertMembers_of_known hgroup (fun row hrow => of_decide_eq_true (List.mem_filter.mp hrow).2)
      (fun name hmem => hknown name (List.mem_toFinset.mp hmem))
      fun name hmem => hencodes name (List.mem_toFinset.mp hmem)
  obtain ⟨t', hmembers, husers, hgroups, hrows⟩ := hinserted
  refine ⟨t', ?_, husers, hgroups, hrows⟩
  have hplace : rowAt GroupRow.id groupId t'.groups = some (groupRow (p.group groupId names)) := by
    have hmem : groupRow (p.group groupId names) ∈ t'.groups := by
      rw [hgroups]
      exact mem_updateWhere.mpr ⟨row, mem_of_rowAt hrow,
        (if_pos (decide_eq_true (key_of_rowAt hrow))).symm⟩
    exact rowAt_of_mem t'.groupIds hmem
  rw [replaceGroup_of_known hid hrow hname hitems hknown]
  refine (PyM.bind_of_ok (PyM.transaction_eq_ok.mpr ((bound_apply h _).trans
    ((PyM.bind_of_ok hupdate).trans hmembers)))).trans ?_
  exact getGroup_of_row hid hplace

end

end

end

omit [PyBuiltins F] in
theorem getGroups_eq {t : ScimTables F} (hids : ∀ row ∈ t.groups, Encodes row.id)
    {rows : List GroupRow} (hrows : ∀ row ∈ rows, row ∈ t.groups) :
    getGroups (rows.map GroupRow.id) t = (.ok (rows.map t.group), t) := by
  induction rows with
  | nil => rfl
  | cons row rows ih =>
    obtain ⟨hrow, hrows⟩ := List.forall_mem_cons.mp hrows
    have hget := getGroup_of_row (hids row hrow) (rowAt_of_mem t.groupIds hrow)
    exact (PyM.bind_of_ok hget).trans (PyM.bind_of_ok (ih hrows))

end ScimTables

end AgentRoi
