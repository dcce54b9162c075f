/-
`SCIMDirectory` of `agent_roi.enterprise.identity`: users and groups in two
dictionaries.

A dictionary is the list of its values, which carry their keys.

* `createUser`, `replaceUser`, `deleteUser`, `createGroup`, `replaceGroup`,
  `deleteGroup` — the methods that write;
* `getUser`, `listUsers`, `getGroup`, `listGroups` — the ones that read;
* `createUser_eq` and the like — each method as a choice between outcomes.
-/
import AgentRoi.RowTable
import AgentRoi.ScimPayload
import Mathlib.Data.Finset.Sort
import Mathlib.Data.List.Lex

namespace AgentRoi

open RowTable

structure SCIMDirectory (F : Type) where
  users : List (SCIMUser F)
  groups : List SCIMGroup

/-- `limit`, when there is one, and `offset` are in range. -/
def checkPage (limit : Option Int) (offset : Int) : Except PyExc Unit :=
  if offset < 0 then .error (.valueError (lit "offset must be >= 0"))
  else if ∃ n ∈ limit, n < 1 then .error (.valueError (lit "limit must be >= 1"))
  else .ok ()

/-- `rows[offset:stop]`, where `stop` is `offset + min(limit, 500)`. -/
def page {ρ : Type} (limit : Option Int) (offset : Int) (rows : List ρ) : List ρ :=
  match limit with
  | none => rows.drop offset.toNat
  | some n => (rows.drop offset.toNat).take (min n 500).toNat

theorem page_map {ρ ρ' : Type} {f : ρ → ρ'} (limit : Option Int) (offset : Int) (rows : List ρ) :
    page limit offset (rows.map f) = (page limit offset rows).map f := by
  cases limit with
  | none => exact List.map_drop.symm
  | some n => rw [page, page, ← List.map_drop, ← List.map_take]

theorem mem_of_mem_page {ρ : Type} {limit : Option Int} {offset : Int} {rows : List ρ} {row : ρ}
    (h : row ∈ page limit offset rows) : row ∈ rows := by
  cases limit with
  | none => exact List.mem_of_mem_drop h
  | some n => exact List.mem_of_mem_drop (List.mem_of_mem_take h)

/-- `sorted(names)` of a set. -/
def sortedTexts (names : Finset Str) : List Str := names.sort (· ≤ ·)

namespace SCIMDirectory

variable {F : Type}

def empty : SCIMDirectory F := ⟨[], []⟩

/-- `d` has a user with the id. -/
def HasUser (d : SCIMDirectory F) (userId : Str) : Prop := userId ∈ d.users.map SCIMUser.id

def HasGroup (d : SCIMDirectory F) (groupId : Str) : Prop := groupId ∈ d.groups.map SCIMGroup.id

instance (d : SCIMDirectory F) (userId : Str) : Decidable (d.HasUser userId) :=
  inferInstanceAs (Decidable (_ ∈ _))

instance (d : SCIMDirectory F) (groupId : Str) : Decidable (d.HasGroup groupId) :=
  inferInstanceAs (Decidable (_ ∈ _))

section

variable [PyBuiltins F]

/-- The end of `create_user`. -/
def addUser (user : SCIMUser F) : PyM (SCIMDirectory F) (SCIMUser F) := do
  let d ← PyM.get
  if user.userName ∈ d.users.map SCIMUser.userName then .raise (userExists user.userName) else do
  PyM.set { d with users := upsert SCIMUser.id user d.users }
  return user

/-- `create_user`, of a payload whose id is `userId`. -/
def createUserAs (p : ScimPayload F) (userId : Str) : PyM (SCIMDirectory F) (SCIMUser F) :=
  if p.userName = [] then .raise userNameRequired
  else addUser (p.user userId (textItems p.emails))

def createUser (p : ScimPayload F) (fresh : Str) : PyM (SCIMDirectory F) (SCIMUser F) :=
  createUserAs p (p.id fresh)

/-- `merged["id"]` is `userId`, and a key of `_users` is not empty. -/
def replaceUser (userId : Str) (p : ScimPayload F) : PyM (SCIMDirectory F) (SCIMUser F) := do
  let d ← PyM.get
  match rowAt SCIMUser.id userId d.users with
  | none => .raise (.keyError [userId])
  | some previous => do
    PyM.set { d with users := d.users.filter fun user => user.id ≠ userId }
    .tryExcept (createUserAs p userId) fun e => do
      .modify fun d => { d with users := upsert SCIMUser.id previous d.users }
      .raise e

/-- The end of `create_group`. -/
def addGroup (group : SCIMGroup) : PyM (SCIMDirectory F) SCIMGroup := do
  let d ← PyM.get
  let unknown := group.members \ (d.users.map SCIMUser.id).toFinset
  if unknown ≠ ∅ then .raise (unknownUsers F (sortedTexts unknown)) else do
  if group.displayName ∈ d.groups.map SCIMGroup.displayName then
    .raise (groupExists group.displayName) else do
  PyM.set { d with groups := upsert SCIMGroup.id group d.groups }
  return group

/-- `create_group`, of a payload whose id is `groupId`. -/
def createGroupAs (p : ScimPayload F) (groupId : Str) : PyM (SCIMDirectory F) SCIMGroup :=
  if strip p.displayName = [] then .raise groupNameRequired
  else addGroup (p.group groupId (textItems p.members))

def createGroup (p : ScimPayload F) (fresh : Str) : PyM (SCIMDirectory F) SCIMGroup :=
  createGroupAs p (p.id fresh)

/-- `merged["id"]` is `groupId`, and a key of `_groups` is not empty. -/
def replaceGroup (groupId : Str) (p : ScimPayload F) : PyM (SCIMDirectory F) SCIMGroup := do
  let d ← PyM.get
  match rowAt SCIMGroup.id groupId d.groups with
  | none => .raise (.keyError [groupId])
  | some previous => do
    PyM.set { d with groups := d.groups.filter fun group => group.id ≠ groupId }
    .tryExcept (createGroupAs p groupId) fun e => do
      .modify fun d => { d with groups := upsert SCIMGroup.id previous d.groups }
      .raise e

end

/-- The group without a user. -/
def withoutMember (userId : Str) (group : SCIMGroup) : SCIMGroup :=
  if userId ∈ group.members then { group with members := group.members \ {userId} } else group

def deleteUser (userId : Str) : PyM (SCIMDirectory F) Unit := do
  let d ← PyM.get
  if d.HasUser userId then
    PyM.set ⟨d.users.filter fun user => user.id ≠ userId, d.groups.map (withoutMember userId)⟩
  else .raise (.keyError [userId])

def deleteGroup (groupId : Str) : PyM (SCIMDirectory F) Unit := do
  let d ← PyM.get
  if d.HasGroup groupId then
    PyM.set { d with groups := d.groups.filter fun group => group.id ≠ groupId }
  else .raise (.keyError [groupId])

def userNotFound (userId : Str) : PyExc := .keyError [lit "SCIM user not found: " ++ userId]

def groupNotFound (groupId : Str) : PyExc := .keyError [lit "SCIM group not found: " ++ groupId]

def getUser (userId : Str) : PyM (SCIMDirectory F) (SCIMUser F) := do
  let d ← PyM.get
  match rowAt SCIMUser.id userId d.users with
  | none => .raise (userNotFound userId)
  | some user => return user

def getGroup (groupId : Str) : PyM (SCIMDirectory F) SCIMGroup := do
  let d ← PyM.get
  match rowAt SCIMGroup.id groupId d.groups with
  | none => .raise (groupNotFound groupId)
  | some group => return group

def listUsers (limit : Option Int) (offset : Int) : PyM (SCIMDirectory F) (List (SCIMUser F)) := do
  .ofExcept (checkPage limit offset)
  let d ← PyM.get
  return page limit offset (sortedOn SCIMUser.userName d.users)

def listGroups (limit : Option Int) (offset : Int) : PyM (SCIMDirectory F) (List SCIMGroup) := do
  .ofExcept (checkPage limit offset)
  let d ← PyM.get
  return page limit offset (sortedOn SCIMGroup.displayName d.groups)

/-! ### The outcomes -/

section

variable [PyBuiltins F] {d : SCIMDirectory F} {p : ScimPayload F} {userId groupId : Str}

theorem createUserAs_of_blank (h : p.userName = []) :
    createUserAs p userId d = (.error userNameRequired, d) := by
  rw [createUserAs, if_pos h]
  rfl

theorem createUserAs_of_named (hname : p.userName ≠ [])
    (h : p.userName ∈ d.users.map SCIMUser.userName) :
    createUserAs p userId d = (.error (userExists p.userName), d) := by
  rw [createUserAs, if_neg hname, addUser, PyM.get_bind]
  exact congrFun (if_pos h) d

theorem createUserAs_of_free (hname : p.userName ≠ [])
    (h : p.userName ∉ d.users.map SCIMUser.userName) :
    createUserAs p userId d = (.ok (p.user userId (textItems p.emails)),
      { d with users := upsert SCIMUser.id (p.user userId (textItems p.emails)) d.users }) := by
  rw [createUserAs, if_neg hname, addUser, PyM.get_bind]
  exact congrFun (if_neg h) d

/-- The users other than one. -/
def withoutUser (d : SCIMDirectory F) (userId : Str) : SCIMDirectory F :=
  { d with users := d.users.filter fun user => user.id ≠ userId }

omit [PyBuiltins F] in
theorem upsert_withoutUser {user : SCIMUser F} (h : user.id = userId) :
    upsert SCIMUser.id user (d.withoutUser userId).users =
      (d.withoutUser userId).users ++ [user] := by
  have hnone : rowAt SCIMUser.id user.id (d.withoutUser userId).users = none := by
    rw [h]
    exact rowAt_filter_self
  rw [upsert, hnone]
  rfl

theorem replaceUser_of_missing (h : ¬ d.HasUser userId) :
    replaceUser userId p d = (.error (.keyError [userId]), d) := by
  rw [replaceUser, PyM.get_bind, rowAt_eq_none_iff.mpr h]
  rfl

/-- The user is put back when the payload is refused. -/
theorem replaceUser_of_refused {previous : SCIMUser F} {e : PyExc}
    (hrow : rowAt SCIMUser.id userId d.users = some previous)
    (h : createUserAs p userId (d.withoutUser userId) = (.error e, d.withoutUser userId)) :
    replaceUser userId p d =
      (.error e, { d with users := (d.withoutUser userId).users ++ [previous] }) := by
  have hhandled : PyM.tryExcept (createUserAs p userId) (fun e => do
      PyM.modify fun d : SCIMDirectory F => { d with users := upsert SCIMUser.id previous d.users }
      PyM.raise e) (d.withoutUser userId) =
        (.error e, { d with users := (d.withoutUser userId).users ++ [previous] }) := by
    rw [PyM.tryExcept, h, ← upsert_withoutUser (key_of_rowAt hrow)]
    rfl
  rw [replaceUser, PyM.get_bind, hrow]
  exact hhandled

theorem replaceUser_of_accepted {previous : SCIMUser F} (hname : p.userName ≠ [])
    (hrow : rowAt SCIMUser.id userId d.users = some previous)
    (h : p.userName ∉ (d.withoutUser userId).users.map SCIMUser.userName) :
    replaceUser userId p d = (.ok (p.user userId (textItems p.emails)),
      { d with users := (d.withoutUser userId).users ++ [p.user userId (textItems p.emails)] }) := by
  have hid : (p.user userId (textItems p.emails)).id = userId := rfl
  rw [replaceUser, PyM.get_bind, hrow, ← upsert_withoutUser hid]
  exact PyM.tryExcept_eq_ok.mpr (.inl (createUserAs_of_free hname h))

theorem createGroupAs_of_blank (h : strip p.displayName = []) :
    createGroupAs p groupId d = (.error groupNameRequired, d) := by
  rw [createGroupAs, if_pos h]
  rfl

/-- Every member that is read is a user. -/
def KnowsMembers (d : SCIMDirectory F) (names : List Str) : Prop := ∀ name ∈ names, d.HasUser name

instance (d : SCIMDirectory F) (names : List Str) : Decidable (d.KnowsMembers names) :=
  inferInstanceAs (Decidable (∀ name ∈ names, _))

omit [PyBuiltins F] in
theorem unknown_eq_empty_iff {names : List Str} :
    names.toFinset \ (d.users.map SCIMUser.id).toFinset = ∅ ↔ d.KnowsMembers names := by
  rw [Finset.sdiff_eq_empty_iff_subset]
  constructor
  · exact fun h name hname => List.mem_toFinset.mp (h (List.mem_toFinset.mpr hname))
  · exact fun h name hname => List.mem_toFinset.mpr (h name (List.mem_toFinset.mp hname))

theorem createGroupAs_of_unknown (hname : strip p.displayName ≠ [])
    (h : ¬ d.KnowsMembers (textItems p.members)) :
    createGroupAs p groupId d = (.error (unknownUsers F (sortedTexts
      ((textItems p.members).toFinset \ (d.users.map SCIMUser.id).toFinset))), d) := by
  rw [createGroupAs, if_neg hname, addGroup, PyM.get_bind]
  exact congrFun (if_pos (unknown_eq_empty_iff.not.mpr h)) d

theorem createGroupAs_of_named (hname : strip p.displayName ≠ [])
    (hknown : d.KnowsMembers (textItems p.members))
    (h : strip p.displayName ∈ d.groups.map SCIMGroup.displayName) :
    createGroupAs p groupId d = (.error (groupExists (strip p.displayName)), d) := by
  rw [createGroupAs, if_neg hname, addGroup, PyM.get_bind]
  refine (congrFun (if_neg (not_not_intro (unknown_eq_empty_iff.mpr hknown))) d).trans ?_
  exact congrFun (if_pos h) d

theorem createGroupAs_of_free (hname : strip p.displayName ≠ [])
    (hknown : d.KnowsMembers (textItems p.members))
    (h : strip p.displayName ∉ d.groups.map SCIMGroup.displayName) :
    createGroupAs p groupId d = (.ok (p.group groupId (textItems p.members)),
      { d with groups := upsert SCIMGroup.id (p.group groupId (textItems p.members)) d.groups }) := by
  rw [createGroupAs, if_neg hname, addGroup, PyM.get_bind]
  refine (congrFun (if_neg (not_not_intro (unknown_eq_empty_iff.mpr hknown))) d).trans ?_
  exact congrFun (if_neg h) d

/-- The groups other than one. -/
def withoutGroup (d : SCIMDirectory F) (groupId : Str) : SCIMDirectory F :=
  { d with groups := d.groups.filter fun group => group.id ≠ groupId }

omit [PyBuiltins F] in
theorem upsert_withoutGroup {group : SCIMGroup} (h : group.id = groupId) :
    upsert SCIMGroup.id group (d.withoutGroup groupId).groups =
      (d.withoutGroup groupId).groups ++ [group] := by
  have hnone : rowAt SCIMGroup.id group.id (d.withoutGroup groupId).groups = none := by
    rw [h]
    exact rowAt_filter_self
  rw [upsert, hnone]
  rfl

theorem replaceGroup_of_missing (h : ¬ d.HasGroup groupId) :
    replaceGroup groupId p d = (.error (.keyError [groupId]), d) := by
  rw [replaceGroup, PyM.get_bind, rowAt_eq_none_iff.mpr h]
  rfl

/-- The group is put back when the payload is refused. -/
theorem replaceGroup_of_refused {previous : SCIMGroup} {e : PyExc}
    (hrow : rowAt SCIMGroup.id groupId d.groups = some previous)
    (h : createGroupAs p groupId (d.withoutGroup groupId) = (.error e, d.withoutGroup groupId)) :
    replaceGroup groupId p d =
      (.error e, { d with groups := (d.withoutGroup groupId).groups ++ [previous] }) := by
  have hhandled : PyM.tryExcept (createGroupAs p groupId) (fun e => do
      PyM.modify fun d : SCIMDirectory F => { d with groups := upsert SCIMGroup.id previous d.groups }
      PyM.raise e) (d.withoutGroup groupId) =
        (.error e, { d with groups := (d.withoutGroup groupId).groups ++ [previous] }) := by
    rw [PyM.tryExcept, h, ← upsert_withoutGroup (key_of_rowAt hrow)]
    rfl
  rw [replaceGroup, PyM.get_bind, hrow]
  exact hhandled

theorem replaceGroup_of_accepted {previous : SCIMGroup} (hname : strip p.displayName ≠ [])
    (hrow : rowAt SCIMGroup.id groupId d.groups = some previous)
    (hknown : d.KnowsMembers (textItems p.members))
    (h : strip p.displayName ∉ (d.withoutGroup groupId).groups.map SCIMGroup.displayName) :
    replaceGroup groupId p d = (.ok (p.group groupId (textItems p.members)),
      { d with groups :=
          (d.withoutGroup groupId).groups ++ [p.group groupId (textItems p.members)] }) := by
  have hid : (p.group groupId (textItems p.members)).id = groupId := rfl
  rw [replaceGroup, PyM.get_bind, hrow, ← upsert_withoutGroup hid]
  refine PyM.tryExcept_eq_ok.mpr (.inl ?_)
  show createGroupAs p groupId (d.withoutGroup groupId) = _
  exact createGroupAs_of_free hname hknown h

end

end SCIMDirectory

end AgentRoi
