/-
The two dictionaries of `SCIMDirectory`, with their keys.

* `ScimDicts` — `_users` and `_groups`, and the methods as they read and
  assign them;
* `SCIMDirectory.dicts` — the dictionaries that hold a directory's entries;
* `call_dicts` — an operation on them is the operation on the directory;
* `ScimDicts.Consistent` — entries under their own ids, distinct names that are
  not blank, and members that are users;
* `ScimDicts.run_consistent` — what every run keeps.
-/
import AgentRoi.ScimInvariants

namespace AgentRoi

open RowTable

structure ScimDicts (F : Type) where
  users : List (Str × SCIMUser F)
  groups : List (Str × SCIMGroup)

namespace ScimDicts

variable {F : Type}

def empty : ScimDicts F := ⟨[], []⟩

def getUser (userId : Str) : PyM (ScimDicts F) (SCIMUser F) := do
  let s ← PyM.get
  match dictGet userId s.users with
  | none => .raise (SCIMDirectory.userNotFound userId)
  | some user => return user

def getGroup (groupId : Str) : PyM (ScimDicts F) SCIMGroup := do
  let s ← PyM.get
  match dictGet groupId s.groups with
  | none => .raise (SCIMDirectory.groupNotFound groupId)
  | some group => return group

def listUsers (limit : Option Int) (offset : Int) : PyM (ScimDicts F) (List (SCIMUser F)) := do
  .ofExcept (checkPage limit offset)
  let s ← PyM.get
  return page limit offset (sortedOn SCIMUser.userName (s.users.map Prod.snd))

def listGroups (limit : Option Int) (offset : Int) : PyM (ScimDicts F) (List SCIMGroup) := do
  .ofExcept (checkPage limit offset)
  let s ← PyM.get
  return page limit offset (sortedOn SCIMGroup.displayName (s.groups.map Prod.snd))

def deleteUser (userId : Str) : PyM (ScimDicts F) Unit := do
  let s ← PyM.get
  if userId ∈ s.users.map Prod.fst then
    PyM.set ⟨dictErase userId s.users,
      s.groups.map fun entry => (entry.1, SCIMDirectory.withoutMember userId entry.2)⟩
  else .raise (.keyError [userId])

def deleteGroup (groupId : Str) : PyM (ScimDicts F) Unit := do
  let s ← PyM.get
  if groupId ∈ s.groups.map Prod.fst then
    PyM.set { s with groups := dictErase groupId s.groups }
  else .raise (.keyError [groupId])

section

variable [PyBuiltins F]

/-- `create_user`, of a payload whose id is `userId`. -/
def createUserAs (p : ScimPayload F) (userId : Str) : PyM (ScimDicts F) (SCIMUser F) :=
  if p.userName = [] then .raise userNameRequired else do
  let user := p.user userId (textItems p.emails)
  let s ← PyM.get
  if ∃ existing ∈ s.users.map Prod.snd, existing.userName = user.userName then
    .raise (userExists user.userName) else do
  PyM.set { s with users := dictInsert user.id user s.users }
  return user

def createUser (p : ScimPayload F) (fresh : Str) : PyM (ScimDicts F) (SCIMUser F) :=
  createUserAs p (p.id fresh)

def replaceUser (userId : Str) (p : ScimPayload F) : PyM (ScimDicts F) (SCIMUser F) := do
  let s ← PyM.get
  match dictGet userId s.users with
  | none => .raise (.keyError [userId])
  | some previous => do
    PyM.set { s with users := dictErase userId s.users }
    .tryExcept (createUserAs p userId) fun e => do
      .modify fun s => { s with users := dictInsert userId previous s.users }
      .raise e

/-- `create_group`, of a payload whose id is `groupId`. -/
def createGroupAs (p : ScimPayload F) (groupId : Str) : PyM (ScimDicts F) SCIMGroup :=
  if strip p.displayName = [] then .raise groupNameRequired else do
  let group := p.group groupId (textItems p.members)
  let s ← PyM.get
  let unknown := group.members \ (s.users.map Prod.fst).toFinset
  if unknown ≠ ∅ then .raise (unknownUsers F (sortedTexts unknown)) else do
  if ∃ existing ∈ s.groups.map Prod.snd, existing.displayName = group.displayName then
    .raise (groupExists group.displayName) else do
  PyM.set { s with groups := dictInsert group.id group s.groups }
  return group

def createGroup (p : ScimPayload F) (fresh : Str) : PyM (ScimDicts F) SCIMGroup :=
  createGroupAs p (p.id fresh)

def replaceGroup (groupId : Str) (p : ScimPayload F) : PyM (ScimDicts F) SCIMGroup := do
  let s ← PyM.get
  match dictGet groupId s.groups with
  | none => .raise (.keyError [groupId])
  | some previous => do
    PyM.set { s with groups := dictErase groupId s.groups }
    .tryExcept (createGroupAs p groupId) fun e => do
      .modify fun s => { s with groups := dictInsert groupId previous s.groups }
      .raise e

def call : ScimOp F → PyM (ScimDicts F) (ScimResult F)
  | .createUser p fresh => .user <$> createUser p fresh
  | .replaceUser userId p => .user <$> replaceUser userId p
  | .deleteUser userId => (fun _ => .done) <$> deleteUser userId
  | .getUser userId => .user <$> getUser userId
  | .listUsers limit offset => .users <$> listUsers limit offset
  | .createGroup p fresh => .group <$> createGroup p fresh
  | .replaceGroup groupId p => .group <$> replaceGroup groupId p
  | .deleteGroup groupId => (fun _ => .done) <$> deleteGroup groupId
  | .getGroup groupId => .group <$> getGroup groupId
  | .listGroups limit offset => .groups <$> listGroups limit offset

/-- The dictionaries that a run leaves. -/
def after (ops : List (ScimOp F)) : ScimDicts F := ops.foldl (fun s op => (call op s).2) empty

end

end ScimDicts

/-! ### The dictionaries of a directory -/

namespace SCIMDirectory

variable {F : Type} {d : SCIMDirectory F}

def dicts (d : SCIMDirectory F) : ScimDicts F :=
  ⟨entries SCIMUser.id d.users, entries SCIMGroup.id d.groups⟩

structure DistinctIds (d : SCIMDirectory F) : Prop where
  users : (d.users.map SCIMUser.id).Nodup
  groups : (d.groups.map SCIMGroup.id).Nodup

theorem DistinctIds.withoutUser (h : d.DistinctIds) (userId : Str) :
    (d.withoutUser userId).DistinctIds := ⟨nodup_filter h.users, h.groups⟩

theorem DistinctIds.withoutGroup (h : d.DistinctIds) (groupId : Str) :
    (d.withoutGroup groupId).DistinctIds := ⟨h.users, nodup_filter h.groups⟩

/-- The method on the dictionaries is the one on the directory. -/
def Does {α : Type} (x : PyM (SCIMDirectory F) α) (y : PyM (ScimDicts F) α) : Prop :=
  ∀ d : SCIMDirectory F, d.DistinctIds → y d.dicts = ((x d).1, (x d).2.dicts)

theorem Does.map {α β : Type} {x : PyM (SCIMDirectory F) α} {y : PyM (ScimDicts F) α}
    (h : Does x y) (f : α → β) : Does (f <$> x) (f <$> y) := by
  intro d hd
  have hy := h d hd
  rcases hx : x d with ⟨e | a, d'⟩
  · rw [hx] at hy
    rw [PyM.map_of_error hx, PyM.map_of_error hy]
  · rw [hx] at hy
    rw [PyM.map_of_ok hx, PyM.map_of_ok hy]

theorem does_getUser (userId : Str) :
    Does (F := F) (getUser userId) (ScimDicts.getUser userId) := by
  intro d _
  rw [getUser, ScimDicts.getUser, PyM.get_bind, PyM.get_bind, dicts, dictGet_entries]
  cases rowAt SCIMUser.id userId d.users with
  | none => rfl
  | some user => rfl

theorem does_getGroup (groupId : Str) :
    Does (F := F) (getGroup groupId) (ScimDicts.getGroup groupId) := by
  intro d _
  rw [getGroup, ScimDicts.getGroup, PyM.get_bind, PyM.get_bind, dicts, dictGet_entries]
  cases rowAt SCIMGroup.id groupId d.groups with
  | none => rfl
  | some group => rfl

theorem does_listUsers (limit : Option Int) (offset : Int) :
    Does (F := F) (listUsers limit offset) (ScimDicts.listUsers limit offset) := by
  intro d _
  unfold listUsers ScimDicts.listUsers
  cases checkPage limit offset with
  | error e => rfl
  | ok u =>
    show (Except.ok (page limit offset (sortedOn SCIMUser.userName
      ((entries SCIMUser.id d.users).map Prod.snd))), d.dicts) = _
    rw [values_entries]
    rfl

theorem does_listGroups (limit : Option Int) (offset : Int) :
    Does (F := F) (listGroups limit offset) (ScimDicts.listGroups limit offset) := by
  intro d _
  unfold listGroups ScimDicts.listGroups
  cases checkPage limit offset with
  | error e => rfl
  | ok u =>
    show (Except.ok (page limit offset (sortedOn SCIMGroup.displayName
      ((entries SCIMGroup.id d.groups).map Prod.snd))), d.dicts) = _
    rw [values_entries]
    rfl

theorem does_deleteUser (userId : Str) :
    Does (F := F) (deleteUser userId) (ScimDicts.deleteUser userId) := by
  intro d _
  have hkeys : userId ∈ d.dicts.users.map Prod.fst ↔ d.HasUser userId := by
    rw [dicts, keys_entries, HasUser]
  by_cases hthere : d.HasUser userId
  · have hdeleted : deleteUser userId d =
        (.ok (), ⟨(d.withoutUser userId).users, d.groups.map (withoutMember userId)⟩) :=
      congrFun (if_pos hthere) d
    have hgroups : d.dicts.groups.map (fun entry => (entry.1, withoutMember userId entry.2)) =
        entries SCIMGroup.id (d.groups.map (withoutMember userId)) := by
      rw [dicts, entries, entries, List.map_map]
      refine Eq.trans ?_ List.map_map.symm
      exact List.map_congr_left fun group _ => Prod.ext (withoutMember_id userId group).symm rfl
    rw [hdeleted]
    refine (congrFun (if_pos (hkeys.mpr hthere)) d.dicts).trans (congrArg (Prod.mk _) ?_)
    rw [hgroups, dicts, dictErase_entries]
    rfl
  · have hmissing : deleteUser userId d = (.error (.keyError [userId]), d) :=
      congrFun (if_neg hthere) d
    rw [hmissing]
    exact congrFun (if_neg (hkeys.not.mpr hthere)) d.dicts

theorem does_deleteGroup (groupId : Str) :
    Does (F := F) (deleteGroup groupId) (ScimDicts.deleteGroup groupId) := by
  intro d _
  have hkeys : groupId ∈ d.dicts.groups.map Prod.fst ↔ d.HasGroup groupId := by
    rw [dicts, keys_entries, HasGroup]
  by_cases hthere : d.HasGroup groupId
  · have hdeleted : deleteGroup groupId d = (.ok (), d.withoutGroup groupId) :=
      congrFun (if_pos hthere) d
    rw [hdeleted]
    refine (congrFun (if_pos (hkeys.mpr hthere)) d.dicts).trans (congrArg (Prod.mk _) ?_)
    rw [dicts, dictErase_entries]
    rfl
  · have hmissing : deleteGroup groupId d = (.error (.keyError [groupId]), d) :=
      congrFun (if_neg hthere) d
    rw [hmissing]
    exact congrFun (if_neg (hkeys.not.mpr hthere)) d.dicts

section

variable [PyBuiltins F]

theorem does_createUserAs (p : ScimPayload F) (userId : Str) :
    Does (createUserAs p userId) (ScimDicts.createUserAs p userId) := by
  intro d hd
  have hnames : (∃ existing ∈ d.dicts.users.map Prod.snd, existing.userName = p.userName) ↔
      p.userName ∈ d.users.map SCIMUser.userName := by
    rw [dicts, values_entries, List.mem_map]
  by_cases hname : p.userName = []
  · rw [createUserAs_of_blank hname, ScimDicts.createUserAs, if_pos hname]
    rfl
  by_cases hnamed : p.userName ∈ d.users.map SCIMUser.userName
  · rw [createUserAs_of_named hname hnamed, ScimDicts.createUserAs, if_neg hname]
    exact congrFun (if_pos (hnames.mpr hnamed)) d.dicts
  · rw [createUserAs_of_free hname hnamed, ScimDicts.createUserAs, if_neg hname]
    refine (congrFun (if_neg (hnames.not.mpr hnamed)) d.dicts).trans (congrArg (Prod.mk _) ?_)
    show (⟨dictInsert _ _ _, _⟩ : ScimDicts F) = _
    rw [dicts, dicts, dictInsert_entries hd.users]

theorem does_replaceUser (userId : Str) (p : ScimPayload F) :
    Does (replaceUser userId p) (ScimDicts.replaceUser userId p) := by
  intro d hd
  have herased : dictErase userId (entries SCIMUser.id d.users) =
      (d.withoutUser userId).dicts.users := dictErase_entries
  rw [ScimDicts.replaceUser, PyM.get_bind, dicts, dictGet_entries]
  cases hrow : rowAt SCIMUser.id userId d.users with
  | none =>
    rw [replaceUser_of_missing (rowAt_eq_none_iff.mp hrow)]
    rfl
  | some previous =>
    have hcreate := does_createUserAs p userId (d.withoutUser userId) (hd.withoutUser userId)
    -- what is left to do, in the dictionaries without the user
    show PyM.tryExcept (ScimDicts.createUserAs p userId) (fun e => do
      PyM.modify fun s : ScimDicts F => { s with users := dictInsert userId previous s.users }
      PyM.raise e) ⟨dictErase userId (entries SCIMUser.id d.users), _⟩ = _
    rw [herased]
    rcases createUserAs_cases p userId (d.withoutUser userId) with ⟨e, hrefused⟩ | ⟨hname, hnew⟩
    · have hid : previous.id = userId := key_of_rowAt hrow
      have hback : dictInsert userId previous (d.withoutUser userId).dicts.users =
          entries SCIMUser.id ((d.withoutUser userId).users ++ [previous]) := by
        rw [← upsert_withoutUser hid, ← dictInsert_entries (hd.withoutUser userId).users, hid]
        rfl
      rw [hrefused] at hcreate
      rw [replaceUser_of_refused hrow hrefused]
      refine (PyM.tryExcept_of_error hcreate).trans (congrArg (Prod.mk _) ?_)
      show (⟨dictInsert _ _ _, _⟩ : ScimDicts F) = _
      rw [hback]
      rfl
    · have hid : (p.user userId (textItems p.emails)).id = userId := rfl
      rw [createUserAs_of_free hname hnew, upsert_withoutUser hid] at hcreate
      rw [replaceUser_of_accepted hname hrow hnew]
      exact PyM.tryExcept_of_ok hcreate

theorem does_createGroupAs (p : ScimPayload F) (groupId : Str) :
    Does (createGroupAs p groupId) (ScimDicts.createGroupAs p groupId) := by
  intro d hd
  have hkeys : d.dicts.users.map Prod.fst = d.users.map SCIMUser.id := keys_entries
  have hnames : (∃ existing ∈ d.dicts.groups.map Prod.snd,
      existing.displayName = strip p.displayName) ↔
        strip p.displayName ∈ d.groups.map SCIMGroup.displayName := by
    rw [dicts, values_entries, List.mem_map]
  by_cases hname : strip p.displayName = []
  · rw [createGroupAs_of_blank hname, ScimDicts.createGroupAs, if_pos hname]
    rfl
  rw [ScimDicts.createGroupAs, if_neg hname, PyM.get_bind, hkeys]
  by_cases hknown : d.KnowsMembers (textItems p.members)
  · have hnone := not_not_intro (unknown_eq_empty_iff.mpr hknown)
    refine (congrFun (if_neg hnone) d.dicts).trans ?_
    by_cases hnamed : strip p.displayName ∈ d.groups.map SCIMGroup.displayName
    · rw [createGroupAs_of_named hname hknown hnamed]
      exact congrFun (if_pos (hnames.mpr hnamed)) d.dicts
    · rw [createGroupAs_of_free hname hknown hnamed]
      refine (congrFun (if_neg (hnames.not.mpr hnamed)) d.dicts).trans (congrArg (Prod.mk _) ?_)
      show (⟨_, dictInsert _ _ _⟩ : ScimDicts F) = _
      rw [dicts, dicts, dictInsert_entries hd.groups]
  · rw [createGroupAs_of_unknown hname hknown]
    exact congrFun (if_pos (unknown_eq_empty_iff.not.mpr hknown)) d.dicts

theorem does_replaceGroup (groupId : Str) (p : ScimPayload F) :
    Does (replaceGroup groupId p) (ScimDicts.replaceGroup groupId p) := by
  intro d hd
  have herased : dictErase groupId (entries SCIMGroup.id d.groups) =
      (d.withoutGroup groupId).dicts.groups := dictErase_entries
  rw [ScimDicts.replaceGroup, PyM.get_bind, dicts, dictGet_entries]
  cases hrow : rowAt SCIMGroup.id groupId d.groups with
  | none =>
    rw [replaceGroup_of_missing (rowAt_eq_none_iff.mp hrow)]
    rfl
  | some previous =>
    have hcreate := does_createGroupAs p groupId (d.withoutGroup groupId) (hd.withoutGroup groupId)
    show PyM.tryExcept (ScimDicts.createGroupAs p groupId) (fun e => do
      PyM.modify fun s : ScimDicts F => { s with groups := dictInsert groupId previous s.groups }
      PyM.raise e) ⟨_, dictErase groupId (entries SCIMGroup.id d.groups)⟩ = _
    rw [herased]
    rcases createGroupAs_cases p groupId (d.withoutGroup groupId) with
      ⟨e, hrefused⟩ | ⟨hname, hknown, hnew⟩
    · have hid : previous.id = groupId := key_of_rowAt hrow
      have hback : dictInsert groupId previous (d.withoutGroup groupId).dicts.groups =
          entries SCIMGroup.id ((d.withoutGroup groupId).groups ++ [previous]) := by
        rw [← upsert_withoutGroup hid, ← dictInsert_entries (hd.withoutGroup groupId).groups, hid]
        rfl
      rw [hrefused] at hcreate
      rw [replaceGroup_of_refused hrow hrefused]
      refine (PyM.tryExcept_of_error hcreate).trans (congrArg (Prod.mk _) ?_)
      show (⟨_, dictInsert _ _ _⟩ : ScimDicts F) = _
      rw [hback]
      rfl
    · have hid : (p.group groupId (textItems p.members)).id = groupId := rfl
      rw [createGroupAs_of_free hname hknown hnew, upsert_withoutGroup hid] at hcreate
      rw [replaceGroup_of_accepted hname hrow hknown hnew]
      exact PyM.tryExcept_of_ok hcreate

theorem call_dicts (op : ScimOp F) : Does (call op) (ScimDicts.call op) := by
  cases op with
  | createUser p fresh => exact (does_createUserAs p _).map _
  | replaceUser userId p => exact (does_replaceUser userId p).map _
  | deleteUser userId => exact (does_deleteUser userId).map _
  | getUser userId => exact (does_getUser userId).map _
  | listUsers limit offset => exact (does_listUsers limit offset).map _
  | createGroup p fresh => exact (does_createGroupAs p _).map _
  | replaceGroup groupId p => exact (does_replaceGroup groupId p).map _
  | deleteGroup groupId => exact (does_deleteGroup groupId).map _
  | getGroup groupId => exact (does_getGroup groupId).map _
  | listGroups limit offset => exact (does_listGroups limit offset).map _

omit [PyBuiltins F] in
theorem Consistent.distinctIds (h : d.Consistent) : d.DistinctIds := ⟨h.userIds, h.groupIds⟩

/-- A run on the dictionaries is the run on the directory. -/
theorem dicts_after (ops : List (ScimOp F)) : ScimDicts.after ops = (after ops).dicts := by
  induction ops using List.reverseRecOn with
  | nil => rfl
  | append_singleton ops op ih =>
    unfold ScimDicts.after after at ih ⊢
    rw [List.foldl_concat, List.foldl_concat, ih]
    exact congrArg Prod.snd (call_dicts op (after ops) (consistent_after ops).distinctIds)

end

end SCIMDirectory

/-! ### What every run keeps -/

namespace ScimDicts

variable {F : Type}

structure Consistent (s : ScimDicts F) : Prop where
  userKeys : ∀ entry ∈ s.users, entry.1 = entry.2.id
  userNames : (s.users.map fun entry => entry.2.userName).Nodup
  userNamed : ∀ entry ∈ s.users, isBlank entry.2.userName = false
  groupKeys : ∀ entry ∈ s.groups, entry.1 = entry.2.id
  groupNames : (s.groups.map fun entry => entry.2.displayName).Nodup
  groupNamed : ∀ entry ∈ s.groups, isBlank entry.2.displayName = false
  members : ∀ entry ∈ s.groups, ∀ member ∈ entry.2.members, ∃ user, (member, user) ∈ s.users

/-- The dictionaries are equal, as Python compares them. -/
structure SameEntries (s s' : ScimDicts F) : Prop where
  users : s'.users.Perm s.users
  groups : s'.groups.Perm s.groups

theorem consistent_dicts {d : SCIMDirectory F} (h : d.Consistent) : d.dicts.Consistent where
  userKeys := List.forall_mem_map.mpr fun _ _ => rfl
  userNames := by
    show ((entries SCIMUser.id d.users).map fun entry => entry.2.userName).Nodup
    rw [map_entries]
    exact h.userNames
  userNamed := List.forall_mem_map.mpr h.userNamed
  groupKeys := List.forall_mem_map.mpr fun _ _ => rfl
  groupNames := by
    show ((entries SCIMGroup.id d.groups).map fun entry => entry.2.displayName).Nodup
    rw [map_entries]
    exact h.groupNames
  groupNamed := List.forall_mem_map.mpr h.groupNamed
  members := List.forall_mem_map.mpr fun group hgroup member hmember => by
    obtain ⟨user, huser, rfl⟩ := List.mem_map.mp (h.members group hgroup member hmember)
    exact ⟨user, List.mem_map_of_mem huser⟩

/-- Whatever the operations, the dictionaries stay consistent, and an operation
that raises leaves them as they were. -/
theorem run_consistent [PyBuiltins F] (ops : List (ScimOp F)) :
    (after ops).Consistent ∧ ∀ op e, (call op (after ops)).1 = .error e →
      (after ops).SameEntries (call op (after ops)).2 := by
  have hconsistent := SCIMDirectory.consistent_after ops
  rw [SCIMDirectory.dicts_after]
  refine ⟨consistent_dicts hconsistent, fun op e hraised => ?_⟩
  have hcall := SCIMDirectory.call_dicts op _ hconsistent.distinctIds
  rw [hcall] at hraised ⊢
  have hsame := (SCIMDirectory.keeps_call op _ hconsistent).2 e hraised
  exact ⟨hsame.users.map _, hsame.groups.map _⟩

end ScimDicts

end AgentRoi
