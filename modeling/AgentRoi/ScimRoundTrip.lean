/-
SCIM resources round-trip.

* `ScimOp.FreshIds` — the ids that a store makes up are texts of uuids;
* `SCIMDirectory.Canonical`, `ScimTables.Canonical` — the entries of a store
  came out of payloads;
* `canonical_call` — every operation keeps that, on either store;
* `replaceUser_resource`, `replaceGroup_resource` — an entry that is replaced
  by its own resource stays as it is;
* `scim_round_trip` — in whatever state operations leave a store.
-/
import AgentRoi.ScimInvariants
import AgentRoi.ScimResources

namespace AgentRoi

open RowTable

variable {F : Type}

/-- `str(uuid.uuid4())` is neither empty nor has it surrogates. -/
def ScimOp.FreshIds : ScimOp F → Prop
  | .createUser _ fresh => fresh ≠ [] ∧ IsJoined fresh
  | .createGroup _ fresh => fresh ≠ [] ∧ IsJoined fresh
  | _ => True

theorem PyM.snd_map {σ α β : Type} (x : PyM σ α) (f : α → β) (s : σ) : ((f <$> x) s).2 = (x s).2 := by
  rcases hx : x s with ⟨e | a, s'⟩
  · rw [PyM.map_of_error hx]
  · rw [PyM.map_of_ok hx]

theorem SCIMUser.Canonical.readable_id {user : SCIMUser F} (h : user.Canonical) :
    user.id ≠ [] ∧ IsJoined user.id := ⟨h.id, (List.forall_mem_cons.mp h.texts).1⟩

theorem SCIMGroup.Canonical.joined_id {group : SCIMGroup} (h : group.Canonical) :
    IsJoined group.id := (List.forall_mem_cons.mp h.texts).1

/-- Some members of a canonical group. -/
theorem SCIMGroup.Canonical.subset {group : SCIMGroup} (h : group.Canonical) {members : Finset Str}
    (hsub : members ⊆ group.members) : ({ group with members } : SCIMGroup).Canonical :=
  ⟨h.named, fun member hmember => h.members member (hsub hmember), h.texts,
    fun member hmember => h.joinedMembers member (hsub hmember)⟩

/-! ### The directory -/

namespace SCIMDirectory

structure Canonical (d : SCIMDirectory F) : Prop where
  users : ∀ user ∈ d.users, user.Canonical
  groups : ∀ group ∈ d.groups, group.Canonical

variable {d : SCIMDirectory F} {user : SCIMUser F} {group : SCIMGroup}

namespace Canonical

theorem withoutUser (h : d.Canonical) (userId : Str) : (d.withoutUser userId).Canonical :=
  ⟨fun user hmem => h.users user (List.mem_filter.mp hmem).1, h.groups⟩

theorem withoutGroup (h : d.Canonical) (groupId : Str) : (d.withoutGroup groupId).Canonical :=
  ⟨h.users, fun group hmem => h.groups group (List.mem_filter.mp hmem).1⟩

theorem appendUser (h : d.Canonical) (huser : user.Canonical) :
    ({ d with users := d.users ++ [user] } : SCIMDirectory F).Canonical :=
  ⟨List.forall_mem_append.mpr ⟨h.users, List.forall_mem_singleton.mpr huser⟩, h.groups⟩

theorem appendGroup (h : d.Canonical) (hgroup : group.Canonical) :
    ({ d with groups := d.groups ++ [group] } : SCIMDirectory F).Canonical :=
  ⟨h.users, List.forall_mem_append.mpr ⟨h.groups, List.forall_mem_singleton.mpr hgroup⟩⟩

theorem withoutMember (h : group.Canonical) (userId : Str) :
    (SCIMDirectory.withoutMember userId group).Canonical := by
  unfold SCIMDirectory.withoutMember
  split
  · exact h.subset Finset.sdiff_subset
  · exact h

end Canonical

theorem canonical_deleteUser (h : d.Canonical) (userId : Str) :
    (deleteUser userId d).2.Canonical := by
  by_cases hthere : d.HasUser userId
  · have hdeleted : deleteUser userId d =
        (.ok (), ⟨(d.withoutUser userId).users, d.groups.map (withoutMember userId)⟩) :=
      congrFun (if_pos hthere) d
    rw [hdeleted]
    exact ⟨(h.withoutUser userId).users, List.forall_mem_map.mpr fun group hmem =>
      Canonical.withoutMember (h.groups group hmem) userId⟩
  · have hmissing : deleteUser userId d = (.error (.keyError [userId]), d) :=
      congrFun (if_neg hthere) d
    rw [hmissing]
    exact h

theorem canonical_deleteGroup (h : d.Canonical) (groupId : Str) :
    (deleteGroup groupId d).2.Canonical := by
  by_cases hthere : d.HasGroup groupId
  · have hdeleted : deleteGroup groupId d = (.ok (), d.withoutGroup groupId) :=
      congrFun (if_pos hthere) d
    rw [hdeleted]
    exact h.withoutGroup groupId
  · have hmissing : deleteGroup groupId d = (.error (.keyError [groupId]), d) :=
      congrFun (if_neg hthere) d
    rw [hmissing]
    exact h

section

variable [PyBuiltins F] (hprints : PrintsContainers F) (p : ScimPayload F)

include hprints

theorem canonical_createUserAs (h : d.Canonical) {userId : Str}
    (hid : userId ≠ [] ∧ IsJoined userId) : (createUserAs p userId d).2.Canonical := by
  rcases createUserAs_cases p userId d with ⟨e, hrefused⟩ | ⟨hname, hnew⟩
  · rw [hrefused]
    exact h
  · rw [createUserAs_of_free hname hnew]
    refine ⟨fun user hmem => ?_, h.groups⟩
    rcases mem_upsert hmem with rfl | hmem
    · exact canonical_user hprints p hid hname p.readable_textItems
    · exact h.users user hmem

theorem canonical_replaceUser (h : d.Canonical) (userId : Str) :
    (replaceUser userId p d).2.Canonical := by
  cases hrow : rowAt SCIMUser.id userId d.users with
  | none =>
    rw [replaceUser_of_missing (rowAt_eq_none_iff.mp hrow)]
    exact h
  | some previous =>
    have hprevious : previous.Canonical := h.users previous (mem_of_rowAt hrow)
    rcases createUserAs_cases p userId (d.withoutUser userId) with ⟨e, hrefused⟩ | ⟨hname, hnew⟩
    · rw [replaceUser_of_refused hrow hrefused]
      exact (h.withoutUser userId).appendUser hprevious
    · rw [replaceUser_of_accepted hname hrow hnew]
      have hid : userId ≠ [] ∧ IsJoined userId := key_of_rowAt hrow ▸ hprevious.readable_id
      exact (h.withoutUser userId).appendUser
        (canonical_user hprints p hid hname p.readable_textItems)

theorem canonical_createGroupAs (h : d.Canonical) {groupId : Str} (hid : IsJoined groupId) :
    (createGroupAs p groupId d).2.Canonical := by
  rcases createGroupAs_cases p groupId d with ⟨e, hrefused⟩ | ⟨hname, hknown, hnew⟩
  · rw [hrefused]
    exact h
  · rw [createGroupAs_of_free hname hknown hnew]
    refine ⟨h.users, fun group hmem => ?_⟩
    rcases mem_upsert hmem with rfl | hmem
    · exact canonical_group hprints p hid hname p.readable_textItems
    · exact h.groups group hmem

theorem canonical_replaceGroup (h : d.Canonical) (groupId : Str) :
    (replaceGroup groupId p d).2.Canonical := by
  cases hrow : rowAt SCIMGroup.id groupId d.groups with
  | none =>
    rw [replaceGroup_of_missing (rowAt_eq_none_iff.mp hrow)]
    exact h
  | some previous =>
    have hprevious : previous.Canonical := h.groups previous (mem_of_rowAt hrow)
    rcases createGroupAs_cases p groupId (d.withoutGroup groupId) with
      ⟨e, hrefused⟩ | ⟨hname, hknown, hnew⟩
    · -- the old group is put back at the end
      rw [replaceGroup_of_refused hrow hrefused]
      exact (h.withoutGroup groupId).appendGroup hprevious
    · rw [replaceGroup_of_accepted hname hrow hknown hnew]
      have hid : IsJoined groupId := key_of_rowAt hrow ▸ hprevious.joined_id
      exact (h.withoutGroup groupId).appendGroup
        (canonical_group hprints p hid hname p.readable_textItems)

/-- Every operation leaves canonical entries. -/
theorem canonical_call (op : ScimOp F) (hop : op.FreshIds) (h : d.Canonical) :
    (call op d).2.Canonical := by
  cases op with
  | createUser p fresh =>
    rw [call, PyM.snd_map]
    exact canonical_createUserAs hprints p h (readable_id hprints p hop)
  | replaceUser userId p =>
    rw [call, PyM.snd_map]
    exact canonical_replaceUser hprints p h userId
  | deleteUser userId =>
    rw [call, PyM.snd_map]
    exact canonical_deleteUser h userId
  | getUser userId =>
    rw [call, PyM.snd_map, getUser_unchanged]
    exact h
  | listUsers limit offset =>
    rw [call, PyM.snd_map, listUsers_unchanged]
    exact h
  | createGroup p fresh =>
    rw [call, PyM.snd_map]
    exact canonical_createGroupAs hprints p h (readable_id hprints p hop).2
  | replaceGroup groupId p =>
    rw [call, PyM.snd_map]
    exact canonical_replaceGroup hprints p h groupId
  | deleteGroup groupId =>
    rw [call, PyM.snd_map]
    exact canonical_deleteGroup h groupId
  | getGroup groupId =>
    rw [call, PyM.snd_map, getGroup_unchanged]
    exact h
  | listGroups limit offset =>
    rw [call, PyM.snd_map, listGroups_unchanged]
    exact h

theorem canonical_after (ops : List (ScimOp F)) (hops : ∀ op ∈ ops, op.FreshIds) :
    (after ops).Canonical := by
  have hempty : (SCIMDirectory.empty : SCIMDirectory F).Canonical :=
    ⟨fun _ h => absurd h List.not_mem_nil, fun _ h => absurd h List.not_mem_nil⟩
  exact List.foldlRecOn ops _ hempty fun d hd op hop => canonical_call hprints op (hops op hop) hd

end

/-! #### Resources -/

section

variable [PyBuiltins F]

theorem createUser_resource (h : user.Canonical) (fresh : Str) :
    (createUser (user.resource h) fresh .empty).1 = .ok user := by
  have hname : (user.resource h).userName ≠ [] := SCIMUser.userName_resource h ▸ h.named.ne_nil
  have hcreated : createUserAs (user.resource h) user.id .empty =
      (.ok ((user.resource h).user user.id (textItems (user.resource h).emails)), _) :=
    createUserAs_of_free hname List.not_mem_nil
  rw [createUser, SCIMUser.id_resource, hcreated, SCIMUser.emails_resource,
    textItems_emailItems h.emails, SCIMUser.user_resource]

theorem replaceUser_resource (hd : d.Consistent) (hmem : user ∈ d.users) (h : user.Canonical) :
    ∃ d', replaceUser user.id (user.resource h) d = (.ok user, d') ∧ d.SameEntries d' := by
  have hname : (user.resource h).userName ≠ [] := SCIMUser.userName_resource h ▸ h.named.ne_nil
  have hrow : rowAt SCIMUser.id user.id d.users = some user := rowAt_of_mem hd.userIds hmem
  have hfree : (user.resource h).userName ∉
      (d.withoutUser user.id).users.map SCIMUser.userName := by
    rw [SCIMUser.userName_resource, userNamed_withoutUser_iff.not]
    rintro ⟨other, hother, hsame, hne⟩
    exact hne (congrArg SCIMUser.id (List.inj_on_of_nodup_map hd.userNames hother hmem hsame))
  have hreplaced := replaceUser_of_accepted hname hrow hfree
  rw [SCIMUser.emails_resource, textItems_emailItems h.emails, SCIMUser.user_resource] at hreplaced
  exact ⟨_, hreplaced, same_of_userBack hd hrow⟩

theorem replaceGroup_resource (hd : d.Consistent) (hmem : group ∈ d.groups) (h : group.Canonical) :
    ∃ d', replaceGroup group.id (group.resource F h) d = (.ok group, d') ∧ d.SameEntries d' := by
  have hname : strip (group.resource F h).displayName ≠ [] := by
    rw [SCIMGroup.displayName_resource]
    exact h.named.ne_nil
  have hrow : rowAt SCIMGroup.id group.id d.groups = some group := rowAt_of_mem hd.groupIds hmem
  have hitems : textItems (group.resource F h).members = sortedTexts group.members :=
    textItems_memberItems h.members
  have hknown : d.KnowsMembers (textItems (group.resource F h).members) := by
    rw [hitems]
    exact fun member hmember => hd.members group hmem member ((Finset.mem_sort _).mp hmember)
  have hfree : strip (group.resource F h).displayName ∉
      (d.withoutGroup group.id).groups.map SCIMGroup.displayName := by
    rw [SCIMGroup.displayName_resource, groupNamed_withoutGroup_iff.not]
    rintro ⟨other, hother, hsame, hne⟩
    exact hne (congrArg SCIMGroup.id (List.inj_on_of_nodup_map hd.groupNames hother hmem hsame))
  have hreplaced := replaceGroup_of_accepted hname hrow hknown hfree
  rw [hitems, SCIMGroup.group_resource] at hreplaced
  exact ⟨_, hreplaced, same_of_groupBack hd hrow⟩

end

end SCIMDirectory

/-! ### The tables -/

/-- The user as a column gives it back. -/
theorem SCIMUser.Canonical.value {user : SCIMUser F} (h : user.Canonical) : user.value.Canonical := by
  have hsorted : (Json.obj user.attributes).sortKeys = .obj (sortedFields user.attributes) := by
    rw [Json.sortKeys, sortedFields]
  have hkeys : ∀ member ∈ sortedFields user.attributes,
      ∃ old ∈ user.attributes, member.1 = old.1 := by
    intro member hmember
    rw [sortedFields, mem_sortByKey, Json.sortKeysMembers_eq_map] at hmember
    obtain ⟨old, hold, rfl⟩ := List.mem_map.mp hmember
    exact ⟨old, hold, rfl⟩
  exact {
    id := h.id
    named := h.named
    emails := h.emails
    free := fun member hmember => by
      obtain ⟨old, hold, hkey⟩ := hkeys member hmember
      rw [hkey]
      exact h.free old hold
    clean := hsorted ▸ h.clean.sortKeys
    joined := hsorted ▸ h.joined.sortKeys
    texts := h.texts
    joinedEmails := h.joinedEmails }

theorem SCIMUser.Canonical.stored_eq {user : SCIMUser F} (h : user.Canonical) :
    user.stored = user.value := by
  have hemails : user.emails.map joinSurrogates = user.emails := by
    refine (List.map_congr_left fun email hemail => ?_).trans (List.map_id _)
    exact joinSurrogates_of_isJoined (h.joinedEmails email hemail)
  unfold SCIMUser.stored SCIMUser.value
  rw [hemails, Json.readBack_of_allJoined h.joined h.clean, Json.sortKeys, sortedFields]

namespace ScimTables

/-- A user that was read back from its row. -/
structure StoredUser (user : SCIMUser F) : Prop where
  canonical : user.Canonical
  encodes : UserEncodes user
  stored : user.stored = user

theorem storedUser {user : SCIMUser F} (h : user.Canonical) (hencodes : UserEncodes user) :
    StoredUser user.stored := by
  have hstored : user.value.stored = user.value := h.value.stored_eq.trans user.value_value
  rw [h.stored_eq]
  exact ⟨h.value, hencodes, hstored⟩

/-- A group without its members. -/
def bareGroup (row : GroupRow) : SCIMGroup := ⟨row.id, row.displayName, ∅, row.externalId⟩

structure StoredGroup (row : GroupRow) : Prop where
  canonical : (bareGroup row).Canonical
  encodes : GroupEncodes (bareGroup row)

structure Canonical (t : ScimTables F) : Prop where
  users : ∀ user ∈ t.users, StoredUser user
  groups : ∀ row ∈ t.groups, StoredGroup row
  members : ∀ row ∈ t.members, IsClean row.userId

/-- The tables hold the same rows. -/
structure SameRows (t t' : ScimTables F) : Prop where
  users : t'.users = t.users
  groups : t'.groups = t.groups
  members : t'.members.Perm t.members

variable {t t' : ScimTables F} {user : SCIMUser F} {row : GroupRow}

theorem mem_membersOf {groupId userId : Str} :
    userId ∈ t.membersOf groupId ↔ ⟨groupId, userId⟩ ∈ t.members := by
  simp only [membersOf, List.mem_toFinset, List.mem_map, List.mem_filter, decide_eq_true_eq]
  constructor
  · rintro ⟨member, ⟨hmem, rfl⟩, rfl⟩
    exact hmem
  · exact fun hmem => ⟨⟨groupId, userId⟩, ⟨hmem, rfl⟩, rfl⟩

namespace Canonical

theorem encodes_id (h : t.Canonical) {userId : Str} (hmem : userId ∈ t.users.map SCIMUser.id) :
    Encodes userId := by
  obtain ⟨user, huser, rfl⟩ := List.mem_map.mp hmem
  exact (List.forall_mem_cons.mp (h.users user huser).encodes).1

theorem joined_id (h : t.Canonical) {userId : Str} (hmem : userId ∈ t.users.map SCIMUser.id) :
    IsJoined userId := by
  obtain ⟨user, huser, rfl⟩ := List.mem_map.mp hmem
  exact (h.users user huser).canonical.readable_id.2

theorem hasUser_of_member (t : ScimTables F) {userId groupId : Str}
    (hmem : userId ∈ t.membersOf groupId) : userId ∈ t.users.map SCIMUser.id :=
  t.memberUser ⟨groupId, userId⟩ (mem_membersOf.mp hmem)

/-- The group of a row, with its members. -/
theorem group (h : t.Canonical) (hmem : row ∈ t.groups) : (t.group row).Canonical where
  named := (h.groups row hmem).canonical.named
  members _ hmember := h.members _ (mem_membersOf.mp hmember)
  texts := (h.groups row hmem).canonical.texts
  joinedMembers _ hmember := h.joined_id (hasUser_of_member t hmember)

theorem of_users (h : t.Canonical) (husers : ∀ user ∈ t'.users, StoredUser user)
    (hgroups : t'.groups = t.groups) (hmembers : t'.members = t.members) : t'.Canonical :=
  ⟨husers, hgroups ▸ h.groups, hmembers ▸ h.members⟩

theorem of_groups (h : t.Canonical) (husers : t'.users = t.users)
    (hgroups : ∀ row ∈ t'.groups, StoredGroup row)
    (hmembers : ∀ row ∈ t'.members, IsClean row.userId) : t'.Canonical :=
  ⟨husers ▸ h.users, hgroups, hmembers⟩

theorem removeUser (h : t.Canonical) (userId : Str) : (t.removeUser userId).Canonical :=
  ⟨fun user hmem => h.users user (List.mem_filter.mp hmem).1, h.groups,
    fun row hmem => h.members row (List.mem_filter.mp hmem).1⟩

theorem removeGroup (h : t.Canonical) (groupId : Str) : (t.removeGroup groupId).Canonical :=
  ⟨h.users, fun row hmem => h.groups row (List.mem_filter.mp hmem).1,
    fun row hmem => h.members row (List.mem_filter.mp hmem).1⟩

end Canonical

theorem storedGroup {group : SCIMGroup} (h : group.Canonical) (hencodes : GroupEncodes group) :
    StoredGroup (groupRow group) := ⟨h.subset (Finset.empty_subset _), hencodes⟩

theorem clean_memberRows {group : SCIMGroup} (h : group.Canonical) :
    ∀ row ∈ memberRows group, IsClean row.userId :=
  fun _ hrow => h.members _ (mem_memberRows.mp hrow).2

/-! #### Reading -/

theorem getUser_unchanged (userId : Str) (t : ScimTables F) : (getUser userId t).2 = t := by
  by_cases hid : Encodes userId
  · rw [getUser_of_encodes hid]
  · rw [getUser_of_unencodable hid]

theorem getGroup_unchanged (groupId : Str) (t : ScimTables F) : (getGroup groupId t).2 = t := by
  by_cases hid : Encodes groupId
  · rw [getGroup_of_encodes hid]
  · rw [getGroup_of_unencodable hid]

theorem listUsers_unchanged (limit : Option Int) (offset : Int) (t : ScimTables F) :
    (listUsers limit offset t).2 = t := by
  unfold listUsers
  cases checkPage limit offset with
  | error e => rfl
  | ok u =>
    cases bindPage limit offset with
    | error e => rfl
    | ok u => rfl

theorem getGroups_unchanged (ids : List Str) (t : ScimTables F) : (getGroups ids t).2 = t := by
  induction ids with
  | nil => rfl
  | cons groupId ids ih =>
    have hsame := getGroup_unchanged groupId t
    rcases hget : getGroup groupId t with ⟨e | group, t'⟩
    · rw [hget] at hsame
      rw [getGroups, PyM.bind_of_error hget]
      exact hsame
    · rw [hget] at hsame
      obtain rfl : t' = t := hsame
      rw [getGroups, PyM.bind_of_ok hget]
      rcases hrest : getGroups ids t' with ⟨e | groups, t''⟩
      · rw [hrest] at ih
        rw [PyM.bind_of_error hrest]
        exact ih
      · rw [hrest] at ih
        rw [PyM.bind_of_ok hrest]
        exact ih

theorem listGroups_unchanged (limit : Option Int) (offset : Int) (t : ScimTables F) :
    (listGroups limit offset t).2 = t := by
  unfold listGroups
  cases checkPage limit offset with
  | error e => rfl
  | ok u =>
    cases bindPage limit offset with
    | error e => rfl
    | ok u => exact getGroups_unchanged _ t

/-! #### Writing -/

theorem canonical_deleteUser (h : t.Canonical) (userId : Str) :
    (deleteUser userId t).2.Canonical := by
  unfold deleteUser
  cases hbind : bindText userId with
  | error e => exact h
  | ok u =>
    by_cases hthere : userId ∈ t.users.map SCIMUser.id
    · have hdeleted : (if userId ∈ t.users.map SCIMUser.id then PyM.set (t.removeUser userId)
          else PyM.raise (.keyError [userId])) t = (.ok (), t.removeUser userId) :=
        congrFun (if_pos hthere) t
      exact (congrArg Prod.snd hdeleted) ▸ h.removeUser userId
    · have hmissing : (if userId ∈ t.users.map SCIMUser.id then PyM.set (t.removeUser userId)
          else PyM.raise (.keyError [userId])) t = (.error (.keyError [userId]), t) :=
        congrFun (if_neg hthere) t
      exact (congrArg Prod.snd hmissing) ▸ h

theorem canonical_deleteGroup (h : t.Canonical) (groupId : Str) :
    (deleteGroup groupId t).2.Canonical := by
  unfold deleteGroup
  cases hbind : bindText groupId with
  | error e => exact h
  | ok u =>
    by_cases hthere : groupId ∈ t.groups.map GroupRow.id
    · have hdeleted : (if groupId ∈ t.groups.map GroupRow.id then PyM.set (t.removeGroup groupId)
          else PyM.raise (.keyError [groupId])) t = (.ok (), t.removeGroup groupId) :=
        congrFun (if_pos hthere) t
      exact (congrArg Prod.snd hdeleted) ▸ h.removeGroup groupId
    · have hmissing : (if groupId ∈ t.groups.map GroupRow.id then PyM.set (t.removeGroup groupId)
          else PyM.raise (.keyError [groupId])) t = (.error (.keyError [groupId]), t) :=
        congrFun (if_neg hthere) t
      exact (congrArg Prod.snd hmissing) ▸ h

section

variable [PyBuiltins F] (hprints : PrintsContainers F) (p : ScimPayload F) {fresh : Str}

include hprints

theorem canonical_createUser (hfresh : fresh ≠ [] ∧ IsJoined fresh) (h : t.Canonical) :
    (createUser p fresh t).2.Canonical := by
  by_cases hname : p.userName = []
  · rw [createUser_of_blank hname]
    exact h
  by_cases hencodes : UserEncodes (newUser p fresh)
  case neg =>
    rw [createUser_of_unencodable hname hencodes]
    exact h
  by_cases hfree : rowAt SCIMUser.id (p.id fresh) t.users = none ∧
      rowAt SCIMUser.userName p.userName t.users = none
  case neg =>
    rw [createUser_of_taken hname hencodes hfree]
    exact h
  obtain ⟨t', hcreated, husers, hgroups, hmembers⟩ :=
    createUser_of_free hname hencodes hfree.1 hfree.2
  rw [hcreated]
  have hnew : (newUser p fresh).Canonical :=
    canonical_user hprints p (readable_id hprints p hfresh) hname p.readable_textItems
  refine h.of_users ?_ hgroups hmembers
  rw [husers]
  exact List.forall_mem_append.mpr ⟨h.users,
    List.forall_mem_singleton.mpr (storedUser hnew hencodes)⟩

theorem canonical_replaceUser (userId : Str) (h : t.Canonical) :
    (replaceUser userId p t).2.Canonical := by
  by_cases hid : Encodes userId
  case neg =>
    rw [replaceUser_of_unencodable_id hid]
    exact h
  cases hrow : rowAt SCIMUser.id userId t.users with
  | none =>
    rw [replaceUser_of_missing hid hrow]
    exact h
  | some row =>
    by_cases hname : p.userName = []
    · rw [replaceUser_of_blank hid hrow hname]
      exact h
    cases hitems : anyItems p.emails with
    | none =>
      rw [replaceUser_of_notIterable hid hrow hname hitems]
      exact h
    | some names =>
      by_cases hencodes : UserEncodes (p.user userId names)
      case neg =>
        rw [replaceUser_of_unencodable hid hrow hname hitems hencodes]
        exact h
      by_cases hfree : ∀ other ∈ t.users, other.userName = p.userName → other.id = userId
      case neg =>
        push Not at hfree
        obtain ⟨other, hother, hsame, hne⟩ := hfree
        rw [replaceUser_of_named hid hrow hname hitems hencodes hother hsame hne]
        exact h
      obtain ⟨t', hreplaced, husers, hgroups, hmembers⟩ :=
        replaceUser_of_free hid hrow hname hitems hencodes hfree
      rw [hreplaced]
      have hreadable := (h.users row (mem_of_rowAt hrow)).canonical.readable_id
      have hnew : (p.user userId names).Canonical := canonical_user hprints p
        (key_of_rowAt hrow ▸ hreadable) hname (readable_anyItems hprints p hitems)
      refine h.of_users ?_ hgroups hmembers
      rw [husers]
      intro user hmem
      rcases mem_setRow hmem with rfl | ⟨hmem, -⟩
      · exact storedUser hnew hencodes
      · exact h.users user hmem

theorem canonical_createGroup (hfresh : fresh ≠ [] ∧ IsJoined fresh) (h : t.Canonical) :
    (createGroup p fresh t).2.Canonical := by
  by_cases hname : strip p.displayName = []
  · rw [createGroup_of_blank hname]
    exact h
  cases hitems : anyItems p.members with
  | none =>
    rw [createGroup_of_notIterable hname hitems]
    exact h
  | some names =>
    by_cases hknown : t.KnowsMembers names
    case neg =>
      obtain ⟨unknown, hrefused⟩ : ∃ unknown, createGroup p fresh t = (.error (unknownUsers F unknown), t) :=
        createGroup_of_unknown hname hitems hknown
      rw [hrefused]
      exact h
    by_cases hencodes : GroupEncodes (p.group (p.id fresh) names)
    case neg =>
      rw [createGroup_of_unencodable hname hitems hknown hencodes]
      exact h
    by_cases hfree : rowAt GroupRow.id (p.id fresh) t.groups = none ∧
        rowAt GroupRow.displayName (strip p.displayName) t.groups = none
    case neg =>
      rw [createGroup_of_taken hname hitems hknown hencodes hfree]
      exact h
    obtain ⟨t', hcreated, husers, hgroups, hmembers⟩ := createGroup_of_free hname hitems hknown
      hencodes hfree.1 hfree.2 fun name hmem => h.encodes_id (hknown name hmem)
    rw [hcreated]
    have hnew : (p.group (p.id fresh) names).Canonical := canonical_group hprints p
      (readable_id hprints p hfresh).2 hname (readable_anyItems hprints p hitems)
    refine h.of_groups husers ?_ ?_
    · rw [hgroups]
      exact List.forall_mem_append.mpr ⟨h.groups,
        List.forall_mem_singleton.mpr (storedGroup hnew hencodes)⟩
    · rw [hmembers]
      exact List.forall_mem_append.mpr ⟨h.members, clean_memberRows hnew⟩

theorem canonical_replaceGroup (groupId : Str) (h : t.Canonical) :
    (replaceGroup groupId p t).2.Canonical := by
  by_cases hid : Encodes groupId
  case neg =>
    rw [replaceGroup_of_unencodable_id hid]
    exact h
  -- each check that fails leaves the tables as they are
  cases hrow : rowAt GroupRow.id groupId t.groups with
  | none =>
    rw [replaceGroup_of_missing hid hrow]
    exact h
  | some row =>
    by_cases hname : strip p.displayName = []
    · rw [replaceGroup_of_blank hid hrow hname]
      exact h
    cases hitems : anyItems p.members with
    | none =>
      rw [replaceGroup_of_notIterable hid hrow hname hitems]
      exact h
    | some names =>
      by_cases hknown : t.KnowsMembers names
      case neg =>
        rw [replaceGroup_of_unknown hid hrow hname hitems hknown]
        exact h
      by_cases hencodes : GroupEncodes (p.group groupId names)
      case neg =>
        rw [replaceGroup_of_unencodable hid hrow hname hitems hknown hencodes]
        exact h
      by_cases hfree : ∀ other ∈ t.groups, other.displayName = strip p.displayName →
          other.id = groupId
      case neg =>
        push Not at hfree
        obtain ⟨other, hother, hsame, hne⟩ := hfree
        rw [replaceGroup_of_named hid hrow hname hitems hknown hencodes hother hsame hne]
        exact h
      -- the row is replaced, and its memberships are written anew
      obtain ⟨t', hreplaced, husers, hgroups, hmembers⟩ := replaceGroup_of_free hid hrow hname hitems
        hknown hencodes hfree fun name hmem => h.encodes_id (hknown name hmem)
      rw [hreplaced]
      have hjoined := (h.groups row (mem_of_rowAt hrow)).canonical.joined_id
      have hnew : (p.group groupId names).Canonical := canonical_group hprints p
        ((key_of_rowAt hrow : row.id = groupId) ▸ hjoined) hname
        (readable_anyItems hprints p hitems)
      refine h.of_groups husers ?_ ?_
      · rw [hgroups]
        intro row' hmem
        rcases mem_setRow hmem with rfl | ⟨hmem, -⟩
        · exact storedGroup hnew hencodes
        · exact h.groups row' hmem
      · rw [hmembers]
        exact List.forall_mem_append.mpr ⟨fun row' hmem => h.members row' (List.mem_filter.mp hmem).1,
          clean_memberRows hnew⟩

/-- Every operation leaves canonical rows. -/
theorem canonical_call (op : ScimOp F) (hop : op.FreshIds) (h : t.Canonical) :
    (call op t).2.Canonical := by
  cases op with
  | createUser p fresh =>
    rw [call, PyM.snd_map]
    exact canonical_createUser hprints p hop h
  | replaceUser userId p =>
    rw [call, PyM.snd_map]
    exact canonical_replaceUser hprints p userId h
  | deleteUser userId =>
    rw [call, PyM.snd_map]
    exact canonical_deleteUser h userId
  | getUser userId =>
    rw [call, PyM.snd_map, getUser_unchanged]
    exact h
  | listUsers limit offset =>
    rw [call, PyM.snd_map, listUsers_unchanged]
    exact h
  | createGroup p fresh =>
    rw [call, PyM.snd_map]
    exact canonical_createGroup hprints p hop h
  | replaceGroup groupId p =>
    rw [call, PyM.snd_map]
    exact canonical_replaceGroup hprints p groupId h
  | deleteGroup groupId =>
    rw [call, PyM.snd_map]
    exact canonical_deleteGroup h groupId
  | getGroup groupId =>
    rw [call, PyM.snd_map, getGroup_unchanged]
    exact h
  | listGroups limit offset =>
    rw [call, PyM.snd_map, listGroups_unchanged]
    exact h

end

/-- The tables that a run leaves. -/
def after [PyBuiltins F] (ops : List (ScimOp F)) : ScimTables F :=
  ops.foldl (fun t op => (call op t).2) .empty

theorem canonical_after [PyBuiltins F] (hprints : PrintsContainers F) (ops : List (ScimOp F))
    (hops : ∀ op ∈ ops, op.FreshIds) : (after ops).Canonical := by
  have hempty : (ScimTables.empty : ScimTables F).Canonical :=
    ⟨fun _ h => absurd h List.not_mem_nil, fun _ h => absurd h List.not_mem_nil,
      fun _ h => absurd h List.not_mem_nil⟩
  exact List.foldlRecOn ops _ hempty fun t ht op hop => canonical_call hprints op (hops op hop) ht

/-! #### Resources -/

section

variable [PyBuiltins F]

theorem createUser_resource (h : user.Canonical) (hencodes : UserEncodes user) (fresh : Str) :
    (createUser (user.resource h) fresh .empty).1 = .ok user := by
  have hname : (user.resource h).userName ≠ [] := SCIMUser.userName_resource h ▸ h.named.ne_nil
  have hnew : newUser (user.resource h) fresh = user := by
    rw [newUser, SCIMUser.id_resource, SCIMUser.emails_resource, textItems_emailItems h.emails,
      SCIMUser.user_resource]
  obtain ⟨t', hcreated, -⟩ := createUser_of_free (t := .empty) hname
    (hnew.symm ▸ hencodes : UserEncodes (newUser (user.resource h) fresh)) rfl rfl
  rw [hcreated, hnew]

theorem replaceUser_resource (hmem : user ∈ t.users) (h : StoredUser user) :
    ∃ t', replaceUser user.id (user.resource h.canonical) t = (.ok user, t') ∧ t.SameRows t' := by
  have hcanonical := h.canonical
  have hname : (user.resource hcanonical).userName ≠ [] :=
    SCIMUser.userName_resource hcanonical ▸ hcanonical.named.ne_nil
  have hid : Encodes user.id := (List.forall_mem_cons.mp h.encodes).1
  have hrow : rowAt SCIMUser.id user.id t.users = some user := rowAt_of_mem t.userIds hmem
  have hitems : anyItems (user.resource hcanonical).emails = some user.emails := by
    rw [SCIMUser.emails_resource, anyItems_emailItems hcanonical.emails]
  have huser := SCIMUser.user_resource hcanonical
  have hfree : ∀ other ∈ t.users, other.userName = (user.resource hcanonical).userName →
      other.id = user.id := by
    intro other hother hsame
    rw [SCIMUser.userName_resource] at hsame
    exact congrArg SCIMUser.id (List.inj_on_of_nodup_map t.userNames hother hmem hsame)
  obtain ⟨t', hreplaced, husers, hgroups, hmembers⟩ := replaceUser_of_free hid hrow hname hitems
    (huser.symm ▸ h.encodes) hfree
  rw [huser] at hreplaced husers
  refine ⟨t', hreplaced, ?_, hgroups, hmembers ▸ .refl _⟩
  rw [husers, h.stored, setRow_self t.userIds hmem]

theorem replaceGroup_resource (ht : t.Canonical) (hmem : row ∈ t.groups) :
    ∃ t', replaceGroup row.id ((t.group row).resource F (ht.group hmem)) t =
      (.ok (t.group row), t') ∧ t.SameRows t' := by
  have hcanonical := ht.group hmem
  have hname : strip ((t.group row).resource F hcanonical).displayName ≠ [] := by
    rw [SCIMGroup.displayName_resource]
    exact hcanonical.named.ne_nil
  have hencodes : GroupEncodes (t.group row) := (ht.groups row hmem).encodes
  have hid : Encodes row.id := (List.forall_mem_cons.mp hencodes).1
  have hrow : rowAt GroupRow.id row.id t.groups = some row := rowAt_of_mem t.groupIds hmem
  have hitems : anyItems ((t.group row).resource F hcanonical).members =
      some (sortedTexts (t.group row).members) := anyItems_memberItems hcanonical.members
  have hknown : t.KnowsMembers (sortedTexts (t.group row).members) :=
    fun member hmember => Canonical.hasUser_of_member t ((Finset.mem_sort _).mp hmember)
  have hgroup : ((t.group row).resource F hcanonical).group row.id
      (sortedTexts (t.group row).members) = t.group row := SCIMGroup.group_resource hcanonical
  have hfree : ∀ other ∈ t.groups,
      other.displayName = strip ((t.group row).resource F hcanonical).displayName →
        other.id = row.id := by
    intro other hother hsame
    rw [SCIMGroup.displayName_resource] at hsame
    exact congrArg GroupRow.id (List.inj_on_of_nodup_map t.groupNames hother hmem hsame)
  obtain ⟨t', hreplaced, husers, hgroups, hmembers⟩ := replaceGroup_of_free hid hrow hname hitems
    hknown (hgroup.symm ▸ hencodes) hfree fun name hmem => ht.encodes_id (hknown name hmem)
  rw [hgroup] at hreplaced hgroups hmembers
  -- the memberships are deleted and inserted again
  have hkept : ∀ member ∈ t.members.filter (fun member => member.groupId ≠ row.id),
      member.groupId ≠ (t.group row).id :=
    fun _ hmember => of_decide_eq_true (List.mem_filter.mp hmember).2
  have hself := (Mirrors.membersOf_append hkept hmembers).1
  have hback : t'.group (groupRow (t.group row)) = t.group row := by
    rw [group, groupRow, hself]
  have hrows : ∀ member, member ∈ t'.members ↔ member ∈ t.members := by
    intro member
    rw [hmembers, List.mem_append, List.mem_filter, mem_memberRows, decide_eq_true_eq]
    show _ ∨ (member.groupId = row.id ∧ member.userId ∈ t.membersOf row.id) ↔ _
    rw [mem_membersOf]
    by_cases hgroupId : member.groupId = row.id
    · rw [← hgroupId]
      simp
    · simp [hgroupId]
  rw [hback] at hreplaced
  refine ⟨t', hreplaced, husers, ?_, ?_⟩
  · rw [hgroups]
    exact setRow_self t.groupIds hmem
  · exact (List.perm_ext_iff_of_nodup t'.memberships t.memberships).mpr hrows

end

end ScimTables

/-! ### Round trips -/

/-- Whatever operations led to the entries of a store, each is read back from
its own resource, and to replace it by that changes nothing. -/
theorem scim_round_trip [PyBuiltins F] (hprints : PrintsContainers F) (ops : List (ScimOp F))
    (hops : ∀ op ∈ ops, op.FreshIds) :
    (∀ user ∈ (SCIMDirectory.after ops).users, ∃ p : ScimPayload F, p.fields = user.toScim ∧
      (∀ fresh, (SCIMDirectory.createUser p fresh .empty).1 = .ok user) ∧
      ∃ d', SCIMDirectory.replaceUser user.id p (.after ops) = (.ok user, d') ∧
        (SCIMDirectory.after ops).SameEntries d') ∧
    (∀ group ∈ (SCIMDirectory.after ops).groups, ∃ p : ScimPayload F, p.fields = group.toScim ∧
      ∃ d', SCIMDirectory.replaceGroup group.id p (.after ops) = (.ok group, d') ∧
        (SCIMDirectory.after ops).SameEntries d') ∧
    (∀ user ∈ (ScimTables.after ops).users, ∃ p : ScimPayload F, p.fields = user.toScim ∧
      (∀ fresh, (ScimTables.createUser p fresh .empty).1 = .ok user) ∧
      ∃ t', ScimTables.replaceUser user.id p (.after ops) = (.ok user, t') ∧
        (ScimTables.after ops).SameRows t') ∧
    ∀ row ∈ (ScimTables.after ops).groups, ∃ p : ScimPayload F,
      p.fields = ((ScimTables.after ops).group row).toScim ∧
      ∃ t', ScimTables.replaceGroup row.id p (.after ops) =
        (.ok ((ScimTables.after ops).group row), t') ∧ (ScimTables.after ops).SameRows t' := by
  have hd := SCIMDirectory.canonical_after hprints ops hops
  have hconsistent := SCIMDirectory.consistent_after ops
  have ht := ScimTables.canonical_after hprints ops hops
  refine ⟨fun user hmem => ?_, fun group hmem => ?_, fun user hmem => ?_, fun row hmem => ?_⟩
  · have h := hd.users user hmem
    exact ⟨user.resource h, rfl, SCIMDirectory.createUser_resource h,
      SCIMDirectory.replaceUser_resource hconsistent hmem h⟩
  · have h := hd.groups group hmem
    exact ⟨group.resource F h, rfl, SCIMDirectory.replaceGroup_resource hconsistent hmem h⟩
  · have h := ht.users user hmem
    exact ⟨user.resource h.canonical, rfl, ScimTables.createUser_resource h.canonical h.encodes,
      ScimTables.replaceUser_resource hmem h⟩
  · exact ⟨((ScimTables.after ops).group row).resource F (ht.group hmem), rfl,
      ScimTables.replaceGroup_resource ht hmem⟩

def sampleTeam : SCIMGroup := ⟨lit "g", lit "team", {lit "u1"}, []⟩

theorem sampleTeam_canonical : sampleTeam.Canonical where
  named := by decide
  members := by
    have hmember : IsClean (lit "u1") := by decide
    exact fun member h => Finset.mem_singleton.mp h ▸ hmember
  texts := by
    have htexts : ∀ text ∈ ScimTables.groupTexts sampleTeam, ∀ c ∈ text, c < 0xD800 := by decide
    exact fun text htext => isJoined_of_lt (htexts text htext)
  joinedMembers _ h := Finset.mem_singleton.mp h ▸ joined_u1

/-- A user, and a group with that member. -/
def sampleIdentities : List (ScimOp Half) :=
  [.createUser (userPayload joined_u1 joined_a) (lit "f"),
    .createGroup (sampleTeam.resource Half sampleTeam_canonical) (lit "f")]

theorem sampleIdentities_fresh : ∀ op ∈ sampleIdentities, op.FreshIds := by
  have hfresh : lit "f" ≠ [] ∧ IsJoined (lit "f") := ⟨by decide, isJoined_of_lt (by decide)⟩
  exact List.forall_mem_cons.mpr ⟨hfresh, List.forall_mem_singleton.mpr hfresh⟩

theorem scim_round_trip_sample :
    (SCIMDirectory.after sampleIdentities).users.map SCIMUser.userName = [lit "a"] ∧
    (SCIMDirectory.after sampleIdentities).groups.map SCIMGroup.members = [{lit "u1"}] ∧
    ∀ group ∈ (SCIMDirectory.after sampleIdentities).groups,
      ∃ p : ScimPayload Half, p.fields = group.toScim ∧
        ∃ d', SCIMDirectory.replaceGroup group.id p (SCIMDirectory.after sampleIdentities) =
            (.ok group, d') ∧
          (SCIMDirectory.after sampleIdentities).SameEntries d' :=
  ⟨by decide +kernel, by decide +kernel, (scim_round_trip (printsContainers_of_repr fun _ => rfl)
    sampleIdentities sampleIdentities_fresh).2.1⟩

end AgentRoi
