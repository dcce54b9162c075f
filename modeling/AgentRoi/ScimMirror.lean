/-
Tables of `SqliteIdentityStore` that hold what an `SCIMDirectory` holds.

* `Mirrors` — the users, up to the order of their attributes, and the groups
  that the rows make;
* `Mirrors.addUser`, `setUser`, `removeUser`, `addGroup`, `setGroup`,
  `removeGroup` — the same write on both sides keeps it.
-/
import AgentRoi.ScimTables

namespace AgentRoi

open RowTable

variable {F : Type}

namespace SCIMDirectory

def UserNamed (d : SCIMDirectory F) (name : Str) : Prop := name ∈ d.users.map SCIMUser.userName

def GroupNamed (d : SCIMDirectory F) (name : Str) : Prop :=
  name ∈ d.groups.map SCIMGroup.displayName

/-- A user other than the one with the id has the name. -/
def OtherUserNamed (d : SCIMDirectory F) (userId name : Str) : Prop :=
  ∃ user ∈ d.users, user.userName = name ∧ user.id ≠ userId

def OtherGroupNamed (d : SCIMDirectory F) (groupId name : Str) : Prop :=
  ∃ group ∈ d.groups, group.displayName = name ∧ group.id ≠ groupId

variable {d : SCIMDirectory F} {userId groupId name : Str}

theorem userNamed_withoutUser_iff :
    name ∈ (d.withoutUser userId).users.map SCIMUser.userName ↔ d.OtherUserNamed userId name := by
  simp only [withoutUser, OtherUserNamed, List.mem_map, List.mem_filter, decide_eq_true_eq]
  constructor
  · rintro ⟨user, ⟨hmem, hne⟩, hname⟩
    exact ⟨user, hmem, hname, hne⟩
  · rintro ⟨user, hmem, hname, hne⟩
    exact ⟨user, ⟨hmem, hne⟩, hname⟩

theorem groupNamed_withoutGroup_iff :
    name ∈ (d.withoutGroup groupId).groups.map SCIMGroup.displayName ↔
      d.OtherGroupNamed groupId name := by
  simp only [withoutGroup, OtherGroupNamed, List.mem_map, List.mem_filter, decide_eq_true_eq]
  constructor
  · rintro ⟨group, ⟨hmem, hne⟩, hname⟩
    exact ⟨group, hmem, hname, hne⟩
  · rintro ⟨group, hmem, hname, hne⟩
    exact ⟨group, ⟨hmem, hne⟩, hname⟩

end SCIMDirectory

/-! ### The tables mirror the directory -/

/-- The tables hold what the directory holds. -/
structure Mirrors (d : SCIMDirectory F) (t : ScimTables F) : Prop where
  users : (d.users.map SCIMUser.value).Perm t.users
  groups : d.groups.Perm (t.groups.map t.group)
  userIds : ∀ user ∈ t.users, ScimTables.Encodes user.id
  groupIds : ∀ row ∈ t.groups, ScimTables.Encodes row.id

namespace Mirrors

variable {d d' : SCIMDirectory F} {t t' : ScimTables F} {userId groupId name : Str}

theorem empty : Mirrors (F := F) .empty .empty where
  users := .nil
  groups := .nil
  userIds _ h := absurd h List.not_mem_nil
  groupIds _ h := absurd h List.not_mem_nil

/-- The order of the directory does not matter. -/
theorem perm (h : Mirrors d t) (husers : d'.users.Perm d.users) (hgroups : d'.groups.Perm d.groups) :
    Mirrors d' t where
  users := (husers.map _).trans h.users
  groups := hgroups.trans h.groups
  userIds := h.userIds
  groupIds := h.groupIds

theorem map_users {α : Type} {f : SCIMUser F → α} (h : Mirrors d t)
    (hf : ∀ user, f user.value = f user) : (d.users.map f).Perm (t.users.map f) := by
  have hmap := h.users.map f
  rw [List.map_map] at hmap
  rwa [List.map_congr_left fun user _ => (hf user).symm]

theorem map_groups {α : Type} {f : SCIMGroup → α} {g : GroupRow → α} (h : Mirrors d t)
    (hf : ∀ row, f (t.group row) = g row) : (d.groups.map f).Perm (t.groups.map g) := by
  have hmap := h.groups.map f
  rw [List.map_map] at hmap
  rwa [List.map_congr_left fun row _ => (hf row).symm]

theorem hasUser_iff (h : Mirrors d t) : d.HasUser userId ↔ userId ∈ t.users.map SCIMUser.id :=
  (h.map_users fun _ => rfl).mem_iff

theorem hasGroup_iff (h : Mirrors d t) : d.HasGroup groupId ↔ groupId ∈ t.groups.map GroupRow.id :=
  (h.map_groups fun _ => rfl).mem_iff

theorem userNamed_iff (h : Mirrors d t) :
    d.UserNamed name ↔ name ∈ t.users.map SCIMUser.userName := (h.map_users fun _ => rfl).mem_iff

theorem groupNamed_iff (h : Mirrors d t) :
    d.GroupNamed name ↔ name ∈ t.groups.map GroupRow.displayName :=
  (h.map_groups fun _ => rfl).mem_iff

theorem knowsMembers_iff {names : List Str} (h : Mirrors d t) :
    d.KnowsMembers names ↔ t.KnowsMembers names :=
  forall₂_congr fun _ _ => h.hasUser_iff

theorem nodup_userIds (h : Mirrors d t) : (d.users.map SCIMUser.id).Nodup :=
  (h.map_users fun _ => rfl).nodup_iff.mpr t.userIds

theorem nodup_userNames (h : Mirrors d t) : (d.users.map SCIMUser.userName).Nodup :=
  (h.map_users fun _ => rfl).nodup_iff.mpr t.userNames

theorem nodup_groupIds (h : Mirrors d t) : (d.groups.map SCIMGroup.id).Nodup :=
  (h.map_groups fun _ => rfl).nodup_iff.mpr t.groupIds

theorem nodup_groupNames (h : Mirrors d t) : (d.groups.map SCIMGroup.displayName).Nodup :=
  (h.map_groups fun _ => rfl).nodup_iff.mpr t.groupNames

theorem rowAt_users (h : Mirrors d t) :
    rowAt SCIMUser.id userId t.users = (rowAt SCIMUser.id userId d.users).map SCIMUser.value := by
  have hvalues : rowAt SCIMUser.id userId (d.users.map SCIMUser.value) =
      (rowAt SCIMUser.id userId d.users).map SCIMUser.value := rowAt_map fun _ => rfl
  rw [← rowAt_eq_of_perm _ h.users, hvalues]
  rw [List.map_map]
  exact h.nodup_userIds

theorem rowAt_groups (h : Mirrors d t) :
    rowAt SCIMGroup.id groupId d.groups = (rowAt GroupRow.id groupId t.groups).map t.group := by
  have hrows : rowAt SCIMGroup.id groupId (t.groups.map t.group) =
      (rowAt GroupRow.id groupId t.groups).map t.group := rowAt_map fun _ => rfl
  rw [rowAt_eq_of_perm h.nodup_groupIds h.groups, hrows]

theorem encodes_of_hasUser (h : Mirrors d t) (huser : d.HasUser userId) :
    ScimTables.Encodes userId := by
  obtain ⟨user, hmem, rfl⟩ := List.mem_map.mp (h.hasUser_iff.mp huser)
  exact h.userIds user hmem

theorem encodes_of_hasGroup (h : Mirrors d t) (hgroup : d.HasGroup groupId) :
    ScimTables.Encodes groupId := by
  obtain ⟨row, hmem, rfl⟩ := List.mem_map.mp (h.hasGroup_iff.mp hgroup)
  exact h.groupIds row hmem

/-! ### What the operations leave -/

variable {user : SCIMUser F} {group : SCIMGroup}

/-- Memberships that stay as they are make the same groups. -/
theorem group_congr (hmembers : t'.members = t.members) : t'.group = t.group := by
  funext row
  rw [ScimTables.group, ScimTables.group, ScimTables.membersOf, ScimTables.membersOf, hmembers]

/-- The same user is added on both sides. -/
theorem addUser (h : Mirrors d t) (hnew : ¬ d.HasUser user.id) (hencodes : ScimTables.Encodes user.id)
    (hd : d'.users = upsert SCIMUser.id user d.users) (hd' : d'.groups = d.groups)
    (ht : t'.users = t.users ++ [user.value]) (ht' : t'.groups = t.groups)
    (hmembers : t'.members = t.members) : Mirrors d' t' where
  users := by
    have hnone : rowAt SCIMUser.id user.id d.users = none := rowAt_eq_none_iff.mpr hnew
    rw [hd, ht, upsert, hnone]
    show ((d.users ++ [user]).map SCIMUser.value).Perm _
    rw [List.map_append]
    exact h.users.append_right _
  groups := by
    rw [hd', ht', group_congr hmembers]
    exact h.groups
  userIds := by
    rw [ht]
    exact List.forall_mem_append.mpr ⟨h.userIds, List.forall_mem_singleton.mpr hencodes⟩
  groupIds := by
    rw [ht']
    exact h.groupIds

/-- The same user takes the place of the one with its id on both sides. -/
theorem setUser (h : Mirrors d t) (hold : d.HasUser user.id)
    (hd : d'.users = (d.withoutUser user.id).users ++ [user]) (hd' : d'.groups = d.groups)
    (ht : t'.users = setRow SCIMUser.id user.value t.users) (ht' : t'.groups = t.groups)
    (hmembers : t'.members = t.members) : Mirrors d' t' where
  users := by
    obtain ⟨row, hrow⟩ := Option.ne_none_iff_exists'.mp
      (rowAt_eq_none_iff.not.mpr (not_not_intro (h.hasUser_iff.mp hold)))
    have hother : ((d.withoutUser user.id).users.map SCIMUser.value).Perm
        (t.users.filter fun row => row.id ≠ user.id) := by
      have hfilter := h.users.filter fun row => row.id ≠ user.id
      rw [List.filter_map] at hfilter
      exact hfilter
    have hset : (setRow SCIMUser.id user.value t.users).Perm
        ((t.users.filter fun row => row.id ≠ user.id) ++ [user.value]) := setRow_perm t.userIds hrow
    rw [hd, ht, List.map_append]
    exact (hother.append_right _).trans hset.symm
  groups := by
    rw [hd', ht', group_congr hmembers]
    exact h.groups
  userIds := by
    rw [ht]
    intro row hrow
    rcases mem_setRow hrow with rfl | ⟨hrow, -⟩
    · exact h.encodes_of_hasUser hold
    · exact h.userIds row hrow
  groupIds := by
    rw [ht']
    exact h.groupIds

/-- The user goes, and out of the groups it was in. -/
theorem removeUser (h : Mirrors d t) :
    Mirrors ⟨d.users.filter fun user => user.id ≠ userId,
      d.groups.map (SCIMDirectory.withoutMember userId)⟩ (t.removeUser userId) where
  users := by
    have hfilter := h.users.filter fun row => row.id ≠ userId
    rw [List.filter_map] at hfilter
    exact hfilter
  groups := by
    have hmap := h.groups.map (SCIMDirectory.withoutMember userId)
    rw [List.map_map] at hmap
    refine hmap.trans (List.Perm.of_eq (List.map_congr_left fun row _ => ?_))
    have hmembers : (t.removeUser userId).membersOf row.id = t.membersOf row.id \ {userId} := by
      ext name
      simp only [ScimTables.membersOf, ScimTables.removeUser, List.mem_toFinset, List.mem_map,
        List.mem_filter, Finset.mem_sdiff, Finset.mem_singleton, decide_eq_true_eq]
      constructor
      · rintro ⟨member, ⟨⟨hmem, hne⟩, hgroup⟩, rfl⟩
        exact ⟨⟨member, ⟨hmem, hgroup⟩, rfl⟩, hne⟩
      · rintro ⟨⟨member, ⟨hmem, hgroup⟩, rfl⟩, hne⟩
        exact ⟨member, ⟨⟨hmem, hne⟩, hgroup⟩, rfl⟩
    show SCIMDirectory.withoutMember userId (t.group row) = (t.removeUser userId).group row
    rw [ScimTables.group, ScimTables.group, hmembers, SCIMDirectory.withoutMember]
    split
    · rfl
    · next hnot =>
      rw [Finset.sdiff_singleton_eq_erase, Finset.erase_eq_of_notMem hnot]
  userIds row hrow := h.userIds row (List.mem_filter.mp hrow).1
  groupIds := h.groupIds

theorem removeGroup (h : Mirrors d t) :
    Mirrors (d.withoutGroup groupId) (t.removeGroup groupId) where
  users := h.users
  groups := by
    have hfilter := h.groups.filter fun group => group.id ≠ groupId
    rw [List.filter_map] at hfilter
    refine hfilter.trans (List.Perm.of_eq (List.map_congr_left fun row hrow => ?_))
    have hne : row.id ≠ groupId := of_decide_eq_true (List.mem_filter.mp hrow).2
    have hmembers : (t.removeGroup groupId).membersOf row.id = t.membersOf row.id := by
      ext name
      simp only [ScimTables.membersOf, ScimTables.removeGroup, List.mem_toFinset, List.mem_map,
        List.mem_filter, decide_eq_true_eq]
      constructor
      · rintro ⟨member, ⟨⟨hmem, -⟩, hgroup⟩, rfl⟩
        exact ⟨member, ⟨hmem, hgroup⟩, rfl⟩
      · rintro ⟨member, ⟨hmem, hgroup⟩, rfl⟩
        exact ⟨member, ⟨⟨hmem, hgroup ▸ hne⟩, hgroup⟩, rfl⟩
    rw [ScimTables.group, ScimTables.group, hmembers]
  userIds := h.userIds
  groupIds row hrow := h.groupIds row (List.mem_filter.mp hrow).1

/-- Members of one group, beside those of others. -/
theorem membersOf_append {kept : List MemberRow} (hkept : ∀ row ∈ kept, row.groupId ≠ group.id)
    (hmembers : t'.members = kept ++ ScimTables.memberRows group) :
    t'.membersOf group.id = group.members ∧ ∀ id, id ≠ group.id → t'.membersOf id =
      ((kept.filter fun row => row.groupId = id).map MemberRow.userId).toFinset := by
  constructor
  · ext name
    simp only [ScimTables.membersOf, hmembers, List.mem_toFinset, List.mem_map, List.mem_filter,
      List.mem_append, ScimTables.mem_memberRows, decide_eq_true_eq]
    constructor
    · rintro ⟨row, ⟨hrow | ⟨-, hmem⟩, hgroup⟩, rfl⟩
      · exact absurd hgroup (hkept row hrow)
      · exact hmem
    · exact fun hmem => ⟨⟨group.id, name⟩, ⟨.inr ⟨rfl, hmem⟩, rfl⟩, rfl⟩
  · intro id hne
    have hnone : (ScimTables.memberRows group).filter (fun row => row.groupId = id) = [] :=
      List.filter_eq_nil_iff.mpr fun row hrow heq =>
        hne ((of_decide_eq_true heq).symm.trans (ScimTables.mem_memberRows.mp hrow).1)
    rw [ScimTables.membersOf, hmembers, List.filter_append, hnone, List.append_nil]

/-- The same group is added on both sides. -/
theorem addGroup (h : Mirrors d t) (hnew : ¬ d.HasGroup group.id)
    (hencodes : ScimTables.Encodes group.id) (hd : d'.users = d.users)
    (hd' : d'.groups = upsert SCIMGroup.id group d.groups) (ht : t'.users = t.users)
    (ht' : t'.groups = t.groups ++ [ScimTables.groupRow group])
    (hmembers : t'.members = t.members ++ ScimTables.memberRows group) : Mirrors d' t' where
  users := by
    rw [hd, ht]
    exact h.users
  groups := by
    have hnone : rowAt SCIMGroup.id group.id d.groups = none := rowAt_eq_none_iff.mpr hnew
    have hfresh : group.id ∉ t.groups.map GroupRow.id := h.hasGroup_iff.not.mp hnew
    obtain ⟨hself, hothers⟩ := membersOf_append (fun row hrow heq =>
      hfresh (heq ▸ t.memberGroup row hrow)) hmembers
    have hgroup : t'.group (ScimTables.groupRow group) = group := by
      rw [ScimTables.group, ScimTables.groupRow, hself]
    have hrest : t.groups.map t'.group = t.groups.map t.group := by
      refine List.map_congr_left fun row hrow => ?_
      have hne : row.id ≠ group.id := fun heq => hfresh (List.mem_map.mpr ⟨row, hrow, heq⟩)
      rw [ScimTables.group, ScimTables.group, hothers row.id hne, ScimTables.membersOf]
    rw [hd', ht', upsert, hnone, List.map_append, hrest, List.map_singleton, hgroup]
    exact h.groups.append_right _
  userIds := by
    rw [ht]
    exact h.userIds
  groupIds := by
    rw [ht']
    exact List.forall_mem_append.mpr ⟨h.groupIds, List.forall_mem_singleton.mpr hencodes⟩

/-- The same group takes the place of the one with its id on both sides. -/
theorem setGroup (h : Mirrors d t) (hold : d.HasGroup group.id) (hd : d'.users = d.users)
    (hd' : d'.groups = (d.withoutGroup group.id).groups ++ [group]) (ht : t'.users = t.users)
    (ht' : t'.groups = setRow GroupRow.id (ScimTables.groupRow group) t.groups)
    (hmembers : t'.members = (t.members.filter fun row => row.groupId ≠ group.id) ++
      ScimTables.memberRows group) :
    t'.group (ScimTables.groupRow group) = group ∧ Mirrors d' t' := by
  obtain ⟨hself, hothers⟩ := membersOf_append
    (fun row hrow => of_decide_eq_true (List.mem_filter.mp hrow).2) hmembers
  have hgroup : t'.group (ScimTables.groupRow group) = group := by
    rw [ScimTables.group, ScimTables.groupRow, hself]
  refine ⟨hgroup, ?_, ?_, ?_, ?_⟩
  · rw [hd, ht]
    exact h.users
  · obtain ⟨row, hrow⟩ := Option.ne_none_iff_exists'.mp
      (rowAt_eq_none_iff.not.mpr (not_not_intro (h.hasGroup_iff.mp hold)))
    have hfilter := h.groups.filter fun other => other.id ≠ group.id
    rw [List.filter_map] at hfilter
    have hrest : (t.groups.filter fun row => row.id ≠ group.id).map t'.group =
        (t.groups.filter fun row => row.id ≠ group.id).map t.group := by
      refine List.map_congr_left fun row hrow => ?_
      have hne : row.id ≠ group.id := of_decide_eq_true (List.mem_filter.mp hrow).2
      have hkept : (t.members.filter fun member => member.groupId ≠ group.id).filter
          (fun member => member.groupId = row.id) =
            t.members.filter fun member => member.groupId = row.id := by
        rw [List.filter_filter]
        refine List.filter_congr fun member _ => ?_
        by_cases heq : member.groupId = row.id
        · simp [heq, hne]
        · simp [heq]
      rw [ScimTables.group, ScimTables.group, hothers row.id hne, hkept, ScimTables.membersOf]
    have hset : (t'.groups.map t'.group).Perm
        ((t.groups.filter fun row => row.id ≠ group.id).map t.group ++ [group]) := by
      rw [ht', ← hrest]
      refine ((setRow_perm t.groupIds hrow).map t'.group).trans (List.Perm.of_eq ?_)
      rw [List.map_append, List.map_singleton, hgroup]
      rfl
    rw [hd']
    exact (hfilter.append_right _).trans hset.symm
  · rw [ht]
    exact h.userIds
  · rw [ht']
    intro row hrow
    rcases mem_setRow hrow with rfl | ⟨hrow, -⟩
    · exact h.encodes_of_hasGroup hold
    · exact h.groupIds row hrow

end Mirrors

end AgentRoi
