/-
What every run of a `SCIMDirectory` keeps.

* `Consistent` — distinct names that are not blank, and members that are users;
* `SameEntries` — the users and groups of two directories, whatever their order;
* `Keeps` — a method keeps a directory consistent, and leaves its entries alone
  when it raises;
* `keeps_call` — every operation does;
* `consistent_after` — a run from the empty directory stays consistent.
-/
import AgentRoi.ScimAgreement

namespace AgentRoi

open RowTable

namespace SCIMDirectory

variable {F : Type}

structure Consistent (d : SCIMDirectory F) : Prop where
  userIds : (d.users.map SCIMUser.id).Nodup
  userNames : (d.users.map SCIMUser.userName).Nodup
  userNamed : ∀ user ∈ d.users, isBlank user.userName = false
  groupIds : (d.groups.map SCIMGroup.id).Nodup
  groupNames : (d.groups.map SCIMGroup.displayName).Nodup
  groupNamed : ∀ group ∈ d.groups, isBlank group.displayName = false
  members : ∀ group ∈ d.groups, ∀ userId ∈ group.members, d.HasUser userId

structure SameEntries (d d' : SCIMDirectory F) : Prop where
  users : d'.users.Perm d.users
  groups : d'.groups.Perm d.groups

theorem SameEntries.refl (d : SCIMDirectory F) : d.SameEntries d := ⟨.refl _, .refl _⟩

variable {d d' : SCIMDirectory F} {user : SCIMUser F} {group : SCIMGroup} {userId groupId : Str}

theorem withoutMember_id (userId : Str) (group : SCIMGroup) :
    (withoutMember userId group).id = group.id := by
  unfold withoutMember
  split <;> rfl

theorem withoutMember_displayName (userId : Str) (group : SCIMGroup) :
    (withoutMember userId group).displayName = group.displayName := by
  unfold withoutMember
  split <;> rfl

/-! ### What an operation changes -/

namespace Consistent

theorem empty : Consistent (F := F) .empty where
  userIds := List.nodup_nil
  userNames := List.nodup_nil
  userNamed _ h := absurd h List.not_mem_nil
  groupIds := List.nodup_nil
  groupNames := List.nodup_nil
  groupNamed _ h := absurd h List.not_mem_nil
  members _ h := absurd h List.not_mem_nil

/-- The order of the entries does not matter. -/
theorem of_same (h : d.Consistent) (hsame : d.SameEntries d') : d'.Consistent where
  userIds := (hsame.users.map _).nodup_iff.mpr h.userIds
  userNames := (hsame.users.map _).nodup_iff.mpr h.userNames
  userNamed user huser := h.userNamed user (hsame.users.mem_iff.mp huser)
  groupIds := (hsame.groups.map _).nodup_iff.mpr h.groupIds
  groupNames := (hsame.groups.map _).nodup_iff.mpr h.groupNames
  groupNamed group hgroup := h.groupNamed group (hsame.groups.mem_iff.mp hgroup)
  members group hgroup userId hmember :=
    (hsame.users.map _).mem_iff.mpr (h.members group (hsame.groups.mem_iff.mp hgroup) userId hmember)

/-- Other users under the ids there were, and maybe more. -/
theorem with_users {users : List (SCIMUser F)} (h : d.Consistent)
    (hids : (users.map SCIMUser.id).Nodup) (hnames : (users.map SCIMUser.userName).Nodup)
    (hnamed : ∀ user ∈ users, isBlank user.userName = false)
    (hkept : ∀ userId, d.HasUser userId → userId ∈ users.map SCIMUser.id) :
    Consistent { d with users := users } where
  userIds := hids
  userNames := hnames
  userNamed := hnamed
  groupIds := h.groupIds
  groupNames := h.groupNames
  groupNamed := h.groupNamed
  members group hgroup userId hmember := hkept userId (h.members group hgroup userId hmember)

theorem upsertUser (h : d.Consistent) (hnamed : isBlank user.userName = false)
    (hnew : user.userName ∉ d.users.map SCIMUser.userName) :
    Consistent { d with users := upsert SCIMUser.id user d.users } := by
  refine h.with_users (nodup_upsert h.userIds) (nodup_map_upsert h.userIds h.userNames hnew) ?_
    fun userId huser => mem_keys_upsert huser
  intro other hother
  rcases mem_upsert hother with rfl | hother
  · exact hnamed
  · exact h.userNamed other hother

/-- A user takes the place of the one that had its id. -/
theorem replaceUser (h : d.Consistent) (hid : user.id = userId)
    (hnamed : isBlank user.userName = false)
    (hnew : user.userName ∉ (d.withoutUser userId).users.map SCIMUser.userName) :
    Consistent { d with users := (d.withoutUser userId).users ++ [user] } := by
  have hnone : rowAt SCIMUser.id user.id (d.withoutUser userId).users = none := by
    rw [hid]
    exact rowAt_filter_self
  have hnames : ((d.withoutUser userId).users.map SCIMUser.userName).Nodup :=
    nodup_filter h.userNames
  refine h.with_users (nodup_append (nodup_filter h.userIds) hnone)
    (nodup_append hnames (rowAt_eq_none_iff.mpr hnew)) ?_ ?_
  · refine List.forall_mem_append.mpr ⟨fun other hother => ?_, List.forall_mem_singleton.mpr hnamed⟩
    exact h.userNamed other (List.mem_filter.mp hother).1
  · intro other hother
    obtain ⟨row, hrow, rfl⟩ := List.mem_map.mp hother
    rw [List.map_append, List.mem_append]
    by_cases heq : row.id = userId
    · exact .inr (List.mem_singleton.mpr (heq.trans hid.symm))
    · exact .inl (List.mem_map_of_mem (List.mem_filter.mpr ⟨hrow, decide_eq_true heq⟩))

/-- Other groups, whose members are users. -/
theorem with_groups {groups : List SCIMGroup} (h : d.Consistent)
    (hids : (groups.map SCIMGroup.id).Nodup) (hnames : (groups.map SCIMGroup.displayName).Nodup)
    (hnamed : ∀ group ∈ groups, isBlank group.displayName = false)
    (hmembers : ∀ group ∈ groups, ∀ userId ∈ group.members, d.HasUser userId) :
    Consistent { d with groups := groups } where
  userIds := h.userIds
  userNames := h.userNames
  userNamed := h.userNamed
  groupIds := hids
  groupNames := hnames
  groupNamed := hnamed
  members := hmembers

theorem upsertGroup (h : d.Consistent) (hnamed : isBlank group.displayName = false)
    (hmembers : ∀ userId ∈ group.members, d.HasUser userId)
    (hnew : group.displayName ∉ d.groups.map SCIMGroup.displayName) :
    Consistent { d with groups := upsert SCIMGroup.id group d.groups } := by
  refine h.with_groups (nodup_upsert h.groupIds) (nodup_map_upsert h.groupIds h.groupNames hnew)
    ?_ ?_
  · intro other hother
    rcases mem_upsert hother with rfl | hother
    · exact hnamed
    · exact h.groupNamed other hother
  · intro other hother
    rcases mem_upsert hother with rfl | hother
    · exact hmembers
    · exact h.members other hother

theorem withoutGroup (h : d.Consistent) (groupId : Str) : (d.withoutGroup groupId).Consistent :=
  h.with_groups (nodup_filter h.groupIds) (nodup_filter h.groupNames)
    (fun group hgroup => h.groupNamed group (List.mem_filter.mp hgroup).1)
    fun group hgroup => h.members group (List.mem_filter.mp hgroup).1

/-- A user leaves, and leaves the groups. -/
theorem deleteUser (h : d.Consistent) (userId : Str) :
    Consistent ⟨(d.withoutUser userId).users, d.groups.map (withoutMember userId)⟩ := by
  refine ⟨nodup_filter h.userIds, nodup_filter h.userNames, fun user huser =>
    h.userNamed user (List.mem_filter.mp huser).1, ?_, ?_, ?_, ?_⟩
  · rw [List.map_map]
    exact (List.map_congr_left fun group _ => withoutMember_id userId group) ▸ h.groupIds
  · rw [List.map_map]
    exact (List.map_congr_left fun group _ => withoutMember_displayName userId group) ▸ h.groupNames
  · refine List.forall_mem_map.mpr fun group hgroup => ?_
    rw [withoutMember_displayName]
    exact h.groupNamed group hgroup
  · refine List.forall_mem_map.mpr fun group hgroup member hmember => ?_
    -- the members that are left are members that there were, and others than the user
    have hleft : member ∈ group.members ∧ member ≠ userId := by
      unfold withoutMember at hmember
      split at hmember
      · exact ⟨(Finset.mem_sdiff.mp hmember).1,
          fun heq => (Finset.mem_sdiff.mp hmember).2 (Finset.mem_singleton.mpr heq)⟩
      · next hnot => exact ⟨hmember, fun heq => hnot (heq ▸ hmember)⟩
    obtain ⟨user, huser, rfl⟩ := List.mem_map.mp (h.members group hgroup member hleft.1)
    exact List.mem_map_of_mem (List.mem_filter.mpr ⟨huser, decide_eq_true hleft.2⟩)

end Consistent

/-! ### Operations -/

/-- A method that keeps a directory consistent, and its entries when it
raises. -/
def Keeps {α : Type} (x : PyM (SCIMDirectory F) α) : Prop :=
  ∀ d, d.Consistent →
    (x d).2.Consistent ∧ ∀ e, (x d).1 = .error e → d.SameEntries (x d).2

theorem Keeps.map {α β : Type} {x : PyM (SCIMDirectory F) α} (h : Keeps x) (f : α → β) :
    Keeps (f <$> x) := by
  intro d hd
  obtain ⟨hconsistent, hsame⟩ := h d hd
  rcases hx : x d with ⟨e | a, d'⟩
  · rw [PyM.map_of_error hx]
    rw [hx] at hconsistent hsame
    exact ⟨hconsistent, fun _ _ => hsame e rfl⟩
  · rw [PyM.map_of_ok hx]
    rw [hx] at hconsistent
    exact ⟨hconsistent, fun _ h => by cases h⟩

theorem keeps_of_unchanged {α : Type} {x : PyM (SCIMDirectory F) α} (h : ∀ d, (x d).2 = d) :
    Keeps x := by
  intro d hd
  rw [h d]
  exact ⟨hd, fun _ _ => .refl d⟩

theorem not_blank_of_ne_nil {text : Str} (h : strip text ≠ []) : isBlank (strip text) = false :=
  Bool.eq_false_of_not_eq_true fun hblank =>
    h (strip_eq_nil_iff.mpr ((isBlank_strip text).symm.trans hblank))

/-- The user that is put back is among the others again. -/
theorem same_of_userBack {previous : SCIMUser F} (hd : d.Consistent)
    (hrow : rowAt SCIMUser.id userId d.users = some previous) :
    d.SameEntries { d with users := (d.withoutUser userId).users ++ [previous] } :=
  ⟨filter_append_perm hd.userIds hrow, .refl _⟩

theorem same_of_groupBack {previous : SCIMGroup} (hd : d.Consistent)
    (hrow : rowAt SCIMGroup.id groupId d.groups = some previous) :
    d.SameEntries { d with groups := (d.withoutGroup groupId).groups ++ [previous] } :=
  ⟨.refl _, filter_append_perm hd.groupIds hrow⟩

theorem keeps_deleteUser (userId : Str) :
    Keeps (deleteUser userId : PyM (SCIMDirectory F) Unit) := by
  intro d hd
  by_cases hthere : d.HasUser userId
  · have hdeleted : deleteUser userId d =
        (.ok (), ⟨(d.withoutUser userId).users, d.groups.map (withoutMember userId)⟩) :=
      congrFun (if_pos hthere) d
    rw [hdeleted]
    exact ⟨hd.deleteUser userId, fun _ h => by cases h⟩
  · have hmissing : deleteUser userId d = (.error (.keyError [userId]), d) :=
      congrFun (if_neg hthere) d
    rw [hmissing]
    exact ⟨hd, fun _ _ => .refl d⟩

theorem keeps_deleteGroup (groupId : Str) :
    Keeps (deleteGroup groupId : PyM (SCIMDirectory F) Unit) := by
  intro d hd
  by_cases hthere : d.HasGroup groupId
  · have hdeleted : deleteGroup groupId d = (.ok (), d.withoutGroup groupId) :=
      congrFun (if_pos hthere) d
    rw [hdeleted]
    exact ⟨hd.withoutGroup groupId, fun _ h => by cases h⟩
  · have hmissing : deleteGroup groupId d = (.error (.keyError [groupId]), d) :=
      congrFun (if_neg hthere) d
    rw [hmissing]
    exact ⟨hd, fun _ _ => .refl d⟩

theorem getUser_unchanged (userId : Str) (d : SCIMDirectory F) : (getUser userId d).2 = d := by
  rw [getUser, PyM.get_bind]
  cases rowAt SCIMUser.id userId d.users with
  | none => rfl
  | some user => rfl

theorem getGroup_unchanged (groupId : Str) (d : SCIMDirectory F) : (getGroup groupId d).2 = d := by
  rw [getGroup, PyM.get_bind]
  cases rowAt SCIMGroup.id groupId d.groups with
  | none => rfl
  | some group => rfl

theorem listUsers_unchanged (limit : Option Int) (offset : Int) (d : SCIMDirectory F) :
    (listUsers limit offset d).2 = d := by
  unfold listUsers
  cases checkPage limit offset with
  | error e => rfl
  | ok u => rfl

theorem listGroups_unchanged (limit : Option Int) (offset : Int) (d : SCIMDirectory F) :
    (listGroups limit offset d).2 = d := by
  unfold listGroups
  cases checkPage limit offset with
  | error e => rfl
  | ok u => rfl

section

variable [PyBuiltins F]

/-- A user is refused, and nothing happens; or its name is a new one. -/
theorem createUserAs_cases (p : ScimPayload F) (userId : Str) (d : SCIMDirectory F) :
    (∃ e, createUserAs p userId d = (.error e, d)) ∨
      (p.userName ≠ [] ∧ p.userName ∉ d.users.map SCIMUser.userName) := by
  by_cases hname : p.userName = []
  · exact .inl ⟨_, createUserAs_of_blank hname⟩
  by_cases hnamed : p.userName ∈ d.users.map SCIMUser.userName
  · exact .inl ⟨_, createUserAs_of_named hname hnamed⟩
  · exact .inr ⟨hname, hnamed⟩

theorem createGroupAs_cases (p : ScimPayload F) (groupId : Str) (d : SCIMDirectory F) :
    (∃ e, createGroupAs p groupId d = (.error e, d)) ∨
      (strip p.displayName ≠ [] ∧ d.KnowsMembers (textItems p.members) ∧
        strip p.displayName ∉ d.groups.map SCIMGroup.displayName) := by
  by_cases hname : strip p.displayName = []
  · exact .inl ⟨_, createGroupAs_of_blank hname⟩
  by_cases hknown : d.KnowsMembers (textItems p.members)
  · by_cases hnamed : strip p.displayName ∈ d.groups.map SCIMGroup.displayName
    · exact .inl ⟨_, createGroupAs_of_named hname hknown hnamed⟩
    · exact .inr ⟨hname, hknown, hnamed⟩
  · exact .inl ⟨_, createGroupAs_of_unknown hname hknown⟩

theorem keeps_createUserAs (p : ScimPayload F) (userId : Str) : Keeps (createUserAs p userId) := by
  intro d hd
  rcases createUserAs_cases p userId d with ⟨e, hrefused⟩ | ⟨hname, hnew⟩
  · rw [hrefused]
    exact ⟨hd, fun _ _ => .refl d⟩
  · rw [createUserAs_of_free hname hnew]
    exact ⟨hd.upsertUser (not_blank_of_ne_nil hname) hnew, fun _ h => by cases h⟩

theorem keeps_replaceUser (userId : Str) (p : ScimPayload F) : Keeps (replaceUser userId p) := by
  intro d hd
  cases hrow : rowAt SCIMUser.id userId d.users with
  | none =>
    rw [replaceUser_of_missing (rowAt_eq_none_iff.mp hrow)]
    exact ⟨hd, fun _ _ => .refl d⟩
  | some previous =>
    rcases createUserAs_cases p userId (d.withoutUser userId) with ⟨e, hrefused⟩ | ⟨hname, hnew⟩
    · rw [replaceUser_of_refused hrow hrefused]
      exact ⟨hd.of_same (same_of_userBack hd hrow), fun _ _ => same_of_userBack hd hrow⟩
    · rw [replaceUser_of_accepted hname hrow hnew]
      exact ⟨hd.replaceUser rfl (not_blank_of_ne_nil hname) hnew, fun _ h => by cases h⟩

omit [PyBuiltins F] in
/-- The members that were read are users. -/
theorem hasUser_of_known {names : List Str} (hknown : d.KnowsMembers names) :
    ∀ member ∈ names.toFinset, d.HasUser member :=
  fun member hmember => hknown member (List.mem_toFinset.mp hmember)

theorem keeps_createGroupAs (p : ScimPayload F) (groupId : Str) :
    Keeps (createGroupAs p groupId) := by
  intro d hd
  rcases createGroupAs_cases p groupId d with ⟨e, hrefused⟩ | ⟨hname, hknown, hnew⟩
  · rw [hrefused]
    exact ⟨hd, fun _ _ => .refl d⟩
  · rw [createGroupAs_of_free hname hknown hnew]
    exact ⟨hd.upsertGroup (not_blank_of_ne_nil hname) (hasUser_of_known hknown) hnew,
      fun _ h => by cases h⟩

theorem keeps_replaceGroup (groupId : Str) (p : ScimPayload F) : Keeps (replaceGroup groupId p) := by
  intro d hd
  cases hrow : rowAt SCIMGroup.id groupId d.groups with
  | none =>
    rw [replaceGroup_of_missing (rowAt_eq_none_iff.mp hrow)]
    exact ⟨hd, fun _ _ => .refl d⟩
  | some previous =>
    rcases createGroupAs_cases p groupId (d.withoutGroup groupId) with
      ⟨e, hrefused⟩ | ⟨hname, hknown, hnew⟩
    · rw [replaceGroup_of_refused hrow hrefused]
      exact ⟨hd.of_same (same_of_groupBack hd hrow), fun _ _ => same_of_groupBack hd hrow⟩
    · rw [replaceGroup_of_accepted hname hrow hknown hnew]
      have hid : (p.group groupId (textItems p.members)).id = groupId := rfl
      -- the group is put among the others as a new one is
      have hnamed : isBlank (p.group groupId (textItems p.members)).displayName = false :=
        not_blank_of_ne_nil hname
      have hkept := (hd.withoutGroup groupId).upsertGroup hnamed (hasUser_of_known hknown) hnew
      rw [upsert_withoutGroup hid] at hkept
      exact ⟨hkept, fun _ h => by cases h⟩

/-- Every operation keeps a directory consistent, and changes no entry when it
raises. -/
theorem keeps_call (op : ScimOp F) : Keeps (call op) := by
  cases op with
  | createUser p fresh => exact (keeps_createUserAs p _).map _
  | replaceUser userId p => exact (keeps_replaceUser userId p).map _
  | deleteUser userId => exact (keeps_deleteUser userId).map _
  | getUser userId => exact (keeps_of_unchanged (getUser_unchanged userId)).map _
  | listUsers limit offset => exact (keeps_of_unchanged (listUsers_unchanged limit offset)).map _
  | createGroup p fresh => exact (keeps_createGroupAs p _).map _
  | replaceGroup groupId p => exact (keeps_replaceGroup groupId p).map _
  | deleteGroup groupId => exact (keeps_deleteGroup groupId).map _
  | getGroup groupId => exact (keeps_of_unchanged (getGroup_unchanged groupId)).map _
  | listGroups limit offset => exact (keeps_of_unchanged (listGroups_unchanged limit offset)).map _

/-- The directory that a run leaves. -/
def after (ops : List (ScimOp F)) : SCIMDirectory F := ops.foldl (fun d op => (call op d).2) .empty

theorem consistent_after (ops : List (ScimOp F)) : (after ops).Consistent :=
  List.foldlRecOn ops _ Consistent.empty fun d hd op _ => (keeps_call op d hd).1

end

end SCIMDirectory

end AgentRoi
