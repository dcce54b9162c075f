/-
What a directory is for: which users are active, and which groups they are in.

* `ScimChange`, `DirectoryView` — what a call changes, and the view of it;
* `Joined` — a membership in terms of the history of the changes;
* `Recounts`, `Recounts.step` — a view that is what a history left.
-/
import AgentRoi.RoleHistory
import AgentRoi.ScimInvariants

namespace AgentRoi

open RowTable

/-! ### Changes -/

/-- What a call on a directory changes. -/
inductive ScimChange where
  | userSaved (userId : Str) (active : Bool)
  | userRemoved (userId : Str)
  | groupSaved (group : SCIMGroup)
  | groupRemoved (groupId : Str)

/-- A user is what it was saved as last, until it is removed.  A group is what
it was saved as last, until it is removed; the user `userId` is in it no longer
when it is removed itself. -/
def ScimChange.Cancels (userId : Str) : ScimChange → ScimChange → Prop
  | .userSaved id _, .userSaved id' _ => id = id'
  | .userSaved id _, .userRemoved id' => id = id'
  | .groupSaved group, .groupSaved group' => group.id = group'.id
  | .groupSaved group, .groupRemoved groupId => group.id = groupId
  | .groupSaved _, .userRemoved id => id = userId
  | _, _ => False

/-- The history leaves the user in the group, under the name. -/
def Joined (history : List ScimChange) (userId groupId name : Str) : Prop :=
  ∃ group, Standing (ScimChange.Cancels userId) history (.groupSaved group) ∧
    userId ∈ group.members ∧ group.id = groupId ∧ group.displayName = name

/-! ### The view -/

/-- Whether there is a user and it is active, and the group, for an id. -/
structure DirectoryView where
  active : Str → Option Bool
  group : Str → Option SCIMGroup

namespace DirectoryView

def empty : DirectoryView := ⟨fun _ => none, fun _ => none⟩

/-- The view after a change. -/
def after (v : DirectoryView) : ScimChange → DirectoryView
  | .userSaved userId active => { v with active := Function.update v.active userId (some active) }
  | .userRemoved userId =>
    { active := Function.update v.active userId none
      group := fun groupId => (v.group groupId).map (SCIMDirectory.withoutMember userId) }
  | .groupSaved group => { v with group := Function.update v.group group.id (some group) }
  | .groupRemoved groupId => { v with group := Function.update v.group groupId none }

/-- The user is in the group with the id, which has the name. -/
def Member (v : DirectoryView) (userId groupId name : Str) : Prop :=
  ∃ group, v.group groupId = some group ∧ userId ∈ group.members ∧ group.displayName = name

variable {v : DirectoryView} {userId groupId name : Str} {group : SCIMGroup}

theorem mem_withoutMember {userId' : Str} :
    userId' ∈ (SCIMDirectory.withoutMember userId group).members ↔
      userId' ∈ group.members ∧ userId' ≠ userId := by
  unfold SCIMDirectory.withoutMember
  split
  · rw [Finset.mem_sdiff, Finset.mem_singleton]
  · next hnot =>
    refine ⟨fun h => ⟨h, ?_⟩, And.left⟩
    rintro rfl
    exact hnot h

/-- Nobody but the user leaves the groups. -/
theorem member_userRemoved {userId' : Str} : (v.after (.userRemoved userId)).Member userId' groupId
    name ↔ v.Member userId' groupId name ∧ userId' ≠ userId := by
  have hgroup : (v.after (.userRemoved userId)).group groupId =
      (v.group groupId).map (SCIMDirectory.withoutMember userId) := rfl
  unfold Member
  rw [hgroup]
  constructor
  · rintro ⟨group', hmap, hmem, hname⟩
    obtain ⟨group, hgroup, rfl⟩ := Option.map_eq_some_iff.mp hmap
    obtain ⟨hmem, hne⟩ := mem_withoutMember.mp hmem
    rw [SCIMDirectory.withoutMember_displayName] at hname
    exact ⟨⟨group, hgroup, hmem, hname⟩, hne⟩
  · rintro ⟨⟨group, hgroup, hmem, hname⟩, hne⟩
    refine ⟨SCIMDirectory.withoutMember userId group, ?_, mem_withoutMember.mpr ⟨hmem, hne⟩, ?_⟩
    · rw [hgroup]
      rfl
    · rw [SCIMDirectory.withoutMember_displayName]
      exact hname

theorem member_groupSaved : (v.after (.groupSaved group)).Member userId groupId name ↔
    (group.id = groupId ∧ userId ∈ group.members ∧ group.displayName = name) ∨
      (group.id ≠ groupId ∧ v.Member userId groupId name) := by
  have hgroup : (v.after (.groupSaved group)).group groupId =
      Function.update v.group group.id (some group) groupId := rfl
  unfold Member
  rw [hgroup]
  by_cases hid : group.id = groupId
  · subst hid
    rw [Function.update_self]
    constructor
    · rintro ⟨group', heq, hmem, hname⟩
      obtain rfl := Option.some.inj heq
      exact .inl ⟨rfl, hmem, hname⟩
    · rintro (⟨-, hmem, hname⟩ | ⟨hne, -⟩)
      · exact ⟨group, rfl, hmem, hname⟩
      · exact absurd rfl hne
  · rw [Function.update_of_ne fun heq => hid heq.symm]
    exact ⟨fun h => .inr ⟨hid, h⟩, fun h => h.elim (fun h => absurd h.1 hid) And.right⟩

theorem member_groupRemoved {groupId' : Str} : (v.after (.groupRemoved groupId')).Member userId
    groupId name ↔ groupId' ≠ groupId ∧ v.Member userId groupId name := by
  have hgroup : (v.after (.groupRemoved groupId')).group groupId =
      Function.update v.group groupId' none groupId := rfl
  unfold Member
  rw [hgroup]
  by_cases hid : groupId' = groupId
  · subst hid
    rw [Function.update_self]
    refine iff_of_false ?_ fun h => h.1 rfl
    rintro ⟨group', heq, -⟩
    cases heq
  · rw [Function.update_of_ne fun heq => hid heq.symm]
    exact ⟨fun h => ⟨hid, h⟩, And.right⟩

end DirectoryView

/-! ### Views and histories -/

/-- The view is what the history left. -/
structure Recounts (history : List ScimChange) (v : DirectoryView) : Prop where
  active : ∀ userId active, v.active userId = some active ↔
    Standing (ScimChange.Cancels userId) history (.userSaved userId active)
  member : ∀ userId groupId name,
    v.Member userId groupId name ↔ Joined history userId groupId name

theorem recounts_empty : Recounts [] .empty where
  active _ _ := iff_of_false (fun h => by cases h) standing_nil
  member _ _ _ := iff_of_false (fun ⟨_, h, _⟩ => by cases h) fun ⟨_, h, _⟩ => standing_nil h

/-- What a change that saves no group leaves of a membership. -/
theorem joined_concat_of_ne {history : List ScimChange} {change : ScimChange}
    {userId groupId name : Str} (h : ∀ group, change ≠ .groupSaved group) :
    Joined (history ++ [change]) userId groupId name ↔
      ∃ group, (Standing (ScimChange.Cancels userId) history (.groupSaved group) ∧
        ¬ ScimChange.Cancels userId (.groupSaved group) change) ∧
          userId ∈ group.members ∧ group.id = groupId ∧ group.displayName = name := by
  refine exists_congr fun group => and_congr_left fun _ => ?_
  rw [standing_concat]
  exact ⟨fun hor => hor.elim (fun heq => absurd heq.symm (h group)) id, .inr⟩

/-- One more change, by cases on it. -/
theorem Recounts.step {history : List ScimChange} {v : DirectoryView} (h : Recounts history v)
    (change : ScimChange) : Recounts (history ++ [change]) (v.after change) := by
  obtain ⟨hactive, hmember⟩ := h
  cases change with
  | userSaved saved b =>
    refine ⟨fun userId active => ?_, fun userId groupId name => ?_⟩
    · rw [standing_concat, ← hactive]
      show Function.update v.active saved (some b) userId = some active ↔ _
      by_cases hid : userId = saved
      · subst hid
        rw [Function.update_self]
        constructor
        · exact fun heq => .inl (by rw [Option.some.inj heq])
        · rintro (heq | ⟨-, hnot⟩)
          · rw [(ScimChange.userSaved.inj heq).2]
          · exact absurd rfl hnot
      · rw [Function.update_of_ne hid]
        exact ⟨fun heq => .inr ⟨heq, hid⟩,
          fun hor => hor.elim (fun heq => absurd (ScimChange.userSaved.inj heq).1 hid) And.left⟩
    · rw [joined_concat_of_ne fun group heq => by cases heq]
      refine (hmember userId groupId name).trans (exists_congr fun group => ?_)
      exact and_congr_left fun _ => (and_iff_left id).symm
  | userRemoved removed =>
    refine ⟨fun userId active => ?_, fun userId groupId name => ?_⟩
    · rw [standing_concat, ← hactive]
      show Function.update v.active removed none userId = some active ↔ _
      by_cases hid : userId = removed
      · subst hid
        rw [Function.update_self]
        refine iff_of_false (fun heq => by cases heq) ?_
        rintro (heq | ⟨-, hnot⟩)
        · cases heq
        · exact hnot rfl
      · rw [Function.update_of_ne hid]
        exact ⟨fun heq => .inr ⟨heq, hid⟩, fun hor => hor.elim (fun heq => by cases heq) And.left⟩
    · rw [DirectoryView.member_userRemoved, joined_concat_of_ne (fun group heq => by cases heq),
        hmember]
      constructor
      · rintro ⟨⟨group, hstands, hrest⟩, hne⟩
        exact ⟨group, ⟨hstands, fun heq => hne heq.symm⟩, hrest⟩
      · rintro ⟨group, ⟨hstands, hnot⟩, hrest⟩
        exact ⟨⟨group, hstands, hrest⟩, fun heq => hnot heq.symm⟩
  | groupSaved saved =>
    refine ⟨fun userId active => ?_, fun userId groupId name => ?_⟩
    · rw [standing_concat, ← hactive]
      exact ⟨fun heq => .inr ⟨heq, id⟩, fun hor => hor.elim (fun heq => by cases heq) And.left⟩
    · rw [DirectoryView.member_groupSaved, hmember]
      constructor
      · rintro (⟨hid, hmem, hname⟩ | ⟨hne, group, hstands, hmem, hid, hname⟩)
        · exact ⟨saved, standing_concat.mpr (.inl rfl), hmem, hid, hname⟩
        · refine ⟨group, standing_concat.mpr (.inr ⟨hstands, fun heq => ?_⟩), hmem, hid, hname⟩
          exact hne (heq.symm.trans hid)
      · rintro ⟨group, hstands, hmem, hid, hname⟩
        rcases standing_concat.mp hstands with heq | ⟨hstands, hnot⟩
        · obtain rfl := ScimChange.groupSaved.inj heq
          exact .inl ⟨hid, hmem, hname⟩
        · exact .inr ⟨fun heq => hnot (hid.trans heq.symm), group, hstands, hmem, hid, hname⟩
  | groupRemoved removed =>
    refine ⟨fun userId active => ?_, fun userId groupId name => ?_⟩
    · rw [standing_concat, ← hactive]
      exact ⟨fun heq => .inr ⟨heq, fun hfalse => hfalse⟩,
        fun hor => hor.elim (fun heq => by cases heq) And.left⟩
    · rw [DirectoryView.member_groupRemoved, joined_concat_of_ne (fun group heq => by cases heq),
        hmember]
      constructor
      · rintro ⟨hne, group, hstands, hmem, hid, hname⟩
        exact ⟨group, ⟨hstands, fun heq => hne (heq.symm.trans hid)⟩, hmem, hid, hname⟩
      · rintro ⟨group, ⟨hstands, hnot⟩, hmem, hid, hname⟩
        exact ⟨fun heq => hnot (hid.trans heq.symm), group, hstands, hmem, hid, hname⟩

end AgentRoi
