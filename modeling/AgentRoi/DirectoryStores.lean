/-
The two directories of the package show one view.

* `SCIMDirectory.view`, `ScimTables.view` — the view of either store;
* `ScimOp.changes` — what a call that returned changed;
* `Alters` — a method that does to the view what its result says, and nothing
  when it raises;
* `SCIMDirectory.call_alters`, `ScimTables.call_alters` — every method does.

The database keeps the users and groups of some directory, so what a statement
does to its view is what the same write does to the view of that directory.
-/
import AgentRoi.DirectoryView
import AgentRoi.ScimRoundTrip

namespace AgentRoi

open RowTable

/-! ### Rows by their keys -/

section

variable {ρ κ : Type} [DecidableEq κ] {key : ρ → κ} {rows : List ρ} {row : ρ}

theorem rowAt_upserted (hrows : (rows.map key).Nodup) :
    (fun k => rowAt key k (upsert key row rows)) =
      Function.update (fun k => rowAt key k rows) (key row) (some row) := by
  funext k
  by_cases hk : k = key row
  · subst hk
    rw [Function.update_self]
    exact rowAt_upsert_self hrows
  · rw [Function.update_of_ne hk]
    exact rowAt_upsert_of_ne fun heq => hk heq.symm

theorem rowAt_replaced (key : ρ → κ) (rows : List ρ) (row : ρ) :
    (fun k => rowAt key k ((rows.filter fun r => key r ≠ key row) ++ [row])) =
      Function.update (fun k => rowAt key k rows) (key row) (some row) := by
  funext k
  by_cases hk : k = key row
  · subst hk
    rw [Function.update_self]
    exact rowAt_append_self rowAt_filter_self
  · rw [Function.update_of_ne hk]
    exact (rowAt_append_of_ne fun heq => hk heq.symm).trans (rowAt_filter_ne hk)

theorem rowAt_removed (k₀ : κ) : (fun k => rowAt key k (rows.filter fun r => key r ≠ k₀)) =
    Function.update (fun k => rowAt key k rows) k₀ none := by
  funext k
  by_cases hk : k = k₀
  · subst hk
    rw [Function.update_self]
    exact rowAt_filter_self
  · rw [Function.update_of_ne hk]
    exact rowAt_filter_ne hk

end

/-! ### Methods and the view -/

variable {F : Type}

/-- What a call that returned changed. -/
def ScimOp.changes : ScimOp F → ScimResult F → List ScimChange
  | .createUser _ _, .user user => [.userSaved user.id user.active]
  | .replaceUser _ _, .user user => [.userSaved user.id user.active]
  | .deleteUser userId, _ => [.userRemoved userId]
  | .createGroup _ _, .group group => [.groupSaved group]
  | .replaceGroup _ _, .group group => [.groupSaved group]
  | .deleteGroup groupId, _ => [.groupRemoved groupId]
  | _, _ => []

/-- Nothing, when it raised. -/
def changesOf {α : Type} (changes : α → List ScimChange) : Except PyExc α → List ScimChange
  | .ok a => changes a
  | .error _ => []

/-- The changes save groups under clean names. -/
def NamesGroups (changes : List ScimChange) : Prop :=
  ∀ group, .groupSaved group ∈ changes → IsClean group.displayName

theorem namesGroups_nil : NamesGroups [] := fun _ h => absurd h List.not_mem_nil

theorem namesGroups_singleton {change : ScimChange}
    (h : ∀ group, change = .groupSaved group → IsClean group.displayName) :
    NamesGroups [change] := fun group hmem => h group (List.mem_singleton.mp hmem).symm

/-- The view after the changes. -/
def DirectoryView.afterAll (v : DirectoryView) (changes : List ScimChange) : DirectoryView :=
  changes.foldl DirectoryView.after v

/-- Where the invariant of a store holds, the method keeps it, and does to the
view what its result says. -/
def Alters {σ α : Type} (Holds : σ → Prop) (view : σ → DirectoryView) (changes : α → List ScimChange)
    (x : PyM σ α) : Prop :=
  ∀ s r s', Holds s → x s = (r, s') →
    Holds s' ∧ view s' = (view s).afterAll (changesOf changes r) ∧ NamesGroups (changesOf changes r)

section

variable {σ α β : Type} {Holds : σ → Prop} {view : σ → DirectoryView} {x : PyM σ α}

theorem Alters.map {f : α → β} {changes : β → List ScimChange}
    (h : Alters Holds view (fun a => changes (f a)) x) : Alters Holds view changes (f <$> x) := by
  intro s r s' hs hrun
  rcases hx : x s with ⟨e | a, t⟩
  · rw [PyM.map_of_error hx] at hrun
    cases hrun
    exact h s _ _ hs hx
  · rw [PyM.map_of_ok hx] at hrun
    cases hrun
    exact h s _ _ hs hx

/-- A method that only reads. -/
theorem alters_of_unchanged {changes : α → List ScimChange} (h : ∀ s, (x s).2 = s)
    (hnone : ∀ a, changes a = []) : Alters Holds view changes x := by
  intro s r s' hs hrun
  have hsame : s' = s := by
    rw [← h s, hrun]
  have hchanges : changesOf changes r = [] := by
    cases r with
    | error e => rfl
    | ok a => exact hnone a
  rw [hchanges, hsame]
  exact ⟨hs, rfl, namesGroups_nil⟩

end

/-! ### The dictionaries -/

namespace SCIMDirectory

variable {d d' : SCIMDirectory F} {user : SCIMUser F} {group : SCIMGroup} {userId groupId : Str}

def view (d : SCIMDirectory F) : DirectoryView where
  active userId := (rowAt SCIMUser.id userId d.users).map SCIMUser.active
  group groupId := rowAt SCIMGroup.id groupId d.groups

theorem view_ext (hactive : d.view.active = (d'.view).active) (hgroup : d.view.group = d'.view.group) :
    d.view = d'.view := by
  show DirectoryView.mk d.view.active d.view.group = DirectoryView.mk d'.view.active d'.view.group
  rw [hactive, hgroup]

/-- The order of the entries does not show. -/
theorem view_of_same (hd : d.Consistent) (hsame : d.SameEntries d') : d'.view = d.view := by
  refine view_ext (funext fun userId => ?_) (funext fun groupId => ?_)
  · exact congrArg (Option.map SCIMUser.active)
      (rowAt_eq_of_perm hd.userIds hsame.users.symm).symm
  · exact (rowAt_eq_of_perm hd.groupIds hsame.groups.symm).symm

theorem view_userSaved (husers : (fun id => rowAt SCIMUser.id id d'.users) =
      Function.update (fun id => rowAt SCIMUser.id id d.users) user.id (some user))
    (hgroups : d'.groups = d.groups) :
    d'.view = d.view.after (.userSaved user.id user.active) := by
  have hactive : d'.view.active = Function.update d.view.active user.id (some user.active) :=
    (congrArg (fun f => Option.map SCIMUser.active ∘ f) husers).trans
      (Function.comp_update _ _ _ _)
  have hgroup : d'.view.group = d.view.group :=
    congrArg (fun groups groupId => rowAt SCIMGroup.id groupId groups) hgroups
  show DirectoryView.mk d'.view.active d'.view.group = ⟨_, d.view.group⟩
  rw [hactive, hgroup]

theorem view_groupSaved (husers : d'.users = d.users)
    (hgroups : (fun id => rowAt SCIMGroup.id id d'.groups) =
      Function.update (fun id => rowAt SCIMGroup.id id d.groups) group.id (some group)) :
    d'.view = d.view.after (.groupSaved group) := by
  show DirectoryView.mk _ (fun id => rowAt SCIMGroup.id id d'.groups) = ⟨_, _⟩
  rw [hgroups, husers]
  rfl

theorem view_userRemoved (d : SCIMDirectory F) (userId : Str) :
    view ⟨d.users.filter fun user => user.id ≠ userId, d.groups.map (withoutMember userId)⟩ =
      d.view.after (.userRemoved userId) := by
  have hactive : (fun id => (rowAt SCIMUser.id id
      (d.users.filter fun user => user.id ≠ userId)).map SCIMUser.active) =
        Function.update d.view.active userId none :=
    (congrArg (fun f => Option.map SCIMUser.active ∘ f) (rowAt_removed userId)).trans
      (Function.comp_update _ _ _ _)
  have hgroup : (fun id => rowAt SCIMGroup.id id (d.groups.map (withoutMember userId))) =
      fun id => (d.view.group id).map (withoutMember userId) :=
    funext fun id => rowAt_map (withoutMember_id userId)
  show DirectoryView.mk _ _ = ⟨_, _⟩
  rw [hactive, hgroup]

theorem view_groupRemoved (d : SCIMDirectory F) (groupId : Str) :
    (d.withoutGroup groupId).view = d.view.after (.groupRemoved groupId) := by
  have hgroup : (fun id => rowAt SCIMGroup.id id
      (d.groups.filter fun group => group.id ≠ groupId)) =
        Function.update d.view.group groupId none := rowAt_removed groupId
  show DirectoryView.mk _ (fun id => rowAt SCIMGroup.id id
    (d.groups.filter fun group => group.id ≠ groupId)) = ⟨_, _⟩
  rw [hgroup]
  rfl

/-- A call that raises shows in nothing, so the ones that return are left. -/
theorem alters_of_keeps {α : Type} {x : PyM (SCIMDirectory F) α} {changes : α → List ScimChange}
    (hkeeps : Keeps x)
    (h : ∀ d a d', d.Consistent → x d = (.ok a, d') →
      d'.view = d.view.afterAll (changes a) ∧ NamesGroups (changes a)) :
    Alters Consistent view changes x := by
  intro d r d' hd hrun
  obtain ⟨hconsistent, hsame⟩ := hkeeps d hd
  rw [hrun] at hconsistent hsame
  refine ⟨hconsistent, ?_⟩
  cases r with
  | ok a => exact h d a d' hd hrun
  | error e => exact ⟨view_of_same hd (hsame e rfl), namesGroups_nil⟩

section

variable [PyBuiltins F]

theorem createUserAs_alters (p : ScimPayload F) (userId : Str) :
    Alters Consistent view (fun user => [.userSaved user.id user.active]) (createUserAs p userId) := by
  refine alters_of_keeps (keeps_createUserAs p userId) fun d user d' hd hrun => ?_
  rcases createUserAs_cases p userId d with ⟨e, hrefused⟩ | ⟨hname, hnew⟩
  · rw [hrefused] at hrun
    cases hrun
  · rw [createUserAs_of_free hname hnew] at hrun
    cases hrun
    exact ⟨view_userSaved (rowAt_upserted hd.userIds) rfl,
      namesGroups_singleton fun _ heq => by cases heq⟩

theorem replaceUser_alters (userId : Str) (p : ScimPayload F) :
    Alters Consistent view (fun user => [.userSaved user.id user.active]) (replaceUser userId p) := by
  refine alters_of_keeps (keeps_replaceUser userId p) fun d user d' hd hrun => ?_
  cases hrow : rowAt SCIMUser.id userId d.users with
  | none =>
    rw [replaceUser_of_missing (rowAt_eq_none_iff.mp hrow)] at hrun
    cases hrun
  | some previous =>
    rcases createUserAs_cases p userId (d.withoutUser userId) with ⟨e, hrefused⟩ | ⟨hname, hnew⟩
    · rw [replaceUser_of_refused hrow hrefused] at hrun
      cases hrun
    · rw [replaceUser_of_accepted hname hrow hnew] at hrun
      cases hrun
      -- the user is put where its old entry was taken out
      have husers : (fun id => rowAt SCIMUser.id id ((d.withoutUser userId).users ++
          [p.user userId (textItems p.emails)])) = Function.update
            (fun id => rowAt SCIMUser.id id d.users) userId
              (some (p.user userId (textItems p.emails))) :=
        rowAt_replaced SCIMUser.id d.users (p.user userId (textItems p.emails))
      exact ⟨view_userSaved husers rfl, namesGroups_singleton fun _ heq => by cases heq⟩

theorem createGroupAs_alters (p : ScimPayload F) (groupId : Str) :
    Alters Consistent view (fun group => [.groupSaved group]) (createGroupAs p groupId) := by
  refine alters_of_keeps (keeps_createGroupAs p groupId) fun d group d' hd hrun => ?_
  rcases createGroupAs_cases p groupId d with ⟨e, hrefused⟩ | ⟨hname, hknown, hnew⟩
  · rw [hrefused] at hrun
    cases hrun
  · rw [createGroupAs_of_free hname hknown hnew] at hrun
    cases hrun
    refine ⟨view_groupSaved rfl (rowAt_upserted hd.groupIds), namesGroups_singleton ?_⟩
    rintro _ ⟨⟩
    exact isClean_of_ne_nil hname

theorem replaceGroup_alters (groupId : Str) (p : ScimPayload F) :
    Alters Consistent view (fun group => [.groupSaved group]) (replaceGroup groupId p) := by
  refine alters_of_keeps (keeps_replaceGroup groupId p) fun d group d' hd hrun => ?_
  cases hrow : rowAt SCIMGroup.id groupId d.groups with
  | none =>
    rw [replaceGroup_of_missing (rowAt_eq_none_iff.mp hrow)] at hrun
    cases hrun
  | some previous =>
    rcases createGroupAs_cases p groupId (d.withoutGroup groupId) with
      ⟨e, hrefused⟩ | ⟨hname, hknown, hnew⟩
    · -- a replacement that is refused raises
      rw [replaceGroup_of_refused hrow hrefused] at hrun
      cases hrun
    · rw [replaceGroup_of_accepted hname hrow hknown hnew] at hrun
      cases hrun
      have hgroups : (fun id => rowAt SCIMGroup.id id ((d.withoutGroup groupId).groups ++
          [p.group groupId (textItems p.members)])) = Function.update
            (fun id => rowAt SCIMGroup.id id d.groups) groupId
              (some (p.group groupId (textItems p.members))) :=
        rowAt_replaced SCIMGroup.id d.groups (p.group groupId (textItems p.members))
      refine ⟨view_groupSaved rfl hgroups, namesGroups_singleton ?_⟩
      rintro _ ⟨⟩
      exact isClean_of_ne_nil hname

omit [PyBuiltins F] in
theorem deleteUser_alters (userId : Str) : Alters Consistent view (fun _ => [.userRemoved userId])
    (deleteUser userId : PyM (SCIMDirectory F) Unit) := by
  refine alters_of_keeps (keeps_deleteUser userId) fun d u d' _ hrun => ?_
  by_cases hthere : d.HasUser userId
  · have hdeleted : deleteUser userId d =
        (.ok (), ⟨d.users.filter fun user => user.id ≠ userId, d.groups.map (withoutMember userId)⟩) :=
      congrFun (if_pos hthere) d
    rw [hdeleted] at hrun
    cases hrun
    exact ⟨view_userRemoved d userId, namesGroups_singleton fun _ heq => by cases heq⟩
  · have hmissing : deleteUser userId d = (.error (.keyError [userId]), d) :=
      congrFun (if_neg hthere) d
    rw [hmissing] at hrun
    cases hrun

omit [PyBuiltins F] in
theorem deleteGroup_alters (groupId : Str) :
    Alters Consistent view (fun _ => [.groupRemoved groupId])
      (deleteGroup groupId : PyM (SCIMDirectory F) Unit) := by
  refine alters_of_keeps (keeps_deleteGroup groupId) fun d u d' _ hrun => ?_
  by_cases hthere : d.HasGroup groupId
  · have hdeleted : deleteGroup groupId d = (.ok (), d.withoutGroup groupId) :=
      congrFun (if_pos hthere) d
    rw [hdeleted] at hrun
    cases hrun
    exact ⟨view_groupRemoved d groupId, namesGroups_singleton fun _ heq => by cases heq⟩
  · have hmissing : deleteGroup groupId d = (.error (.keyError [groupId]), d) :=
      congrFun (if_neg hthere) d
    rw [hmissing] at hrun
    cases hrun

theorem call_alters (op : ScimOp F) : Alters Consistent view op.changes (call op) := by
  cases op with
  | createUser p fresh => exact (createUserAs_alters p _).map
  | replaceUser userId p => exact (replaceUser_alters userId p).map
  | deleteUser userId => exact Alters.map (f := fun _ => ScimResult.done) (deleteUser_alters userId)
  | getUser userId =>
    exact (alters_of_unchanged (getUser_unchanged userId) fun _ => rfl).map
  | listUsers limit offset =>
    exact (alters_of_unchanged (listUsers_unchanged limit offset) fun _ => rfl).map
  | createGroup p fresh => exact (createGroupAs_alters p _).map
  | replaceGroup groupId p => exact (replaceGroup_alters groupId p).map
  | deleteGroup groupId => exact Alters.map (f := fun _ => ScimResult.done) (deleteGroup_alters groupId)
  | getGroup groupId =>
    exact (alters_of_unchanged (getGroup_unchanged groupId) fun _ => rfl).map
  | listGroups limit offset =>
    exact (alters_of_unchanged (listGroups_unchanged limit offset) fun _ => rfl).map

end

end SCIMDirectory

/-! ### The tables -/

namespace ScimTables

variable {t t' : ScimTables F} {d : SCIMDirectory F} {userId groupId : Str}

def view (t : ScimTables F) : DirectoryView where
  active userId := (rowAt SCIMUser.id userId t.users).map SCIMUser.active
  group groupId := (rowAt GroupRow.id groupId t.groups).map t.group

/-- The tables hold some directory. -/
def Holds (t : ScimTables F) : Prop := ∃ d : SCIMDirectory F, Mirrors d t

theorem view_eq (h : Mirrors d t) : t.view = d.view := by
  have hactive : t.view.active = d.view.active := by
    funext userId
    show (rowAt SCIMUser.id userId t.users).map SCIMUser.active = _
    rw [h.rowAt_users, Option.map_map]
    rfl
  have hgroup : t.view.group = d.view.group := funext fun _ => h.rowAt_groups.symm
  show DirectoryView.mk t.view.active t.view.group = ⟨d.view.active, d.view.group⟩
  rw [hactive, hgroup]

/-- A method either raises and leaves the tables, or does what it would do to
the directory that they hold. -/
theorem alters_of_mirrors {α : Type} {x : PyM (ScimTables F) α} {changes : α → List ScimChange}
    (h : ∀ d t, Mirrors d t → (∃ e, x t = (.error e, t)) ∨
      ∃ a t' d', x t = (.ok a, t') ∧ Mirrors d' t' ∧
        d'.view = d.view.afterAll (changes a) ∧ NamesGroups (changes a)) :
    Alters Holds view changes x := by
  rintro t r t' ⟨d, hd⟩ hrun
  rcases h d t hd with ⟨e, hx⟩ | ⟨a, t₁, d', hx, hmirrors, hview, hnames⟩
  · rw [hx] at hrun
    cases hrun
    exact ⟨⟨d, hd⟩, rfl, namesGroups_nil⟩
  · rw [hx] at hrun
    cases hrun
    rw [view_eq hmirrors, view_eq hd]
    exact ⟨⟨d', hmirrors⟩, hview, hnames⟩

/-! #### Methods -/

section

variable [PyBuiltins F]

theorem createUser_alters (p : ScimPayload F) (fresh : Str) :
    Alters Holds view (fun user => [.userSaved user.id user.active]) (createUser p fresh) := by
  refine alters_of_mirrors fun d t h => ?_
  by_cases hblank : p.userName = []
  · exact .inl ⟨_, createUser_of_blank hblank⟩
  by_cases hencodes : UserEncodes (newUser p fresh)
  case neg => exact .inl ⟨_, createUser_of_unencodable hblank hencodes⟩
  by_cases hfree : rowAt SCIMUser.id (p.id fresh) t.users = none ∧
      rowAt SCIMUser.userName p.userName t.users = none
  case neg => exact .inl ⟨_, createUser_of_taken hblank hencodes hfree⟩
  obtain ⟨t', ht, husers, hgroups, hmembers⟩ :=
    createUser_of_free hblank hencodes hfree.1 hfree.2
  have hvalue : (newUser p fresh).stored = (newUser p fresh).value := SCIMUser.stored_eq_value p _
  have hnew : ¬ d.HasUser (newUser p fresh).id :=
    h.hasUser_iff.not.mpr (rowAt_eq_none_iff.mp hfree.1)
  rw [hvalue] at husers
  have hmirrors : Mirrors ⟨upsert SCIMUser.id (newUser p fresh) d.users, d.groups⟩ t' :=
    h.addUser hnew (hencodes _ List.mem_cons_self) rfl rfl husers hgroups hmembers
  exact .inr ⟨_, t', _, ht, hmirrors,
    SCIMDirectory.view_userSaved (rowAt_upserted h.nodup_userIds) rfl,
    namesGroups_singleton fun _ heq => by cases heq⟩

/-- The row is that of the user with the e-mails as they are read back. -/
theorem stored_user (p : ScimPayload F) (userId : Str) (names : List Str) :
    (p.user userId names).stored = (p.user userId (names.map joinSurrogates)).value := by
  unfold SCIMUser.stored SCIMUser.value
  simp only [ScimPayload.user]
  rw [p.readBack_attributes]

theorem replaceUser_alters (userId : Str) (p : ScimPayload F) :
    Alters Holds view (fun user => [.userSaved user.id user.active]) (replaceUser userId p) := by
  refine alters_of_mirrors fun d t h => ?_
  by_cases hid : Encodes userId
  case neg => exact .inl ⟨_, replaceUser_of_unencodable_id hid⟩
  cases hrow : rowAt SCIMUser.id userId t.users with
  | none => exact .inl ⟨_, replaceUser_of_missing hid hrow⟩
  | some row =>
    by_cases hblank : p.userName = []
    · exact .inl ⟨_, replaceUser_of_blank hid hrow hblank⟩
    cases hitems : anyItems p.emails with
    | none => exact .inl ⟨_, replaceUser_of_notIterable hid hrow hblank hitems⟩
    | some names =>
      by_cases htexts : UserEncodes (p.user userId names)
      case neg => exact .inl ⟨_, replaceUser_of_unencodable hid hrow hblank hitems htexts⟩
      by_cases hfree : ∀ other ∈ t.users, other.userName = p.userName → other.id = userId
      case neg =>
        push Not at hfree
        obtain ⟨other, hother, hname, hne⟩ := hfree
        exact .inl ⟨_, replaceUser_of_named hid hrow hblank hitems htexts hother hname hne⟩
      obtain ⟨t', ht, husers, hgroups, hmembers⟩ :=
        replaceUser_of_free hid hrow hblank hitems htexts hfree
      rw [stored_user] at husers
      have hold : d.HasUser userId := by
        rw [h.hasUser_iff, ← key_of_rowAt hrow]
        exact List.mem_map_of_mem (mem_of_rowAt hrow)
      have hmirrors : Mirrors ⟨(d.withoutUser userId).users ++
          [p.user userId (names.map joinSurrogates)], d.groups⟩ t' :=
        h.setUser hold rfl rfl husers hgroups hmembers
      have hreplaced : (fun id => rowAt SCIMUser.id id ((d.withoutUser userId).users ++
          [p.user userId (names.map joinSurrogates)])) = Function.update
            (fun id => rowAt SCIMUser.id id d.users) userId
              (some (p.user userId (names.map joinSurrogates))) :=
        rowAt_replaced SCIMUser.id d.users (p.user userId (names.map joinSurrogates))
      exact .inr ⟨_, t', _, ht, hmirrors,
        @SCIMDirectory.view_userSaved _ d _ (p.user userId (names.map joinSurrogates)) hreplaced rfl,
        namesGroups_singleton fun _ heq => by cases heq⟩

theorem createGroup_alters (p : ScimPayload F) (fresh : Str) :
    Alters Holds view (fun group => [.groupSaved group]) (createGroup p fresh) := by
  refine alters_of_mirrors fun d t h => ?_
  by_cases hblank : strip p.displayName = []
  · exact .inl ⟨_, createGroup_of_blank hblank⟩
  cases hitems : anyItems p.members with
  | none => exact .inl ⟨_, createGroup_of_notIterable hblank hitems⟩
  | some names =>
    by_cases hknown : t.KnowsMembers names
    case neg =>
      obtain ⟨unknown, hrefused⟩ : ∃ unknown, createGroup p fresh t =
          (.error (unknownUsers F unknown), t) := createGroup_of_unknown hblank hitems hknown
      exact .inl ⟨_, hrefused⟩
    by_cases hencodes : GroupEncodes (p.group (p.id fresh) names)
    case neg => exact .inl ⟨_, createGroup_of_unencodable hblank hitems hknown hencodes⟩
    by_cases hfree : rowAt GroupRow.id (p.id fresh) t.groups = none ∧
        rowAt GroupRow.displayName (strip p.displayName) t.groups = none
    case neg => exact .inl ⟨_, createGroup_of_taken hblank hitems hknown hencodes hfree⟩
    obtain ⟨t', ht, husers, hgroups, hmembers⟩ := createGroup_of_free hblank hitems hknown hencodes
      hfree.1 hfree.2 fun name hname => h.encodes_of_hasUser (h.hasUser_iff.mpr (hknown name hname))
    have hnew : ¬ d.HasGroup (p.group (p.id fresh) names).id :=
      h.hasGroup_iff.not.mpr (rowAt_eq_none_iff.mp hfree.1)
    have hmirrors : Mirrors
        ⟨d.users, upsert SCIMGroup.id (p.group (p.id fresh) names) d.groups⟩ t' :=
      h.addGroup hnew (hencodes _ List.mem_cons_self) rfl rfl husers hgroups hmembers
    refine .inr ⟨_, t', _, ht, hmirrors,
      SCIMDirectory.view_groupSaved rfl (rowAt_upserted h.nodup_groupIds), namesGroups_singleton ?_⟩
    rintro _ ⟨⟩
    exact isClean_of_ne_nil hblank

theorem replaceGroup_alters (groupId : Str) (p : ScimPayload F) :
    Alters Holds view (fun group => [.groupSaved group]) (replaceGroup groupId p) := by
  refine alters_of_mirrors fun d t h => ?_
  -- every check that fails raises; what passes all is mirrored by the dictionaries
  by_cases hid : Encodes groupId
  case neg => exact .inl ⟨_, replaceGroup_of_unencodable_id hid⟩
  cases hrow : rowAt GroupRow.id groupId t.groups with
  | none => exact .inl ⟨_, replaceGroup_of_missing hid hrow⟩
  | some row =>
    by_cases hblank : strip p.displayName = []
    · exact .inl ⟨_, replaceGroup_of_blank hid hrow hblank⟩
    cases hitems : anyItems p.members with
    | none => exact .inl ⟨_, replaceGroup_of_notIterable hid hrow hblank hitems⟩
    | some names =>
      by_cases hknown : t.KnowsMembers names
      case neg => exact .inl ⟨_, replaceGroup_of_unknown hid hrow hblank hitems hknown⟩
      by_cases htexts : GroupEncodes (p.group groupId names)
      case neg => exact .inl ⟨_, replaceGroup_of_unencodable hid hrow hblank hitems hknown htexts⟩
      by_cases hfree : ∀ other ∈ t.groups, other.displayName = strip p.displayName →
          other.id = groupId
      case neg =>
        push Not at hfree
        obtain ⟨other, hother, hname, hne⟩ := hfree
        exact .inl ⟨_, replaceGroup_of_named hid hrow hblank hitems hknown htexts hother hname hne⟩
      obtain ⟨t', ht, husers, hgroups, hmembers⟩ :=
        replaceGroup_of_free hid hrow hblank hitems hknown htexts hfree
          fun name hname => h.encodes_of_hasUser (h.hasUser_iff.mpr (hknown name hname))
      have hold : d.HasGroup groupId := by
        rw [h.hasGroup_iff, ← key_of_rowAt hrow]
        exact List.mem_map_of_mem (mem_of_rowAt hrow)
      have hset : t'.group (groupRow (p.group groupId names)) = p.group groupId names ∧
          Mirrors ⟨d.users, (d.withoutGroup groupId).groups ++ [p.group groupId names]⟩ t' :=
        h.setGroup hold rfl rfl husers hgroups hmembers
      rw [hset.1] at ht
      have hreplaced : (fun id => rowAt SCIMGroup.id id ((d.withoutGroup groupId).groups ++
          [p.group groupId names])) = Function.update
            (fun id => rowAt SCIMGroup.id id d.groups) groupId (some (p.group groupId names)) :=
        rowAt_replaced SCIMGroup.id d.groups (p.group groupId names)
      refine .inr ⟨_, t', _, ht, hset.2, SCIMDirectory.view_groupSaved rfl hreplaced,
        namesGroups_singleton ?_⟩
      rintro _ ⟨⟩
      exact isClean_of_ne_nil hblank

omit [PyBuiltins F] in
theorem deleteUser_alters (userId : Str) : Alters Holds view (fun _ => [.userRemoved userId])
    (deleteUser userId : PyM (ScimTables F) Unit) := by
  refine alters_of_mirrors fun d t h => ?_
  by_cases hencodes : Encodes userId
  case neg => exact .inl ⟨_, PyM.bind_of_error (congrArg (·, t) (if_neg hencodes))⟩
  have hbound : deleteUser userId t = (if userId ∈ t.users.map SCIMUser.id then
      PyM.set (t.removeUser userId) else PyM.raise (.keyError [userId]) : PyM _ Unit) t :=
    PyM.bind_of_ok (congrArg (·, t) (bindText_of_isSome hencodes))
  by_cases hid : userId ∈ t.users.map SCIMUser.id
  · exact .inr ⟨(), t.removeUser userId, _, hbound.trans (congrFun (if_pos hid) t), h.removeUser,
      SCIMDirectory.view_userRemoved d userId, namesGroups_singleton fun _ heq => by cases heq⟩
  · exact .inl ⟨_, hbound.trans (congrFun (if_neg hid) t)⟩

omit [PyBuiltins F] in
theorem deleteGroup_alters (groupId : Str) : Alters Holds view (fun _ => [.groupRemoved groupId])
    (deleteGroup groupId : PyM (ScimTables F) Unit) := by
  refine alters_of_mirrors fun d t h => ?_
  by_cases hencodes : Encodes groupId
  case neg => exact .inl ⟨_, PyM.bind_of_error (congrArg (·, t) (if_neg hencodes))⟩
  have hbound : deleteGroup groupId t = (if groupId ∈ t.groups.map GroupRow.id then
      PyM.set (t.removeGroup groupId) else PyM.raise (.keyError [groupId]) : PyM _ Unit) t :=
    PyM.bind_of_ok (congrArg (·, t) (bindText_of_isSome hencodes))
  by_cases hid : groupId ∈ t.groups.map GroupRow.id
  · exact .inr ⟨(), t.removeGroup groupId, _, hbound.trans (congrFun (if_pos hid) t), h.removeGroup,
      SCIMDirectory.view_groupRemoved d groupId, namesGroups_singleton fun _ heq => by cases heq⟩
  · exact .inl ⟨_, hbound.trans (congrFun (if_neg hid) t)⟩

theorem call_alters (op : ScimOp F) : Alters Holds view op.changes (call op) := by
  cases op with
  | createUser p fresh => exact (createUser_alters p fresh).map
  | replaceUser userId p => exact (replaceUser_alters userId p).map
  | deleteUser userId => exact Alters.map (f := fun _ => ScimResult.done) (deleteUser_alters userId)
  | getUser userId =>
    exact (alters_of_unchanged (getUser_unchanged userId) fun _ => rfl).map
  | listUsers limit offset =>
    exact (alters_of_unchanged (listUsers_unchanged limit offset) fun _ => rfl).map
  | createGroup p fresh => exact (createGroup_alters p fresh).map
  | replaceGroup groupId p => exact (replaceGroup_alters groupId p).map
  | deleteGroup groupId => exact Alters.map (f := fun _ => ScimResult.done) (deleteGroup_alters groupId)
  | getGroup groupId =>
    exact (alters_of_unchanged (getGroup_unchanged groupId) fun _ => rfl).map
  | listGroups limit offset =>
    exact (alters_of_unchanged (listGroups_unchanged limit offset) fun _ => rfl).map

end

end ScimTables

end AgentRoi
