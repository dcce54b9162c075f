/-
Who may do what, by the history of the directory and of the roles.

* `principalFor` — `SCIMDirectory.principal_for` and
  `SqliteIdentityStore.principal_for`;
* `Provisioned`, `Describes` — when there is a principal, and what it is, by
  the view of the directory;
* `AccessCall`, `performAccess` — calls on a directory and on the roles, in any
  order;
* `MayAccess`, `access_of_history` — the decision about the principal, by the
  changes of the calls that returned.
-/
import AgentRoi.DirectoryListings
import AgentRoi.DirectoryStores

namespace AgentRoi

open RowTable

variable {F : Type}

/-! ### Principals -/

/-- `role_mapping.get(group, ())` is `roleMapping group`. -/
def SCIMDirectory.principalFor (userId organizationId : Str) (roleMapping : Str → List Str) :
    PyM (SCIMDirectory F) Principal := do
  let user ← getUser userId
  if user.active = false then
    .raise (authenticationError (lit "SCIM user is inactive: " ++ userId)) else do
  let groups ← listGroups none 0
  let names := (groups.filter fun group => userId ∈ group.members).map SCIMGroup.displayName
  .ofExcept (Principal.create user.id organizationId (names.flatMap roleMapping) names)

def ScimTables.principalFor (userId organizationId : Str) (roleMapping : Str → List Str) :
    PyM (ScimTables F) Principal := do
  let user ← getUser userId
  if user.active = false then
    .raise (authenticationError (lit "SCIM user is inactive: " ++ userId)) else do
  let groups ← listGroups none 0
  let names := (groups.filter fun group => userId ∈ group.members).map SCIMGroup.displayName
  .ofExcept (Principal.create user.id organizationId (names.flatMap roleMapping) names)

/-- `_clean_set` returns when no value is blank. -/
theorem cleanSet_eq_ok_iff {values cleaned : List Str} : cleanSet values = .ok cleaned ↔
    (∀ value ∈ values, isBlank value = false) ∧ cleaned = values.map strip := by
  constructor
  · intro h
    have hnot : ∀ value ∈ values, isBlank value = false := by
      induction values generalizing cleaned with
      | nil => exact fun _ hmem => absurd hmem List.not_mem_nil
      | cons value values ih =>
        rw [cleanSet] at h
        split at h
        · cases h
        · next hvalue =>
          obtain ⟨rest, hrest, -⟩ := except_bind_eq_ok.mp h
          exact List.forall_mem_cons.mpr ⟨Bool.eq_false_of_not_eq_true hvalue, ih hrest⟩
    rw [PgScimTables.cleanSet_eq hnot] at h
    exact ⟨hnot, (Except.ok.inj h).symm⟩
  · rintro ⟨hnot, rfl⟩
    exact PgScimTables.cleanSet_eq hnot

/-- What the constructor checks, and what it leaves. -/
theorem create_principal_iff {subject organizationId : Str} {roles groups : List Str}
    {principal : Principal} :
    Principal.create subject organizationId roles groups = .ok principal ↔
      (isBlank subject = false ∧ isBlank organizationId = false ∧
        (∀ role ∈ roles, isBlank role = false) ∧ ∀ group ∈ groups, isBlank group = false) ∧
      principal.subject = strip subject ∧ principal.organizationId = strip organizationId ∧
        principal.roles = roles.map strip ∧ principal.groups = groups.map strip := by
  unfold Principal.create
  by_cases hsubject : isBlank subject = false
  case neg =>
    rw [dif_neg hsubject]
    exact iff_of_false (fun h => by cases h) fun h => hsubject h.1.1
  by_cases horganization : isBlank organizationId = false
  case neg =>
    rw [dif_pos hsubject, dif_neg horganization]
    exact iff_of_false (fun h => by cases h) fun h => horganization h.1.2.1
  rw [dif_pos hsubject, dif_pos horganization]
  split
  · next e heq =>
    refine iff_of_false (fun h => by cases h) fun h => ?_
    rw [PgScimTables.cleanSet_eq h.1.2.2.1] at heq
    cases heq
  · next cleanRoles hroles =>
    obtain ⟨hcleanRoles, rfl⟩ := cleanSet_eq_ok_iff.mp hroles
    split
    · next e heq =>
      refine iff_of_false (fun h => by cases h) fun h => ?_
      rw [PgScimTables.cleanSet_eq h.1.2.2.2] at heq
      cases heq
    · next cleanGroups hgroups =>
      obtain ⟨hcleanGroups, rfl⟩ := cleanSet_eq_ok_iff.mp hgroups
      constructor
      · rintro ⟨⟩
        exact ⟨⟨hsubject, horganization, hcleanRoles, hcleanGroups⟩, rfl, rfl, rfl, rfl⟩
      · rintro ⟨-, hsub, horg, hrole, hgroup⟩
        obtain ⟨sub, org, rs, gs⟩ := principal
        obtain rfl : sub = strip subject := hsub
        obtain rfl : org = strip organizationId := horg
        obtain rfl : rs = roles.map strip := hrole
        obtain rfl : gs = groups.map strip := hgroup
        rfl

/-! ### Principals by the view -/

/-- The user may be given a principal. -/
structure Provisioned (v : DirectoryView) (userId organizationId : Str)
    (roleMapping : Str → List Str) : Prop where
  active : v.active userId = some true
  subject : isBlank userId = false
  organization : isBlank organizationId = false
  roles : ∀ groupId name, v.Member userId groupId name →
    ∀ role ∈ roleMapping name, isBlank role = false

/-- The principal is the user in the groups of the view, with the roles that
they map to. -/
structure Describes (v : DirectoryView) (userId organizationId : Str)
    (roleMapping : Str → List Str) (principal : Principal) : Prop where
  subject : principal.subject = strip userId
  organizationId : principal.organizationId = strip organizationId
  groups : ∀ name, name ∈ principal.groups ↔ ∃ groupId, v.Member userId groupId name
  roles : ∀ role, role ∈ principal.roles ↔
    ∃ groupId name, v.Member userId groupId name ∧ ∃ mapped ∈ roleMapping name, strip mapped = role

/-- The outcome of `principal_for` is what the view says. -/
def Provides (v : DirectoryView) (userId organizationId : Str) (roleMapping : Str → List Str)
    (r : Except PyExc Principal) : Prop :=
  (Provisioned v userId organizationId roleMapping → ∃ principal, r = .ok principal) ∧
    ∀ principal, r = .ok principal → Provisioned v userId organizationId roleMapping ∧
      Describes v userId organizationId roleMapping principal

/-- The names of the groups are clean. -/
def DirectoryView.NamesClean (v : DirectoryView) : Prop :=
  ∀ groupId group, v.group groupId = some group → IsClean group.displayName

section

variable {v : DirectoryView} {userId organizationId : Str} {roleMapping : Str → List Str}

theorem DirectoryView.NamesClean.of_member {groupId name : Str} (h : v.NamesClean)
    (hmember : v.Member userId groupId name) : IsClean name := by
  obtain ⟨group, hgroup, -, rfl⟩ := hmember
  exact h groupId group hgroup

/-- There is no principal without an active user. -/
theorem provides_of_inactive {e : PyExc} (h : v.active userId ≠ some true) :
    Provides v userId organizationId roleMapping (.error e) :=
  ⟨fun hprovisioned => absurd hprovisioned.active h, fun _ heq => by cases heq⟩

/-- The constructor, on an active user and the names of its groups. -/
theorem provides_create {names : List Str} (hclean : v.NamesClean)
    (hactive : v.active userId = some true)
    (hnames : ∀ name, name ∈ names ↔ ∃ groupId, v.Member userId groupId name) :
    Provides v userId organizationId roleMapping
      (Principal.create userId organizationId (names.flatMap roleMapping) names) := by
  have hgroups : ∀ name ∈ names, IsClean name := fun name hname =>
    have ⟨_, hmember⟩ := (hnames name).mp hname
    hclean.of_member hmember
  have hstripped : names.map strip = names :=
    (List.map_congr_left fun name hname => (hgroups name hname).2).trans (List.map_id _)
  have hroles : (∀ role ∈ names.flatMap roleMapping, isBlank role = false) ↔
      ∀ groupId name, v.Member userId groupId name →
        ∀ role ∈ roleMapping name, isBlank role = false := by
    constructor
    · exact fun h groupId name hmember role hrole =>
        h role (List.mem_flatMap.mpr ⟨name, (hnames name).mpr ⟨groupId, hmember⟩, hrole⟩)
    · intro h role hrole
      obtain ⟨name, hname, hrole⟩ := List.mem_flatMap.mp hrole
      obtain ⟨groupId, hmember⟩ := (hnames name).mp hname
      exact h groupId name hmember role hrole
  constructor
  · intro h
    obtain ⟨principal, hcreate, -⟩ :=
      PgScimTables.create_principal (names.flatMap roleMapping) names h.subject h.organization
        (hroles.mpr h.roles) hgroups
    exact ⟨principal, hcreate⟩
  · intro principal hcreate
    obtain ⟨⟨hsubject, horganization, hnot, -⟩, hsub, horg, hrs, hgs⟩ :=
      create_principal_iff.mp hcreate
    refine ⟨⟨hactive, hsubject, horganization, hroles.mp hnot⟩, hsub, horg, fun name => ?_,
      fun role => ?_⟩
    · rw [hgs, hstripped]
      exact hnames name
    · rw [hrs, List.mem_map]
      constructor
      · rintro ⟨mapped, hmapped, rfl⟩
        obtain ⟨name, hname, hmapped⟩ := List.mem_flatMap.mp hmapped
        obtain ⟨groupId, hmember⟩ := (hnames name).mp hname
        exact ⟨groupId, name, hmember, mapped, hmapped, rfl⟩
      · rintro ⟨groupId, name, hmember, mapped, hmapped, rfl⟩
        exact ⟨mapped, List.mem_flatMap.mpr
          ⟨name, (hnames name).mpr ⟨groupId, hmember⟩, hmapped⟩, rfl⟩

/-- The names of the groups that `userId` is in, of a listing of them all. -/
theorem mem_groupNames {groups : List SCIMGroup}
    (hgroups : ∀ group, group ∈ groups ↔ ∃ groupId, v.group groupId = some group) (name : Str) :
    name ∈ (groups.filter fun group => userId ∈ group.members).map SCIMGroup.displayName ↔
      ∃ groupId, v.Member userId groupId name := by
  rw [List.mem_map]
  constructor
  · rintro ⟨group, hmem, rfl⟩
    obtain ⟨hmem, huser⟩ := List.mem_filter.mp hmem
    obtain ⟨groupId, hgroup⟩ := (hgroups group).mp hmem
    exact ⟨groupId, group, hgroup, of_decide_eq_true huser, rfl⟩
  · rintro ⟨groupId, group, hgroup, huser, rfl⟩
    exact ⟨group, List.mem_filter.mpr ⟨(hgroups group).mpr ⟨groupId, hgroup⟩,
      decide_eq_true huser⟩, rfl⟩

end

theorem SCIMDirectory.principalFor_provides {d : SCIMDirectory F} (hd : d.Consistent)
    (hclean : d.view.NamesClean) (userId organizationId : Str) (roleMapping : Str → List Str) :
    Provides d.view userId organizationId roleMapping
      (principalFor userId organizationId roleMapping d).1 := by
  cases hrow : rowAt SCIMUser.id userId d.users with
  | none =>
    have hget : getUser userId d = (.error (userNotFound userId), d) := by
      rw [getUser, PyM.get_bind, hrow]
      rfl
    rw [principalFor, PyM.bind_of_error hget]
    refine provides_of_inactive ?_
    show (rowAt SCIMUser.id userId d.users).map SCIMUser.active ≠ _
    rw [hrow]
    exact fun h => by cases h
  | some user =>
    obtain rfl : user.id = userId := key_of_rowAt hrow
    have hget : getUser user.id d = (.ok user, d) := by
      rw [getUser, PyM.get_bind, hrow]
      rfl
    have hactive : d.view.active user.id = some user.active := by
      show (rowAt SCIMUser.id user.id d.users).map SCIMUser.active = _
      rw [hrow]
      rfl
    rw [principalFor, PyM.bind_of_ok hget]
    split
    · next hinactive =>
      refine provides_of_inactive ?_
      rw [hactive, hinactive]
      exact fun h => by cases h
    · next hnot =>
      have hlist : listGroups none 0 d = (.ok (sortedOn SCIMGroup.displayName d.groups), d) := rfl
      rw [PyM.bind_of_ok hlist]
      refine provides_create hclean (hactive.trans (congrArg some ?_)) (mem_groupNames fun group => ?_)
      · exact Bool.eq_true_of_not_eq_false hnot
      · rw [mem_sortedOn]
        constructor
        · exact fun hmem => ⟨group.id, rowAt_of_mem hd.groupIds hmem⟩
        · rintro ⟨_, hgroup⟩
          exact mem_of_rowAt hgroup

theorem ScimTables.principalFor_provides {t : ScimTables F} (ht : t.Holds)
    (hclean : t.view.NamesClean) (userId organizationId : Str) (roleMapping : Str → List Str) :
    Provides t.view userId organizationId roleMapping
      (principalFor userId organizationId roleMapping t).1 := by
  obtain ⟨d, hd⟩ := ht
  cases hrow : rowAt SCIMUser.id userId t.users with
  | none =>
    -- a user that is not there gives no principal
    obtain ⟨e, hget⟩ : ∃ e, getUser userId t = (.error e, t) := by
      by_cases hencodes : Encodes userId
      · rw [getUser_of_encodes hencodes, hrow]
        exact ⟨_, rfl⟩
      · exact ⟨_, getUser_of_unencodable hencodes⟩
    rw [principalFor, PyM.bind_of_error hget]
    refine provides_of_inactive ?_
    show (rowAt SCIMUser.id userId t.users).map SCIMUser.active ≠ _
    rw [hrow]
    exact fun h => by cases h
  | some user =>
    obtain rfl : user.id = userId := key_of_rowAt hrow
    have hget : getUser user.id t = (.ok user, t) := by
      rw [getUser_of_encodes (hd.userIds user (mem_of_rowAt hrow)), hrow]
      rfl
    have hactive : t.view.active user.id = some user.active := by
      show (rowAt SCIMUser.id user.id t.users).map SCIMUser.active = _
      rw [hrow]
      rfl
    rw [principalFor, PyM.bind_of_ok hget]
    split
    · next hinactive =>
      refine provides_of_inactive ?_
      rw [hactive, hinactive]
      exact fun h => by cases h
    · next hnot =>
      -- every group is listed, so that the names are those of the groups the user is in
      have hlist : listGroups none 0 t =
          (.ok ((sortedOn GroupRow.displayName t.groups).map t.group), t) :=
        getGroups_eq hd.groupIds fun row hrow => mem_sortedOn.mp hrow
      rw [PyM.bind_of_ok hlist]
      refine provides_create hclean (hactive.trans (congrArg some ?_)) (mem_groupNames fun group => ?_)
      · exact Bool.eq_true_of_not_eq_false hnot
      · rw [List.mem_map]
        constructor
        · rintro ⟨row, hmem, rfl⟩
          refine ⟨row.id, ?_⟩
          show (rowAt GroupRow.id row.id t.groups).map t.group = _
          rw [rowAt_of_mem t.groupIds (mem_sortedOn.mp hmem)]
          rfl
        · rintro ⟨groupId, hgroup⟩
          obtain ⟨row, hrow, rfl⟩ := Option.map_eq_some_iff.mp hgroup
          exact ⟨row, mem_sortedOn.mpr (mem_of_rowAt hrow), rfl⟩

/-! ### Calls, in any order -/

/-- A directory, by its methods. -/
structure ScimStore (F : Type) where
  State : Type
  empty : State
  call : ScimOp F → PyM State (ScimResult F)
  principalFor : Str → Str → (Str → List Str) → PyM State Principal

/-- What a directory must do: its methods show in the view, and so do its
principals. -/
structure ScimStore.Shows (store : ScimStore F) (Holds : store.State → Prop)
    (view : store.State → DirectoryView) : Prop where
  empty : Holds store.empty ∧ view store.empty = .empty
  alters : ∀ op : ScimOp F, Alters Holds view op.changes (store.call op)
  provides : ∀ s userId organizationId roleMapping, Holds s → (view s).NamesClean →
    Provides (view s) userId organizationId roleMapping
      (store.principalFor userId organizationId roleMapping s).1

section

variable [PyBuiltins F]

def SCIMDirectory.store : ScimStore F := ⟨SCIMDirectory F, .empty, SCIMDirectory.call, principalFor⟩

def ScimTables.store : ScimStore F := ⟨ScimTables F, .empty, ScimTables.call, principalFor⟩

theorem SCIMDirectory.store_shows : (store : ScimStore F).Shows Consistent view where
  empty := ⟨.empty, rfl⟩
  alters := call_alters
  provides _ _ _ _ hd hclean := principalFor_provides hd hclean _ _ _

theorem ScimTables.store_shows : (store : ScimStore F).Shows Holds view where
  empty := ⟨⟨.empty, Mirrors.empty⟩, rfl⟩
  alters := call_alters
  provides _ _ _ _ ht hclean := principalFor_provides ht hclean _ _ _

/-- The directory in memory, and the one in the database of the roles. -/
inductive DirectoryKind where
  | memory
  | sqlite

def DirectoryKind.store : DirectoryKind → ScimStore F
  | .memory => SCIMDirectory.store
  | .sqlite => ScimTables.store

theorem DirectoryKind.shows (kind : DirectoryKind) :
    ∃ Holds view, (kind.store : ScimStore F).Shows Holds view := by
  cases kind with
  | memory => exact ⟨_, _, SCIMDirectory.store_shows⟩
  | sqlite => exact ⟨_, _, ScimTables.store_shows⟩

end

/-- A call on the directory, or on the roles. -/
inductive AccessCall (F : Type) where
  | directory (op : ScimOp F)
  | roles (call : RoleCall)

inductive AccessChange where
  | directory (change : ScimChange)
  | roles (change : RoleChange)

def AccessChange.directory? : AccessChange → Option ScimChange
  | .directory change => some change
  | .roles _ => none

def AccessChange.roles? : AccessChange → Option RoleChange
  | .directory _ => none
  | .roles change => some change

/-- What a history changed in the directory. -/
def directoryHistory (history : List AccessChange) : List ScimChange :=
  history.filterMap AccessChange.directory?

/-- What a history changed of the roles and bindings. -/
def roleHistory (history : List AccessChange) : List RoleChange :=
  history.filterMap AccessChange.roles?

/-- The state of a directory, and the tables of the roles. -/
structure AccessWorld (store : ScimStore F) where
  directory : store.State
  identity : IdentityTables

/-- One call; the changes, where it returned. -/
def performAccessCall (store : ScimStore F) (identity : IdentityStore) (w : AccessWorld store) :
    AccessCall F → List AccessChange × AccessWorld store
  | .directory op =>
    let (r, s) := store.call op w.directory
    ((changesOf op.changes r).map .directory, { w with directory := s })
  | .roles call =>
    match call.perform identity w.identity with
    | (.ok _, t) => ([.roles call.change], { w with identity := t })
    | (.error _, t) => ([], { w with identity := t })

/-- Calls in the order in which they are taken; the changes of those that
returned. -/
def performAccess (store : ScimStore F) (identity : IdentityStore) :
    List (AccessCall F) → AccessWorld store → List AccessChange × AccessWorld store
  | [], w => ([], w)
  | call :: calls, w =>
    let first := performAccessCall store identity w call
    let rest := performAccess store identity calls first.2
    (first.1 ++ rest.1, rest.2)

/-! ### Worlds and histories -/

/-- The world is what the history left. -/
structure Accounts (store : ScimStore F) (Holds : store.State → Prop)
    (view : store.State → DirectoryView) (history : List AccessChange) (w : AccessWorld store) :
    Prop where
  holds : Holds w.directory
  recounts : Recounts (directoryHistory history) (view w.directory)
  clean : (view w.directory).NamesClean
  reflects : Reflects (roleHistory history) w.identity

section

variable {store : ScimStore F} {Holds : store.State → Prop} {view : store.State → DirectoryView}
  {identity : IdentityStore} {history : List AccessChange} {w : AccessWorld store}

theorem directoryHistory_append (history history' : List AccessChange) :
    directoryHistory (history ++ history') = directoryHistory history ++ directoryHistory history' :=
  List.filterMap_append

theorem roleHistory_append (history history' : List AccessChange) :
    roleHistory (history ++ history') = roleHistory history ++ roleHistory history' :=
  List.filterMap_append

theorem directoryHistory_directory (changes : List ScimChange) :
    directoryHistory (changes.map .directory) = changes := by
  induction changes with
  | nil => rfl
  | cons change changes ih => exact congrArg (change :: ·) ih

theorem roleHistory_directory (changes : List ScimChange) :
    roleHistory (changes.map .directory) = [] := by
  induction changes with
  | nil => rfl
  | cons change changes ih => exact ih

theorem DirectoryView.NamesClean.after {v : DirectoryView} {change : ScimChange}
    (h : v.NamesClean) (hchange : ∀ group, change = .groupSaved group → IsClean group.displayName) :
    (v.after change).NamesClean := by
  intro groupId group hgroup
  cases change with
  | userSaved id active => exact h groupId group hgroup
  | userRemoved id =>
    obtain ⟨old, hold, rfl⟩ := Option.map_eq_some_iff.mp hgroup
    rw [SCIMDirectory.withoutMember_displayName]
    exact h groupId old hold
  | groupSaved saved =>
    have hupdate : Function.update v.group saved.id (some saved) groupId = some group := hgroup
    by_cases hid : groupId = saved.id
    · rw [hid, Function.update_self] at hupdate
      rw [← Option.some.inj hupdate]
      exact hchange saved rfl
    · rw [Function.update_of_ne hid] at hupdate
      exact h groupId group hupdate
  | groupRemoved id =>
    have hupdate : Function.update v.group id none groupId = some group := hgroup
    by_cases hid : groupId = id
    · rw [hid, Function.update_self] at hupdate
      cases hupdate
    · rw [Function.update_of_ne hid] at hupdate
      exact h groupId group hupdate

/-- The changes of one call, one after the other. -/
theorem Recounts.afterAll {log : List ScimChange} {v : DirectoryView} (h : Recounts log v)
    (hclean : v.NamesClean) {changes : List ScimChange} (hchanges : NamesGroups changes) :
    Recounts (log ++ changes) (v.afterAll changes) ∧ (v.afterAll changes).NamesClean := by
  induction changes generalizing log v with
  | nil =>
    rw [List.append_nil]
    exact ⟨h, hclean⟩
  | cons change changes ih =>
    have hfirst : (v.after change).NamesClean := by
      refine hclean.after fun group heq => hchanges group ?_
      rw [heq]
      exact List.mem_cons_self
    have hrest := ih (h.step change) hfirst
      fun group hmem => hchanges group (List.mem_cons_of_mem change hmem)
    rw [List.append_assoc] at hrest
    exact hrest

/-- One call, on the directory or on the roles. -/
theorem Accounts.step (hshows : store.Shows Holds view) (h : Accounts store Holds view history w)
    (call : AccessCall F) : Accounts store Holds view
      (history ++ (performAccessCall store identity w call).1)
      (performAccessCall store identity w call).2 := by
  obtain ⟨hholds, hrecounts, hclean, hreflects⟩ := h
  cases call with
  | directory op =>
    rcases hcall : store.call op w.directory with ⟨r, s⟩
    obtain ⟨hholds', hview, hnames⟩ := hshows.alters op _ _ _ hholds hcall
    obtain ⟨hrecounts', hclean'⟩ := hrecounts.afterAll hclean hnames
    rw [← hview] at hrecounts' hclean'
    have hperform : performAccessCall store identity w (.directory op) =
        ((changesOf op.changes r).map .directory, { w with directory := s }) := by
      rw [performAccessCall, hcall]
    rw [hperform]
    refine ⟨hholds', ?_, hclean', ?_⟩
    · rw [directoryHistory_append, directoryHistory_directory]
      exact hrecounts'
    · rw [roleHistory_append, roleHistory_directory, List.append_nil]
      exact hreflects
  | roles call =>
    rcases hcall : call.perform identity w.identity with ⟨e | u, t⟩
    · have hperform : performAccessCall store identity w (.roles call) =
          ([], { w with identity := t }) := by
        rw [performAccessCall, hcall]
      -- a call that raises leaves the tables
      obtain rfl := RoleCall.allOrNothing identity call _ _ _ hcall
      rw [hperform, List.append_nil]
      exact ⟨hholds, hrecounts, hclean, hreflects⟩
    · have hperform : performAccessCall store identity w (.roles call) =
          ([.roles call.change], { w with identity := t }) := by
        rw [performAccessCall, hcall]
      rw [hperform]
      refine ⟨hholds, ?_, hclean, ?_⟩
      · rw [directoryHistory_append]
        show Recounts (directoryHistory history ++ []) _
        rw [List.append_nil]
        exact hrecounts
      · rw [roleHistory_append]
        exact hreflects.step (RoleCall.applies hcall)

/-- A whole run, by induction on its calls. -/
theorem Accounts.run (hshows : store.Shows Holds view) {calls : List (AccessCall F)}
    (h : Accounts store Holds view history w) : Accounts store Holds view
      (history ++ (performAccess store identity calls w).1)
      (performAccess store identity calls w).2 := by
  induction calls generalizing history w with
  | nil =>
    rw [performAccess, List.append_nil]
    exact h
  | cons call calls ih =>
    have hfirst : Accounts store Holds view
        (history ++ (performAccessCall store identity w call).1)
        (performAccessCall store identity w call).2 := h.step hshows call
    have hrest := ih hfirst
    rw [List.append_assoc] at hrest
    exact hrest

theorem accounts_empty (hshows : store.Shows Holds view) :
    Accounts store Holds view [] ⟨store.empty, .empty⟩ := by
  obtain ⟨hholds, hview⟩ := hshows.empty
  refine ⟨hholds, ?_, ?_, reflects_empty⟩
  · rw [hview]
    exact recounts_empty
  · rw [hview]
    exact fun _ _ h => by cases h

end

/-! ### Decisions -/

/-- What the history lets a user do: it is active, and a role that a group of it
maps to, or that is bound to it or to a group of it, covers the action. -/
def MayAccess (history : List AccessChange) (userId organizationId : Str)
    (roleMapping : Str → List Str) (action resource environment : Str) : Prop :=
  (isBlank userId = false ∧ isBlank organizationId = false ∧
    Standing (ScimChange.Cancels userId) (directoryHistory history) (.userSaved userId true) ∧
    ∀ groupId group, Joined (directoryHistory history) userId groupId group →
      ∀ role ∈ roleMapping group, isBlank role = false) ∧
  ∃ name,
    ((∃ groupId group, Joined (directoryHistory history) userId groupId group ∧
        ∃ mapped ∈ roleMapping group, strip mapped = name) ∨
      ∃ bindingId binding,
        Standing RoleChange.Cancels (roleHistory history) (.bound bindingId binding) ∧
        binding.role = name ∧ binding.organizationId = strip organizationId ∧
        (binding.environment = lit "*" ∨ binding.environment = environment) ∧
        ((binding.subject ≠ [] ∧ binding.subject = strip userId) ∨
          (binding.group ≠ [] ∧
            ∃ groupId, Joined (directoryHistory history) userId groupId binding.group))) ∧
    ∃ role, Standing RoleChange.Cancels (roleHistory history) (.saved role) ∧ role.name = name ∧
      role.Covers action resource

section

variable {store : ScimStore F} {Holds : store.State → Prop} {view : store.State → DirectoryView}
  {history : List AccessChange} {w : AccessWorld store} {userId organizationId : Str}
  {roleMapping : Str → List Str} {action resource environment : Str}

theorem Accounts.provisioned_iff (h : Accounts store Holds view history w) :
    Provisioned (view w.directory) userId organizationId roleMapping ↔
      isBlank userId = false ∧ isBlank organizationId = false ∧
        Standing (ScimChange.Cancels userId) (directoryHistory history) (.userSaved userId true) ∧
        ∀ groupId group, Joined (directoryHistory history) userId groupId group →
          ∀ role ∈ roleMapping group, isBlank role = false := by
  have hroles : (∀ groupId group, (view w.directory).Member userId groupId group →
      ∀ role ∈ roleMapping group, isBlank role = false) ↔
        ∀ groupId group, Joined (directoryHistory history) userId groupId group →
          ∀ role ∈ roleMapping group, isBlank role = false := by
    refine forall₂_congr fun groupId group => ?_
    rw [h.recounts.member]
  constructor
  · rintro ⟨hactive, huser, horganization, hnot⟩
    exact ⟨huser, horganization, (h.recounts.active _ _).mp hactive, hroles.mp hnot⟩
  · rintro ⟨huser, horganization, hactive, hnot⟩
    exact ⟨(h.recounts.active _ _).mpr hactive, huser, horganization, hroles.mpr hnot⟩

/-- What the roles permit the principal of a user, by the history. -/
theorem Accounts.permits_iff (h : Accounts store Holds view history w) {principal : Principal}
    (hdescribes : Describes (view w.directory) userId organizationId roleMapping principal) :
    HistoryPermits (roleHistory history) principal action resource environment ↔ ∃ name,
      ((∃ groupId group, Joined (directoryHistory history) userId groupId group ∧
          ∃ mapped ∈ roleMapping group, strip mapped = name) ∨
        ∃ bindingId binding,
          Standing RoleChange.Cancels (roleHistory history) (.bound bindingId binding) ∧
          binding.role = name ∧ binding.organizationId = strip organizationId ∧
          (binding.environment = lit "*" ∨ binding.environment = environment) ∧
          ((binding.subject ≠ [] ∧ binding.subject = strip userId) ∨
            (binding.group ≠ [] ∧
              ∃ groupId, Joined (directoryHistory history) userId groupId binding.group))) ∧
      ∃ role, Standing RoleChange.Cancels (roleHistory history) (.saved role) ∧ role.name = name ∧
        role.Covers action resource := by
  refine exists_congr fun name => and_congr_left fun _ => or_congr ?_ ?_
  · rw [hdescribes.roles]
    simp only [h.recounts.member]
  · refine exists₂_congr fun bindingId binding => and_congr_right fun _ => and_congr_right fun _ => ?_
    rw [RBACAuthorizer.Binds, hdescribes.organizationId, hdescribes.subject, hdescribes.groups]
    simp only [h.recounts.member]

end

/-- After any calls on a directory and on the roles, in any order, a user is
given a principal and the principal is let through exactly when the history of
the calls that returned says so: what a user may do goes with it when it is
removed or becomes inactive, with its memberships, and with the roles. -/
theorem access_of_history [PyBuiltins F] (kind : DirectoryKind) (identity : IdentityStore)
    (calls : List (AccessCall F)) (userId organizationId : Str) (roleMapping : Str → List Str)
    (action resource environment : Str) :
    (∃ principal,
      ((kind.store : ScimStore F).principalFor userId organizationId roleMapping
        (performAccess kind.store identity calls ⟨kind.store.empty, .empty⟩).2.directory).1 =
          .ok principal ∧
      dynamicRequire
        (performAccess (kind.store : ScimStore F) identity calls ⟨kind.store.empty, .empty⟩).2.identity
          principal action resource environment = .ok ()) ↔
      MayAccess (performAccess (kind.store : ScimStore F) identity calls
        ⟨kind.store.empty, .empty⟩).1 userId organizationId roleMapping action resource
          environment := by
  obtain ⟨Holds, view, hshows⟩ := DirectoryKind.shows (F := F) kind
  have h : Accounts (kind.store : ScimStore F) Holds view
      ([] ++ (performAccess kind.store identity calls ⟨kind.store.empty, .empty⟩).1)
      (performAccess kind.store identity calls ⟨kind.store.empty, .empty⟩).2 :=
    Accounts.run hshows (accounts_empty hshows)
  rw [List.nil_append] at h
  obtain ⟨hthere, hfound⟩ := hshows.provides _ userId organizationId roleMapping h.holds h.clean
  constructor
  · rintro ⟨principal, hprincipal, hrequire⟩
    obtain ⟨hprovisioned, hdescribes⟩ := hfound principal hprincipal
    rw [dynamicRequire_eq, RBACAuthorizer.require_eq_ok, IdentityTables.authorize_eq_true,
      h.reflects.allows_iff] at hrequire
    exact ⟨h.provisioned_iff.mp hprovisioned, (h.permits_iff hdescribes).mp hrequire⟩
  · rintro ⟨hprovisioned, hpermits⟩
    obtain ⟨principal, hprincipal⟩ := hthere (h.provisioned_iff.mpr hprovisioned)
    refine ⟨principal, hprincipal, ?_⟩
    rw [dynamicRequire_eq, RBACAuthorizer.require_eq_ok, IdentityTables.authorize_eq_true,
      h.reflects.allows_iff]
    exact (h.permits_iff (hfound principal hprincipal).2).mpr hpermits

end AgentRoi
