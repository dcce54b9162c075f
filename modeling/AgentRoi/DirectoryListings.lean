/-
What `PostgresIdentityStore` finds out from its listings, which end at 500 rows.

* `firstUsers`, `firstGroups` — the rows a listing shows;
* `Refuses` — a group is refused for an unknown member;
* `createGroup_refuses_iff`, `replaceGroup_refuses_iff` — it is when a member is
  not shown;
* `principalFor_eq` — a principal has the groups that are shown;
* `listings_suffice_iff` — when members and groups beyond the listing make no
  difference.
-/
import AgentRoi.PgScimTables

namespace AgentRoi

namespace PgScimTables

open RowTable

variable {F : Type} {t : PgScimTables F} {collation : PgCollation}
  {organizationId groupId userId : Str}

/-! ### What a listing shows -/

/-- The ids `list_users(…, limit=500)` shows. -/
def firstUsers (t : PgScimTables F) (collation : PgCollation) (organizationId : Str) : List Str :=
  ((collation.sort (fun row => row.user.userName)
    (ofOrganization PgUserRow.organizationId organizationId t.users)).take 500).map
      fun row => row.user.id

/-- The rows `list_groups(…, limit=500)` shows. -/
def firstGroups (t : PgScimTables F) (collation : PgCollation) (organizationId : Str) :
    List PgGroupRow :=
  (collation.sort PgGroupRow.displayName
    (ofOrganization PgGroupRow.organizationId organizationId t.groups)).take 500

/-- The user is one of the organization. -/
def HasUser (t : PgScimTables F) (organizationId userId : Str) : Prop :=
  ∃ row ∈ t.users, row.organizationId = organizationId ∧ row.user.id = userId

theorem mem_ofOrganization {ρ : Type} {organization : ρ → Str} {rows : List ρ} {row : ρ} :
    row ∈ ofOrganization organization organizationId rows ↔
      row ∈ rows ∧ (organizationId = [] ∨ organization row = organizationId) := by
  unfold ofOrganization
  split
  · next h => simp [h]
  · next h => simp [h]

theorem mem_firstGroups {row : PgGroupRow} (h : row ∈ t.firstGroups collation organizationId) :
    row ∈ t.groups ∧ (organizationId = [] ∨ row.organizationId = organizationId) :=
  mem_ofOrganization.mp (PgCollation.sort_perm.mem_iff.mp (List.mem_of_mem_take h))

theorem listUsers_eq (h : bindOrganization organizationId = .ok ()) :
    ∃ users, listUsers collation organizationId 500 0 t = (.ok users, t) ∧
      users.map SCIMUser.id = t.firstUsers collation organizationId := by
  refine ⟨_, PyM.bind_of_ok (congrArg (·, t) h), ?_⟩
  rw [List.map_map]
  rfl

theorem listUsers_of_unbound {e : PyExc} (h : bindOrganization organizationId = .error e) :
    listUsers collation organizationId 500 0 t = (.error e, t) :=
  PyM.bind_of_error (congrArg (·, t) h)

theorem getGroup_of_row {row : PgGroupRow} (hrow : row ∈ t.groups) :
    getGroup row.id t = (.ok (t.group row), t) := by
  refine (PyM.bind_of_ok (congrArg (·, t) (t.groupTexts row hrow))).trans ?_
  rw [PyM.get_bind, rowAt_of_mem t.groupIds hrow]
  rfl

theorem getGroups_eq {rows : List PgGroupRow} (hrows : ∀ row ∈ rows, row ∈ t.groups) :
    getGroups (rows.map PgGroupRow.id) t = (.ok (rows.map t.group), t) := by
  induction rows with
  | nil => rfl
  | cons row rows ih =>
    obtain ⟨hrow, hrows⟩ := List.forall_mem_cons.mp hrows
    exact (PyM.bind_of_ok (getGroup_of_row hrow)).trans (PyM.bind_of_ok (ih hrows))

theorem listGroups_eq (h : bindOrganization organizationId = .ok ()) :
    listGroups collation organizationId 500 0 t =
      (.ok ((t.firstGroups collation organizationId).map t.group), t) := by
  refine (PyM.bind_of_ok (congrArg (·, t) h)).trans ?_
  rw [PyM.get_bind]
  exact getGroups_eq fun row hrow => (mem_firstGroups hrow).1

/-! ### Refusals -/

/-- The group is refused for a member that is not known. -/
def Refuses {α : Type} (r : Except PyExc α) : Prop :=
  ∃ rest, r = .error (.valueError (lit "SCIM group references unknown users" ++ rest))

/-- A call that refuses no group for a member. -/
def NeverRefuses {α : Type} (x : PyM (PgScimTables F) α) : Prop := ∀ t, ¬ Refuses (x t).1

theorem not_refuses_ok {α : Type} (a : α) : ¬ Refuses (.ok a : Except PyExc α) := by
  rintro ⟨rest, h⟩
  cases h

theorem neverRefuses_pure {α : Type} (a : α) : NeverRefuses (pure a : PyM (PgScimTables F) α) :=
  fun _ => not_refuses_ok a

theorem NeverRefuses.bind {α β : Type} {x : PyM (PgScimTables F) α}
    {f : α → PyM (PgScimTables F) β} (hx : NeverRefuses x) (hf : ∀ a, NeverRefuses (f a)) :
    NeverRefuses (x >>= f) := by
  intro t
  rcases h : x t with ⟨e | a, t'⟩
  · rw [PyM.bind_of_error h]
    rintro ⟨rest, hrest⟩
    have hraised : Refuses (x t).1 := by
      rw [h]
      exact ⟨rest, congrArg Except.error (Except.error.inj hrest)⟩
    exact hx t hraised
  · rw [PyM.bind_of_ok h]
    exact hf a t'

theorem neverRefuses_pgText (text : Str) :
    NeverRefuses (PyM.ofExcept (pgText text) : PyM (PgScimTables F) Unit) := by
  rintro t ⟨rest, h⟩
  replace h : pgText text = _ := h
  unfold pgText bindText at h
  split_ifs at h <;> cases h

theorem neverRefuses_insertMember (row : MemberRow) :
    NeverRefuses (insertMember row : PyM (PgScimTables F) Unit) := by
  refine (neverRefuses_pgText _).bind fun _ => (neverRefuses_pgText _).bind fun _ => ?_
  rintro t ⟨rest, h⟩
  dsimp only at h
  split at h <;> cases h

theorem neverRefuses_insertMembers (rows : List MemberRow) :
    NeverRefuses (insertMembers rows : PyM (PgScimTables F) Unit) := by
  induction rows with
  | nil => exact neverRefuses_pure ()
  | cons row rows ih => exact (neverRefuses_insertMember row).bind fun _ => ih

theorem neverRefuses_updateGroup {displayName externalId : Str} (hclean : IsClean displayName)
    (expectedRevision : Option Int) :
    NeverRefuses (updateGroup groupId displayName externalId hclean expectedRevision :
      PyM (PgScimTables F) Unit) := by
  refine (neverRefuses_pgText _).bind fun _ => (neverRefuses_pgText _).bind fun _ =>
    (neverRefuses_pgText _).bind fun _ => ?_
  rintro t ⟨rest, h⟩
  dsimp only at h
  split at h
  · -- the texts of the two errors part after "SCIM group re"
    have hchar : some 118 = some 102 := congrArg (fun text : Str => text[13]?)
      (PyExc.valueError.inj (Except.error.inj h))
    cases hchar
  · split at h <;> cases h

theorem neverRefuses_getGroup :
    NeverRefuses (getGroup groupId : PyM (PgScimTables F) SCIMGroup) := by
  refine (neverRefuses_pgText _).bind fun _ => ?_
  rintro t ⟨rest, h⟩
  rw [PyM.get_bind] at h
  cases hrow : rowAt PgGroupRow.id groupId t.groups with
  | none =>
    rw [hrow] at h
    cases h
  | some row =>
    rw [hrow] at h
    cases h

theorem NeverRefuses.transaction {α : Type} {x : PyM (PgScimTables F) α} (h : NeverRefuses x) :
    NeverRefuses (PyM.transaction x) := by
  intro t hrefuses
  refine h t ?_
  unfold PyM.transaction at hrefuses
  rcases hx : x t with ⟨e | a, t'⟩
  · rw [hx] at hrefuses
    exact hrefuses
  · rw [hx] at hrefuses
    exact hrefuses

section

variable [PyBuiltins F] {p : ScimPayload F} {parsed : ParsedGroup} {fresh : Str}

omit [PyBuiltins F] in
/-- The members that a listing does not show. -/
theorem unknown_eq_empty_iff {known : List (SCIMUser F)} {members : Finset Str} {ids : List Str}
    (hids : known.map SCIMUser.id = ids) :
    members \ (known.map SCIMUser.id).toFinset = ∅ ↔ ∀ member ∈ members, member ∈ ids := by
  rw [Finset.sdiff_eq_empty_iff_subset, hids]
  exact forall₂_congr fun _ _ => List.mem_toFinset

theorem refuses_unknownUsers {α : Type} (unknown : List Str) :
    Refuses (.error (unknownUsers F unknown) : Except PyExc α) :=
  ⟨lit ": " ++ Json.pyStr (.arr (unknown.map .str) : Json F), by
    rw [← List.append_assoc]
    rfl⟩

omit [PyBuiltins F] in
theorem not_refuses_groupExists {α : Type} (displayName : Str) :
    ¬ Refuses (.error (groupExists displayName) : Except PyExc α) := by
  rintro ⟨rest, h⟩
  -- the texts of the two errors part after "SCIM group "
  have hchar : some 97 = some 114 := congrArg (fun text : Str => text[11]?)
    (PyExc.valueError.inj (Except.error.inj h))
  cases hchar

omit [PyBuiltins F] in
/-- Whatever the database raises, the group is said to exist. -/
theorem neverRefuses_taken (x : PyM (PgScimTables F) Unit) (displayName : Str) :
    NeverRefuses (PyM.tryExcept x fun _ => .raise (groupExists displayName)) := by
  intro t
  unfold PyM.tryExcept
  rcases x t with ⟨e | u, t'⟩
  · exact not_refuses_groupExists displayName
  · exact not_refuses_ok u

/-- A group is refused when its organization can be asked for and one of the
members is not shown. -/
theorem createGroup_refuses_iff (hparsed : parseGroup p (p.id fresh) = .ok parsed) :
    Refuses (createGroup collation p organizationId fresh t).1 ↔
      bindOrganization organizationId = .ok () ∧
        ∃ member ∈ parsed.group.members, member ∉ t.firstUsers collation organizationId := by
  have hread : (PyM.ofExcept (parseGroup p (p.id fresh)) : PyM (PgScimTables F) ParsedGroup) t =
      (.ok parsed, t) := congrArg (·, t) hparsed
  cases hbound : bindOrganization organizationId with
  | error e =>
    have hraised : createGroup collation p organizationId fresh t = (.error e, t) :=
      (PyM.bind_of_ok hread).trans (PyM.bind_of_error (listUsers_of_unbound hbound))
    rw [hraised]
    -- the listing of the users raises before they are compared
    refine iff_of_false ?_ ?_
    · rintro ⟨rest, h⟩
      replace h : (Except.error e : Except PyExc SCIMGroup) = _ := h
      unfold bindOrganization at hbound
      split at hbound
      · cases hbound
      · exact neverRefuses_pgText organizationId t
          ⟨rest, hbound.trans (congrArg Except.error (Except.error.inj h))⟩
    · rintro ⟨h, -⟩
      cases h
  | ok u =>
    obtain ⟨users, hlisted, hids⟩ := listUsers_eq (t := t) hbound
    by_cases hknown : ∀ member ∈ parsed.group.members,
        member ∈ t.firstUsers collation organizationId
    · refine iff_of_false ?_ ?_
      · have hrest : createGroup collation p organizationId fresh t = (do
            PyM.transaction (.tryExcept (do
              insertGroup ⟨parsed.group.id, parsed.group.displayName, parsed.group.externalId,
                organizationId, 1⟩ parsed.name_clean
              insertMembers (ScimTables.memberRows parsed.group)) fun _ =>
                .raise (groupExists parsed.group.displayName))
            return parsed.group : PyM (PgScimTables F) SCIMGroup) t :=
          (PyM.bind_of_ok hread).trans ((PyM.bind_of_ok hlisted).trans
            (congrFun (if_neg (not_not_intro ((unknown_eq_empty_iff hids).mpr hknown))) t))
        rw [hrest]
        -- all members are shown: only the insert can raise, and it says something else
        exact (neverRefuses_taken _ _).transaction.bind (fun _ => neverRefuses_pure _) t
      · rintro ⟨-, member, hmember, hnot⟩
        exact hnot (hknown member hmember)
    · -- a member that the first page does not show is refused
      have hrefused : createGroup collation p organizationId fresh t =
          (.error (unknownUsers F (sortedTexts (parsed.group.members \
            (users.map SCIMUser.id).toFinset))), t) :=
        (PyM.bind_of_ok hread).trans ((PyM.bind_of_ok hlisted).trans
          (congrFun (if_pos ((unknown_eq_empty_iff hids).not.mpr hknown)) t))
      rw [hrefused]
      refine iff_of_true (refuses_unknownUsers _) ⟨rfl, ?_⟩
      by_contra hnone
      refine hknown fun member hmember => ?_
      by_contra hnot
      exact hnone ⟨member, hmember, hnot⟩

/-- A group that is there is refused when one of the members is not shown among
the users of all organizations. -/
theorem replaceGroup_refuses_iff {row : PgGroupRow} (hrow : row ∈ t.groups)
    (hparsed : parseGroup p row.id = .ok parsed) (expectedRevision : Option Int) :
    Refuses (replaceGroup collation row.id p expectedRevision t).1 ↔
      ∃ member ∈ parsed.group.members, member ∉ t.firstUsers collation [] := by
  have hread : (PyM.ofExcept (parseGroup p row.id) : PyM (PgScimTables F) ParsedGroup) t =
      (.ok parsed, t) := congrArg (·, t) hparsed
  obtain ⟨users, hlisted, hids⟩ := listUsers_eq (t := t)
    (show bindOrganization [] = .ok () from rfl)
  by_cases hknown : ∀ member ∈ parsed.group.members, member ∈ t.firstUsers collation []
  · refine iff_of_false ?_ ?_
    · have hrest : replaceGroup collation row.id p expectedRevision t = (do
          PyM.transaction do
            updateGroup row.id parsed.group.displayName parsed.group.externalId parsed.name_clean
              expectedRevision
            PyM.modify fun t => t.clearMembers row.id
            insertMembers (ScimTables.memberRows parsed.group)
          getGroup row.id : PyM (PgScimTables F) SCIMGroup) t :=
        (PyM.bind_of_ok hread).trans ((PyM.bind_of_ok (getGroup_of_row hrow)).trans
          ((PyM.bind_of_ok hlisted).trans
            (congrFun (if_neg (not_not_intro ((unknown_eq_empty_iff hids).mpr hknown))) t)))
      have hmodify : NeverRefuses (PyM.modify fun t : PgScimTables F => t.clearMembers row.id) :=
        fun _ => not_refuses_ok ()
      rw [hrest]
      exact ((neverRefuses_updateGroup _ _).bind fun _ => hmodify.bind fun _ =>
        neverRefuses_insertMembers _).transaction.bind (fun _ => neverRefuses_getGroup) t
    · rintro ⟨member, hmember, hnot⟩
      exact hnot (hknown member hmember)
  · have hrefused : replaceGroup collation row.id p expectedRevision t =
        (.error (.valueError (lit "SCIM group references unknown users")), t) :=
      (PyM.bind_of_ok hread).trans ((PyM.bind_of_ok (getGroup_of_row hrow)).trans
        ((PyM.bind_of_ok hlisted).trans
          (congrFun (if_pos ((unknown_eq_empty_iff hids).not.mpr hknown)) t)))
    rw [hrefused]
    refine iff_of_true ⟨[], rfl⟩ ?_
    by_contra hnone
    refine hknown fun member hmember => ?_
    by_contra hnot
    exact hnone ⟨member, hmember, hnot⟩

end

/-! ### Principals -/

theorem cleanSet_eq {values : List Str} (h : ∀ value ∈ values, isBlank value = false) :
    cleanSet values = .ok (values.map strip) := by
  induction values with
  | nil => rfl
  | cons value values ih =>
    obtain ⟨hvalue, hvalues⟩ := List.forall_mem_cons.mp h
    rw [cleanSet, hvalue, ih hvalues]
    rfl

theorem create_principal (roles groups : List Str) (hid : isBlank userId = false)
    (horganization : isBlank organizationId = false) (hroles : ∀ role ∈ roles, isBlank role = false)
    (hgroups : ∀ group ∈ groups, IsClean group) :
    ∃ principal, Principal.create userId organizationId roles groups = .ok principal ∧
      principal.roles = roles.map strip ∧ principal.groups = groups := by
  have hstripped : groups.map strip = groups :=
    (List.map_congr_left fun group hgroup => (hgroups group hgroup).2).trans (List.map_id _)
  have hcleanRoles := cleanSet_eq hroles
  have hcleanGroups := cleanSet_eq fun group hgroup => (hgroups group hgroup).1
  rw [hstripped] at hcleanGroups
  unfold Principal.create
  rw [dif_pos hid, dif_pos horganization]
  split
  · next heq =>
    rw [hcleanRoles] at heq
    cases heq
  · next cleanRoles heq =>
    split
    · next heq' =>
      rw [hcleanGroups] at heq'
      cases heq'
    · next cleanGroups heq' =>
      exact ⟨_, rfl, (Except.ok.inj (hcleanRoles.symm.trans heq)).symm,
        (Except.ok.inj (hcleanGroups.symm.trans heq')).symm⟩

/-- A group of the organization, with that name, has the user. -/
def InGroup (t : PgScimTables F) (organizationId userId name : Str) : Prop :=
  ∃ row ∈ t.groups, row.organizationId = organizationId ∧ userId ∈ t.membersOf row.id ∧
    row.displayName = name

/-- The names of the groups that a listing shows and that have the user. -/
def shownGroups (t : PgScimTables F) (collation : PgCollation) (organizationId userId : Str) :
    List Str :=
  (((t.firstGroups collation organizationId).map t.group).filter fun group =>
    userId ∈ group.members).map SCIMGroup.displayName

theorem mem_shownGroups {name : Str} : name ∈ t.shownGroups collation organizationId userId ↔
    ∃ row ∈ t.firstGroups collation organizationId, userId ∈ t.membersOf row.id ∧
      row.displayName = name := by
  simp only [shownGroups, List.mem_map, List.mem_filter, decide_eq_true_eq]
  constructor
  · rintro ⟨_, ⟨⟨row, hrow, rfl⟩, hmember⟩, rfl⟩
    exact ⟨row, hrow, hmember, rfl⟩
  · rintro ⟨row, hrow, hmember, rfl⟩
    exact ⟨t.group row, ⟨⟨row, hrow, rfl⟩, hmember⟩, rfl⟩

/-- What is shown is there. -/
theorem inGroup_of_shown {name : Str} (horganization : organizationId ≠ [])
    (h : name ∈ t.shownGroups collation organizationId userId) :
    t.InGroup organizationId userId name := by
  obtain ⟨row, hrow, hmember, hname⟩ := mem_shownGroups.mp h
  obtain ⟨hmem, hrow⟩ := mem_firstGroups hrow
  exact ⟨row, hmem, hrow.resolve_left horganization, hmember, hname⟩

/-- A principal has the groups that a listing shows. -/
theorem principalFor_eq {row : PgUserRow F} {roleMapping : Str → List Str} (hrow : row ∈ t.users)
    (hactive : row.user.active = true) (hbound : bindOrganization organizationId = .ok ()) :
    principalFor collation row.user.id organizationId roleMapping t =
      (Principal.create row.user.id organizationId
        ((t.shownGroups collation organizationId row.user.id).flatMap roleMapping)
        (t.shownGroups collation organizationId row.user.id), t) := by
  have huser : getUser row.user.id t = (.ok row.user, t) := by
    refine (PyM.bind_of_ok (congrArg (·, t) (t.userTexts row hrow))).trans ?_
    have hfound : rowAt (fun row => row.user.id) row.user.id t.users = some row :=
      rowAt_of_mem t.userIds hrow
    rw [PyM.get_bind, hfound]
    rfl
  have hinactive : ¬ row.user.active = false := by
    rw [hactive]
    exact Bool.noConfusion
  refine (PyM.bind_of_ok huser).trans ((congrFun (if_neg hinactive) t).trans ?_)
  exact PyM.bind_of_ok (listGroups_eq hbound)

/-- The principal that is returned has the groups of the user, and the roles
mapped from them. -/
def PrincipalComplete (t : PgScimTables F) (organizationId userId : Str)
    (roleMapping : Str → List Str) (r : Except PyExc Principal) : Prop :=
  ∃ principal, r = .ok principal ∧
    (∀ name, name ∈ principal.groups ↔ t.InGroup organizationId userId name) ∧
    ∀ role, role ∈ principal.roles ↔
      ∃ name, t.InGroup organizationId userId name ∧ role ∈ (roleMapping name).map strip

/-- It is returned exactly when the listing shows every group that has the
user. -/
theorem principalFor_complete_iff {row : PgUserRow F} {roleMapping : Str → List Str}
    (hrow : row ∈ t.users) (hactive : row.user.active = true) (hid : isBlank row.user.id = false)
    (horganization : isBlank organizationId = false) (hbound : pgText organizationId = .ok ())
    (hroles : ∀ name, t.InGroup organizationId row.user.id name →
      ∀ role ∈ roleMapping name, isBlank role = false) :
    t.PrincipalComplete organizationId row.user.id roleMapping
        (principalFor collation row.user.id organizationId roleMapping t).1 ↔
      ∀ group ∈ t.groups, group.organizationId = organizationId →
        row.user.id ∈ t.membersOf group.id → group ∈ t.firstGroups collation organizationId := by
  have hnonempty : organizationId ≠ [] := by
    rintro rfl
    cases horganization
  have hlisted : bindOrganization organizationId = .ok () := (if_neg hnonempty).trans hbound
  have hshown : ∀ name ∈ t.shownGroups collation organizationId row.user.id,
      t.InGroup organizationId row.user.id name := fun _ hname => inGroup_of_shown hnonempty hname
  obtain ⟨principal, hcreate, hprincipalRoles, hprincipalGroups⟩ :=
    create_principal ((t.shownGroups collation organizationId row.user.id).flatMap roleMapping)
      (t.shownGroups collation organizationId row.user.id) hid horganization
      (fun role hrole => by
        obtain ⟨name, hname, hrole⟩ := List.mem_flatMap.mp hrole
        exact hroles name (hshown name hname) role hrole)
      fun name hname => by
        obtain ⟨group, hgroup, -, -, rfl⟩ := hshown name hname
        exact t.groupNamesClean group hgroup
  rw [principalFor_eq hrow hactive hlisted]
  constructor
  · -- a group that is not shown is missing: no other one of the organization has its name
    rintro ⟨_, hok, hgroups, -⟩ group hgroup horg hmember
    obtain rfl := Except.ok.inj (hcreate.symm.trans hok)
    have hname := (hgroups group.displayName).mpr ⟨group, hgroup, horg, hmember, rfl⟩
    rw [hprincipalGroups] at hname
    obtain ⟨other, hother, -, hsame⟩ := mem_shownGroups.mp hname
    obtain ⟨hmem, hotherOrg⟩ := mem_firstGroups hother
    have hpair : (other.organizationId, other.displayName) =
        (group.organizationId, group.displayName) :=
      Prod.ext ((hotherOrg.resolve_left hnonempty).trans horg.symm) hsame
    rwa [List.inj_on_of_nodup_map t.groupNames hmem hgroup hpair] at hother
  · intro hall
    have hnames : ∀ name, name ∈ t.shownGroups collation organizationId row.user.id ↔
        t.InGroup organizationId row.user.id name := by
      refine fun name => ⟨hshown name, ?_⟩
      rintro ⟨group, hgroup, horg, hmember, rfl⟩
      exact mem_shownGroups.mpr ⟨group, hall group hgroup horg hmember, hmember, rfl⟩
    refine ⟨principal, hcreate, fun name => ?_, fun role => ?_⟩
    · rw [hprincipalGroups]
      exact hnames name
    · rw [hprincipalRoles, List.mem_map]
      constructor
      · rintro ⟨mapped, hmapped, rfl⟩
        obtain ⟨name, hname, hmapped⟩ := List.mem_flatMap.mp hmapped
        exact ⟨name, (hnames name).mp hname, List.mem_map_of_mem hmapped⟩
      · rintro ⟨name, hname, hrole⟩
        obtain ⟨mapped, hmapped, rfl⟩ := List.mem_map.mp hrole
        exact ⟨mapped, List.mem_flatMap.mpr ⟨name, (hnames name).mpr hname, hmapped⟩, rfl⟩

/-! ### Directories of any size -/

/-- The users that a listing shows stand for those of an organization, as far as
the members go. -/
def ListingServes (t : PgScimTables F) (collation : PgCollation) (organizationId listed : Str)
    (members : Finset Str) : Prop :=
  ((∃ member ∈ members, ¬ t.HasUser organizationId member) ∧
      ∃ member ∈ members, member ∉ t.firstUsers collation listed) ∨
    ((∀ member ∈ members, t.HasUser organizationId member) ∧
      ∀ member ∈ members, member ∈ t.firstUsers collation listed)

theorem exists_not_iff {α : Type} {members : Finset α} {P : α → Prop} :
    (∃ member ∈ members, ¬ P member) ↔ ¬ ∀ member ∈ members, P member := by
  push Not
  exact Iff.rfl

theorem listingServes_iff {listed : Str} {members : Finset Str} :
    t.ListingServes collation organizationId listed members ↔
      ((∃ member ∈ members, member ∉ t.firstUsers collation listed) ↔
        ∃ member ∈ members, ¬ t.HasUser organizationId member) := by
  have hunknown : (∃ member ∈ members, ¬ t.HasUser organizationId member) ↔
      ¬ ∀ member ∈ members, t.HasUser organizationId member := exists_not_iff
  have hhidden : (∃ member ∈ members, member ∉ t.firstUsers collation listed) ↔
      ¬ ∀ member ∈ members, member ∈ t.firstUsers collation listed := exists_not_iff
  unfold ListingServes
  rw [hunknown, hhidden]
  tauto

section

variable [PyBuiltins F]

/-- Groups are refused for the members that are no users, and principals have
their groups and roles, exactly where nothing that matters stands behind the
listings. -/
theorem listings_suffice_iff (t : PgScimTables F) (collation : PgCollation) :
    (∀ (p : ScimPayload F) (organizationId fresh : Str) (parsed : ParsedGroup),
      parseGroup p (p.id fresh) = .ok parsed →
      ((Refuses (createGroup collation p organizationId fresh t).1 ↔
          ∃ member ∈ parsed.group.members, ¬ t.HasUser organizationId member) ↔
        (bindOrganization organizationId = .ok () ∧
            t.ListingServes collation organizationId organizationId parsed.group.members) ∨
          (bindOrganization organizationId ≠ .ok () ∧
            ∀ member ∈ parsed.group.members, t.HasUser organizationId member))) ∧
    (∀ (p : ScimPayload F) (row : PgGroupRow) (expectedRevision : Option Int)
      (parsed : ParsedGroup), row ∈ t.groups → parseGroup p row.id = .ok parsed →
      ((Refuses (replaceGroup collation row.id p expectedRevision t).1 ↔
          ∃ member ∈ parsed.group.members, ¬ t.HasUser row.organizationId member) ↔
        t.ListingServes collation row.organizationId [] parsed.group.members)) ∧
    ∀ (row : PgUserRow F) (organizationId : Str) (roleMapping : Str → List Str), row ∈ t.users →
      row.user.active = true → isBlank row.user.id = false → isBlank organizationId = false →
      pgText organizationId = .ok () →
      (∀ name, t.InGroup organizationId row.user.id name →
        ∀ role ∈ roleMapping name, isBlank role = false) →
      (t.PrincipalComplete organizationId row.user.id roleMapping
          (principalFor collation row.user.id organizationId roleMapping t).1 ↔
        ∀ group ∈ t.groups, group.organizationId = organizationId →
          row.user.id ∈ t.membersOf group.id → group ∈ t.firstGroups collation organizationId) := by
  refine ⟨fun p organizationId fresh parsed hparsed => ?_,
    fun p row expectedRevision parsed hrow hparsed => ?_,
    fun row organizationId roleMapping hrow hactive hid horganization hbound hroles =>
      principalFor_complete_iff hrow hactive hid horganization hbound hroles⟩
  · rw [createGroup_refuses_iff hparsed]
    by_cases hbound : bindOrganization organizationId = .ok ()
    · simp only [hbound, true_and, ne_eq, not_true_eq_false, false_and, or_false]
      exact listingServes_iff.symm
    · simp only [hbound, false_and, false_or, ne_eq, not_false_eq_true, true_and, false_iff]
      rw [exists_not_iff, not_not]
  · rw [replaceGroup_refuses_iff hrow hparsed]
    exact listingServes_iff.symm

end

/-! ### A directory of 501 users -/

theorem natDigits_injective : Function.Injective natDigits :=
  Function.LeftInverse.injective ofDigits_natDigits

theorem natDigits_lt (n : ℕ) : ∀ c ∈ natDigits n, c < 58 := by
  intro c hc
  have hdigit := natDigits_all_digit n c hc
  simp only [isDigit, Bool.and_eq_true, decide_eq_true_eq] at hdigit
  omega

theorem natDigits_clean (n : ℕ) : IsClean (natDigits n) := by
  have hspace : ∀ c ∈ natDigits n, isSpace c = false := by
    intro c hc
    have hdigit := natDigits_all_digit n c hc
    simp only [isDigit, Bool.and_eq_true, decide_eq_true_eq] at hdigit
    obtain ⟨hlow, hhigh⟩ := hdigit
    interval_cases c <;> rfl
  refine ⟨?_, strip_of_forall hspace⟩
  obtain ⟨c, rest, hcons⟩ := List.exists_cons_of_ne_nil (natDigits_ne_nil n)
  have hc : isSpace c = false := hspace c (hcons ▸ List.mem_cons_self)
  rw [hcons, isBlank, List.all_cons, hc]
  rfl

theorem pgText_natDigits (n : ℕ) : pgText (natDigits n) = .ok () := by
  have hnul : 0 ∉ natDigits n := by
    intro hzero
    have hdigit := natDigits_all_digit n 0 hzero
    cases hdigit
  have hencodes : (encodeUtf8 (natDigits n)).isSome :=
    encodeUtf8_isSome_of_lt fun c hc => lt_trans (natDigits_lt n c hc) (by decide)
  rw [pgText, if_neg hnul, bindText_of_isSome hencodes]

/-- The `n`-th user, of the default organization. -/
def crowdUser (n : ℕ) : PgUserRow Half :=
  ⟨⟨natDigits n, natDigits n, true, [], [], [], []⟩, lit "default", 1⟩

def crowdGroup : PgGroupRow := ⟨lit "g", lit "team", [], lit "default", 1⟩

theorem nodup_crowd : (((List.range 501).map crowdUser).map fun row => row.user.id).Nodup := by
  rw [List.map_map]
  exact List.nodup_range.map natDigits_injective

theorem nodup_crowdNames : (((List.range 501).map crowdUser).map fun row =>
    (row.organizationId, row.user.userName)).Nodup := by
  rw [List.map_map]
  exact List.nodup_range.map fun m n h => natDigits_injective (Prod.mk.inj h).2

theorem nodup_crowdGroups : ([crowdGroup].map PgGroupRow.id).Nodup := List.nodup_singleton _

theorem nodup_crowdGroupNames :
    ([crowdGroup].map fun row => (row.organizationId, row.displayName)).Nodup :=
  List.nodup_singleton _

theorem crowd_memberGroup : ∀ row ∈ ([] : List MemberRow),
    row.groupId ∈ [crowdGroup].map PgGroupRow.id := fun _ h => absurd h List.not_mem_nil

theorem crowd_memberUser : ∀ row ∈ ([] : List MemberRow),
    row.userId ∈ ((List.range 501).map crowdUser).map fun row => row.user.id :=
  fun _ h => absurd h List.not_mem_nil

theorem crowd_userTexts : ∀ row ∈ (List.range 501).map crowdUser, pgText row.user.id = .ok () := by
  intro row hrow
  obtain ⟨n, -, rfl⟩ := List.mem_map.mp hrow
  exact pgText_natDigits n

theorem crowd_groupTexts : ∀ row ∈ [crowdGroup], pgText row.id = .ok () :=
  List.forall_mem_singleton.mpr (by decide)

theorem crowd_groupNames : ∀ row ∈ [crowdGroup], IsClean row.displayName :=
  List.forall_mem_singleton.mpr (by decide)

/-- 501 users, and a group without members. -/
def crowd : PgScimTables Half where
  users := (List.range 501).map crowdUser
  groups := [crowdGroup]
  members := []
  userIds := nodup_crowd
  userNames := nodup_crowdNames
  groupIds := nodup_crowdGroups
  groupNames := nodup_crowdGroupNames
  memberships := ScimTables.noMembers
  memberGroup := crowd_memberGroup
  memberUser := crowd_memberUser
  userTexts := crowd_userTexts
  groupTexts := crowd_groupTexts
  groupNamesClean := crowd_groupNames

theorem crowd_users : crowd.users = (List.range 501).map crowdUser := by
  simp only [crowd]

theorem mem_crowd {n : ℕ} (h : n ∈ List.range 501) : crowdUser n ∈ crowd.users := by
  rw [crowd_users]
  exact List.mem_map.mpr ⟨n, h, rfl⟩

/-- Some user is not shown. -/
theorem exists_not_shown (collation : PgCollation) :
    ∃ n, natDigits n ∉ crowd.firstUsers collation (lit "default") ∧
      crowd.HasUser (lit "default") (natDigits n) := by
  by_contra hnone
  have hall : ∀ n ∈ List.range 501, natDigits n ∈ crowd.firstUsers collation (lit "default") := by
    intro n hn
    by_contra hnot
    exact hnone ⟨n, hnot, crowdUser n, mem_crowd hn, rfl, rfl⟩
  -- 501 different ids do not fit in 500 rows
  have hsub : (List.range 501).map natDigits ⊆ crowd.firstUsers collation (lit "default") := by
    intro id hid
    obtain ⟨n, hn, rfl⟩ := List.mem_map.mp hid
    exact hall n hn
  have hle := ((List.nodup_range.map natDigits_injective).subperm hsub).length_le
  rw [List.length_map, List.length_range, firstUsers, List.length_map, List.length_take] at hle
  omega

def teamFields (n : ℕ) : List (Str × Json Half) :=
  [(lit "displayName", .str (lit "staff")), (lit "members", .arr [.str (natDigits n)])]

theorem clean_teamFields (n : ℕ) : (Json.obj (teamFields n)).Clean := by
  have hkeys : [lit "displayName", lit "members"].Nodup := by decide
  exact .obj hkeys (List.forall_mem_cons.mpr ⟨.str _,
    List.forall_mem_singleton.mpr (.arr (List.forall_mem_singleton.mpr (.str _)))⟩)

theorem joined_teamFields (n : ℕ) : (Json.obj (teamFields n)).AllJoined := by
  have hname : IsJoined (lit "displayName") := isJoined_of_lt (by decide)
  have hmembers : IsJoined (lit "members") := isJoined_of_lt (by decide)
  have hstaff : IsJoined (lit "staff") := isJoined_of_lt (by decide)
  have hdigits : IsJoined (natDigits n) :=
    isJoined_of_lt fun c hc => lt_trans (natDigits_lt n c hc) (by decide)
  refine .obj (List.forall_mem_cons.mpr ⟨hname, List.forall_mem_singleton.mpr hmembers⟩) ?_
  exact List.forall_mem_cons.mpr ⟨.str hstaff,
    List.forall_mem_singleton.mpr (.arr (List.forall_mem_singleton.mpr (.str hdigits)))⟩

/-- A group of the `n`-th user alone. -/
def teamPayload (n : ℕ) : ScimPayload Half := ⟨teamFields n, clean_teamFields n, joined_teamFields n⟩

theorem clean_staff : IsClean (lit "staff") := by decide

def team (n : ℕ) (groupId : Str) : ParsedGroup :=
  ⟨⟨groupId, lit "staff", {natDigits n}, []⟩, clean_staff⟩

theorem parseGroup_teamPayload (n : ℕ) (groupId : Str) :
    parseGroup (teamPayload n) groupId = .ok (team n groupId) := by
  have hnot : strip (lit "staff") ≠ [] := by decide
  have hname : strip (teamPayload n).displayName ≠ [] := hnot
  have hprinted : printedItem (.str (natDigits n) : Json Half) = some (natDigits n) := by
    have hblank : ¬ isBlank (natDigits n) = true := by
      rw [(natDigits_clean n).1]
      exact Bool.noConfusion
    exact (if_neg hblank).trans (congrArg some (natDigits_clean n).2)
  have hmembers : anyItems (teamPayload n).members = some [natDigits n] :=
    congrArg some ((List.filterMap_cons_some hprinted).trans rfl)
  unfold parseGroup
  rw [dif_neg hname, hmembers]
  rfl

/-- A group is refused whose only member is a user. -/
theorem crowd_refuses : ¬ ∀ (t : PgScimTables Half) (collation : PgCollation)
    (p : ScimPayload Half) (organizationId fresh : Str) (parsed : ParsedGroup),
    parseGroup p (p.id fresh) = .ok parsed →
    (Refuses (createGroup collation p organizationId fresh t).1 ↔
      ∃ member ∈ parsed.group.members, ¬ t.HasUser organizationId member) := by
  intro h
  obtain ⟨n, hhidden, hthere⟩ := exists_not_shown ⟨fun _ _ => true⟩
  have hparsed := parseGroup_teamPayload n ((teamPayload n).id (lit "g1"))
  have hrefused : Refuses (createGroup ⟨fun _ _ => true⟩ (teamPayload n) (lit "default")
      (lit "g1") crowd).1 :=
    (createGroup_refuses_iff hparsed).mpr
      ⟨by decide, natDigits n, Finset.mem_singleton_self _, hhidden⟩
  obtain ⟨member, hmember, hnot⟩ := (h _ _ _ _ _ _ hparsed).mp hrefused
  obtain rfl := Finset.mem_singleton.mp hmember
  exact hnot hthere

theorem crowd_listings :
    ((Refuses (createGroup ⟨fun _ _ => true⟩ (teamPayload 0) (lit "default") (lit "g1") crowd).1 ↔
        ∃ member ∈ (team 0 (lit "g1")).group.members, ¬ crowd.HasUser (lit "default") member) ↔
      (bindOrganization (lit "default") = .ok () ∧ crowd.ListingServes ⟨fun _ _ => true⟩
          (lit "default") (lit "default") (team 0 (lit "g1")).group.members) ∨
        (bindOrganization (lit "default") ≠ .ok () ∧
          ∀ member ∈ (team 0 (lit "g1")).group.members, crowd.HasUser (lit "default") member)) ∧
    ((Refuses (replaceGroup ⟨fun _ _ => true⟩ crowdGroup.id (teamPayload 0) none crowd).1 ↔
        ∃ member ∈ (team 0 crowdGroup.id).group.members,
          ¬ crowd.HasUser crowdGroup.organizationId member) ↔
      crowd.ListingServes ⟨fun _ _ => true⟩ crowdGroup.organizationId []
        (team 0 crowdGroup.id).group.members) ∧
    (crowd.PrincipalComplete (lit "default") (crowdUser 0).user.id (fun _ => [lit "analyst"])
        (principalFor ⟨fun _ _ => true⟩ (crowdUser 0).user.id (lit "default")
          (fun _ => [lit "analyst"]) crowd).1 ↔
      ∀ group ∈ crowd.groups, group.organizationId = lit "default" →
        (crowdUser 0).user.id ∈ crowd.membersOf group.id →
          group ∈ crowd.firstGroups ⟨fun _ _ => true⟩ (lit "default")) := by
  have hgroup : crowdGroup ∈ crowd.groups := List.mem_singleton_self _
  have hroles : ∀ name, crowd.InGroup (lit "default") (crowdUser 0).user.id name →
      ∀ role ∈ [lit "analyst"], isBlank role = false := fun _ _ => by decide
  exact ⟨(listings_suffice_iff crowd ⟨fun _ _ => true⟩).1 (teamPayload 0) (lit "default")
      (lit "g1") _ (parseGroup_teamPayload 0 _),
    (listings_suffice_iff crowd ⟨fun _ _ => true⟩).2.1 (teamPayload 0) crowdGroup none _ hgroup
      (parseGroup_teamPayload 0 _),
    (listings_suffice_iff crowd ⟨fun _ _ => true⟩).2.2 (crowdUser 0) (lit "default") _
      (mem_crowd (List.mem_range.mpr (by decide))) rfl (natDigits_clean 0).1 (by decide)
      (by decide) hroles⟩

end PgScimTables

end AgentRoi
