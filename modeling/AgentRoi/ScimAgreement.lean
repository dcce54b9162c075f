/-
`SCIMDirectory` and `SqliteIdentityStore`, given the same operations.

* `ScimOp`, `SCIMDirectory.call`, `ScimTables.call` — the operations;
* `Alike` — equal results, or exceptions of one of the classes the API knows;
* `Fits` — what an operation must be, given the directory it finds, for the
  stores to agree on it;
* `createUser_step` and the like — each operation on two stores that mirror
  each other;
* `stores_agree_iff` — two empty stores agree on a run exactly when every
  operation of it fits.
-/
import AgentRoi.Lockstep
import AgentRoi.ScimMirror

namespace AgentRoi

open RowTable Lockstep

variable {F : Type}

/-- `fresh` is what `str(uuid.uuid4())` yields. -/
inductive ScimOp (F : Type) where
  | createUser (p : ScimPayload F) (fresh : Str)
  | replaceUser (userId : Str) (p : ScimPayload F)
  | deleteUser (userId : Str)
  | getUser (userId : Str)
  | listUsers (limit : Option Int) (offset : Int)
  | createGroup (p : ScimPayload F) (fresh : Str)
  | replaceGroup (groupId : Str) (p : ScimPayload F)
  | deleteGroup (groupId : Str)
  | getGroup (groupId : Str)
  | listGroups (limit : Option Int) (offset : Int)

inductive ScimResult (F : Type) where
  | user (user : SCIMUser F)
  | users (users : List (SCIMUser F))
  | group (group : SCIMGroup)
  | groups (groups : List SCIMGroup)
  | done

/-- The result as Python compares it. -/
def ScimResult.value : ScimResult F → ScimResult F
  | .user found => .user found.value
  | .users found => .users (found.map SCIMUser.value)
  | result => result

/-- The classes the API has a status for. -/
def isKeyOrValueError : PyExc → Bool
  | .keyError _ => true
  | .valueError _ => true
  | _ => false

/-- Equal results, or the same class out of `KeyError` and `ValueError`. -/
def Alike : Except PyExc (ScimResult F) → Except PyExc (ScimResult F) → Prop
  | .ok a, .ok b => a.value = b.value
  | .error (.keyError _), .error (.keyError _) => True
  | .error (.valueError _), .error (.valueError _) => True
  | _, _ => False

section

variable [PyBuiltins F]

def SCIMDirectory.call : ScimOp F → PyM (SCIMDirectory F) (ScimResult F)
  | .createUser p fresh => .user <$> createUser p fresh
  | .replaceUser userId p => .user <$> replaceUser userId p
  | .deleteUser userId => (fun _ => .done) <$> deleteUser userId
  | .getUser userId => .user <$> getUser userId
  | .listUsers limit offset => .users <$> listUsers limit offset
  | .createGroup p fresh => .group <$> createGroup p fresh
  | .replaceGroup groupId p => .group <$> replaceGroup groupId p
  | .deleteGroup groupId => (fun _ => .done) <$> deleteGroup groupId
  | .getGroup groupId => .group <$> getGroup groupId
  | .listGroups limit offset => .groups <$> listGroups limit offset

def ScimTables.call : ScimOp F → PyM (ScimTables F) (ScimResult F)
  | .createUser p fresh => .user <$> createUser p fresh
  | .replaceUser userId p => .user <$> replaceUser userId p
  | .deleteUser userId => (fun _ => .done) <$> deleteUser userId
  | .getUser userId => .user <$> getUser userId
  | .listUsers limit offset => .users <$> listUsers limit offset
  | .createGroup p fresh => .group <$> createGroup p fresh
  | .replaceGroup groupId p => .group <$> replaceGroup groupId p
  | .deleteGroup groupId => (fun _ => .done) <$> deleteGroup groupId
  | .getGroup groupId => .group <$> getGroup groupId
  | .listGroups limit offset => .groups <$> listGroups limit offset

/-! ### When the stores agree -/

namespace SCIMDirectory

/-- The texts of a payload's user can be stored, under the id. -/
def UserFits (p : ScimPayload F) (userId : Str) : Prop := ScimTables.UserEncodes (p.user userId [])

def GroupFits (p : ScimPayload F) (groupId : Str) : Prop :=
  ScimTables.GroupEncodes (p.group groupId [])

/-- What an operation must be, given the directory it finds, for the stores to
agree on it. -/
def Fits (d : SCIMDirectory F) : ScimOp F → Prop
  | .createUser p fresh => p.userName = [] ∨
      (UserFits p (p.id fresh) ∧ (d.UserNamed p.userName ∨ ¬ d.HasUser (p.id fresh)))
  | .replaceUser userId p => ScimTables.Encodes userId ∧ (d.HasUser userId → p.userName = [] ∨
      (OnlyTexts p.emails ∧ UserFits p userId ∧ ¬ d.OtherUserNamed userId p.userName))
  | .createGroup p fresh => strip p.displayName = [] ∨ ∃ names, anyItems p.members = some names ∧
      (¬ d.KnowsMembers (textItems p.members) ∨
        (d.GroupNamed (strip p.displayName) ∧
          (¬ d.KnowsMembers names ∨ GroupFits p (p.id fresh))) ∨
        (¬ d.GroupNamed (strip p.displayName) ∧ (∀ name ∈ names, name ∈ textItems p.members) ∧
          GroupFits p (p.id fresh) ∧ ¬ d.HasGroup (p.id fresh)))
  | .replaceGroup groupId p => ScimTables.Encodes groupId ∧ (d.HasGroup groupId →
      strip p.displayName = [] ∨ ∃ names, anyItems p.members = some names ∧
        (¬ d.KnowsMembers (textItems p.members) ∨
          (d.OtherGroupNamed groupId (strip p.displayName) ∧ ¬ d.KnowsMembers names) ∨
          (¬ d.OtherGroupNamed groupId (strip p.displayName) ∧
            (∀ name ∈ names, name ∈ textItems p.members) ∧ GroupFits p groupId)))
  | .deleteUser id | .getUser id | .deleteGroup id | .getGroup id => ScimTables.Encodes id
  | .listUsers limit offset | .listGroups limit offset =>
      offset < 0 ∨ (∃ n ∈ limit, n < 1) ∨ offset < 2 ^ 63

end SCIMDirectory

end

/-! ### One operation -/

section

variable {fits : Prop} {x : Except PyExc (ScimResult F) × SCIMDirectory F}
  {y : Except PyExc (ScimResult F) × ScimTables F} {d d' : SCIMDirectory F} {t t' : ScimTables F}

theorem step_ok {a b : ScimResult F} (hx : x = (.ok a, d')) (hy : y = (.ok b, t')) (hfits : fits)
    (hvalue : a.value = b.value) (h : Mirrors d' t') : Step Mirrors Alike fits x y := by
  subst hx hy
  exact ⟨iff_of_true hvalue hfits, fun _ => h⟩

theorem step_keyError {key key' : List Str} (hx : x = (.error (.keyError key), d'))
    (hy : y = (.error (.keyError key'), t')) (hfits : fits) (h : Mirrors d' t') :
    Step Mirrors Alike fits x y := by
  subst hx hy
  exact ⟨iff_of_true trivial hfits, fun _ => h⟩

theorem step_valueError {message message' : Str} (hx : x = (.error (.valueError message), d'))
    (hy : y = (.error (.valueError message'), t')) (hfits : fits) (h : Mirrors d' t') :
    Step Mirrors Alike fits x y := by
  subst hx hy
  exact ⟨iff_of_true trivial hfits, fun _ => h⟩

/-- The stores do not agree. -/
theorem step_apart {r r' : Except PyExc (ScimResult F)} (hx : x = (r, d')) (hy : y = (r', t'))
    (hnot : ¬ fits) (hapart : ¬ Alike r r') : Step Mirrors Alike fits x y := by
  subst hx hy
  exact ⟨iff_of_false hapart hnot, fun h => absurd h hnot⟩

variable [PyBuiltins F] {p : ScimPayload F} {userId groupId fresh : Str}

theorem createUser_step (h : Mirrors d t) : Step Mirrors Alike (d.Fits (.createUser p fresh))
    (SCIMDirectory.call (.createUser p fresh) d) (ScimTables.call (.createUser p fresh) t) := by
  by_cases hblank : p.userName = []
  · exact step_valueError (PyM.map_of_error (SCIMDirectory.createUserAs_of_blank hblank))
      (PyM.map_of_error (ScimTables.createUser_of_blank hblank)) (.inl hblank) h
  by_cases hnamed : d.UserNamed p.userName
  · have hd : SCIMDirectory.createUserAs p (p.id fresh) d = _ :=
      SCIMDirectory.createUserAs_of_named hblank hnamed
    by_cases hencodes : SCIMDirectory.UserFits p (p.id fresh)
    · have htaken : ¬ (rowAt SCIMUser.id (p.id fresh) t.users = none ∧
          rowAt SCIMUser.userName p.userName t.users = none) :=
        fun hfree => rowAt_eq_none_iff.mp hfree.2 (h.userNamed_iff.mp hnamed)
      exact step_valueError (PyM.map_of_error hd)
        (PyM.map_of_error (ScimTables.createUser_of_taken hblank hencodes htaken))
        (.inr ⟨hencodes, .inl hnamed⟩) h
    · refine step_apart (PyM.map_of_error hd)
        (PyM.map_of_error (ScimTables.createUser_of_unencodable hblank hencodes)) ?_ id
      rintro (hfits | hfits)
      · exact hblank hfits
      · exact hencodes hfits.1
  · have hd : SCIMDirectory.createUserAs p (p.id fresh) d = _ :=
      SCIMDirectory.createUserAs_of_free hblank hnamed
    by_cases hencodes : SCIMDirectory.UserFits p (p.id fresh)
    · by_cases hid : d.HasUser (p.id fresh)
      · -- the directory overwrites the user, the database refuses the key
        have htaken : ¬ (rowAt SCIMUser.id (p.id fresh) t.users = none ∧
            rowAt SCIMUser.userName p.userName t.users = none) :=
          fun hfree => rowAt_eq_none_iff.mp hfree.1 (h.hasUser_iff.mp hid)
        refine step_apart (PyM.map_of_ok hd)
          (PyM.map_of_error (ScimTables.createUser_of_taken hblank hencodes htaken)) ?_ id
        rintro (hfits | ⟨-, hfits⟩)
        · exact hblank hfits
        · exact hfits.elim hnamed fun hnew => hnew hid
      · obtain ⟨t', ht, husers, hgroups, hmembers⟩ := ScimTables.createUser_of_free hblank hencodes
          (rowAt_eq_none_iff.mpr (h.hasUser_iff.not.mp hid))
          (rowAt_eq_none_iff.mpr (h.userNamed_iff.not.mp hnamed))
        have hnew : ¬ d.HasUser (ScimTables.newUser p fresh).id := hid
        have hstored : ScimTables.Encodes (ScimTables.newUser p fresh).id :=
          hencodes _ List.mem_cons_self
        have hvalue : (ScimTables.newUser p fresh).stored = (ScimTables.newUser p fresh).value :=
          SCIMUser.stored_eq_value p _
        rw [hvalue] at husers
        exact step_ok (PyM.map_of_ok hd) (PyM.map_of_ok ht) (.inr ⟨hencodes, .inr hid⟩) rfl
          (h.addUser hnew hstored rfl rfl husers hgroups hmembers)
    · refine step_apart (PyM.map_of_ok hd)
        (PyM.map_of_error (ScimTables.createUser_of_unencodable hblank hencodes)) ?_ id
      rintro (hfits | hfits)
      · exact hblank hfits
      · exact hencodes hfits.1

theorem deleteUser_step (h : Mirrors d t) : Step Mirrors Alike (d.Fits (.deleteUser userId))
    (SCIMDirectory.call (.deleteUser userId) d) (ScimTables.call (.deleteUser userId) t) := by
  by_cases hencodes : ScimTables.Encodes userId
  · have hbound : ScimTables.deleteUser userId t = (if userId ∈ t.users.map SCIMUser.id then
        PyM.set (t.removeUser userId) else PyM.raise (.keyError [userId]) : PyM _ Unit) t :=
      PyM.bind_of_ok (congrArg (·, t) (bindText_of_isSome hencodes))
    by_cases hid : d.HasUser userId
    · have hd : SCIMDirectory.deleteUser userId d = _ := congrFun (if_pos hid) d
      exact step_ok (PyM.map_of_ok hd)
        (PyM.map_of_ok (hbound.trans (congrFun (if_pos (h.hasUser_iff.mp hid)) t))) hencodes rfl
        h.removeUser
    · have hd : SCIMDirectory.deleteUser userId d = _ := congrFun (if_neg hid) d
      exact step_keyError (PyM.map_of_error hd)
        (PyM.map_of_error (hbound.trans (congrFun (if_neg (h.hasUser_iff.not.mp hid)) t)))
        hencodes h
  · -- nothing that cannot be stored is in the directory
    have hd : SCIMDirectory.deleteUser userId d = _ :=
      congrFun (if_neg fun hid => hencodes (h.encodes_of_hasUser hid)) d
    have ht : ScimTables.deleteUser userId t = (.error .unicodeEncodeError, t) :=
      PyM.bind_of_error (congrArg (·, t) (if_neg hencodes))
    exact step_apart (PyM.map_of_error hd) (PyM.map_of_error ht) hencodes id

theorem deleteGroup_step (h : Mirrors d t) : Step Mirrors Alike (d.Fits (.deleteGroup groupId))
    (SCIMDirectory.call (.deleteGroup groupId) d) (ScimTables.call (.deleteGroup groupId) t) := by
  by_cases hencodes : ScimTables.Encodes groupId
  · have hbound : ScimTables.deleteGroup groupId t = (if groupId ∈ t.groups.map GroupRow.id then
        PyM.set (t.removeGroup groupId) else PyM.raise (.keyError [groupId]) : PyM _ Unit) t :=
      PyM.bind_of_ok (congrArg (·, t) (bindText_of_isSome hencodes))
    by_cases hid : d.HasGroup groupId
    · have hd : SCIMDirectory.deleteGroup groupId d = _ := congrFun (if_pos hid) d
      exact step_ok (PyM.map_of_ok hd)
        (PyM.map_of_ok (hbound.trans (congrFun (if_pos (h.hasGroup_iff.mp hid)) t))) hencodes rfl
        h.removeGroup
    · have hd : SCIMDirectory.deleteGroup groupId d = _ := congrFun (if_neg hid) d
      exact step_keyError (PyM.map_of_error hd)
        (PyM.map_of_error (hbound.trans (congrFun (if_neg (h.hasGroup_iff.not.mp hid)) t)))
        hencodes h
  · have hd : SCIMDirectory.deleteGroup groupId d = _ :=
      congrFun (if_neg fun hid => hencodes (h.encodes_of_hasGroup hid)) d
    have ht : ScimTables.deleteGroup groupId t = (.error .unicodeEncodeError, t) :=
      PyM.bind_of_error (congrArg (·, t) (if_neg hencodes))
    exact step_apart (PyM.map_of_error hd) (PyM.map_of_error ht) hencodes id

theorem getUser_step (h : Mirrors d t) : Step Mirrors Alike (d.Fits (.getUser userId))
    (SCIMDirectory.call (.getUser userId) d) (ScimTables.call (.getUser userId) t) := by
  by_cases hencodes : ScimTables.Encodes userId
  · have ht := ScimTables.getUser_of_encodes (t := t) hencodes
    rw [h.rowAt_users] at ht
    cases hrow : rowAt SCIMUser.id userId d.users with
    | none =>
      have hd : SCIMDirectory.getUser userId d = (.error (SCIMDirectory.userNotFound userId), d) := by
        rw [SCIMDirectory.getUser, PyM.get_bind, hrow]
        rfl
      rw [hrow] at ht
      exact step_keyError (PyM.map_of_error hd) (PyM.map_of_error ht) hencodes h
    | some user =>
      have hd : SCIMDirectory.getUser userId d = (.ok user, d) := by
        rw [SCIMDirectory.getUser, PyM.get_bind, hrow]
        rfl
      rw [hrow] at ht
      refine step_ok (PyM.map_of_ok hd) (PyM.map_of_ok ht) hencodes ?_ h
      exact congrArg ScimResult.user (SCIMUser.value_value user).symm
  · have hnone : rowAt SCIMUser.id userId d.users = none :=
      rowAt_eq_none_iff.mpr fun hid => hencodes (h.encodes_of_hasUser hid)
    have hd : SCIMDirectory.getUser userId d = (.error (SCIMDirectory.userNotFound userId), d) := by
      rw [SCIMDirectory.getUser, PyM.get_bind, hnone]
      rfl
    exact step_apart (PyM.map_of_error hd)
      (PyM.map_of_error (ScimTables.getUser_of_unencodable hencodes)) hencodes id

theorem getGroup_step (h : Mirrors d t) : Step Mirrors Alike (d.Fits (.getGroup groupId))
    (SCIMDirectory.call (.getGroup groupId) d) (ScimTables.call (.getGroup groupId) t) := by
  by_cases hencodes : ScimTables.Encodes groupId
  · have ht := ScimTables.getGroup_of_encodes (t := t) hencodes
    rw [← h.rowAt_groups] at ht
    cases hrow : rowAt SCIMGroup.id groupId d.groups with
    | none =>
      have hd : SCIMDirectory.getGroup groupId d =
          (.error (SCIMDirectory.groupNotFound groupId), d) := by
        rw [SCIMDirectory.getGroup, PyM.get_bind, hrow]
        rfl
      rw [hrow] at ht
      exact step_keyError (PyM.map_of_error hd) (PyM.map_of_error ht) hencodes h
    | some group =>
      have hd : SCIMDirectory.getGroup groupId d = (.ok group, d) := by
        rw [SCIMDirectory.getGroup, PyM.get_bind, hrow]
        rfl
      rw [hrow] at ht
      exact step_ok (PyM.map_of_ok hd) (PyM.map_of_ok ht) hencodes rfl h
  · have hnone : rowAt SCIMGroup.id groupId d.groups = none :=
      rowAt_eq_none_iff.mpr fun hid => hencodes (h.encodes_of_hasGroup hid)
    have hd : SCIMDirectory.getGroup groupId d =
        (.error (SCIMDirectory.groupNotFound groupId), d) := by
      rw [SCIMDirectory.getGroup, PyM.get_bind, hnone]
      rfl
    exact step_apart (PyM.map_of_error hd)
      (PyM.map_of_error (ScimTables.getGroup_of_unencodable hencodes)) hencodes id

omit [PyBuiltins F] in
/-- A listing of rows that are the same on both sides. -/
theorem page_step {α : Type} {limit : Option Int} {offset : Int} (kind : α → ScimResult F)
    {rows : PyM (SCIMDirectory F) α} {rows' : PyM (ScimTables F) α} {a b : α}
    (hd : rows d = (.ok a, d)) (ht : rows' t = (.ok b, t)) (hvalue : (kind a).value = (kind b).value)
    (h : Mirrors d t) :
    Step Mirrors Alike (offset < 0 ∨ (∃ n ∈ limit, n < 1) ∨ offset < 2 ^ 63)
      ((kind <$> (do PyM.ofExcept (checkPage limit offset); rows)) d)
      ((kind <$> (do
        PyM.ofExcept (checkPage limit offset)
        PyM.ofExcept (ScimTables.bindPage limit offset)
        rows')) t) := by
  -- both check the page first, and refuse the same pages
  by_cases hoffset : offset < 0
  · have hcheck : checkPage limit offset = .error (.valueError (lit "offset must be >= 0")) :=
      if_pos hoffset
    exact step_valueError (PyM.map_of_error (PyM.bind_of_error (congrArg (·, d) hcheck)))
      (PyM.map_of_error (PyM.bind_of_error (congrArg (·, t) hcheck))) (.inl hoffset) h
  by_cases hlimit : ∃ n ∈ limit, n < 1
  · have hcheck : checkPage limit offset = .error (.valueError (lit "limit must be >= 1")) :=
      (if_neg hoffset).trans (if_pos hlimit)
    exact step_valueError (PyM.map_of_error (PyM.bind_of_error (congrArg (·, d) hcheck)))
      (PyM.map_of_error (PyM.bind_of_error (congrArg (·, t) hcheck))) (.inr (.inl hlimit)) h
  have hcheck : checkPage limit offset = .ok () := (if_neg hoffset).trans (if_neg hlimit)
  have hrows : (do PyM.ofExcept (checkPage limit offset); rows : PyM (SCIMDirectory F) α) d =
      (.ok a, d) := (PyM.bind_of_ok (congrArg (·, d) hcheck)).trans hd
  -- only the tables bind the offset, as an integer of 64 bits
  by_cases hbound : offset < 2 ^ 63
  · have hbind : ScimTables.bindPage limit offset = .ok () :=
      if_neg fun hover => absurd hover.2 (not_le.mpr hbound)
    have hlisted : (do
        PyM.ofExcept (checkPage limit offset)
        PyM.ofExcept (ScimTables.bindPage limit offset)
        rows' : PyM (ScimTables F) α) t = (.ok b, t) :=
      (PyM.bind_of_ok (congrArg (·, t) hcheck)).trans
        ((PyM.bind_of_ok (congrArg (·, t) hbind)).trans ht)
    exact step_ok (PyM.map_of_ok hrows) (PyM.map_of_ok hlisted) (.inr (.inr hbound)) hvalue h
  · have hbind : ScimTables.bindPage limit offset = .error .overflowError := by
      refine if_pos ⟨.inr fun hzero => ?_, not_lt.mp hbound⟩
      exact hbound (hzero ▸ by decide)
    have hraised : (do
        PyM.ofExcept (checkPage limit offset)
        PyM.ofExcept (ScimTables.bindPage limit offset)
        rows' : PyM (ScimTables F) α) t = (.error .overflowError, t) :=
      (PyM.bind_of_ok (congrArg (·, t) hcheck)).trans (PyM.bind_of_error (congrArg (·, t) hbind))
    refine step_apart (PyM.map_of_ok hrows) (PyM.map_of_error hraised) ?_ id
    rintro (hfits | hfits | hfits)
    · exact hoffset hfits
    · exact hlimit hfits
    · exact hbound hfits

theorem listUsers_step {limit : Option Int} {offset : Int} (h : Mirrors d t) :
    Step Mirrors Alike (d.Fits (.listUsers limit offset))
      (SCIMDirectory.call (.listUsers limit offset) d)
      (ScimTables.call (.listUsers limit offset) t) := by
  refine page_step ScimResult.users
    (a := page limit offset (sortedOn SCIMUser.userName d.users))
    (b := page limit offset (sortedOn SCIMUser.userName t.users)) rfl rfl ?_ h
  have hvalues : sortedOn SCIMUser.userName (d.users.map SCIMUser.value) =
      (sortedOn SCIMUser.userName d.users).map SCIMUser.value := sortedOn_map (fun _ => rfl) _
  have hsorted : sortedOn SCIMUser.userName t.users =
      (sortedOn SCIMUser.userName d.users).map SCIMUser.value := by
    rw [← hvalues]
    refine (sortedOn_eq_of_perm ?_ h.users).symm
    rw [List.map_map]
    exact h.nodup_userNames
  have htwice : ∀ users : List (SCIMUser F),
      (users.map SCIMUser.value).map SCIMUser.value = users.map SCIMUser.value := by
    intro users
    rw [List.map_map]
    exact List.map_congr_left fun user _ => SCIMUser.value_value user
  rw [hsorted, page_map, ScimResult.value, ScimResult.value, htwice]

theorem listGroups_step {limit : Option Int} {offset : Int} (h : Mirrors d t) :
    Step Mirrors Alike (d.Fits (.listGroups limit offset))
      (SCIMDirectory.call (.listGroups limit offset) d)
      (ScimTables.call (.listGroups limit offset) t) := by
  have hrows : ∀ row ∈ page limit offset (sortedOn GroupRow.displayName t.groups),
      row ∈ t.groups := fun row hrow => mem_sortedOn.mp (mem_of_mem_page hrow)
  refine page_step ScimResult.groups
    (a := page limit offset (sortedOn SCIMGroup.displayName d.groups)) rfl
    (ScimTables.getGroups_eq h.groupIds hrows) ?_ h
  have hgroups : sortedOn SCIMGroup.displayName (t.groups.map t.group) =
      (sortedOn GroupRow.displayName t.groups).map t.group := sortedOn_map (fun _ => rfl) _
  rw [sortedOn_eq_of_perm h.nodup_groupNames h.groups, hgroups, page_map]

omit [PyBuiltins F] in
/-- An exception of another class is like nothing. -/
theorem not_alike_of_error {r : Except PyExc (ScimResult F)} {e : PyExc}
    (he : isKeyOrValueError e = false) : ¬ Alike r (.error e) := by
  intro h
  unfold Alike at h
  split at h
  · next heq => cases heq
  · next heq =>
    rw [Except.error.inj heq] at he
    cases he
  · next heq =>
    rw [Except.error.inj heq] at he
    cases he
  · exact h

theorem step_of_error {op : ScimOp F} {e : PyExc} (ht : ScimTables.call op t = (.error e, t))
    (he : isKeyOrValueError e = false) (hnot : ¬ d.Fits op) :
    Step Mirrors Alike (d.Fits op) (SCIMDirectory.call op d) (ScimTables.call op t) :=
  step_apart rfl ht hnot (not_alike_of_error he)

theorem replaceUser_step (h : Mirrors d t) : Step Mirrors Alike (d.Fits (.replaceUser userId p))
    (SCIMDirectory.call (.replaceUser userId p) d) (ScimTables.call (.replaceUser userId p) t) := by
  by_cases hencodes : ScimTables.Encodes userId
  case neg =>
    exact step_of_error (PyM.map_of_error (ScimTables.replaceUser_of_unencodable_id hencodes)) rfl fun hfits => hencodes hfits.1
  by_cases hid : d.HasUser userId
  case neg =>
    have hmissing : rowAt SCIMUser.id userId t.users = none :=
      rowAt_eq_none_iff.mpr (h.hasUser_iff.not.mp hid)
    exact step_keyError (PyM.map_of_error (SCIMDirectory.replaceUser_of_missing hid))
      (PyM.map_of_error (ScimTables.replaceUser_of_missing hencodes hmissing))
      ⟨hencodes, fun hold => absurd hold hid⟩ h
  obtain ⟨previous, hprevious⟩ := Option.ne_none_iff_exists'.mp
    (rowAt_eq_none_iff.not.mpr (not_not_intro hid))
  have hrow : rowAt SCIMUser.id userId t.users = some previous.value := by
    rw [h.rowAt_users, hprevious]
    rfl
  have hback : Mirrors { d with users := (d.withoutUser userId).users ++ [previous] } t :=
    h.perm (filter_append_perm h.nodup_userIds hprevious) (List.Perm.refl _)
  by_cases hblank : p.userName = []
  · have hd := SCIMDirectory.replaceUser_of_refused hprevious
      (SCIMDirectory.createUserAs_of_blank (d := d.withoutUser userId) hblank)
    exact step_valueError (PyM.map_of_error hd)
      (PyM.map_of_error (ScimTables.replaceUser_of_blank hencodes hrow hblank))
      ⟨hencodes, fun _ => .inl hblank⟩ hback
  cases hitems : anyItems p.emails with
  | none =>
    refine step_of_error (PyM.map_of_error (ScimTables.replaceUser_of_notIterable hencodes hrow
      hblank hitems)) rfl fun hfits => ?_
    rcases hfits.2 hid with hfits | ⟨hfits, -⟩
    · exact hblank hfits
    · rw [← anyItems_eq_textItems_iff, hitems] at hfits
      cases hfits
  | some names =>
    by_cases htexts : SCIMDirectory.UserFits p userId
    case neg =>
      refine step_of_error (PyM.map_of_error (ScimTables.replaceUser_of_unencodable hencodes hrow
        hblank hitems htexts)) rfl fun hfits => ?_
      rcases hfits.2 hid with hfits | ⟨-, hfits, -⟩
      · exact hblank hfits
      · exact htexts hfits
    by_cases hother : d.OtherUserNamed userId p.userName
    · -- the directory raises a `ValueError`, the database what it raises
      obtain ⟨user, hmem, hname, hne⟩ := hother
      refine step_of_error (PyM.map_of_error (ScimTables.replaceUser_of_named hencodes hrow
        hblank hitems htexts (h.users.mem_iff.mp (List.mem_map_of_mem hmem)) hname hne)) rfl fun hfits => ?_
      rcases hfits.2 hid with hfits | ⟨-, -, hfits⟩
      · exact hblank hfits
      · exact hfits ⟨user, hmem, hname, hne⟩
    · have hd := SCIMDirectory.replaceUser_of_accepted hblank hprevious
        (SCIMDirectory.userNamed_withoutUser_iff.not.mpr hother)
      have hfree : ∀ other ∈ t.users, other.userName = p.userName → other.id = userId := by
        intro other hmem hname
        obtain ⟨user, huser, rfl⟩ := List.mem_map.mp (h.users.mem_iff.mpr hmem)
        by_contra hne
        exact hother ⟨user, huser, hname, hne⟩
      obtain ⟨t', ht, husers, hgroups, hmembers⟩ := ScimTables.replaceUser_of_free hencodes hrow
        hblank hitems htexts hfree
      by_cases heq : names = textItems p.emails
      · subst heq
        rw [SCIMUser.stored_eq_value] at husers
        have hold : d.HasUser (p.user userId (textItems p.emails)).id := hid
        exact step_ok (PyM.map_of_ok hd) (PyM.map_of_ok ht)
          ⟨hencodes, fun _ => .inr ⟨anyItems_eq_textItems_iff.mp hitems, htexts, hother⟩⟩ rfl
          (h.setUser hold rfl rfl husers hgroups hmembers)
      · refine step_apart (PyM.map_of_ok hd) (PyM.map_of_ok ht) (fun hfits => ?_) fun halike => ?_
        · rcases hfits.2 hid with hfits | ⟨hfits, -⟩
          · exact hblank hfits
          · rw [← anyItems_eq_textItems_iff, hitems] at hfits
            exact heq (Option.some.inj hfits)
        · exact heq (congrArg SCIMUser.emails (ScimResult.user.inj halike)).symm

theorem createGroup_step (h : Mirrors d t) : Step Mirrors Alike (d.Fits (.createGroup p fresh))
    (SCIMDirectory.call (.createGroup p fresh) d) (ScimTables.call (.createGroup p fresh) t) := by
  by_cases hblank : strip p.displayName = []
  · exact step_valueError (PyM.map_of_error (SCIMDirectory.createGroupAs_of_blank hblank))
      (PyM.map_of_error (ScimTables.createGroup_of_blank hblank)) (.inl hblank) h
  cases hitems : anyItems p.members with
  | none =>
    refine step_of_error (PyM.map_of_error (ScimTables.createGroup_of_notIterable hblank hitems))
      rfl ?_
    rintro (hfits | ⟨names, hnames, -⟩)
    · exact hblank hfits
    · rw [hitems] at hnames
      cases hnames
  | some names =>
    have hsubset := textItems_subset hitems
    by_cases htexts : d.KnowsMembers (textItems p.members)
    case neg =>
      obtain ⟨unknown, hd⟩ : ∃ unknown, SCIMDirectory.createGroupAs p (p.id fresh) d =
          (.error (unknownUsers F unknown), d) :=
        ⟨_, SCIMDirectory.createGroupAs_of_unknown hblank htexts⟩
      have hnames : ¬ t.KnowsMembers names := fun hknown =>
        htexts fun name hname => h.hasUser_iff.mpr (hknown name (hsubset name hname))
      obtain ⟨unknown', ht⟩ : ∃ unknown, ScimTables.createGroup p fresh t =
          (.error (unknownUsers F unknown), t) :=
        ScimTables.createGroup_of_unknown hblank hitems hnames
      exact step_valueError (PyM.map_of_error hd) (PyM.map_of_error ht)
        (.inr ⟨names, hitems, .inl htexts⟩) h
    by_cases hnamed : d.GroupNamed (strip p.displayName)
    · have hd : SCIMDirectory.createGroupAs p (p.id fresh) d = _ :=
        SCIMDirectory.createGroupAs_of_named hblank htexts hnamed
      by_cases hknown : d.KnowsMembers names
      case neg =>
        obtain ⟨unknown, ht⟩ : ∃ unknown, ScimTables.createGroup p fresh t =
            (.error (unknownUsers F unknown), t) :=
          ScimTables.createGroup_of_unknown hblank hitems (h.knowsMembers_iff.not.mp hknown)
        exact step_valueError (PyM.map_of_error hd) (PyM.map_of_error ht)
          (.inr ⟨names, hitems, .inr (.inl ⟨hnamed, .inl hknown⟩)⟩) h
      have hknown' := h.knowsMembers_iff.mp hknown
      by_cases hencodes : SCIMDirectory.GroupFits p (p.id fresh)
      · have htaken : ¬ (rowAt GroupRow.id (p.id fresh) t.groups = none ∧
            rowAt GroupRow.displayName (strip p.displayName) t.groups = none) :=
          fun hfree => rowAt_eq_none_iff.mp hfree.2 (h.groupNamed_iff.mp hnamed)
        exact step_valueError (PyM.map_of_error hd)
          (PyM.map_of_error (ScimTables.createGroup_of_taken hblank hitems hknown' hencodes htaken))
          (.inr ⟨names, hitems, .inr (.inl ⟨hnamed, .inr hencodes⟩)⟩) h
      · refine step_of_error (PyM.map_of_error (ScimTables.createGroup_of_unencodable hblank hitems
          hknown' hencodes)) rfl ?_
        rintro (hfits | ⟨_, hnames, hfits⟩)
        · exact hblank hfits
        · obtain rfl := Option.some.inj (hitems.symm.trans hnames)
          rcases hfits with hfits | ⟨-, hfits⟩ | ⟨hfits, -⟩
          · exact hfits htexts
          · exact hfits.elim (fun hunknown => hunknown hknown) hencodes
          · exact hfits hnamed
    · have hd : SCIMDirectory.createGroupAs p (p.id fresh) d = _ :=
        SCIMDirectory.createGroupAs_of_free hblank htexts hnamed
      -- the condition that is left when the directory accepts the payload
      have hleft : d.Fits (.createGroup p fresh) → (∀ name ∈ names, name ∈ textItems p.members) ∧
          SCIMDirectory.GroupFits p (p.id fresh) ∧ ¬ d.HasGroup (p.id fresh) := by
        rintro (hfits | ⟨_, hnames, hfits⟩)
        · exact absurd hfits hblank
        · obtain rfl := Option.some.inj (hitems.symm.trans hnames)
          rcases hfits with hfits | ⟨hfits, -⟩ | ⟨-, hfits⟩
          · exact absurd htexts hfits
          · exact absurd hfits hnamed
          · exact hfits
      by_cases hknown : d.KnowsMembers names
      case neg =>
        obtain ⟨unknown, ht⟩ : ∃ unknown, ScimTables.createGroup p fresh t =
            (.error (unknownUsers F unknown), t) :=
          ScimTables.createGroup_of_unknown hblank hitems (h.knowsMembers_iff.not.mp hknown)
        refine step_apart (PyM.map_of_ok hd) (PyM.map_of_error ht) (fun hfits => ?_) id
        exact hknown fun name hname => htexts name ((hleft hfits).1 name hname)
      have hknown' := h.knowsMembers_iff.mp hknown
      by_cases hencodes : SCIMDirectory.GroupFits p (p.id fresh)
      case neg =>
        exact step_of_error (PyM.map_of_error (ScimTables.createGroup_of_unencodable hblank hitems
          hknown' hencodes)) rfl fun hfits => hencodes (hleft hfits).2.1
      by_cases hid : d.HasGroup (p.id fresh)
      · -- the directory overwrites the group, the database refuses the key
        have htaken : ¬ (rowAt GroupRow.id (p.id fresh) t.groups = none ∧
            rowAt GroupRow.displayName (strip p.displayName) t.groups = none) :=
          fun hfree => rowAt_eq_none_iff.mp hfree.1 (h.hasGroup_iff.mp hid)
        exact step_apart (PyM.map_of_ok hd)
          (PyM.map_of_error (ScimTables.createGroup_of_taken hblank hitems hknown' hencodes htaken))
          (fun hfits => (hleft hfits).2.2 hid) id
      obtain ⟨t', ht, husers, hgroups, hmembers⟩ := ScimTables.createGroup_of_free hblank hitems
        hknown' hencodes (rowAt_eq_none_iff.mpr (h.hasGroup_iff.not.mp hid))
        (rowAt_eq_none_iff.mpr (h.groupNamed_iff.not.mp hnamed))
        fun name hname => h.encodes_of_hasUser (hknown name hname)
      by_cases hsame : ∀ name ∈ names, name ∈ textItems p.members
      · have hgroup : p.group (p.id fresh) names = p.group (p.id fresh) (textItems p.members) :=
          ScimPayload.group_congr hsame hsubset
        rw [hgroup] at ht hgroups hmembers
        have hnew : ¬ d.HasGroup (p.group (p.id fresh) (textItems p.members)).id := hid
        have hstored : ScimTables.Encodes (p.group (p.id fresh) (textItems p.members)).id :=
          hencodes _ List.mem_cons_self
        exact step_ok (PyM.map_of_ok hd) (PyM.map_of_ok ht)
          (.inr ⟨names, hitems, .inr (.inr ⟨hnamed, hsame, hencodes, hid⟩)⟩) rfl
          (h.addGroup hnew hstored rfl rfl husers hgroups hmembers)
      · refine step_apart (PyM.map_of_ok hd) (PyM.map_of_ok ht)
          (fun hfits => hsame (hleft hfits).1) fun halike => hsame ?_
        exact ScimPayload.subset_of_group_eq (ScimResult.group.inj halike)

theorem replaceGroup_step (h : Mirrors d t) : Step Mirrors Alike (d.Fits (.replaceGroup groupId p))
    (SCIMDirectory.call (.replaceGroup groupId p) d)
    (ScimTables.call (.replaceGroup groupId p) t) := by
  by_cases hencodes : ScimTables.Encodes groupId
  case neg =>
    exact step_of_error (PyM.map_of_error (ScimTables.replaceGroup_of_unencodable_id hencodes)) rfl
      fun hfits => hencodes hfits.1
  by_cases hid : d.HasGroup groupId
  case neg =>
    have hmissing : rowAt GroupRow.id groupId t.groups = none :=
      rowAt_eq_none_iff.mpr (h.hasGroup_iff.not.mp hid)
    exact step_keyError (PyM.map_of_error (SCIMDirectory.replaceGroup_of_missing hid))
      (PyM.map_of_error (ScimTables.replaceGroup_of_missing hencodes hmissing))
      ⟨hencodes, fun hold => absurd hold hid⟩ h
  obtain ⟨row, hrow⟩ := Option.ne_none_iff_exists'.mp
    (rowAt_eq_none_iff.not.mpr (not_not_intro (h.hasGroup_iff.mp hid)))
  have hprevious : rowAt SCIMGroup.id groupId d.groups = some (t.group row) := by
    rw [h.rowAt_groups, hrow]
    rfl
  have hback : Mirrors { d with groups := (d.withoutGroup groupId).groups ++ [t.group row] } t :=
    h.perm (List.Perm.refl _) (filter_append_perm h.nodup_groupIds hprevious)
  by_cases hblank : strip p.displayName = []
  · have hd := SCIMDirectory.replaceGroup_of_refused hprevious
      (SCIMDirectory.createGroupAs_of_blank (d := d.withoutGroup groupId) hblank)
    exact step_valueError (PyM.map_of_error hd)
      (PyM.map_of_error (ScimTables.replaceGroup_of_blank hencodes hrow hblank))
      ⟨hencodes, fun _ => .inl hblank⟩ hback
  cases hitems : anyItems p.members with
  | none =>
    refine step_of_error (PyM.map_of_error (ScimTables.replaceGroup_of_notIterable hencodes hrow
      hblank hitems)) rfl fun hfits => ?_
    rcases hfits.2 hid with hfits | ⟨names, hnames, -⟩
    · exact hblank hfits
    · rw [hitems] at hnames
      cases hnames
  | some names =>
    have hsubset := textItems_subset hitems
    -- the condition, once the group is there and the name is not blank
    have hleft : d.Fits (.replaceGroup groupId p) → ¬ d.KnowsMembers (textItems p.members) ∨
        (d.OtherGroupNamed groupId (strip p.displayName) ∧ ¬ d.KnowsMembers names) ∨
        (¬ d.OtherGroupNamed groupId (strip p.displayName) ∧
          (∀ name ∈ names, name ∈ textItems p.members) ∧ SCIMDirectory.GroupFits p groupId) := by
      intro hfits
      rcases hfits.2 hid with hfits | ⟨_, hnames, hfits⟩
      · exact absurd hfits hblank
      · obtain rfl := Option.some.inj (hitems.symm.trans hnames)
        exact hfits
    by_cases htexts : d.KnowsMembers (textItems p.members)
    case neg =>
      obtain ⟨unknown, hcreate⟩ : ∃ unknown, SCIMDirectory.createGroupAs p groupId
          (d.withoutGroup groupId) = (.error (unknownUsers F unknown), d.withoutGroup groupId) :=
        ⟨_, SCIMDirectory.createGroupAs_of_unknown hblank htexts⟩
      have hnames : ¬ t.KnowsMembers names := fun hknown =>
        htexts fun name hname => h.hasUser_iff.mpr (hknown name (hsubset name hname))
      exact step_valueError
        (PyM.map_of_error (SCIMDirectory.replaceGroup_of_refused hprevious hcreate))
        (PyM.map_of_error (ScimTables.replaceGroup_of_unknown hencodes hrow hblank hitems hnames))
        ⟨hencodes, fun _ => .inr ⟨names, hitems, .inl htexts⟩⟩ hback
    by_cases hother : d.OtherGroupNamed groupId (strip p.displayName)
    · have hcreate : SCIMDirectory.createGroupAs p groupId (d.withoutGroup groupId) = _ :=
        SCIMDirectory.createGroupAs_of_named hblank htexts
          (SCIMDirectory.groupNamed_withoutGroup_iff.mpr hother)
      by_cases hknown : d.KnowsMembers names
      case neg =>
        exact step_valueError
          (PyM.map_of_error (SCIMDirectory.replaceGroup_of_refused hprevious hcreate))
          (PyM.map_of_error (ScimTables.replaceGroup_of_unknown hencodes hrow hblank hitems
            (h.knowsMembers_iff.not.mp hknown)))
          ⟨hencodes, fun _ => .inr ⟨names, hitems, .inr (.inl ⟨hother, hknown⟩)⟩⟩ hback
      have hapart : ¬ d.Fits (.replaceGroup groupId p) := by
        intro hfits
        rcases hleft hfits with hfits | ⟨-, hfits⟩ | ⟨hfits, -⟩
        · exact hfits htexts
        · exact hfits hknown
        · exact hfits hother
      have hknown' := h.knowsMembers_iff.mp hknown
      by_cases hstored : SCIMDirectory.GroupFits p groupId
      · obtain ⟨group, hmem, hname, hne⟩ := hother
        obtain ⟨other, hother, rfl⟩ := List.mem_map.mp (h.groups.mem_iff.mp hmem)
        exact step_of_error (PyM.map_of_error (ScimTables.replaceGroup_of_named hencodes hrow hblank
          hitems hknown' hstored hother hname hne)) rfl hapart
      · exact step_of_error (PyM.map_of_error (ScimTables.replaceGroup_of_unencodable hencodes hrow
          hblank hitems hknown' hstored)) rfl hapart
    · have hd := SCIMDirectory.replaceGroup_of_accepted hblank hprevious htexts
        (SCIMDirectory.groupNamed_withoutGroup_iff.not.mpr hother)
      have haccepted : d.Fits (.replaceGroup groupId p) →
          (∀ name ∈ names, name ∈ textItems p.members) ∧ SCIMDirectory.GroupFits p groupId := by
        intro hfits
        rcases hleft hfits with hfits | ⟨hfits, -⟩ | ⟨-, hfits⟩
        · exact absurd htexts hfits
        · exact absurd hfits hother
        · exact hfits
      by_cases hknown : d.KnowsMembers names
      case neg =>
        refine step_apart (PyM.map_of_ok hd)
          (PyM.map_of_error (ScimTables.replaceGroup_of_unknown hencodes hrow hblank hitems
            (h.knowsMembers_iff.not.mp hknown))) (fun hfits => ?_) id
        exact hknown fun name hname => htexts name ((haccepted hfits).1 name hname)
      have hknown' := h.knowsMembers_iff.mp hknown
      by_cases hstored : SCIMDirectory.GroupFits p groupId
      case neg =>
        exact step_of_error (PyM.map_of_error (ScimTables.replaceGroup_of_unencodable hencodes hrow
          hblank hitems hknown' hstored)) rfl fun hfits => hstored (haccepted hfits).2
      have hfree : ∀ other ∈ t.groups, other.displayName = strip p.displayName →
          other.id = groupId := by
        intro other hmem hname
        by_contra hne
        exact hother ⟨t.group other, h.groups.mem_iff.mpr (List.mem_map_of_mem hmem), hname, hne⟩
      obtain ⟨t', ht, husers, hgroups, hmembers⟩ := ScimTables.replaceGroup_of_free hencodes hrow
        hblank hitems hknown' hstored hfree fun name hname => h.encodes_of_hasUser (hknown name hname)
      have hset : t'.group (ScimTables.groupRow (p.group groupId names)) = p.group groupId names ∧
          Mirrors { d with groups := (d.withoutGroup groupId).groups ++ [p.group groupId names] } t' :=
        h.setGroup hid rfl rfl husers hgroups hmembers
      rw [hset.1] at ht
      by_cases hsame : ∀ name ∈ names, name ∈ textItems p.members
      · have hgroup : p.group groupId names = p.group groupId (textItems p.members) :=
          ScimPayload.group_congr hsame hsubset
        rw [hgroup] at ht hset
        exact step_ok (PyM.map_of_ok hd) (PyM.map_of_ok ht)
          ⟨hencodes, fun _ => .inr ⟨names, hitems, .inr (.inr ⟨hother, hsame, hstored⟩)⟩⟩ rfl hset.2
      · refine step_apart (PyM.map_of_ok hd) (PyM.map_of_ok ht)
          (fun hfits => hsame (haccepted hfits).1) fun halike => hsame ?_
        exact ScimPayload.subset_of_group_eq (ScimResult.group.inj halike)

/-! ### Runs -/

theorem call_step (h : Mirrors d t) (op : ScimOp F) :
    Step Mirrors Alike (d.Fits op) (SCIMDirectory.call op d) (ScimTables.call op t) := by
  cases op with
  | createUser p fresh => exact createUser_step h
  | replaceUser userId p => exact replaceUser_step h
  | deleteUser userId => exact deleteUser_step h
  | getUser userId => exact getUser_step h
  | listUsers limit offset => exact listUsers_step h
  | createGroup p fresh => exact createGroup_step h
  | replaceGroup groupId p => exact replaceGroup_step h
  | deleteGroup groupId => exact deleteGroup_step h
  | getGroup groupId => exact getGroup_step h
  | listGroups limit offset => exact listGroups_step h

end

/-- Two empty stores agree on a run exactly when every operation of it fits the
directory it finds. -/
theorem stores_agree_iff [PyBuiltins F] (ops : List (ScimOp F)) :
    List.Forall₂ Alike (outcomes SCIMDirectory.call .empty ops) (outcomes ScimTables.call .empty ops) ↔
      AllSteps SCIMDirectory.call SCIMDirectory.Fits .empty ops :=
  outcomes_alike_iff (fun _ _ op h => call_step h op) Mirrors.empty ops

/-! ### A run that does not agree -/

section

variable {userId userName : Str}

theorem clean_userFields : (Json.obj [(lit "id", .str userId), (lit "userName", .str userName)] :
    Json F).Clean := by
  have hkeys : [lit "id", lit "userName"].Nodup := by decide
  exact .obj hkeys (List.forall_mem_cons.mpr ⟨.str _, List.forall_mem_singleton.mpr (.str _)⟩)

theorem joined_userFields (hid : IsJoined userId) (hname : IsJoined userName) :
    (Json.obj [(lit "id", .str userId), (lit "userName", .str userName)] : Json F).AllJoined := by
  have hidKey : IsJoined (lit "id") := isJoined_of_lt (by decide)
  have hnameKey : IsJoined (lit "userName") := isJoined_of_lt (by decide)
  exact .obj (List.forall_mem_cons.mpr ⟨hidKey, List.forall_mem_singleton.mpr hnameKey⟩)
    (List.forall_mem_cons.mpr ⟨.str hid, List.forall_mem_singleton.mpr (.str hname)⟩)

/-- A payload with an id and a name. -/
def userPayload (hid : IsJoined userId) (hname : IsJoined userName) : ScimPayload F where
  fields := [(lit "id", .str userId), (lit "userName", .str userName)]
  clean := clean_userFields
  joined := joined_userFields hid hname

end

theorem joined_u1 : IsJoined (lit "u1") := isJoined_of_lt (by decide)

theorem joined_u2 : IsJoined (lit "u2") := isJoined_of_lt (by decide)

theorem joined_a : IsJoined (lit "a") := isJoined_of_lt (by decide)

theorem joined_b : IsJoined (lit "b") := isJoined_of_lt (by decide)

/-- The user `u2` is given the name of the user `u1`. -/
def renamingRun : List (ScimOp Half) :=
  [.createUser (userPayload joined_u1 joined_a) [], .createUser (userPayload joined_u2 joined_b) [],
    .replaceUser (lit "u2") (userPayload joined_u2 joined_a)]

/-- The directory raises a `ValueError` at the end, the database an
`IntegrityError`. -/
theorem renamingRun_apart : ¬ ∀ ops : List (ScimOp Half),
    List.Forall₂ Alike (outcomes SCIMDirectory.call .empty ops)
      (outcomes ScimTables.call .empty ops) := by
  intro hall
  have h := (outcomes_alike_iff (fun _ _ op h => call_step h op) Mirrors.empty renamingRun).mp
    (hall renamingRun)
  obtain ⟨-, -, ⟨-, hfits⟩, -⟩ := h
  have hid : (SCIMDirectory.call (F := Half) (.createUser (userPayload joined_u2 joined_b) [])
      (SCIMDirectory.call (.createUser (userPayload joined_u1 joined_a) []) .empty).2).2.HasUser
        (lit "u2") := by decide
  rcases hfits hid with hblank | ⟨-, -, hother⟩
  · exact absurd hblank (by decide)
  · exact hother ⟨_, List.mem_cons_self, rfl, by decide⟩

end AgentRoi
