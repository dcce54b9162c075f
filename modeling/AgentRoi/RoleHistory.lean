/-
What the history of an identity store says of a decision.

`DynamicRBACAuthorizer` reads the tables of roles and bindings for each
decision.  The tables are what the calls of `save_role`, `delete_role`,
`save_binding` and `delete_binding` left of each other.

* `Standing` — an entry of a log that no later entry cancels;
* `RoleChange`, `RoleChange.Cancels` — what such a call changes, and what a
  change undoes of an earlier one;
* `RBACAuthorizer.create`, `dynamicAuthorize` — the authorizer that is built
  for a decision;
* `saves` — how often a role was saved since there was none of its name;
* `Reflects` — the tables hold the changes that stand, and the revisions count
  the saves;
* `decision_of_history` — so a decision is one about the history.
-/
import AgentRoi.IdentityStore

namespace AgentRoi

open RowTable

/-! ### What stands of a log -/

section

variable {α : Type} {cancels : α → α → Prop} {log : List α} {x y : α}

/-- The entry is in the log, and no later entry cancels it. -/
def Standing (cancels : α → α → Prop) (log : List α) (x : α) : Prop :=
  ∃ before after, log = before ++ x :: after ∧ ∀ y ∈ after, ¬ cancels x y

theorem standing_nil : ¬ Standing cancels [] x := by
  rintro ⟨before, after, h, -⟩
  exact List.append_ne_nil_of_right_ne_nil before (List.cons_ne_nil x after) h.symm

/-- A new entry stands, with what stood and is not cancelled by it. -/
theorem standing_concat : Standing cancels (log ++ [y]) x ↔
    x = y ∨ Standing cancels log x ∧ ¬ cancels x y := by
  constructor
  · rintro ⟨before, after, h, hafter⟩
    rcases List.eq_nil_or_concat after with rfl | ⟨after, z, rfl⟩
    · obtain ⟨-, hx⟩ := List.append_inj' h rfl
      exact .inl (List.head_eq_of_cons_eq hx).symm
    · rw [List.concat_eq_append] at h hafter
      rw [← List.cons_append, ← List.append_assoc] at h
      obtain ⟨hlog, hz⟩ := List.append_inj' h rfl
      obtain rfl : y = z := List.head_eq_of_cons_eq hz
      refine .inr ⟨⟨before, after, hlog, fun w hw => ?_⟩, ?_⟩
      · exact hafter w (List.mem_append_left _ hw)
      · exact hafter y (List.mem_append_right _ (List.mem_singleton_self y))
  · rintro (rfl | ⟨⟨before, after, rfl, hafter⟩, hy⟩)
    · exact ⟨log, [], rfl, fun w hw => absurd hw List.not_mem_nil⟩
    · refine ⟨before, after ++ [y], by rw [List.append_assoc, List.cons_append], fun w hw => ?_⟩
      rcases List.mem_append.mp hw with hw | hw
      · exact hafter w hw
      · rw [List.mem_singleton.mp hw]
        exact hy

end

/-! ### Changes -/

/-- What a call that returns changes. -/
inductive RoleChange where
  | saved (role : RoleDefinition)
  | removed (name : Str)
  | bound (bindingId : Str) (binding : RoleBinding)
  | unbound (bindingId : Str)

/-- A role is gone when it is saved again or deleted, a binding when it or its
role is deleted. -/
def RoleChange.Cancels : RoleChange → RoleChange → Prop
  | .saved role, .saved role' => role.name = role'.name
  | .saved role, .removed name => role.name = name
  | .bound _ binding, .removed name => binding.role = name
  | .bound bindingId _, .unbound bindingId' => bindingId = bindingId'
  | _, _ => False

/-- How often the role is saved after a change. -/
def RoleChange.recount (name : Str) (count : Int) : RoleChange → Int
  | .saved role => if role.name = name then count + 1 else count
  | .removed name' => if name' = name then 0 else count
  | .bound _ _ | .unbound _ => count

/-- How often a role of the name was saved since there was none. -/
def saves (name : Str) (history : List RoleChange) : Int :=
  history.foldl (RoleChange.recount name) 0

theorem saves_concat (name : Str) (history : List RoleChange) (change : RoleChange) :
    saves name (history ++ [change]) = change.recount name (saves name history) := by
  rw [saves, List.foldl_append]
  rfl

/-- The calls that write; `uuid` is what `save_binding` draws. -/
inductive RoleCall where
  | saveRole (role : RoleDefinition) (expectedRevision : Option Int)
  | deleteRole (name : Str)
  | saveBinding (binding : RoleBinding) (uuid : Str)
  | deleteBinding (bindingId : Str)

def RoleCall.change : RoleCall → RoleChange
  | .saveRole role _ => .saved role
  | .deleteRole name => .removed name
  | .saveBinding binding uuid => .bound uuid binding
  | .deleteBinding bindingId => .unbound bindingId

def RoleCall.perform (store : IdentityStore) : RoleCall → PyM IdentityTables Unit
  | .saveRole role expectedRevision => store.saveRole role expectedRevision
  | .deleteRole name => store.deleteRole name
  | .saveBinding binding uuid => do
    let _ ← store.saveBinding binding uuid
    return ()
  | .deleteBinding bindingId => store.deleteBinding bindingId

/-- Calls in the order in which the database takes them; the changes of those
that returned. -/
def performRoleCalls (store : IdentityStore) :
    List RoleCall → IdentityTables → List RoleChange × IdentityTables
  | [], t => ([], t)
  | call :: calls, t =>
    match call.perform store t with
    | (.ok _, t') =>
      let rest := performRoleCalls store calls t'
      (call.change :: rest.1, rest.2)
    | (.error _, t') => performRoleCalls store calls t'

/-! ### The authorizer -/

namespace RBACAuthorizer

/-- The values of `{role.name: role for role in roles}`. -/
def named (roles : List RoleDefinition) : List RoleDefinition :=
  (dictOf (roles.map fun role => (role.name, role))).map Prod.snd

theorem nodup_named (roles : List RoleDefinition) :
    ((named roles).map RoleDefinition.name).Nodup := by
  have hkeys : (named roles).map RoleDefinition.name =
      (dictOf (roles.map fun role => (role.name, role))).map Prod.fst := by
    rw [named, List.map_map]
    refine List.map_congr_left fun p hp => ?_
    obtain ⟨role, -, rfl⟩ := List.mem_map.mp (mem_of_mem_dictOf hp)
    rfl
  rw [hkeys]
  exact nodup_keys_dictOf _

/-- `RBACAuthorizer(roles, bindings, default_deny=…)`. -/
def create (roles : List RoleDefinition) (bindings : List RoleBinding) (defaultDeny : Bool) :
    Except PyExc RBACAuthorizer :=
  match h : bindings.find? fun binding =>
      binding.role ∉ (named roles).map RoleDefinition.name with
  | some binding =>
    .error (.valueError (lit "Binding references unknown role: " ++ binding.role))
  | none => .ok {
      roles := named roles
      bindings := bindings
      defaultDeny := defaultDeny
      distinct := nodup_named roles
      known := fun binding hbinding => by
        have hnot := List.find?_eq_none.mp h binding hbinding
        exact of_not_not fun hrole => hnot (decide_eq_true hrole) }

end RBACAuthorizer

/-- `DynamicRBACAuthorizer.authorize`. -/
def dynamicAuthorize (t : IdentityTables) (principal : Principal)
    (action resource environment : Str) : Except PyExc Bool := do
  let auth ← RBACAuthorizer.create t.roles (t.bindings.map BindingRow.binding) true
  return auth.authorize principal action resource environment

/-- `DynamicRBACAuthorizer.require`. -/
def dynamicRequire (t : IdentityTables) (principal : Principal)
    (action resource environment : Str) : Except PyExc Unit := do
  let auth ← RBACAuthorizer.create t.roles (t.bindings.map BindingRow.binding) true
  auth.require principal action resource environment

/-- No table makes the constructor raise. -/
theorem create_tables (t : IdentityTables) :
    RBACAuthorizer.create t.roles (t.bindings.map BindingRow.binding) true = .ok t.authorizer := by
  have hnamed : RBACAuthorizer.named t.roles = t.roles := by
    rw [RBACAuthorizer.named, dictOf_of_nodup]
    · rw [List.map_map]
      exact List.map_id _
    · rw [List.map_map]
      exact t.roleNames
  have hfind : (t.bindings.map BindingRow.binding).find? (fun binding =>
      binding.role ∉ (RBACAuthorizer.named t.roles).map RoleDefinition.name) = none := by
    rw [List.find?_eq_none]
    intro binding hbinding hunknown
    rw [hnamed] at hunknown
    exact of_decide_eq_true hunknown (t.authorizer.known binding hbinding)
  unfold RBACAuthorizer.create
  split
  · next binding hsome =>
    rw [hfind] at hsome
    cases hsome
  · next hnone =>
    simp only [hnamed]
    rfl

theorem dynamicAuthorize_eq (t : IdentityTables) (principal : Principal)
    (action resource environment : Str) : dynamicAuthorize t principal action resource environment =
      .ok (t.authorizer.authorize principal action resource environment) := by
  rw [dynamicAuthorize, create_tables]
  rfl

theorem dynamicRequire_eq (t : IdentityTables) (principal : Principal)
    (action resource environment : Str) : dynamicRequire t principal action resource environment =
      t.authorizer.require principal action resource environment := by
  rw [dynamicRequire, create_tables]
  rfl

/-! ### One call -/

/-- A call that raises changes nothing. -/
theorem RoleCall.allOrNothing (store : IdentityStore) (call : RoleCall) :
    PyM.AllOrNothing (call.perform store) := by
  cases call with
  | saveRole role expectedRevision =>
    cases expectedRevision with
    | none =>
      exact .ofExcept_bind fun _ => .ofExcept_bind fun _ => .ofExcept_bind fun _ => .modify _
    | some expected =>
      rw [RoleCall.perform, IdentityStore.saveRole]
      split_ifs
      · refine .ofExcept_bind fun _ => .ofExcept_bind fun _ => .ofExcept_bind fun _ =>
          .get_bind fun t => ?_
        split_ifs
        · exact .set _
        · exact .raise _
      · exact .raise _
  | deleteRole name =>
    refine .ofExcept_bind fun _ => .get_bind fun t => ?_
    split_ifs
    · exact .set _
    · exact .raise _
  | saveBinding binding uuid =>
    -- the row is inserted, or a constraint fails before it is
    have hinsert : PyM.AllOrNothing (store.saveBinding binding uuid) := by
      refine .bind_pure (.tryExcept_raise ?_ _) fun _ => uuid
      refine .ofExcept_bind fun _ => .ofExcept_bind fun _ => .ofExcept_bind fun _ =>
        .ofExcept_bind fun _ => .ofExcept_bind fun _ => .ofExcept_bind fun _ => ?_
      intro s s' e h
      unfold IdentityStore.insertBinding at h
      split at h
      · cases h
      · cases h
        rfl
    exact hinsert.bind_pure fun _ => ()
  | deleteBinding bindingId =>
    refine .ofExcept_bind fun _ => .get_bind fun t => ?_
    split_ifs
    · exact .set _
    · exact .raise _

/-- A call that returns does to the tables what it is named for. -/
inductive Applies (t : IdentityTables) : RoleCall → IdentityTables → Prop
  | saveRole (role : RoleDefinition) (expectedRevision : Option Int) :
    Applies t (.saveRole role expectedRevision) (t.putRole role)
  | deleteRole (name : Str) : Applies t (.deleteRole name) (t.removeRole name)
  | saveBinding (binding : RoleBinding) (uuid : Str)
    (hid : rowAt BindingRow.bindingId uuid t.bindings = none)
    (hrole : binding.role ∈ t.roles.map RoleDefinition.name) :
    Applies t (.saveBinding binding uuid) (t.addBinding ⟨uuid, binding⟩ hid hrole)
  | deleteBinding (bindingId : Str) : Applies t (.deleteBinding bindingId) (t.removeBinding bindingId)

theorem RoleCall.applies {store : IdentityStore} {t t' : IdentityTables} {call : RoleCall}
    {u : Unit} (h : call.perform store t = (.ok u, t')) : Applies t call t' := by
  cases call with
  | saveRole role expectedRevision =>
    obtain rfl := IdentityStore.saveRole_eq_ok h
    exact .saveRole role expectedRevision
  | deleteRole name =>
    obtain rfl := IdentityStore.deleteRole_eq_ok h
    exact .deleteRole name
  | saveBinding binding uuid =>
    obtain ⟨id, t₁, hsave, h⟩ := PyM.bind_eq_ok.mp h
    cases h
    obtain ⟨hid, hrole, rfl⟩ := IdentityStore.saveBinding_eq_ok hsave
    exact .saveBinding binding uuid hid hrole
  | deleteBinding bindingId =>
    obtain rfl := IdentityStore.deleteBinding_eq_ok h
    exact .deleteBinding bindingId

/-! ### Tables and histories -/

/-- The tables hold the changes of the history that stand, and count the saves. -/
structure Reflects (history : List RoleChange) (t : IdentityTables) : Prop where
  roles : ∀ role, role ∈ t.roles ↔ Standing RoleChange.Cancels history (.saved role)
  counts : ∀ name, saves name history =
    if name ∈ t.roles.map RoleDefinition.name then t.revision name else 0
  bindings : ∀ row : BindingRow, row ∈ t.bindings ↔
    Standing RoleChange.Cancels history (.bound row.bindingId row.binding)

theorem reflects_empty : Reflects [] .empty where
  roles _ := iff_of_false List.not_mem_nil standing_nil
  counts _ := rfl
  bindings _ := iff_of_false List.not_mem_nil standing_nil

/-- The revisions after one more change. -/
theorem Reflects.counts_step {history : List RoleChange} {t t' : IdentityTables} {call : RoleCall}
    (h : Reflects history t) (hcall : Applies t call t') (name : Str) :
    saves name (history ++ [call.change]) =
      if name ∈ t'.roles.map RoleDefinition.name then t'.revision name else 0 := by
  rw [saves_concat, h.counts name]
  cases hcall with
  | saveRole role expectedRevision =>
    show (if role.name = name then _ else _) = _
    by_cases hname : name = role.name
    · subst hname
      rw [if_pos rfl, if_pos (IdentityTables.mem_names_putRole.mpr (.inl rfl))]
      show _ = if role.name ≠ role.name then _ else _
      rw [if_neg (not_not.mpr rfl)]
      split
      · rfl
      · rfl
    · rw [if_neg (Ne.symm hname)]
      have hmem : name ∈ (t.putRole role).roles.map RoleDefinition.name ↔
          name = role.name ∨ name ∈ t.roles.map RoleDefinition.name :=
        IdentityTables.mem_names_putRole
      rw [or_iff_right hname] at hmem
      have hrevision : (t.putRole role).revision name = t.revision name := if_pos hname
      rw [if_congr hmem hrevision rfl]
  | deleteRole removed =>
    show (if removed = name then _ else _) = _
    have hmem : name ∈ (t.removeRole removed).roles.map RoleDefinition.name ↔
        name ∈ t.roles.map RoleDefinition.name ∧ name ≠ removed :=
      IdentityTables.mem_names_removeRole
    by_cases hname : removed = name
    · rw [if_pos hname, if_neg fun h => (hmem.mp h).2 hname.symm]
    · rw [if_neg hname, if_congr (hmem.trans (and_iff_left (Ne.symm hname))) rfl rfl]
      rfl
  | saveBinding binding uuid hid hrole => rfl
  | deleteBinding bindingId => rfl

/-- One more change, by cases on the call. -/
theorem Reflects.step {history : List RoleChange} {t t' : IdentityTables} {call : RoleCall}
    (h : Reflects history t) (hcall : Applies t call t') :
    Reflects (history ++ [call.change]) t' := by
  have hcounts := h.counts_step hcall
  obtain ⟨hroles, -, hbindings⟩ := h
  cases hcall with
  | saveRole role expectedRevision =>
    refine ⟨fun r => ?_, hcounts, fun row => ?_⟩
    · -- the definition that stood under the name is replaced
      rw [standing_concat, ← hroles]
      show r ∈ upsert RoleDefinition.name role t.roles ↔ _
      rw [mem_upsert_iff t.roleNames]
      exact or_congr ⟨fun h => h ▸ rfl, fun h => RoleChange.saved.inj h⟩ Iff.rfl
    · rw [standing_concat, ← hbindings]
      exact ⟨fun h => .inr ⟨h, id⟩, fun h => h.elim (fun h => by cases h) And.left⟩
  | deleteRole name =>
    refine ⟨fun r => ?_, hcounts, fun row => ?_⟩
    · rw [standing_concat, ← hroles]
      show r ∈ t.roles.filter (fun role => role.name ≠ name) ↔ _
      rw [List.mem_filter, decide_eq_true_iff]
      exact ⟨.inr, fun h => h.elim (fun h => by cases h) id⟩
    · -- the bindings of the role go with it
      rw [standing_concat, ← hbindings]
      show row ∈ t.bindings.filter (fun row => row.binding.role ≠ name) ↔ _
      rw [List.mem_filter, decide_eq_true_iff]
      exact ⟨.inr, fun h => h.elim (fun h => by cases h) id⟩
  | saveBinding binding uuid hid hrole =>
    refine ⟨fun r => ?_, hcounts, fun row => ?_⟩
    · rw [standing_concat, ← hroles]
      exact ⟨fun h => .inr ⟨h, id⟩, fun h => h.elim (fun h => by cases h) And.left⟩
    · rw [standing_concat, ← hbindings]
      show row ∈ t.bindings ++ [⟨uuid, binding⟩] ↔ _
      rw [List.mem_append, List.mem_singleton, or_comm]
      refine or_congr ⟨fun h => h ▸ rfl, fun h => ?_⟩ (and_iff_left id).symm
      obtain ⟨rowId, rowBinding⟩ := row
      obtain ⟨rfl, rfl⟩ := RoleChange.bound.inj h
      rfl
  | deleteBinding bindingId =>
    refine ⟨fun r => ?_, hcounts, fun row => ?_⟩
    · rw [standing_concat, ← hroles]
      exact ⟨fun h => .inr ⟨h, id⟩, fun h => h.elim (fun h => by cases h) And.left⟩
    · rw [standing_concat, ← hbindings]
      show row ∈ t.bindings.filter (fun row => row.bindingId ≠ bindingId) ↔ _
      rw [List.mem_filter, decide_eq_true_iff]
      exact ⟨.inr, fun h => h.elim (fun h => by cases h) id⟩

/-- A whole run, by induction on its calls. -/
theorem Reflects.run {store : IdentityStore} {calls : List RoleCall} {history : List RoleChange}
    {t : IdentityTables} (h : Reflects history t) :
    Reflects (history ++ (performRoleCalls store calls t).1) (performRoleCalls store calls t).2 := by
  induction calls generalizing history t with
  | nil =>
    rw [performRoleCalls, List.append_nil]
    exact h
  | cons call calls ih =>
    rw [performRoleCalls]
    rcases hcall : call.perform store t with ⟨exc | u, t'⟩
    · obtain rfl := RoleCall.allOrNothing store call _ _ _ hcall
      exact ih h
    · have hrest := ih (h.step (RoleCall.applies hcall))
      rw [List.append_assoc] at hrest
      exact hrest

/-! ### Decisions -/

/-- What the history permits: a role that the principal carries, or is bound to
by a binding that stands, and a definition of the role that stands and covers
the action. -/
def HistoryPermits (history : List RoleChange) (principal : Principal)
    (action resource environment : Str) : Prop :=
  ∃ name,
    (name ∈ principal.roles ∨ ∃ bindingId binding,
      Standing RoleChange.Cancels history (.bound bindingId binding) ∧ binding.role = name ∧
        RBACAuthorizer.Binds binding principal environment) ∧
    ∃ role, Standing RoleChange.Cancels history (.saved role) ∧ role.name = name ∧
      role.Covers action resource

theorem Reflects.allows_iff {history : List RoleChange} {t : IdentityTables}
    (h : Reflects history t) {principal : Principal} {action resource environment : Str} :
    t.Allows principal action resource environment ↔
      HistoryPermits history principal action resource environment := by
  rw [IdentityTables.Allows, RBACAuthorizer.permitted_iff]
  refine exists_congr fun name => and_congr ?_ ?_
  · rw [IdentityTables.hasRole_iff]
    refine or_congr_right ⟨?_, ?_⟩
    · rintro ⟨row, hrow, hrole, hbinds⟩
      exact ⟨row.bindingId, row.binding, (h.bindings row).mp hrow, hrole, hbinds⟩
    · rintro ⟨bindingId, binding, hstands, hrole, hbinds⟩
      exact ⟨⟨bindingId, binding⟩, (h.bindings ⟨bindingId, binding⟩).mpr hstands, hrole, hbinds⟩
  · refine exists_congr fun role => ?_
    have hrow : t.authorizer.role name = some role ↔ role ∈ t.roles ∧ role.name = name :=
      rowAt_eq_some_iff t.roleNames
    rw [hrow, h.roles, and_assoc]

/-- A role that is saved with an expected revision stands, and was saved that many
times since there was none of its name. -/
theorem Reflects.expected {store : IdentityStore} {history : List RoleChange} {t t' : IdentityTables}
    (h : Reflects history t) {role : RoleDefinition} {expected : Int} {u : Unit}
    (hsave : store.saveRole role (some expected) t = (.ok u, t')) :
    saves role.name history = expected ∧
      ∃ standing, Standing RoleChange.Cancels history (.saved standing) ∧
        standing.name = role.name := by
  rw [IdentityStore.saveRole] at hsave
  split_ifs at hsave
  · obtain ⟨-, hmem, hrevision⟩ := IdentityStore.updateRole_eq_ok hsave
    obtain ⟨standing, hstanding, hname⟩ := List.mem_map.mp hmem
    rw [h.counts, if_pos hmem]
    exact ⟨hrevision, standing, (h.roles standing).mp hstanding, hname⟩
  · cases hsave

/-- Whatever calls were made, on either store, a decision never raises, and it
is the one the history of the calls that returned gives: a role has the
definition it was saved with last, unless it was deleted since, and a binding
holds until it or its role is deleted, whether or not the role is saved again.
A role that is saved with an expected revision was saved that often. -/
theorem decision_of_history (store : IdentityStore) (calls : List RoleCall)
    (principal : Principal) (action resource environment : Str) :
    (∃ b, dynamicAuthorize (performRoleCalls store calls .empty).2 principal action resource
        environment = .ok b ∧
      (b = true ↔ HistoryPermits (performRoleCalls store calls .empty).1 principal action resource
        environment)) ∧
    (dynamicRequire (performRoleCalls store calls .empty).2 principal action resource environment =
        .ok () ↔
      HistoryPermits (performRoleCalls store calls .empty).1 principal action resource
        environment) ∧
    ∀ role expected t', store.saveRole role (some expected) (performRoleCalls store calls .empty).2 =
        (.ok (), t') →
      saves role.name (performRoleCalls store calls .empty).1 = expected ∧
        ∃ standing, Standing RoleChange.Cancels (performRoleCalls store calls .empty).1
          (.saved standing) ∧ standing.name = role.name := by
  have hreflects : Reflects (performRoleCalls store calls .empty).1
      (performRoleCalls store calls .empty).2 := by
    have hrun : Reflects ([] ++ (performRoleCalls store calls .empty).1) _ := reflects_empty.run
    rwa [List.nil_append] at hrun
  have hdecides : (performRoleCalls store calls .empty).2.authorizer.authorize principal action
      resource environment = true ↔ HistoryPermits (performRoleCalls store calls .empty).1
        principal action resource environment :=
    IdentityTables.authorize_eq_true.trans hreflects.allows_iff
  rw [dynamicRequire_eq, RBACAuthorizer.require_eq_ok]
  exact ⟨⟨_, dynamicAuthorize_eq .., hdecides⟩, hdecides, fun _ _ _ => hreflects.expected⟩

/-- A binding does not come back with its role. -/
example (binding : RoleBinding) (role : RoleDefinition) (h : binding.role = role.name) :
    ¬ Standing RoleChange.Cancels
      [.saved role, .bound (lit "b") binding, .removed role.name, .saved role]
      (.bound (lit "b") binding) := by
  rw [show [RoleChange.saved role, .bound (lit "b") binding, .removed role.name, .saved role] =
    [.saved role, .bound (lit "b") binding] ++ [.removed role.name] ++ [.saved role] from rfl,
    standing_concat, standing_concat]
  rintro (h' | ⟨h' | ⟨-, hkept⟩, -⟩)
  · cases h'
  · cases h'
  · exact hkept h

end AgentRoi
