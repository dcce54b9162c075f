/-
`agent_roi.enterprise.identity`: principals, roles and the authorizer.

* `Principal`, `RoleDefinition`, `RoleBinding` — as `__post_init__` leaves
  them;
* `RBACAuthorizer` — the roles by their names, and the bindings to them;
* `effectiveRoles`, `permissionsFor`, `authorize`, `require` — its methods;
* `Permitted`, `authorize_iff` — what it allows.

A set is a list here, whatever its order.
-/
import AgentRoi.Dict
import AgentRoi.FnMatch
import AgentRoi.PyM

namespace AgentRoi

/-- A non-empty text with no space around it. -/
def IsClean (text : Str) : Prop := isBlank text = false ∧ strip text = text

instance (text : Str) : Decidable (IsClean text) := inferInstanceAs (Decidable (_ ∧ _))

structure Principal where
  subject : Str
  organizationId : Str
  roles : List Str
  groups : List Str
  subject_clean : IsClean subject
  organizationId_clean : IsClean organizationId
  roles_clean : ∀ role ∈ roles, IsClean role
  groups_clean : ∀ group ∈ groups, IsClean group

structure RoleDefinition where
  name : Str
  permissions : List Str
  description : Str
  name_clean : IsClean name
  permissions_clean : ∀ permission ∈ permissions, IsClean permission

structure RoleBinding where
  role : Str
  organizationId : Str
  subject : Str
  group : Str
  environment : Str
  role_not_blank : isBlank role = false
  organizationId_not_blank : isBlank organizationId = false
  subject_or_group : isBlank subject = !isBlank group
  deriving DecidableEq

/-- `_clean_set`. -/
def cleanSet : List Str → Except PyExc (List Str)
  | [] => .ok []
  | value :: values =>
    if isBlank value then
      .error (.valueError (lit "Identity collections must contain non-empty strings"))
    else do
      let cleaned ← cleanSet values
      return strip value :: cleaned

/-- `AuthorizationError`, a `PermissionError`. -/
def authorizationError (message : Str) : PyExc :=
  .other (lit "AuthorizationError") (some message) true

/-- The roles are the values of `_roles`, one for each name. -/
structure RBACAuthorizer where
  roles : List RoleDefinition
  bindings : List RoleBinding
  defaultDeny : Bool
  distinct : (roles.map RoleDefinition.name).Nodup
  known : ∀ binding ∈ bindings, binding.role ∈ roles.map RoleDefinition.name

namespace RBACAuthorizer

variable (auth : RBACAuthorizer) (principal : Principal)

/-- `self._roles.get(name)`. -/
def role (name : Str) : Option RoleDefinition := auth.roles.find? fun role => role.name = name

/-- The binding is one of the principal, in the environment. -/
def Binds (binding : RoleBinding) (principal : Principal) (environment : Str) : Prop :=
  binding.organizationId = principal.organizationId ∧
    (binding.environment = lit "*" ∨ binding.environment = environment) ∧
    ((binding.subject ≠ [] ∧ binding.subject = principal.subject) ∨
      (binding.group ≠ [] ∧ binding.group ∈ principal.groups))

instance (binding : RoleBinding) (environment : Str) :
    Decidable (Binds binding principal environment) :=
  inferInstanceAs (Decidable (_ ∧ _ ∧ _))

/-- `effective_roles`. -/
def effectiveRoles (environment : Str) : List Str :=
  principal.roles ++
    (auth.bindings.filter fun binding => Binds binding principal environment).map RoleBinding.role

/-- `permissions_for`. -/
def permissionsFor (environment : Str) : List Str :=
  (auth.effectiveRoles principal environment).flatMap fun name =>
    (auth.role name).elim [] RoleDefinition.permissions

/-- `f"{action}:{resource}" if resource else action`. -/
def requested (action resource : Str) : Str :=
  if resource = [] then action else action ++ lit ":" ++ resource

/-- `authorize`, of a principal and the environment of the context. -/
def authorize (action resource environment : Str) : Bool :=
  (auth.permissionsFor principal environment).any (fun permission =>
    permission = lit "*" || [action, requested action resource].any fun candidate =>
      fnmatchcase candidate permission) || !auth.defaultDeny

/-- `require`. -/
def require (action resource environment : Str) : Except PyExc Unit :=
  if auth.authorize principal action resource environment then .ok ()
  else .error (authorizationError (lit "Principal '" ++ principal.subject ++
    lit "' is not authorized for " ++ action ++ lit " on " ++
    if resource = [] then lit "*" else resource))

variable {auth principal} {action resource environment : Str}

/-- A role the principal has in the environment, its own or bound, with a
permission that covers the action. -/
def Permitted (auth : RBACAuthorizer) (principal : Principal)
    (action resource environment : Str) : Prop :=
  ∃ name definition permission, (name ∈ principal.roles ∨
      ∃ binding ∈ auth.bindings, binding.role = name ∧ Binds binding principal environment) ∧
    auth.role name = some definition ∧ permission ∈ definition.permissions ∧
    (permission = lit "*" ∨ fnmatchcase action permission = true ∨
      fnmatchcase (requested action resource) permission = true)

theorem mem_effectiveRoles {name : Str} : name ∈ auth.effectiveRoles principal environment ↔
    name ∈ principal.roles ∨
      ∃ binding ∈ auth.bindings, binding.role = name ∧ Binds binding principal environment := by
  unfold effectiveRoles
  rw [List.mem_append, List.mem_map]
  refine or_congr_right (exists_congr fun binding => ?_)
  rw [List.mem_filter, decide_eq_true_iff, and_assoc, and_congr_right_iff]
  exact fun _ => and_comm

theorem mem_permissionsFor {permission : Str} :
    permission ∈ auth.permissionsFor principal environment ↔
      ∃ name definition, name ∈ auth.effectiveRoles principal environment ∧
        auth.role name = some definition ∧ permission ∈ definition.permissions := by
  unfold permissionsFor
  rw [List.mem_flatMap]
  refine exists_congr fun name => ?_
  cases hrole : auth.role name with
  | none => simp
  | some definition => simp

/-- `authorize` allows what is permitted, and everything unless it denies by
default. -/
theorem authorize_iff : auth.authorize principal action resource environment = true ↔
    auth.Permitted principal action resource environment ∨ auth.defaultDeny = false := by
  unfold authorize Permitted
  rw [Bool.or_eq_true, Bool.not_eq_true', List.any_eq_true]
  refine or_congr_left ?_
  constructor
  · rintro ⟨permission, hpermission, hmatch⟩
    obtain ⟨name, definition, hname, hrole, hmem⟩ := mem_permissionsFor.mp hpermission
    refine ⟨name, definition, permission, mem_effectiveRoles.mp hname, hrole, hmem, ?_⟩
    simpa [or_assoc] using hmatch
  · rintro ⟨name, definition, permission, hname, hrole, hmem, hmatch⟩
    refine ⟨permission, mem_permissionsFor.mpr
      ⟨name, definition, mem_effectiveRoles.mpr hname, hrole, hmem⟩, ?_⟩
    simpa [or_assoc] using hmatch

theorem require_eq_ok : auth.require principal action resource environment = .ok () ↔
    auth.authorize principal action resource environment = true := by
  unfold require
  split
  · next h => simp [h]
  · next h => simp [h]

end RBACAuthorizer

end AgentRoi
