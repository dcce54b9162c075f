/-
`policy_from_mapping` of `agent_roi.policies.loader`, with the constructors of
`Guardrails` and `DecisionPolicy`.

* `GuardrailSettings`, `guardrailsOf` — `Guardrails(**members)`;
* `DecisionSettings`, `decisionPolicyOf` — `DecisionPolicy(**members)`;
* `policyFromMapping` — the validated policy;
* `policyFromMapping_sortKeys` — whether a policy is accepted does not depend
  on the order of its members.
-/
import AgentRoi.PolicyValidation
import AgentRoi.PyM

namespace AgentRoi

variable {F : Type}

/-- The fields of `Guardrails`; `C` is how costs are kept. -/
structure GuardrailSettings (C : Type) where
  maxSteps : Int
  maxToolCalls : Int
  maxCostUsd : C
  deterministic : Bool
  allowedTools : Option (List Str)
  requireRegisteredTools : Bool
  requireBoundApprovalGrants : Bool

/-- The fields of `DecisionPolicy`. -/
structure DecisionSettings (F : Type) where
  minConfidence : F
  abstainAction : Str
  wProb : F
  wMargin : F
  wZ : F
  wEntropy : F
  wLlm : F

/-- `Policy`, with the data before it is frozen. -/
structure Policy (F : Type) where
  name : Str
  data : List (Str × Json F)

section

variable [PyFloatOps F]

/-- `cls(**members)` with a name the class has no parameter for. -/
def checkKeywords (names : List Str) (members : List (Str × Json F)) : Except PyExc Unit :=
  if members.all fun p => p.1 ∈ names then .ok () else .error (.typeError [])

def intField (members : List (Str × Json F)) (key : Str) (default min : Int) (message : Str) :
    Except PyExc Int :=
  match dictGet key members with
  | none => .ok default
  | some (.int i) => if i < min then .error (.valueError message) else .ok i
  | _ => .error (.valueError message)

def boolField (members : List (Str × Json F)) (key : Str) (default : Bool) : Except PyExc Bool :=
  match dictGet key members with
  | none => .ok default
  | some (.bool b) => .ok b
  | _ => .error (.valueError (key ++ lit " must be a boolean"))

def guardrailKeys : List Str :=
  [lit "max_steps", lit "max_tool_calls", lit "max_cost_usd", lit "deterministic",
    lit "allowed_tools", lit "require_registered_tools", lit "require_bound_approval_grants"]

/-- One of the `allowed_tools`. -/
def toolName : Json F → Except PyExc Str
  | .str s =>
    if isBlank s then
      .error (.valueError (lit "allowed_tools must contain only non-empty strings"))
    else .ok (strip s)
  | _ => .error (.valueError (lit "allowed_tools must contain only non-empty strings"))

/-- `allowed_tools` as `_normalize_policy` and the constructor make it. -/
def allowedTools (members : List (Str × Json F)) : Except PyExc (Option (List Str)) :=
  match dictGet (lit "allowed_tools") members with
  | none | some .null => .ok none
  | some (.arr items) => do
    let names ← items.mapM toolName
    return some names
  | some (.str _) =>
    .error (.valueError (lit "allowed_tools must be an iterable of non-empty tool names"))
  | _ => .error (.typeError [])

/-- `float(max_cost_usd)`, which must be finite and not negative. -/
def maxCost (members : List (Str × Json F)) : Except PyExc F :=
  match dictGet (lit "max_cost_usd") members with
  | none => .ok PyFloatOps.one
  | some value => do
    match ← toFloat value with
    | .finite f =>
      if lt f PyFloatOps.zero then .error (.valueError (lit "max_cost_usd must be finite and >= 0"))
      else .ok f
    | _ => .error (.valueError (lit "max_cost_usd must be finite and >= 0"))

/-- `Guardrails(**members)`. -/
def guardrailsOf (members : List (Str × Json F)) : Except PyExc (GuardrailSettings F) := do
  checkKeywords guardrailKeys members
  let maxSteps ← intField members (lit "max_steps") 10 1 (lit "max_steps must be an integer >= 1")
  let maxToolCalls ← intField members (lit "max_tool_calls") 20 0
    (lit "max_tool_calls must be an integer >= 0")
  let deterministic ← boolField members (lit "deterministic") true
  let requireRegisteredTools ← boolField members (lit "require_registered_tools") false
  let requireBoundApprovalGrants ← boolField members (lit "require_bound_approval_grants") false
  let maxCostUsd ← maxCost members
  let allowedTools ← allowedTools members
  return { maxSteps, maxToolCalls, maxCostUsd, deterministic, allowedTools
           requireRegisteredTools, requireBoundApprovalGrants }

def decisionKeys : List Str :=
  lit "min_confidence" :: lit "abstain_action" :: weightKeys

/-- A float written in the source. -/
def floatLiteral (text : String) : Except PyExc F :=
  match PyFloat.ofText (lit text) with
  | .finite f => .ok f
  | _ => .error (.valueError [])

/-- `_finite_number(getattr(self, name), name)`. -/
def finiteField (members : List (Str × Json F)) (key : Str) (default : String) : Except PyExc F :=
  match dictGet key members with
  | none => floatLiteral default
  | some value =>
    match toFloat value with
    | .ok (.finite f) => .ok f
    | .ok _ => .error (.valueError (key ++ lit " must be finite"))
    | .error (.typeError _) | .error (.valueError _) =>
      .error (.valueError (key ++ lit " must be numeric"))
    | .error e => .error e

def weightField (members : List (Str × Json F)) (key : Str) (default : String) : Except PyExc F := do
  let weight ← finiteField members key default
  if lt weight PyFloatOps.zero then .error (.valueError (key ++ lit " must be >= 0"))
  else .ok weight

def abstainAction (members : List (Str × Json F)) : Except PyExc Str :=
  match dictGet (lit "abstain_action") members with
  | none => .ok (lit "human_review")
  | some (.str action) =>
    if action ∈ DecisionOutcome then .ok action
    else .error (.valueError
      (lit "abstain_action must be one of: accept, abstain, human_review, retry"))
  -- no other value prints as one of the outcomes
  | some _ => .error (.valueError
      (lit "abstain_action must be one of: accept, abstain, human_review, retry"))

/-- `_weight_denominator() <= 0`. -/
def noEvidence (d : DecisionSettings F) : Bool :=
  match [d.wMargin, d.wZ, d.wEntropy, d.wLlm].foldl addFloat (.finite d.wProb) with
  | .finite total => PyFloatOps.le total PyFloatOps.zero
  | .negInf => true
  | _ => false

/-- `DecisionPolicy(**members)`. -/
def decisionPolicyOf (members : List (Str × Json F)) : Except PyExc (DecisionSettings F) := do
  checkKeywords decisionKeys members
  let minConfidence ← finiteField members (lit "min_confidence") "0.75"
  if !(PyFloatOps.le PyFloatOps.zero minConfidence && PyFloatOps.le minConfidence PyFloatOps.one) then
    .error (.valueError (lit "min_confidence must be between 0 and 1"))
  let abstainAction ← abstainAction members
  let wProb ← weightField members (lit "w_prob") "0.55"
  let wMargin ← weightField members (lit "w_margin") "0.20"
  let wZ ← weightField members (lit "w_z") "0.15"
  let wEntropy ← weightField members (lit "w_entropy") "0.10"
  let wLlm ← weightField members (lit "w_llm") "0.10"
  let settings := DecisionSettings.mk minConfidence abstainAction wProb wMargin wZ wEntropy wLlm
  if noEvidence settings then
    .error (.valueError (lit "At least one confidence weight must be > 0"))
  return settings

/-- `dict(normalized[key])`. -/
def policySection (data : List (Str × Json F)) (key : Str) : Except PyExc (List (Str × Json F)) :=
  match dictGet key data with
  | some (.obj members) => .ok members
  | some _ => .error (.typeError [])
  | none => .error (.keyError [key])

/-- `policy_from_mapping`. -/
def policyFromMapping (name : Str) (data : List (Str × Json F)) : Except PyExc (Policy F) := do
  if isBlank name then .error (.valueError (lit "name must be a non-empty string"))
  validatePolicy (.obj data)
  let guardrails ← policySection data (lit "guardrails")
  let _ ← guardrailsOf guardrails
  let decisionPolicy ← policySection data (lit "decision_policy")
  let _ ← decisionPolicyOf decisionPolicy
  return ⟨strip name, data⟩

/-! ### The order of the members -/

/-- The members of `sortKeys`. -/
def sortedMembers (members : List (Str × Json F)) : List (Str × Json F) :=
  (sortByKey members).map fun p => (p.1, p.2.sortKeys)

variable {d : List (Str × Json F)} {key : Str}

omit [PyFloatOps F] in
theorem sortKeys_obj_eq : (Json.obj d).sortKeys = .obj (sortedMembers d) := Json.sortKeys_obj d

omit [PyFloatOps F] in
theorem mem_sortedMembers {q : Str × Json F} :
    q ∈ sortedMembers d ↔ ∃ p ∈ d, q = (p.1, p.2.sortKeys) := by
  simp only [sortedMembers, List.mem_map, mem_sortByKey, eq_comm]

omit [PyFloatOps F] in
theorem dictGet_sortedMembers (hd : (d.map Prod.fst).Nodup) :
    dictGet key (sortedMembers d) = (dictGet key d).map Json.sortKeys := by
  rw [sortedMembers, dictGet_map_snd, dictGet_sortByKey hd]

theorem toFloat_sortKeys (value : Json F) : toFloat value.sortKeys = toFloat value := by
  cases value <;> simp [Json.sortKeys, toFloat]

omit [PyFloatOps F] in
theorem isNumber_sortKeys (value : Json F) : isNumber value.sortKeys = isNumber value := by
  cases value <;> simp [Json.sortKeys, isNumber]

theorem finiteNumber_sortKeys (value : Json F) :
    finiteNumber value.sortKeys = finiteNumber value := by
  rw [finiteNumber, finiteNumber, isNumber_sortKeys, toFloat_sortKeys]

theorem toInt_sortKeys (f : F) (value : Json F) : toInt f value.sortKeys = toInt f value := by
  cases value <;> simp [Json.sortKeys, toInt]

omit [PyFloatOps F] in
theorem isName_sortKeys (value : Json F) : isName value.sortKeys = isName value := by
  cases value <;> simp [Json.sortKeys, isName]

/-! #### Checks of one mapping -/

section

variable (hd : (d.map Prod.fst).Nodup)
include hd

theorem requireNumber_sortedMembers {path : Str} {min max : Option F} {required : Bool} :
    requireNumber (sortedMembers d) path key min max required =
      requireNumber d path key min max required := by
  unfold requireNumber
  rw [dictGet_sortedMembers hd]
  cases dictGet key d with
  | none => rfl
  | some value => simp only [Option.map_some, isNumber_sortKeys, toFloat_sortKeys]

theorem requireIntLike_sortedMembers {path : Str} {min : Int} :
    requireIntLike (sortedMembers d) path key min = requireIntLike d path key min := by
  unfold requireIntLike
  rw [dictGet_sortedMembers hd]
  cases dictGet key d with
  | none => rfl
  | some value => simp only [Option.map_some, finiteNumber_sortKeys, toInt_sortKeys]

omit [PyFloatOps F] in
theorem validateAllowedTools_sortedMembers :
    validateAllowedTools (sortedMembers d) = validateAllowedTools d := by
  unfold validateAllowedTools
  rw [dictGet_sortedMembers hd]
  cases dictGet (lit "allowed_tools") d with
  | none => rfl
  | some value =>
    cases value with
    | arr items =>
      have hall : (items.map Json.sortKeys).all isName = items.all isName := by
        rw [List.all_map]
        exact List.all_congr rfl fun item => isName_sortKeys item
      simp only [Option.map_some, Json.sortKeys_arr, hall]
    | _ => simp [Json.sortKeys]

theorem weightLoop_sortedMembers (keys : List Str) (present : Bool) (total : FloatVal F) :
    weightLoop (sortedMembers d) keys present total = weightLoop d keys present total := by
  induction keys generalizing present total with
  | nil => rfl
  | cons key keys ih =>
    unfold weightLoop
    rw [dictGet_sortedMembers hd]
    cases dictGet key d with
    | none => exact ih present total
    | some value => simp only [Option.map_some, isNumber_sortKeys, toFloat_sortKeys, ih]

theorem validateDecisionWeights_sortedMembers :
    validateDecisionWeights (sortedMembers d) = validateDecisionWeights d := by
  rw [validateDecisionWeights, validateDecisionWeights, weightLoop_sortedMembers hd]

omit [PyFloatOps F] in
theorem validateAbstainAction_sortedMembers :
    validateAbstainAction (sortedMembers d) = validateAbstainAction d := by
  unfold validateAbstainAction
  rw [dictGet_sortedMembers hd]
  cases dictGet (lit "abstain_action") d with
  | none => rfl
  | some value => cases value <;> simp [Json.sortKeys]

omit [PyFloatOps F] in
theorem validateFlag_sortedMembers : validateFlag (sortedMembers d) key = validateFlag d key := by
  unfold validateFlag
  rw [dictGet_sortedMembers hd]
  cases dictGet key d with
  | none => rfl
  | some value => cases value <;> simp [Json.sortKeys]

omit [PyFloatOps F] in
theorem validatePolicyName_sortedMembers :
    validatePolicyName (sortedMembers d) = validatePolicyName d := by
  unfold validatePolicyName
  rw [dictGet_sortedMembers hd]
  cases dictGet (lit "policy_name") d with
  | none => rfl
  | some value => simp only [Option.map_some, isName_sortKeys]

omit [PyFloatOps F] in
theorem validateRouting_sortedMembers :
    validateRouting (sortedMembers d) key = validateRouting d key := by
  unfold validateRouting
  rw [dictGet_sortedMembers hd]
  cases dictGet key d with
  | none => rfl
  | some value =>
    cases value with
    | arr risks =>
      have hrisk : ∀ risk : Json F, isRisk risk.sortKeys = isRisk risk := by
        intro risk
        cases risk <;> simp [Json.sortKeys, isRisk]
      simp only [Option.map_some, Json.sortKeys_arr, List.filter_map, List.map_map]
      simp [Function.comp_def, hrisk]
    | _ => simp [Json.sortKeys]

omit [PyFloatOps F] in
theorem requireMapping_sortedMembers {required : Bool} :
    requireMapping (sortedMembers d) key required =
      (sortedMembers (requireMapping d key required).1, (requireMapping d key required).2) := by
  unfold requireMapping
  rw [dictGet_sortedMembers hd]
  cases dictGet key d with
  | none => cases required <;> rfl
  | some value =>
    cases value with
    | obj members => cases required <;> simp [sortKeys_obj_eq]
    | arr items => cases required <;> simp [sortedMembers, sortByKey]
    | _ => cases required <;> simp [Json.sortKeys, sortedMembers, sortByKey]

omit hd [PyFloatOps F] in
theorem checkKeywords_sortedMembers {names : List Str} :
    checkKeywords names (sortedMembers d) = checkKeywords names d := by
  have hall : ((sortedMembers d).all fun p => decide (p.1 ∈ names)) =
      d.all fun p => decide (p.1 ∈ names) := by
    rw [Bool.eq_iff_iff, List.all_eq_true, List.all_eq_true]
    constructor
    · exact fun h p hp => h (p.1, p.2.sortKeys) (mem_sortedMembers.mpr ⟨p, hp, rfl⟩)
    · intro h q hq
      obtain ⟨p, hp, rfl⟩ := mem_sortedMembers.mp hq
      exact h p hp
  rw [checkKeywords, checkKeywords, hall]

omit [PyFloatOps F] in
theorem intField_sortedMembers {default min : Int} {message : Str} :
    intField (sortedMembers d) key default min message = intField d key default min message := by
  unfold intField
  rw [dictGet_sortedMembers hd]
  cases dictGet key d with
  | none => rfl
  | some value => cases value <;> simp [Json.sortKeys]

omit [PyFloatOps F] in
theorem boolField_sortedMembers {default : Bool} :
    boolField (sortedMembers d) key default = boolField d key default := by
  unfold boolField
  rw [dictGet_sortedMembers hd]
  cases dictGet key d with
  | none => rfl
  | some value => cases value <;> simp [Json.sortKeys]

theorem maxCost_sortedMembers : maxCost (sortedMembers d) = maxCost d := by
  unfold maxCost
  rw [dictGet_sortedMembers hd]
  cases dictGet (lit "max_cost_usd") d with
  | none => rfl
  | some value => simp only [Option.map_some, toFloat_sortKeys]

omit [PyFloatOps F] in
theorem allowedTools_sortedMembers : allowedTools (sortedMembers d) = allowedTools d := by
  unfold allowedTools
  rw [dictGet_sortedMembers hd]
  cases dictGet (lit "allowed_tools") d with
  | none => rfl
  | some value =>
    cases value with
    | arr items =>
      have htool : (items.map Json.sortKeys).mapM toolName = items.mapM toolName := by
        induction items with
        | nil => rfl
        | cons item items ih =>
          have hitem : toolName item.sortKeys = toolName item := by
            cases item <;> simp [Json.sortKeys, toolName]
          rw [List.map_cons, List.mapM_cons, List.mapM_cons, ih, hitem]
      simp only [Option.map_some, Json.sortKeys_arr, htool]
    | _ => simp [Json.sortKeys]

/-- `Guardrails(**members)` does not depend on the order of the members. -/
theorem guardrailsOf_sortedMembers : guardrailsOf (sortedMembers d) = guardrailsOf d := by
  simp only [guardrailsOf, checkKeywords_sortedMembers, intField_sortedMembers hd,
    boolField_sortedMembers hd, maxCost_sortedMembers hd, allowedTools_sortedMembers hd]

theorem finiteField_sortedMembers {default : String} :
    finiteField (sortedMembers d) key default = finiteField d key default := by
  unfold finiteField
  rw [dictGet_sortedMembers hd]
  cases dictGet key d with
  | none => rfl
  | some value => simp only [Option.map_some, toFloat_sortKeys]

omit [PyFloatOps F] in
theorem abstainAction_sortedMembers : abstainAction (sortedMembers d) = abstainAction d := by
  unfold abstainAction
  rw [dictGet_sortedMembers hd]
  cases dictGet (lit "abstain_action") d with
  | none => rfl
  | some value => cases value <;> simp [Json.sortKeys]

theorem decisionPolicyOf_sortedMembers : decisionPolicyOf (sortedMembers d) = decisionPolicyOf d := by
  simp only [decisionPolicyOf, weightField, checkKeywords_sortedMembers,
    finiteField_sortedMembers hd, abstainAction_sortedMembers hd]

omit [PyFloatOps F] in
theorem policySection_sortedMembers :
    policySection (sortedMembers d) key = (policySection d key).map sortedMembers := by
  unfold policySection
  rw [dictGet_sortedMembers hd]
  cases dictGet key d with
  | none => rfl
  | some value =>
    cases value with
    | obj members => simp [sortKeys_obj_eq, Except.map]
    | _ => simp [Json.sortKeys, Except.map]

end

/-! #### The whole policy -/

theorem Messages.all_eq_nil {checks : List Messages} :
    Messages.all checks = .ok [] ↔ ∀ check ∈ checks, check = .ok [] := by
  induction checks with
  | nil => exact ⟨fun _ _ h => absurd h List.not_mem_nil, fun _ => rfl⟩
  | cons check checks ih =>
    rw [Messages.all, except_bind_eq_ok, List.forall_mem_cons]
    constructor
    · rintro ⟨first, hfirst, h⟩
      obtain ⟨rest, hrest, h⟩ := except_bind_eq_ok.mp h
      obtain ⟨rfl, rfl⟩ := List.append_eq_nil_iff.mp (Except.ok.inj h)
      exact ⟨hfirst, ih.mp hrest⟩
    · rintro ⟨hfirst, hrest⟩
      exact ⟨[], hfirst, except_bind_eq_ok.mpr ⟨[], ih.mpr hrest, rfl⟩⟩

theorem validatePolicy_eq_ok {u : Unit} : validatePolicy (.obj d) = .ok u ↔
    ∀ check ∈ policyChecks d, check = .ok [] := by
  rw [← Messages.all_eq_nil, validatePolicy, except_bind_eq_ok]
  constructor
  · rintro ⟨errors, herrors, h⟩
    cases errors with
    | nil => exact herrors
    | cons error errors => cases h
  · exact fun h => ⟨[], h, rfl⟩

omit [PyFloatOps F] in
/-- Checks of every member pass in any order. -/
theorem all_sortedMembers {check check' : Str × Json F → Messages}
    (h : ∀ p ∈ d, (check (p.1, p.2.sortKeys) = .ok [] ↔ check' p = .ok [])) :
    Messages.all ((sortedMembers d).map check) = .ok [] ↔
      Messages.all (d.map check') = .ok [] := by
  rw [Messages.all_eq_nil, Messages.all_eq_nil, List.forall_mem_map, List.forall_mem_map]
  constructor
  · exact fun hall p hp => (h p hp).mp (hall _ (mem_sortedMembers.mpr ⟨p, hp, rfl⟩))
  · intro hall q hq
    obtain ⟨p, hp, rfl⟩ := mem_sortedMembers.mp hq
    exact (h p hp).mpr (hall p hp)

theorem validateThreshold_sortKeys {path : Str} (p : Str × Json F) :
    validateThreshold path (p.1, p.2.sortKeys) = validateThreshold path p := by
  obtain ⟨name, value⟩ := p
  cases value <;> simp [validateThreshold, Json.sortKeys, finiteNumber, isNumber]

theorem validateSection_sortKeys {path : Str} (p : Str × Json F) :
    validateSection path (p.1, p.2.sortKeys) = .ok [] ↔ validateSection path p = .ok [] := by
  obtain ⟨name, value⟩ := p
  cases value with
  | obj entries =>
    simp only [sortKeys_obj_eq, validateSection]
    exact all_sortedMembers fun p _ => by rw [validateThreshold_sortKeys]
  | _ => simp [Json.sortKeys, validateSection]

theorem validateMultiplier_sortKeys (p : Str × Json F) :
    validateMultiplier (p.1, p.2.sortKeys) = validateMultiplier p := by
  simp only [validateMultiplier, finiteNumber_sortKeys]

theorem validateScoring_sortedMembers (hd : (d.map Prod.fst).Nodup) :
    validateScoring (sortedMembers d) = .ok [] ↔ validateScoring d = .ok [] := by
  unfold validateScoring
  rw [dictGet_sortedMembers hd]
  cases dictGet (lit "savings_multipliers") d with
  | none => rfl
  | some value =>
    cases value with
    | obj entries =>
      simp only [Option.map_some, sortKeys_obj_eq]
      exact all_sortedMembers fun p _ => by rw [validateMultiplier_sortKeys]
    | _ => simp [Json.sortKeys]

omit [PyFloatOps F] in
theorem requireMapping_distinct (h : (Json.obj d).Distinct) {required : Bool} :
    (((requireMapping d key required).1).map Prod.fst).Nodup := by
  unfold requireMapping
  split
  · exact .nil
  · next members _ hget =>
    obtain ⟨-, hvalues⟩ := Json.distinct_obj_iff.mp h
    have hmem := (dictGet_eq_some_iff (Json.distinct_obj_iff.mp h).1).mp hget
    exact (Json.distinct_obj_iff.mp (hvalues _ hmem)).1
  · exact .nil

theorem validatePolicy_sortedMembers (h : (Json.obj d).Distinct) {u : Unit} :
    validatePolicy (.obj (sortedMembers d)) = .ok u ↔ validatePolicy (.obj d) = .ok u := by
  have hd := (Json.distinct_obj_iff.mp h).1
  have hsub : ∀ key required, (((requireMapping d key required).1).map Prod.fst).Nodup :=
    fun key required => requireMapping_distinct h
  rw [validatePolicy_eq_ok, validatePolicy_eq_ok]
  simp only [policyChecks, List.forall_mem_cons, requireMapping_sortedMembers hd,
    validatePolicyName_sortedMembers hd, requireIntLike_sortedMembers (hsub _ _),
    requireNumber_sortedMembers (hsub _ _), validateFlag_sortedMembers (hsub _ _),
    validateAllowedTools_sortedMembers (hsub _ _), validateAbstainAction_sortedMembers (hsub _ _),
    validateDecisionWeights_sortedMembers (hsub _ _), validateScoring_sortedMembers (hsub _ _),
    validateRouting_sortedMembers (hsub _ _),
    all_sortedMembers fun p _ => validateSection_sortKeys p]

theorem policyFromMapping_accepts {name : Str} :
    (∃ policy, policyFromMapping name d = .ok policy) ↔
      isBlank name = false ∧ validatePolicy (.obj d) = .ok () ∧
      (∃ members settings, policySection d (lit "guardrails") = .ok members ∧
        guardrailsOf members = .ok settings) ∧
      ∃ members settings, policySection d (lit "decision_policy") = .ok members ∧
        decisionPolicyOf members = .ok settings := by
  unfold policyFromMapping
  cases hname : isBlank name with
  | true =>
    constructor
    · rintro ⟨policy, h⟩
      cases h
    · rintro ⟨h, -⟩
      cases h
  | false =>
    simp only [Bool.false_eq_true, if_false, true_and]
    constructor
    · rintro ⟨policy, h⟩
      obtain ⟨_, hvalid, h⟩ := except_bind_eq_ok.mp h
      obtain ⟨members, hmembers, h⟩ := except_bind_eq_ok.mp h
      obtain ⟨settings, hsettings, h⟩ := except_bind_eq_ok.mp h
      obtain ⟨members', hmembers', h⟩ := except_bind_eq_ok.mp h
      obtain ⟨settings', hsettings', -⟩ := except_bind_eq_ok.mp h
      exact ⟨hvalid, ⟨members, settings, hmembers, hsettings⟩,
        ⟨members', settings', hmembers', hsettings'⟩⟩
    · rintro ⟨hvalid, ⟨members, settings, hmembers, hsettings⟩,
        ⟨members', settings', hmembers', hsettings'⟩⟩
      refine ⟨⟨strip name, d⟩, ?_⟩
      rw [hvalid, hmembers, hmembers']
      simp [bind, Except.bind, hsettings, hsettings', pure, Except.pure]

omit [PyFloatOps F] in
theorem policySection_distinct (h : (Json.obj d).Distinct) {members : List (Str × Json F)}
    (hmembers : policySection d key = .ok members) : (members.map Prod.fst).Nodup := by
  obtain ⟨hd, hvalues⟩ := Json.distinct_obj_iff.mp h
  unfold policySection at hmembers
  split at hmembers
  · next found hget =>
    cases hmembers
    exact (Json.distinct_obj_iff.mp (hvalues _ ((dictGet_eq_some_iff hd).mp hget))).1
  · cases hmembers
  · cases hmembers

/-- Whether a policy is accepted does not depend on the order of its members. -/
theorem policyFromMapping_sortKeys {name : Str} (h : (Json.obj d).Distinct) :
    (∃ policy, policyFromMapping name (sortedMembers d) = .ok policy) ↔
      ∃ policy, policyFromMapping name d = .ok policy := by
  have hd := (Json.distinct_obj_iff.mp h).1
  -- a section of the sorted policy is the sorted section
  have hsection : ∀ {α : Type} (of : List (Str × Json F) → Except PyExc α) (key : Str),
      (∀ members, (members.map Prod.fst).Nodup → of (sortedMembers members) = of members) →
      ((∃ members settings, policySection (sortedMembers d) key = .ok members ∧
          of members = .ok settings) ↔
        ∃ members settings, policySection d key = .ok members ∧ of members = .ok settings) := by
    intro α of key hof
    rw [policySection_sortedMembers hd]
    cases hmembers : policySection d key with
    | error e => simp [Except.map]
    | ok members => simp [Except.map, hof members (policySection_distinct h hmembers)]
  rw [policyFromMapping_accepts, policyFromMapping_accepts, validatePolicy_sortedMembers h,
    hsection guardrailsOf _ fun _ hmembers => guardrailsOf_sortedMembers hmembers,
    hsection decisionPolicyOf _ fun _ hmembers => decisionPolicyOf_sortedMembers hmembers]

end

end AgentRoi
