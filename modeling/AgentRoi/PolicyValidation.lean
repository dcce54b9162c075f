/-
`agent_roi.policies.validate`, on policies as JSON values.

* `PyFloatOps` — what is used of Python's float arithmetic;
* `toFloat`, `finiteNumber` — `float(value)` and `_is_finite_number`;
* `requireNumber`, `requireIntLike`, `validateSection`, … — the checks: each
  yields the messages it appends to `errors`, or lets an exception out;
* `validatePolicy` — `validate_policy`.
-/
import AgentRoi.JsonPlaces
import AgentRoi.Serialization

namespace AgentRoi

variable {F : Type}

/-- What is used of float arithmetic.  `ofInt` is `float(i)`, which overflows
on large integers, and `trunc` is `int(x)`. -/
class PyFloatOps (F : Type) extends PyFloat F where
  ofInt : Int → Option F
  trunc : F → Int
  isInteger : F → Bool
  le : F → F → Bool
  add : F → F → FloatVal F
  zero : F
  one : F

/-- A few floats, to run the definitions on; sums stop at the largest. -/
inductive SmallFloat where
  | zero
  | half
  | one
  | huge
  deriving DecidableEq

def SmallFloat.rank : SmallFloat → ℕ
  | .zero => 0
  | .half => 1
  | .one => 2
  | .huge => 3

def SmallFloat.text : SmallFloat → Str
  | .zero => lit "0.0"
  | .half => lit "0.5"
  | .one => lit "1.0"
  | .huge => lit "1e+16"

instance : PyFloatOps SmallFloat where
  repr := SmallFloat.text
  ofText t := if t = lit "0.0" then .finite .zero else if t = lit "0.5" then .finite .half
    else if t = lit "1.0" then .finite .one else if t = lit "1e+16" then .finite .huge else .nan
  repr_isFloatText
    | .zero => ⟨false, [48], [46, 48], [], rfl, .inl rfl, .inr ⟨[48], rfl, by decide, by decide⟩,
        .inl rfl, .inl (by decide)⟩
    | .half => ⟨false, [48], [46, 53], [], rfl, .inl rfl, .inr ⟨[53], rfl, by decide, by decide⟩,
        .inl rfl, .inl (by decide)⟩
    | .one => ⟨false, [49], [46, 48], [], rfl, .inr ⟨49, [], rfl, by decide, by decide, by simp⟩,
        .inr ⟨[48], rfl, by decide, by decide⟩, .inl rfl, .inl (by decide)⟩
    | .huge => ⟨false, [49], [], [101, 43, 49, 54], rfl,
        .inr ⟨49, [], rfl, by decide, by decide, by simp⟩, .inl rfl,
        .inr ⟨43, [49, 54], rfl, .inl rfl, by decide, by decide⟩, .inr (by decide)⟩
  ofText_repr f := by cases f <;> decide
  ofInt i := some (if i ≤ 0 then .zero else if i = 1 then .one else .huge)
  trunc f := if f = .huge then 10 ^ 16 else if f = .one then 1 else 0
  isInteger f := f ≠ .half
  le a b := a.rank ≤ b.rank
  add a b := .finite (if a = .zero then b else if b = .zero then a
    else if a = .huge ∨ b = .huge then .huge else .one)
  zero := .zero
  one := .one

/-- What a check appends to `errors`. -/
abbrev Messages := Except PyExc (List Str)

/-- Checks one after the other. -/
def Messages.all : List Messages → Messages
  | [] => return []
  | check :: checks => do
    let first ← check
    let rest ← Messages.all checks
    return first ++ rest

section

variable [PyFloatOps F]

def lt (a b : F) : Bool := !PyFloatOps.le b a

/-- `float(value)`.  Texts are converted nowhere in the package. -/
def toFloat : Json F → Except PyExc (FloatVal F)
  | .int i => (PyFloatOps.ofInt i).elim (.error .overflowError) fun f => .ok (.finite f)
  | .float x => .ok x
  | .bool true => .ok (.finite PyFloatOps.one)
  | .bool false => .ok (.finite PyFloatOps.zero)
  | .str _ => .error (.valueError [])
  | _ => .error (.typeError [])

/-- `_is_number`. -/
def isNumber : Json F → Bool
  | .int _ | .float _ => true
  | _ => false

/-- `_is_finite_number`, with the float. -/
def finiteNumber (value : Json F) : Except PyExc (Option F) :=
  if isNumber value then do
    match ← toFloat value with
    | .finite f => return some f
    | _ => return none
  else return none

/-- `int(value)`, of a finite number. -/
def toInt (f : F) : Json F → Int
  | .int i => i
  | _ => PyFloatOps.trunc f

/-- `_require_mapping`: the mapping, and what is appended. -/
def requireMapping (data : List (Str × Json F)) (key : Str) (required : Bool) :
    List (Str × Json F) × List Str :=
  match dictGet key data, required with
  | none, false => ([], [])
  | some (.obj members), _ => (members, [])
  | _, _ => ([], [lit "policy." ++ key ++ lit " must be a mapping/object"])

def requireNumber (obj : List (Str × Json F)) (path key : Str) (min max : Option F)
    (required : Bool) : Messages :=
  match dictGet key obj with
  | none => return if required then [path ++ lit "." ++ key ++ lit " is required"] else []
  | some value =>
    if isNumber value then do
      match ← toFloat value with
      | .finite number =>
        return (match min with
          | some bound => if lt number bound then
              [path ++ lit "." ++ key ++ lit " must be >= " ++ PyFloat.repr bound] else []
          | none => []) ++
          match max with
          | some bound => if lt bound number then
              [path ++ lit "." ++ key ++ lit " must be <= " ++ PyFloat.repr bound] else []
          | none => []
      | _ => return [path ++ lit "." ++ key ++ lit " must be finite"]
    else return [path ++ lit "." ++ key ++ lit " must be a number"]

/-- `_require_int_like`, which every caller requires. -/
def requireIntLike (obj : List (Str × Json F)) (path key : Str) (min : Int) : Messages :=
  match dictGet key obj with
  | none => return [path ++ lit "." ++ key ++ lit " is required"]
  | some value => do
    match ← finiteNumber value with
    | some number =>
      if PyFloatOps.isInteger number then
        return if toInt number value < min then
          [path ++ lit "." ++ key ++ lit " must be >= " ++ intText min] else []
      else return [path ++ lit "." ++ key ++ lit " must be an integer"]
    | none => return [path ++ lit "." ++ key ++ lit " must be an integer"]

/-- `isinstance(item, str) and item.strip()`. -/
def isName : Json F → Bool
  | .str s => !isBlank s
  | _ => false

def validateAllowedTools (guardrails : List (Str × Json F)) : Messages :=
  match dictGet (lit "allowed_tools") guardrails with
  | none | some .null => return []
  | some (.arr items) =>
    return if items.all isName then []
      else [lit "policy.guardrails.allowed_tools must contain only non-empty strings"]
  | _ => return [lit "policy.guardrails.allowed_tools must be a list or set of strings"]

/-- The sum of a float and a finite one. -/
def addFloat : FloatVal F → F → FloatVal F
  | .finite a, b => PyFloatOps.add a b
  | x, _ => x

/-- `total == 0`. -/
def isZero : FloatVal F → Bool
  | .finite f => PyFloatOps.le f PyFloatOps.zero && PyFloatOps.le PyFloatOps.zero f
  | _ => false

def weightKeys : List Str :=
  [lit "w_prob", lit "w_margin", lit "w_z", lit "w_entropy", lit "w_llm"]

/-- The loop of `_validate_decision_weights`, with `present` and `total`. -/
def weightLoop (policy : List (Str × Json F)) :
    List Str → Bool → FloatVal F → Except PyExc (List Str × Bool × FloatVal F)
  | [], present, total => return ([], present, total)
  | key :: keys, present, total =>
    match dictGet key policy with
    | none => weightLoop policy keys present total
    | some value => do
      let path := lit "policy.decision_policy." ++ key
      if isNumber value then do
        match ← toFloat value with
        | .finite weight =>
          if lt weight PyFloatOps.zero then do
            let (errors, rest) ← weightLoop policy keys true total
            return ((path ++ lit " must be >= 0") :: errors, rest)
          else weightLoop policy keys true (addFloat total weight)
        | _ => do
          let (errors, rest) ← weightLoop policy keys true total
          return ((path ++ lit " must be finite") :: errors, rest)
      else do
        let (errors, rest) ← weightLoop policy keys true total
        return ((path ++ lit " must be a number") :: errors, rest)

def validateDecisionWeights (policy : List (Str × Json F)) : Messages := do
  let (errors, present, total) ← weightLoop policy weightKeys false (.finite PyFloatOps.zero)
  return errors ++ if present && isZero total then
    [lit "policy.decision_policy confidence weights cannot all be zero"] else []

def DecisionOutcome : List Str :=
  [lit "accept", lit "abstain", lit "human_review", lit "retry"]

def validateAbstainAction (policy : List (Str × Json F)) : Messages :=
  match dictGet (lit "abstain_action") policy with
  | none => return []
  | some (.str action) =>
    return if action ∈ DecisionOutcome then []
      else [lit "policy.decision_policy.abstain_action must be one of: " ++
        lit "accept, abstain, human_review, retry"]
  | _ => return [lit "policy.decision_policy.abstain_action must be a string"]

/-- One entry of a section of `thresholds`. -/
def validateThreshold (path : Str) (entry : Str × Json F) : Messages :=
  let itemPath := path ++ lit "." ++ entry.1
  if entry.1 = lit "always_flag" then
    match entry.2 with
    | .bool _ => return []
    | _ => return [itemPath ++ lit " must be a boolean"]
  else
    match entry.2 with
    | .bool _ => return [itemPath ++ lit " must be a finite number"]
    | value => do
      match ← finiteNumber value with
      | some number =>
        return if lt number PyFloatOps.zero then [itemPath ++ lit " must be >= 0"] else []
      | none => return [itemPath ++ lit " must be a finite number"]

def validateSection (path : Str) (section' : Str × Json F) : Messages :=
  let sectionPath := path ++ lit "." ++ section'.1
  match section'.2 with
  | .obj entries => Messages.all (entries.map (validateThreshold sectionPath))
  | _ => return [sectionPath ++ lit " must be a mapping/object"]

/-- One of the `savings_multipliers`. -/
def validateMultiplier (entry : Str × Json F) : Messages := do
  let path := lit "policy.scoring.savings_multipliers." ++ entry.1
  match ← finiteNumber entry.2 with
  | some number =>
    return if PyFloatOps.le PyFloatOps.zero number && PyFloatOps.le number PyFloatOps.one then []
      else [path ++ lit " must be between 0 and 1"]
  | none => return [path ++ lit " must be a finite number"]

def validateScoring (scoring : List (Str × Json F)) : Messages :=
  match dictGet (lit "savings_multipliers") scoring with
  | none => return []
  | some (.obj multipliers) => Messages.all (multipliers.map validateMultiplier)
  | _ => return [lit "policy.scoring.savings_multipliers must be a mapping/object"]

/-- `text.lower()`, as far as a comparison with ASCII words needs it. -/
def lowerAscii (text : Str) : Str := text.map fun c => if 65 ≤ c ∧ c ≤ 90 then c + 32 else c

def isRisk : Json F → Bool
  | .str risk => lowerAscii (strip risk) ∈ [lit "low", lit "med", lit "medium", lit "high"]
  | _ => false

def validateRouting (routing : List (Str × Json F)) (key : Str) : Messages :=
  match dictGet key routing with
  | none => return []
  | some (.arr risks) =>
    return (risks.filter fun risk => !isRisk risk).map fun _ =>
      lit "policy.approval_routing." ++ key ++ lit " must contain only low, med, medium, or high"
  | _ => return [lit "policy.approval_routing." ++ key ++ lit " must be a list"]

/-- `if key in guardrails and not isinstance(guardrails[key], bool)`. -/
def validateFlag (guardrails : List (Str × Json F)) (key : Str) : Messages :=
  match dictGet key guardrails with
  | none | some (.bool _) => return []
  | _ => return [lit "policy.guardrails." ++ key ++ lit " must be a boolean"]

def validatePolicyName (data : List (Str × Json F)) : Messages :=
  match dictGet (lit "policy_name") data with
  | none => return []
  | some value =>
    return if isName value then [] else [lit "policy.policy_name must be a non-empty string"]

/-- The checks of `validate_policy`, in their order. -/
def policyChecks (data : List (Str × Json F)) : List Messages :=
  let (guardrails, noGuardrails) := requireMapping data (lit "guardrails") true
  let (decisionPolicy, noDecisionPolicy) := requireMapping data (lit "decision_policy") true
  let (thresholds, noThresholds) := requireMapping data (lit "thresholds") false
  let (scoring, noScoring) := requireMapping data (lit "scoring") false
  let (routing, noRouting) := requireMapping data (lit "approval_routing") false
  [validatePolicyName data,
    .ok noGuardrails,
    requireIntLike guardrails (lit "policy.guardrails") (lit "max_steps") 1,
    requireIntLike guardrails (lit "policy.guardrails") (lit "max_tool_calls") 0,
    requireNumber guardrails (lit "policy.guardrails") (lit "max_cost_usd")
      (some PyFloatOps.zero) none true,
    validateFlag guardrails (lit "deterministic"),
    validateFlag guardrails (lit "require_registered_tools"),
    validateFlag guardrails (lit "require_bound_approval_grants"),
    validateAllowedTools guardrails,
    .ok noDecisionPolicy,
    requireNumber decisionPolicy (lit "policy.decision_policy") (lit "min_confidence")
      (some PyFloatOps.zero) (some PyFloatOps.one) true,
    validateAbstainAction decisionPolicy,
    validateDecisionWeights decisionPolicy,
    .ok noThresholds,
    Messages.all (thresholds.map (validateSection (lit "policy.thresholds"))),
    .ok noScoring,
    validateScoring scoring,
    .ok noRouting,
    validateRouting routing (lit "requires_approval_for_risk"),
    validateRouting routing (lit "production_requires_approval_for_risk")]

/-- `PolicyValidationError`, a `ValueError`, with the messages it lists. -/
def policyValidationError (errors : List Str) : PyExc :=
  .other (lit "PolicyValidationError")
    (some (lit "Invalid policy:" ++ errors.flatMap fun error => lit "\n- " ++ error)) true

def validatePolicy : Json F → Except PyExc Unit
  | .obj data => do
    match ← Messages.all (policyChecks data) with
    | [] => return ()
    | errors => .error (policyValidationError errors)
  | _ => .error (policyValidationError [lit "policy root must be a mapping/object"])

end

end AgentRoi
