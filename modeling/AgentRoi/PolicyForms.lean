/-
Well-formed policies, and the checks of `validate_policy`.

* `numberOf`, `Huge` — the float of a number, and the integers that have none;
* `PolicyFormed` — a well-formed policy, said without the validator;
* `CheckOf` — what a check is about, and where it calls `float`;
* `requireNumber_check`, `requireIntLike_check`, … — the checks of the
  validator, one by one.
-/
import AgentRoi.PolicyLoader

namespace AgentRoi

variable {F : Type}

section

variable [PyFloatOps F]

/-! ### Well-formed policies -/

/-- The float of a finite number. -/
def numberOf : Json F → Option F
  | .int i => PyFloatOps.ofInt i
  | .float (.finite f) => some f
  | _ => none

/-- An integer too large for a float. -/
def Huge (value : Json F) : Prop := ∃ i, value = .int i ∧ (PyFloatOps.ofInt i : Option F) = none

/-- The mapping has the key, with a value that meets `P`. -/
def Field (members : List (Str × Json F)) (key : Str) (P : Json F → Prop) : Prop :=
  ∃ value, dictGet key members = some value ∧ P value

/-- If the mapping has the key, its value meets `P`. -/
def OptField (members : List (Str × Json F)) (key : Str) (P : Json F → Prop) : Prop :=
  ∀ value, dictGet key members = some value → P value

/-- A finite number within the bounds. -/
def IsAmount (min max : Option F) (value : Json F) : Prop :=
  ∃ f, numberOf value = some f ∧ (∀ bound ∈ min, PyFloatOps.le bound f = true) ∧
    ∀ bound ∈ max, PyFloatOps.le f bound = true

/-- A whole number, not below `min`. -/
def IsCount (min : Int) (value : Json F) : Prop :=
  ∃ f, numberOf value = some f ∧ PyFloatOps.isInteger f = true ∧ min ≤ toInt f value

def IsFlag (value : Json F) : Prop := ∃ b, value = .bool b

def IsMapping (P : Str × Json F → Prop) (value : Json F) : Prop :=
  ∃ members, value = .obj members ∧ ∀ p ∈ members, P p

def IsList (P : Json F → Prop) (value : Json F) : Prop :=
  ∃ items, value = .arr items ∧ ∀ item ∈ items, P item

structure GuardrailsFormed (members : List (Str × Json F)) : Prop where
  maxSteps : Field members (lit "max_steps") (IsCount 1)
  maxToolCalls : Field members (lit "max_tool_calls") (IsCount 0)
  maxCostUsd : Field members (lit "max_cost_usd") (IsAmount (some PyFloatOps.zero) none)
  deterministic : OptField members (lit "deterministic") IsFlag
  requireRegisteredTools : OptField members (lit "require_registered_tools") IsFlag
  requireBoundApprovalGrants : OptField members (lit "require_bound_approval_grants") IsFlag
  allowedTools : OptField members (lit "allowed_tools") fun value =>
    value = .null ∨ IsList (fun item => isName item = true) value

/-- Weights that are given are not all zero. -/
def HasEvidence (policy : List (Str × Json F)) : Prop :=
  (∀ key ∈ weightKeys, dictGet key policy = none) ∨
    ∃ key ∈ weightKeys, Field policy key fun value =>
      ∃ f, numberOf value = some f ∧ isZero (.finite f) = false

structure DecisionFormed (members : List (Str × Json F)) : Prop where
  minConfidence : Field members (lit "min_confidence")
    (IsAmount (some PyFloatOps.zero) (some PyFloatOps.one))
  abstainAction : OptField members (lit "abstain_action") fun value =>
    ∃ action ∈ DecisionOutcome, value = .str action
  weights : ∀ key ∈ weightKeys, OptField members key (IsAmount (some PyFloatOps.zero) none)
  evidence : HasEvidence members

/-- An entry of a section of `thresholds`. -/
def ThresholdFormed (entry : Str × Json F) : Prop :=
  if entry.1 = lit "always_flag" then IsFlag entry.2
  else IsAmount (some PyFloatOps.zero) none entry.2

structure PolicyFormed (data : List (Str × Json F)) : Prop where
  policyName : OptField data (lit "policy_name") fun value => isName value = true
  guardrails : Field data (lit "guardrails") fun value =>
    ∃ members, value = .obj members ∧ GuardrailsFormed members
  decisionPolicy : Field data (lit "decision_policy") fun value =>
    ∃ members, value = .obj members ∧ DecisionFormed members
  thresholds : OptField data (lit "thresholds")
    (IsMapping fun entry => IsMapping ThresholdFormed entry.2)
  scoring : OptField data (lit "scoring") fun value => ∃ members, value = .obj members ∧
    OptField members (lit "savings_multipliers") (IsMapping fun entry =>
      IsAmount (some PyFloatOps.zero) (some PyFloatOps.one) entry.2)
  approvalRouting : OptField data (lit "approval_routing") fun value =>
    ∃ members, value = .obj members ∧
      OptField members (lit "requires_approval_for_risk") (IsList fun risk => isRisk risk = true) ∧
      OptField members (lit "production_requires_approval_for_risk")
        (IsList fun risk => isRisk risk = true)

/-! ### Numbers -/

theorem isNumber_of_numberOf {value : Json F} {f : F} (h : numberOf value = some f) :
    isNumber value = true := by
  cases value with
  | int i => rfl
  | float x => rfl
  | _ => cases h

theorem Huge.isNumber {value : Json F} (h : Huge value) : isNumber value = true := by
  obtain ⟨i, rfl, -⟩ := h
  rfl

/-- What `float` makes of a number. -/
theorem toFloat_cases {value : Json F} (h : isNumber value = true) :
    (Huge value ∧ toFloat value = .error .overflowError) ∨
      (¬Huge value ∧ ∃ f, numberOf value = some f ∧ toFloat value = .ok (.finite f)) ∨
      (¬Huge value ∧ numberOf value = none ∧ ∃ x, toFloat value = .ok x ∧ ∀ f, x ≠ .finite f) := by
  cases value with
  | int i =>
    cases hi : (PyFloatOps.ofInt i : Option F) with
    | none =>
      refine .inl ⟨⟨i, rfl, hi⟩, ?_⟩
      rw [toFloat, hi]
      rfl
    | some f =>
      refine .inr (.inl ⟨?_, f, hi, ?_⟩)
      · rintro ⟨j, hj, hnone⟩
        cases hj
        rw [hi] at hnone
        cases hnone
      · rw [toFloat, hi]
        rfl
  | float x =>
    have hsmall : ¬Huge (.float x : Json F) := by
      rintro ⟨j, hj, -⟩
      cases hj
    cases x with
    | finite f => exact .inr (.inl ⟨hsmall, f, rfl, rfl⟩)
    | _ => exact .inr (.inr ⟨hsmall, rfl, _, rfl, fun f hf => by cases hf⟩)
  | _ => cases h

/-- `_is_finite_number`. -/
theorem finiteNumber_cases (value : Json F) :
    (Huge value ∧ finiteNumber value = .error .overflowError) ∨
      (¬Huge value ∧ finiteNumber value = .ok (numberOf value)) := by
  unfold finiteNumber
  split
  · next hnumber =>
    rcases toFloat_cases hnumber with ⟨hhuge, hfloat⟩ | ⟨hsmall, f, hnum, hfloat⟩ |
      ⟨hsmall, hnone, x, hfloat, hx⟩
    · rw [hfloat]
      exact .inl ⟨hhuge, rfl⟩
    · rw [hfloat, hnum]
      exact .inr ⟨hsmall, rfl⟩
    · rw [hfloat, hnone]
      refine .inr ⟨hsmall, ?_⟩
      cases x with
      | finite f => exact absurd rfl (hx f)
      | _ => rfl
  · next hnumber =>
    refine .inr ⟨fun hhuge => hnumber hhuge.isNumber, ?_⟩
    cases hnum : numberOf value with
    | none => rfl
    | some f => exact absurd (isNumber_of_numberOf hnum) hnumber

/-! ### One check and its places -/

/-- The check calls `float` on the places: it overflows when one of them is
huge, and otherwise yields its messages; it has none if `P` holds. -/
inductive CheckOf (places : List (Json F)) (P : Prop) : Messages → Prop
  | overflow {value : Json F} : value ∈ places → Huge value → ¬P →
      CheckOf places P (.error .overflowError)
  | messages {errors : List Str} : (∀ value ∈ places, ¬Huge value) → (errors = [] ↔ P) →
      CheckOf places P (.ok errors)

/-- Checks one after the other. -/
theorem checkOf_zip {specs : List (List (Json F) × Prop)} {checks : List Messages}
    (h : List.Forall₂ (fun spec check => CheckOf spec.1 spec.2 check) specs checks) :
    CheckOf (specs.flatMap Prod.fst) (∀ spec ∈ specs, spec.2) (Messages.all checks) := by
  induction h with
  | nil =>
    refine .messages (fun value hvalue => ?_) ⟨fun _ spec hspec => ?_, fun _ => rfl⟩
    · cases hvalue
    · cases hspec
  | @cons spec check specs checks hcheck _ ih =>
    rw [Messages.all, List.flatMap_cons]
    generalize Messages.all checks = rest at ih ⊢
    cases hcheck with
    | overflow hmem hhuge hnot =>
      exact .overflow (List.mem_append_left _ hmem) hhuge fun hall => hnot (hall spec List.mem_cons_self)
    | messages hsmall hfirst =>
      cases ih with
      | overflow hmem hhuge hnot =>
        exact .overflow (List.mem_append_right _ hmem) hhuge fun hall => hnot fun other hmem =>
          hall other (List.mem_cons_of_mem spec hmem)
      | messages hsmall' hrest =>
        refine .messages (fun value hvalue => ?_) ?_
        · rcases List.mem_append.mp hvalue with hvalue | hvalue
          · exact hsmall value hvalue
          · exact hsmall' value hvalue
        · rw [List.append_eq_nil_iff, hfirst, hrest, List.forall_mem_cons]

/-- The same check of several items. -/
theorem checkOf_all {α : Type} {items : List α} {check : α → Messages} {places : α → List (Json F)}
    {P : α → Prop} (h : ∀ item ∈ items, CheckOf (places item) (P item) (check item)) :
    CheckOf (items.flatMap places) (∀ item ∈ items, P item) (Messages.all (items.map check)) := by
  have hchecks : List.Forall₂ (fun spec check => CheckOf spec.1 spec.2 check)
      (items.map fun item => (places item, P item)) (items.map check) := by
    rw [List.forall₂_map_left_iff, List.forall₂_map_right_iff, List.forall₂_same]
    exact h
  have hzip := checkOf_zip hchecks
  rwa [List.flatMap_map, List.forall_mem_map] at hzip

/-- A check that calls `float` nowhere. -/
theorem checkOf_ok {errors : List Str} {P : Prop} (h : errors = [] ↔ P) :
    CheckOf ([] : List (Json F)) P (.ok errors) :=
  .messages (fun _ h => absurd h List.not_mem_nil) h

/-! ### The checks of one mapping -/

/-- The values of some keys. -/
def valuesAt (members : List (Str × Json F)) (keys : List Str) : List (Json F) :=
  keys.filterMap fun key => dictGet key members

variable {members : List (Str × Json F)} {path key : Str} {value : Json F} {P : Json F → Prop}

omit [PyFloatOps F] in
theorem field_none (h : dictGet key members = none) : Field members key P ↔ False :=
  ⟨fun ⟨value, hvalue, _⟩ => (Option.some_ne_none value) (hvalue.symm.trans h), False.elim⟩

omit [PyFloatOps F] in
theorem field_some (h : dictGet key members = some value) : Field members key P ↔ P value := by
  rw [Field, h]
  simp only [Option.some.injEq, exists_eq_left']

omit [PyFloatOps F] in
theorem optField_none (h : dictGet key members = none) : OptField members key P := by
  intro value hvalue
  rw [h] at hvalue
  cases hvalue

omit [PyFloatOps F] in
theorem optField_some (h : dictGet key members = some value) : OptField members key P ↔ P value := by
  rw [OptField, h]
  simp only [Option.some.injEq, forall_eq']

omit [PyFloatOps F] in
theorem valuesAt_none (h : dictGet key members = none) : valuesAt members [key] = [] := by
  simp [valuesAt, h]

omit [PyFloatOps F] in
theorem valuesAt_some (h : dictGet key members = some value) : valuesAt members [key] = [value] := by
  simp [valuesAt, h]

/-- A check of one value. -/
theorem checkOf_one {Q : Prop} {errors : List Str} (hsmall : ¬Huge value) (h : errors = [] ↔ Q) :
    CheckOf [value] Q (.ok errors) :=
  .messages (fun other hother => by rwa [List.mem_singleton.mp hother]) h

theorem not_isAmount {min max : Option F} (h : numberOf value = none) : ¬IsAmount min max value := by
  rintro ⟨f, hf, -⟩
  rw [h] at hf
  cases hf

theorem isAmount_iff {min max : Option F} {f : F} (h : numberOf value = some f) :
    IsAmount min max value ↔ (∀ bound ∈ min, PyFloatOps.le bound f = true) ∧
      ∀ bound ∈ max, PyFloatOps.le f bound = true := by
  rw [IsAmount, h]
  simp only [Option.some.injEq, exists_eq_left']

theorem Huge.numberOf (h : Huge value) : numberOf value = (none : Option F) := by
  obtain ⟨i, rfl, hi⟩ := h
  exact hi

theorem requireNumber_check {min max : Option F} :
    CheckOf (valuesAt members [key]) (Field members key (IsAmount min max))
      (requireNumber members path key min max true) := by
  unfold requireNumber
  cases hget : dictGet key members with
  | none =>
    rw [valuesAt_none hget, field_none hget]
    exact checkOf_ok ⟨fun h => by simp at h, False.elim⟩
  | some value =>
    rw [valuesAt_some hget, field_some hget]
    dsimp only
    split
    · next hnumber =>
      rcases toFloat_cases hnumber with ⟨hhuge, hfloat⟩ | ⟨hsmall, f, hnum, hfloat⟩ |
        ⟨hsmall, hnone, x, hfloat, hx⟩
      · rw [hfloat]
        exact .overflow List.mem_cons_self hhuge (not_isAmount hhuge.numberOf)
      · rw [hfloat, isAmount_iff hnum]
        refine checkOf_one hsmall ?_
        rw [List.append_eq_nil_iff]
        refine and_congr ?_ ?_
        · cases min with
          | none => simp
          | some bound => simp [lt]
        · cases max with
          | none => simp
          | some bound => simp [lt]
      · rw [hfloat]
        have hnot : ¬IsAmount min max value := not_isAmount hnone
        cases x with
        | finite f => exact absurd rfl (hx f)
        | _ => exact checkOf_one hsmall ⟨fun h => by simp at h, fun h => absurd h hnot⟩
    · next hnumber =>
      refine checkOf_one (fun hhuge => hnumber hhuge.isNumber) ⟨fun h => by simp at h, ?_⟩
      rintro ⟨f, hf, -⟩
      exact absurd (isNumber_of_numberOf hf) hnumber

theorem requireIntLike_check {min : Int} :
    CheckOf (valuesAt members [key]) (Field members key (IsCount min))
      (requireIntLike members path key min) := by
  unfold requireIntLike
  cases hget : dictGet key members with
  | none =>
    rw [valuesAt_none hget, field_none hget]
    exact checkOf_ok ⟨fun h => by simp at h, False.elim⟩
  | some value =>
    rw [valuesAt_some hget, field_some hget]
    dsimp only
    rcases finiteNumber_cases value with ⟨hhuge, hfinite⟩ | ⟨hsmall, hfinite⟩
    · rw [hfinite]
      refine .overflow List.mem_cons_self hhuge ?_
      rintro ⟨f, hf, -⟩
      rw [hhuge.numberOf] at hf
      cases hf
    · rw [hfinite]
      unfold IsCount
      cases hnum : numberOf value with
      | none => exact checkOf_one hsmall ⟨fun h => by simp at h, fun ⟨f, hf, _⟩ => by cases hf⟩
      | some f =>
        show CheckOf _ _ (if PyFloatOps.isInteger f = true then _ else _)
        split
        · next hint =>
          refine checkOf_one hsmall ?_
          simp [hint]
        · next hint =>
          refine checkOf_one hsmall ⟨fun h => by simp at h, ?_⟩
          rintro ⟨g, hg, hinteger, -⟩
          cases hg
          exact absurd hinteger hint

theorem validateFlag_check :
    CheckOf ([] : List (Json F)) (OptField members key IsFlag) (validateFlag members key) := by
  unfold validateFlag
  cases hget : dictGet key members with
  | none => exact checkOf_ok ⟨fun _ => optField_none hget, fun _ => rfl⟩
  | some value =>
    rw [optField_some hget]
    cases value with
    | bool b => exact checkOf_ok ⟨fun _ => ⟨b, rfl⟩, fun _ => rfl⟩
    | _ => exact checkOf_ok ⟨fun h => by simp at h, fun ⟨b, hb⟩ => by cases hb⟩

theorem validatePolicyName_check :
    CheckOf ([] : List (Json F)) (OptField members (lit "policy_name") fun value => isName value = true)
      (validatePolicyName members) := by
  unfold validatePolicyName
  cases hget : dictGet (lit "policy_name") members with
  | none => exact checkOf_ok ⟨fun _ => optField_none hget, fun _ => rfl⟩
  | some value =>
    rw [optField_some hget]
    dsimp only
    refine checkOf_ok ?_
    cases isName value <;> simp

theorem validateAllowedTools_check :
    CheckOf ([] : List (Json F)) (OptField members (lit "allowed_tools") fun value =>
      value = .null ∨ IsList (fun item => isName item = true) value)
      (validateAllowedTools members) := by
  unfold validateAllowedTools
  cases hget : dictGet (lit "allowed_tools") members with
  | none => exact checkOf_ok ⟨fun _ => optField_none hget, fun _ => rfl⟩
  | some value =>
    rw [optField_some hget]
    cases value with
    | null => exact checkOf_ok ⟨fun _ => .inl rfl, fun _ => rfl⟩
    | arr items =>
      have hlist : (Json.arr items = .null ∨ IsList (fun item => isName item = true) (.arr items)) ↔
          items.all isName = true := by
        rw [List.all_eq_true]
        constructor
        · rintro (h | ⟨_, h, hall⟩)
          · cases h
          · cases h
            exact hall
        · exact fun hall => .inr ⟨items, rfl, hall⟩
      rw [hlist]
      refine checkOf_ok ?_
      cases items.all isName <;> simp
    | _ =>
      refine checkOf_ok ⟨fun h => by simp at h, ?_⟩
      rintro (h | ⟨_, h, -⟩)
      · cases h
      · cases h

theorem validateAbstainAction_check :
    CheckOf ([] : List (Json F)) (OptField members (lit "abstain_action") fun value =>
      ∃ action ∈ DecisionOutcome, value = .str action) (validateAbstainAction members) := by
  unfold validateAbstainAction
  cases hget : dictGet (lit "abstain_action") members with
  | none => exact checkOf_ok ⟨fun _ => optField_none hget, fun _ => rfl⟩
  | some value =>
    rw [optField_some hget]
    cases value with
    | str action =>
      refine checkOf_ok ?_
      have haction : (∃ other ∈ DecisionOutcome, (Json.str action : Json F) = .str other) ↔
          action ∈ DecisionOutcome := by simp
      rw [haction]
      by_cases h : action ∈ DecisionOutcome <;> simp [h]
    | _ => exact checkOf_ok ⟨fun h => by simp at h, fun ⟨_, _, h⟩ => by cases h⟩

theorem validateRouting_check :
    CheckOf ([] : List (Json F)) (OptField members key (IsList fun risk => isRisk risk = true))
      (validateRouting members key) := by
  unfold validateRouting
  cases hget : dictGet key members with
  | none => exact checkOf_ok ⟨fun _ => optField_none hget, fun _ => rfl⟩
  | some value =>
    rw [optField_some hget]
    cases value with
    | arr risks =>
      refine checkOf_ok ?_
      rw [List.map_eq_nil_iff, List.filter_eq_nil_iff]
      constructor
      · exact fun h => ⟨risks, rfl, fun risk hrisk => by simpa using h risk hrisk⟩
      · rintro ⟨_, hsame, hall⟩ risk hrisk
        cases hsame
        simp [hall risk hrisk]
    | _ => exact checkOf_ok ⟨fun h => by simp at h, fun ⟨_, h, _⟩ => by cases h⟩

/-- The values of a mapping's members. -/
def memberValues (places : Str × Json F → List (Json F)) : Json F → List (Json F)
  | .obj entries => entries.flatMap places
  | _ => []

/-- An amount that must not be negative. -/
theorem finite_check {Q : Prop} {check : F → List Str} {bad : List Str} (hbad : bad ≠ [])
    (hnone : numberOf value = none → ¬Q)
    (hcheck : ∀ f, numberOf value = some f → (check f = [] ↔ Q)) :
    CheckOf [value] Q (do
      match ← finiteNumber value with
      | some number => return check number
      | none => return bad) := by
  rcases finiteNumber_cases value with ⟨hhuge, hfinite⟩ | ⟨hsmall, hfinite⟩
  · rw [hfinite]
    exact .overflow List.mem_cons_self hhuge (hnone hhuge.numberOf)
  · rw [hfinite]
    cases hnum : numberOf value with
    | none => exact checkOf_one hsmall ⟨fun h => absurd h hbad, fun h => absurd h (hnone hnum)⟩
    | some f => exact checkOf_one hsmall (hcheck f hnum)

/-- Where a threshold's value is read. -/
def thresholdPlaces (entry : Str × Json F) : List (Json F) :=
  if entry.1 = lit "always_flag" then [] else [entry.2]

theorem validateThreshold_check (entry : Str × Json F) :
    CheckOf (thresholdPlaces entry) (ThresholdFormed entry) (validateThreshold path entry) := by
  obtain ⟨name, value⟩ := entry
  unfold thresholdPlaces ThresholdFormed validateThreshold
  dsimp only
  split
  · cases value with
    | bool b => exact checkOf_ok ⟨fun _ => ⟨b, rfl⟩, fun _ => rfl⟩
    | _ => exact checkOf_ok ⟨fun h => by simp at h, fun ⟨b, hb⟩ => by cases hb⟩
  · cases value with
    | bool b =>
      refine checkOf_one ?_ ⟨fun h => by simp at h, fun h => absurd h (not_isAmount rfl)⟩
      rintro ⟨i, hi, -⟩
      cases hi
    | _ =>
      refine finite_check (by simp) not_isAmount fun f hf => ?_
      rw [isAmount_iff hf]
      simp [lt]

/-- Where the values of a section are read. -/
def sectionPlaces (entry : Str × Json F) : List (Json F) := memberValues thresholdPlaces entry.2

theorem validateSection_check (entry : Str × Json F) :
    CheckOf (sectionPlaces entry) (IsMapping ThresholdFormed entry.2) (validateSection path entry) := by
  obtain ⟨name, value⟩ := entry
  unfold sectionPlaces validateSection
  cases value with
  | obj entries =>
    have hmapping : IsMapping ThresholdFormed (.obj entries) ↔
        ∀ entry ∈ entries, ThresholdFormed entry :=
      ⟨fun ⟨_, h, hall⟩ => by cases h; exact hall, fun hall => ⟨entries, rfl, hall⟩⟩
    rw [hmapping]
    exact checkOf_all fun entry _ => validateThreshold_check entry
  | _ => exact checkOf_ok ⟨fun h => by simp at h, fun ⟨_, h, _⟩ => by cases h⟩

theorem validateMultiplier_check (entry : Str × Json F) :
    CheckOf [entry.2] (IsAmount (some PyFloatOps.zero) (some PyFloatOps.one) entry.2)
      (validateMultiplier entry) := by
  refine finite_check (by simp) not_isAmount fun f hf => ?_
  rw [isAmount_iff hf]
  by_cases h : (PyFloatOps.le PyFloatOps.zero f && PyFloatOps.le f PyFloatOps.one) = true
  · rw [if_pos h]
    simpa using h
  · rw [if_neg h]
    simpa using h

theorem validateScoring_check :
    CheckOf ((valuesAt members [lit "savings_multipliers"]).flatMap
        (memberValues fun entry => [entry.2]))
      (OptField members (lit "savings_multipliers") (IsMapping fun entry =>
        IsAmount (some PyFloatOps.zero) (some PyFloatOps.one) entry.2))
      (validateScoring members) := by
  unfold validateScoring
  cases hget : dictGet (lit "savings_multipliers") members with
  | none =>
    rw [valuesAt_none hget]
    exact checkOf_ok ⟨fun _ => optField_none hget, fun _ => rfl⟩
  | some value =>
    rw [valuesAt_some hget, optField_some hget, List.flatMap_singleton]
    cases value with
    | obj entries =>
      have hmapping : IsMapping (fun entry => IsAmount (some PyFloatOps.zero)
          (some PyFloatOps.one) entry.2) (.obj entries : Json F) ↔
          ∀ entry ∈ entries, IsAmount (some PyFloatOps.zero) (some PyFloatOps.one) entry.2 :=
        ⟨fun ⟨_, h, hall⟩ => by cases h; exact hall, fun hall => ⟨entries, rfl, hall⟩⟩
      rw [hmapping]
      exact checkOf_all fun entry _ => validateMultiplier_check entry
    | _ => exact checkOf_ok ⟨fun h => by simp at h, fun ⟨_, h, _⟩ => by cases h⟩

end

end AgentRoi
