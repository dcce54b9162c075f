/-
What `validate_policy` accepts, and where it overflows.

* `PyFloatSums` — sums of non-negative floats;
* `weightLoop_spec` — the loop over the confidence weights;
* `floatPlaces` — where the validator calls `float`;
* `validatePolicy_cases`, `validatePolicy_iff` — it overflows exactly when a
  huge integer stands there, and otherwise accepts the well-formed policies.
-/
import AgentRoi.PolicyForms

namespace AgentRoi

variable {F : Type}

section

variable [PyFloatOps F] {members : List (Str × Json F)} {path key : Str} {value : Json F}

/-! ### Weights -/

/-- Not negative, and a number. -/
def NonNeg : FloatVal F → Prop
  | .finite f => PyFloatOps.le PyFloatOps.zero f = true
  | .inf => True
  | _ => False

variable (F) in
/-- What float arithmetic promises of the sums of non-negative floats, and of
the weights written in the source. -/
class PyFloatSums : Prop where
  zero_le : PyFloatOps.le (PyFloatOps.zero : F) PyFloatOps.zero = true
  add_nonneg {a b : F} : PyFloatOps.le PyFloatOps.zero a = true →
    PyFloatOps.le PyFloatOps.zero b = true → NonNeg (PyFloatOps.add a b)
  isZero_add {a b : F} : PyFloatOps.le PyFloatOps.zero a = true →
    PyFloatOps.le PyFloatOps.zero b = true →
    isZero (PyFloatOps.add a b) = (isZero (.finite a) && isZero (.finite b))
  literal : ∀ text ∈ ["0.55", "0.20", "0.15", "0.10"], ∃ f : F, floatLiteral text = .ok f ∧
    PyFloatOps.le PyFloatOps.zero f = true ∧ isZero (.finite f) = false

theorem isZero_zero [PyFloatSums F] : isZero (.finite (PyFloatOps.zero : F)) = true := by
  rw [isZero, PyFloatSums.zero_le, Bool.and_self]

theorem nonNeg_addFloat [PyFloatSums F] {total : FloatVal F} {weight : F} (htotal : NonNeg total)
    (hweight : PyFloatOps.le PyFloatOps.zero weight = true) : NonNeg (addFloat total weight) := by
  cases total with
  | finite f => exact PyFloatSums.add_nonneg htotal hweight
  | inf => trivial
  | nan => exact htotal
  | negInf => exact htotal

theorem isZero_addFloat [PyFloatSums F] {total : FloatVal F} {weight : F} (htotal : NonNeg total)
    (hweight : PyFloatOps.le PyFloatOps.zero weight = true) :
    isZero (addFloat total weight) = (isZero total && isZero (.finite weight)) := by
  cases total with
  | finite f => exact PyFloatSums.isZero_add htotal hweight
  | _ => rfl

/-- The weight is zero, if it is given. -/
def ZeroWeight (policy : List (Str × Json F)) (key : Str) : Prop :=
  ∀ value f, dictGet key policy = some value → numberOf value = some f → isZero (.finite f) = true

/-- What the loop over some of the weights leaves. -/
structure WeightSpec (policy : List (Str × Json F)) (keys : List Str) (present : Bool)
    (total : FloatVal F) (r : List Str × Bool × FloatVal F) : Prop where
  formed : r.1 = [] ↔ ∀ key ∈ keys, OptField policy key (IsAmount (some PyFloatOps.zero) none)
  present : r.2.1 = true ↔ present = true ∨ ∃ key ∈ keys, dictGet key policy ≠ none
  zero : r.1 = [] → (isZero r.2.2 = true ↔ isZero total = true ∧ ∀ key ∈ keys, ZeroWeight policy key)

variable {policy : List (Str × Json F)} {keys : List Str} {present : Bool} {total : FloatVal F}

/-- A weight that is not as it should be. -/
theorem WeightSpec.bad {error : Str} {r : List Str × Bool × FloatVal F}
    (h : WeightSpec policy keys true total r) (hget : dictGet key policy = some value)
    (hbad : ¬IsAmount (some PyFloatOps.zero) none value) :
    WeightSpec policy (key :: keys) present total (error :: r.1, r.2) where
  formed := by
    refine ⟨fun herrors => (List.cons_ne_nil _ _ herrors).elim, fun hall => ?_⟩
    exact absurd ((optField_some hget).mp (hall key List.mem_cons_self)) hbad
  present := by
    rw [h.present]
    refine ⟨fun _ => .inr ⟨key, List.mem_cons_self, ?_⟩, fun _ => .inl rfl⟩
    rw [hget]
    exact Option.some_ne_none value
  zero herrors := by cases herrors

/-- A weight that is not given. -/
theorem WeightSpec.skip {r : List Str × Bool × FloatVal F}
    (h : WeightSpec policy keys present total r) (hget : dictGet key policy = none) :
    WeightSpec policy (key :: keys) present total r where
  formed := by
    rw [h.formed, List.forall_mem_cons]
    exact (and_iff_right (optField_none hget)).symm
  present := by
    rw [h.present]
    simp [hget]
  zero herrors := by
    have hzero : ZeroWeight policy key := by
      intro value f hvalue
      rw [hget] at hvalue
      cases hvalue
    rw [h.zero herrors, List.forall_mem_cons, and_iff_right hzero]

/-- A weight that is added to the total. -/
theorem WeightSpec.add [PyFloatSums F] {r : List Str × Bool × FloatVal F} {f : F}
    (h : WeightSpec policy keys true (addFloat total f) r) (htotal : NonNeg total)
    (hget : dictGet key policy = some value) (hnum : numberOf value = some f)
    (hweight : PyFloatOps.le PyFloatOps.zero f = true) :
    WeightSpec policy (key :: keys) present total r where
  formed := by
    rw [h.formed, List.forall_mem_cons, optField_some hget, isAmount_iff hnum]
    simp [hweight]
  present := by
    rw [h.present]
    refine ⟨fun _ => .inr ⟨key, List.mem_cons_self, ?_⟩, fun _ => .inl rfl⟩
    rw [hget]
    exact Option.some_ne_none value
  zero herrors := by
    have hzero : ZeroWeight policy key ↔ isZero (.finite f) = true := by
      refine ⟨fun h => h value f hget hnum, fun h value' g hvalue' hg => ?_⟩
      rw [hget] at hvalue'
      cases hvalue'
      rw [hnum] at hg
      cases hg
      exact h
    rw [h.zero herrors, isZero_addFloat htotal hweight, Bool.and_eq_true, List.forall_mem_cons,
      hzero, and_assoc]

/-- The loop of `_validate_decision_weights`: by induction on the weights. -/
theorem weightLoop_spec [PyFloatSums F] (policy : List (Str × Json F)) (keys : List Str) (present : Bool) (total : FloatVal F)
    (htotal : NonNeg total) :
    ((∃ value ∈ valuesAt policy keys, Huge value) ∧
        weightLoop policy keys present total = .error .overflowError) ∨
      ((∀ value ∈ valuesAt policy keys, ¬Huge value) ∧
        ∃ r, weightLoop policy keys present total = .ok r ∧
          WeightSpec policy keys present total r) := by
  induction keys generalizing present total with
  | nil =>
    refine .inr ⟨fun value hvalue => absurd hvalue List.not_mem_nil, ([], present, total), rfl,
      ?_, ?_, ?_⟩
    · simp
    · simp
    · simp
  | cons key keys ih =>
    unfold weightLoop
    cases hget : dictGet key policy with
    | none =>
      have hvalues : valuesAt policy (key :: keys) = valuesAt policy keys := by simp [valuesAt, hget]
      rw [hvalues]
      rcases ih present total htotal with hoverflow | ⟨hsmall, r, hr, hspec⟩
      · exact .inl hoverflow
      · exact .inr ⟨hsmall, r, hr, hspec.skip hget⟩
    | some value =>
      have hvalues : valuesAt policy (key :: keys) = value :: valuesAt policy keys := by
        simp [valuesAt, hget]
      rw [hvalues]
      -- the weight is not accepted, and the loop goes on
      have hbad : ∀ error : Str, ¬Huge value → ¬IsAmount (some PyFloatOps.zero) none value →
          ((∃ value' ∈ value :: valuesAt policy keys, Huge value') ∧
            (do
              let r ← weightLoop policy keys true total
              return (error :: r.1, r.2)) = Except.error PyExc.overflowError) ∨
          ((∀ value' ∈ value :: valuesAt policy keys, ¬Huge value') ∧
            ∃ r, (do
              let r ← weightLoop policy keys true total
              return (error :: r.1, r.2)) = Except.ok r ∧
              WeightSpec policy (key :: keys) present total r) := by
        intro error hsmall hnot
        rcases ih true total htotal with ⟨⟨value', hmem, hhuge⟩, hloop⟩ | ⟨hsmall', r, hloop, hspec⟩
        · rw [hloop]
          exact .inl ⟨⟨value', List.mem_cons_of_mem value hmem, hhuge⟩, rfl⟩
        · rw [hloop]
          exact .inr ⟨List.forall_mem_cons.mpr ⟨hsmall, hsmall'⟩, _, rfl, hspec.bad hget hnot⟩
      dsimp only
      split
      · next hnumber =>
        rcases toFloat_cases hnumber with ⟨hhuge, hfloat⟩ | ⟨hsmall, f, hnum, hfloat⟩ |
          ⟨hsmall, hnone, x, hfloat, hx⟩
        · rw [hfloat]
          exact .inl ⟨⟨value, List.mem_cons_self, hhuge⟩, rfl⟩
        · rw [hfloat]
          show (_ ∧ (if lt f PyFloatOps.zero = true then _ else _) = _) ∨
            (_ ∧ ∃ r, (if lt f PyFloatOps.zero = true then _ else _) = _ ∧ _)
          split
          · next hneg =>
            refine hbad _ hsmall ?_
            rw [isAmount_iff hnum]
            simpa [lt] using hneg
          · next hnonneg =>
            have hweight : PyFloatOps.le PyFloatOps.zero f = true := by simpa [lt] using hnonneg
            rcases ih true (addFloat total f) (nonNeg_addFloat htotal hweight) with
              ⟨⟨value', hmem, hhuge⟩, hloop⟩ | ⟨hsmall', r, hloop, hspec⟩
            · exact .inl ⟨⟨value', List.mem_cons_of_mem value hmem, hhuge⟩, hloop⟩
            · exact .inr ⟨List.forall_mem_cons.mpr ⟨hsmall, hsmall'⟩, r, hloop,
                hspec.add htotal hget hnum hweight⟩
        · rw [hfloat]
          cases x with
          | finite f => exact absurd rfl (hx f)
          | _ => exact hbad _ hsmall (not_isAmount hnone)
      · next hnumber =>
        refine hbad _ (fun hhuge => hnumber hhuge.isNumber) ?_
        rintro ⟨f, hf, -⟩
        exact hnumber (isNumber_of_numberOf hf)

theorem not_zeroWeight {key : Str} : ¬ZeroWeight policy key ↔ Field policy key fun value =>
    ∃ f, numberOf value = some f ∧ isZero (.finite f) = false := by
  unfold ZeroWeight Field
  simp only [not_forall, Bool.not_eq_true]
  constructor
  · rintro ⟨value, f, hvalue, hf, hzero⟩
    exact ⟨value, hvalue, f, hf, hzero⟩
  · rintro ⟨value, hvalue, f, hf, hzero⟩
    exact ⟨value, f, hvalue, hf, hzero⟩

theorem validateDecisionWeights_check [PyFloatSums F] :
    CheckOf (valuesAt policy weightKeys)
      ((∀ key ∈ weightKeys, OptField policy key (IsAmount (some PyFloatOps.zero) none)) ∧
        HasEvidence policy)
      (validateDecisionWeights policy) := by
  unfold validateDecisionWeights
  rcases weightLoop_spec policy weightKeys false (.finite PyFloatOps.zero)
    PyFloatSums.zero_le with ⟨⟨value, hmem, hhuge⟩, hloop⟩ |
      ⟨hsmall, ⟨errors, present, total⟩, hloop, hspec⟩
  · rw [hloop]
    refine .overflow hmem hhuge fun ⟨hall, _⟩ => ?_
    obtain ⟨key, hkey, hget⟩ := List.mem_filterMap.mp hmem
    exact not_isAmount hhuge.numberOf (hall key hkey value hget)
  · rw [hloop]
    refine .messages hsmall ?_
    show (errors ++ if (present && isZero total) = true then _ else _) = [] ↔ _
    rw [List.append_eq_nil_iff, ← hspec.formed]
    refine and_congr_right fun herrors => ?_
    have hpresent := hspec.present
    have hzero := hspec.zero herrors
    simp only [Bool.false_eq_true, false_or] at hpresent
    rw [isZero_zero, eq_self, true_and] at hzero
    have hevidence : HasEvidence policy ↔ ¬((present && isZero total) = true) := by
      rw [Bool.and_eq_true, hpresent, hzero, not_and_or]
      refine or_congr ?_ ?_
      · simp only [not_exists, not_and, not_not]
      · simp only [not_forall, not_zeroWeight, exists_prop]
    rw [hevidence]
    split
    · next hnone => simp [hnone]
    · next hsome => simp [hsome]

/-! ### The whole policy -/

omit [PyFloatOps F] in
/-- A section that must be given. -/
theorem requireMapping_field (data : List (Str × Json F)) (key : Str) :
    (∃ members, dictGet key data = some (.obj members) ∧
        requireMapping data key true = (members, [])) ∨
      ((∀ members, dictGet key data ≠ some (.obj members)) ∧
        (requireMapping data key true).1 = [] ∧ (requireMapping data key true).2 ≠ []) := by
  unfold requireMapping
  cases hget : dictGet key data with
  | none => exact .inr ⟨fun _ => (nomatch ·), rfl, List.cons_ne_nil _ _⟩
  | some value =>
    cases value with
    | obj members => exact .inl ⟨members, rfl, rfl⟩
    | _ => exact .inr ⟨fun _ => (nomatch ·), rfl, List.cons_ne_nil _ _⟩

omit [PyFloatOps F] in
/-- A section that may be missing. -/
theorem requireMapping_optional (data : List (Str × Json F)) (key : Str) :
    (dictGet key data = none ∧ requireMapping data key false = ([], [])) ∨
      (∃ members, dictGet key data = some (.obj members) ∧
        requireMapping data key false = (members, [])) ∨
      ((∃ value, dictGet key data = some value ∧ ∀ members, value ≠ .obj members) ∧
        (requireMapping data key false).1 = [] ∧ (requireMapping data key false).2 ≠ []) := by
  unfold requireMapping
  cases hget : dictGet key data with
  | none => exact .inl ⟨rfl, rfl⟩
  | some value =>
    cases value with
    | obj members => exact .inr (.inl ⟨members, rfl, rfl⟩)
    | _ => exact .inr (.inr ⟨⟨_, rfl, fun _ => (nomatch ·)⟩, rfl, List.cons_ne_nil _ _⟩)

/-- Where `validate_policy` calls `float`. -/
def floatPlaces (data : List (Str × Json F)) : List (Json F) :=
  let guardrails := (requireMapping data (lit "guardrails") true).1
  let decisionPolicy := (requireMapping data (lit "decision_policy") true).1
  let thresholds := (requireMapping data (lit "thresholds") false).1
  let scoring := (requireMapping data (lit "scoring") false).1
  valuesAt guardrails [lit "max_steps", lit "max_tool_calls", lit "max_cost_usd"] ++
    valuesAt decisionPolicy (lit "min_confidence" :: weightKeys) ++
    thresholds.flatMap sectionPlaces ++
    (valuesAt scoring [lit "savings_multipliers"]).flatMap (memberValues fun entry => [entry.2])

/-- What each check of `policyChecks` is about. -/
def policySpecs (data : List (Str × Json F)) : List (List (Json F) × Prop) :=
  let (guardrails, noGuardrails) := requireMapping data (lit "guardrails") true
  let (decisionPolicy, noDecisionPolicy) := requireMapping data (lit "decision_policy") true
  let (thresholds, noThresholds) := requireMapping data (lit "thresholds") false
  let (scoring, noScoring) := requireMapping data (lit "scoring") false
  let (routing, noRouting) := requireMapping data (lit "approval_routing") false
  [([], OptField data (lit "policy_name") fun value => isName value = true),
    ([], noGuardrails = []),
    (valuesAt guardrails [lit "max_steps"], Field guardrails (lit "max_steps") (IsCount 1)),
    (valuesAt guardrails [lit "max_tool_calls"],
      Field guardrails (lit "max_tool_calls") (IsCount 0)),
    (valuesAt guardrails [lit "max_cost_usd"],
      Field guardrails (lit "max_cost_usd") (IsAmount (some PyFloatOps.zero) none)),
    ([], OptField guardrails (lit "deterministic") IsFlag),
    ([], OptField guardrails (lit "require_registered_tools") IsFlag),
    ([], OptField guardrails (lit "require_bound_approval_grants") IsFlag),
    ([], OptField guardrails (lit "allowed_tools") fun value =>
      value = .null ∨ IsList (fun item => isName item = true) value),
    ([], noDecisionPolicy = []),
    (valuesAt decisionPolicy [lit "min_confidence"], Field decisionPolicy (lit "min_confidence")
      (IsAmount (some PyFloatOps.zero) (some PyFloatOps.one))),
    ([], OptField decisionPolicy (lit "abstain_action") fun value =>
      ∃ action ∈ DecisionOutcome, value = .str action),
    (valuesAt decisionPolicy weightKeys,
      (∀ key ∈ weightKeys, OptField decisionPolicy key (IsAmount (some PyFloatOps.zero) none)) ∧
        HasEvidence decisionPolicy),
    ([], noThresholds = []),
    (thresholds.flatMap sectionPlaces, ∀ entry ∈ thresholds, IsMapping ThresholdFormed entry.2),
    ([], noScoring = []),
    ((valuesAt scoring [lit "savings_multipliers"]).flatMap (memberValues fun entry => [entry.2]),
      OptField scoring (lit "savings_multipliers") (IsMapping fun entry =>
        IsAmount (some PyFloatOps.zero) (some PyFloatOps.one) entry.2)),
    ([], noRouting = []),
    ([], OptField routing (lit "requires_approval_for_risk") (IsList fun risk => isRisk risk = true)),
    ([], OptField routing (lit "production_requires_approval_for_risk")
      (IsList fun risk => isRisk risk = true))]

variable {data : List (Str × Json F)}

theorem policyChecks_specs [PyFloatSums F] (data : List (Str × Json F)) :
    List.Forall₂ (fun spec check => CheckOf spec.1 spec.2 check) (policySpecs data)
      (policyChecks data) := by
  unfold policySpecs policyChecks
  refine .cons validatePolicyName_check <| .cons (checkOf_ok .rfl) <|
    .cons requireIntLike_check <| .cons requireIntLike_check <| .cons requireNumber_check <|
    .cons validateFlag_check <| .cons validateFlag_check <| .cons validateFlag_check <|
    .cons validateAllowedTools_check <| .cons (checkOf_ok .rfl) <| .cons requireNumber_check <|
    .cons validateAbstainAction_check <| .cons validateDecisionWeights_check <|
    .cons (checkOf_ok .rfl) <| .cons (checkOf_all fun entry _ => validateSection_check entry) <|
    .cons (checkOf_ok .rfl) <| .cons validateScoring_check <| .cons (checkOf_ok .rfl) <|
    .cons validateRouting_check <| .cons validateRouting_check .nil

theorem mem_floatPlaces {value : Json F} :
    value ∈ (policySpecs data).flatMap Prod.fst ↔ value ∈ floatPlaces data := by
  unfold policySpecs floatPlaces
  simp [valuesAt, or_assoc]

omit [PyFloatOps F] in
/-- A section that must be given: the mapping, and what is asked of it. -/
theorem mapping_required {Q : List (Str × Json F) → Prop} :
    ((requireMapping data key true).2 = [] ∧ Q (requireMapping data key true).1) ↔
      Field data key fun value => ∃ members, value = .obj members ∧ Q members := by
  rcases requireMapping_field data key with ⟨members, hget, hmapping⟩ |
    ⟨hnone, -, herror⟩
  · rw [hmapping, field_some hget]
    simp
  · refine ⟨fun h => absurd h.1 herror, ?_⟩
    rintro ⟨value, hget, members, rfl, -⟩
    exact absurd hget (hnone members)

omit [PyFloatOps F] in
/-- A section that may be missing. -/
theorem mapping_optional {Q : List (Str × Json F) → Prop} (hempty : Q []) :
    ((requireMapping data key false).2 = [] ∧ Q (requireMapping data key false).1) ↔
      OptField data key fun value => ∃ members, value = .obj members ∧ Q members := by
  rcases requireMapping_optional data key with ⟨hget, hmapping⟩ |
    ⟨members, hget, hmapping⟩ | ⟨⟨value, hget, hother⟩, -, herror⟩
  · rw [hmapping]
    exact ⟨fun _ => optField_none hget, fun _ => ⟨rfl, hempty⟩⟩
  · rw [hmapping, optField_some hget]
    simp
  · rw [optField_some hget]
    refine ⟨fun h => absurd h.1 herror, ?_⟩
    rintro ⟨members, rfl, -⟩
    exact absurd rfl (hother members)

theorem guardrailsFormed_iff : GuardrailsFormed members ↔
    Field members (lit "max_steps") (IsCount 1) ∧ Field members (lit "max_tool_calls") (IsCount 0) ∧
    Field members (lit "max_cost_usd") (IsAmount (some PyFloatOps.zero) none) ∧
    OptField members (lit "deterministic") IsFlag ∧
    OptField members (lit "require_registered_tools") IsFlag ∧
    OptField members (lit "require_bound_approval_grants") IsFlag ∧
    OptField members (lit "allowed_tools") fun value =>
      value = .null ∨ IsList (fun item => isName item = true) value :=
  ⟨fun ⟨h₁, h₂, h₃, h₄, h₅, h₆, h₇⟩ => ⟨h₁, h₂, h₃, h₄, h₅, h₆, h₇⟩,
    fun ⟨h₁, h₂, h₃, h₄, h₅, h₆, h₇⟩ => ⟨h₁, h₂, h₃, h₄, h₅, h₆, h₇⟩⟩

theorem decisionFormed_iff : DecisionFormed members ↔
    Field members (lit "min_confidence") (IsAmount (some PyFloatOps.zero) (some PyFloatOps.one)) ∧
    (OptField members (lit "abstain_action") fun value =>
      ∃ action ∈ DecisionOutcome, value = .str action) ∧
    (∀ key ∈ weightKeys, OptField members key (IsAmount (some PyFloatOps.zero) none)) ∧
    HasEvidence members :=
  ⟨fun ⟨h₁, h₂, h₃, h₄⟩ => ⟨h₁, h₂, h₃, h₄⟩, fun ⟨h₁, h₂, h₃, h₄⟩ => ⟨h₁, h₂, h₃, h₄⟩⟩

/-- The checks are about the well-formedness of the policy. -/
theorem policySpecs_iff : (∀ spec ∈ policySpecs data, spec.2) ↔ PolicyFormed data := by
  have hformed : PolicyFormed data ↔
      (OptField data (lit "policy_name") fun value => isName value = true) ∧
      ((requireMapping data (lit "guardrails") true).2 = [] ∧
        GuardrailsFormed (requireMapping data (lit "guardrails") true).1) ∧
      ((requireMapping data (lit "decision_policy") true).2 = [] ∧
        DecisionFormed (requireMapping data (lit "decision_policy") true).1) ∧
      ((requireMapping data (lit "thresholds") false).2 = [] ∧
        ∀ entry ∈ (requireMapping data (lit "thresholds") false).1,
          IsMapping ThresholdFormed entry.2) ∧
      ((requireMapping data (lit "scoring") false).2 = [] ∧
        OptField (requireMapping data (lit "scoring") false).1 (lit "savings_multipliers")
          (IsMapping fun entry =>
            IsAmount (some PyFloatOps.zero) (some PyFloatOps.one) entry.2)) ∧
      ((requireMapping data (lit "approval_routing") false).2 = [] ∧
        OptField (requireMapping data (lit "approval_routing") false).1
          (lit "requires_approval_for_risk") (IsList fun risk => isRisk risk = true) ∧
        OptField (requireMapping data (lit "approval_routing") false).1
          (lit "production_requires_approval_for_risk") (IsList fun risk => isRisk risk = true)) := by
    rw [mapping_required, mapping_required,
      mapping_optional (Q := fun thresholds => ∀ entry ∈ thresholds,
        IsMapping ThresholdFormed entry.2) fun _ h => absurd h List.not_mem_nil,
      mapping_optional (Q := fun scoring => OptField scoring (lit "savings_multipliers") _)
        (optField_none rfl),
      mapping_optional (Q := fun routing => OptField routing (lit "requires_approval_for_risk") _ ∧
        OptField routing (lit "production_requires_approval_for_risk") _)
        ⟨optField_none rfl, optField_none rfl⟩]
    exact ⟨fun ⟨h₁, h₂, h₃, h₄, h₅, h₆⟩ => ⟨h₁, h₂, h₃, h₄, h₅, h₆⟩,
      fun ⟨h₁, h₂, h₃, h₄, h₅, h₆⟩ => ⟨h₁, h₂, h₃, h₄, h₅, h₆⟩⟩
  rw [hformed, guardrailsFormed_iff, decisionFormed_iff]
  unfold policySpecs
  simp only [List.forall_mem_cons, List.not_mem_nil, false_implies, implies_true, and_true, and_assoc]

/-- The validator overflows when a huge integer stands where it calls `float`,
and otherwise accepts the well-formed policies. -/
theorem validatePolicy_cases [PyFloatSums F] (data : List (Str × Json F)) :
    ((∃ value ∈ floatPlaces data, Huge value) ∧ ¬PolicyFormed data ∧
        validatePolicy (.obj data) = .error .overflowError) ∨
      ((∀ value ∈ floatPlaces data, ¬Huge value) ∧ PolicyFormed data ∧
        validatePolicy (.obj data) = .ok ()) ∨
      ((∀ value ∈ floatPlaces data, ¬Huge value) ∧ ¬PolicyFormed data ∧
        ∃ errors, validatePolicy (.obj data) = .error (policyValidationError errors)) := by
  have hall := checkOf_zip (policyChecks_specs data)
  rw [policySpecs_iff] at hall
  rw [validatePolicy]
  generalize Messages.all (policyChecks data) = checked at hall ⊢
  cases hall with
  | @overflow value hmem hhuge hnot =>
    exact .inl ⟨⟨value, mem_floatPlaces.mp hmem, hhuge⟩, hnot, rfl⟩
  | @messages errors hsmall hiff =>
    have hplaces : ∀ value ∈ floatPlaces data, ¬Huge value := fun value hvalue =>
      hsmall value (mem_floatPlaces.mpr hvalue)
    cases errors with
    | nil => exact .inr (.inl ⟨hplaces, hiff.mp rfl, rfl⟩)
    | cons error errors =>
      refine .inr (.inr ⟨hplaces, fun hformed => ?_, error :: errors, rfl⟩)
      exact List.cons_ne_nil _ _ (hiff.mpr hformed)

/-- The validator accepts the well-formed policies. -/
theorem validatePolicy_iff [PyFloatSums F] :
    validatePolicy (.obj data) = .ok () ↔ PolicyFormed data := by
  rcases validatePolicy_cases data with ⟨-, hnot, herror⟩ | ⟨-, hformed, hok⟩ | ⟨-, hnot, errors, herror⟩
  · rw [herror]
    exact ⟨(nomatch ·), fun h => absurd h hnot⟩
  · exact ⟨fun _ => hformed, fun _ => hok⟩
  · rw [herror]
    exact ⟨(nomatch ·), fun h => absurd h hnot⟩

end

end AgentRoi
