/-
Whether a validated policy can be used.

* `normalizePolicy`, `Policy.guardrails`, `Policy.decisionPolicy` — what a
  policy is used for;
* `PyExc.IsValueError` — the exceptions a caller of `policy_from_mapping`
  expects;
* `guardrailsOf_iff`, `decisionPolicyOf_iff` — which well-formed sections the
  constructors take;
* `policy_usable_iff` — when the validator and the constructors agree.
-/
import AgentRoi.ApprovalGrant
import AgentRoi.PolicyVerdict

namespace AgentRoi

variable {F : Type}

/-- `isinstance(exc, ValueError)`, of the exceptions that are raised here. -/
def PyExc.IsValueError : PyExc → Prop
  | .valueError _ | .unicodeEncodeError => True
  | .other className _ _ => className = lit "PolicyValidationError"
  | _ => False

/-- One member of a mapping, changed. -/
def changeMember (key : Str) (f : Json F → Json F) (members : List (Str × Json F)) :
    List (Str × Json F) :=
  members.map fun p => (p.1, if p.1 = key then f p.2 else p.2)

/-- `frozenset(str(item).strip() for item in allowed)`, of names. -/
def normalizeTools : Json F → Json F
  | .arr items => .arr (items.map fun
    | .str name => .str (strip name)
    | item => item)
  | value => value

def normalizeGuardrails : Json F → Json F
  | .obj members => .obj (changeMember (lit "allowed_tools") normalizeTools members)
  | value => value

/-- `_normalize_policy`. -/
def normalizePolicy (data : List (Str × Json F)) : List (Str × Json F) :=
  changeMember (lit "guardrails") normalizeGuardrails data

/-- `dict(self.data.get(key, {}))`. -/
def Policy.member (policy : Policy F) (key : Str) : Except PyExc (List (Str × Json F)) :=
  match dictGet key (normalizePolicy policy.data) with
  | none => .ok []
  | some (.obj members) => .ok members
  | some _ => .error (.typeError [])

section

variable [PyFloatOps F]

/-- `Policy.guardrails`. -/
def Policy.guardrails (policy : Policy F) : Except PyExc (GuardrailSettings F) := do
  guardrailsOf (← policy.member (lit "guardrails"))

/-- `Policy.decision_policy`. -/
def Policy.decisionPolicy (policy : Policy F) : Except PyExc (DecisionSettings F) := do
  decisionPolicyOf (← policy.member (lit "decision_policy"))

/-! ### The constructors -/

/-- A mapping with no other keys. -/
def KnownKeys (names : List Str) (members : List (Str × Json F)) : Prop :=
  ∀ p ∈ members, p.1 ∈ names

instance (names : List Str) (members : List (Str × Json F)) : Decidable (KnownKeys names members) :=
  inferInstanceAs (Decidable (∀ p ∈ members, p.1 ∈ names))

def IsInt (value : Json F) : Prop := ∃ i, value = .int i

variable {members : List (Str × Json F)} {key : Str} {value : Json F}

omit [PyFloatOps F] in
theorem checkKeywords_iff {names : List Str} {u : Unit} :
    checkKeywords names members = .ok u ↔ KnownKeys names members := by
  unfold checkKeywords KnownKeys
  split
  · next h => simpa using h
  · next h =>
    refine ⟨(nomatch ·), fun hall => absurd ?_ h⟩
    simpa using hall

/-- A count, as the constructor takes it. -/
theorem intField_iff {default min : Int} {message : Str} (h : Field members key (IsCount min)) :
    (∃ i, intField members key default min message = .ok i) ↔ Field members key IsInt := by
  obtain ⟨value, hget, f, hnum, -, hmin⟩ := h
  rw [field_some hget]
  unfold intField
  rw [hget]
  cases value with
  | int i =>
    have hle : ¬i < min := not_lt.mpr hmin
    exact ⟨fun _ => ⟨i, rfl⟩, fun _ => ⟨i, if_neg hle⟩⟩
  | float x =>
    constructor
    · rintro ⟨i, hi⟩
      cases hi
    · rintro ⟨i, hi⟩
      cases hi
  | _ => cases hnum

omit [PyFloatOps F] in
theorem boolField_formed {default : Bool} (h : OptField members key IsFlag) :
    ∃ b, boolField members key default = .ok b := by
  unfold boolField
  cases hget : dictGet key members with
  | none => exact ⟨default, rfl⟩
  | some value =>
    obtain ⟨b, rfl⟩ := (optField_some hget).mp h
    exact ⟨b, rfl⟩

/-- The float of an amount. -/
theorem toFloat_of_numberOf {f : F} (h : numberOf value = some f) :
    toFloat value = .ok (.finite f) := by
  rcases toFloat_cases (isNumber_of_numberOf h) with ⟨hhuge, -⟩ | ⟨-, g, hnum, hfloat⟩ |
    ⟨-, hnone, -⟩
  · rw [hhuge.numberOf] at h
    cases h
  · rw [hnum] at h
    cases h
    exact hfloat
  · rw [hnone] at h
    cases h

theorem maxCost_formed
    (h : Field members (lit "max_cost_usd") (IsAmount (some PyFloatOps.zero) none)) :
    ∃ f, maxCost members = .ok f := by
  obtain ⟨value, hget, f, hnum, hmin, -⟩ := h
  refine ⟨f, ?_⟩
  unfold maxCost
  rw [hget]
  dsimp only
  rw [toFloat_of_numberOf hnum]
  exact if_neg (by simpa [lt] using hmin PyFloatOps.zero rfl)

omit [PyFloatOps F] in
theorem toolName_of_isName {item : Json F} (h : isName item = true) :
    ∃ name, toolName item = .ok name := by
  cases item with
  | str s =>
    have hblank : isBlank s = false := by simpa [isName] using h
    exact ⟨strip s, by simp [toolName, hblank]⟩
  | _ => cases h

omit [PyFloatOps F] in
theorem mapM_toolName {items : List (Json F)} (h : ∀ item ∈ items, isName item = true) :
    ∃ names, items.mapM toolName = .ok names := by
  induction items with
  | nil => exact ⟨[], rfl⟩
  | cons item items ih =>
    obtain ⟨name, hname⟩ := toolName_of_isName (h item List.mem_cons_self)
    obtain ⟨names, hnames⟩ := ih fun other hmem => h other (List.mem_cons_of_mem item hmem)
    refine ⟨name :: names, ?_⟩
    rw [List.mapM_cons, hname, hnames]
    rfl

omit [PyFloatOps F] in
theorem allowedTools_formed (h : OptField members (lit "allowed_tools") fun value =>
    value = .null ∨ IsList (fun item => isName item = true) value) :
    ∃ tools, allowedTools members = .ok tools := by
  unfold allowedTools
  cases hget : dictGet (lit "allowed_tools") members with
  | none => exact ⟨none, rfl⟩
  | some value =>
    rcases (optField_some hget).mp h with rfl | ⟨items, rfl, hall⟩
    · exact ⟨none, rfl⟩
    · obtain ⟨names, hnames⟩ := mapM_toolName hall
      refine ⟨some names, ?_⟩
      dsimp only
      rw [hnames]
      rfl

/-- `Guardrails` takes the well-formed sections without unknown keys whose
counts are integers. -/
theorem guardrailsOf_iff (h : GuardrailsFormed members) :
    (∃ settings, guardrailsOf members = .ok settings) ↔ KnownKeys guardrailKeys members ∧
      Field members (lit "max_steps") IsInt ∧ Field members (lit "max_tool_calls") IsInt := by
  unfold guardrailsOf
  simp only [except_bind_eq_ok]
  constructor
  · rintro ⟨settings, _, hkeys, steps, hsteps, calls, hcalls, -⟩
    exact ⟨checkKeywords_iff.mp hkeys, (intField_iff h.maxSteps).mp ⟨steps, hsteps⟩,
      (intField_iff h.maxToolCalls).mp ⟨calls, hcalls⟩⟩
  · rintro ⟨hkeys, hsteps, hcalls⟩
    obtain ⟨steps, hsteps⟩ := (intField_iff h.maxSteps).mpr hsteps
    obtain ⟨calls, hcalls⟩ := (intField_iff h.maxToolCalls).mpr hcalls
    obtain ⟨deterministic, hdeterministic⟩ := boolField_formed h.deterministic
    obtain ⟨registered, hregistered⟩ := boolField_formed h.requireRegisteredTools
    obtain ⟨bound, hbound⟩ := boolField_formed h.requireBoundApprovalGrants
    obtain ⟨cost, hcost⟩ := maxCost_formed h.maxCostUsd
    obtain ⟨tools, htools⟩ := allowedTools_formed h.allowedTools
    exact ⟨_, (), checkKeywords_iff.mpr hkeys, steps, hsteps, calls, hcalls, deterministic,
      hdeterministic, registered, hregistered, bound, hbound, cost, hcost, tools, htools, rfl⟩

/-! ### Confidence weights -/

variable {weight : F}

/-- The weight the constructor reads from the section. -/
structure WeightOf (members : List (Str × Json F)) (key : Str) (weight : F) : Prop where
  nonneg : PyFloatOps.le PyFloatOps.zero weight = true
  default : dictGet key members = none → isZero (.finite weight) = false
  given : ∀ value f, dictGet key members = some value → numberOf value = some f → weight = f

theorem finiteField_amount {min max : Option F} (default : String)
    (h : Field members key (IsAmount min max)) :
    ∃ f, finiteField members key default = .ok f ∧ (∀ bound ∈ min, PyFloatOps.le bound f = true) ∧
      ∀ bound ∈ max, PyFloatOps.le f bound = true := by
  obtain ⟨value, hget, f, hnum, hmin, hmax⟩ := h
  refine ⟨f, ?_, hmin, hmax⟩
  unfold finiteField
  rw [hget]
  dsimp only
  rw [toFloat_of_numberOf hnum]

theorem weightField_formed [PyFloatSums F] (default : String)
    (hdefault : default ∈ ["0.55", "0.20", "0.15", "0.10"])
    (h : OptField members key (IsAmount (some PyFloatOps.zero) none)) :
    ∃ weight, weightField members key default = .ok weight ∧ WeightOf members key weight := by
  -- a weight that is read and not negative is the weight
  have hweight : ∀ f, finiteField members key default = .ok f →
      PyFloatOps.le PyFloatOps.zero f = true → weightField members key default = .ok f := by
    intro f hf hnonneg
    unfold weightField
    rw [hf]
    exact if_neg (by simpa [lt] using hnonneg)
  cases hget : dictGet key members with
  | none =>
    obtain ⟨f, hliteral, hnonneg, hzero⟩ := PyFloatSums.literal (F := F) default hdefault
    refine ⟨f, hweight f ?_ hnonneg, hnonneg, fun _ => hzero, fun value g hvalue => ?_⟩
    · unfold finiteField
      rw [hget]
      exact hliteral
    · rw [hget] at hvalue
      cases hvalue
  | some value =>
    obtain ⟨f, hnum, hmin, -⟩ := (optField_some hget).mp h
    have hnonneg := hmin PyFloatOps.zero rfl
    refine ⟨f, hweight f ?_ hnonneg, hnonneg, fun hnone => ?_, fun value' g hvalue hg => ?_⟩
    · unfold finiteField
      rw [hget]
      dsimp only
      rw [toFloat_of_numberOf hnum]
    · rw [hget] at hnone
      cases hnone
    · rw [hget] at hvalue
      cases hvalue
      rw [hnum] at hg
      cases hg
      rfl

/-- A sum of weights that are not negative. -/
theorem foldl_addFloat [PyFloatSums F] (weights : List F) (total : FloatVal F)
    (htotal : NonNeg total)
    (hweights : ∀ weight ∈ weights, PyFloatOps.le PyFloatOps.zero weight = true) :
    NonNeg (weights.foldl addFloat total) ∧
      (isZero (weights.foldl addFloat total) = true ↔
        isZero total = true ∧ ∀ weight ∈ weights, isZero (.finite weight) = true) := by
  induction weights generalizing total with
  | nil => exact ⟨htotal, by simp⟩
  | cons weight weights ih =>
    obtain ⟨hweight, hrest⟩ := List.forall_mem_cons.mp hweights
    obtain ⟨hnonneg, hzero⟩ := ih _ (nonNeg_addFloat htotal hweight) hrest
    refine ⟨hnonneg, ?_⟩
    rw [List.foldl_cons, hzero, isZero_addFloat htotal hweight, Bool.and_eq_true,
      List.forall_mem_cons, and_assoc]

/-- `_weight_denominator() <= 0`, of weights that are not negative. -/
theorem noEvidence_iff [PyFloatSums F] {d : DecisionSettings F}
    (h : ∀ weight ∈ [d.wProb, d.wMargin, d.wZ, d.wEntropy, d.wLlm],
      PyFloatOps.le PyFloatOps.zero weight = true) :
    noEvidence d = true ↔ ∀ weight ∈ [d.wProb, d.wMargin, d.wZ, d.wEntropy, d.wLlm],
      isZero (.finite weight) = true := by
  obtain ⟨hprob, hrest⟩ := List.forall_mem_cons.mp h
  obtain ⟨hnonneg, hzero⟩ := foldl_addFloat _ (.finite d.wProb) hprob hrest
  rw [List.forall_mem_cons, ← hzero]
  unfold noEvidence
  generalize [d.wMargin, d.wZ, d.wEntropy, d.wLlm].foldl addFloat (.finite d.wProb) = total
    at hnonneg ⊢
  cases total with
  | finite f =>
    have hf : PyFloatOps.le PyFloatOps.zero f = true := hnonneg
    simp [isZero, hf]
  | inf => simp [isZero]
  | nan => exact hnonneg.elim
  | negInf => exact hnonneg.elim

omit [PyFloatOps F] in
theorem abstainAction_formed (h : OptField members (lit "abstain_action") fun value =>
    ∃ action ∈ DecisionOutcome, value = .str action) :
    ∃ action, abstainAction members = .ok action := by
  unfold abstainAction
  cases hget : dictGet (lit "abstain_action") members with
  | none => exact ⟨_, rfl⟩
  | some value =>
    obtain ⟨action, haction, rfl⟩ := (optField_some hget).mp h
    exact ⟨action, if_pos haction⟩

/-- `DecisionPolicy` takes the well-formed sections without unknown keys. -/
theorem decisionPolicyOf_iff [PyFloatSums F] (h : DecisionFormed members) :
    (∃ settings, decisionPolicyOf members = .ok settings) ↔ KnownKeys decisionKeys members := by
  constructor
  · rintro ⟨settings, hsettings⟩
    unfold decisionPolicyOf at hsettings
    obtain ⟨_, hkeys, -⟩ := except_bind_eq_ok.mp hsettings
    exact checkKeywords_iff.mp hkeys
  · intro hkeys
    have hkeywords : checkKeywords decisionKeys members = .ok () := checkKeywords_iff.mpr hkeys
    obtain ⟨confidence, hconfidence, hmin, hmax⟩ :=
      finiteField_amount "0.75" h.minConfidence
    obtain ⟨action, haction⟩ := abstainAction_formed h.abstainAction
    obtain ⟨wProb, hprob, hprobOf⟩ := weightField_formed "0.55" (by simp)
      (h.weights (lit "w_prob") (by simp [weightKeys]))
    obtain ⟨wMargin, hmargin, hmarginOf⟩ := weightField_formed "0.20" (by simp)
      (h.weights (lit "w_margin") (by simp [weightKeys]))
    obtain ⟨wZ, hz, hzOf⟩ := weightField_formed "0.15" (by simp)
      (h.weights (lit "w_z") (by simp [weightKeys]))
    obtain ⟨wEntropy, hentropy, hentropyOf⟩ := weightField_formed "0.10" (by simp)
      (h.weights (lit "w_entropy") (by simp [weightKeys]))
    obtain ⟨wLlm, hllm, hllmOf⟩ := weightField_formed "0.10" (by simp)
      (h.weights (lit "w_llm") (by simp [weightKeys]))
    let settings := DecisionSettings.mk confidence action wProb wMargin wZ wEntropy wLlm
    have hevidence : noEvidence settings = false := by
      rw [Bool.eq_false_iff, ne_eq, noEvidence_iff]
      · intro hall
        obtain ⟨hprobZero, hmarginZero, hzZero, hentropyZero, hllmZero⟩ :
            isZero (.finite wProb) = true ∧ isZero (.finite wMargin) = true ∧
            isZero (.finite wZ) = true ∧ isZero (.finite wEntropy) = true ∧
            isZero (.finite wLlm) = true := by simpa [settings] using hall
        -- a weight that is not zero was given, or is the default of `w_prob`
        have hgiven : ∀ {key : Str} {weight : F}, WeightOf members key weight →
            isZero (.finite weight) = true → ¬Field members key fun value =>
              ∃ f, numberOf value = some f ∧ isZero (.finite f) = false := by
          rintro key weight hof hzero ⟨value, hget, f, hnum, hnonzero⟩
          rw [hof.given value f hget hnum, hnonzero] at hzero
          cases hzero
        rcases h.evidence with hnone | ⟨key, hkey, hfield⟩
        · rw [hprobOf.default (hnone _ (by simp [weightKeys]))] at hprobZero
          cases hprobZero
        · simp only [weightKeys, List.mem_cons, List.not_mem_nil, or_false] at hkey
          rcases hkey with rfl | rfl | rfl | rfl | rfl
          · exact hgiven hprobOf hprobZero hfield
          · exact hgiven hmarginOf hmarginZero hfield
          · exact hgiven hzOf hzZero hfield
          · exact hgiven hentropyOf hentropyZero hfield
          · exact hgiven hllmOf hllmZero hfield
      · simp [settings, hprobOf.nonneg, hmarginOf.nonneg, hzOf.nonneg, hentropyOf.nonneg,
          hllmOf.nonneg]
    refine ⟨settings, ?_⟩
    have hbounds : (!(PyFloatOps.le PyFloatOps.zero confidence &&
        PyFloatOps.le confidence PyFloatOps.one)) = false := by
      rw [hmin _ rfl, hmax _ rfl]
      rfl
    unfold decisionPolicyOf
    rw [hkeywords, hconfidence, haction, hprob, hmargin, hz, hentropy, hllm]
    simp only [bind, Except.bind, pure, Except.pure, hbounds, Bool.false_eq_true, if_false]
    exact if_neg (by rw [hevidence]; exact Bool.false_ne_true)

/-! ### Policies in use -/

omit [PyFloatOps F] in
theorem dictGet_changeMember {changed : Str} {f : Json F → Json F} :
    dictGet key (changeMember changed f members) =
      (dictGet key members).map (if key = changed then f else id) := by
  induction members with
  | nil => rfl
  | cons p members ih =>
    by_cases hkey : p.1 = key
    · subst hkey
      by_cases hchanged : p.1 = changed
      · simp [changeMember, dictGet, hchanged]
      · simp [changeMember, dictGet, hchanged]
    · show (if p.1 = key then _ else _) = Option.map _ (if p.1 = key then _ else _)
      rw [if_neg hkey, if_neg hkey]
      exact ih

omit [PyFloatOps F] in
/-- A name that is stripped already is read alike. -/
theorem toolName_strip (s : Str) :
    toolName (.str (strip s) : Json F) = toolName (.str s : Json F) := by
  rw [toolName, toolName, isBlank_strip, strip_strip]

/-- `Guardrails` reads normalised members as it reads the given ones. -/
theorem guardrailsOf_normalize :
    guardrailsOf (changeMember (lit "allowed_tools") normalizeTools members) =
      guardrailsOf members := by
  have hkeys : checkKeywords guardrailKeys
      (changeMember (lit "allowed_tools") normalizeTools members) =
      checkKeywords guardrailKeys members := by
    unfold checkKeywords changeMember
    rw [List.all_map]
    rfl
  have hget : ∀ other, other ≠ lit "allowed_tools" →
      dictGet other (changeMember (lit "allowed_tools") normalizeTools members) =
        dictGet other members := by
    intro other hother
    rw [dictGet_changeMember, if_neg hother, Option.map_id_fun, id_eq]
  have htools : allowedTools (changeMember (lit "allowed_tools") normalizeTools members) =
      allowedTools members := by
    unfold allowedTools
    rw [dictGet_changeMember, if_pos rfl]
    cases dictGet (lit "allowed_tools") members with
    | none => rfl
    | some value =>
      cases value with
      | arr items =>
        show (_ <$> List.mapM toolName (items.map _)) = _ <$> List.mapM toolName items
        rw [List.mapM_map]
        congr 2
        funext item
        cases item with
        | str s => exact toolName_strip s
        | _ => rfl
      | _ => rfl
  unfold guardrailsOf intField boolField maxCost
  rw [hkeys, htools, hget (lit "max_steps") (by decide), hget (lit "max_tool_calls") (by decide),
    hget (lit "deterministic") (by decide), hget (lit "require_registered_tools") (by decide),
    hget (lit "require_bound_approval_grants") (by decide), hget (lit "max_cost_usd") (by decide)]

variable {name : Str} {data : List (Str × Json F)} {policy : Policy F}

omit [PyFloatOps F] in
theorem policySection_eq_ok :
    policySection data key = .ok members ↔ dictGet key data = some (.obj members) := by
  unfold policySection
  cases dictGet key data with
  | none => exact ⟨(nomatch ·), (nomatch ·)⟩
  | some value => cases value <;> simp

theorem policyFromMapping_data (h : policyFromMapping name data = .ok policy) :
    policy.data = data := by
  unfold policyFromMapping at h
  split at h
  · cases h
  · obtain ⟨_, -, h⟩ := except_bind_eq_ok.mp h
    obtain ⟨_, -, h⟩ := except_bind_eq_ok.mp h
    obtain ⟨_, -, h⟩ := except_bind_eq_ok.mp h
    obtain ⟨_, -, h⟩ := except_bind_eq_ok.mp h
    obtain ⟨_, -, h⟩ := except_bind_eq_ok.mp h
    cases h
    rfl

/-- A policy that was accepted can be used. -/
theorem policy_used (h : policyFromMapping name data = .ok policy) :
    (∃ settings, policy.guardrails = .ok settings) ∧
      ∃ settings, policy.decisionPolicy = .ok settings := by
  obtain ⟨-, -, ⟨members, settings, hmembers, hsettings⟩,
    ⟨members', settings', hmembers', hsettings'⟩⟩ := policyFromMapping_accepts.mp ⟨policy, h⟩
  have hdata : policy.data = data := policyFromMapping_data h
  constructor
  · refine ⟨settings, ?_⟩
    unfold Policy.guardrails Policy.member normalizePolicy
    rw [hdata, dictGet_changeMember, if_pos rfl, policySection_eq_ok.mp hmembers]
    exact guardrailsOf_normalize.trans hsettings
  · refine ⟨settings', ?_⟩
    unfold Policy.decisionPolicy Policy.member normalizePolicy
    rw [hdata, dictGet_changeMember, if_neg (by decide), policySection_eq_ok.mp hmembers']
    exact hsettings'

/-- The sections of the policy hold what the constructors take: no other keys,
and counts that are integers. -/
structure SectionsKnown (data : List (Str × Json F)) : Prop where
  guardrails : ∀ members, dictGet (lit "guardrails") data = some (.obj members) →
    KnownKeys guardrailKeys members ∧
      Field members (lit "max_steps") IsInt ∧ Field members (lit "max_tool_calls") IsInt
  decisionPolicy : ∀ members, dictGet (lit "decision_policy") data = some (.obj members) →
    KnownKeys decisionKeys members

/-- A well-formed policy is accepted if its sections hold what the
constructors take. -/
theorem accepts_formed [PyFloatSums F] (h : PolicyFormed data) :
    (∃ policy, policyFromMapping name data = .ok policy) ↔
      isBlank name = false ∧ SectionsKnown data := by
  obtain ⟨_, hguardrails, members, rfl, hformed⟩ := h.guardrails
  obtain ⟨_, hdecision, members', rfl, hformed'⟩ := h.decisionPolicy
  -- each section is the mapping found under its key
  have hsections : SectionsKnown data ↔
      (∃ settings, guardrailsOf members = .ok settings) ∧
        ∃ settings, decisionPolicyOf members' = .ok settings := by
    rw [guardrailsOf_iff hformed, decisionPolicyOf_iff hformed']
    constructor
    · rintro ⟨hknown, hknown'⟩
      exact ⟨hknown members hguardrails, hknown' members' hdecision⟩
    · rintro ⟨hknown, hknown'⟩
      refine ⟨fun other hother => ?_, fun other hother => ?_⟩
      · rw [hguardrails] at hother
        cases hother
        exact hknown
      · rw [hdecision] at hother
        cases hother
        exact hknown'
  rw [policyFromMapping_accepts, hsections, validatePolicy_iff]
  refine and_congr_right fun _ => (and_iff_right h).trans (and_congr ?_ ?_)
  · constructor
    · rintro ⟨other, settings, hother, hsettings⟩
      rw [policySection_eq_ok, hguardrails] at hother
      cases hother
      exact ⟨settings, hsettings⟩
    · rintro ⟨settings, hsettings⟩
      exact ⟨members, settings, policySection_eq_ok.mpr hguardrails, hsettings⟩
  · constructor
    · rintro ⟨other, settings, hother, hsettings⟩
      rw [policySection_eq_ok, hdecision] at hother
      cases hother
      exact ⟨settings, hsettings⟩
    · rintro ⟨settings, hsettings⟩
      exact ⟨members', settings, policySection_eq_ok.mpr hdecision, hsettings⟩

/-- Errors are `ValueError`s, an accepted policy can be used, and the
validator accepts what `policy_from_mapping` accepts. -/
structure PolicyUsable (name : Str) (data : List (Str × Json F)) : Prop where
  rejected : ∀ e, policyFromMapping name data = .error e → e.IsValueError
  used : ∀ policy, policyFromMapping name data = .ok policy →
    (∃ settings, policy.guardrails = .ok settings) ∧
      ∃ settings, policy.decisionPolicy = .ok settings
  agree : validatePolicy (.obj data) = .ok () ↔ ∃ policy, policyFromMapping name data = .ok policy

/-- An error of the validator is one of `policy_from_mapping`. -/
theorem policyFromMapping_error {e : PyExc} (hname : isBlank name = false)
    (h : validatePolicy (.obj data) = .error e) : policyFromMapping name data = .error e := by
  unfold policyFromMapping
  rw [hname, h]
  rfl

/-- A policy is rejected cleanly or can be used exactly when no integer is too
large where a float is read, and a well-formed one has a name, and sections
the constructors take. -/
theorem policy_usable_iff [PyFloatSums F] (name : Str) (data : List (Str × Json F)) :
    PolicyUsable name data ↔
      (isBlank name = false → ∀ value ∈ floatPlaces data, ¬Huge value) ∧
      (PolicyFormed data → isBlank name = false ∧ SectionsKnown data) := by
  constructor
  · intro h
    refine ⟨fun hname value hvalue hhuge => ?_, fun hformed => ?_⟩
    · rcases validatePolicy_cases data with ⟨-, -, herror⟩ | ⟨hsmall, -⟩ | ⟨hsmall, -⟩
      · exact h.rejected _ (policyFromMapping_error hname herror)
      · exact hsmall value hvalue hhuge
      · exact hsmall value hvalue hhuge
    · exact (accepts_formed hformed).mp (h.agree.mp (validatePolicy_iff.mpr hformed))
  · rintro ⟨hsmall, hknown⟩
    have hagree : validatePolicy (.obj data) = .ok () ↔
        ∃ policy, policyFromMapping name data = .ok policy := by
      refine ⟨fun hvalid => ?_, fun haccepted => (policyFromMapping_accepts.mp haccepted).2.1⟩
      have hformed := validatePolicy_iff.mp hvalid
      exact (accepts_formed hformed).mpr (hknown hformed)
    refine ⟨fun e he => ?_, fun policy => policy_used, hagree⟩
    cases hname : isBlank name with
    | true =>
      unfold policyFromMapping at he
      rw [hname] at he
      cases he
      trivial
    | false =>
      -- what the validator refuses, it refuses with a `ValueError`
      rcases validatePolicy_cases data with ⟨⟨value, hvalue, hhuge⟩, -⟩ | ⟨-, hformed, hvalid⟩ |
        ⟨-, -, errors, herror⟩
      · exact absurd hhuge (hsmall hname value hvalue)
      · obtain ⟨policy, hpolicy⟩ := hagree.mp hvalid
        rw [hpolicy] at he
        cases he
      · rw [policyFromMapping_error hname herror] at he
        cases he
        rfl

end

/-! ### Runs on a few floats -/

/-- The floats of the default weights and one above, to run the constructors
on; sums stop at the largest. -/
inductive WeightFloat where
  | zero
  | tenth
  | threeTwentieths
  | fifth
  | elevenTwentieths
  | one
  | huge
  deriving DecidableEq

def WeightFloat.rank : WeightFloat → ℕ
  | .zero => 0
  | .tenth => 2
  | .threeTwentieths => 3
  | .fifth => 4
  | .elevenTwentieths => 11
  | .one => 20
  | .huge => 21

def WeightFloat.text : WeightFloat → Str
  | .zero => lit "0.0"
  | .tenth => lit "0.1"
  | .threeTwentieths => lit "0.15"
  | .fifth => lit "0.2"
  | .elevenTwentieths => lit "0.55"
  | .one => lit "1.0"
  | .huge => lit "1e+16"

instance : PyFloatOps WeightFloat where
  repr := WeightFloat.text
  ofText t := if t = lit "0.0" then .finite .zero
    else if t = lit "0.1" ∨ t = lit "0.10" then .finite .tenth
    else if t = lit "0.15" then .finite .threeTwentieths
    else if t = lit "0.2" ∨ t = lit "0.20" then .finite .fifth
    else if t = lit "0.55" then .finite .elevenTwentieths
    else if t = lit "1.0" then .finite .one
    else if t = lit "1e+16" then .finite .huge else .nan
  repr_isFloatText
    | .zero => ⟨false, [48], [46, 48], [], rfl, .inl rfl, .inr ⟨[48], rfl, by decide, by decide⟩,
        .inl rfl, .inl (by decide)⟩
    | .tenth => ⟨false, [48], [46, 49], [], rfl, .inl rfl,
        .inr ⟨[49], rfl, by decide, by decide⟩, .inl rfl, .inl (by decide)⟩
    | .threeTwentieths => ⟨false, [48], [46, 49, 53], [], rfl, .inl rfl,
        .inr ⟨[49, 53], rfl, by decide, by decide⟩, .inl rfl, .inl (by decide)⟩
    | .fifth => ⟨false, [48], [46, 50], [], rfl, .inl rfl,
        .inr ⟨[50], rfl, by decide, by decide⟩, .inl rfl, .inl (by decide)⟩
    | .elevenTwentieths => ⟨false, [48], [46, 53, 53], [], rfl, .inl rfl,
        .inr ⟨[53, 53], rfl, by decide, by decide⟩, .inl rfl, .inl (by decide)⟩
    | .one => ⟨false, [49], [46, 48], [], rfl, .inr ⟨49, [], rfl, by decide, by decide, by simp⟩,
        .inr ⟨[48], rfl, by decide, by decide⟩, .inl rfl, .inl (by decide)⟩
    | .huge => ⟨false, [49], [], [101, 43, 49, 54], rfl,
        .inr ⟨49, [], rfl, by decide, by decide, by simp⟩, .inl rfl,
        .inr ⟨43, [49, 54], rfl, .inl rfl, by decide, by decide⟩, .inr (by decide)⟩
  ofText_repr f := by cases f <;> decide
  ofInt i := if i < 2 ^ 1024 then
      some (if i ≤ 0 then .zero else if i = 1 then .one else .huge)
    else none
  trunc f := if f = .huge then 10 ^ 16 else if f = .one then 1 else 0
  isInteger f := f = .zero ∨ f = .one ∨ f = .huge
  le a b := a.rank ≤ b.rank
  add a b := .finite (if a = .zero then b else if b = .zero then a else .huge)
  zero := .zero
  one := .one

instance : PyFloatSums WeightFloat where
  zero_le := by decide
  add_nonneg {a b} _ _ := by cases a <;> cases b <;> exact rfl
  isZero_add {a b} _ _ := by cases a <;> cases b <;> decide
  literal := by
    simp only [List.forall_mem_cons]
    exact ⟨⟨.elevenTwentieths, by decide, by decide, by decide⟩,
      ⟨.fifth, by decide, by decide, by decide⟩,
      ⟨.threeTwentieths, by decide, by decide, by decide⟩,
      ⟨.tenth, by decide, by decide, by decide⟩, fun _ h => absurd h List.not_mem_nil⟩

/-- A policy with these `max_steps` and other guardrails. -/
def policyWith (maxSteps : Json WeightFloat) (others : List (Str × Json WeightFloat)) :
    List (Str × Json WeightFloat) :=
  [(lit "guardrails", .obj ([(lit "max_steps", maxSteps), (lit "max_tool_calls", .int 2),
      (lit "max_cost_usd", .int 1)] ++ others)),
    (lit "decision_policy", .obj [(lit "min_confidence", .int 1), (lit "w_prob", .int 1),
      (lit "w_margin", .int 0), (lit "w_z", .int 0), (lit "w_entropy", .int 0),
      (lit "w_llm", .int 0)])]

theorem policy_usable_plain : PolicyUsable (lit "p") (policyWith (.int 3) []) := by
  refine (policy_usable_iff (lit "p") (policyWith (.int 3) [])).mpr ⟨fun _ => ?_, fun _ => ?_⟩
  · have hplaces : floatPlaces (policyWith (.int 3) []) =
        [.int 3, .int 2, .int 1, .int 1, .int 1, .int 0, .int 0, .int 0, .int 0] := rfl
    rw [hplaces]
    rintro value hvalue ⟨i, rfl, hnone⟩
    have hsmall : i < 2 ^ 1024 := by
      simp only [List.mem_cons, Json.int.injEq, List.not_mem_nil, or_false] at hvalue
      omega
    rw [show (PyFloatOps.ofInt i : Option WeightFloat) = some _ from if_pos hsmall] at hnone
    cases hnone
  · refine ⟨by decide, fun members hmembers => ?_, fun members hmembers => ?_⟩
    · cases hmembers
      exact ⟨by decide, ⟨.int 3, rfl, 3, rfl⟩, ⟨.int 2, rfl, 2, rfl⟩⟩
    · cases hmembers
      decide

/-- The exception, if one is raised. -/
def raised : Except PyExc (Policy F) → Option PyExc
  | .ok _ => none
  | .error e => some e

theorem eq_error_of_raised {r : Except PyExc (Policy F)} {e : PyExc} (h : raised r = some e) :
    r = .error e := by
  cases r with
  | ok policy => cases h
  | error e' =>
    cases h
    rfl

/-- An unknown key lets a `TypeError` out, a float count is validated and then
refused, and a huge integer lets an `OverflowError` out. -/
theorem policy_unusable :
    ¬PolicyUsable (lit "p") (policyWith (.int 3) [(lit "max_retries", .int 1)]) ∧
    ¬PolicyUsable (lit "p") (policyWith (.float (.finite .one)) []) ∧
    ¬PolicyUsable (lit "p") (policyWith (.int (2 ^ 1024)) []) := by
  refine ⟨fun h => ?_, fun h => ?_, fun h => ?_⟩
  · have herror : raised (policyFromMapping (lit "p")
        (policyWith (.int 3) [(lit "max_retries", .int 1)])) = some (.typeError []) := by
      decide +kernel
    exact h.rejected _ (eq_error_of_raised herror)
  · have hvalid : validatePolicy (.obj (policyWith (.float (.finite .one)) [])) = .ok () := by
      decide +kernel
    have herror : raised (policyFromMapping (lit "p") (policyWith (.float (.finite .one)) [])) =
        some (.valueError (lit "max_steps must be an integer >= 1")) := by
      decide +kernel
    obtain ⟨policy, hpolicy⟩ := h.agree.mp hvalid
    rw [eq_error_of_raised herror] at hpolicy
    cases hpolicy
  · have herror : raised (policyFromMapping (lit "p") (policyWith (.int (2 ^ 1024)) [])) =
        some .overflowError := by
      decide +kernel
    exact h.rejected _ (eq_error_of_raised herror)

end AgentRoi
