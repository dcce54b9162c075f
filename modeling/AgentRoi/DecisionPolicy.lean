/-
`agent_roi.control.decision`, in exact arithmetic.

Any monotone map into the unit interval may stand for `_stable_sigmoid`.

* `DecisionPolicy`, `DecisionPolicy.create` — the policies, and their
  constructor;
* `score`, `decide` — the two methods;
* `score_eq` — the score, as what the signals contribute;
* `Weaker` — evidence with fewer or smaller signals and more entropy;
* `score_le_of_weaker`, `accept_of_weaker` — weaker evidence has no higher
  score, and is not accepted where the stronger is not;
* `score_bounded_monotone`, `removal_raises_no_score` — what follows for the
  values of the signals, and for missing ones.
-/
import AgentRoi.PyM
import AgentRoi.Json
import Mathlib.Algebra.Order.Field.Rat
import Mathlib.Tactic.Linarith
import Mathlib.Tactic.NormNum
import Mathlib.Tactic.Positivity

namespace AgentRoi

namespace Control

/-! ### The records -/

inductive DecisionOutcome where
  | accept
  | abstain
  | humanReview
  | retry
  deriving DecidableEq

def DecisionOutcome.value : DecisionOutcome → Str
  | .accept => lit "accept"
  | .abstain => lit "abstain"
  | .humanReview => lit "human_review"
  | .retry => lit "retry"

def DecisionOutcome.all : List DecisionOutcome := [.accept, .abstain, .humanReview, .retry]

structure ConfidenceInputs where
  prob : Option (FloatVal ℚ)
  margin : Option (FloatVal ℚ)
  zScore : Option (FloatVal ℚ)
  entropy : Option (FloatVal ℚ)
  llmSelfScore : Option (FloatVal ℚ)
  deriving DecidableEq

/-- A policy as `__post_init__` leaves it. -/
structure DecisionPolicy where
  minConfidence : ℚ
  abstainAction : DecisionOutcome
  wProb : ℚ
  wMargin : ℚ
  wZ : ℚ
  wEntropy : ℚ
  wLlm : ℚ
  minConfidence_range : 0 ≤ minConfidence ∧ minConfidence ≤ 1
  wProb_nonneg : 0 ≤ wProb
  wMargin_nonneg : 0 ≤ wMargin
  wZ_nonneg : 0 ≤ wZ
  wEntropy_nonneg : 0 ≤ wEntropy
  wLlm_nonneg : 0 ≤ wLlm
  weights_pos : 0 < wProb + wMargin + wZ + wEntropy + wLlm

/-- The arguments of the constructor, with their defaults. -/
structure DecisionArguments where
  minConfidence : FloatVal ℚ := .finite (3 / 4)
  abstainAction : DecisionOutcome ⊕ Str := .inl .humanReview
  wProb : FloatVal ℚ := .finite (11 / 20)
  wMargin : FloatVal ℚ := .finite (1 / 5)
  wZ : FloatVal ℚ := .finite (3 / 20)
  wEntropy : FloatVal ℚ := .finite (1 / 10)
  wLlm : FloatVal ℚ := .finite (1 / 10)

/-- A map that may stand for `_stable_sigmoid`. -/
structure Sigmoid where
  toFun : ℚ → ℚ
  monotone : Monotone toFun
  nonneg : ∀ q, 0 ≤ toFun q
  le_one : ∀ q, toFun q ≤ 1

/-! ### The methods -/

/-- `_finite_number`, of a float. -/
def finiteNumber (value : FloatVal ℚ) (name : Str) : Except PyExc ℚ :=
  match value with
  | .finite q => .ok q
  | _ => .error (.valueError (name ++ lit " must be finite"))

/-- `DecisionOutcome(value)`, where that is not one already. -/
def readOutcome : DecisionOutcome ⊕ Str → Except PyExc DecisionOutcome
  | .inl outcome => .ok outcome
  | .inr value =>
    match DecisionOutcome.all.find? fun outcome => outcome.value = value with
    | some outcome => .ok outcome
    | none => .error (.valueError (lit "abstain_action must be one of: " ++
        (lit ", ").intercalate (DecisionOutcome.all.map DecisionOutcome.value)))

/-- A weight, as the loop of `__post_init__` checks it. -/
def checkWeight (value : FloatVal ℚ) (name : Str) : Except PyExc {q : ℚ // 0 ≤ q} := do
  let q ← finiteNumber value name
  if h : 0 ≤ q then return ⟨q, h⟩ else .error (.valueError (name ++ lit " must be >= 0"))

theorem checkWeight_finite {q : ℚ} (name : Str) (h : 0 ≤ q) :
    checkWeight (.finite q) name = .ok ⟨q, h⟩ := dif_pos h

namespace DecisionPolicy

def create (arguments : DecisionArguments) : Except PyExc DecisionPolicy := do
  let minimum ← finiteNumber arguments.minConfidence (lit "min_confidence")
  if hrange : 0 ≤ minimum ∧ minimum ≤ 1 then do
    let outcome ← readOutcome arguments.abstainAction
    let wProb ← checkWeight arguments.wProb (lit "w_prob")
    let wMargin ← checkWeight arguments.wMargin (lit "w_margin")
    let wZ ← checkWeight arguments.wZ (lit "w_z")
    let wEntropy ← checkWeight arguments.wEntropy (lit "w_entropy")
    let wLlm ← checkWeight arguments.wLlm (lit "w_llm")
    if hpos : 0 < wProb.1 + wMargin.1 + wZ.1 + wEntropy.1 + wLlm.1 then
      return ⟨minimum, outcome, wProb.1, wMargin.1, wZ.1, wEntropy.1, wLlm.1, hrange, wProb.2,
        wMargin.2, wZ.2, wEntropy.2, wLlm.2, hpos⟩
    else .error (.valueError (lit "At least one confidence weight must be > 0"))
  else .error (.valueError (lit "min_confidence must be between 0 and 1"))

/-- The constructor builds every policy. -/
theorem exists_create (p : DecisionPolicy) : ∃ arguments, create arguments = .ok p := by
  refine ⟨⟨.finite p.minConfidence, .inl p.abstainAction, .finite p.wProb, .finite p.wMargin,
    .finite p.wZ, .finite p.wEntropy, .finite p.wLlm⟩, ?_⟩
  refine (dif_pos p.minConfidence_range).trans ?_
  simp only [checkWeight_finite _ p.wProb_nonneg, checkWeight_finite _ p.wMargin_nonneg,
    checkWeight_finite _ p.wZ_nonneg, checkWeight_finite _ p.wEntropy_nonneg,
    checkWeight_finite _ p.wLlm_nonneg]
  exact dif_pos p.weights_pos

def weightDenominator (p : DecisionPolicy) : ℚ := p.wProb + p.wMargin + p.wZ + p.wEntropy + p.wLlm

end DecisionPolicy

def clamp01 (value : ℚ) : ℚ := max 0 (min 1 value)

/-- `score` after a signal: a missing one leaves it as it is. -/
def addSignal (signal : Option (FloatVal ℚ)) (name : Str) (effect : ℚ → ℚ) (score : ℚ) :
    Except PyExc ℚ :=
  match signal with
  | none => .ok score
  | some value => do return score + effect (← finiteNumber value name)

namespace DecisionPolicy

variable (p : DecisionPolicy) (sigmoid : Sigmoid)

def score (x : ConfidenceInputs) : Except PyExc ℚ := do
  let score ← addSignal x.prob (lit "prob") (fun q => p.wProb * clamp01 q) 0
  let score ← addSignal x.margin (lit "margin") (fun q => p.wMargin * clamp01 q) score
  let score ← addSignal x.zScore (lit "z_score") (fun q => p.wZ * sigmoid.toFun q) score
  let score ← addSignal x.entropy (lit "entropy")
    (fun q => -(p.wEntropy * clamp01 (q / (5 / 2)))) score
  let score ← addSignal x.llmSelfScore (lit "llm_self_score") (fun q => p.wLlm * clamp01 q) score
  return clamp01 (score / p.weightDenominator)

def decide (x : ConfidenceInputs) : Except PyExc DecisionOutcome := do
  let score ← p.score sigmoid x
  return if p.minConfidence ≤ score then .accept else p.abstainAction

end DecisionPolicy

/-! ### What the signals contribute -/

theorem clamp01_nonneg (q : ℚ) : 0 ≤ clamp01 q := le_max_left _ _

theorem clamp01_le_one (q : ℚ) : clamp01 q ≤ 1 := max_le zero_le_one (min_le_left _ _)

theorem clamp01_mono {q r : ℚ} (h : q ≤ r) : clamp01 q ≤ clamp01 r :=
  max_le_max_left 0 (min_le_min_left 1 h)

/-- Neither NaN nor infinite, if it is there at all. -/
def IsFinite (signal : Option (FloatVal ℚ)) : Prop := ∀ value ∈ signal, ∃ q, value = .finite q

/-- What a signal adds. -/
def contribution (effect : ℚ → ℚ) : Option (FloatVal ℚ) → ℚ
  | some (.finite q) => effect q
  | _ => 0

theorem addSignal_of_finite {signal : Option (FloatVal ℚ)} (h : IsFinite signal) (name : Str)
    (effect : ℚ → ℚ) (score : ℚ) :
    addSignal signal name effect score = .ok (score + contribution effect signal) := by
  cases signal with
  | none => exact congrArg Except.ok (add_zero score).symm
  | some value =>
    obtain ⟨q, rfl⟩ := h value rfl
    rfl

theorem addSignal_eq_ok {signal : Option (FloatVal ℚ)} {name : Str} {effect : ℚ → ℚ} {score s : ℚ}
    (h : addSignal signal name effect score = .ok s) : IsFinite signal := by
  rintro value rfl
  cases value with
  | finite q => exact ⟨q, rfl⟩
  | nan => cases h
  | inf => cases h
  | negInf => cases h

namespace ConfidenceInputs

structure Finite (x : ConfidenceInputs) : Prop where
  prob : IsFinite x.prob
  margin : IsFinite x.margin
  zScore : IsFinite x.zScore
  entropy : IsFinite x.entropy
  llmSelfScore : IsFinite x.llmSelfScore

end ConfidenceInputs

/-- A signal that is missing, or no larger. -/
inductive NoMore : Option (FloatVal ℚ) → Option (FloatVal ℚ) → Prop
  | missing (signal : Option (FloatVal ℚ)) : NoMore none signal
  | finite {q r : ℚ} : q ≤ r → NoMore (some (.finite q)) (some (.finite r))

theorem NoMore.refl {signal : Option (FloatVal ℚ)} (h : IsFinite signal) : NoMore signal signal := by
  cases signal with
  | none => exact .missing none
  | some value =>
    obtain ⟨q, rfl⟩ := h value rfl
    exact .finite le_rfl

theorem contribution_nonneg {effect : ℚ → ℚ} (h : ∀ q, 0 ≤ effect q)
    (signal : Option (FloatVal ℚ)) : 0 ≤ contribution effect signal := by
  unfold contribution
  split
  · exact h _
  · exact le_rfl

theorem contribution_mono {effect : ℚ → ℚ} {signal signal' : Option (FloatVal ℚ)}
    (hnonneg : ∀ q, 0 ≤ effect q) (hmono : Monotone effect) (h : NoMore signal signal') :
    contribution effect signal ≤ contribution effect signal' := by
  cases h with
  | missing => exact contribution_nonneg hnonneg signal'
  | finite hle => exact hmono hle

namespace DecisionPolicy

variable (p : DecisionPolicy) (sigmoid : Sigmoid)

/-- The sum of the signals, before it is divided. -/
def evidence (x : ConfidenceInputs) : ℚ :=
  contribution (fun q => p.wProb * clamp01 q) x.prob +
    contribution (fun q => p.wMargin * clamp01 q) x.margin +
    contribution (fun q => p.wZ * sigmoid.toFun q) x.zScore +
    contribution (fun q => -(p.wEntropy * clamp01 (q / (5 / 2)))) x.entropy +
    contribution (fun q => p.wLlm * clamp01 q) x.llmSelfScore

theorem weightDenominator_pos : 0 < p.weightDenominator := p.weights_pos

/-- Where every signal is finite, the score is the evidence over the weights. -/
theorem score_eq {x : ConfidenceInputs} (hx : x.Finite) :
    p.score sigmoid x = .ok (clamp01 (p.evidence sigmoid x / p.weightDenominator)) := by
  unfold score
  rw [addSignal_of_finite hx.prob]
  show addSignal x.margin _ _ _ >>= _ = _
  rw [addSignal_of_finite hx.margin]
  show addSignal x.zScore _ _ _ >>= _ = _
  rw [addSignal_of_finite hx.zScore]
  show addSignal x.entropy _ _ _ >>= _ = _
  rw [addSignal_of_finite hx.entropy]
  show addSignal x.llmSelfScore _ _ _ >>= _ = _
  rw [addSignal_of_finite hx.llmSelfScore, zero_add]
  rfl

/-- There is no score but of finite signals. -/
theorem finite_of_score {x : ConfidenceInputs} {s : ℚ} (h : p.score sigmoid x = .ok s) :
    x.Finite := by
  obtain ⟨s₁, hprob, h⟩ := except_bind_eq_ok.mp h
  obtain ⟨s₂, hmargin, h⟩ := except_bind_eq_ok.mp h
  obtain ⟨s₃, hz, h⟩ := except_bind_eq_ok.mp h
  obtain ⟨s₄, hentropy, h⟩ := except_bind_eq_ok.mp h
  obtain ⟨s₅, hllm, -⟩ := except_bind_eq_ok.mp h
  exact ⟨addSignal_eq_ok hprob, addSignal_eq_ok hmargin, addSignal_eq_ok hz,
    addSignal_eq_ok hentropy, addSignal_eq_ok hllm⟩

end DecisionPolicy

/-! ### Weaker evidence -/

/-- Evidence with no more of any signal, and no less entropy. -/
structure Weaker (x y : ConfidenceInputs) : Prop where
  prob : NoMore x.prob y.prob
  margin : NoMore x.margin y.margin
  zScore : NoMore x.zScore y.zScore
  entropy : NoMore y.entropy x.entropy
  llmSelfScore : NoMore x.llmSelfScore y.llmSelfScore

namespace DecisionPolicy

variable (p : DecisionPolicy) (sigmoid : Sigmoid)

theorem evidence_le_of_weaker {x y : ConfidenceInputs} (h : Weaker x y) :
    p.evidence sigmoid x ≤ p.evidence sigmoid y := by
  have hclamped : ∀ {w : ℚ}, 0 ≤ w → (∀ q, 0 ≤ w * clamp01 q) ∧ Monotone fun q => w * clamp01 q :=
    fun hw => ⟨fun q => mul_nonneg hw (clamp01_nonneg q),
      fun q r hqr => mul_le_mul_of_nonneg_left (clamp01_mono hqr) hw⟩
  have hprob := contribution_mono (hclamped p.wProb_nonneg).1 (hclamped p.wProb_nonneg).2 h.prob
  have hmargin :=
    contribution_mono (hclamped p.wMargin_nonneg).1 (hclamped p.wMargin_nonneg).2 h.margin
  have hz : contribution (fun q => p.wZ * sigmoid.toFun q) x.zScore ≤
      contribution (fun q => p.wZ * sigmoid.toFun q) y.zScore :=
    contribution_mono (fun q => mul_nonneg p.wZ_nonneg (sigmoid.nonneg q))
      (fun q r hqr => mul_le_mul_of_nonneg_left (sigmoid.monotone hqr) p.wZ_nonneg) h.zScore
  have hllm :=
    contribution_mono (hclamped p.wLlm_nonneg).1 (hclamped p.wLlm_nonneg).2 h.llmSelfScore
  -- the penalty is the contribution of the entropy, negated
  have hneg : ∀ signal, contribution (fun q => -(p.wEntropy * clamp01 (q / (5 / 2)))) signal =
      -contribution (fun q => p.wEntropy * clamp01 (q / (5 / 2))) signal := by
    intro signal
    unfold contribution
    split
    · rfl
    · exact neg_zero.symm
  have hentropy : contribution (fun q => p.wEntropy * clamp01 (q / (5 / 2))) y.entropy ≤
      contribution (fun q => p.wEntropy * clamp01 (q / (5 / 2))) x.entropy :=
    contribution_mono (fun q => mul_nonneg p.wEntropy_nonneg (clamp01_nonneg _))
      (fun q r hqr => mul_le_mul_of_nonneg_left
        (clamp01_mono (div_le_div_of_nonneg_right hqr (by norm_num))) p.wEntropy_nonneg) h.entropy
  unfold evidence
  rw [hneg, hneg]
  linarith

/-- Weaker evidence has no higher score. -/
theorem score_le_of_weaker {x y : ConfidenceInputs} {s s' : ℚ} (h : Weaker x y)
    (hs : p.score sigmoid x = .ok s) (hs' : p.score sigmoid y = .ok s') : s ≤ s' := by
  rw [score_eq p sigmoid (finite_of_score p sigmoid hs)] at hs
  rw [score_eq p sigmoid (finite_of_score p sigmoid hs')] at hs'
  rw [← Except.ok.inj hs, ← Except.ok.inj hs']
  exact clamp01_mono (div_le_div_of_nonneg_right (p.evidence_le_of_weaker sigmoid h)
    p.weightDenominator_pos.le)

theorem decide_of_score {x : ConfidenceInputs} {s : ℚ} (h : p.score sigmoid x = .ok s) :
    p.decide sigmoid x = .ok (if p.minConfidence ≤ s then .accept else p.abstainAction) := by
  unfold decide
  rw [h]
  rfl

theorem exists_score_of_decide {x : ConfidenceInputs} {outcome : DecisionOutcome}
    (h : p.decide sigmoid x = .ok outcome) : ∃ s, p.score sigmoid x = .ok s ∧
      outcome = if p.minConfidence ≤ s then .accept else p.abstainAction := by
  obtain ⟨s, hs, h⟩ := except_bind_eq_ok.mp h
  exact ⟨s, hs, (Except.ok.inj h).symm⟩

/-- Where weaker evidence is accepted, the stronger is. -/
theorem accept_of_weaker {x y : ConfidenceInputs} {outcome : DecisionOutcome} (h : Weaker x y)
    (hx : p.decide sigmoid x = .ok .accept) (hy : p.decide sigmoid y = .ok outcome) :
    outcome = .accept := by
  obtain ⟨s, hs, hx⟩ := p.exists_score_of_decide sigmoid hx
  obtain ⟨s', hs', rfl⟩ := p.exists_score_of_decide sigmoid hy
  have hle := p.score_le_of_weaker sigmoid h hs hs'
  by_cases hmin : p.minConfidence ≤ s
  · exact if_pos (hmin.trans hle)
  · -- it is accepted as any evidence is
    rw [if_neg hmin] at hx
    rw [← hx]
    exact ite_self _

end DecisionPolicy

/-! ### Without a signal -/

inductive Signal where
  | prob
  | margin
  | zScore
  | entropy
  | llmSelfScore
  deriving DecidableEq

def ConfidenceInputs.without (x : ConfidenceInputs) : Signal → ConfidenceInputs
  | .prob => { x with prob := none }
  | .margin => { x with margin := none }
  | .zScore => { x with zScore := none }
  | .entropy => { x with entropy := none }
  | .llmSelfScore => { x with llmSelfScore := none }

theorem isFinite_none : IsFinite none := fun _ h => by cases h

theorem ConfidenceInputs.Finite.without {x : ConfidenceInputs} (h : x.Finite) (signal : Signal) :
    (x.without signal).Finite := by
  cases signal with
  | prob => exact { h with prob := isFinite_none }
  | margin => exact { h with margin := isFinite_none }
  | zScore => exact { h with zScore := isFinite_none }
  | entropy => exact { h with entropy := isFinite_none }
  | llmSelfScore => exact { h with llmSelfScore := isFinite_none }

theorem Weaker.refl {x : ConfidenceInputs} (h : x.Finite) : Weaker x x :=
  ⟨.refl h.prob, .refl h.margin, .refl h.zScore, .refl h.entropy, .refl h.llmSelfScore⟩

/-- Evidence without one of its signals is weaker. -/
theorem weaker_without {x : ConfidenceInputs} (h : x.Finite) {signal : Signal}
    (hsignal : signal ≠ .entropy) : Weaker (x.without signal) x := by
  cases signal with
  | prob => exact { Weaker.refl h with prob := .missing _ }
  | margin => exact { Weaker.refl h with margin := .missing _ }
  | zScore => exact { Weaker.refl h with zScore := .missing _ }
  | entropy => exact absurd rfl hsignal
  | llmSelfScore => exact { Weaker.refl h with llmSelfScore := .missing _ }

/-- Without its entropy it is stronger. -/
theorem weaker_of_without_entropy {x : ConfidenceInputs} (h : x.Finite) :
    Weaker x (x.without .entropy) := { Weaker.refl h with entropy := .missing _ }

/-! ### The default weights -/

theorem usual_range : (0 : ℚ) ≤ 3 / 4 ∧ (3 / 4 : ℚ) ≤ 1 := by norm_num

theorem usual_wProb : (0 : ℚ) ≤ 11 / 20 := by norm_num

theorem usual_wMargin : (0 : ℚ) ≤ 1 / 5 := by norm_num

theorem usual_wZ : (0 : ℚ) ≤ 3 / 20 := by norm_num

theorem usual_tenth : (0 : ℚ) ≤ 1 / 10 := by norm_num

theorem usual_weights : (0 : ℚ) < 11 / 20 + 1 / 5 + 3 / 20 + 1 / 10 + 1 / 10 := by norm_num

/-- The policy with the default weights. -/
def usualPolicy (action : DecisionOutcome) : DecisionPolicy where
  minConfidence := 3 / 4
  abstainAction := action
  wProb := 11 / 20
  wMargin := 1 / 5
  wZ := 3 / 20
  wEntropy := 1 / 10
  wLlm := 1 / 10
  minConfidence_range := usual_range
  wProb_nonneg := usual_wProb
  wMargin_nonneg := usual_wMargin
  wZ_nonneg := usual_wZ
  wEntropy_nonneg := usual_tenth
  wLlm_nonneg := usual_tenth
  weights_pos := usual_weights

theorem create_usual (action : DecisionOutcome) :
    DecisionPolicy.create { abstainAction := .inl action } = .ok (usualPolicy action) := by
  refine (dif_pos usual_range).trans ?_
  simp only [checkWeight_finite _ usual_wProb, checkWeight_finite _ usual_wMargin,
    checkWeight_finite _ usual_wZ, checkWeight_finite _ usual_tenth]
  exact dif_pos usual_weights

theorem half_nonneg : (0 : ℚ) ≤ 1 / 2 := by norm_num

theorem half_le_one : (1 / 2 : ℚ) ≤ 1 := by norm_num

def flatSigmoid : Sigmoid :=
  ⟨fun _ => 1 / 2, monotone_const, fun _ => half_nonneg, fun _ => half_le_one⟩

/-- Good evidence with a high entropy. -/
def mixedEvidence : ConfidenceInputs :=
  ⟨some (.finite 1), some (.finite 1), none, some (.finite (5 / 2)), some (.finite 1)⟩

theorem finite_mixedEvidence : mixedEvidence.Finite := by
  have hone : ∀ q, IsFinite (some (.finite q)) := by
    rintro q _ ⟨⟩
    exact ⟨q, rfl⟩
  exact ⟨hone 1, hone 1, isFinite_none, hone _, hone 1⟩

theorem clamp01_one : clamp01 1 = 1 := by
  unfold clamp01
  norm_num

theorem mixedEvidence_score : (usualPolicy .humanReview).score flatSigmoid mixedEvidence =
    .ok (15 / 22) := by
  rw [DecisionPolicy.score_eq _ _ finite_mixedEvidence]
  simp only [DecisionPolicy.evidence, DecisionPolicy.weightDenominator, contribution, mixedEvidence,
    usualPolicy, clamp01_one]
  unfold clamp01
  norm_num

theorem mixedEvidence_without_entropy :
    (usualPolicy .humanReview).score flatSigmoid (mixedEvidence.without .entropy) =
      .ok (17 / 22) := by
  rw [DecisionPolicy.score_eq _ _ (finite_mixedEvidence.without .entropy)]
  simp only [DecisionPolicy.evidence, DecisionPolicy.weightDenominator, contribution, mixedEvidence,
    ConfidenceInputs.without, usualPolicy, clamp01_one]
  unfold clamp01
  norm_num

/-! ### The value of the score -/

/-- The score is in the unit interval, follows the signals and goes against the
entropy; a policy accepts from its minimum on, and below it does as it was
told. -/
theorem DecisionPolicy.score_bounded_monotone (p : DecisionPolicy) (sigmoid : Sigmoid)
    (x : ConfidenceInputs) (hx : x.Finite) :
    ∃ s, p.score sigmoid x = .ok s ∧ 0 ≤ s ∧ s ≤ 1 ∧
      p.decide sigmoid x = .ok (if p.minConfidence ≤ s then .accept else p.abstainAction) ∧
      (p.abstainAction ≠ .accept → (p.decide sigmoid x = .ok .accept ↔ p.minConfidence ≤ s)) ∧
      ∀ y, y.Finite → Weaker x y → (∃ s', p.score sigmoid y = .ok s' ∧ s ≤ s') ∧
        (p.decide sigmoid x = .ok .accept → p.decide sigmoid y = .ok .accept) := by
  have hscore := p.score_eq sigmoid hx
  have hdecide := p.decide_of_score sigmoid hscore
  refine ⟨_, hscore, clamp01_nonneg _, clamp01_le_one _, hdecide, fun hother => ?_,
    fun y hy hweaker => ?_⟩
  · rw [hdecide]
    constructor
    · intro haccept
      by_contra hlow
      rw [if_neg hlow] at haccept
      exact hother (Except.ok.inj haccept)
    · exact fun hmin => congrArg Except.ok (if_pos hmin)
  · have hscore' := p.score_eq sigmoid hy
    refine ⟨⟨_, hscore', p.score_le_of_weaker sigmoid hweaker hscore hscore'⟩, fun haccept => ?_⟩
    have hdecide' := p.decide_of_score sigmoid hscore'
    rw [hdecide']
    exact congrArg Except.ok (p.accept_of_weaker sigmoid hweaker haccept hdecide')

/-- A policy that accepts below its minimum too. -/
theorem accepts_below : ¬ ∀ (p : DecisionPolicy) (sigmoid : Sigmoid) (x : ConfidenceInputs) (s : ℚ),
    p.score sigmoid x = .ok s → (p.decide sigmoid x = .ok .accept ↔ p.minConfidence ≤ s) := by
  intro h
  have hfinite : (⟨none, none, none, none, none⟩ : ConfidenceInputs).Finite :=
    ⟨isFinite_none, isFinite_none, isFinite_none, isFinite_none, isFinite_none⟩
  have hscore : (usualPolicy .accept).score flatSigmoid ⟨none, none, none, none, none⟩ = .ok 0 := by
    rw [DecisionPolicy.score_eq _ _ hfinite]
    simp only [DecisionPolicy.evidence, contribution, usualPolicy]
    unfold clamp01
    norm_num
  have hdecide := (usualPolicy .accept).decide_of_score flatSigmoid hscore
  have hmin := (h _ _ _ _ hscore).mp (hdecide.trans (congrArg Except.ok (ite_self _)))
  exact absurd hmin (by norm_num [usualPolicy])

theorem mixedEvidence_bounded : ∃ s,
    (usualPolicy .humanReview).score flatSigmoid mixedEvidence = .ok s ∧ 0 ≤ s ∧ s ≤ 1 := by
  obtain ⟨s, hs, hnonneg, hle, -⟩ :=
    (usualPolicy .humanReview).score_bounded_monotone flatSigmoid mixedEvidence finite_mixedEvidence
  exact ⟨s, hs, hnonneg, hle⟩

/-! ### Missing evidence -/

/-- A missing signal does not raise the score, nor let evidence be accepted; a
missing entropy does not lower it. -/
theorem DecisionPolicy.removal_raises_no_score (p : DecisionPolicy) (sigmoid : Sigmoid)
    (x : ConfidenceInputs) :
    (∀ signal, signal ≠ .entropy → ∀ s, p.score sigmoid x = .ok s →
      ∃ s', p.score sigmoid (x.without signal) = .ok s' ∧ s' ≤ s) ∧
    (∀ signal, signal ≠ .entropy → ∀ outcome, p.decide sigmoid x = .ok outcome →
      p.decide sigmoid (x.without signal) = .ok .accept → outcome = .accept) ∧
    (∀ s, p.score sigmoid x = .ok s →
      ∃ s', p.score sigmoid (x.without .entropy) = .ok s' ∧ s ≤ s') ∧
    (p.decide sigmoid x = .ok .accept → p.decide sigmoid (x.without .entropy) = .ok .accept) := by
  have hwithout : ∀ signal s, p.score sigmoid x = .ok s →
      ∃ s', p.score sigmoid (x.without signal) = .ok s' := fun signal s hs =>
    ⟨_, p.score_eq sigmoid ((p.finite_of_score sigmoid hs).without signal)⟩
  refine ⟨fun signal hsignal s hs => ?_, fun signal hsignal outcome hx haccept => ?_,
    fun s hs => ?_, fun haccept => ?_⟩
  · obtain ⟨s', hs'⟩ := hwithout signal s hs
    exact ⟨s', hs', p.score_le_of_weaker sigmoid
      (weaker_without (p.finite_of_score sigmoid hs) hsignal) hs' hs⟩
  · obtain ⟨s, hs, -⟩ := p.exists_score_of_decide sigmoid hx
    exact p.accept_of_weaker sigmoid (weaker_without (p.finite_of_score sigmoid hs) hsignal)
      haccept hx
  · obtain ⟨s', hs'⟩ := hwithout .entropy s hs
    exact ⟨s', hs', p.score_le_of_weaker sigmoid
      (weaker_of_without_entropy (p.finite_of_score sigmoid hs)) hs hs'⟩
  · obtain ⟨s, hs, -⟩ := p.exists_score_of_decide sigmoid haccept
    obtain ⟨s', hs'⟩ := hwithout .entropy s hs
    have hdecide := p.decide_of_score sigmoid hs'
    rw [hdecide]
    exact congrArg Except.ok (p.accept_of_weaker sigmoid
      (weaker_of_without_entropy (p.finite_of_score sigmoid hs)) haccept hdecide)

/-- Without its entropy the evidence is accepted. -/
theorem removal_of_entropy : ¬ ∀ (p : DecisionPolicy) (sigmoid : Sigmoid) (x : ConfidenceInputs)
    (signal : Signal) (s s' : ℚ), p.score sigmoid x = .ok s →
    p.score sigmoid (x.without signal) = .ok s' → s' ≤ s := by
  intro h
  have hle := h _ _ _ _ _ _ mixedEvidence_score mixedEvidence_without_entropy
  norm_num at hle

theorem mixedEvidence_without_llm : ∃ s',
    (usualPolicy .humanReview).score flatSigmoid (mixedEvidence.without .llmSelfScore) = .ok s' ∧
      s' ≤ 15 / 22 :=
  ((usualPolicy .humanReview).removal_raises_no_score flatSigmoid mixedEvidence).1 .llmSelfScore
    (by decide) _ mixedEvidence_score

end Control

end AgentRoi
