/-
`agent_roi.control.guardrails`: the limits of an execution.

* `Guardrails` — the settings the constructor accepts;
* `validateToolAllowed`, `validateCostAmount`, `validateLimits` — the checks;
* `validateLimits_eq_ok` — what passes the last one;
* `fixedText` — a cost as the messages show it.

Costs are exact rational numbers.
-/
import AgentRoi.Binary64
import AgentRoi.PolicyLoader

namespace AgentRoi

/-- `f"{value:.4f}"`. -/
def fixedText (q : ℚ) : Str :=
  let units := (halfEven (|q| * 10000)).toNat
  let fraction := natDigits (units % 10000)
  (if q < 0 then [45] else []) ++ natDigits (units / 10000) ++ [46] ++
    List.replicate (4 - fraction.length) 48 ++ fraction

example : fixedText (1 / 8) = lit "0.1250" := by decide +kernel

/-- What `float(amount)` makes of a cost; one that is too large for a float
overflows. -/
inductive CostAmount where
  | number (q : ℚ)
  | notFinite
  | notNumeric
  | tooLarge

/-- `validate_cost_amount`. -/
def validateCostAmount : CostAmount → Except PyExc ℚ
  | .number q =>
    if q < 0 then .error (.guardrailViolation (lit "Cost must be finite and nonnegative"))
    else .ok q
  | .notFinite => .error (.guardrailViolation (lit "Cost must be finite and nonnegative"))
  | .notNumeric => .error (.guardrailViolation (lit "Cost must be numeric"))
  | .tooLarge => .error .overflowError

theorem validateCostAmount_number {q p : ℚ} :
    validateCostAmount (.number q) = .ok p ↔ 0 ≤ q ∧ q = p := by
  rw [validateCostAmount]
  by_cases hneg : q < 0
  · simp [hneg]
  · rw [if_neg hneg, Except.ok.injEq]
    exact (and_iff_right (not_lt.mp hneg)).symm

theorem validateCostAmount_nonneg {amount : CostAmount} {q : ℚ}
    (h : validateCostAmount amount = .ok q) : 0 ≤ q := by
  cases amount with
  | number p =>
    obtain ⟨hp, rfl⟩ := validateCostAmount_number.mp h
    exact hp
  | notFinite | notNumeric | tooLarge => cases h

/-- `Guardrails`, with the bounds that `__post_init__` checks. -/
structure Guardrails extends GuardrailSettings ℚ where
  maxSteps_pos : 1 ≤ maxSteps
  maxToolCalls_nonneg : 0 ≤ maxToolCalls
  maxCostUsd_nonneg : 0 ≤ maxCostUsd

namespace Guardrails

variable (guardrails : Guardrails)

def validateToolAllowed (toolName : Str) : Except PyExc Unit :=
  if isBlank toolName then
    .error (.guardrailViolation (lit "Tool name must be a non-empty string"))
  else match guardrails.allowedTools with
    | none => .ok ()
    | some allowed =>
      if toolName ∈ allowed then .ok ()
      else .error (.guardrailViolation (lit "Tool '" ++ toolName ++ lit "' is not allowlisted."))

def validateLimits (steps toolCalls : Int) (costUsd : ℚ) : Except PyExc Unit :=
  if steps < 0 ∨ toolCalls < 0 then
    .error (.guardrailViolation (lit "Execution counters cannot be negative"))
  else do
    let cost ← validateCostAmount (.number costUsd)
    if steps > guardrails.maxSteps then
      .error (.guardrailViolation (lit "Max steps exceeded: " ++ intText steps ++ lit " > " ++
        intText guardrails.maxSteps))
    else if toolCalls > guardrails.maxToolCalls then
      .error (.guardrailViolation (lit "Max tool calls exceeded: " ++ intText toolCalls ++
        lit " > " ++ intText guardrails.maxToolCalls))
    else if cost > guardrails.maxCostUsd then
      .error (.guardrailViolation (lit "Max cost exceeded: " ++ fixedText cost ++ lit " > " ++
        fixedText guardrails.maxCostUsd))
    else .ok ()

variable {guardrails}

theorem validateToolAllowed_eq_ok {toolName : Str} :
    guardrails.validateToolAllowed toolName = .ok () ↔ isBlank toolName = false ∧
      ∀ allowed, guardrails.allowedTools = some allowed → toolName ∈ allowed := by
  unfold validateToolAllowed
  cases hblank : isBlank toolName with
  | true => simp
  | false =>
    cases guardrails.allowedTools with
    | none => simp
    | some allowed =>
      by_cases hmem : toolName ∈ allowed
      · simp [hmem]
      · simp [hmem]

/-- The limits a state keeps that passes. -/
structure Within (guardrails : Guardrails) (steps toolCalls : Int) (costUsd : ℚ) : Prop where
  steps : steps ≤ guardrails.maxSteps
  toolCalls : toolCalls ≤ guardrails.maxToolCalls
  costUsd : costUsd ≤ guardrails.maxCostUsd

theorem validateLimits_eq_ok {steps toolCalls : Int} {costUsd : ℚ} :
    guardrails.validateLimits steps toolCalls costUsd = .ok () ↔
      0 ≤ steps ∧ 0 ≤ toolCalls ∧ 0 ≤ costUsd ∧ guardrails.Within steps toolCalls costUsd := by
  unfold validateLimits
  by_cases hcounters : steps < 0 ∨ toolCalls < 0
  · rw [if_pos hcounters]
    refine ⟨fun h => (nomatch h), fun ⟨hsteps, hcalls, _⟩ => ?_⟩
    omega
  · rw [if_neg hcounters, except_bind_eq_ok]
    obtain ⟨hsteps, hcalls⟩ := not_or.mp hcounters
    simp only [validateCostAmount_number]
    constructor
    · rintro ⟨cost, ⟨hcost, rfl⟩, h⟩
      split_ifs at h with h₁ h₂ h₃
      exact ⟨not_lt.mp hsteps, not_lt.mp hcalls, hcost,
        ⟨not_lt.mp h₁, not_lt.mp h₂, not_lt.mp h₃⟩⟩
    · rintro ⟨-, -, hcost, h⟩
      refine ⟨costUsd, ⟨hcost, rfl⟩, ?_⟩
      rw [if_neg (not_lt.mpr h.steps), if_neg (not_lt.mpr h.toolCalls),
        if_neg (not_lt.mpr h.costUsd)]

end Guardrails

end AgentRoi
