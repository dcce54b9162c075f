/-
`FinOpsAnalyzer` of `agent_roi.finops.analyzer`.

The rationale and the evidence of a finding are left out, and what the business
context only adds to the summary.

* `Resource`, `Finding`, `Recommendation`, `Analysis` — the records;
* `approvalStatus` — `approval_status`;
* `checkResource`, `scan` — the loop over the resources, of which each has one
  finding at most;
* `analyze` — the whole;
* `analyze_eq_ok` — what is recommended, and for which resource.
-/
import AgentRoi.AnalyzerInput

namespace AgentRoi

/-- `value == text`. -/
def Json.isText {F : Type} (text : Str) : Json F → Bool
  | .str s => s = text
  | _ => false

/-- Lists and dictionaries cannot be put in a set. -/
def Json.isHashable {F : Type} : Json F → Bool
  | .arr _ | .obj _ => false
  | _ => true

namespace FinOpsAnalyzer

variable {F : Type}

structure Finding (F : Type) where
  findingType : Str
  action : Str
  savings : FloatVal ℚ
  risk : Str
  resource : List (Str × Json F)

/-- An entry of `recommendations`, with the finding it is made from. -/
structure Recommendation (F : Type) where
  finding : Finding F
  resourceId : Json F
  resourceType : Json F
  environment : Json F
  owner : Json F
  approvalStatus : Str

structure Analysis (F : Type) where
  numResourcesScanned : ℕ
  numFindings : ℕ
  numRecommendations : ℕ
  estTotalMonthlySavings : ℚ
  recommendations : List (Recommendation F)

/-- What the loop reads of a resource first. -/
structure Resource (F : Type) where
  record : List (Str × Json F)
  cost : ℚ
  utilization : ℚ
  idleDays : ℤ

/-- `resources[index]`, in a message. -/
def place (index : ℕ) : Str := lit "resources[" ++ natDigits index ++ lit "]"

/-- `resource.get("type") == text`. -/
def Resource.isType (resource : Resource F) (text : Str) : Bool :=
  ((dictGet (lit "type") resource.record).getD .null).isText text

section

variable [PyAmounts F]

/-! ### Approvals -/

/-- `str(resource.get("environment") or "")`. -/
def environmentText (resource : List (Str × Json F)) : Str :=
  let environment := (dictGet (lit "environment") resource).getD .null
  if environment.truthy then environment.pyStr else []

/-- `set(self.routing.get("production_requires_approval_for_risk") or [])`. -/
def productionRisks (a : AnalyzerSettings F) : Except PyExc (List (Json F)) := do
  let risks ← a.routing.getOr (lit "production_requires_approval_for_risk") .null
  if risks.truthy then
    match iterate risks with
    | none => .error notIterable
    | some items =>
      if items.all Json.isHashable then return items
      else .error (.typeError (lit "unhashable type"))
  else return []

def approvalStatus (a : AnalyzerSettings F) (resource : List (Str × Json F)) (risk : Str) :
    Except PyExc Str := do
  let risks ← productionRisks a
  return if lowerAscii (environmentText resource) = lit "production" ∧
      risks.any (Json.isText (lowerAscii risk)) = true then lit "owner_approval_required"
    else lit "auto_approve_candidate"

/-! ### One resource -/

def readResource (index : ℕ) : Json F → Except PyExc (Resource F)
  | .obj record => do
    let cost ← nonnegativeField record (lit "monthly_cost_usd")
      (place index ++ lit ".monthly_cost_usd")
    let utilization ← nonnegativeField record (lit "utilization_pct")
      (place index ++ lit ".utilization_pct")
    let daysIdle ← nonnegativeField record (lit "days_idle") (place index ++ lit ".days_idle")
    return ⟨record, cost, utilization, ⌊daysIdle⌋⟩
  | _ => .error (.typeError (place index ++ lit " must be a mapping"))

/-- A finding whose savings are a part of the cost. -/
def savingsFinding (a : AnalyzerSettings F) (resource : Resource F) (findingType action : Str)
    (factor : ℚ) (risk : Str) : Except PyExc (Option (Finding F)) := do
  let multiplier ← a.multiplier action factor
  return some {
    findingType := findingType
    action := action
    savings := roundedTimes resource.cost multiplier
    risk := risk
    resource := resource.record }

/-- A resource that is used less than it costs; the section of the thresholds
has the name of the finding. -/
def underutilized (a : AnalyzerSettings F) (resource : Resource F) (findingType : Str)
    (utilizationPct monthlyCost factor : ℚ) (risk : Str) :
    Except PyExc (Option (Finding F)) := do
  let threshold ← a.thresholds.getOr findingType (.obj [])
  let utilizationPct ← AnalyzerSettings.number threshold (lit "utilization_pct_lt") utilizationPct
  if utilizationPct.above resource.utilization = true then do
    let monthlyCost ← AnalyzerSettings.number threshold (lit "monthly_cost_usd_gt") monthlyCost
    if monthlyCost.below resource.cost = true then
      savingsFinding a resource findingType (lit "rightsizing_recommendation") factor risk
    else return none
  else return none

def underutilizedCompute (a : AnalyzerSettings F) (resource : Resource F) :
    Except PyExc (Option (Finding F)) :=
  let environment := ((dictGet (lit "environment") resource.record).getD (.str [])).pyStr
  underutilized a resource (lit "underutilized_compute") 10 200 (7 / 20)
    (if lowerAscii environment = lit "production" then lit "med" else lit "low")

def underutilizedDatabase (a : AnalyzerSettings F) (resource : Resource F) :
    Except PyExc (Option (Finding F)) :=
  underutilized a resource (lit "underutilized_database") 5 300 (3 / 10) (lit "high")

/-- `int(threshold.get("idle_days_gte", 14))`. -/
def idleDaysThreshold (threshold : Json F) : Except PyExc ℤ := do
  let days ← threshold.getOr (lit "idle_days_gte") (.int 14)
  days.pyInt.elim (.error (.valueError [])) .ok

def idleCompute (a : AnalyzerSettings F) (resource : Resource F) :
    Except PyExc (Option (Finding F)) := do
  let threshold ← a.thresholds.getOr (lit "idle_compute") (.obj [])
  let days ← idleDaysThreshold threshold
  if days ≤ resource.idleDays then do
    let monthlyCost ← AnalyzerSettings.number threshold (lit "monthly_cost_usd_gt") 50
    if monthlyCost.below resource.cost = true then
      savingsFinding a resource (lit "idle_compute") (lit "scheduled_stop") (13 / 20) (lit "low")
    else return none
  else return none

def orphanedStorage (a : AnalyzerSettings F) (resource : Resource F) :
    Except PyExc (Option (Finding F)) :=
  let attached := ((dictGet (lit "attached") resource.record).getD (.bool true)).truthy
  if attached = false ∧ 7 ≤ resource.idleDays ∧ 10 < resource.cost then
    savingsFinding a resource (lit "orphaned_storage") (lit "snapshot_then_delete")
      (9 / 10) (lit "low")
  else return none

def largeBucket (a : AnalyzerSettings F) (index : ℕ) (resource : Resource F) :
    Except PyExc (Option (Finding F)) := do
  let threshold ← a.thresholds.getOr (lit "large_bucket") (.obj [])
  let storage ← nonnegativeField resource.record (lit "storage_gb")
    (place index ++ lit ".storage_gb")
  let storageGb ← AnalyzerSettings.number threshold (lit "storage_gb_gt") 5000
  if storageGb.below storage = true then
    savingsFinding a resource (lit "storage_tiering_opportunity")
      (lit "lifecycle_policy_to_infrequent_access") (1 / 5) (lit "low")
  else return none

/-- An instance is underutilized or, if it is not, idle. -/
def checkResource (a : AnalyzerSettings F) (index : ℕ) (value : Json F) :
    Except PyExc (Option (Finding F)) := do
  let resource ← readResource index value
  if resource.isType (lit "ec2_instance") = true then do
    match ← underutilizedCompute a resource with
    | some finding => return some finding
    | none => idleCompute a resource
  else if resource.isType (lit "ebs_volume") = true then orphanedStorage a resource
  else if resource.isType (lit "rds_instance") = true then underutilizedDatabase a resource
  else if resource.isType (lit "s3_bucket") = true then largeBucket a index resource
  else return none

/-! ### The analysis -/

/-- The loop over the resources. -/
def scan (a : AnalyzerSettings F) : ℕ → List (Json F) → Except PyExc (List (Finding F))
  | _, [] => return []
  | index, value :: values => do
    let found ← checkResource a index value
    let rest ← scan a (index + 1) values
    return found.toList ++ rest

def recommend (finding : Finding F) (status : Str) : Recommendation F where
  finding := finding
  resourceId := (dictGet (lit "id") finding.resource).getD .null
  resourceType := (dictGet (lit "type") finding.resource).getD .null
  environment := (dictGet (lit "environment") finding.resource).getD .null
  owner := (dictGet (lit "owner") finding.resource).getD (.str (lit "unknown"))
  approvalStatus := status

def recommendations (a : AnalyzerSettings F) :
    List (Finding F) → Except PyExc (List (Recommendation F))
  | [] => return []
  | finding :: findings => do
    let status ← approvalStatus a finding.resource finding.risk
    let rest ← recommendations a findings
    return recommend finding status :: rest

def totalSavings : List (Recommendation F) → Except PyExc ℚ
  | [] => return 0
  | r :: rest => do
    let savings ← checkNonnegative r.finding.savings (lit "recommendation.est_monthly_savings_usd")
    let total ← totalSavings rest
    return savings + total

def analyze (a : AnalyzerSettings F) : Json F → Except PyExc (Analysis F)
  | .obj payload =>
    match (dictGet (lit "resources") payload).getD (.arr []) with
    | .arr resources => do
      let findings ← scan a 0 resources
      let recommended ← recommendations a findings
      let total ← totalSavings recommended
      return {
        numResourcesScanned := resources.length
        numFindings := findings.length
        numRecommendations := recommended.length
        estTotalMonthlySavings := cents total
        recommendations := recommended }
    | _ => .error (.typeError (lit "payload.resources must be a list"))
  | _ => .error (.typeError (lit "payload must be a mapping"))

/-! ### What is found -/

variable {a : AnalyzerSettings F} {resource : Resource F} {finding : Finding F}

/-- A risk as the policy may name it, in small letters. -/
def IsRiskName (risk : Str) : Prop := risk = lit "low" ∨ risk = lit "med" ∨ risk = lit "high"

theorem savingsFinding_risk {findingType action risk : Str} {factor : ℚ}
    (h : savingsFinding a resource findingType action factor risk = .ok (some finding)) :
    finding.risk = risk := by
  obtain ⟨multiplier, -, h⟩ := except_bind_eq_ok.mp h
  cases h
  rfl

theorem underutilized_risk {findingType risk : Str} {utilizationPct monthlyCost factor : ℚ}
    (h : underutilized a resource findingType utilizationPct monthlyCost factor risk =
      .ok (some finding)) : finding.risk = risk := by
  obtain ⟨threshold, -, h⟩ := except_bind_eq_ok.mp h
  obtain ⟨pct, -, h⟩ := except_bind_eq_ok.mp h
  split at h
  · obtain ⟨cost, -, h⟩ := except_bind_eq_ok.mp h
    split at h
    · exact savingsFinding_risk h
    · cases h
  · cases h

theorem idleCompute_risk (h : idleCompute a resource = .ok (some finding)) :
    finding.risk = lit "low" := by
  obtain ⟨threshold, -, h⟩ := except_bind_eq_ok.mp h
  obtain ⟨days, -, h⟩ := except_bind_eq_ok.mp h
  split at h
  · obtain ⟨cost, -, h⟩ := except_bind_eq_ok.mp h
    split at h
    · exact savingsFinding_risk h
    · cases h
  · cases h

theorem orphanedStorage_risk (h : orphanedStorage a resource = .ok (some finding)) :
    finding.risk = lit "low" := by
  simp only [orphanedStorage] at h
  split at h
  · exact savingsFinding_risk h
  · cases h

theorem largeBucket_risk {index : ℕ} (h : largeBucket a index resource = .ok (some finding)) :
    finding.risk = lit "low" := by
  obtain ⟨threshold, -, h⟩ := except_bind_eq_ok.mp h
  obtain ⟨storage, -, h⟩ := except_bind_eq_ok.mp h
  obtain ⟨storageGb, -, h⟩ := except_bind_eq_ok.mp h
  split at h
  · exact savingsFinding_risk h
  · cases h

theorem checkResource_risk {index : ℕ} {value : Json F}
    (h : checkResource a index value = .ok (some finding)) : IsRiskName finding.risk := by
  obtain ⟨resource, -, h⟩ := except_bind_eq_ok.mp h
  split at h
  · obtain ⟨found, hfound, h⟩ := except_bind_eq_ok.mp h
    cases found with
    | some first =>
      cases h
      have hrisk := underutilized_risk hfound
      split at hrisk
      · exact .inr (.inl hrisk)
      · exact .inl hrisk
    | none => exact .inl (idleCompute_risk h)
  · split at h
    · exact .inl (orphanedStorage_risk h)
    · split at h
      · exact .inr (.inr (underutilized_risk h))
      · split at h
        · exact .inl (largeBucket_risk h)
        · cases h

/-- The findings of the loop are those of the resources. -/
theorem mem_scan {index : ℕ} {values : List (Json F)} {findings : List (Finding F)}
    (h : scan a index values = .ok findings) : finding ∈ findings ↔
      ∃ j value, values[j]? = some value ∧
        checkResource a (index + j) value = .ok (some finding) := by
  induction values generalizing index findings with
  | nil =>
    cases h
    simp
  | cons value values ih =>
    obtain ⟨found, hfound, h⟩ := except_bind_eq_ok.mp h
    obtain ⟨rest, hrest, h⟩ := except_bind_eq_ok.mp h
    cases h
    rw [List.mem_append, ih hrest, Option.mem_toList]
    constructor
    · rintro (rfl | ⟨j, later, hget, hlater⟩)
      · exact ⟨0, value, rfl, hfound⟩
      · refine ⟨j + 1, later, hget, ?_⟩
        rwa [add_assoc, add_comm 1 j] at hlater
    · rintro ⟨j, later, hget, hlater⟩
      cases j with
      | zero =>
        cases hget
        rw [add_zero, hfound] at hlater
        exact .inl (Except.ok.inj hlater)
      | succ j =>
        refine .inr ⟨j, later, hget, ?_⟩
        rwa [add_assoc, add_comm 1 j]

/-- Each finding is recommended, with the approval it needs. -/
theorem recommendations_eq_ok {findings : List (Finding F)} {recommended : List (Recommendation F)}
    (h : recommendations a findings = .ok recommended) :
    recommended.map Recommendation.finding = findings ∧ ∀ r ∈ recommended,
      approvalStatus a r.finding.resource r.finding.risk = .ok r.approvalStatus := by
  induction findings generalizing recommended with
  | nil =>
    cases h
    exact ⟨rfl, fun _ h => absurd h List.not_mem_nil⟩
  | cons finding findings ih =>
    obtain ⟨status, hstatus, h⟩ := except_bind_eq_ok.mp h
    obtain ⟨rest, hrest, h⟩ := except_bind_eq_ok.mp h
    cases h
    obtain ⟨hfindings, hall⟩ := ih hrest
    exact ⟨congrArg (finding :: ·) hfindings, List.forall_mem_cons.mpr ⟨hstatus, hall⟩⟩

def resourcesOf (payload : List (Str × Json F)) : List (Json F) :=
  match (dictGet (lit "resources") payload).getD (.arr []) with
  | .arr resources => resources
  | _ => []

/-- The recommendations are for what is found in the resources, each with the
approval it needs. -/
theorem analyze_eq_ok {payload : List (Str × Json F)} {analysis : Analysis F}
    (h : analyze a (.obj payload) = .ok analysis) :
    (∀ finding, finding ∈ analysis.recommendations.map Recommendation.finding ↔
      ∃ i value, (resourcesOf payload)[i]? = some value ∧
        checkResource a i value = .ok (some finding)) ∧
    ∀ r ∈ analysis.recommendations,
      approvalStatus a r.finding.resource r.finding.risk = .ok r.approvalStatus := by
  simp only [analyze] at h
  split at h
  · next resources hresources =>
    obtain ⟨findings, hfindings, h⟩ := except_bind_eq_ok.mp h
    obtain ⟨recommended, hrecommended, h⟩ := except_bind_eq_ok.mp h
    obtain ⟨total, -, h⟩ := except_bind_eq_ok.mp h
    cases h
    obtain ⟨hmap, hstatus⟩ := recommendations_eq_ok hrecommended
    refine ⟨fun finding => ?_, hstatus⟩
    rw [hmap, mem_scan hfindings, resourcesOf, hresources]
    simp only [zero_add]
  · cases h

end

end FinOpsAnalyzer

end AgentRoi
