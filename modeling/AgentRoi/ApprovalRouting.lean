/-
Which recommendations of the analyzers need an approval.

* `Lists` — a risk is in a list of the policy's `approval_routing`, as
  `validate_policy` reads risks;
* `ProcurementHonoured`, `FinOpsHonoured` — every recommendation the policy
  routes to an approval asks for it;
* `ProcurementSpelled`, `FinOpsSpelled` — the policy and the payload spell risks
  and environments as the analyzer does;
* `routing_honoured_iff` — the routing is honoured exactly when they do.
-/
import AgentRoi.FinOpsAnalyzer
import AgentRoi.PolicyForms
import AgentRoi.PolicyLoader
import AgentRoi.RecoverableValue

namespace AgentRoi

namespace ApprovalRouting

variable {F : Type}

/-! ### What the policy lists -/

def general : Str := lit "requires_approval_for_risk"

def production : Str := lit "production_requires_approval_for_risk"

/-- A risk in the spelling of the analyzers; `medium` is `med`. -/
def canonicalRisk (risk : Str) : Str :=
  if lowerAscii (strip risk) = lit "medium" then lit "med" else lowerAscii (strip risk)

def IsProduction (environment : Str) : Prop := lowerAscii (strip environment) = lit "production"

def textOf : Json F → Option Str
  | .str text => some text
  | _ => none

/-- The entries of a list of risks. -/
def listed (data : List (Str × Json F)) (key : Str) : List Str :=
  match dictGet key (requireMapping data (lit "approval_routing") false).1 with
  | some (.arr risks) => risks.filterMap textOf
  | _ => []

def Lists (data : List (Str × Json F)) (key risk : Str) : Prop :=
  ∃ entry ∈ listed data key, canonicalRisk entry = canonicalRisk risk

/-- An entry is the word, but for case and surrounding spaces. -/
def Spells (data : List (Str × Json F)) (key word : Str) : Prop :=
  ∃ entry ∈ listed data key, lowerAscii (strip entry) = word

theorem canonicalRisk_ne_medium (risk : Str) : canonicalRisk risk ≠ lit "medium" := by
  unfold canonicalRisk
  split
  · decide
  · next h => exact h

/-- What is listed is spelled, or spelled `medium`. -/
theorem lists_iff {data : List (Str × Json F)} {key risk : Str} : Lists data key risk ↔
    Spells data key (canonicalRisk risk) ∨
      (canonicalRisk risk = lit "med" ∧ Spells data key (lit "medium")) := by
  have hentry : ∀ entry, canonicalRisk entry = canonicalRisk risk ↔
      lowerAscii (strip entry) = canonicalRisk risk ∨
        (canonicalRisk risk = lit "med" ∧ lowerAscii (strip entry) = lit "medium") := by
    intro entry
    have hne := canonicalRisk_ne_medium risk
    generalize canonicalRisk risk = word at hne ⊢
    unfold canonicalRisk
    split
    · next hmedium =>
      rw [hmedium]
      exact ⟨fun h => .inr ⟨h.symm, rfl⟩, fun h => h.elim (fun h => absurd h.symm hne)
        fun h => h.1.symm⟩
    · next hother =>
      exact ⟨.inl, fun h => h.elim id fun h => absurd h.2 hother⟩
  unfold Lists Spells
  simp only [hentry]
  constructor
  · rintro ⟨entry, hmem, h | ⟨hmed, h⟩⟩
    · exact .inl ⟨entry, hmem, h⟩
    · exact .inr ⟨hmed, entry, hmem, h⟩
  · rintro (⟨entry, hmem, h⟩ | ⟨hmed, entry, hmem, h⟩)
    · exact ⟨entry, hmem, .inl h⟩
    · exact ⟨entry, hmem, .inr ⟨hmed, h⟩⟩

/-! ### An accepted policy -/

section

variable [PyAmounts F] {data ctx : List (Str × Json F)} {a : AnalyzerSettings F}

/-- The settings have the entries of the policy. -/
def Routes (data : List (Str × Json F)) (a : AnalyzerSettings F) : Prop :=
  ∃ members, a.routing = .obj members ∧ ∀ key ∈ [general, production],
    dictGet key members = none ∧ listed data key = [] ∨
      dictGet key members = some (.arr ((listed data key).map .str))

omit [PyAmounts F] in
theorem isRisk_text {risk : Json F} (h : isRisk risk = true) : ∃ text, risk = .str text := by
  cases risk with
  | str text => exact ⟨text, rfl⟩
  | _ => cases h

omit [PyAmounts F] in
theorem map_filterMap_textOf {risks : List (Json F)} (h : ∀ risk ∈ risks, isRisk risk = true) :
    (risks.filterMap textOf).map Json.str = risks := by
  induction risks with
  | nil => rfl
  | cons risk risks ih =>
    obtain ⟨hfirst, hrest⟩ := List.forall_mem_cons.mp h
    obtain ⟨text, rfl⟩ := isRisk_text hfirst
    rw [List.filterMap_cons, textOf, List.map_cons, ih hrest]

omit [PyAmounts F] in
theorem validateRouting_eq_ok {routing : List (Str × Json F)} {key : Str}
    (h : validateRouting routing key = .ok []) : dictGet key routing = none ∨
      ∃ risks, dictGet key routing = some (.arr risks) ∧ ∀ risk ∈ risks, isRisk risk = true := by
  unfold validateRouting at h
  split at h
  · next hnone => exact .inl hnone
  · next risks hrisks =>
    refine .inr ⟨risks, hrisks, fun risk hrisk => ?_⟩
    have hall := List.filter_eq_nil_iff.mp (List.map_eq_nil_iff.mp (Except.ok.inj h)) risk hrisk
    simpa using hall
  · cases h

omit [PyAmounts F] in
theorem requireMapping_eq {key : Str} (h : (requireMapping data key false).2 = []) :
    (dictGet key data).getD (.obj []) = .obj (requireMapping data key false).1 := by
  unfold requireMapping at h ⊢
  split at h
  · next hnone _ => rw [hnone]; rfl
  · next members _ hsome => rw [hsome]; rfl
  · cases h

theorem routes_of_valid (hvalid : validatePolicy (.obj data) = .ok ())
    (ha : AnalyzerSettings.create data ctx = .ok a) : Routes data a := by
  have hchecks := validatePolicy_eq_ok.mp hvalid
  have hmapping : (requireMapping data (lit "approval_routing") false).2 = [] := by
    have hcheck := hchecks (.ok (requireMapping data (lit "approval_routing") false).2)
      (by simp [policyChecks])
    exact Except.ok.inj hcheck
  have hrouting : a.routing =
      .obj (requireMapping data (lit "approval_routing") false).1 := by
    obtain ⟨thresholds, -, ha⟩ := except_bind_eq_ok.mp ha
    obtain ⟨scoring, -, ha⟩ := except_bind_eq_ok.mp ha
    obtain ⟨multipliers, -, ha⟩ := except_bind_eq_ok.mp ha
    obtain ⟨routing, hrouting, ha⟩ := except_bind_eq_ok.mp ha
    cases ha
    rw [← requireMapping_eq hmapping]
    exact (Except.ok.inj hrouting).symm
  refine ⟨_, hrouting, fun key hkey => ?_⟩
  have hlist : validateRouting (requireMapping data (lit "approval_routing") false).1 key =
      .ok [] := by
    refine hchecks _ ?_
    rcases List.mem_cons.mp hkey with rfl | hkey
    · simp [policyChecks, general]
    · cases List.mem_singleton.mp hkey
      simp [policyChecks, production]
  rcases validateRouting_eq_ok hlist with hnone | ⟨risks, hrisks, hall⟩
  · refine .inl ⟨hnone, ?_⟩
    rw [listed, hnone]
  · refine .inr ?_
    rw [listed, hrisks, map_filterMap_textOf hall]

/-! ### Procurement -/

section

open ProcurementLeakageAnalyzer

/-- The lists that apply to an invoice have an entry that is the word. -/
def Applies (data : List (Str × Json F)) (a : AnalyzerSettings F) (record : List (Str × Json F))
    (word : Str) : Prop :=
  Spells data general word ∨ (IsProduction (environmentOf a record) ∧ Spells data production word)

theorem riskSet_eq (h : Routes data a) {key : Str} (hkey : key ∈ [general, production]) :
    riskSet a key = .ok ((listed data key).map fun entry => lowerAscii (strip entry)) := by
  obtain ⟨members, hmembers, hlists⟩ := h
  unfold riskSet
  rw [hmembers]
  rcases hlists key hkey with ⟨hnone, hnil⟩ | hsome
  · rw [hnil]
    refine except_bind_eq_ok.mpr ⟨.arr [], ?_, rfl⟩
    rw [Json.getOr, hnone]
    rfl
  · refine except_bind_eq_ok.mpr ⟨.arr ((listed data key).map .str), ?_, ?_⟩
    · rw [Json.getOr, hsome]
      rfl
    · show Except.ok (((listed data key).map Json.str).map _) = _
      rw [List.map_map]
      rfl

theorem approvalStatus_iff (h : Routes data a) {record : List (Str × Json F)} {risk status : Str}
    (hstatus : approvalStatus a record risk = .ok status) :
    status = lit "procurement_approval_required" ↔ Applies data a record (canonicalRisk risk) := by
  obtain ⟨generalRisks, hgeneral, hstatus⟩ := except_bind_eq_ok.mp hstatus
  obtain ⟨productionRisks, hproduction, hstatus⟩ := except_bind_eq_ok.mp hstatus
  rw [← general, riskSet_eq h List.mem_cons_self] at hgeneral
  rw [← production, riskSet_eq h (List.mem_cons_of_mem _ List.mem_cons_self)] at hproduction
  cases hgeneral
  cases hproduction
  replace hstatus := Except.ok.inj hstatus
  rw [← canonicalRisk] at hstatus
  have hspells (key : Str) : Spells data key (canonicalRisk risk) ↔
      canonicalRisk risk ∈ (listed data key).map fun entry => lowerAscii (strip entry) :=
    List.mem_map.symm
  rw [Applies, hspells, hspells, ← hstatus]
  split
  · next happlies => exact iff_of_true rfl happlies
  · next hnot => exact iff_of_false (by decide) hnot

/-- Every invoice's recommendation whose risk the policy lists asks for an
approval. -/
def ProcurementHonoured (data : List (Str × Json F)) (a : AnalyzerSettings F)
    (analysis : Analysis F) : Prop :=
  ∀ r ∈ analysis.recommendations, (Lists data general r.finding.risk ∨
      Lists data production r.finding.risk ∧ IsProduction (environmentOf a r.finding.record)) →
    r.approvalStatus = lit "procurement_approval_required"

/-- Where a finding of an invoice has the risk `med` and a list that applies
has `medium`, one that applies has `med`. -/
def ProcurementSpelled (data : List (Str × Json F)) (a : AnalyzerSettings F)
    (payload : List (Str × Json F)) : Prop :=
  ∀ i amount findings, checkedAt a payload i = .ok (amount, findings) → ∀ finding ∈ findings,
    finding.risk = lit "med" → Applies data a finding.record (lit "medium") →
      Applies data a finding.record (lit "med")

theorem wanted_iff {record : List (Str × Json F)} {risk : Str} :
    (Lists data general risk ∨ Lists data production risk ∧ IsProduction (environmentOf a record)) ↔
      Applies data a record (canonicalRisk risk) ∨
        (canonicalRisk risk = lit "med" ∧ Applies data a record (lit "medium")) := by
  rw [lists_iff, lists_iff, Applies, Applies]
  generalize Spells data general (canonicalRisk risk) = g, Spells data general (lit "medium") = g',
    Spells data production (canonicalRisk risk) = p, Spells data production (lit "medium") = p',
    IsProduction (environmentOf a record) = e, (canonicalRisk risk = lit "med") = m
  tauto

/-- The findings of the invoices are those that are recommended. -/
theorem exists_recommendation_iff {payload : List (Str × Json F)} {analysis : Analysis F}
    (h : analyze a (.obj payload) = .ok analysis) {finding : Finding F} :
    (∃ i amount findings, checkedAt a payload i = .ok (amount, findings) ∧ finding ∈ findings) ↔
      ∃ r ∈ analysis.recommendations, r.finding = finding := by
  obtain ⟨invoices, c, rows, parts, hparts⟩ := analyze_eq_ok h
  rw [← List.mem_map, hparts.findings_perm.mem_iff, List.mem_flatMap]
  constructor
  · rintro ⟨i, amount, findings, hchecked, hfinding⟩
    cases hrow : rows[i]? with
    | none => exact absurd hchecked ((hparts.beyond hrow).1 _)
    | some row =>
      rw [(hparts.checkedAt_eq hrow).1] at hchecked
      cases hchecked
      exact ⟨row, List.mem_of_getElem? hrow, hfinding⟩
  · rintro ⟨row, hrow, hfinding⟩
    obtain ⟨i, hi⟩ := List.getElem?_of_mem hrow
    exact ⟨i, _, _, (hparts.checkedAt_eq hi).1, hfinding⟩

theorem procurement_iff (hroutes : Routes data a) {payload : List (Str × Json F)}
    {analysis : Analysis F} (h : analyze a (.obj payload) = .ok analysis) :
    ProcurementHonoured data a analysis ↔ ProcurementSpelled data a payload := by
  obtain ⟨invoices, c, rows, parts, hparts⟩ := analyze_eq_ok h
  have hstatus : ∀ r ∈ analysis.recommendations,
      r.approvalStatus = lit "procurement_approval_required" ↔
        Applies data a r.finding.record (canonicalRisk r.finding.risk) := by
    intro r hr
    exact approvalStatus_iff hroutes (hparts.status r hr)
  have hrisk : ∀ r ∈ analysis.recommendations,
      r.finding.risk = lit "med" ∨ r.finding.risk = lit "high" := by
    intro r hr
    have hmem : r.finding ∈ rows.flatMap Row.findings :=
      hparts.findings_perm.mem_iff.mp (List.mem_map_of_mem hr)
    obtain ⟨row, hrow, hfinding⟩ := List.mem_flatMap.mp hmem
    exact (hparts.scanned.findings_of row hrow _ hfinding).risk
  constructor
  · intro hhonoured i amount findings hchecked finding hfinding hmed hmedium
    obtain ⟨r, hr, rfl⟩ :=
      (exists_recommendation_iff h).mp ⟨i, amount, findings, hchecked, hfinding⟩
    have hcanonical : canonicalRisk r.finding.risk = lit "med" := by
      rw [hmed]
      decide
    have hrequired := hhonoured r hr (wanted_iff.mpr (.inr ⟨hcanonical, hmedium⟩))
    have happlies := (hstatus r hr).mp hrequired
    rwa [hcanonical] at happlies
  · intro hspelled r hr hwanted
    refine (hstatus r hr).mpr ?_
    rcases wanted_iff.mp hwanted with happlies | ⟨hcanonical, hmedium⟩
    · exact happlies
    · obtain ⟨i, amount, findings, hchecked, hfinding⟩ :=
        (exists_recommendation_iff h).mpr ⟨r, hr, rfl⟩
      rw [hcanonical]
      refine hspelled i amount findings hchecked _ hfinding ?_ hmedium
      rcases hrisk r hr with hmed | hhigh
      · exact hmed
      · rw [hhigh] at hcanonical
        exact absurd hcanonical (by decide)

end

/-! ### Resources -/

section

open FinOpsAnalyzer

/-- Every recommendation for a resource in production whose risk the policy
lists asks for an approval. -/
def FinOpsHonoured (data : List (Str × Json F)) (analysis : Analysis F) : Prop :=
  ∀ r ∈ analysis.recommendations, Lists data production r.finding.risk →
    IsProduction (environmentText r.finding.resource) →
      r.approvalStatus = lit "owner_approval_required"

/-- A resource in production with a finding whose risk is listed has no spaces
around its environment, and the risk is listed as the analyzer writes it. -/
def FinOpsSpelled (data : List (Str × Json F)) (a : AnalyzerSettings F)
    (payload : List (Str × Json F)) : Prop :=
  ∀ (i : ℕ) (value : Json F) (finding : Finding F), (resourcesOf payload)[i]? = some value →
    checkResource a i value = .ok (some finding) → Lists data production finding.risk →
      IsProduction (environmentText finding.resource) →
        lowerAscii (environmentText finding.resource) = lit "production" ∧
          finding.risk ∈ listed data production

theorem productionRisks_eq (h : Routes data a) :
    productionRisks a = .ok ((listed data production).map .str) := by
  obtain ⟨members, hmembers, hlists⟩ := h
  unfold productionRisks
  rw [hmembers]
  rcases hlists production (List.mem_cons_of_mem _ List.mem_cons_self) with ⟨hnone, hnil⟩ | hsome
  · rw [hnil]
    refine except_bind_eq_ok.mpr ⟨.null, ?_, rfl⟩
    rw [Json.getOr, ← production, hnone]
    rfl
  · refine except_bind_eq_ok.mpr ⟨.arr ((listed data production).map .str), ?_, ?_⟩
    · rw [Json.getOr, ← production, hsome]
      rfl
    · have hhashable : ((listed data production).map Json.str).all
          (Json.isHashable (F := F)) = true := by
        rw [List.all_map, List.all_eq_true]
        exact fun _ _ => rfl
      cases hlisted : listed data production with
      | nil => rfl
      | cons entry entries =>
        rw [hlisted] at hhashable
        exact if_pos hhashable

theorem finOpsStatus_iff (h : Routes data a) {resource : List (Str × Json F)} {risk status : Str}
    (hrisk : IsRiskName risk) (hstatus : approvalStatus a resource risk = .ok status) :
    status = lit "owner_approval_required" ↔
      lowerAscii (environmentText resource) = lit "production" ∧ risk ∈ listed data production := by
  obtain ⟨risks, hrisks, hstatus⟩ := except_bind_eq_ok.mp hstatus
  rw [productionRisks_eq h] at hrisks
  cases hrisks
  have hlower : lowerAscii risk = risk := by
    rcases hrisk with rfl | rfl | rfl <;> decide
  have hany : ((listed data production).map (Json.str (F := F))).any (Json.isText risk) = true ↔
      risk ∈ listed data production := by
    rw [List.any_map, List.any_eq_true]
    constructor
    · rintro ⟨entry, hmem, hentry⟩
      rwa [← of_decide_eq_true hentry]
    · exact fun hmem => ⟨risk, hmem, decide_eq_true rfl⟩
  replace hstatus := Except.ok.inj hstatus
  rw [hlower] at hstatus
  rw [← hstatus, ← hany]
  split
  · next happlies => exact iff_of_true rfl happlies
  · next hnot => exact iff_of_false (by decide) hnot

theorem finOps_iff (hroutes : Routes data a) {payload : List (Str × Json F)}
    {analysis : Analysis F} (h : analyze a (.obj payload) = .ok analysis) :
    FinOpsHonoured data analysis ↔ FinOpsSpelled data a payload := by
  obtain ⟨hfindings, hstatus⟩ := analyze_eq_ok h
  constructor
  · intro hhonoured i value finding hvalue hchecked hlists hproduction
    obtain ⟨r, hr, rfl⟩ := List.mem_map.mp ((hfindings finding).mpr ⟨i, value, hvalue, hchecked⟩)
    exact (finOpsStatus_iff hroutes (checkResource_risk hchecked) (hstatus r hr)).mp
      (hhonoured r hr hlists hproduction)
  · intro hspelled r hr hlists hproduction
    obtain ⟨i, value, hvalue, hchecked⟩ := (hfindings _).mp (List.mem_map_of_mem hr)
    exact (finOpsStatus_iff hroutes (checkResource_risk hchecked) (hstatus r hr)).mpr
      (hspelled i value _ hvalue hchecked hlists hproduction)

end

/-- Under an accepted policy, each analyzer asks for the approvals that the
policy routes its recommendations to, exactly when the policy and the payload
spell the risks and the environments as it does. -/
theorem routing_honoured_iff (hvalid : validatePolicy (.obj data) = .ok ())
    (ha : AnalyzerSettings.create data ctx = .ok a) (payload : List (Str × Json F)) :
    (∀ analysis, ProcurementLeakageAnalyzer.analyze a (.obj payload) = .ok analysis →
      (ProcurementHonoured data a analysis ↔ ProcurementSpelled data a payload)) ∧
    ∀ analysis, FinOpsAnalyzer.analyze a (.obj payload) = .ok analysis →
      (FinOpsHonoured data analysis ↔ FinOpsSpelled data a payload) := by
  have hroutes := routes_of_valid hvalid ha
  exact ⟨fun _ h => procurement_iff hroutes h, fun _ h => finOps_iff hroutes h⟩

end

/-! ### A policy that is not honoured -/

/-- The risks are spelled as the validator accepts them. -/
def spelledPolicy : List (Str × Json InvoiceFloat) :=
  [(lit "guardrails", .obj [(lit "max_steps", .int 1), (lit "max_tool_calls", .int 0),
      (lit "max_cost_usd", .int 1)]),
    (lit "decision_policy", .obj [(lit "min_confidence", .int 1)]),
    (lit "approval_routing", .obj [(general, .arr [.str (lit "medium")]),
      (production, .arr [.str (lit "HIGH")])])]

def spelledSettings : AnalyzerSettings InvoiceFloat :=
  ⟨[], .obj [], .obj [], .obj [(general, .arr [.str (lit "medium")]),
    (production, .arr [.str (lit "HIGH")])]⟩

theorem spelledPolicy_valid : validatePolicy (.obj spelledPolicy) = .ok () := by decide +kernel

theorem spelledSettings_created : AnalyzerSettings.create spelledPolicy [] = .ok spelledSettings :=
  rfl

def database : List (Str × Json InvoiceFloat) :=
  [(lit "type", .str (lit "rds_instance")), (lit "environment", .str (lit "production")),
    (lit "monthly_cost_usd", .float (.finite .uneven))]

/-- An invoice without an id, and a database in production. -/
def spelledPayload : List (Str × Json InvoiceFloat) :=
  [(lit "invoices", .arr [.obj []]), (lit "resources", .arr [.obj database])]

theorem spelled_honoured_iff :
    (∀ analysis, ProcurementLeakageAnalyzer.analyze spelledSettings (.obj spelledPayload) =
      .ok analysis → (ProcurementHonoured spelledPolicy spelledSettings analysis ↔
        ProcurementSpelled spelledPolicy spelledSettings spelledPayload)) ∧
    ∀ analysis, FinOpsAnalyzer.analyze spelledSettings (.obj spelledPayload) = .ok analysis →
      (FinOpsHonoured spelledPolicy analysis ↔
        FinOpsSpelled spelledPolicy spelledSettings spelledPayload) :=
  routing_honoured_iff spelledPolicy_valid spelledSettings_created spelledPayload

section

open ProcurementLeakageAnalyzer

def missingId : Finding InvoiceFloat where
  findingType := lit "invoice_data_quality"
  action := lit "missing_invoice_id"
  risk := lit "med"
  gross := .finite 0
  record := []
  recordIndex := 0

def missingIdRecommendation : Recommendation InvoiceFloat :=
  recommend missingId (lit "auto_approve_candidate") 0 (cents (min 0 0))

theorem analyze_missingId : ∃ analysis, analyze spelledSettings (.obj spelledPayload) =
    .ok analysis ∧ analysis.recommendations = [missingIdRecommendation] := by
  have hsorted : sortedOn Finding.rank [missingId] = [missingId] :=
    List.perm_singleton.mp (sortedOn_perm _ _)
  have hscan : scan ⟨spelledSettings, [], [], .finite 1000⟩ 0 [.obj []] ⟨[], [], []⟩ =
      .ok ⟨[], [missingId], [0]⟩ := rfl
  have hgross : checkNonnegative missingId.gross
      (lit "recommendation.est_recoverable_value_usd") = .ok 0 :=
    checkNonnegative_eq_ok.mpr ⟨rfl, le_rfl⟩
  have hgroup : allocateGroup spelledSettings 0 (sortedOn Finding.rank [missingId]) =
      .ok [missingIdRecommendation] := by
    rw [hsorted]
    exact except_bind_eq_ok.mpr ⟨_, hgross, except_bind_eq_ok.mpr ⟨lit "auto_approve_candidate",
      rfl, rfl⟩⟩
  have hallocated : allocateGroups spelledSettings [0] (groupFindings [missingId]) =
      .ok [missingIdRecommendation] :=
    except_bind_eq_ok.mpr ⟨_, hgroup, rfl⟩
  exact ⟨_, except_bind_eq_ok.mpr ⟨_, rfl, except_bind_eq_ok.mpr ⟨_, hscan,
    except_bind_eq_ok.mpr ⟨_, hallocated, rfl⟩⟩⟩, rfl⟩

end

section

open FinOpsAnalyzer

def databaseFinding : Finding InvoiceFloat where
  findingType := lit "underutilized_database"
  action := lit "rightsizing_recommendation"
  savings := roundedTimes (256001 / 128) (.finite (3 / 10))
  risk := lit "high"
  resource := database

theorem analyze_database : ∃ analysis, analyze spelledSettings (.obj spelledPayload) =
    .ok analysis ∧
      analysis.recommendations = [recommend databaseFinding (lit "auto_approve_candidate")] := by
  have hcost : nonnegativeField database (lit "monthly_cost_usd")
      (place 0 ++ lit ".monthly_cost_usd") = .ok (256001 / 128) :=
    checkNonnegative_eq_ok.mpr ⟨rfl, by decide +kernel⟩
  have hread : readResource 0 (.obj database) = .ok ⟨database, 256001 / 128, 0, ⌊(0 : ℚ)⌋⟩ :=
    except_bind_eq_ok.mpr ⟨_, hcost, rfl⟩
  have hused : (FloatVal.finite 5).above 0 = true := by decide +kernel
  have hexpensive : (FloatVal.finite 300).below (256001 / 128) = true := by decide +kernel
  have hunderutilized : underutilizedDatabase spelledSettings
      ⟨database, 256001 / 128, 0, ⌊(0 : ℚ)⌋⟩ = .ok (some databaseFinding) :=
    except_bind_eq_ok.mpr ⟨.obj [], rfl, except_bind_eq_ok.mpr ⟨.finite 5, rfl,
      (if_pos hused).trans (except_bind_eq_ok.mpr ⟨.finite 300, rfl,
        (if_pos hexpensive).trans rfl⟩)⟩⟩
  have hcheck : checkResource spelledSettings 0 (.obj database) = .ok (some databaseFinding) :=
    except_bind_eq_ok.mpr ⟨_, hread, hunderutilized⟩
  have hscan : scan spelledSettings 0 [.obj database] = .ok [databaseFinding] :=
    except_bind_eq_ok.mpr ⟨_, hcheck, rfl⟩
  have hsavings : checkNonnegative databaseFinding.savings
      (lit "recommendation.est_monthly_savings_usd") = .ok (cents (256001 / 128 * (3 / 10))) :=
    checkNonnegative_eq_ok.mpr ⟨rfl, cents_nonneg (by norm_num)⟩
  have htotal : totalSavings [recommend databaseFinding (lit "auto_approve_candidate")] =
      .ok (cents (256001 / 128 * (3 / 10)) + 0) :=
    except_bind_eq_ok.mpr ⟨_, hsavings, rfl⟩
  exact ⟨_, except_bind_eq_ok.mpr ⟨_, hscan, except_bind_eq_ok.mpr ⟨_, rfl,
    except_bind_eq_ok.mpr ⟨_, htotal, rfl⟩⟩⟩, rfl⟩

end

/-- Neither analyzer honours the policy: `medium` is not `med` and `HIGH` is not
`high`. -/
theorem spelled_not_honoured : validatePolicy (.obj spelledPolicy) = .ok () ∧
    AnalyzerSettings.create spelledPolicy [] = .ok spelledSettings ∧
    (∃ analysis, ProcurementLeakageAnalyzer.analyze spelledSettings (.obj spelledPayload) =
      .ok analysis ∧ ¬ ProcurementHonoured spelledPolicy spelledSettings analysis) ∧
    ∃ analysis, FinOpsAnalyzer.analyze spelledSettings (.obj spelledPayload) = .ok analysis ∧
      ¬ FinOpsHonoured spelledPolicy analysis := by
  refine ⟨spelledPolicy_valid, spelledSettings_created, ?_, ?_⟩
  · obtain ⟨analysis, hanalysis, hrecommendations⟩ := analyze_missingId
    refine ⟨analysis, hanalysis, fun hhonoured => ?_⟩
    have hlists : Lists spelledPolicy general missingIdRecommendation.finding.risk :=
      ⟨lit "medium", List.mem_cons_self, by decide⟩
    have hstatus := hhonoured missingIdRecommendation (by simp [hrecommendations]) (.inl hlists)
    exact absurd hstatus (by decide)
  · obtain ⟨analysis, hanalysis, hrecommendations⟩ := analyze_database
    refine ⟨analysis, hanalysis, fun hhonoured => ?_⟩
    have hlists : Lists spelledPolicy production databaseFinding.risk :=
      ⟨lit "HIGH", List.mem_cons_self, by decide⟩
    have hproduction : IsProduction (FinOpsAnalyzer.environmentText database) := by
      show lowerAscii (strip (lit "production")) = lit "production"
      decide
    have hstatus := hhonoured
      (FinOpsAnalyzer.recommend databaseFinding (lit "auto_approve_candidate"))
      (by simp [hrecommendations]) hlists hproduction
    exact absurd hstatus (by decide)

end ApprovalRouting

end AgentRoi
