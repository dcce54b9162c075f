/-
`ProcurementLeakageAnalyzer` of `agent_roi.procurement.analyzer`.

The rationale and the evidence of a finding are left out, and what the business
context only adds to the summary.

* `Invoice`, `Finding`, `Recommendation`, `Analysis` — the records;
* `approvalStatus` — `approval_status`;
* `identityFindings`, `vendorFindings`, `priceFindings` — the checks of one
  invoice;
* `scanInvoice`, `scan` — the loop over the invoices;
* `groupFindings`, `allocateGroup` — recoverable value, given out once for
  each invoice;
* `analyze` — the whole;
* `analyze_twice` — a run, on an invoice that comes twice.
-/
import AgentRoi.AnalyzerInput
import AgentRoi.Grouping

namespace AgentRoi

namespace ProcurementLeakageAnalyzer

variable {F : Type}

structure Finding (F : Type) where
  findingType : Str
  action : Str
  risk : Str
  gross : FloatVal ℚ
  record : List (Str × Json F)
  recordIndex : ℕ

/-- An entry of `recommendations`, with the finding it is made from. -/
structure Recommendation (F : Type) where
  finding : Finding F
  recordId : Json F
  vendor : Json F
  invoiceId : Json F
  businessUnit : Json F
  approvalStatus : Str
  gross : ℚ
  allocated : ℚ
  overlap : ℚ

structure Analysis (F : Type) where
  numRecordsScanned : ℕ
  numFindings : ℕ
  numRecommendations : ℕ
  totalInvoiceValue : ℚ
  estTotalRecoverable : ℚ
  recommendations : List (Recommendation F)

/-- What the loop reads of an invoice first. -/
structure Invoice (F : Type) where
  record : List (Str × Json F)
  vendor : Str
  invoiceId : Str
  amount : ℚ

structure Signature where
  vendor : Str
  invoiceId : Str
  amount : ℚ
  deriving DecidableEq

def priority : List (Str × ℕ) :=
  [(lit "duplicate_invoice", 0), (lit "price_variance", 1), (lit "unapproved_vendor", 2),
    (lit "missing_invoice_id", 3)]

def Finding.rank (finding : Finding F) : ℕ := (dictGet finding.action priority).getD 99

/-- `invoices[index]`, in a message. -/
def place (index : ℕ) : Str := lit "invoices[" ++ natDigits index ++ lit "]"

section

variable [PyAmounts F]

/-! ### Approvals -/

/-- `{str(value).strip().lower() for value in self.routing.get(key, [])}`. -/
def riskSet (a : AnalyzerSettings F) (key : Str) : Except PyExc (List Str) := do
  let risks ← a.routing.getOr key (.arr [])
  match iterate risks with
  | none => .error notIterable
  | some items => return items.map fun value => lowerAscii (strip value.pyStr)

/-- The environment of an invoice, or that of the context. -/
def environmentOf (a : AnalyzerSettings F) (record : List (Str × Json F)) : Str :=
  ((dictGet (lit "environment") record).getD
    ((dictGet (lit "environment") a.ctx).getD (.str []))).pyStr

def approvalStatus (a : AnalyzerSettings F) (record : List (Str × Json F)) (risk : Str) :
    Except PyExc Str := do
  let lowered := lowerAscii (strip risk)
  let riskValue := if lowered = lit "medium" then lit "med" else lowered
  let general ← riskSet a (lit "requires_approval_for_risk")
  let production ← riskSet a (lit "production_requires_approval_for_risk")
  let environment := lowerAscii (strip (environmentOf a record))
  return if riskValue ∈ general ∨ (environment = lit "production" ∧ riskValue ∈ production) then
      lit "procurement_approval_required"
    else lit "auto_approve_candidate"

/-! ### The payload -/

/-- The loop of `_approved_vendor_set`. -/
def approvedVendors : List (Json F) → Except PyExc (List Str)
  | [] => return []
  | .str vendor :: vendors => do
    let approved ← approvedVendors vendors
    return if isBlank vendor then approved else PyAmounts.casefold F (strip vendor) :: approved
  | _ :: _ => .error (.typeError (lit "payload.approved_vendors must contain only strings"))

def approvedVendorSet : Json F → Except PyExc (List Str)
  | .null => return []
  | .arr vendors => approvedVendors vendors
  | _ => .error (.typeError
      (lit "payload.approved_vendors must be a list or set of vendor names"))

def readInvoice (index : ℕ) : Json F → Except PyExc (Invoice F)
  | .obj record => do
    let amount ← nonnegativeField record (lit "amount_usd") (place index ++ lit ".amount_usd")
    return {
      record := record
      vendor := strip ((dictGet (lit "vendor") record).getD (.str (lit "unknown"))).pyStr
      invoiceId := strip ((dictGet (lit "invoice_id") record).getD (.str [])).pyStr
      amount := amount }
  | _ => .error (.typeError (place index ++ lit " must be a mapping"))

def Invoice.signature (invoice : Invoice F) : Signature :=
  ⟨PyAmounts.casefold F invoice.vendor, PyAmounts.casefold F invoice.invoiceId, invoice.amount⟩

/-! ### One invoice -/

/-- A missing id, or a signature that was seen; `duplicateAmount` is the
threshold. -/
def identityFindings (a : AnalyzerSettings F) (duplicateAmount : FloatVal ℚ) (index : ℕ)
    (invoice : Invoice F) (seen : List Signature) : Except PyExc (List (Finding F)) :=
  if invoice.invoiceId = [] then return [{
    findingType := lit "invoice_data_quality"
    action := lit "missing_invoice_id"
    risk := lit "med"
    gross := .finite 0
    record := invoice.record
    recordIndex := index }]
  else if invoice.signature ∈ seen ∧ duplicateAmount.below invoice.amount = true then do
    let multiplier ← a.multiplier (lit "duplicate_invoice") 1
    return [{
      findingType := lit "duplicate_payment_risk"
      action := lit "duplicate_invoice"
      risk := lit "high"
      gross := roundedTimes invoice.amount multiplier
      record := invoice.record
      recordIndex := index }]
  else return []

/-- `seen`, after the same checks. -/
def seenAfter (duplicateAmount : FloatVal ℚ) (invoice : Invoice F) (seen : List Signature) :
    List Signature :=
  if invoice.invoiceId = [] then seen
  else if invoice.signature ∈ seen ∧ duplicateAmount.below invoice.amount = true then seen
  else invoice.signature :: seen

def vendorFindings (a : AnalyzerSettings F) (approved : List Str) (index : ℕ)
    (invoice : Invoice F) : Except PyExc (List (Finding F)) := do
  let threshold ← a.thresholds.getOr (lit "unapproved_vendor") (.obj [])
  let alwaysFlag ← threshold.getOr (lit "always_flag") (.bool true)
  if alwaysFlag.truthy = true ∧ PyAmounts.casefold F invoice.vendor ∉ approved ∧
      PyAmounts.casefold F invoice.vendor ≠ lit "unknown" then do
    let multiplier ← a.multiplier (lit "unapproved_vendor") (2 / 5)
    return [{
      findingType := lit "vendor_compliance_risk"
      action := lit "unapproved_vendor"
      risk := lit "med"
      gross := roundedTimes invoice.amount multiplier
      record := invoice.record
      recordIndex := index }]
  else return []

def percentOver (unitPrice baseline : ℚ) : ℚ :=
  if 0 < baseline then (unitPrice - baseline) / baseline * 100 else 0

/-- The finding for a unit price that is compared with a baseline. -/
def comparePrice (a : AnalyzerSettings F) (index : ℕ) (invoice : Invoice F) (sku : Str)
    (baselinePrice : Json F) (quantity : ℚ) : Except PyExc (List (Finding F)) := do
  let baseline ← nonnegativeFloat baselinePrice
    (lit "baseline_unit_prices" ++ Json.pyStr (.arr [.str sku] : Json F))
  let unitPrice ← nonnegativeField invoice.record (lit "unit_price_usd")
    (place index ++ lit ".unit_price_usd")
  let threshold ← a.threshold (lit "price_variance") (lit "pct_gt") 15
  if threshold.below (percentOver unitPrice baseline) = true then do
    let multiplier ← a.multiplier (lit "price_variance") (3 / 5)
    return [{
      findingType := lit "price_variance"
      action := lit "price_variance"
      risk := lit "high"
      gross := roundedTimes (max 0 ((unitPrice - baseline) * quantity)) multiplier
      record := invoice.record
      recordIndex := index }]
  else return []

/-- Lists and dictionaries are no keys. -/
def priceFindings (a : AnalyzerSettings F) (baselinePrices : List (Str × Json F)) (index : ℕ)
    (invoice : Invoice F) : Except PyExc (List (Finding F)) := do
  let quantity ← nonnegativeField invoice.record (lit "qty") (place index ++ lit ".qty")
  match (dictGet (lit "sku") invoice.record).getD .null with
  | .str sku =>
    match dictGet sku baselinePrices with
    | some baselinePrice =>
      if 0 < quantity then comparePrice a index invoice sku baselinePrice quantity else return []
    | none => return []
  | .arr _ => .error (.typeError (lit "unhashable type: 'list'"))
  | .obj _ => .error (.typeError (lit "unhashable type: 'dict'"))
  | _ => return []

/-! ### The loop over the invoices -/

/-- The variables of the loop. -/
structure Scan (F : Type) where
  seen : List Signature
  findings : List (Finding F)
  amounts : List ℚ

/-- What the checks read besides the invoice. -/
structure Checks (F : Type) where
  settings : AnalyzerSettings F
  approved : List Str
  baselinePrices : List (Str × Json F)
  duplicateAmount : FloatVal ℚ

def scanInvoice (c : Checks F) (index : ℕ) (value : Json F) (s : Scan F) :
    Except PyExc (Scan F) := do
  let invoice ← readInvoice index value
  let identity ← identityFindings c.settings c.duplicateAmount index invoice s.seen
  let vendor ← vendorFindings c.settings c.approved index invoice
  let price ← priceFindings c.settings c.baselinePrices index invoice
  return {
    seen := seenAfter c.duplicateAmount invoice s.seen
    findings := s.findings ++ (identity ++ (vendor ++ price))
    amounts := s.amounts ++ [invoice.amount] }

def scan (c : Checks F) : ℕ → List (Json F) → Scan F → Except PyExc (Scan F)
  | _, [], s => return s
  | index, value :: values, s => do
    let s ← scanInvoice c index value s
    scan c (index + 1) values s

/-! ### Recoverable value -/

/-- `grouped`, of the findings of each invoice. -/
def groupFindings (findings : List (Finding F)) : List (ℕ × List (Finding F)) :=
  Grouping.group Finding.recordIndex findings

def recommend (finding : Finding F) (status : Str) (gross allocated : ℚ) : Recommendation F where
  finding := finding
  recordId := (dictGet (lit "record_id") finding.record).getD .null
  vendor := (dictGet (lit "vendor") finding.record).getD .null
  invoiceId := (dictGet (lit "invoice_id") finding.record).getD .null
  businessUnit := (dictGet (lit "business_unit") finding.record).getD (.str (lit "unknown"))
  approvalStatus := status
  gross := cents gross
  allocated := allocated
  overlap := cents (gross - allocated)

/-- The findings of one invoice, in order of priority. -/
def allocateGroup (a : AnalyzerSettings F) :
    ℚ → List (Finding F) → Except PyExc (List (Recommendation F))
  | _, [] => return []
  | remaining, finding :: findings => do
    let gross ← checkNonnegative finding.gross (lit "recommendation.est_recoverable_value_usd")
    let allocated := cents (min gross remaining)
    let status ← approvalStatus a finding.record finding.risk
    let rest ← allocateGroup a (cents (max 0 (remaining - allocated))) findings
    return recommend finding status gross allocated :: rest

def allocateGroups (a : AnalyzerSettings F) (amounts : List ℚ) :
    List (ℕ × List (Finding F)) → Except PyExc (List (Recommendation F))
  | [] => return []
  | group :: groups => do
    let first ← allocateGroup a (amounts.getD group.1 0) (sortedOn Finding.rank group.2)
    let rest ← allocateGroups a amounts groups
    return first ++ rest

/-! ### The analysis -/

/-- What `analyze` reads before the loop. -/
def readChecks (a : AnalyzerSettings F) (payload : List (Str × Json F)) :
    Except PyExc (List (Json F) × Checks F) := do
  match (dictGet (lit "invoices") payload).getD (.arr []) with
  | .arr invoices =>
    let approved ← approvedVendorSet ((dictGet (lit "approved_vendors") payload).getD (.arr []))
    match (dictGet (lit "baseline_unit_prices") payload).getD (.obj []) with
    | .obj baselinePrices =>
      let duplicateAmount ← a.threshold (lit "duplicate_invoice") (lit "amount_usd_gt") 1000
      return (invoices, ⟨a, approved, baselinePrices, duplicateAmount⟩)
    | _ => .error (.typeError (lit "payload.baseline_unit_prices must be a mapping"))
  | _ => .error (.typeError (lit "payload.invoices must be a list"))

/-- What is allocated is not negative, so that summing it does not raise. -/
def summarize (invoices : List (Json F)) (s : Scan F) (recommendations : List (Recommendation F)) :
    Analysis F where
  numRecordsScanned := invoices.length
  numFindings := s.findings.length
  numRecommendations := recommendations.length
  totalInvoiceValue := cents s.amounts.sum
  estTotalRecoverable :=
    min (cents (recommendations.map Recommendation.allocated).sum) (cents s.amounts.sum)
  recommendations := recommendations

def analyze (a : AnalyzerSettings F) : Json F → Except PyExc (Analysis F)
  | .obj payload => do
    let read ← readChecks a payload
    let s ← scan read.2 0 read.1 ⟨[], [], []⟩
    let recommendations ← allocateGroups a s.amounts (groupFindings s.findings)
    return summarize read.1 s recommendations
  | _ => .error (.typeError (lit "payload must be a mapping"))

end

/-! ### An invoice twice -/

/-- The settings of a policy that sets nothing. -/
def plainSettings : AnalyzerSettings InvoiceFloat := ⟨[], .obj [], .obj [], .obj []⟩

def unevenInvoice : List (Str × Json InvoiceFloat) :=
  [(lit "vendor", .str (lit "A")), (lit "invoice_id", .str (lit "X")),
    (lit "amount_usd", .float (.finite .uneven))]

def unevenRead : Invoice InvoiceFloat where
  record := unevenInvoice
  vendor := lit "A"
  invoiceId := lit "X"
  amount := 256001 / 128

/-- The invoice, twice. -/
def twice : List (Str × Json InvoiceFloat) :=
  [(lit "approved_vendors", .arr [.str (lit "A")]),
    (lit "invoices", .arr [.obj unevenInvoice, .obj unevenInvoice])]

def twiceChecks : Checks InvoiceFloat := ⟨plainSettings, [lit "a"], [], .finite 1000⟩

def repeated : Finding InvoiceFloat where
  findingType := lit "duplicate_payment_risk"
  action := lit "duplicate_invoice"
  risk := lit "high"
  gross := .finite (200001 / 100)
  record := unevenInvoice
  recordIndex := 1

/-- More than the amount of the invoice, which is rounded up. -/
def repeatedRecommendation : Recommendation InvoiceFloat :=
  recommend repeated (lit "auto_approve_candidate") (200001 / 100) (200001 / 100)

theorem cents_uneven : cents (256001 / 128) = 200001 / 100 := by decide +kernel

theorem readInvoice_uneven (index : ℕ) :
    readInvoice index (.obj unevenInvoice) = .ok unevenRead := by
  have hamount : nonnegativeField unevenInvoice (lit "amount_usd")
      (place index ++ lit ".amount_usd") = .ok (256001 / 128) :=
    checkNonnegative_eq_ok.mpr ⟨rfl, by decide +kernel⟩
  exact except_bind_eq_ok.mpr ⟨_, hamount, rfl⟩

theorem identityFindings_again : identityFindings plainSettings (.finite 1000) 1 unevenRead
    [unevenRead.signature] = .ok [repeated] := by
  have hbelow : (FloatVal.finite 1000).below unevenRead.amount = true := by decide +kernel
  have hgross : roundedTimes unevenRead.amount (.finite 1) = .finite (200001 / 100) := by
    rw [roundedTimes, mul_one, unevenRead, cents_uneven]
  refine (if_neg (by decide)).trans ((if_pos ⟨List.mem_singleton.mpr rfl, hbelow⟩).trans ?_)
  refine except_bind_eq_ok.mpr ⟨.finite 1, rfl, ?_⟩
  rw [hgross]
  rfl

theorem scan_twice : scan twiceChecks 0 [.obj unevenInvoice, .obj unevenInvoice] ⟨[], [], []⟩ =
    .ok ⟨[unevenRead.signature], [repeated], [256001 / 128, 256001 / 128]⟩ := by
  have hquantity (index : ℕ) : nonnegativeField unevenInvoice (lit "qty")
      (place index ++ lit ".qty") = .ok 0 := rfl
  have hprice (index : ℕ) : priceFindings plainSettings [] index unevenRead = .ok [] :=
    except_bind_eq_ok.mpr ⟨0, hquantity index, rfl⟩
  have hvendor (index : ℕ) : vendorFindings plainSettings [lit "a"] index unevenRead = .ok [] := rfl
  have hfirst : scanInvoice twiceChecks 0 (.obj unevenInvoice) ⟨[], [], []⟩ =
      .ok ⟨[unevenRead.signature], [], [256001 / 128]⟩ :=
    except_bind_eq_ok.mpr ⟨_, readInvoice_uneven 0, except_bind_eq_ok.mpr ⟨[], rfl,
      except_bind_eq_ok.mpr ⟨[], hvendor 0, except_bind_eq_ok.mpr ⟨[], hprice 0, rfl⟩⟩⟩⟩
  have hafter : seenAfter (.finite 1000) unevenRead [unevenRead.signature] =
      [unevenRead.signature] := by
    have hbelow : (FloatVal.finite 1000).below unevenRead.amount = true := by decide +kernel
    exact (if_neg (by decide)).trans (if_pos ⟨List.mem_singleton.mpr rfl, hbelow⟩)
  have hsecond : scanInvoice twiceChecks 1 (.obj unevenInvoice)
      ⟨[unevenRead.signature], [], [256001 / 128]⟩ =
      .ok ⟨[unevenRead.signature], [repeated], [256001 / 128, 256001 / 128]⟩ := by
    refine except_bind_eq_ok.mpr ⟨_, readInvoice_uneven 1, except_bind_eq_ok.mpr ⟨[repeated],
      identityFindings_again, except_bind_eq_ok.mpr ⟨[], hvendor 1,
        except_bind_eq_ok.mpr ⟨[], hprice 1, ?_⟩⟩⟩⟩
    show Except.ok (Scan.mk (seenAfter (.finite 1000) unevenRead [unevenRead.signature]) _ _) = _
    rw [hafter]
    rfl
  exact except_bind_eq_ok.mpr ⟨_, hfirst, except_bind_eq_ok.mpr ⟨_, hsecond, rfl⟩⟩

theorem allocateGroups_twice : allocateGroups plainSettings [256001 / 128, 256001 / 128]
    (groupFindings [repeated]) = .ok [repeatedRecommendation] := by
  have hsorted : sortedOn Finding.rank [repeated] = [repeated] := by
    exact List.perm_singleton.mp (sortedOn_perm _ _)
  have hgross : checkNonnegative repeated.gross
      (lit "recommendation.est_recoverable_value_usd") = .ok (200001 / 100) :=
    checkNonnegative_eq_ok.mpr ⟨rfl, by norm_num⟩
  have hmin : cents (min (200001 / 100) (256001 / 128)) = 200001 / 100 := by decide +kernel
  have hgroup : allocateGroup plainSettings (256001 / 128) (sortedOn Finding.rank [repeated]) =
      .ok [repeatedRecommendation] := by
    rw [hsorted]
    refine except_bind_eq_ok.mpr ⟨_, hgross, except_bind_eq_ok.mpr ⟨lit "auto_approve_candidate",
      rfl, except_bind_eq_ok.mpr ⟨[], rfl, ?_⟩⟩⟩
    rw [hmin]
    rfl
  exact except_bind_eq_ok.mpr ⟨_, hgroup, except_bind_eq_ok.mpr ⟨[], rfl, rfl⟩⟩

def twiceAnalysis : Analysis InvoiceFloat where
  numRecordsScanned := 2
  numFindings := 1
  numRecommendations := 1
  totalInvoiceValue := cents (256001 / 128 + (256001 / 128 + 0))
  estTotalRecoverable :=
    min (cents (200001 / 100 + 0)) (cents (256001 / 128 + (256001 / 128 + 0)))
  recommendations := [repeatedRecommendation]

theorem analyze_twice : analyze plainSettings (.obj twice) = .ok twiceAnalysis :=
  except_bind_eq_ok.mpr ⟨([.obj unevenInvoice, .obj unevenInvoice], twiceChecks), rfl,
    except_bind_eq_ok.mpr ⟨_, scan_twice, except_bind_eq_ok.mpr ⟨_, allocateGroups_twice, rfl⟩⟩⟩

end ProcurementLeakageAnalyzer

end AgentRoi
