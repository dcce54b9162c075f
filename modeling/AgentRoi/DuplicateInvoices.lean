/-
The duplicate invoices that `ProcurementLeakageAnalyzer.analyze` finds.

* `signatures` — the signatures of a payload's invoices; those without an id
  have none;
* `Analysis.duplicatesAt` — how often an invoice is flagged;
* `Rows.marked` — the loop flags the invoices whose signature was there before;
* `duplicates_exact` — all but the first of a signature are flagged, each once,
  whatever stands between them.
-/
import AgentRoi.ProcurementRows
import AgentRoi.Repeats
import Mathlib.Data.List.ReduceOption

namespace AgentRoi

namespace ProcurementLeakageAnalyzer

open Repeats

variable {F : Type} [PyAmounts F] {c : Checks F} {a : AnalyzerSettings F} {index : ℕ}
  {values : List (Json F)} {seen : List Signature} {rows : List (Row F)}

/-- The signature that counts; none without an id. -/
def Invoice.key (invoice : Invoice F) : Option Signature :=
  if invoice.invoiceId = [] then none else some invoice.signature

def signatureOf (value : Json F) : Option Signature :=
  match readInvoice 0 value with
  | .ok invoice => invoice.key
  | .error _ => none

omit [PyAmounts F] in
def invoicesOf (payload : List (Str × Json F)) : List (Json F) :=
  match (dictGet (lit "invoices") payload).getD (.arr []) with
  | .arr invoices => invoices
  | _ => []

def signatures (payload : List (Str × Json F)) : List (Option Signature) :=
  (invoicesOf payload).map signatureOf

omit [PyAmounts F] in
def Finding.isDuplicate (finding : Finding F) : Bool := finding.action = lit "duplicate_invoice"

/-- How many `duplicate_invoice` recommendations there are. -/
def Analysis.duplicates (analysis : Analysis F) : ℕ :=
  analysis.recommendations.countP fun r => r.finding.isDuplicate

/-- How many there are for one invoice. -/
def Analysis.duplicatesAt (analysis : Analysis F) (i : ℕ) : ℕ :=
  analysis.recommendations.countP fun r =>
    r.finding.isDuplicate && decide (r.finding.recordIndex = i)

/-! ### One invoice -/

theorem readInvoice_index {value : Json F} {invoice : Invoice F}
    (h : readInvoice index value = .ok invoice) (other : ℕ) :
    readInvoice other value = .ok invoice := by
  cases value with
  | obj record =>
    obtain ⟨amount, hamount, h⟩ := except_bind_eq_ok.mp h
    cases h
    exact except_bind_eq_ok.mpr ⟨amount, nonnegativeField_name hamount _, rfl⟩
  | _ => cases h

theorem Rows.keys (h : Rows c index seen values rows) :
    (rows.map fun row => row.invoice.key) = values.map signatureOf := by
  induction h with
  | nil => rfl
  | cons hinvoice _ _ _ _ ih =>
    rw [List.map_cons, List.map_cons, ih, signatureOf, readInvoice_index hinvoice 0]

omit [PyAmounts F] in
theorem countP_eq_zero {findings : List (Finding F)} {action : Str}
    (haction : action ≠ lit "duplicate_invoice")
    (h : ∀ finding ∈ findings, finding.action = action) :
    findings.countP Finding.isDuplicate = 0 := by
  refine List.countP_eq_zero.mpr fun finding hfinding => ?_
  rw [Finding.isDuplicate, h finding hfinding, decide_eq_true_eq]
  exact haction

/-- The other checks flag no duplicates. -/
theorem countP_others {vendor price : List (Finding F)} {approved : List Str}
    {baselinePrices : List (Str × Json F)} {invoice : Invoice F}
    (hvendor : vendorFindings a approved index invoice = .ok vendor)
    (hprice : priceFindings a baselinePrices index invoice = .ok price) :
    (vendor ++ price).countP Finding.isDuplicate = 0 := by
  rw [List.countP_append,
    countP_eq_zero (by decide) fun finding hfinding =>
      (vendorFindings_of hvendor finding hfinding).2,
    countP_eq_zero (by decide) fun finding hfinding => (priceFindings_of hprice finding hfinding).2]

/-- An invoice is flagged as the loop marks its signature. -/
theorem Rows.marked (h : Rows c index seen values rows) :
    (rows.map fun row => row.findings.countP Finding.isDuplicate) =
      (marks (fun k => c.duplicateAmount.below k.amount) seen
        (rows.map fun row => row.invoice.key)).map Bool.toNat := by
  induction h with
  | nil => rfl
  | @cons index seen value values invoice identity vendor price rows _ hidentity hvendor hprice _
      ih =>
    rw [List.map_cons, List.map_cons, ih, Row.findings, List.countP_append,
      countP_others hvendor hprice, add_zero]
    unfold identityFindings at hidentity
    unfold seenAfter
    split at hidentity
    · next hid =>
      have hkey : invoice.key = none := if_pos hid
      cases hidentity
      rw [hkey, marks, if_pos hid]
      rfl
    · next hid =>
      have hkey : invoice.key = some invoice.signature := if_neg hid
      rw [hkey, if_neg hid]
      split at hidentity
      · next hseen =>
        obtain ⟨multiplier, -, hidentity⟩ := except_bind_eq_ok.mp hidentity
        cases hidentity
        have hmark : invoice.signature ∈ seen ∧
            c.duplicateAmount.below invoice.signature.amount = true := hseen
        rw [if_pos hseen, marks, if_pos hmark]
        rfl
      · next hnot =>
        cases hidentity
        have hmark : ¬ (invoice.signature ∈ seen ∧
            c.duplicateAmount.below invoice.signature.amount = true) := hnot
        rw [if_neg hnot, marks, if_neg hmark]
        rfl

/-! ### The whole payload -/

/-- What is read before the loop. -/
theorem readChecks_eq_ok {payload : List (Str × Json F)} {invoices : List (Json F)}
    (h : readChecks a payload = .ok (invoices, c)) : invoicesOf payload = invoices ∧
      a.threshold (lit "duplicate_invoice") (lit "amount_usd_gt") 1000 = .ok c.duplicateAmount := by
  unfold readChecks at h
  split at h
  · next listed hlisted =>
    obtain ⟨approved, -, h⟩ := except_bind_eq_ok.mp h
    split at h
    · obtain ⟨duplicateAmount, hamount, h⟩ := except_bind_eq_ok.mp h
      cases h
      refine ⟨?_, hamount⟩
      rw [invoicesOf, hlisted]
    · cases h
  · cases h

/-- The marks of the loop over a payload. -/
def flags (thr : FloatVal ℚ) (payload : List (Str × Json F)) : List Bool :=
  marks (fun k => thr.below k.amount) [] (signatures payload)

section

variable {payload : List (Str × Json F)} {analysis : Analysis F} {invoices : List (Json F)}
  {parts : List (List (Recommendation F))}

theorem Parts.duplicateCounts (h : Parts a payload analysis invoices c rows parts) :
    (rows.map fun row => row.findings.countP Finding.isDuplicate) =
      (flags c.duplicateAmount payload).map Bool.toNat := by
  rw [flags, signatures, (readChecks_eq_ok h.read).1, h.scanned.marked, h.scanned.keys]

/-- As many recommendations are for duplicates as invoices are marked. -/
theorem Parts.duplicates_eq (h : Parts a payload analysis invoices c rows parts) :
    analysis.duplicates = (flags c.duplicateAmount payload).count true := by
  have hperm := h.findings_perm.countP_eq Finding.isDuplicate
  rw [List.countP_map, List.countP_flatMap] at hperm
  refine hperm.trans ?_
  show (rows.map fun row => row.findings.countP Finding.isDuplicate).sum = _
  rw [h.duplicateCounts]
  induction flags c.duplicateAmount payload with
  | nil => rfl
  | cons b bs ih =>
    rw [List.map_cons, List.sum_cons, ih, List.count_cons, add_comm]
    cases b with
    | true => rfl
    | false => rfl

/-- The recommendations for an invoice are those of its row. -/
theorem Parts.duplicatesAt_eq (h : Parts a payload analysis invoices c rows parts) (i : ℕ) :
    analysis.duplicatesAt i = ((flags c.duplicateAmount payload)[i]?.map Bool.toNat).getD 0 := by
  have hperm := h.findings_perm.countP_eq fun finding =>
    finding.isDuplicate && decide (finding.recordIndex = i)
  rw [List.countP_map] at hperm
  refine hperm.trans ?_
  rw [← List.countP_filter, ← List.getElem?_map, ← h.duplicateCounts, List.getElem?_map]
  have hindex : ∀ row ∈ rows, ∀ finding ∈ row.findings, finding.recordIndex = row.index :=
    fun row hrow finding hfinding => (h.scanned.findings_of row hrow finding hfinding).recordIndex
  have hnumbered := h.scanned.index_eq
  cases hrow : rows[i]? with
  | some row =>
    have hi : row.index = i := by
      have hget := congrArg (fun indices : List ℕ => indices[i]?) hnumbered
      have hlt := (List.getElem?_eq_some_iff.mp hrow).1
      simpa [hrow, List.getElem?_range' hlt] using hget
    have hmem := List.mem_of_getElem? hrow
    have hrowFindings := h.scanned.filter_findings hmem
    rw [hi] at hrowFindings
    rw [hrowFindings]
    rfl
  | none =>
    have hnone : (rows.flatMap Row.findings).filter
        (fun finding => finding.recordIndex = i) = [] := by
      refine List.filter_eq_nil_iff.mpr fun finding hfinding => ?_
      obtain ⟨row, hrow', hfinding⟩ := List.mem_flatMap.mp hfinding
      rw [hindex row hrow' finding hfinding, decide_eq_true_eq]
      rintro rfl
      have hmem : row.index ∈ rows.map Row.index := List.mem_map_of_mem hrow'
      rw [hnumbered, List.mem_range'_1, zero_add] at hmem
      exact absurd hrow (by simp [hmem.2])
    rw [hnone]
    rfl

/-- The counts, invoice after invoice. -/
theorem Parts.duplicatesAt_map (h : Parts a payload analysis invoices c rows parts) :
    (List.range (signatures payload).length).map analysis.duplicatesAt =
      (flags c.duplicateAmount payload).map Bool.toNat := by
  have hlength : (flags c.duplicateAmount payload).length = (signatures payload).length :=
    length_marks
  refine List.ext_getElem (by simp [hlength]) fun i hi _ => ?_
  have hlt : i < (flags c.duplicateAmount payload).length := by
    rw [hlength]
    simpa using hi
  rw [List.getElem_map, List.getElem_range, h.duplicatesAt_eq, List.getElem?_eq_getElem hlt,
    List.getElem_map]
  rfl

/-- The invoices of one signature: the first is never flagged, the others are
flagged once if the amount is above the threshold. -/
theorem Parts.duplicatesOf (h : Parts a payload analysis invoices c rows parts) (k : Signature) :
    marksOf k (signatures payload)
        ((List.range (signatures payload).length).map analysis.duplicatesAt) =
      (List.range ((signatures payload).count (some k))).map fun m =>
        if 0 < m ∧ c.duplicateAmount.below k.amount = true then 1 else 0 := by
  rw [h.duplicatesAt_map, marksOf_map, flags, marksOf_marks List.not_mem_nil, List.map_map]
  refine List.map_congr_left fun m _ => ?_
  show (decide (0 < m) && c.duplicateAmount.below k.amount).toNat = _
  by_cases hm : 0 < m
  · cases c.duplicateAmount.below k.amount with
    | true => simp [hm]
    | false => simp
  · simp [hm]

end

/-- The duplicates are all the invoices but the first of each signature whose
amount is above the threshold, each flagged once; what stands between the
invoices of a signature makes no difference. -/
theorem duplicates_exact {payload : List (Str × Json F)} {analysis : Analysis F}
    (h : analyze a (.obj payload) = .ok analysis) :
    ∃ thr, a.threshold (lit "duplicate_invoice") (lit "amount_usd_gt") 1000 = .ok thr ∧
      analysis.duplicates =
        ∑ k ∈ (signatures payload).reduceOption.toFinset with thr.below k.amount = true,
          ((signatures payload).count (some k) - 1) ∧
      (∀ i, analysis.duplicatesAt i ≤ 1 ∧ (analysis.duplicatesAt i = 1 ↔
        ∃ k, (signatures payload)[i]? = some (some k) ∧ thr.below k.amount = true ∧
          some k ∈ (signatures payload).take i)) ∧
      (∀ k, marksOf k (signatures payload)
          ((List.range (signatures payload).length).map analysis.duplicatesAt) =
        (List.range ((signatures payload).count (some k))).map fun m =>
          if 0 < m ∧ thr.below k.amount = true then 1 else 0) ∧
      ∀ payload' analysis', analyze a (.obj payload') = .ok analysis' → ∀ k,
        (signatures payload').filter (· = some k) = (signatures payload).filter (· = some k) →
          marksOf k (signatures payload')
              ((List.range (signatures payload').length).map analysis'.duplicatesAt) =
            marksOf k (signatures payload)
              ((List.range (signatures payload).length).map analysis.duplicatesAt) := by
  obtain ⟨invoices, c, rows, parts, hparts⟩ := analyze_eq_ok h
  have hthr := (readChecks_eq_ok hparts.read).2
  refine ⟨c.duplicateAmount, hthr, ?_, fun i => ?_, hparts.duplicatesOf, ?_⟩
  · rw [hparts.duplicates_eq]
    exact count_marks _ fun k hk => List.mem_toFinset.mpr (List.reduceOption_mem_iff.mpr hk)
  · rw [hparts.duplicatesAt_eq]
    have hmark : (flags c.duplicateAmount payload)[i]? = some true ↔
        ∃ k, (signatures payload)[i]? = some (some k) ∧ c.duplicateAmount.below k.amount = true ∧
          (k ∈ [] ∨ some k ∈ (signatures payload).take i) := mark_iff
    simp only [List.not_mem_nil, false_or] at hmark
    rw [← hmark]
    cases (flags c.duplicateAmount payload)[i]? with
    | none => simp
    | some b => cases b <;> simp
  · intro payload' analysis' h' k hsame
    obtain ⟨invoices', c', rows', parts', hparts'⟩ := analyze_eq_ok h'
    have hthr' : c'.duplicateAmount = c.duplicateAmount :=
      Except.ok.inj ((readChecks_eq_ok hparts'.read).2.symm.trans hthr)
    have hcount : ∀ keys : List (Option Signature),
        keys.count (some k) = (keys.filter (· = some k)).length := by
      intro keys
      rw [List.count_eq_countP, List.countP_eq_length_filter]
      refine congrArg List.length (List.filter_congr fun key _ => ?_)
      exact Bool.eq_iff_iff.mpr (beq_iff_eq.trans decide_eq_true_iff.symm)
    rw [hparts'.duplicatesOf, hparts.duplicatesOf, hthr', hcount, hcount, hsame]

theorem twice_duplicates : ∃ thr : FloatVal ℚ,
    plainSettings.threshold (lit "duplicate_invoice") (lit "amount_usd_gt") 1000 = .ok thr ∧
      twiceAnalysis.duplicates =
        ∑ k ∈ (signatures twice).reduceOption.toFinset with thr.below k.amount = true,
          ((signatures twice).count (some k) - 1) := by
  obtain ⟨thr, hthr, hcount, -⟩ := duplicates_exact analyze_twice
  exact ⟨thr, hthr, hcount⟩

end ProcurementLeakageAnalyzer

end AgentRoi
