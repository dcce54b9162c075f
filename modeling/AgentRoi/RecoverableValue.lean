/-
How much `ProcurementLeakageAnalyzer.analyze` calls recoverable.

* `checkedAt`, `estimates` — the amount of an invoice of a payload, and what is
  estimated for it, in order of priority;
* `Analysis.Bounded` — no invoice recovers more than its amount, and the sums
  and differences are exact;
* `FitsAt` — the estimates for an invoice fit in its amount;
* `bounded_iff` — an analysis is bounded exactly when they fit everywhere;
* `fitsAt_of_isCents` — they do fit in whole cents.
-/
import AgentRoi.DuplicateInvoices

namespace AgentRoi

namespace ProcurementLeakageAnalyzer

variable {F : Type} [PyAmounts F] {c : Checks F} {a : AnalyzerSettings F} {index : ℕ}
  {values : List (Json F)} {seen : List Signature} {rows : List (Row F)}

/-! ### What is estimated -/

/-- The checks of an invoice, where the signatures in `seen` were there
before. -/
def checkInvoice (c : Checks F) (index : ℕ) (value : Json F) (seen : List Signature) :
    Except PyExc (ℚ × List (Finding F)) := do
  let invoice ← readInvoice index value
  let identity ← identityFindings c.settings c.duplicateAmount index invoice seen
  let vendor ← vendorFindings c.settings c.approved index invoice
  let price ← priceFindings c.settings c.baselinePrices index invoice
  return (invoice.amount, identity ++ (vendor ++ price))

/-- The signatures of the invoices before the `i`-th. -/
def earlier (payload : List (Str × Json F)) (i : ℕ) : List Signature :=
  ((signatures payload).take i).reduceOption

def checkedAt (a : AnalyzerSettings F) (payload : List (Str × Json F)) (i : ℕ) :
    Except PyExc (ℚ × List (Finding F)) := do
  let read ← readChecks a payload
  checkInvoice read.2 i (read.1.getD i .null) (earlier payload i)

omit [PyAmounts F] in
def Finding.estimate (finding : Finding F) : Option ℚ :=
  match finding.gross with
  | .finite q => some q
  | _ => none

omit [PyAmounts F] in
def estimates (findings : List (Finding F)) : List ℚ :=
  (sortedOn Finding.rank findings).filterMap Finding.estimate

/-- Together they are at most the amount; or the amount, less the first if it
is so much, is not rounded up. -/
def FitsAt (a : AnalyzerSettings F) (payload : List (Str × Json F)) (i : ℕ) : Prop :=
  ∀ amount findings, checkedAt a payload i = .ok (amount, findings) →
    Fits (estimates findings) amount

/-! ### What is recovered -/

omit [PyAmounts F] in
def Analysis.allocatedAt (analysis : Analysis F) (i : ℕ) : ℚ :=
  ((analysis.recommendations.filter fun r => r.finding.recordIndex = i).map
    Recommendation.allocated).sum

def amountAt (payload : List (Str × Json F)) (i : ℕ) : Option ℚ :=
  match readInvoice i ((invoicesOf payload).getD i .null) with
  | .ok invoice => some invoice.amount
  | .error _ => none

structure Analysis.Bounded (analysis : Analysis F) (payload : List (Str × Json F)) : Prop where
  invoice : ∀ i amount, amountAt payload i = some amount → analysis.allocatedAt i ≤ amount
  nonneg : ∀ r ∈ analysis.recommendations, 0 ≤ r.allocated
  overlap : ∀ r ∈ analysis.recommendations, r.allocated + r.overlap = r.gross ∧ 0 ≤ r.overlap
  total : analysis.estTotalRecoverable = (analysis.recommendations.map Recommendation.allocated).sum
  total_le : analysis.estTotalRecoverable ≤ analysis.totalInvoiceValue

/-! ### One invoice -/

/-- What was seen counts only as a set. -/
theorem identityFindings_congr {thr : FloatVal ℚ} {invoice : Invoice F} {seen' : List Signature}
    (h : ∀ k, k ∈ seen ↔ k ∈ seen') :
    identityFindings a thr index invoice seen = identityFindings a thr index invoice seen' := by
  unfold identityFindings
  simp only [h]

theorem checkInvoice_congr {value : Json F} {seen' : List Signature}
    (h : ∀ k, k ∈ seen ↔ k ∈ seen') : checkInvoice c index value seen =
      checkInvoice c index value seen' := by
  unfold checkInvoice
  simp only [identityFindings_congr h]

theorem mem_seenAfter {thr : FloatVal ℚ} {invoice : Invoice F} {k : Signature} :
    k ∈ seenAfter thr invoice seen ↔ k ∈ seen ∨ invoice.key = some k := by
  unfold seenAfter Invoice.key
  split
  · simp
  · split
    · next hseen =>
      simp only [Option.some.injEq]
      exact ⟨.inl, fun h => h.elim id fun heq => heq ▸ hseen.1⟩
    · simp [eq_comm, or_comm]

theorem signatureOf_eq {value : Json F} {invoice : Invoice F}
    (h : readInvoice index value = .ok invoice) : signatureOf value = invoice.key := by
  rw [signatureOf, readInvoice_index h 0]

/-- A row is what the checks find, where the signatures before it were seen. -/
theorem Rows.checked (h : Rows c index seen values rows) {j : ℕ} {row : Row F}
    (hrow : rows[j]? = some row) : ∃ value, values[j]? = some value ∧ row.index = index + j ∧
      readInvoice (index + j) value = .ok row.invoice ∧
      ∃ seen', (∀ k, k ∈ seen' ↔ k ∈ seen ∨ some k ∈ (values.take j).map signatureOf) ∧
        checkInvoice c (index + j) value seen' = .ok (row.invoice.amount, row.findings) := by
  induction h generalizing j with
  | nil => cases hrow
  | @cons index seen value values invoice identity vendor price rows hinvoice hidentity hvendor
      hprice _ ih =>
    cases j with
    | zero =>
      cases hrow
      refine ⟨value, rfl, rfl, hinvoice, seen, fun k => by simp, ?_⟩
      exact except_bind_eq_ok.mpr ⟨_, hinvoice, except_bind_eq_ok.mpr ⟨_, hidentity,
        except_bind_eq_ok.mpr ⟨_, hvendor, except_bind_eq_ok.mpr ⟨_, hprice, rfl⟩⟩⟩⟩
    | succ j =>
      obtain ⟨value', hvalue', hindex, hread, seen', hseen', hchecked⟩ := ih hrow
      have hshift : index + 1 + j = index + (j + 1) := by omega
      rw [hshift] at hindex hread hchecked
      refine ⟨value', hvalue', hindex, hread, seen', fun k => ?_, hchecked⟩
      rw [hseen' k, mem_seenAfter, List.take_succ_cons, List.map_cons, List.mem_cons,
        signatureOf_eq hinvoice, or_assoc]
      simp only [eq_comm]

theorem Rows.amount_nonneg (h : Rows c index seen values rows) :
    ∀ row ∈ rows, 0 ≤ row.invoice.amount := by
  induction h with
  | nil => exact fun _ h => absurd h List.not_mem_nil
  | @cons index _ value _ invoice _ _ _ _ hinvoice _ _ _ _ ih =>
    refine List.forall_mem_cons.mpr ⟨?_, ih⟩
    cases value with
    | obj record =>
      obtain ⟨amount, hamount, hinvoice⟩ := except_bind_eq_ok.mp hinvoice
      cases hinvoice
      exact nonnegativeField_nonneg hamount
    | _ => cases hinvoice

/-! ### Recommendations -/

namespace Allocated

variable {remaining : ℚ} {findings : List (Finding F)} {grosses : List ℚ}
  {recommendations : List (Recommendation F)}

theorem grosses_nonneg (h : Allocated a remaining findings grosses recommendations) :
    ∀ g ∈ grosses, 0 ≤ g := by
  induction h with
  | nil => exact fun _ h => absurd h List.not_mem_nil
  | cons _ hnonneg _ _ ih => exact List.forall_mem_cons.mpr ⟨hnonneg, ih⟩

theorem filterMap_estimate (h : Allocated a remaining findings grosses recommendations) :
    findings.filterMap Finding.estimate = grosses := by
  induction h with
  | nil => rfl
  | cons hfinite _ _ _ ih =>
    rw [List.filterMap_cons, ih, Finding.estimate, hfinite]

theorem isEstimate (h : Allocated a remaining findings grosses recommendations)
    (hcents : ∀ finding ∈ findings, ∀ q, finding.gross = .finite q → IsCents q) :
    ∀ g ∈ grosses, IsEstimate g := by
  intro g hg
  refine ⟨h.grosses_nonneg g hg, ?_⟩
  have hmem : FloatVal.finite g ∈ findings.map Finding.gross := by
    rw [h.map_gross]
    exact List.mem_map_of_mem hg
  obtain ⟨finding, hfinding, hgross⟩ := List.mem_map.mp hmem
  exact hcents finding hfinding g hgross

/-- What is allocated and what overlaps make the estimate. -/
theorem overlap (h : Allocated a remaining findings grosses recommendations)
    (hcents : ∀ finding ∈ findings, ∀ q, finding.gross = .finite q → IsCents q)
    (hremaining : 0 ≤ remaining) : ∀ r ∈ recommendations,
      0 ≤ r.allocated ∧ IsCents r.allocated ∧ r.allocated + r.overlap = r.gross ∧
        0 ≤ r.overlap := by
  induction h with
  | nil => exact fun _ h => absurd h List.not_mem_nil
  | @cons remaining gross finding findings status grosses rest hfinite hnonneg _ _ ih =>
    obtain ⟨hfirst, hrest⟩ := List.forall_mem_cons.mp hcents
    have hgross : IsEstimate gross := ⟨hnonneg, hfirst gross hfinite⟩
    have hallocated : IsCents (cents (min gross remaining)) := isCents_cents _
    refine List.forall_mem_cons.mpr ⟨⟨cents_nonneg (le_min hnonneg hremaining), hallocated, ?_, ?_⟩,
      ih hrest (cents_nonneg (le_max_left _ _))⟩
    · show cents (min gross remaining) + cents (gross - cents (min gross remaining)) = cents gross
      rw [(hgross.2.sub hallocated).cents_eq, hgross.2.cents_eq]
      ring
    · exact cents_nonneg (sub_nonneg.mpr (cents_min_le hgross remaining))

end Allocated

section

variable {payload : List (Str × Json F)} {analysis : Analysis F} {invoices : List (Json F)}
  {parts : List (List (Recommendation F))}

/-- The findings of a group are findings of a row. -/
theorem Parts.group_of (h : Parts a payload analysis invoices c rows parts)
    {group : ℕ × List (Finding F)} (hgroup : group ∈ groupFindings (rows.flatMap Row.findings)) :
    ∀ finding ∈ group.2, finding.recordIndex = group.1 ∧
      ∀ q, finding.gross = .finite q → IsCents q := by
  intro finding hfinding
  rw [(Grouping.mem_group_iff.mp hgroup).1] at hfinding
  obtain ⟨hall, hindex⟩ := List.mem_filter.mp hfinding
  obtain ⟨row, hrow, hfinding⟩ := List.mem_flatMap.mp hall
  exact ⟨of_decide_eq_true hindex, (h.scanned.findings_of row hrow finding hfinding).gross⟩

theorem keyed_of_allocated {amounts : List ℚ} {groups : List (ℕ × List (Finding F))}
    (h : List.Forall₂ (AllocatedGroup a amounts) groups parts)
    (hgroups : ∀ group ∈ groups, ∀ finding ∈ group.2, finding.recordIndex = group.1) :
    Grouping.Keyed (fun r : Recommendation F => r.finding.recordIndex) groups parts := by
  induction h with
  | nil => exact .nil
  | cons hpart _ ih =>
    obtain ⟨hfirst, hrest⟩ := List.forall_mem_cons.mp hgroups
    obtain ⟨grosses, hpart⟩ := hpart
    refine .cons (fun r hr => hfirst _ ?_) (ih hrest)
    have hmem := List.mem_map_of_mem (f := Recommendation.finding) hr
    rw [hpart.map_finding] at hmem
    exact mem_sortedOn.mp hmem

theorem Parts.keyed (h : Parts a payload analysis invoices c rows parts) :
    Grouping.Keyed (fun r : Recommendation F => r.finding.recordIndex)
      (groupFindings (rows.flatMap Row.findings)) parts :=
  keyed_of_allocated h.allocated fun _ hgroup finding hfinding =>
    (h.group_of hgroup finding hfinding).1

/-- The recommendations for the findings of a row. -/
theorem Parts.allocatedRow (h : Parts a payload analysis invoices c rows parts) {row : Row F}
    (hrow : row ∈ rows) (hne : row.findings ≠ []) :
    AllocatedGroup a (rows.map fun row => row.invoice.amount) (row.index, row.findings)
      (analysis.recommendations.filter fun r => r.finding.recordIndex = row.index) := by
  have hgroup : (row.index, row.findings) ∈ groupFindings (rows.flatMap Row.findings) :=
    Grouping.mem_group_iff.mpr ⟨(h.scanned.filter_findings hrow).symm, hne⟩
  rw [h.recommendations]
  exact Grouping.filter_flatten h.allocated h.keyed (Grouping.nodup_keys_group _) hgroup

/-- The rows are at their indices. -/
theorem Parts.index_eq (h : Parts a payload analysis invoices c rows parts) {i : ℕ} {row : Row F}
    (hrow : rows[i]? = some row) : row.index = i := by
  obtain ⟨value, -, hindex, -⟩ := h.scanned.checked hrow
  rw [hindex, zero_add]

/-- No recommendation is for an invoice without findings. -/
theorem Parts.filter_eq_nil (h : Parts a payload analysis invoices c rows parts) {i : ℕ}
    (hnone : ∀ row ∈ rows, row.index = i → row.findings = []) :
    (analysis.recommendations.filter fun r => r.finding.recordIndex = i) = [] := by
  rw [h.recommendations]
  refine Grouping.filter_flatten_of_notMem h.keyed fun hkey => ?_
  obtain ⟨group, hgroup, rfl⟩ := List.mem_map.mp hkey
  obtain ⟨hfindings, hne⟩ := Grouping.mem_group_iff.mp hgroup
  obtain ⟨finding, hfinding⟩ := List.exists_mem_of_ne_nil _ hne
  have hindex := (h.group_of hgroup finding hfinding).1
  rw [hfindings] at hfinding
  obtain ⟨row, hrow, hfinding⟩ := List.mem_flatMap.mp (List.mem_filter.mp hfinding).1
  have hrowIndex := (h.scanned.findings_of row hrow finding hfinding).recordIndex
  rw [hnone row hrow (hrowIndex.symm.trans hindex)] at hfinding
  exact absurd hfinding List.not_mem_nil

/-- What is recovered from an invoice is what the estimates get of its
amount. -/
theorem Parts.allocatedAt_eq (h : Parts a payload analysis invoices c rows parts) {i : ℕ}
    {row : Row F} (hrow : rows[i]? = some row) :
    analysis.allocatedAt i = (allocate (estimates row.findings) row.invoice.amount).sum ∧
      ∀ g ∈ estimates row.findings, IsEstimate g := by
  have hmem := List.mem_of_getElem? hrow
  have hindex := h.index_eq hrow
  by_cases hne : row.findings = []
  · have hnone : (analysis.recommendations.filter fun r => r.finding.recordIndex = i) = [] := by
      refine h.filter_eq_nil fun other hother heq => ?_
      have hsame := h.scanned.filter_findings hother
      rw [heq, ← hindex, h.scanned.filter_findings hmem, hne] at hsame
      exact hsame.symm
    rw [Analysis.allocatedAt, hnone, hne]
    exact ⟨rfl, fun _ h => absurd h List.not_mem_nil⟩
  · obtain ⟨grosses, hallocated⟩ := h.allocatedRow hmem hne
    have hamount : (rows.map fun row => row.invoice.amount).getD row.index 0 =
        row.invoice.amount := by
      rw [hindex, List.getD_eq_getElem?_getD, List.getElem?_map, hrow]
      rfl
    have hestimates : estimates row.findings = grosses := hallocated.filterMap_estimate
    rw [hamount] at hallocated
    refine ⟨?_, ?_⟩
    · rw [Analysis.allocatedAt, ← hindex, hallocated.map_allocated, hestimates]
    · rw [hestimates]
      refine hallocated.isEstimate fun finding hfinding => ?_
      have hfinding := mem_sortedOn.mp hfinding
      exact (h.scanned.findings_of row hmem finding hfinding).gross

/-! ### The invoices of a payload -/

theorem mem_earlier {i : ℕ} {k : Signature} :
    k ∈ earlier payload i ↔ some k ∈ ((invoicesOf payload).take i).map signatureOf := by
  rw [earlier, List.reduceOption_mem_iff, signatures, List.map_take]

/-- The checks of an invoice find its row. -/
theorem Parts.checkedAt_eq (h : Parts a payload analysis invoices c rows parts) {i : ℕ}
    {row : Row F} (hrow : rows[i]? = some row) :
    checkedAt a payload i = .ok (row.invoice.amount, row.findings) ∧
      amountAt payload i = some row.invoice.amount := by
  obtain ⟨value, hvalue, -, hread, seen', hseen', hchecked⟩ := h.scanned.checked hrow
  rw [zero_add] at hread hchecked
  have hinvoices := (readChecks_eq_ok h.read).1
  have hget : invoices.getD i .null = value := by
    rw [List.getD_eq_getElem?_getD, hvalue, Option.getD_some]
  have hsame : ∀ k, k ∈ earlier payload i ↔ k ∈ seen' := by
    intro k
    rw [mem_earlier, hinvoices, hseen' k]
    exact (or_iff_right List.not_mem_nil).symm
  refine ⟨except_bind_eq_ok.mpr ⟨_, h.read, ?_⟩, ?_⟩
  · rw [hget, checkInvoice_congr hsame]
    exact hchecked
  · rw [amountAt, hinvoices, hget, hread]

/-- There is nothing beyond the rows. -/
theorem Parts.beyond (h : Parts a payload analysis invoices c rows parts) {i : ℕ}
    (hrow : rows[i]? = none) :
    (∀ checked, checkedAt a payload i ≠ .ok checked) ∧ amountAt payload i = none := by
  have hlength := h.scanned.length_eq
  have hnull : invoices.getD i .null = .null := by
    rw [List.getD_eq_getElem?_getD, List.getElem?_eq_none, Option.getD_none]
    rw [← hlength]
    exact List.getElem?_eq_none_iff.mp hrow
  refine ⟨fun checked hok => ?_, ?_⟩
  · obtain ⟨read, hread, hok⟩ := except_bind_eq_ok.mp hok
    rw [h.read] at hread
    cases hread
    rw [hnull] at hok
    cases hok
  · rw [amountAt, (readChecks_eq_ok h.read).1, hnull]
    rfl

/-- An invoice recovers no more than its amount, exactly when its estimates
fit. -/
theorem Parts.allocatedAt_le_iff (h : Parts a payload analysis invoices c rows parts) (i : ℕ) :
    (∀ amount, amountAt payload i = some amount → analysis.allocatedAt i ≤ amount) ↔
      FitsAt a payload i := by
  cases hrow : rows[i]? with
  | none =>
    obtain ⟨hnone, hamount⟩ := h.beyond hrow
    refine iff_of_true (fun amount hsome => ?_) fun amount findings hok => ?_
    · rw [hamount] at hsome
      cases hsome
    · exact absurd hok (hnone _)
  | some row =>
    obtain ⟨hchecked, hamount⟩ := h.checkedAt_eq hrow
    obtain ⟨hallocated, hestimates⟩ := h.allocatedAt_eq hrow
    have hnonneg := h.scanned.amount_nonneg row (List.mem_of_getElem? hrow)
    have hiff := allocate_sum_le_iff hestimates hnonneg
    rw [← hallocated] at hiff
    constructor
    · intro hle amount findings hok
      rw [hchecked] at hok
      cases hok
      exact hiff.mp (hle _ hamount)
    · intro hfits amount hsome
      rw [hamount] at hsome
      cases hsome
      exact hiff.mpr (hfits _ _ hchecked)

/-! ### All invoices -/

omit [PyAmounts F] in
/-- What is recommended, invoice after invoice. -/
theorem sum_allocatedAt {n : ℕ} (h : ∀ r ∈ analysis.recommendations, r.finding.recordIndex < n) :
    (analysis.recommendations.map Recommendation.allocated).sum =
      ∑ i ∈ Finset.range n, analysis.allocatedAt i := by
  unfold Analysis.allocatedAt
  generalize analysis.recommendations = recommendations at h ⊢
  induction recommendations with
  | nil => simp
  | cons r rest ih =>
    obtain ⟨hr, hrest⟩ := List.forall_mem_cons.mp h
    have hterm : ∀ i, (((r :: rest).filter fun r => r.finding.recordIndex = i).map
        Recommendation.allocated).sum = (if r.finding.recordIndex = i then r.allocated else 0) +
          ((rest.filter fun r => r.finding.recordIndex = i).map Recommendation.allocated).sum := by
      intro i
      by_cases hi : r.finding.recordIndex = i
      · rw [List.filter_cons_of_pos (by simpa using hi), if_pos hi, List.map_cons, List.sum_cons]
      · rw [List.filter_cons_of_neg (by simpa using hi), if_neg hi, zero_add]
    rw [List.map_cons, List.sum_cons, ih hrest]
    simp only [hterm]
    rw [Finset.sum_add_distrib, Finset.sum_ite_eq, if_pos (Finset.mem_range.mpr hr)]

omit [PyAmounts F] in
theorem sum_amounts (rows : List (Row F)) : (rows.map fun row => row.invoice.amount).sum =
    ∑ i ∈ Finset.range rows.length, (rows[i]?.map fun row => row.invoice.amount).getD 0 := by
  induction rows with
  | nil => rfl
  | cons row rows ih =>
    rw [List.map_cons, List.sum_cons, ih, List.length_cons, Finset.sum_range_succ', add_comm]
    rfl

theorem Parts.recordIndex_lt (h : Parts a payload analysis invoices c rows parts) :
    ∀ r ∈ analysis.recommendations, r.finding.recordIndex < rows.length := by
  intro r hr
  have hmem : r.finding ∈ rows.flatMap Row.findings :=
    h.findings_perm.mem_iff.mp (List.mem_map_of_mem hr)
  obtain ⟨row, hrow, hfinding⟩ := List.mem_flatMap.mp hmem
  rw [(h.scanned.findings_of row hrow _ hfinding).recordIndex]
  have hindex : row.index ∈ rows.map Row.index := List.mem_map_of_mem hrow
  rw [h.scanned.index_eq, List.mem_range'_1, zero_add] at hindex
  exact hindex.2

/-- Each recommendation is allocated whole cents, and its overlap is the
difference. -/
theorem Parts.recommendation (h : Parts a payload analysis invoices c rows parts) :
    ∀ r ∈ analysis.recommendations, 0 ≤ r.allocated ∧ IsCents r.allocated ∧
      r.allocated + r.overlap = r.gross ∧ 0 ≤ r.overlap := by
  intro r hr
  have hmem : r.finding ∈ rows.flatMap Row.findings :=
    h.findings_perm.mem_iff.mp (List.mem_map_of_mem hr)
  obtain ⟨row, hrow, hfinding⟩ := List.mem_flatMap.mp hmem
  obtain ⟨grosses, hallocated⟩ := h.allocatedRow hrow (List.ne_nil_of_mem hfinding)
  have hof := h.scanned.findings_of row hrow
  refine hallocated.overlap (fun finding hfinding => (hof finding (mem_sortedOn.mp hfinding)).gross)
    ?_ r (List.mem_filter.mpr ⟨hr, decide_eq_true (hof _ hfinding).recordIndex⟩)
  have hnonneg : ∀ q ∈ rows.map fun row => row.invoice.amount, 0 ≤ q :=
    List.forall_mem_map.mpr h.scanned.amount_nonneg
  rw [List.getD_eq_getElem?_getD]
  cases hget : (rows.map fun row => row.invoice.amount)[row.index]? with
  | none => exact le_rfl
  | some q => exact hnonneg q (List.mem_of_getElem? hget)

/-- What is recovered in all is at most what all invoices come to. -/
theorem Parts.total_le (h : Parts a payload analysis invoices c rows parts)
    (hfits : ∀ i, FitsAt a payload i) :
    (analysis.recommendations.map Recommendation.allocated).sum ≤ analysis.totalInvoiceValue := by
  have hcents : IsCents (analysis.recommendations.map Recommendation.allocated).sum :=
    IsCents.sum (List.forall_mem_map.mpr fun r hr => (h.recommendation r hr).2.1)
  have hle : (analysis.recommendations.map Recommendation.allocated).sum ≤
      (rows.map fun row => row.invoice.amount).sum := by
    rw [sum_allocatedAt h.recordIndex_lt, sum_amounts]
    refine Finset.sum_le_sum fun i hi => ?_
    obtain ⟨row, hrow⟩ : ∃ row, rows[i]? = some row :=
      ⟨_, List.getElem?_eq_getElem (Finset.mem_range.mp hi)⟩
    rw [hrow]
    exact (h.allocatedAt_le_iff i).mpr (hfits i) _ (h.checkedAt_eq hrow).2
  rw [h.totalInvoiceValue, ← hcents.cents_eq]
  exact cents_mono hle

end

/-- An analysis is bounded by the invoices, exactly when the estimates for each
invoice fit in its amount. -/
theorem bounded_iff {payload : List (Str × Json F)} {analysis : Analysis F}
    (h : analyze a (.obj payload) = .ok analysis) :
    analysis.Bounded payload ↔ ∀ i, FitsAt a payload i := by
  obtain ⟨invoices, c, rows, parts, hparts⟩ := analyze_eq_ok h
  constructor
  · intro hbounded i
    exact (hparts.allocatedAt_le_iff i).mp (hbounded.invoice i)
  · intro hfits
    have hcents : IsCents (analysis.recommendations.map Recommendation.allocated).sum :=
      IsCents.sum (List.forall_mem_map.mpr fun r hr => (hparts.recommendation r hr).2.1)
    have htotal : analysis.estTotalRecoverable =
        (analysis.recommendations.map Recommendation.allocated).sum := by
      rw [hparts.estTotalRecoverable, hcents.cents_eq, min_eq_left (hparts.total_le hfits)]
    refine ⟨fun i => (hparts.allocatedAt_le_iff i).mpr (hfits i),
      fun r hr => (hparts.recommendation r hr).1,
      fun r hr => (hparts.recommendation r hr).2.2, htotal, ?_⟩
    rw [htotal]
    exact hparts.total_le hfits

theorem twice_bounded_iff :
    twiceAnalysis.Bounded twice ↔ ∀ i, FitsAt plainSettings twice i := bounded_iff analyze_twice

/-- An invoice of 2000.0078125 recovers 2000.01, under the default
multipliers. -/
theorem uneven_exceeds : analyze plainSettings (.obj twice) = .ok twiceAnalysis ∧
    twiceAnalysis.allocatedAt 1 = 200001 / 100 ∧ amountAt twice 1 = some (256001 / 128) ∧
      ¬ twiceAnalysis.Bounded twice := by
  have hallocated : twiceAnalysis.allocatedAt 1 = 200001 / 100 := by
    show (200001 / 100 + 0 : ℚ) = 200001 / 100
    exact add_zero _
  have hamount : amountAt twice 1 = some (256001 / 128) := by
    have hget : (invoicesOf twice).getD 1 .null = .obj unevenInvoice := rfl
    rw [amountAt, hget, readInvoice_uneven]
    rfl
  refine ⟨analyze_twice, hallocated, hamount, fun hbounded => ?_⟩
  have hle := hbounded.invoice 1 _ hamount
  rw [hallocated] at hle
  norm_num at hle

/-- Amounts in whole cents always fit. -/
theorem fitsAt_of_isCents {payload : List (Str × Json F)} {analysis : Analysis F}
    (h : analyze a (.obj payload) = .ok analysis) {i : ℕ}
    (hcents : ∀ amount, amountAt payload i = some amount → IsCents amount) :
    FitsAt a payload i := by
  obtain ⟨invoices, c, rows, parts, hparts⟩ := analyze_eq_ok h
  intro amount findings hok
  cases hrow : rows[i]? with
  | none => exact absurd hok ((hparts.beyond hrow).1 _)
  | some row =>
    obtain ⟨hchecked, hamount⟩ := hparts.checkedAt_eq hrow
    rw [hchecked] at hok
    cases hok
    exact fits_of_isCents (hparts.allocatedAt_eq hrow).2 (hcents _ hamount)

end ProcurementLeakageAnalyzer

end AgentRoi
