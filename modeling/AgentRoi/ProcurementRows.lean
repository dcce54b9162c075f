/-
What the loop of `ProcurementLeakageAnalyzer.analyze` makes of each invoice.

* `Row`, `Rows` — the findings of each invoice, with what was read of it;
* `scan_eq_ok` — the loop collects the findings of such rows;
* `findings_at`, `recommendations_perm` — the findings of an invoice are those
  of its row, and each becomes one recommendation;
* `analyze_eq_ok` — an analysis, taken apart.
-/
import AgentRoi.ProcurementAnalyzer

namespace AgentRoi

namespace ProcurementLeakageAnalyzer

variable {F : Type} [PyAmounts F] {c : Checks F} {a : AnalyzerSettings F} {index : ℕ}
  {values : List (Json F)} {seen : List Signature}

/-! ### Rows -/

structure Row (F : Type) where
  index : ℕ
  invoice : Invoice F
  identity : List (Finding F)
  others : List (Finding F)

omit [PyAmounts F] in
def Row.findings (row : Row F) : List (Finding F) := row.identity ++ row.others

/-- The invoices from `index` on, where the signatures in `seen` were there
before. -/
inductive Rows (c : Checks F) : ℕ → List Signature → List (Json F) → List (Row F) → Prop
  | nil {index : ℕ} {seen : List Signature} : Rows c index seen [] []
  | cons {index : ℕ} {seen : List Signature} {value : Json F} {values : List (Json F)}
      {invoice : Invoice F} {identity vendor price : List (Finding F)} {rows : List (Row F)} :
      readInvoice index value = .ok invoice →
      identityFindings c.settings c.duplicateAmount index invoice seen = .ok identity →
      vendorFindings c.settings c.approved index invoice = .ok vendor →
      priceFindings c.settings c.baselinePrices index invoice = .ok price →
      Rows c (index + 1) (seenAfter c.duplicateAmount invoice seen) values rows →
      Rows c index seen (value :: values) (⟨index, invoice, identity, vendor ++ price⟩ :: rows)

/-- What the loop leaves. -/
theorem scan_eq_ok {s s' : Scan F} (h : scan c index values s = .ok s') :
    ∃ rows, Rows c index s.seen values rows ∧
      s'.findings = s.findings ++ rows.flatMap Row.findings ∧
      s'.amounts = s.amounts ++ rows.map fun row => row.invoice.amount := by
  induction values generalizing index s with
  | nil =>
    cases h
    exact ⟨[], .nil, (List.append_nil _).symm, (List.append_nil _).symm⟩
  | cons value values ih =>
    obtain ⟨s₁, hfirst, hrest⟩ := except_bind_eq_ok.mp h
    obtain ⟨invoice, hinvoice, hfirst⟩ := except_bind_eq_ok.mp hfirst
    obtain ⟨identity, hidentity, hfirst⟩ := except_bind_eq_ok.mp hfirst
    obtain ⟨vendor, hvendor, hfirst⟩ := except_bind_eq_ok.mp hfirst
    obtain ⟨price, hprice, hfirst⟩ := except_bind_eq_ok.mp hfirst
    cases hfirst
    obtain ⟨rows, hrows, hfindings, hamounts⟩ := ih hrest
    refine ⟨_, .cons hinvoice hidentity hvendor hprice hrows, ?_, ?_⟩
    · rw [hfindings, List.flatMap_cons, List.append_assoc]
      rfl
    · rw [hamounts, List.map_cons, List.append_assoc]
      rfl

namespace Rows

theorem length_eq {rows : List (Row F)} (h : Rows c index seen values rows) :
    rows.length = values.length := by
  induction h with
  | nil => rfl
  | cons _ _ _ _ _ ih => exact congrArg (· + 1) ih

/-- The rows are numbered. -/
theorem index_eq {rows : List (Row F)} (h : Rows c index seen values rows) :
    rows.map Row.index = List.range' index rows.length := by
  induction h with
  | nil => rfl
  | cons _ _ _ _ _ ih => rw [List.map_cons, ih, List.length_cons, List.range'_succ]

end Rows

/-! ### Findings of a row -/

/-- The finding is of the invoice, and asks for whole cents. -/
structure Finding.Of (finding : Finding F) (index : ℕ) (record : List (Str × Json F)) : Prop where
  recordIndex : finding.recordIndex = index
  record : finding.record = record
  gross : ∀ q, finding.gross = .finite q → IsCents q
  risk : finding.risk = lit "med" ∨ finding.risk = lit "high"

omit [PyAmounts F] in
theorem roundedTimes_isCents {q r : ℚ} {factor : FloatVal ℚ}
    (h : roundedTimes q factor = .finite r) : IsCents r := by
  unfold roundedTimes at h
  split at h
  · cases h
    exact isCents_cents _
  · cases h
  · split at h <;> cases h
  · split at h <;> cases h

omit [PyAmounts F] in
theorem zero_isCents (q : ℚ) (h : (FloatVal.finite 0 : FloatVal ℚ) = .finite q) : IsCents q := by
  cases h
  exact isCents_zero

omit [PyAmounts F] in
theorem forall_nil (P : Finding F → Prop) : ∀ finding ∈ ([] : List (Finding F)), P finding :=
  fun _ h => absurd h List.not_mem_nil

theorem identityFindings_of {duplicateAmount : FloatVal ℚ} {invoice : Invoice F}
    {findings : List (Finding F)}
    (h : identityFindings a duplicateAmount index invoice seen = .ok findings) :
    ∀ finding ∈ findings, finding.Of index invoice.record := by
  unfold identityFindings at h
  split at h
  · cases h
    exact List.forall_mem_singleton.mpr ⟨rfl, rfl, zero_isCents, .inl rfl⟩
  · split at h
    · obtain ⟨multiplier, -, h⟩ := except_bind_eq_ok.mp h
      cases h
      exact List.forall_mem_singleton.mpr ⟨rfl, rfl, fun _ => roundedTimes_isCents, .inr rfl⟩
    · cases h
      exact forall_nil _

theorem vendorFindings_of {approved : List Str} {invoice : Invoice F}
    {findings : List (Finding F)} (h : vendorFindings a approved index invoice = .ok findings) :
    ∀ finding ∈ findings, finding.Of index invoice.record ∧
      finding.action = lit "unapproved_vendor" := by
  obtain ⟨threshold, -, h⟩ := except_bind_eq_ok.mp h
  obtain ⟨alwaysFlag, -, h⟩ := except_bind_eq_ok.mp h
  split at h
  · obtain ⟨multiplier, -, h⟩ := except_bind_eq_ok.mp h
    cases h
    exact List.forall_mem_singleton.mpr ⟨⟨rfl, rfl, fun _ => roundedTimes_isCents, .inl rfl⟩, rfl⟩
  · cases h
    exact forall_nil _

theorem comparePrice_of {invoice : Invoice F} {sku : Str} {baselinePrice : Json F} {quantity : ℚ}
    {findings : List (Finding F)}
    (h : comparePrice a index invoice sku baselinePrice quantity = .ok findings) :
    ∀ finding ∈ findings, finding.Of index invoice.record ∧
      finding.action = lit "price_variance" := by
  obtain ⟨baseline, -, h⟩ := except_bind_eq_ok.mp h
  obtain ⟨unitPrice, -, h⟩ := except_bind_eq_ok.mp h
  obtain ⟨threshold, -, h⟩ := except_bind_eq_ok.mp h
  split at h
  · obtain ⟨multiplier, -, h⟩ := except_bind_eq_ok.mp h
    cases h
    exact List.forall_mem_singleton.mpr ⟨⟨rfl, rfl, fun _ => roundedTimes_isCents, .inr rfl⟩, rfl⟩
  · cases h
    exact forall_nil _

theorem priceFindings_of {baselinePrices : List (Str × Json F)} {invoice : Invoice F}
    {findings : List (Finding F)}
    (h : priceFindings a baselinePrices index invoice = .ok findings) :
    ∀ finding ∈ findings, finding.Of index invoice.record ∧
      finding.action = lit "price_variance" := by
  obtain ⟨quantity, -, h⟩ := except_bind_eq_ok.mp h
  split at h
  · split at h
    · split at h
      · exact comparePrice_of h
      · cases h
        exact forall_nil _
    · cases h
      exact forall_nil _
  · cases h
  · cases h
  · cases h
    exact forall_nil _

/-- Each finding of a row is of its invoice. -/
theorem Rows.findings_of {rows : List (Row F)} (h : Rows c index seen values rows) :
    ∀ row ∈ rows, ∀ finding ∈ row.findings, finding.Of row.index row.invoice.record := by
  induction h with
  | nil => exact fun _ h => absurd h List.not_mem_nil
  | cons _ hidentity hvendor hprice _ ih =>
    refine List.forall_mem_cons.mpr ⟨fun finding hfinding => ?_, ih⟩
    rcases List.mem_append.mp hfinding with hfinding | hfinding
    · exact identityFindings_of hidentity finding hfinding
    · rcases List.mem_append.mp hfinding with hfinding | hfinding
      · exact (vendorFindings_of hvendor finding hfinding).1
      · exact (priceFindings_of hprice finding hfinding).1

/-- Of all findings, those of one invoice. -/
theorem Rows.filter_findings {rows : List (Row F)} (h : Rows c index seen values rows)
    {row : Row F} (hrow : row ∈ rows) :
    (rows.flatMap Row.findings).filter (fun finding => finding.recordIndex = row.index) =
      row.findings := by
  have hnodup : (rows.map Row.index).Nodup := by
    rw [h.index_eq]
    exact List.nodup_range'
  have hof : ∀ row ∈ rows, ∀ finding ∈ row.findings, finding.recordIndex = row.index :=
    fun row hrow finding hfinding => (h.findings_of row hrow finding hfinding).recordIndex
  clear h
  induction rows with
  | nil => exact absurd hrow List.not_mem_nil
  | cons first rows ih =>
    rw [List.map_cons, List.nodup_cons] at hnodup
    obtain ⟨hfirst, hrows⟩ := List.forall_mem_cons.mp hof
    rw [List.flatMap_cons, List.filter_append]
    rcases List.mem_cons.mp hrow with rfl | hrow
    · have hrest : (rows.flatMap Row.findings).filter
          (fun finding => finding.recordIndex = row.index) = [] := by
        refine List.filter_eq_nil_iff.mpr fun finding hfinding => ?_
        obtain ⟨other, hother, hfinding⟩ := List.mem_flatMap.mp hfinding
        rw [hrows other hother finding hfinding, decide_eq_true_eq]
        exact fun heq => hnodup.1 (heq ▸ List.mem_map_of_mem hother)
      rw [hrest, List.append_nil]
      exact List.filter_eq_self.mpr fun finding hfinding => decide_eq_true (hfirst finding hfinding)
    · have hnone : first.findings.filter (fun finding => finding.recordIndex = row.index) = [] := by
        refine List.filter_eq_nil_iff.mpr fun finding hfinding => ?_
        rw [hfirst finding hfinding, decide_eq_true_eq]
        exact fun heq => hnodup.1 (heq ▸ List.mem_map_of_mem hrow)
      rw [hnone, List.nil_append]
      exact ih hrow hnodup.2 hrows

/-! ### Recommendations -/

/-- The recommendations for one invoice, of which `remaining` is left. -/
inductive Allocated (a : AnalyzerSettings F) :
    ℚ → List (Finding F) → List ℚ → List (Recommendation F) → Prop
  | nil {remaining : ℚ} : Allocated a remaining [] [] []
  | cons {remaining gross : ℚ} {finding : Finding F} {findings : List (Finding F)} {status : Str}
      {grosses : List ℚ} {rest : List (Recommendation F)} :
      finding.gross = .finite gross → 0 ≤ gross →
      approvalStatus a finding.record finding.risk = .ok status →
      Allocated a (cents (max 0 (remaining - cents (min gross remaining)))) findings grosses rest →
      Allocated a remaining (finding :: findings) (gross :: grosses)
        (recommend finding status gross (cents (min gross remaining)) :: rest)

theorem allocateGroup_eq_ok {remaining : ℚ} {findings : List (Finding F)}
    {recommendations : List (Recommendation F)}
    (h : allocateGroup a remaining findings = .ok recommendations) :
    ∃ grosses, Allocated a remaining findings grosses recommendations := by
  induction findings generalizing remaining recommendations with
  | nil =>
    cases h
    exact ⟨[], .nil⟩
  | cons finding findings ih =>
    obtain ⟨gross, hgross, h⟩ := except_bind_eq_ok.mp h
    obtain ⟨status, hstatus, h⟩ := except_bind_eq_ok.mp h
    obtain ⟨rest, hrest, h⟩ := except_bind_eq_ok.mp h
    cases h
    obtain ⟨hfinite, hnonneg⟩ := checkNonnegative_eq_ok.mp hgross
    obtain ⟨grosses, hrest⟩ := ih hrest
    exact ⟨_, .cons hfinite hnonneg hstatus hrest⟩

namespace Allocated

variable {remaining : ℚ} {findings : List (Finding F)} {grosses : List ℚ}
  {recommendations : List (Recommendation F)}

theorem map_finding (h : Allocated a remaining findings grosses recommendations) :
    recommendations.map Recommendation.finding = findings := by
  induction h with
  | nil => rfl
  | cons _ _ _ _ ih => exact congrArg (_ :: ·) ih

theorem map_gross (h : Allocated a remaining findings grosses recommendations) :
    findings.map Finding.gross = grosses.map FloatVal.finite := by
  induction h with
  | nil => rfl
  | cons hfinite _ _ _ ih => rw [List.map_cons, List.map_cons, hfinite, ih]

theorem map_allocated (h : Allocated a remaining findings grosses recommendations) :
    recommendations.map Recommendation.allocated = allocate grosses remaining := by
  induction h with
  | nil => rfl
  | cons _ _ _ _ ih => rw [List.map_cons, ih, allocate, recommend]

theorem status (h : Allocated a remaining findings grosses recommendations) :
    ∀ r ∈ recommendations,
      approvalStatus a r.finding.record r.finding.risk = .ok r.approvalStatus := by
  induction h with
  | nil => exact fun _ h => absurd h List.not_mem_nil
  | cons _ _ hstatus _ ih => exact List.forall_mem_cons.mpr ⟨hstatus, ih⟩

end Allocated

/-- The recommendations for each group. -/
def AllocatedGroup (a : AnalyzerSettings F) (amounts : List ℚ) (group : ℕ × List (Finding F))
    (recommendations : List (Recommendation F)) : Prop :=
  ∃ grosses, Allocated a (amounts.getD group.1 0) (sortedOn Finding.rank group.2) grosses
    recommendations

theorem allocateGroups_eq_ok {amounts : List ℚ} {groups : List (ℕ × List (Finding F))}
    {recommendations : List (Recommendation F)}
    (h : allocateGroups a amounts groups = .ok recommendations) :
    ∃ parts, List.Forall₂ (AllocatedGroup a amounts) groups parts ∧
      recommendations = parts.flatten := by
  induction groups generalizing recommendations with
  | nil =>
    cases h
    exact ⟨[], .nil, rfl⟩
  | cons group groups ih =>
    obtain ⟨first, hfirst, h⟩ := except_bind_eq_ok.mp h
    obtain ⟨rest, hrest, h⟩ := except_bind_eq_ok.mp h
    cases h
    obtain ⟨parts, hparts, rfl⟩ := ih hrest
    exact ⟨first :: parts, .cons (allocateGroup_eq_ok hfirst) hparts, rfl⟩

/-- Each finding becomes a recommendation. -/
theorem map_finding_perm {amounts : List ℚ} {groups : List (ℕ × List (Finding F))}
    {parts : List (List (Recommendation F))}
    (h : List.Forall₂ (AllocatedGroup a amounts) groups parts) :
    (parts.flatten.map Recommendation.finding).Perm (groups.flatMap Prod.snd) := by
  induction h with
  | nil => exact .refl _
  | cons hgroup _ ih =>
    obtain ⟨grosses, hgroup⟩ := hgroup
    rw [List.flatten_cons, List.map_append, List.flatMap_cons, hgroup.map_finding]
    exact (sortedOn_perm _ _).append ih

/-- Each recommendation has the approval it needs. -/
theorem forall_status {amounts : List ℚ} {groups : List (ℕ × List (Finding F))}
    {parts : List (List (Recommendation F))}
    (h : List.Forall₂ (AllocatedGroup a amounts) groups parts) : ∀ r ∈ parts.flatten,
      approvalStatus a r.finding.record r.finding.risk = .ok r.approvalStatus := by
  induction h with
  | nil => exact fun _ h => absurd h List.not_mem_nil
  | cons hgroup _ ih =>
    obtain ⟨grosses, hgroup⟩ := hgroup
    exact List.forall_mem_append.mpr ⟨hgroup.status, ih⟩

/-! ### An analysis -/

/-- What an analysis is made of. -/
structure Parts (a : AnalyzerSettings F) (payload : List (Str × Json F)) (analysis : Analysis F)
    (invoices : List (Json F)) (c : Checks F) (rows : List (Row F))
    (parts : List (List (Recommendation F))) : Prop where
  read : readChecks a payload = .ok (invoices, c)
  scanned : Rows c 0 [] invoices rows
  allocated : List.Forall₂ (AllocatedGroup a (rows.map fun row => row.invoice.amount))
    (groupFindings (rows.flatMap Row.findings)) parts
  recommendations : analysis.recommendations = parts.flatten
  totalInvoiceValue : analysis.totalInvoiceValue =
    cents (rows.map fun row => row.invoice.amount).sum
  estTotalRecoverable : analysis.estTotalRecoverable =
    min (cents (analysis.recommendations.map Recommendation.allocated).sum)
      analysis.totalInvoiceValue

theorem analyze_eq_ok {payload : List (Str × Json F)} {analysis : Analysis F}
    (h : analyze a (.obj payload) = .ok analysis) :
    ∃ invoices c rows parts, Parts a payload analysis invoices c rows parts := by
  obtain ⟨read, hread, h⟩ := except_bind_eq_ok.mp h
  obtain ⟨s, hscan, h⟩ := except_bind_eq_ok.mp h
  obtain ⟨recommendations, hallocated, h⟩ := except_bind_eq_ok.mp h
  cases h
  obtain ⟨rows, hrows, hfindings, hamounts⟩ := scan_eq_ok hscan
  replace hfindings : s.findings = rows.flatMap Row.findings := hfindings
  replace hamounts : s.amounts = rows.map fun row => row.invoice.amount := hamounts
  rw [hfindings, hamounts] at hallocated
  obtain ⟨parts, hparts, rfl⟩ := allocateGroups_eq_ok hallocated
  refine ⟨read.1, read.2, rows, parts, hread, hrows, hparts, rfl, ?_, rfl⟩
  rw [← hamounts]
  rfl

/-- The recommendations are made from the findings, each once. -/
theorem Parts.findings_perm {payload : List (Str × Json F)} {analysis : Analysis F}
    {invoices : List (Json F)} {rows : List (Row F)} {parts : List (List (Recommendation F))}
    (h : Parts a payload analysis invoices c rows parts) :
    (analysis.recommendations.map Recommendation.finding).Perm (rows.flatMap Row.findings) := by
  rw [h.recommendations]
  exact (map_finding_perm h.allocated).trans (Grouping.flatMap_group_perm _)

theorem Parts.status {payload : List (Str × Json F)} {analysis : Analysis F}
    {invoices : List (Json F)} {rows : List (Row F)} {parts : List (List (Recommendation F))}
    (h : Parts a payload analysis invoices c rows parts) : ∀ r ∈ analysis.recommendations,
      approvalStatus a r.finding.record r.finding.risk = .ok r.approvalStatus := by
  rw [h.recommendations]
  exact forall_status h.allocated

end ProcurementLeakageAnalyzer

end AgentRoi
