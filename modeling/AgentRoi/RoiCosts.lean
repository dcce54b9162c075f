/-
Which costs the summaries count.

* `countedCosts`, `summaryCosts` — the rows whose amounts a summary sums up to
  its total cost;
* `CostsFollow` — a cost has an upper-case currency, and its opportunity is
  one of its organization;
* `selectCurrency_nil`, `mem_summaryCosts` — what is selected, and counted;
* `OwnCurrency`, `costs_counted_iff` — when no cost escapes.
-/
import AgentRoi.RoiSummary

namespace AgentRoi

open RowTable

variable {F V T : Type}

/-- The rows that `costCents` sums up. -/
def countedCosts (agentId : Str) (ids : List Str) (costs : List (CostRow T)) : List (CostRow T) :=
  costs.filter fun row => (agentId = [] || row.agentId = agentId) &&
    row.opportunityId.all fun id => id = [] || id ∈ ids

theorem costCents_eq {agentId : Str} {ids : List Str} {costs : List (CostRow T)} :
    costCents agentId ids costs = ((countedCosts agentId ids costs).map CostRow.amountCents).sum :=
  rfl

namespace RoiTables

variable {t t' : RoiTables F V T} {organizationId : Str}

def opportunitiesOf (t : RoiTables F V T) (organizationId : Str) : List (OpportunityRow F V T) :=
  t.opportunities.filter fun row => row.organizationId = organizationId

def costsOf (t : RoiTables F V T) (organizationId : Str) : List (CostRow T) :=
  t.costs.filter fun row => row.organizationId = organizationId

/-- The currencies of an organization's opportunities and costs. -/
def currencies (t : RoiTables F V T) (organizationId : Str) : List Str :=
  (t.opportunitiesOf organizationId).map OpportunityRow.currencyCode ++
    (t.costsOf organizationId).map CostRow.currencyCode

/-- A cost is in the currency of its opportunity, and in some currency. -/
def TiedCurrency (t : RoiTables F V T) (cost : CostRow T) : Prop :=
  cost.currencyCode ≠ [] ∧ ∀ id row, cost.opportunityId = some id → t.opportunity id = some row →
    row.currencyCode = cost.currencyCode

/-- The costs of an organization are in the currencies of their opportunities;
and if all its opportunities are in one currency, all its costs are, or in
dollars if it has no opportunities. -/
def OwnCurrency (t : RoiTables F V T) (organizationId : Str) : Prop :=
  (∀ cost ∈ t.costsOf organizationId, t.TiedCurrency cost) ∧
    ((∀ row ∈ t.opportunitiesOf organizationId, ∀ row' ∈ t.opportunitiesOf organizationId,
        row.currencyCode = row'.currencyCode) →
      ∀ cost ∈ t.costsOf organizationId,
        (∀ row ∈ t.opportunitiesOf organizationId, cost.currencyCode = row.currencyCode) ∧
        (t.opportunitiesOf organizationId = [] → cost.currencyCode = lit "USD"))

end RoiTables

namespace RoiStore

open RoiTables

section

variable [LE T] {store : RoiStore F V T} {t t' : RoiTables F V T}
  {organizationId agentId currencyCode : Str}

variable (store) in
/-- The costs that `portfolio_summary` counts, if it selects a currency. -/
def summaryCosts (t : RoiTables F V T) (organizationId currencyCode agentId : Str) :
    Option (List (CostRow T)) :=
  let listed := store.listing t organizationId agentId
  match store.selectCurrency currencyCode (listed.map OpportunityRow.currencyCode) with
  | .ok selected =>
    let ids := (listed.filter fun row => row.currencyCode = selected).map
      OpportunityRow.opportunityId
    some (countedCosts agentId ids (t.costs.filter fun row =>
      (row.organizationId, row.currencyCode) = (organizationId, selected)))
  | .error _ => none

variable (store) in
/-- The cost is counted in the summary of a currency. -/
def Counted (t : RoiTables F V T) (organizationId currencyCode : Str) (cost : CostRow T) : Prop :=
  ∃ rows, store.summaryCosts t organizationId currencyCode [] = some rows ∧ cost ∈ rows

/-! ### What every ledger has -/

variable (store) in
structure CostsFollow (t : RoiTables F V T) : Prop where
  opportunities : ∀ row ∈ t.opportunities, store.IsCurrency row.currencyCode ∧
    row.currencyCode.length = 3
  costs : ∀ cost ∈ t.costs, store.IsCurrency cost.currencyCode ∧ cost.opportunityId ≠ some [] ∧
    ∀ id, cost.opportunityId = some id → ∃ row, t.opportunity id = some row ∧
      row.organizationId = cost.organizationId

theorem LedgerStep.costsFollow (h : store.LedgerStep t t') (hi : store.CostsFollow t) :
    store.CostsFollow t' := by
  have hold : ∀ cost ∈ t.costs, store.IsCurrency cost.currencyCode ∧
      cost.opportunityId ≠ some [] ∧ ∀ id, cost.opportunityId = some id →
        ∃ row, t'.opportunity id = some row ∧ row.organizationId = cost.organizationId := by
    intro cost hcost
    obtain ⟨hcurrency, hne, htied⟩ := hi.costs cost hcost
    refine ⟨hcurrency, hne, fun id hid => ?_⟩
    obtain ⟨row, hrow, horganization⟩ := htied id hid
    obtain ⟨row', hrow', hmoved⟩ := h.keeps id row hrow
    refine ⟨row', hrow', ?_⟩
    rw [← horganization, hmoved]
  cases h with
  | stays => exact hi
  | created _ _ _ _ hcurrency hlength =>
    refine ⟨fun row hrow => ?_, hold⟩
    rcases List.mem_append.mp hrow with hrow | hrow
    · exact hi.opportunities row hrow
    · rw [List.mem_singleton.mp hrow]
      exact ⟨hcurrency, hlength⟩
  | moved =>
    refine ⟨fun row hrow => ?_, hold⟩
    -- the update keeps the currency
    obtain ⟨row₀, hrow₀, hsame⟩ := mem_updateWhere.mp hrow
    rw [hsame]
    split
    · exact hi.opportunities row₀ hrow₀
    · exact hi.opportunities row₀ hrow₀
  | valued => exact ⟨hi.opportunities, hold⟩
  | costed _ _ _ hcurrency hne htied =>
    refine ⟨hi.opportunities, fun cost hcost => ?_⟩
    rcases List.mem_append.mp hcost with hcost | hcost
    · exact hold cost hcost
    · obtain rfl := List.mem_singleton.mp hcost
      refine ⟨hcurrency, hne, fun id hid => ?_⟩
      obtain ⟨row, hrow, horganization, -⟩ := htied id hid
      exact ⟨row, hrow, horganization⟩

theorem Reached.costsFollow [PyFloatOps F] [PyDecimalFloat F] (h : store.Reached t) :
    store.CostsFollow t :=
  h.invariant ⟨fun _ h => absurd h List.not_mem_nil, fun _ h => absurd h List.not_mem_nil⟩
    fun _ _ hstep => hstep.costsFollow

/-! ### What is selected -/

theorem selectCurrency_nil {currencies : List Str} {selected : Str} :
    store.selectCurrency [] currencies = .ok selected ↔
      (currencies = [] ∧ selected = lit "USD") ∨
        (selected ∈ currencies ∧ ∀ currency ∈ currencies, currency = selected) := by
  rw [selectCurrency, if_neg (not_not.mpr rfl)]
  constructor
  · intro h
    split at h
    · next hnone =>
      cases h
      exact .inl ⟨(List.dedup_eq_nil _).mp hnone, rfl⟩
    · next only honly =>
      cases h
      have hmem : ∀ currency, currency ∈ currencies ↔ currency = selected := by
        intro currency
        rw [← List.mem_dedup, honly, List.mem_singleton]
      exact .inr ⟨(hmem selected).mpr rfl, fun currency hc => (hmem currency).mp hc⟩
    · cases h
  · rintro (⟨rfl, rfl⟩ | ⟨hmem, hall⟩)
    · rfl
    · have hone : currencies.dedup = [selected] := by
        rw [List.eq_replicate_of_mem hall]
        exact List.replicate_dedup (List.length_pos_of_mem hmem).ne'
      rw [hone]

theorem selectCurrency_of_ne {currencies : List Str} (h : currencyCode ≠ []) :
    store.selectCurrency currencyCode currencies = .ok (store.letters.upper currencyCode) :=
  if_pos h

/-- The rows a returned summary sums up. -/
theorem totalCost_eq [PyFloatOps F] [PyDecimalFloat F] [PyRatio F] {summary : PortfolioSummary F}
    (h : (store.portfolioSummary organizationId currencyCode agentId).run t = (.ok summary, t')) :
    ∃ rows, store.summaryCosts t organizationId currencyCode agentId = some rows ∧
      summary.totalCostUsd = centsToMoney F ((rows.map CostRow.amountCents).sum : ℕ) := by
  obtain ⟨selected, baseline, forecast, hselect, -, -, rfl⟩ := portfolioSummary_rows h
  refine ⟨_, ?_, rfl⟩
  rw [summaryCosts, hselect]
  rfl

/-! ### What is counted -/

variable (store) in
/-- The opportunities of an organization fit one page of the listing. -/
def OnePage (t : RoiTables F V T) (organizationId : Str) : Prop :=
  (t.opportunitiesOf organizationId).length ≤ (max 1 (min store.summaryLimit 500)).toNat

instance instDecidableOnePage : Decidable (store.OnePage t organizationId) :=
  inferInstanceAs (Decidable (_ ≤ _))

theorem perm_opportunitiesOf (hpage : store.OnePage t organizationId) :
    (store.listing t organizationId []).Perm (t.opportunitiesOf organizationId) := by
  have hall : (t.opportunities.filter fun row => row.organizationId = organizationId &&
      (([] : Str) = [] || row.agentId = [])) = t.opportunitiesOf organizationId :=
    List.filter_congr fun row _ => by simp
  have hperm : (store.listing t organizationId []).Perm (t.opportunities.filter fun row =>
      row.organizationId = organizationId && (([] : Str) = [] || row.agentId = [])) :=
    perm_listing (by
      rw [hall]
      exact hpage)
  rwa [hall] at hperm

/-- A summary counts the costs in its currency whose opportunities, if they
have one, are in it too. -/
theorem counted_iff (hi : store.CostsFollow t) (hpage : store.OnePage t organizationId)
    {selected : Str} (hselect : store.selectCurrency currencyCode
      ((store.listing t organizationId []).map OpportunityRow.currencyCode) = .ok selected)
    {cost : CostRow T} (hcost : cost ∈ t.costsOf organizationId) :
    store.Counted t organizationId currencyCode cost ↔ cost.currencyCode = selected ∧
      ∀ id row, cost.opportunityId = some id → t.opportunity id = some row →
        row.currencyCode = cost.currencyCode := by
  obtain ⟨hmem, horganization⟩ := List.mem_filter.mp hcost
  rw [decide_eq_true_eq] at horganization
  obtain ⟨-, hne, htied⟩ := hi.costs cost hmem
  -- the opportunity of the cost is listed, and kept if it has the currency
  have hids : ∀ id, cost.opportunityId = some id →
      (id ∈ ((store.listing t organizationId []).filter fun row =>
          row.currencyCode = selected).map OpportunityRow.opportunityId ↔
        ∀ row, t.opportunity id = some row → row.currencyCode = selected) := by
    intro id hid
    obtain ⟨row, hrow, hsame⟩ := htied id hid
    have hlisted : row ∈ store.listing t organizationId [] := by
      rw [(perm_opportunitiesOf hpage).mem_iff]
      refine List.mem_filter.mpr ⟨mem_of_rowAt hrow, decide_eq_true ?_⟩
      rw [hsame, horganization]
    constructor
    · intro hmem row' hrow'
      obtain ⟨row'', hrow'', hid''⟩ := List.mem_map.mp hmem
      obtain ⟨hlisted'', hcurrency⟩ := List.mem_filter.mp hrow''
      have hopportunities := (List.mem_filter.mp ((perm_opportunitiesOf hpage).mem_iff.mp
        hlisted'')).1
      have hfound : t.opportunity row''.opportunityId = some row'' :=
        rowAt_of_mem t.opportunityIds hopportunities
      rw [hid'', hrow'] at hfound
      cases hfound
      exact of_decide_eq_true hcurrency
    · intro hcurrency
      refine List.mem_map.mpr ⟨row, List.mem_filter.mpr ⟨hlisted, ?_⟩, key_of_rowAt hrow⟩
      exact decide_eq_true (hcurrency row hrow)
  have hcounted : store.Counted t organizationId currencyCode cost ↔
      cost.currencyCode = selected ∧ ∀ id, cost.opportunityId = some id →
        id ∈ ((store.listing t organizationId []).filter fun row =>
          row.currencyCode = selected).map OpportunityRow.opportunityId := by
    unfold Counted summaryCosts
    dsimp only
    rw [hselect]
    simp only [Option.some.injEq, exists_eq_left', countedCosts, List.mem_filter, hmem, true_and,
      Prod.mk.injEq, horganization, decide_eq_true_eq, decide_true, Bool.true_or, Bool.true_and,
      Option.all_eq_true, Bool.or_eq_true]
    refine and_congr_right fun _ => forall_congr' fun id => imp_congr_right fun hid => ?_
    refine or_iff_right fun hnil => hne ?_
    rw [hid, hnil]
  rw [hcounted]
  refine and_congr_right fun hcurrency => ?_
  subst hcurrency
  constructor
  · exact fun h id row hid hrow => (hids id hid).mp (h id hid) row hrow
  · exact fun h id hid => (hids id hid).mpr fun row hrow => h id row hid hrow

variable (store) in
/-- The summary without a currency counts every cost of the organization, and
every cost is counted in the summary of one of its currencies, and no other. -/
def CountsEveryCost (t : RoiTables F V T) (organizationId : Str) : Prop :=
  (∀ rows, store.summaryCosts t organizationId [] [] = some rows →
    ∀ cost ∈ t.costsOf organizationId, cost ∈ rows) ∧
  ∀ cost ∈ t.costsOf organizationId, ∃! currency,
    currency ∈ t.currencies organizationId ∧ store.Counted t organizationId currency cost

theorem selected_of_summaryCosts {rows : List (CostRow T)}
    (h : store.summaryCosts t organizationId currencyCode agentId = some rows) :
    ∃ selected, store.selectCurrency currencyCode
      ((store.listing t organizationId agentId).map OpportunityRow.currencyCode) = .ok selected := by
  unfold summaryCosts at h
  dsimp only at h
  split at h
  · next selected hselect => exact ⟨selected, hselect⟩
  · cases h

theorem summaryCosts_of_selected {selected : Str} (h : store.selectCurrency currencyCode
    ((store.listing t organizationId agentId).map OpportunityRow.currencyCode) = .ok selected) :
    ∃ rows, store.summaryCosts t organizationId currencyCode agentId = some rows := by
  unfold summaryCosts
  dsimp only
  rw [h]
  exact ⟨_, rfl⟩

/-- An organization's currencies are some currency, if those of its costs
are. -/
theorem CostsFollow.currency_ne_nil (hi : store.CostsFollow t)
    (hcosts : ∀ cost ∈ t.costsOf organizationId, cost.currencyCode ≠ []) {currency : Str}
    (h : currency ∈ t.currencies organizationId) : currency ≠ [] := by
  rcases List.mem_append.mp h with hmem | hmem
  · obtain ⟨row, hrow, rfl⟩ := List.mem_map.mp hmem
    have hlength := (hi.opportunities row (List.mem_of_mem_filter hrow)).2
    intro hnil
    rw [hnil] at hlength
    cases hlength
  · obtain ⟨cost, hcost, rfl⟩ := List.mem_map.mp hmem
    exact hcosts cost hcost

/-- The currencies of the opportunities, as the summary without a currency
sees them. -/
theorem selectCurrency_listing (hpage : store.OnePage t organizationId) {selected : Str} :
    store.selectCurrency [] ((store.listing t organizationId []).map OpportunityRow.currencyCode) =
      .ok selected ↔ (t.opportunitiesOf organizationId = [] ∧ selected = lit "USD") ∨
        ((∃ row ∈ t.opportunitiesOf organizationId, row.currencyCode = selected) ∧
          ∀ row ∈ t.opportunitiesOf organizationId, row.currencyCode = selected) := by
  have hmem : ∀ row, row ∈ store.listing t organizationId [] ↔
      row ∈ t.opportunitiesOf organizationId := fun row => (perm_opportunitiesOf hpage).mem_iff
  have hnil : store.listing t organizationId [] = [] ↔ t.opportunitiesOf organizationId = [] := by
    rw [← List.length_eq_zero_iff, (perm_opportunitiesOf hpage).length_eq, List.length_eq_zero_iff]
  rw [selectCurrency_nil, List.map_eq_nil_iff, hnil, List.forall_mem_map, List.mem_map]
  simp only [hmem]

section

variable (hupper : ∀ text, store.letters.upper (store.letters.upper text) =
  store.letters.upper text) (hi : store.CostsFollow t) (hpage : store.OnePage t organizationId)
include hupper hi hpage

/-- The summary of a currency of the organization counts the costs in it. -/
theorem counted_currency_iff {currency : Str} (hne : currency ≠ [])
    (hcurrency : currency ∈ t.currencies organizationId) {cost : CostRow T}
    (hcost : cost ∈ t.costsOf organizationId) :
    store.Counted t organizationId currency cost ↔ cost.currencyCode = currency ∧
      ∀ id row, cost.opportunityId = some id → t.opportunity id = some row →
        row.currencyCode = cost.currencyCode := by
  refine counted_iff hi hpage ?_ hcost
  rw [selectCurrency_of_ne hne]
  have hsame : store.IsCurrency currency := by
    rcases List.mem_append.mp hcurrency with hmem | hmem
    · obtain ⟨row, hrow, rfl⟩ := List.mem_map.mp hmem
      exact (hi.opportunities row (List.mem_of_mem_filter hrow)).1
    · obtain ⟨cost, hcost, rfl⟩ := List.mem_map.mp hmem
      exact (hi.costs cost (List.mem_of_mem_filter hcost)).1
  obtain ⟨code, rfl⟩ := hsame
  rw [hupper]

/-- If every cost is counted once, none is without a currency. -/
theorem tiedCurrency_of_counted (h : store.CountsEveryCost t organizationId) :
    ∀ cost ∈ t.costsOf organizationId, t.TiedCurrency cost := by
  -- the summary without a currency selects one with three letters
  have hselected : ∀ selected, store.selectCurrency []
      ((store.listing t organizationId []).map OpportunityRow.currencyCode) = .ok selected →
        selected ≠ [] := by
    intro selected hselect
    rcases (selectCurrency_listing hpage).mp hselect with ⟨-, rfl⟩ | ⟨⟨row, hrow, rfl⟩, -⟩
    · decide
    · have hlength := (hi.opportunities row (List.mem_of_mem_filter hrow)).2
      intro hnil
      rw [hnil] at hlength
      cases hlength
  have hne : ∀ cost ∈ t.costsOf organizationId, cost.currencyCode ≠ [] := by
    intro cost hcost hnil
    obtain ⟨currency, ⟨hmem, hcounted⟩, -⟩ := h.2 cost hcost
    by_cases hcurrency : currency = []
    · subst hcurrency
      obtain ⟨rows, hrows, -⟩ := hcounted
      obtain ⟨selected, hselect⟩ := selected_of_summaryCosts hrows
      have hsame := ((counted_iff hi hpage hselect hcost).mp ⟨rows, hrows, h.1 rows hrows cost
        hcost⟩).1
      exact hselected selected hselect (hsame.symm.trans hnil)
    · have hsame := ((counted_currency_iff hupper hi hpage hcurrency hmem hcost).mp hcounted).1
      exact hcurrency (hsame.symm.trans hnil)
  intro cost hcost
  obtain ⟨currency, ⟨hmem, hcounted⟩, -⟩ := h.2 cost hcost
  have hcurrency := hi.currency_ne_nil hne hmem
  exact ⟨hne cost hcost, ((counted_currency_iff hupper hi hpage hcurrency hmem hcost).mp
    hcounted).2⟩

theorem countsEveryCost_iff :
    store.CountsEveryCost t organizationId ↔ t.OwnCurrency organizationId := by
  constructor
  · intro h
    have htied := tiedCurrency_of_counted hupper hi hpage h
    refine ⟨htied, fun hone cost hcost => ?_⟩
    -- with one currency, the summary without one selects it
    have hin : ∀ selected, store.selectCurrency []
        ((store.listing t organizationId []).map OpportunityRow.currencyCode) = .ok selected →
          cost.currencyCode = selected := by
      intro selected hselect
      have hcounted : store.Counted t organizationId [] cost := by
        obtain ⟨rows, hrows⟩ := summaryCosts_of_selected hselect
        exact ⟨rows, hrows, h.1 rows hrows cost hcost⟩
      exact ((counted_iff hi hpage hselect hcost).mp hcounted).1
    constructor
    · intro row hrow
      exact hin _ ((selectCurrency_listing hpage).mpr
        (.inr ⟨⟨row, hrow, rfl⟩, fun row' hrow' => hone row' hrow' row hrow⟩))
    · exact fun hnone => hin _ ((selectCurrency_listing hpage).mpr (.inl ⟨hnone, rfl⟩))
  · rintro ⟨htied, hone⟩
    constructor
    · intro rows hrows cost hcost
      obtain ⟨selected, hselect⟩ := selected_of_summaryCosts hrows
      have hcurrency : cost.currencyCode = selected := by
        rcases (selectCurrency_listing hpage).mp hselect with ⟨hnone, rfl⟩ | ⟨⟨row, hrow, rfl⟩, hall⟩
        · refine (hone (fun row hrow => ?_) cost hcost).2 hnone
          rw [hnone] at hrow
          cases hrow
        · refine (hone (fun row₁ hrow₁ row₂ hrow₂ => ?_) cost hcost).1 row hrow
          rw [hall row₁ hrow₁, hall row₂ hrow₂]
      obtain ⟨rows', hrows', hmem⟩ := (counted_iff hi hpage hselect hcost).mpr
        ⟨hcurrency, (htied cost hcost).2⟩
      rw [hrows] at hrows'
      cases hrows'
      exact hmem
    · intro cost hcost
      have hown : cost.currencyCode ∈ t.currencies organizationId :=
        List.mem_append_right _ (List.mem_map_of_mem hcost)
      obtain ⟨hne, hsame⟩ := htied cost hcost
      refine ⟨cost.currencyCode, ⟨hown, ?_⟩, ?_⟩
      · exact (counted_currency_iff hupper hi hpage hne hown hcost).mpr ⟨rfl, hsame⟩
      · rintro currency ⟨hmem, hcounted⟩
        have hcurrency := hi.currency_ne_nil (fun cost' hcost' => (htied cost' hcost').1) hmem
        exact ((counted_currency_iff hupper hi hpage hcurrency hmem hcost).mp hcounted).1.symm

end

/-- A returned summary sums up the costs it counts; and no cost escapes the
summaries exactly when the costs are in the organization's own currency. -/
theorem costs_counted_iff [PyFloatOps F] [PyDecimalFloat F] [PyRatio F]
    (hupper : ∀ text, store.letters.upper (store.letters.upper text) = store.letters.upper text)
    (hreached : store.Reached t) (hpage : store.OnePage t organizationId) :
    (∀ currencyCode (summary : PortfolioSummary F) t',
      (store.portfolioSummary organizationId currencyCode []).run t = (.ok summary, t') →
        ∃ rows, store.summaryCosts t organizationId currencyCode [] = some rows ∧
          summary.totalCostUsd = centsToMoney F ((rows.map CostRow.amountCents).sum : ℕ)) ∧
    (store.CountsEveryCost t organizationId ↔ t.OwnCurrency organizationId) :=
  ⟨fun _ _ _ h => totalCost_eq h, countsEveryCost_iff hupper hreached.costsFollow hpage⟩

end

end RoiStore

/-! ### A cost in another currency -/

/-- Half a dollar, or half of another currency. -/
def sampleCost (currencyCode : Str) : CostForm where
  organizationId := lit "o"
  agentId := lit "a"
  costType := lit "model"
  amountUsd := some (.finite ⟨false, 5, 1⟩)
  currencyCode := currencyCode
  evidenceKey := lit "e"
  recordedBy := lit "w"
  opportunityId := []
  incurredDate := []
  notes := []

/-- One opportunity in dollars, and a cost. -/
def costTables (currencyCode : Str) : RoiTables SmallFloat Str Str :=
  [.createOpportunity (sampleOpportunity 0) [] (lit "2024-01-01T00:00:00+00:00"),
    .recordCost (sampleCost currencyCode) (lit "c") (lit "2024-01-01T00:00:00+00:00")
      (lit "2024-01-01")].foldl sampleLedger.after .empty

theorem reached_costTables (currencyCode : Str) : sampleLedger.Reached (costTables currencyCode) :=
  reached_foldl _ .empty

theorem asciiLetters_upper (text : Str) :
    sampleLedger.letters.upper (sampleLedger.letters.upper text) =
      sampleLedger.letters.upper text := by
  show ((text.map _).map _) = text.map _
  rw [List.map_map]
  refine List.map_congr_left fun c _ => ?_
  by_cases hlower : 97 ≤ c ∧ c ≤ 122
  · -- the upper-case letter is none of the lower-case ones
    have hupper : ¬(97 ≤ c - 32 ∧ c - 32 ≤ 122) := by omega
    simp only [Function.comp_apply, if_pos hlower, if_neg hupper]
  · simp only [Function.comp_apply, if_neg hlower]

/-- The one cost, and the one opportunity. -/
theorem costTables_rows (currencyCode : Str) (h : currencyCode ∈ [lit "usd", lit "eur"]) :
    sampleLedger.OnePage (costTables currencyCode) (lit "o") ∧
    ((costTables currencyCode).costsOf (lit "o")).map CostRow.currencyCode =
      [asciiLetters.upper currencyCode] ∧
    (∀ cost ∈ (costTables currencyCode).costsOf (lit "o"), cost.opportunityId = none) ∧
    ((costTables currencyCode).opportunitiesOf (lit "o")).map OpportunityRow.currencyCode =
      [lit "USD"] := by
  simp only [List.mem_cons, List.not_mem_nil, or_false] at h
  rcases h with rfl | rfl
  · decide +kernel
  · decide +kernel

/-- A cost in dollars is counted. -/
theorem costs_counted_dollars :
    sampleLedger.CountsEveryCost (costTables (lit "usd")) (lit "o") := by
  obtain ⟨hpage, hcosts, htied, hopportunities⟩ := costTables_rows (lit "usd") (by decide)
  have hdollars : ∀ cost ∈ (costTables (lit "usd")).costsOf (lit "o"),
      cost.currencyCode = lit "USD" := fun cost hcost =>
    List.mem_singleton.mp (hcosts ▸ List.mem_map_of_mem hcost)
  refine (RoiStore.costs_counted_iff asciiLetters_upper (reached_costTables _) hpage).2.mpr
    ⟨fun cost hcost => ⟨?_, ?_⟩, fun _ cost hcost => ⟨?_, ?_⟩⟩
  · rw [hdollars cost hcost]
    decide
  · intro id row hid
    rw [htied cost hcost] at hid
    cases hid
  · intro row hrow
    rw [hdollars cost hcost]
    exact (List.mem_singleton.mp (hopportunities ▸ List.mem_map_of_mem hrow)).symm
  · exact fun _ => hdollars cost hcost

/-- A cost in euros is left out of the summary in dollars, which does not
reject it. -/
theorem costs_counted_misses : sampleLedger.Reached (costTables (lit "eur")) ∧
    sampleLedger.OnePage (costTables (lit "eur")) (lit "o") ∧
    (∃ summary t', (sampleLedger.portfolioSummary (lit "o") [] []).run (costTables (lit "eur")) =
        (.ok summary, t') ∧ summary.currencyCode = lit "USD" ∧
      summary.totalCostUsd = centsToMoney SmallFloat 0) ∧
    (((costTables (lit "eur")).costsOf (lit "o")).map CostRow.amountCents).sum = 50 ∧
    ¬sampleLedger.CountsEveryCost (costTables (lit "eur")) (lit "o") := by
  obtain ⟨hpage, -, -, hopportunities⟩ := costTables_rows (lit "eur") (by decide)
  refine ⟨reached_costTables _, hpage, ?_, by decide +kernel, fun h => ?_⟩
  · have hok : ((sampleLedger.portfolioSummary (lit "o") [] []).run (costTables (lit "eur"))).1.map
        (fun summary => (summary.currencyCode, summary.totalCostUsd)) =
        .ok (lit "USD", centsToMoney SmallFloat 0) := by
      decide +kernel
    rcases hrun : (sampleLedger.portfolioSummary (lit "o") [] []).run (costTables (lit "eur")) with
      ⟨e | summary, t'⟩
    · rw [hrun] at hok
      cases hok
    rw [hrun] at hok
    obtain ⟨hcurrency, hcost⟩ := Prod.mk.inj (Except.ok.inj hok)
    exact ⟨summary, t', rfl, hcurrency, hcost⟩
  · have hrows : (sampleLedger.summaryCosts (costTables (lit "eur")) (lit "o") [] []) = some [] := by
      decide +kernel
    have hone : (costTables (lit "eur")).costsOf (lit "o") ≠ [] := by
      decide +kernel
    obtain ⟨cost, hcost⟩ := List.exists_mem_of_ne_nil _ hone
    exact absurd (h.1 [] hrows cost hcost) List.not_mem_nil

end AgentRoi
