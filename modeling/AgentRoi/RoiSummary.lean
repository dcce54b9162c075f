/-
`portfolio_summary`, and what it should answer.

* `portfolioSummary` — the method of the two ledgers;
* `Totals`, `RoiTables.totals` — the count and the sums, in integer cents, of
  all the opportunities of an organization, agent and currency;
* `Covers` — the listing holds all of them;
* `SumKept`, `sumKept_of_lt` — the sums that survive being answered as floats;
* `portfolioSummary_iff` — when the summary is made of these totals.
-/
import AgentRoi.RoiRuns

namespace AgentRoi

open RowTable

variable {F V T : Type}

/-- `round(a / b, 4)` of two integers. -/
class PyRatio (F : Type) where
  ratio : ℕ → ℕ → FloatVal F

/-- A count, and sums in cents. -/
structure Totals where
  opportunityCount : ℕ
  statusCounts : List (OpportunityStatus × ℕ)
  baseline : ℕ
  forecast : ℕ
  realized : ℕ
  validated : ℕ
  cost : ℕ
  deriving DecidableEq

/-- The dictionary that `portfolio_summary` answers with. -/
structure PortfolioSummary (F : Type) where
  organizationId : Str
  agentId : Option Str
  currencyCode : Str
  opportunityCount : ℕ
  baselineUsd : FloatVal F
  forecastValueUsd : FloatVal F
  realizedValueUsd : FloatVal F
  validatedValueUsd : FloatVal F
  totalCostUsd : FloatVal F
  netValidatedValueUsd : FloatVal F
  validatedRoiMultiple : Option (FloatVal F)
  statusCounts : List (OpportunityStatus × ℕ)
  deriving DecidableEq

/-- `for status in OpportunityStatus`. -/
def OpportunityStatus.all : List OpportunityStatus :=
  [.proposed, .approved, .inProgress, .realizing, .validated, .rejected, .closed]

/-- `row["opportunity_id"] in ids and row["stage"] == stage`, summed up. -/
def stageCents (ids : List Str) (stage : ValueStage) (values : List (ValueRow T)) : ℕ :=
  ((values.filter fun row => row.opportunityId ∈ ids && row.stage = stage).map
    ValueRow.amountCents).sum

/-- The costs of the opportunities, and those of none. -/
def costCents (agentId : Str) (ids : List Str) (costs : List (CostRow T)) : ℕ :=
  ((costs.filter fun row => (agentId = [] || row.agentId = agentId) &&
    row.opportunityId.all fun id => id = [] || id ∈ ids).map CostRow.amountCents).sum

section

variable [PyFloat F] [PyDecimalFloat F] [PyRatio F]

/-- The dictionary, of totals in cents. -/
def summaryOf (organizationId agentId currencyCode : Str) (totals : Totals) : PortfolioSummary F where
  organizationId := organizationId
  agentId := if agentId = [] then none else some agentId
  currencyCode := currencyCode
  opportunityCount := totals.opportunityCount
  baselineUsd := centsToMoney F totals.baseline
  forecastValueUsd := centsToMoney F totals.forecast
  realizedValueUsd := centsToMoney F totals.realized
  validatedValueUsd := centsToMoney F totals.validated
  totalCostUsd := centsToMoney F totals.cost
  netValidatedValueUsd := centsToMoney F ((totals.validated : Int) - totals.cost)
  validatedRoiMultiple :=
    if totals.cost = 0 then none else some (PyRatio.ratio totals.validated totals.cost)
  statusCounts := totals.statusCounts

@[simp] theorem opportunityCount_summaryOf {organizationId agentId currencyCode : Str}
    {totals : Totals} : (summaryOf organizationId agentId currencyCode totals :
      PortfolioSummary F).opportunityCount = totals.opportunityCount := rfl

@[simp] theorem currencyCode_summaryOf {organizationId agentId currencyCode : Str}
    {totals : Totals} : (summaryOf organizationId agentId currencyCode totals :
      PortfolioSummary F).currencyCode = currencyCode := rfl

/-- `sum(_money_to_cents(…) for item in opportunities)`. -/
def sumCents : List (FloatVal F) → Except PyExc ℕ
  | [] => .ok 0
  | amount :: amounts => do
    let cents ← moneyToCents (some (.ofFloat amount))
    let rest ← sumCents amounts
    return cents + rest

end

namespace RoiStore

variable [LE T] [PyFloatOps F] [PyDecimalFloat F] [PyRatio F] (store : RoiStore F V T)

/-- The currency that is asked for, or the only one there is. -/
def selectCurrency (currencyCode : Str) (currencies : List Str) : Except PyExc Str :=
  if currencyCode ≠ [] then .ok (store.letters.upper currencyCode)
  else match currencies.dedup with
    | [] => .ok (lit "USD")
    | [currency] => .ok currency
    | _ => .error (.valueError
        (lit "Portfolio contains multiple currencies; select currency_code"))

/-- A query by organization and currency. -/
def query {ρ : Type} (rowsOf : RoiTables F V T → List ρ) (of : ρ → Str × Str)
    (organizationId currency : Str) : Proc (RoiTables F V T) PyExc (List ρ) :=
  reading fun t => do
    store.format.bind organizationId
    store.format.bind currency
    return (rowsOf t).filter fun row => of row = (organizationId, currency)

def portfolioSummary (organizationId currencyCode agentId : Str) :
    Proc (RoiTables F V T) PyExc (PortfolioSummary F) := do
  let listed ← store.listOpportunities organizationId agentId none store.summaryLimit 0
  let selected ← .done (store.selectCurrency currencyCode (listed.map ValueOpportunity.currencyCode))
  let opportunities := listed.filter fun item => item.currencyCode = selected
  let ids := opportunities.map ValueOpportunity.opportunityId
  let forecast ← .done (sumCents (opportunities.map ValueOpportunity.forecastValueUsd))
  let baseline ← .done (sumCents (opportunities.map ValueOpportunity.baselineUsd))
  let values ← store.query RoiTables.values (fun row => (row.organizationId, row.currencyCode))
    organizationId selected
  let costs ← store.query RoiTables.costs (fun row => (row.organizationId, row.currencyCode))
    organizationId selected
  return summaryOf organizationId agentId selected {
    opportunityCount := opportunities.length
    statusCounts := OpportunityStatus.all.map fun status =>
      (status, (opportunities.filter fun item => item.status = status).length)
    baseline := baseline
    forecast := forecast
    realized := stageCents ids .realized values
    validated := stageCents ids .validated values
    cost := costCents agentId ids costs }

end RoiStore

/-! ### What it should answer -/

namespace RoiTables

/-- All the opportunities of an organization, an agent, if one is given, and a
currency. -/
def portfolio (t : RoiTables F V T) (organizationId agentId currency : Str) :
    List (OpportunityRow F V T) :=
  t.opportunities.filter fun row => row.organizationId = organizationId &&
    (agentId = [] || row.agentId = agentId) && row.currencyCode = currency

/-- The aggregate over all of them. -/
def totals (t : RoiTables F V T) (organizationId agentId currency : Str) : Totals :=
  let rows := t.portfolio organizationId agentId currency
  let ids := rows.map OpportunityRow.opportunityId
  { opportunityCount := rows.length
    statusCounts := OpportunityStatus.all.map fun status =>
      (status, (rows.filter fun row => row.status = status).length)
    baseline := (rows.map OpportunityRow.baselineCents).sum
    forecast := (rows.map OpportunityRow.forecastCents).sum
    realized := stageCents ids .realized t.values
    validated := stageCents ids .validated t.values
    cost := costCents agentId ids (t.costs.filter fun row =>
      row.organizationId = organizationId && row.currencyCode = currency) }

end RoiTables

/-! ### Sums -/

section

variable [PyFloat F]

theorem sumCents_cons {amount : FloatVal F} {amounts : List (FloatVal F)} {n : ℕ} :
    sumCents (amount :: amounts) = .ok n ↔ ∃ cents rest,
      moneyToCents (some (.ofFloat amount)) = .ok cents ∧ sumCents amounts = .ok rest ∧
        n = cents + rest := by
  rw [sumCents]
  simp only [except_bind_eq_ok]
  constructor
  · rintro ⟨cents, hcents, rest, hrest, hn⟩
    exact ⟨cents, rest, hcents, hrest, (Except.ok.inj hn).symm⟩
  · rintro ⟨cents, rest, hcents, hrest, rfl⟩
    exact ⟨cents, hcents, rest, hrest, rfl⟩

/-- The order of the amounts does not matter. -/
theorem sumCents_perm {amounts amounts' : List (FloatVal F)} (h : amounts.Perm amounts') {n : ℕ}
    (hn : sumCents amounts = .ok n) : sumCents amounts' = .ok n := by
  induction h generalizing n with
  | nil => exact hn
  | cons amount _ ih =>
    obtain ⟨cents, rest, hcents, hrest, rfl⟩ := sumCents_cons.mp hn
    exact sumCents_cons.mpr ⟨cents, rest, hcents, ih hrest, rfl⟩
  | swap a b _ =>
    obtain ⟨first, rest, hfirst, htail, rfl⟩ := sumCents_cons.mp hn
    obtain ⟨second, rest, hsecond, hrest, rfl⟩ := sumCents_cons.mp htail
    exact sumCents_cons.mpr ⟨second, first + rest, hsecond,
      sumCents_cons.mpr ⟨first, rest, hfirst, hrest, rfl⟩, Nat.add_left_comm _ _ _⟩
  | trans _ _ ih ih' => exact ih' (ih hn)

variable [PyDecimalFloat F]

variable (F) in
/-- The sum of amounts, each answered as a float and read again, is answered
as the sum of the amounts is. -/
def SumKept (cents : List ℕ) : Prop :=
  ∃ sum, sumCents (cents.map fun (c : ℕ) => centsToMoney F c) = .ok sum ∧
    centsToMoney F sum = centsToMoney F cents.sum

/-- As it is when every amount is kept. -/
theorem sumKept_of_kept {cents : List ℕ} (h : ∀ c ∈ cents, Kept F c) : SumKept F cents := by
  refine ⟨cents.sum, ?_, rfl⟩
  induction cents with
  | nil => rfl
  | cons c cents ih =>
    exact sumCents_cons.mpr ⟨c, cents.sum, h c List.mem_cons_self,
      ih fun c' hc' => h c' (List.mem_cons_of_mem c hc'), List.sum_cons⟩

/-- As it is of doubles, when no amount reaches 100 · 2 ^ 44 cents. -/
theorem sumKept_of_lt {valueOf : F → Binary64} (hdouble : IsDouble valueOf) {cents : List ℕ}
    (h : ∀ c ∈ cents, c < 100 * 2 ^ 44 ∧ ∃ f, centsToMoney F c = .finite f) : SumKept F cents := by
  refine sumKept_of_kept fun c hc => ?_
  obtain ⟨hlt, f, hfinite⟩ := h c hc
  exact kept_of_lt hdouble hfinite hlt

end

theorem stageCents_congr {ids ids' : List Str} (h : ∀ id, id ∈ ids ↔ id ∈ ids')
    (stage : ValueStage) (values : List (ValueRow T)) :
    stageCents ids stage values = stageCents ids' stage values := by
  unfold stageCents
  simp only [h]

theorem costCents_congr {ids ids' : List Str} (h : ∀ id, id ∈ ids ↔ id ∈ ids') (agentId : Str)
    (costs : List (CostRow T)) : costCents agentId ids costs = costCents agentId ids' costs := by
  unfold costCents
  simp only [h]

namespace RoiStore

section

variable [LE T] {store : RoiStore F V T} {t : RoiTables F V T}
  {organizationId agentId currency : Str}

variable (store t organizationId agentId currency) in
/-- The listing of the summary. -/
def listing : List (OpportunityRow F V T) :=
  store.page organizationId agentId none store.summaryLimit 0 t

variable (store t organizationId agentId currency) in
/-- Every opportunity of the portfolio is listed. -/
def Covers : Prop :=
  ∀ row ∈ t.portfolio organizationId agentId currency, row ∈ store.listing t organizationId agentId

/-- The listed opportunities with the currency are some of the portfolio. -/
theorem listing_subperm : ((store.listing t organizationId agentId).filter fun row =>
    row.currencyCode = currency).Subperm (t.portfolio organizationId agentId currency) := by
  let found := t.opportunities.filter fun row => row.organizationId = organizationId &&
    (agentId = [] || row.agentId = agentId) && (none : Option OpportunityStatus).all fun status =>
      row.status = status
  have hsublist : (store.listing t organizationId agentId).Sublist (store.order.arrange found) :=
    (List.take_sublist _ _).trans (List.drop_sublist _ _)
  have hperm := (store.order.perm found).filter fun row => row.currencyCode = currency
  have hfound : (found.filter fun row => row.currencyCode = currency) =
      t.portfolio organizationId agentId currency := by
    rw [List.filter_filter]
    refine List.filter_congr fun row _ => ?_
    rw [Option.all_none, Bool.and_true, Bool.and_comm]
  rw [hfound] at hperm
  exact (hsublist.filter _).subperm.trans hperm.subperm

omit [LE T] in
theorem nodup_portfolio : (t.portfolio organizationId agentId currency).Nodup :=
  (List.Nodup.of_map _ t.opportunityIds).filter _

/-- They are all of it exactly when it is covered. -/
theorem perm_iff_covers : ((store.listing t organizationId agentId).filter fun row =>
    row.currencyCode = currency).Perm (t.portfolio organizationId agentId currency) ↔
      store.Covers t organizationId agentId currency := by
  constructor
  · exact fun h row hrow => List.mem_of_mem_filter (h.mem_iff.mpr hrow)
  · intro h
    refine listing_subperm.perm_of_length_le (List.Nodup.subperm nodup_portfolio ?_).length_le
    intro row hrow
    have hcurrency := (List.mem_filter.mp hrow).2
    rw [Bool.and_eq_true] at hcurrency
    exact List.mem_filter.mpr ⟨h row hrow, hcurrency.2⟩

/-- What fits the page is listed. -/
theorem perm_listing (h : (t.opportunities.filter fun row =>
    row.organizationId = organizationId && (agentId = [] || row.agentId = agentId)).length ≤
      (max 1 (min store.summaryLimit 500)).toNat) :
    (store.listing t organizationId agentId).Perm (t.opportunities.filter fun row =>
      row.organizationId = organizationId && (agentId = [] || row.agentId = agentId)) := by
  let found := t.opportunities.filter fun row => row.organizationId = organizationId &&
    (agentId = [] || row.agentId = agentId) && (none : Option OpportunityStatus).all fun status =>
      row.status = status
  have hfound : found = t.opportunities.filter fun row =>
      row.organizationId = organizationId && (agentId = [] || row.agentId = agentId) :=
    List.filter_congr fun row _ => by rw [Option.all_none, Bool.and_true]
  have hlength : (store.order.arrange found).length ≤ (max 1 (min store.summaryLimit 500)).toNat := by
    rw [(store.order.perm found).length_eq, hfound]
    exact h
  have hlisting : store.listing t organizationId agentId = store.order.arrange found := by
    show ((store.order.arrange found).drop 0).take _ = _
    rw [List.drop_zero, List.take_of_length_le hlength]
  rw [hlisting, ← hfound]
  exact store.order.perm found

/-- It is covered when the opportunities of the organization fit the page. -/
theorem covers_of_length (h : (t.opportunities.filter fun row =>
    row.organizationId = organizationId && (agentId = [] || row.agentId = agentId)).length ≤
      (max 1 (min store.summaryLimit 500)).toNat) :
    store.Covers t organizationId agentId currency := by
  intro row hrow
  obtain ⟨hmem, hrow⟩ := List.mem_filter.mp hrow
  rw [Bool.and_eq_true] at hrow
  exact (perm_listing h).mem_iff.mpr (List.mem_filter.mpr ⟨hmem, hrow.1⟩)

end

section

variable [LE T] [PyFloatOps F] [PyDecimalFloat F] {store : RoiStore F V T} {t : RoiTables F V T}

theorem toOpportunities_eq_ok {rows : List (OpportunityRow F V T)}
    {items : List (ValueOpportunity F)} (h : store.toOpportunities rows = .ok items) :
    List.Forall₂ (fun row item => store.toOpportunity row = .ok item) rows items := by
  induction rows generalizing items with
  | nil =>
    cases h
    exact .nil
  | cons row rows ih =>
    rw [toOpportunities] at h
    simp only [except_bind_eq_ok] at h
    obtain ⟨item, hitem, rest, hrest, h⟩ := h
    cases h
    exact .cons hitem (ih hrest)

omit [PyFloatOps F] [PyDecimalFloat F] in
theorem query_eq_ok {ρ : Type} {rowsOf : RoiTables F V T → List ρ} {of : ρ → Str × Str}
    {organizationId currency : Str} {rows : List ρ} {t' : RoiTables F V T}
    (h : (store.query rowsOf of organizationId currency).run t = (.ok rows, t')) :
    t' = t ∧ rows = (rowsOf t).filter fun row => of row = (organizationId, currency) := by
  obtain ⟨hrows, rfl⟩ := reading_eq_ok.mp h
  obtain ⟨_, -, hrows⟩ := except_bind_eq_ok.mp hrows
  obtain ⟨_, -, hrows⟩ := except_bind_eq_ok.mp hrows
  exact ⟨rfl, (Except.ok.inj hrows).symm⟩

variable [PyRatio F] {organizationId currencyCode agentId : Str} {summary : PortfolioSummary F}
  {t' : RoiTables F V T}

/-- What a summary was made of. -/
theorem portfolioSummary_eq_ok
    (h : (store.portfolioSummary organizationId currencyCode agentId).run t = (.ok summary, t')) :
    ∃ listed selected baseline forecast,
      store.toOpportunities (store.listing t organizationId agentId) = .ok listed ∧
      store.selectCurrency currencyCode (listed.map ValueOpportunity.currencyCode) = .ok selected ∧
      (let opportunities := listed.filter fun item => item.currencyCode = selected
       let ids := opportunities.map ValueOpportunity.opportunityId
       sumCents (opportunities.map ValueOpportunity.baselineUsd) = .ok baseline ∧
       sumCents (opportunities.map ValueOpportunity.forecastValueUsd) = .ok forecast ∧
       summary = summaryOf organizationId agentId selected {
         opportunityCount := opportunities.length
         statusCounts := OpportunityStatus.all.map fun status =>
           (status, (opportunities.filter fun item => item.status = status).length)
         baseline := baseline
         forecast := forecast
         realized := stageCents ids .realized (t.values.filter fun row =>
           (row.organizationId, row.currencyCode) = (organizationId, selected))
         validated := stageCents ids .validated (t.values.filter fun row =>
           (row.organizationId, row.currencyCode) = (organizationId, selected))
         cost := costCents agentId ids (t.costs.filter fun row =>
           (row.organizationId, row.currencyCode) = (organizationId, selected)) }) := by
  obtain ⟨listed, t₁, hlisting, h₁⟩ := Proc.run_bind_eq_ok.mp h
  obtain ⟨hlist, rfl⟩ : store.toOpportunities (store.listing t organizationId agentId) =
      .ok listed ∧ t₁ = t := by
    obtain ⟨hread, hsame⟩ := reading_eq_ok.mp hlisting
    obtain ⟨_, -, hread⟩ := except_bind_eq_ok.mp hread
    obtain ⟨_, -, hread⟩ := except_bind_eq_ok.mp hread
    obtain ⟨_, -, hread⟩ := except_bind_eq_ok.mp hread
    exact ⟨hread, hsame⟩
  obtain ⟨selected, t₂, hselected, h₂⟩ := Proc.run_bind_eq_ok.mp h₁
  obtain ⟨hselect, rfl⟩ := Prod.mk.inj hselected
  obtain ⟨forecast, t₃, hforecast, h₃⟩ := Proc.run_bind_eq_ok.mp h₂
  obtain ⟨hforecastSum, rfl⟩ := Prod.mk.inj hforecast
  obtain ⟨baseline, t₄, hbaseline, h₄⟩ := Proc.run_bind_eq_ok.mp h₃
  obtain ⟨hbaselineSum, rfl⟩ := Prod.mk.inj hbaseline
  obtain ⟨values, t₅, hvalues, h₅⟩ := Proc.run_bind_eq_ok.mp h₄
  obtain ⟨rfl, rfl⟩ := query_eq_ok hvalues
  obtain ⟨costs, t₆, hcosts, h₆⟩ := Proc.run_bind_eq_ok.mp h₅
  obtain ⟨rfl, rfl⟩ := query_eq_ok hcosts
  cases h₆
  exact ⟨listed, selected, baseline, forecast, hlist, hselect, hbaselineSum, hforecastSum, rfl⟩

/-- The same, by the rows that were listed. -/
theorem portfolioSummary_rows
    (h : (store.portfolioSummary organizationId currencyCode agentId).run t = (.ok summary, t')) :
    ∃ selected baseline forecast,
      store.selectCurrency currencyCode ((store.listing t organizationId agentId).map
        OpportunityRow.currencyCode) = .ok selected ∧
      (let rows := (store.listing t organizationId agentId).filter fun row =>
         row.currencyCode = selected
       let ids := rows.map OpportunityRow.opportunityId
       sumCents (rows.map fun row => centsToMoney F row.baselineCents) = .ok baseline ∧
       sumCents (rows.map fun row => centsToMoney F row.forecastCents) = .ok forecast ∧
       summary = summaryOf organizationId agentId selected {
         opportunityCount := rows.length
         statusCounts := OpportunityStatus.all.map fun status =>
           (status, (rows.filter fun row => row.status = status).length)
         baseline := baseline
         forecast := forecast
         realized := stageCents ids .realized (t.values.filter fun row =>
           (row.organizationId, row.currencyCode) = (organizationId, selected))
         validated := stageCents ids .validated (t.values.filter fun row =>
           (row.organizationId, row.currencyCode) = (organizationId, selected))
         cost := costCents agentId ids (t.costs.filter fun row =>
           (row.organizationId, row.currencyCode) = (organizationId, selected)) }) := by
  obtain ⟨listed, selected, baseline, forecast, hlisted, hselect, hbaseline, hforecast, rfl⟩ :=
    portfolioSummary_eq_ok h
  have hitems := toOpportunities_eq_ok hlisted
  have hselected : List.Forall₂ (fun row item => store.toOpportunity row = .ok item)
      ((store.listing t organizationId agentId).filter fun row => row.currencyCode = selected)
      (listed.filter fun item => item.currencyCode = selected) := by
    refine forall₂_filter hitems fun row item hitem => ?_
    obtain ⟨-, -, -, hcurrency, -⟩ := toOpportunity_eq_ok hitem
    rw [hcurrency]
  have hfields := fun (row : OpportunityRow F V T) (item : ValueOpportunity F)
    (hitem : store.toOpportunity row = .ok item) => toOpportunity_eq_ok hitem
  have hids := map_eq_of_forall₂ (f := ValueOpportunity.opportunityId)
    (g := OpportunityRow.opportunityId) hselected fun row _ item hitem => (hfields row item hitem).1
  have hstatus : ∀ status, (List.filter (fun item => item.status = status)
      (listed.filter fun item => item.currencyCode = selected)).length =
        (List.filter (fun row => row.status = status)
          ((store.listing t organizationId agentId).filter fun row =>
            row.currencyCode = selected)).length := by
    intro status
    refine (forall₂_filter hselected fun row item hitem => ?_).length_eq.symm
    obtain ⟨-, -, -, -, hsame, -⟩ := hfields row item hitem
    rw [hsame]
  refine ⟨selected, baseline, forecast, ?_, ?_, ?_, ?_⟩
  · rwa [map_eq_of_forall₂ (g := OpportunityRow.currencyCode) hitems
      fun row _ item hitem => (hfields row item hitem).2.2.2.1] at hselect
  · rwa [map_eq_of_forall₂ (g := fun row : OpportunityRow F V T => centsToMoney F row.baselineCents)
      hselected fun row _ item hitem => (hfields row item hitem).2.2.2.2.2.1] at hbaseline
  · rwa [map_eq_of_forall₂ (g := fun row : OpportunityRow F V T => centsToMoney F row.forecastCents)
      hselected fun row _ item hitem => (hfields row item hitem).2.2.2.2.2.2] at hforecast
  · simp only [hids, hstatus, hselected.length_eq]

omit [LE T] [PyFloatOps F] [PyDecimalFloat F] [PyRatio F] in
/-- The values of the portfolio are found by its organization and currency. -/
theorem stageCents_filter (hfollow : t.ValuesFollow) {organizationId agentId currency : Str}
    (stage : ValueStage) :
    stageCents ((t.portfolio organizationId agentId currency).map OpportunityRow.opportunityId) stage
        (t.values.filter fun row =>
          (row.organizationId, row.currencyCode) = (organizationId, currency)) =
      stageCents ((t.portfolio organizationId agentId currency).map OpportunityRow.opportunityId)
        stage t.values := by
  unfold stageCents
  rw [List.filter_filter]
  refine congrArg (fun rows => (List.map ValueRow.amountCents rows).sum)
    (List.filter_congr fun value hvalue => ?_)
  by_cases hid : value.opportunityId ∈
      (t.portfolio organizationId agentId currency).map OpportunityRow.opportunityId
  · obtain ⟨row, hrow, hsame⟩ := List.mem_map.mp hid
    obtain ⟨hmem, hportfolio⟩ := List.mem_filter.mp hrow
    simp only [Bool.and_eq_true, decide_eq_true_eq] at hportfolio
    obtain ⟨found, hfound, horganization, hcurrency⟩ := hfollow value hvalue
    -- the opportunity of the value is that row of the portfolio
    have hrowAt : t.opportunity row.opportunityId = some row := rowAt_of_mem t.opportunityIds hmem
    rw [← hsame, hrowAt] at hfound
    cases hfound
    have hquery : (value.organizationId, value.currencyCode) = (organizationId, currency) := by
      rw [horganization, hcurrency, hportfolio.1.1, hportfolio.2]
    simp [hquery]
  · simp [hid]

/-- The summary is made of the totals of the whole portfolio exactly when the
listing holds all of it and the sums of its amounts survive being answered as
floats. -/
theorem portfolioSummary_iff (hreached : store.Reached t)
    (h : (store.portfolioSummary organizationId currencyCode agentId).run t = (.ok summary, t')) :
    summary = summaryOf organizationId agentId summary.currencyCode
        (t.totals organizationId agentId summary.currencyCode) ↔
      store.Covers t organizationId agentId summary.currencyCode ∧
      SumKept F ((t.portfolio organizationId agentId summary.currencyCode).map
        OpportunityRow.baselineCents) ∧
      SumKept F ((t.portfolio organizationId agentId summary.currencyCode).map
        OpportunityRow.forecastCents) := by
  obtain ⟨selected, baseline, forecast, -, hbaseline, hforecast, rfl⟩ := portfolioSummary_rows h
  simp only [currencyCode_summaryOf]
  generalize hrows : (store.listing t organizationId agentId).filter (fun row =>
    row.currencyCode = selected) = rows at hbaseline hforecast ⊢
  have hperm : rows.Perm (t.portfolio organizationId agentId selected) ↔
      store.Covers t organizationId agentId selected := by
    rw [← hrows]
    exact perm_iff_covers
  have hsubperm : rows.Subperm (t.portfolio organizationId agentId selected) := by
    rw [← hrows]
    exact listing_subperm
  -- the order of the listing does not show in a sum
  have hkept : ∀ {amount : OpportunityRow F V T → ℕ} {sum : ℕ},
      rows.Perm (t.portfolio organizationId agentId selected) →
      sumCents (rows.map fun row => centsToMoney F (amount row)) = .ok sum →
      (SumKept F ((t.portfolio organizationId agentId selected).map amount) ↔
        centsToMoney F sum = centsToMoney F
          (((t.portfolio organizationId agentId selected).map amount).sum)) := by
    intro amount sum hall hsum
    have hsame := sumCents_perm (hall.map fun row => centsToMoney F (amount row)) hsum
    unfold SumKept
    rw [List.map_map]
    constructor
    · rintro ⟨sum', hsum', hfloat⟩
      obtain rfl := Except.ok.inj (hsum'.symm.trans hsame)
      exact hfloat
    · exact fun hfloat => ⟨sum, hsame, hfloat⟩
  constructor
  · intro hsame
    -- the listing is part of the portfolio, so that equal counts make it all of it
    have hcount : rows.length = (t.portfolio organizationId agentId selected).length :=
      congrArg PortfolioSummary.opportunityCount hsame
    have hall := hsubperm.perm_of_length_le hcount.ge
    exact ⟨hperm.mp hall, (hkept hall hbaseline).mpr (congrArg PortfolioSummary.baselineUsd hsame),
      (hkept hall hforecast).mpr (congrArg PortfolioSummary.forecastValueUsd hsame)⟩
  · rintro ⟨hcovers, hbaselineKept, hforecastKept⟩
    have hall := hperm.mpr hcovers
    -- what the other sums ask of the listing is which ids it has
    have hids : ∀ id, id ∈ rows.map OpportunityRow.opportunityId ↔
        id ∈ (t.portfolio organizationId agentId selected).map OpportunityRow.opportunityId :=
      fun id => (hall.map _).mem_iff
    have hstage : ∀ stage, stageCents (rows.map OpportunityRow.opportunityId) stage
        (t.values.filter fun row =>
          (row.organizationId, row.currencyCode) = (organizationId, selected)) =
          stageCents ((t.portfolio organizationId agentId selected).map
            OpportunityRow.opportunityId) stage t.values := fun stage =>
      (stageCents_congr hids stage _).trans (stageCents_filter hreached.valuesFollow stage)
    have hcosts : (t.costs.filter fun row =>
        (row.organizationId, row.currencyCode) = (organizationId, selected)) =
          t.costs.filter fun row =>
            row.organizationId = organizationId && row.currencyCode = selected :=
      List.filter_congr fun row _ => by simp
    have hcounts : ∀ status, (rows.filter fun row => row.status = status).length =
        ((t.portfolio organizationId agentId selected).filter fun row =>
          row.status = status).length := fun status => (hall.filter _).length_eq
    rw [hstage, hstage, hcosts, costCents_congr hids, hall.length_eq]
    simp only [hcounts]
    unfold summaryOf
    dsimp only
    rw [(hkept hall hbaseline).mp hbaselineKept, (hkept hall hforecast).mp hforecastKept]
    rfl

end

end RoiStore

/-! ### A ledger larger than a page -/

/-- Equal ratios only. -/
instance : PyRatio SmallFloat where
  ratio a b := if a = b then .finite .one else .nan

def asciiLetters : PyLetters where
  upper text := text.map fun c => if 97 ≤ c ∧ c ≤ 122 then c - 32 else c
  isAlpha text := text ≠ [] && text.all fun c => (65 ≤ c && c ≤ 90) || (97 ≤ c && c ≤ 122)

instance listedLe_total :
    Std.Total fun a b : OpportunityRow SmallFloat Str Str => a.createdAtUtc ≤ b.createdAtUtc :=
  ⟨fun a b => le_total a.createdAtUtc b.createdAtUtc⟩

instance listedLe_trans :
    IsTrans (OpportunityRow SmallFloat Str Str) fun a b => a.createdAtUtc ≤ b.createdAtUtc :=
  ⟨fun _ _ _ => le_trans⟩

/-- Equal times in the order of insertion. -/
def listingOrder : ListingOrder SmallFloat Str Str where
  arrange rows := rows.insertionSort fun a b => a.createdAtUtc ≤ b.createdAtUtc
  perm rows := rows.perm_insertionSort _
  sorted := List.pairwise_insertionSort
    fun a b : OpportunityRow SmallFloat Str Str => a.createdAtUtc ≤ b.createdAtUtc

def sampleLedger : RoiStore SmallFloat Str Str := sqliteRoiStore asciiLetters listingOrder

/-- An opportunity of half a dollar. -/
def sampleOpportunity (n : ℕ) : OpportunityForm SmallFloat where
  organizationId := lit "o"
  agentId := lit "a"
  businessUnit := lit "u"
  businessOwner := lit "w"
  title := lit "t"
  valueType := lit "revenue"
  valuePeriod := lit "annual"
  baselineUsd := some (.finite ⟨false, 0, 0⟩)
  forecastValueUsd := some (.finite ⟨false, 5, 1⟩)
  confidence := .finite .half
  sourceKey := natDigits n
  createdBy := lit "w"
  currencyCode := lit "usd"
  measurementStart := []
  measurementEnd := []
  metadata := []
  opportunityId := natDigits n

def portfolioTables (n : ℕ) : RoiTables SmallFloat Str Str :=
  ((List.range n).map fun i => RoiCall.createOpportunity (sampleOpportunity i) []
    (lit "2024-01-01T00:00:00+00:00")).foldl sampleLedger.after .empty

theorem reached_foldl {store : RoiStore SmallFloat Str Str} :
    ∀ (calls : List (RoiCall SmallFloat)) {t : RoiTables SmallFloat Str Str}, store.Reached t →
      store.Reached (calls.foldl store.after t)
  | [], _, h => h
  | call :: calls, _, h => reached_foldl calls (h.call call)

theorem reached_portfolioTables (n : ℕ) : sampleLedger.Reached (portfolioTables n) :=
  reached_foldl _ .empty

def sampleSummary (n : ℕ) : Except PyExc (PortfolioSummary SmallFloat) × RoiTables SmallFloat Str Str :=
  (sampleLedger.portfolioSummary (lit "o") [] []).run (portfolioTables n)

/-- Fifty cents, for an opportunity. -/
def valueCall (opportunityId stage evidenceKey : String) : RoiCall SmallFloat :=
  .recordValue ⟨lit opportunityId, lit stage, some (.finite ⟨false, 5, 1⟩), lit evidenceKey, lit "w",
    [], [], []⟩ (lit evidenceKey) (lit "2024-01-03T00:00:00+00:00") (lit "2024-01-03")

def costCall (opportunityId currencyCode evidenceKey : String) : RoiCall SmallFloat :=
  .recordCost ⟨lit "o", lit "a", lit "model", some (.finite ⟨false, 5, 1⟩), lit currencyCode,
    lit evidenceKey, lit "w", lit opportunityId, [], []⟩ (lit evidenceKey)
    (lit "2024-01-03T00:00:00+00:00") (lit "2024-01-03")

def statusCall (opportunityId newStatus historyId : String) : RoiCall SmallFloat :=
  .transition ⟨lit opportunityId, lit newStatus, lit "w", [], none⟩ (lit historyId)
    (lit "2024-01-02T00:00:00+00:00")

def openingCall (form : OpportunityForm SmallFloat) : RoiCall SmallFloat :=
  .createOpportunity form [] (lit "2024-01-01T00:00:00+00:00")

/-- Two opportunities in dollars of the agent, one of them in progress and one
realizing, with values and costs; one in euros, one of another agent, and costs
that belong to none. -/
def busyCalls : List (RoiCall SmallFloat) :=
  [openingCall (sampleOpportunity 0), openingCall (sampleOpportunity 1),
    openingCall { sampleOpportunity 2 with currencyCode := lit "eur" },
    openingCall { sampleOpportunity 3 with agentId := lit "b" },
    statusCall "0" "approved" "h1", statusCall "0" "in_progress" "h2",
    statusCall "1" "approved" "h3", statusCall "1" "in_progress" "h4",
    statusCall "1" "realizing" "h5",
    valueCall "0" "realized" "v1", valueCall "0" "validated" "v2", valueCall "1" "validated" "v3",
    valueCall "1" "forecast" "v4",
    costCall "0" "usd" "c1", costCall "" "usd" "c2", costCall "" "eur" "c3"]

def busyTables : RoiTables SmallFloat Str Str := busyCalls.foldl sampleLedger.after .empty

theorem reached_busyTables : sampleLedger.Reached busyTables := reached_foldl _ .empty

theorem portfolioSummary_busy : ∃ summary t',
    (sampleLedger.portfolioSummary (lit "o") (lit "usd") (lit "a")).run busyTables =
      (.ok summary, t') ∧
    summary = summaryOf (lit "o") (lit "a") summary.currencyCode
      (busyTables.totals (lit "o") (lit "a") summary.currencyCode) ∧
    busyTables.totals (lit "o") (lit "a") summary.currencyCode =
      { opportunityCount := 2
        statusCounts := [(.proposed, 0), (.approved, 0), (.inProgress, 1), (.realizing, 1),
          (.validated, 0), (.rejected, 0), (.closed, 0)]
        baseline := 0
        forecast := 100
        realized := 50
        validated := 100
        cost := 100 } := by
  have hok : ((sampleLedger.portfolioSummary (lit "o") (lit "usd") (lit "a")).run
      busyTables).1.map PortfolioSummary.currencyCode = .ok (lit "USD") := by
    decide +kernel
  rcases hrun : (sampleLedger.portfolioSummary (lit "o") (lit "usd") (lit "a")).run busyTables with
    ⟨e | summary, t'⟩
  · rw [hrun] at hok
    cases hok
  rw [hrun] at hok
  have hcurrency : summary.currencyCode = lit "USD" := Except.ok.inj hok
  refine ⟨summary, t', rfl, (RoiStore.portfolioSummary_iff reached_busyTables hrun).mpr ?_, ?_⟩
  · have hbaseline : (busyTables.portfolio (lit "o") (lit "a") (lit "USD")).map
        OpportunityRow.baselineCents = [0, 0] := by decide +kernel
    have hforecast : (busyTables.portfolio (lit "o") (lit "a") (lit "USD")).map
        OpportunityRow.forecastCents = [50, 50] := by decide +kernel
    have hzero : SumKept SmallFloat [0, 0] := sumKept_of_lt isDouble_smallFloat fun c hc => by
      obtain rfl : c = 0 := List.eq_of_mem_replicate (n := 2) hc
      exact ⟨by norm_num, .zero, by decide⟩
    have hhalf : SumKept SmallFloat [50, 50] := sumKept_of_lt isDouble_smallFloat fun c hc => by
      obtain rfl : c = 50 := List.eq_of_mem_replicate (n := 2) hc
      exact ⟨by norm_num, .half, by decide⟩
    rw [hcurrency, hbaseline, hforecast]
    exact ⟨RoiStore.covers_of_length (by decide +kernel), hzero, hhalf⟩
  · rw [hcurrency]
    decide +kernel

/-- Of 101 opportunities the summary counts 100. -/
theorem portfolioSummary_misses : sampleLedger.Reached (portfolioTables 101) ∧
    ∃ summary t', sampleSummary 101 = (.ok summary, t') ∧
      summary ≠ summaryOf (lit "o") [] summary.currencyCode
        ((portfolioTables 101).totals (lit "o") [] summary.currencyCode) := by
  refine ⟨reached_portfolioTables 101, ?_⟩
  have hok : (sampleSummary 101).1.map (fun summary =>
      (summary.opportunityCount, ((portfolioTables 101).totals (lit "o") []
        summary.currencyCode).opportunityCount)) = .ok (100, 101) := by
    decide +kernel
  rcases hrun : sampleSummary 101 with ⟨e | summary, t'⟩
  · rw [hrun] at hok
    cases hok
  rw [hrun] at hok
  obtain ⟨hcounted, hall⟩ := Prod.mk.inj (Except.ok.inj hok)
  refine ⟨summary, t', rfl, fun hsame => ?_⟩
  have hcount := congrArg PortfolioSummary.opportunityCount hsame
  rw [hcounted, opportunityCount_summaryOf, hall] at hcount
  cases hcount

end AgentRoi
