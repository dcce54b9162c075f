/-
What calls do to the tables of the ROI ledger.

* `Keeps` — every opportunity stays, and only its status and revision change;
* `ValuesFollow` — a value has the organization and currency of its
  opportunity;
* `inserting_eq_ok`, `move_eq_ok` — what the transactions write;
* `LedgerStep` — all that a step of a method can do;
* `follows_program` — each step of each method is one of these, whatever the
  other callers do between two steps.
-/
import AgentRoi.RoiLedger

namespace AgentRoi

open RowTable

variable {F V T α : Type}

/-! ### What stays -/

/-- The same opportunity, perhaps with another status and revision. -/
def OpportunityRow.Moved (row row' : OpportunityRow F V T) : Prop :=
  row' = { row with status := row'.status, revision := row'.revision }

theorem OpportunityRow.Moved.trans {row row' row'' : OpportunityRow F V T} (h : row.Moved row')
    (h' : row'.Moved row'') : row.Moved row'' := by
  unfold Moved at h h' ⊢
  rw [h', h]

namespace RoiTables

variable {t t' : RoiTables F V T}

/-- Every opportunity stays. -/
def Keeps (t t' : RoiTables F V T) : Prop :=
  ∀ id row, t.opportunity id = some row → ∃ row', t'.opportunity id = some row' ∧ row.Moved row'

theorem Keeps.refl (t : RoiTables F V T) : Keeps t t := fun _ row h => ⟨row, h, rfl⟩

theorem Keeps.trans {u : RoiTables F V T} (h : Keeps t u) (h' : Keeps u t') : Keeps t t' := by
  intro id row hrow
  obtain ⟨row', hrow', hmoved⟩ := h id row hrow
  obtain ⟨row'', hrow'', hmoved'⟩ := h' id row' hrow'
  exact ⟨row'', hrow'', hmoved.trans hmoved'⟩

theorem Keeps.of_opportunities (h : t'.opportunities = t.opportunities) : Keeps t t' := by
  intro id row hrow
  refine ⟨row, ?_, rfl⟩
  rw [opportunity, h]
  exact hrow

/-- Every value has the organization and currency of its opportunity. -/
def ValuesFollow (t : RoiTables F V T) : Prop :=
  ∀ value ∈ t.values, ∃ row, t.opportunity value.opportunityId = some row ∧
    value.organizationId = row.organizationId ∧ value.currencyCode = row.currencyCode

theorem ValuesFollow.keeps (h : t.ValuesFollow) (hkeeps : Keeps t t') (hvalues : t'.values = t.values) :
    t'.ValuesFollow := by
  intro value hvalue
  rw [hvalues] at hvalue
  obtain ⟨row, hrow, horganization, hcurrency⟩ := h value hvalue
  obtain ⟨row', hrow', hmoved⟩ := hkeeps _ row hrow
  refine ⟨row', hrow', ?_, ?_⟩
  · rw [horganization, hmoved]
  · rw [hcurrency, hmoved]

theorem keeps_insertOpportunity {row : OpportunityRow F V T}
    (hid : t.opportunity row.opportunityId = none)
    (hsource : rowAt OpportunityRow.source row.source t.opportunities = none) :
    Keeps t (t.insertOpportunity row hid hsource) := by
  intro id found hfound
  have hne : row.opportunityId ≠ id := by
    rintro rfl
    rw [hid] at hfound
    cases hfound
  exact ⟨found, (rowAt_append_of_ne hne).trans hfound, rfl⟩

theorem opportunity_setStatus {id k : Str} {status : OpportunityStatus} :
    (t.setStatus id status).opportunity k = (t.opportunity k).map fun row =>
      if row.opportunityId = id then row.moved status else row := by
  have hmap : rowAt OpportunityRow.opportunityId k
      (updateWhere (fun row => row.opportunityId = id) (OpportunityRow.moved status) t.opportunities)
      = _ := rowAt_updateWhere fun _ => rfl
  simp only [decide_eq_true_eq] at hmap
  exact hmap

theorem keeps_setStatus {id : Str} {status : OpportunityStatus} : Keeps t (t.setStatus id status) := by
  intro k row hrow
  refine ⟨_, opportunity_setStatus.trans (congrArg _ hrow), ?_⟩
  show row.Moved (if row.opportunityId = id then row.moved status else row)
  split
  · rfl
  · rfl

end RoiTables

namespace RoiStore

/-! ### What the transactions write -/

section

variable {t t' : RoiTables F V T} {u : Unit}

theorem reading_eq_ok {x : RoiTables F V T → Except PyExc α} {a : α} :
    (reading x).run t = (.ok a, t') ↔ x t = .ok a ∧ t' = t := by
  show (x t, t) = (Except.ok a, t') ↔ _
  rw [Prod.mk.injEq, eq_comm (a := t)]

theorem insertOpportunity_eq_ok {row : OpportunityRow F V T}
    (h : insertOpportunity row t = (.ok u, t')) :
    ∃ hid hsource, t' = t.insertOpportunity row hid hsource := by
  unfold insertOpportunity at h
  split at h
  · next hfree =>
    cases h
    exact ⟨hfree.1, hfree.2, rfl⟩
  · cases h

theorem insertValue_eq_ok {row : ValueRow T} (h : insertValue row t = (.ok u, t')) :
    ∃ hid hevidence hopportunity, t' = t.insertValue row hid hevidence hopportunity := by
  unfold insertValue at h
  split at h
  · next hfree =>
    cases h
    exact ⟨hfree.1, hfree.2.1, hfree.2.2, rfl⟩
  · cases h

theorem insertCost_eq_ok {row : CostRow T} (h : insertCost row t = (.ok u, t')) :
    ∃ hid hevidence hopportunity, t' = t.insertCost row hid hevidence hopportunity := by
  unfold insertCost at h
  split at h
  · next hfree =>
    cases h
    exact ⟨hfree.1, hfree.2.1, hfree.2.2, rfl⟩
  · cases h

theorem insertHistory_eq_ok {row : HistoryRow T} (h : insertHistory row t = (.ok u, t')) :
    ∃ hid hopportunity, t' = t.insertHistory row hid hopportunity := by
  unfold insertHistory at h
  split at h
  · next hfree =>
    cases h
    exact ⟨hfree.1, hfree.2, rfl⟩
  · cases h

theorem updateStatus_eq_ok {id : Str} {current new : OpportunityStatus} {expected : Option Int}
    (h : updateStatus id current new expected t = (.ok u, t')) :
    t' = t.setStatus id new ∧ ∃ row, t.opportunity id = some row ∧ row.status = current ∧
      ∀ revision ∈ expected, (row.revision : Int) = revision := by
  unfold updateStatus at h
  split at h
  · next hany =>
    cases h
    obtain ⟨row, hrow, hmatch⟩ := (Option.any_eq_true _ _).mp hany
    rw [Bool.and_eq_true, decide_eq_true_eq, Option.all_eq_true] at hmatch
    exact ⟨rfl, row, hrow, hmatch.1, fun revision hr => of_decide_eq_true (hmatch.2 revision hr)⟩
  · cases h

end

section

variable [LE T] [PyFloatOps F] [PyDecimalFloat F] {store : RoiStore F V T} {t t' : RoiTables F V T}

omit [PyFloatOps F] [PyDecimalFloat F] in
/-- An `INSERT` with the `except` around it. -/
theorem inserting_eq_ok {message : Str} {row : Except PyExc α}
    {insert : α → PyM (RoiTables F V T) Unit} {u : Unit}
    (h : store.inserting message row insert t = (.ok u, t')) :
    ∃ r, row = .ok r ∧ insert r t = (.ok u, t') := by
  unfold inserting PyM.tryExcept at h
  cases row with
  | error e => cases h
  | ok r =>
    refine ⟨r, rfl, ?_⟩
    rw [PyM.bind_of_ok (PyM.ofExcept_apply (.ok r) t)] at h
    rcases hinsert : insert r t with ⟨e | u', t₁⟩
    · rw [hinsert] at h
      cases h
    · rw [hinsert] at h
      exact h

omit [PyFloatOps F] [PyDecimalFloat F] in
/-- The transaction of `transition`: the status it found is still there. -/
theorem move_eq_ok {form : TransitionForm} {current new : OpportunityStatus} {historyId now : Str}
    {u : Unit} (h : store.move form current new historyId now t = (.ok u, t')) :
    ∃ changed hid hopportunity, t' = (t.setStatus form.opportunityId new).insertHistory
        ⟨historyId, form.opportunityId, current, new, changed, form.changedBy, form.reason⟩
        hid hopportunity ∧
      ∃ row, t.opportunity form.opportunityId = some row ∧ row.status = current ∧
        ∀ revision ∈ form.expectedRevision, (row.revision : Int) = revision := by
  obtain ⟨_, -, h⟩ := PyM.ofExcept_bind_eq_ok.mp h
  obtain ⟨_, t₁, hupdate, h⟩ := PyM.bind_eq_ok.mp h
  obtain ⟨changed, -, hinsert⟩ := PyM.ofExcept_bind_eq_ok.mp h
  obtain ⟨rfl, hrow⟩ := updateStatus_eq_ok hupdate
  obtain ⟨hid, hopportunity, rfl⟩ := insertHistory_eq_ok hinsert
  exact ⟨changed, hid, hopportunity, rfl, hrow⟩

end

/-! ### Steps -/

open RoiTables

/-- A currency as `record_cost` writes it. -/
def IsCurrency [LE T] (store : RoiStore F V T) (currency : Str) : Prop :=
  ∃ code, currency = store.letters.upper (strip code)

/-- All that a step of a method can do. -/
inductive LedgerStep [LE T] (store : RoiStore F V T) :
    RoiTables F V T → RoiTables F V T → Prop
  | stays (t : RoiTables F V T) : LedgerStep store t t
  | created {t : RoiTables F V T} {row : OpportunityRow F V T}
      (hid : t.opportunity row.opportunityId = none)
      (hsource : rowAt OpportunityRow.source row.source t.opportunities = none) :
      row.status = .proposed → row.revision = 1 → store.IsCurrency row.currencyCode →
      row.currencyCode.length = 3 → LedgerStep store t (t.insertOpportunity row hid hsource)
  | moved {t : RoiTables F V T} {row : HistoryRow T} {found : OpportunityRow F V T}
      (hid : rowAt HistoryRow.historyId row.historyId
        (t.setStatus row.opportunityId row.newStatus).history = none)
      (hopportunity : (t.setStatus row.opportunityId row.newStatus).HasOpportunity
        row.opportunityId) :
      t.opportunity row.opportunityId = some found → found.status = row.oldStatus →
      row.newStatus ∈ allowedTransitions row.oldStatus →
      LedgerStep store t
        ((t.setStatus row.opportunityId row.newStatus).insertHistory row hid hopportunity)
  | valued {t : RoiTables F V T} {value : ValueRow T} {row : OpportunityRow F V T}
      (hid : rowAt ValueRow.measurementId value.measurementId t.values = none)
      (hevidence : rowAt ValueRow.evidence value.evidence t.values = none)
      (hopportunity : t.HasOpportunity value.opportunityId) :
      t.opportunity value.opportunityId = some row → value.organizationId = row.organizationId →
      value.currencyCode = row.currencyCode →
      LedgerStep store t (t.insertValue value hid hevidence hopportunity)
  | costed {t : RoiTables F V T} {cost : CostRow T}
      (hid : rowAt CostRow.costId cost.costId t.costs = none)
      (hevidence : rowAt CostRow.evidence cost.evidence t.costs = none)
      (hopportunity : ∀ id, cost.opportunityId = some id → t.HasOpportunity id) :
      store.IsCurrency cost.currencyCode → cost.opportunityId ≠ some [] →
      (∀ id, cost.opportunityId = some id → ∃ row, t.opportunity id = some row ∧
        row.organizationId = cost.organizationId ∧ row.agentId = cost.agentId) →
      LedgerStep store t (t.insertCost cost hid hevidence hopportunity)

section

variable [LE T] {store : RoiStore F V T} {t t' : RoiTables F V T}

theorem LedgerStep.keeps (h : store.LedgerStep t t') : Keeps t t' := by
  cases h with
  | stays => exact .refl t
  | created hid hsource => exact keeps_insertOpportunity hid hsource
  | @moved row =>
    have hkeeps : Keeps t (t.setStatus row.opportunityId row.newStatus) := keeps_setStatus
    exact hkeeps
  | valued => exact .of_opportunities rfl
  | costed => exact .of_opportunities rfl

theorem LedgerStep.valuesFollow (h : store.LedgerStep t t') (hi : t.ValuesFollow) :
    t'.ValuesFollow := by
  have hkeeps := h.keeps
  cases h with
  | stays => exact hi
  | created => exact hi.keeps hkeeps rfl
  | moved => exact hi.keeps hkeeps rfl
  | @valued value row _ _ _ hrow horganization hcurrency =>
    intro value' hmem
    rcases List.mem_append.mp hmem with hmem | hmem
    · exact hi value' hmem
    · obtain rfl := List.mem_singleton.mp hmem
      exact ⟨row, hrow, horganization, hcurrency⟩
  | costed => exact hi.keeps hkeeps rfl

end

/-! ### Programs -/

/-- Every step keeps the opportunities and the invariant of the values,
whatever the others do that keep them. -/
abbrev Keeping (Q : Except PyExc α → RoiTables F V T → Prop) (p : Proc (RoiTables F V T) PyExc α)
    (t : RoiTables F V T) : Prop := Proc.Safe Keeps Keeps ValuesFollow Q p t

section

variable [LE T] {store : RoiStore F V T} {t : RoiTables F V T} {β : Type}

variable (store) in
/-- Each step of the program is one of these. -/
abbrev Stepping (p : Proc (RoiTables F V T) PyExc α) (t : RoiTables F V T) : Prop :=
  Proc.Follows Keeps store.LedgerStep p t

theorem stepping_done {r : Except PyExc α} : store.Stepping (.done r) t := fun _ _ _ => trivial

/-- A check that depends on no tables. -/
theorem stepping_done_bind {r : Except PyExc α} {f : α → Proc (RoiTables F V T) PyExc β}
    (h : ∀ a, r = .ok a → store.Stepping (f a) t) : store.Stepping (.done r >>= f) t := by
  cases r with
  | ok a => exact h a rfl
  | error e => exact stepping_done

theorem stepping_reading {x : RoiTables F V T → Except PyExc α}
    {f : α → Proc (RoiTables F V T) PyExc β}
    (h : ∀ u a, x u = .ok a → store.Stepping (f a) u) : store.Stepping (reading x >>= f) t :=
  Proc.follows_step fun u _ => ⟨.stays u, fun a ha => h u a ha⟩

theorem stepping_read {x : RoiTables F V T → Except PyExc α} : store.Stepping (reading x) t :=
  Proc.follows_atomic fun u _ => .stays u

theorem stepping_writing {x : PyM (RoiTables F V T) α} {f : α → Proc (RoiTables F V T) PyExc β}
    (h : ∀ u u' a, Keeps t u → x u = (.ok a, u') →
      store.LedgerStep u u' ∧ store.Stepping (f a) u') :
    store.Stepping (writing x >>= f) t := by
  refine Proc.follows_step fun u hu => ?_
  rcases hx : x u with ⟨e | a, u'⟩
  · -- a failed transaction leaves the tables as they were
    have hback : x.transaction u = (.error e, u) := by
      unfold PyM.transaction
      rw [hx]
    rw [hback]
    exact ⟨.stays u, fun a ha => by cases ha⟩
  · rw [PyM.transaction_eq_ok.mpr hx]
    obtain ⟨hstep, hf⟩ := h u u' a hu hx
    refine ⟨hstep, fun b hb => ?_⟩
    obtain rfl := Except.ok.inj hb
    exact hf

end

section

variable [LE T] [PyFloatOps F] [PyDecimalFloat F] {store : RoiStore F V T} {t : RoiTables F V T}

theorem toOpportunity_eq_ok {row : OpportunityRow F V T} {item : ValueOpportunity F} (h : store.toOpportunity row = .ok item) :
    item.opportunityId = row.opportunityId ∧ item.organizationId = row.organizationId ∧
      item.agentId = row.agentId ∧ item.currencyCode = row.currencyCode ∧
      item.status = row.status ∧ item.baselineUsd = centsToMoney F row.baselineCents ∧
      item.forecastValueUsd = centsToMoney F row.forecastCents := by
  obtain ⟨_, -, h⟩ := except_bind_eq_ok.mp h
  cases h
  exact ⟨rfl, rfl, rfl, rfl, rfl, rfl, rfl⟩

omit [PyDecimalFloat F] in
/-- The currency of an opportunity has three letters. -/
theorem checkOpportunity_eq_ok {form : OpportunityForm F} {currency : Str} {valueType : ValueType}
    {valuePeriod : ValuePeriod}
    (h : store.checkOpportunity form = .ok (currency, valueType, valuePeriod)) :
    store.IsCurrency currency ∧ currency.length = 3 := by
  simp only [checkOpportunity, except_bind_eq_ok] at h
  obtain ⟨_, -, _, -, _, -, _, -, _, -, _, -, _, -, h⟩ := h
  split at h
  · obtain ⟨_, h, -⟩ := h
  split at h
  · obtain ⟨_, h, -⟩ := except_bind_eq_ok.mp h
    cases h
  · next hthree =>
    rw [not_or, not_not] at hthree
    split at h
    · cases h
      exact ⟨⟨form.currencyCode, rfl⟩, hthree.1⟩
    · cases h

omit [PyDecimalFloat F] in
theorem newOpportunity_eq_ok {form : OpportunityForm F} {id currency : Str}
    {valueType : ValueType} {valuePeriod : ValuePeriod} {now : Str} {row : OpportunityRow F V T}
    (h : store.newOpportunity form id currency valueType valuePeriod now = .ok row) :
    row.status = .proposed ∧ row.revision = 1 ∧ row.currencyCode = currency := by
  simp only [newOpportunity, except_bind_eq_ok] at h
  obtain ⟨_, -, _, -, _, -, _, -, _, -, _, -, _, -, _, -, _, -, _, -, _, -, _, -, _, -, _, -, _, -,
    _, -, _, -, h⟩ := h
  cases h
  exact ⟨rfl, rfl, rfl⟩

omit [PyFloatOps F] [PyDecimalFloat F] in
theorem newValue_eq_ok {form : ValueForm} {opportunity : ValueOpportunity F} {stage : ValueStage}
    {measurementId now date : Str} {row : ValueRow T}
    (h : store.newValue form opportunity stage measurementId now date = .ok row) :
    row.opportunityId = form.opportunityId ∧ row.organizationId = opportunity.organizationId ∧
      row.currencyCode = opportunity.currencyCode ∧ row.stage = stage := by
  simp only [newValue, except_bind_eq_ok] at h
  obtain ⟨_, -, _, -, _, -, _, -, _, -, _, -, _, -, _, -, _, -, _, -, _, -, _, -, h⟩ := h
  cases h
  exact ⟨rfl, rfl, rfl, rfl⟩

omit [PyFloatOps F] [PyDecimalFloat F] in
theorem newCost_eq_ok {form : CostForm} {costId currency now date : Str} {row : CostRow T}
    (h : store.newCost form costId currency now date = .ok row) :
    row.organizationId = form.organizationId ∧ row.agentId = form.agentId ∧
      row.currencyCode = currency ∧
      row.opportunityId = if form.opportunityId = [] then none else some form.opportunityId := by
  simp only [newCost, except_bind_eq_ok] at h
  obtain ⟨_, -, _, -, _, -, _, -, _, -, _, -, _, -, _, -, _, -, _, -, _, -, _, -, _, -, h⟩ := h
  cases h
  exact ⟨rfl, rfl, rfl, rfl⟩

theorem findOpportunity_eq_ok {id : Str} {opportunity : ValueOpportunity F}
    (h : store.findOpportunity id t = .ok opportunity) :
    ∃ row, t.opportunity id = some row ∧ store.toOpportunity row = .ok opportunity := by
  obtain ⟨_, -, h⟩ := except_bind_eq_ok.mp h
  cases hrow : t.opportunity id with
  | none =>
    rw [hrow] at h
    cases h
  | some row =>
    rw [hrow] at h
    exact ⟨row, rfl, h⟩

/-- The row an opportunity was read from. -/
def ReadFrom (id : Str) (opportunity : ValueOpportunity F) (t : RoiTables F V T) : Prop :=
  ∃ row, t.opportunity id = some row ∧ opportunity.organizationId = row.organizationId ∧
    opportunity.agentId = row.agentId ∧ opportunity.currencyCode = row.currencyCode

/-- What was read stays so. -/
theorem readFrom_of_keeps {id : Str} {opportunity : ValueOpportunity F} {u : RoiTables F V T}
    (h : store.findOpportunity id t = .ok opportunity) (hkeeps : Keeps t u) :
    ReadFrom id opportunity u := by
  obtain ⟨row, hrow, hitem⟩ := findOpportunity_eq_ok h
  obtain ⟨-, horganization, hagent, hcurrency, -⟩ := toOpportunity_eq_ok hitem
  obtain ⟨row', hrow', hmoved⟩ := hkeeps id row hrow
  refine ⟨row', hrow', ?_, ?_, ?_⟩
  · rw [horganization, hmoved]
  · rw [hagent, hmoved]
  · rw [hcurrency, hmoved]

theorem stepping_createOpportunity {form : OpportunityForm F} {uuid now : Str} :
    store.Stepping (store.createOpportunity form uuid now) t := by
  refine stepping_done_bind fun (currency, valueType, valuePeriod) hcheck => ?_
  refine stepping_writing fun u u' _ _ h => ⟨?_, stepping_read⟩
  obtain ⟨hcurrency, hlength⟩ := checkOpportunity_eq_ok hcheck
  obtain ⟨row, hnew, hinsert⟩ := inserting_eq_ok h
  obtain ⟨hid, hsource, rfl⟩ := insertOpportunity_eq_ok hinsert
  obtain ⟨hstatus, hrevision, hsame⟩ := newOpportunity_eq_ok hnew
  refine .created hid hsource hstatus hrevision ?_ ?_
  · rw [hsame]
    exact hcurrency
  · rw [hsame]
    exact hlength

theorem stepping_transition {form : TransitionForm} {historyId now : Str} :
    store.Stepping (store.transition form historyId now) t := by
  refine stepping_done_bind fun new _ => ?_
  refine stepping_reading fun u current _ => ?_
  split
  · exact stepping_done
  · next hallowed =>
    refine stepping_writing fun v v' _ _ h => ⟨?_, stepping_read⟩
    obtain ⟨changed, hid, hopportunity, rfl, row, hrow, hstatus, -⟩ := move_eq_ok h
    exact .moved (t := v) hid hopportunity hrow hstatus (not_not.mp hallowed)

/-- A value is inserted for an opportunity that was read, and that is still
there. -/
theorem stepping_recordValue {form : ValueForm} {measurementId now today : Str} :
    store.Stepping (store.recordValue form measurementId now today) t := by
  refine stepping_reading fun u opportunity hread => ?_
  refine stepping_done_bind fun stage _ => ?_
  split
  · exact stepping_done
  refine stepping_done_bind fun _ _ => ?_
  refine stepping_done_bind fun _ _ => ?_
  refine stepping_writing fun v v' _ hkeeps h => ⟨?_, stepping_done_bind fun _ _ => stepping_done⟩
  obtain ⟨value, hvalue, hinsert⟩ := inserting_eq_ok h
  obtain ⟨hid, hevidence, hopportunity, rfl⟩ := insertValue_eq_ok hinsert
  obtain ⟨hvalueId, hvalueOrganization, hvalueCurrency, -⟩ := newValue_eq_ok hvalue
  obtain ⟨row, hrow, horganization, -, hcurrency⟩ := readFrom_of_keeps hread hkeeps
  refine .valued hid hevidence hopportunity ?_ (hvalueOrganization.trans horganization)
    (hvalueCurrency.trans hcurrency)
  rw [hvalueId]
  exact hrow

/-- The tables after the check of a cost's opportunity. -/
theorem stepping_checkCostOpportunity {form : CostForm} {f : Unit → Proc (RoiTables F V T) PyExc α}
    (h : ∀ u, (form.opportunityId ≠ [] → ∃ opportunity,
        store.findOpportunity form.opportunityId u = .ok opportunity ∧
          opportunity.organizationId = form.organizationId ∧ opportunity.agentId = form.agentId) →
      store.Stepping (f ()) u) : store.Stepping (store.checkCostOpportunity form >>= f) t := by
  unfold checkCostOpportunity
  split
  · next hnone => exact h t fun hsome => absurd hnone hsome
  rw [Proc.bind_assoc]
  refine stepping_reading fun u opportunity hread => ?_
  split
  · exact stepping_done
  · next hmatch =>
    rw [not_or, not_not, not_not] at hmatch
    exact h u fun _ => ⟨opportunity, hread, hmatch⟩

theorem stepping_recordCost {form : CostForm} {costId now today : Str} :
    store.Stepping (store.recordCost form costId now today) t := by
  refine stepping_checkCostOpportunity fun u hread => ?_
  refine stepping_done_bind fun _ _ => ?_
  refine stepping_done_bind fun _ _ => ?_
  refine stepping_writing fun v v' _ hkeeps h => ⟨?_, stepping_done_bind fun _ _ =>
    stepping_done_bind fun _ _ => stepping_done⟩
  obtain ⟨cost, hcost, hinsert⟩ := inserting_eq_ok h
  obtain ⟨hid, hevidence, hopportunity, rfl⟩ := insertCost_eq_ok hinsert
  obtain ⟨horganization, hagent, hcurrency, hsome⟩ := newCost_eq_ok hcost
  refine .costed hid hevidence hopportunity ⟨form.currencyCode, hcurrency⟩ ?_ fun id hid' => ?_
  · rw [hsome]
    split
    · exact Option.some_ne_none _ ∘ Eq.symm
    · next hne => exact fun hnil => hne (Option.some.inj hnil)
  rw [hsome] at hid'
  split at hid'
  · cases hid'
  · next hne =>
    obtain rfl := Option.some.inj hid'
    obtain ⟨opportunity, hfound, hsame, hsameAgent⟩ := hread hne
    obtain ⟨row, hrow, hrowOrganization, hrowAgent, -⟩ := readFrom_of_keeps hfound hkeeps
    refine ⟨row, hrow, ?_, ?_⟩
    · rw [horganization, ← hsame, hrowOrganization]
    · rw [hagent, ← hsameAgent, hrowAgent]

variable (store) in
/-- A call as a program. -/
def program : RoiCall F → Proc (RoiTables F V T) PyExc Unit
  | .createOpportunity form uuid now => do let _ ← store.createOpportunity form uuid now
  | .transition form historyId now => do let _ ← store.transition form historyId now
  | .recordValue form measurementId now today => do
    let _ ← store.recordValue form measurementId now today
  | .recordCost form costId now today => do let _ ← store.recordCost form costId now today

/-- Each step of each method is one of `LedgerStep`. -/
theorem follows_program (call : RoiCall F) : store.Stepping (store.program call) t := by
  have hdrop : ∀ {β : Type} {p : Proc (RoiTables F V T) PyExc β}, store.Stepping p t →
      store.Stepping (p >>= fun _ => pure ()) t := fun hp =>
    Proc.follows_bind Keeps.refl hp fun _ _ => stepping_done
  cases call with
  | createOpportunity => exact hdrop stepping_createOpportunity
  | transition => exact hdrop stepping_transition
  | recordValue => exact hdrop stepping_recordValue
  | recordCost => exact hdrop stepping_recordCost

/-- The values follow their opportunities through any interleaving. -/
theorem keeping_program (call : RoiCall F) : Keeping (fun _ _ => True) (store.program call) t :=
  ((follows_program call).safe fun _ _ hstep => hstep.valuesFollow).weaken fun _ _ hstep =>
    hstep.keeps

theorem after_eq_program (call : RoiCall F) :
    store.after t call = ((store.program call).run t).2 := by
  have hdrop : ∀ {β : Type} (p : Proc (RoiTables F V T) PyExc β),
      (p.run t).2 = (Proc.run (p >>= fun _ => pure ()) t).2 := by
    intro β p
    rw [Proc.run_bind]
    rcases p.run t with ⟨_ | _, u⟩
    · rfl
    · rfl
  cases call with
  | createOpportunity => exact hdrop _
  | transition => exact hdrop _
  | recordValue => exact hdrop _
  | recordCost => exact hdrop _

/-- What every step keeps holds in every ledger that calls bring about: by
induction on the calls. -/
theorem Reached.invariant {J : RoiTables F V T → Prop} (hempty : J .empty)
    (hstep : ∀ s u, store.LedgerStep s u → J s → J u) (h : store.Reached t) : J t := by
  induction h with
  | empty => exact hempty
  | call _ call ih =>
    rw [after_eq_program]
    exact (follows_program call).run Keeps.refl hstep ih

theorem Reached.valuesFollow (h : store.Reached t) : t.ValuesFollow := by
  induction h with
  | empty => exact fun _ hmem => absurd hmem List.not_mem_nil
  | call _ call ih =>
    rw [after_eq_program]
    exact ((keeping_program call).run Keeps.refl ih).1

end

end RoiStore

end AgentRoi
