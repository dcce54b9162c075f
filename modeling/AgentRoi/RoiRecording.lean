/-
When realized value is recorded.

`record_value` looks at the status first and inserts later.

* `AboutToRecord`, `Closes`, `NoRace` — a caller between the two, a step that
  closes an opportunity, and the runs that keep them apart;
* `Gated` — a program that is about to record has found the opportunity in
  progress;
* `gated_program` — all methods are;
* `realized_in_progress` — in the runs without such a race, realized value is
  inserted only while its opportunity is in progress.
-/
import AgentRoi.RoiSummary

namespace AgentRoi

open RowTable

variable {F V T ι α β : Type}

/-- `stage_enum in {ValueStage.REALIZED, ValueStage.VALIDATED}`. -/
def ValueStage.Realized (stage : ValueStage) : Prop := stage = .realized ∨ stage = .validated

instance instDecidableRealized (stage : ValueStage) : Decidable stage.Realized :=
  inferInstanceAs (Decidable (_ ∨ _))

def OpportunityStatus.InProgress (status : OpportunityStatus) : Prop :=
  status = .inProgress ∨ status = .realizing ∨ status = .validated

theorem inProgress_of_canRecord {stage : ValueStage} {status : OpportunityStatus}
    (h : RoiStore.canRecord stage status = true) (hstage : stage.Realized) : status.InProgress := by
  cases stage <;> cases status <;> simp_all [ValueStage.Realized, OpportunityStatus.InProgress,
    RoiStore.canRecord]

/-- What is in progress stays so, or is closed. -/
theorem OpportunityStatus.InProgress.next {status new : OpportunityStatus} (h : status.InProgress)
    (hnew : new ∈ allowedTransitions status) : new.InProgress ∨ new = .closed := by
  rcases h with rfl | rfl | rfl
  · simp only [allowedTransitions, List.mem_cons, List.not_mem_nil, or_false] at hnew
    exact hnew.imp (fun h => .inr (.inl h)) id
  · simp only [allowedTransitions, List.mem_cons, List.not_mem_nil, or_false] at hnew
    exact hnew.imp (fun h => .inr (.inr h)) id
  · exact .inr (List.mem_singleton.mp hnew)

namespace RoiTables

variable {t t' : RoiTables F V T} {id : Str}

/-- The stored status of the opportunity is one of those in progress. -/
def InProgress (t : RoiTables F V T) (id : Str) : Prop :=
  ∃ row, t.opportunity id = some row ∧ row.status.InProgress

/-- A realized or validated value is inserted for the opportunity. -/
def Records (id : Str) (t t' : RoiTables F V T) : Prop :=
  ∃ value ∈ t'.values, value ∉ t.values ∧ value.stage.Realized ∧ value.opportunityId = id

/-- The opportunity is closed. -/
def Closes (id : Str) (t t' : RoiTables F V T) : Prop :=
  (∃ row, t.opportunity id = some row ∧ row.status ≠ .closed) ∧
    ∃ row, t'.opportunity id = some row ∧ row.status = .closed

end RoiTables

namespace RoiStore

open RoiTables

/-! ### Between the check and the insertion -/

/-- The next step of the program may insert a realized value. -/
def AboutToRecord (p : Proc (RoiTables F V T) PyExc α) (id : Str) : Prop :=
  ∃ act next, p = .step act next ∧ ∃ t, Records id t (act t)

/-- No opportunity is closed while a caller is about to record its value. -/
def NoRace (pool : Pool ι (RoiTables F V T) PyExc α) (t' : RoiTables F V T) : Prop :=
  ∀ id, Closes id pool.state t' → ∀ i p, pool.procs i = some p → ¬AboutToRecord p id

/-- Whenever the program is about to record a value, its opportunity is in
progress at that moment. -/
def Gated : Proc (RoiTables F V T) PyExc α → Prop
  | .done _ => True
  | .step act next =>
    ∀ t, (∀ id, AboutToRecord (next t) id → (act t).InProgress id) ∧ Gated (next t)

/-- A gated program, from these tables on. -/
def GatedFrom (t : RoiTables F V T) (p : Proc (RoiTables F V T) PyExc α) : Prop :=
  (∀ id, AboutToRecord p id → t.InProgress id) ∧ Gated p

/-- The steps of the program insert no values. -/
def NeverRecords (p : Proc (RoiTables F V T) PyExc α) : Prop :=
  ∀ t, Proc.Follows (fun _ _ => True) (fun t t' => t'.values = t.values) p t

theorem NeverRecords.not_aboutToRecord {p : Proc (RoiTables F V T) PyExc α} (h : NeverRecords p)
    {id : Str} : ¬AboutToRecord p id := by
  rintro ⟨act, next, rfl, t, value, hvalue, hnew, -⟩
  obtain ⟨-, hsame, -⟩ := h t t trivial trivial
  rw [hsame] at hvalue
  exact hnew hvalue

theorem NeverRecords.next {act : RoiTables F V T → RoiTables F V T}
    {next : RoiTables F V T → Proc (RoiTables F V T) PyExc α} (h : NeverRecords (.step act next))
    (t : RoiTables F V T) : NeverRecords (next t) := by
  intro u
  obtain ⟨-, -, hs⟩ := h t t trivial trivial
  exact hs.rely (fun _ _ _ _ _ => trivial) trivial

theorem NeverRecords.gated {p : Proc (RoiTables F V T) PyExc α} (h : NeverRecords p) : Gated p := by
  induction p with
  | done r => trivial
  | step act next ih =>
    intro t
    exact ⟨fun id habout => absurd habout (h.next t).not_aboutToRecord, ih t (h.next t)⟩

theorem never_done {r : Except PyExc α} :
    NeverRecords (.done r : Proc (RoiTables F V T) PyExc α) := fun _ _ _ _ => trivial

theorem never_reading {x : RoiTables F V T → Except PyExc α} : NeverRecords (reading x) :=
  fun _ => Proc.follows_atomic fun _ _ => rfl

theorem never_writing {x : PyM (RoiTables F V T) α}
    (h : ∀ u u' a, x u = (.ok a, u') → u'.values = u.values) : NeverRecords (writing x) := by
  intro t
  refine Proc.follows_atomic fun u _ => ?_
  rcases hx : x u with ⟨e | a, u'⟩
  · -- a failed transaction leaves the tables as they were
    have hback : x.transaction u = (.error e, u) := by
      unfold PyM.transaction
      rw [hx]
    rw [hback]
  · rw [PyM.transaction_eq_ok.mpr hx]
    exact h u u' a hx

theorem never_bind {p : Proc (RoiTables F V T) PyExc α} {f : α → Proc (RoiTables F V T) PyExc β}
    (hp : NeverRecords p) (hf : ∀ a, NeverRecords (f a)) : NeverRecords (p >>= f) :=
  fun t => Proc.follows_bind (fun _ => trivial) (hp t) fun a u => hf a u

section

variable [LE T] [PyFloatOps F] [PyDecimalFloat F] {store : RoiStore F V T}

theorem never_createOpportunity {form : OpportunityForm F} {uuid now : Str} :
    NeverRecords (store.createOpportunity form uuid now) := by
  refine never_bind never_done fun (currency, valueType, valuePeriod) => ?_
  refine never_bind (never_writing fun u u' _ h => ?_) fun _ => never_reading
  obtain ⟨row, -, hinsert⟩ := inserting_eq_ok h
  obtain ⟨hid, hsource, rfl⟩ := insertOpportunity_eq_ok hinsert
  rfl

theorem never_transition {form : TransitionForm} {historyId now : Str} :
    NeverRecords (store.transition form historyId now) := by
  refine never_bind never_done fun new => never_bind never_reading fun current => ?_
  split
  · exact never_done
  refine never_bind (never_writing fun u u' _ h => ?_) fun _ => never_reading
  obtain ⟨changed, hid, hopportunity, rfl, -⟩ := move_eq_ok h
  rfl

theorem never_recordCost {form : CostForm} {costId now today : Str} :
    NeverRecords (store.recordCost form costId now today) := by
  have hcheck : NeverRecords (store.checkCostOpportunity form) := by
    unfold checkCostOpportunity
    split
    · exact never_done
    refine never_bind never_reading fun opportunity => ?_
    split
    · exact never_done
    · exact never_done
  refine never_bind hcheck fun _ => never_bind never_done fun _ => never_bind never_done fun _ => ?_
  refine never_bind (never_writing fun u u' _ h => ?_) fun _ => never_bind never_done fun _ =>
    never_bind never_done fun _ => never_done
  obtain ⟨cost, -, hinsert⟩ := inserting_eq_ok h
  obtain ⟨hid, hevidence, hopportunity, rfl⟩ := insertCost_eq_ok hinsert
  rfl

omit [PyFloatOps F] [PyDecimalFloat F] in
/-- The insertion of `record_value`, about to be made, is one for the
opportunity that was read, if the stage may be recorded. -/
theorem records_inserting {message : Str} {row : Except PyExc (ValueRow T)} {id : Str}
    {t : RoiTables F V T}
    (h : Records id t ((store.inserting message row insertValue).transaction t).2) :
    ∃ value, row = .ok value ∧ value.stage.Realized ∧ value.opportunityId = id := by
  obtain ⟨value, hvalue, hnew, hstage, hid⟩ := h
  rcases hx : store.inserting message row insertValue t with ⟨e | a, t'⟩
  · have hback : (store.inserting message row insertValue).transaction t = (.error e, t) := by
      unfold PyM.transaction
      rw [hx]
    rw [hback] at hvalue
    exact absurd hvalue hnew
  · rw [PyM.transaction_eq_ok.mpr hx] at hvalue
    obtain ⟨value', hrow, hinsert⟩ := inserting_eq_ok hx
    obtain ⟨_, _, _, rfl⟩ := insertValue_eq_ok hinsert
    rcases List.mem_append.mp hvalue with hmem | hmem
    · exact absurd hmem hnew
    · obtain rfl := List.mem_singleton.mp hmem
      exact ⟨value, hrow, hstage, hid⟩

end

/-! ### The methods -/

theorem gatedFrom_of_never {t : RoiTables F V T} {p : Proc (RoiTables F V T) PyExc α}
    (h : NeverRecords p) : GatedFrom t p :=
  ⟨fun _ habout => absurd habout h.not_aboutToRecord, h.gated⟩

theorem gatedFrom_done_bind {t : RoiTables F V T} {r : Except PyExc α}
    {f : α → Proc (RoiTables F V T) PyExc β} (h : ∀ a, r = .ok a → GatedFrom t (f a)) :
    GatedFrom t (.done r >>= f) := by
  cases r with
  | ok a => exact h a rfl
  | error e => exact gatedFrom_of_never never_done

theorem gated_reading {x : RoiTables F V T → Except PyExc α}
    {f : α → Proc (RoiTables F V T) PyExc β} (h : ∀ t a, x t = .ok a → GatedFrom t (f a)) :
    Gated (reading x >>= f) :=
  fun t => gatedFrom_done_bind fun a ha => h t a ha

theorem not_aboutToRecord_reading {x : RoiTables F V T → Except PyExc α}
    {f : α → Proc (RoiTables F V T) PyExc β} {id : Str} : ¬AboutToRecord (reading x >>= f) id := by
  rintro ⟨act, next, h, t, value, hvalue, hnew, -⟩
  cases h
  exact hnew hvalue

theorem aboutToRecord_writing {x : PyM (RoiTables F V T) α}
    {f : α → Proc (RoiTables F V T) PyExc β} {id : Str} (h : AboutToRecord (writing x >>= f) id) :
    ∃ t, Records id t (x.transaction t).2 := by
  obtain ⟨act, next, h, t, hrecords⟩ := h
  cases h
  exact ⟨t, hrecords⟩

theorem gated_writing {x : PyM (RoiTables F V T) α} {f : α → Proc (RoiTables F V T) PyExc β}
    (hf : ∀ a, NeverRecords (f a)) : Gated (writing x >>= f) :=
  fun _ => gatedFrom_of_never (never_bind never_done hf)

section

variable [LE T] [PyFloatOps F] [PyDecimalFloat F] {store : RoiStore F V T} {t : RoiTables F V T}

/-- `record_value` inserts what the status it has read allows. -/
theorem gated_recordValue {form : ValueForm} {measurementId now today : Str} :
    Gated (store.program (.recordValue form measurementId now today)) := by
  show Gated (store.recordValue form measurementId now today >>= fun _ => pure ())
  unfold recordValue
  rw [getOpportunity, Proc.bind_assoc]
  refine gated_reading fun t opportunity hread => ?_
  rw [Proc.bind_assoc]
  refine gatedFrom_done_bind fun stage _ => ?_
  split
  · exact gatedFrom_of_never never_done
  next hgate =>
  rw [Bool.not_eq_true, Bool.not_eq_false'] at hgate
  rw [Proc.bind_assoc]
  refine gatedFrom_done_bind fun _ _ => ?_
  dsimp only
  rw [Proc.bind_assoc]
  refine gatedFrom_done_bind fun _ _ => ?_
  rw [Proc.bind_assoc]
  refine ⟨fun id habout => ?_, gated_writing fun _ => never_bind
    (never_bind never_done fun _ => never_done) fun _ => never_done⟩
  obtain ⟨u, hrecords⟩ := aboutToRecord_writing habout
  obtain ⟨value, hvalue, hstage, rfl⟩ := records_inserting hrecords
  obtain ⟨hid, -, -, hsame⟩ := newValue_eq_ok hvalue
  obtain ⟨row, hrow, hitem⟩ := findOpportunity_eq_ok hread
  obtain ⟨-, -, -, -, hstatus, -⟩ := toOpportunity_eq_ok hitem
  rw [hsame] at hstage
  refine ⟨row, ?_, ?_⟩
  · rw [hid]
    exact hrow
  · rw [← hstatus]
    exact inProgress_of_canRecord hgate hstage

/-- No method starts with an insertion, and all are gated. -/
theorem gated_program (call : RoiCall F) : GatedFrom t (store.program call) := by
  cases call with
  | createOpportunity =>
    exact gatedFrom_of_never (never_bind never_createOpportunity fun _ => never_done)
  | transition => exact gatedFrom_of_never (never_bind never_transition fun _ => never_done)
  | recordValue form measurementId now today =>
    refine ⟨fun id habout => ?_, gated_recordValue⟩
    have hreads : store.program (.recordValue form measurementId now today) = _ :=
      Proc.bind_assoc (store.getOpportunity form.opportunityId) _ _
    rw [hreads] at habout
    exact absurd habout not_aboutToRecord_reading
  | recordCost => exact gatedFrom_of_never (never_bind never_recordCost fun _ => never_done)

omit [PyFloatOps F] [PyDecimalFloat F] in
/-- An opportunity in progress stays so, or a step closes it. -/
theorem LedgerStep.inProgress {t' : RoiTables F V T} {id : Str} (h : store.LedgerStep t t')
    (hprogress : t.InProgress id) : t'.InProgress id ∨ Closes id t t' := by
  obtain ⟨row, hrow, hstatus⟩ := hprogress
  cases h with
  | stays => exact .inl ⟨row, hrow, hstatus⟩
  | @created new hid hsource =>
    have hne : new.opportunityId ≠ id := by
      rintro rfl
      rw [hid] at hrow
      cases hrow
    exact .inl ⟨row, (rowAt_append_of_ne hne).trans hrow, hstatus⟩
  | @moved change found hid hopportunity hfound hold hnew =>
    have hafter : ((t.setStatus change.opportunityId change.newStatus).insertHistory change hid
        hopportunity).opportunity id = some (if row.opportunityId = change.opportunityId then
          row.moved change.newStatus else row) := by
      refine opportunity_setStatus.trans ?_
      rw [hrow, Option.map_some]
    rw [key_of_rowAt hrow] at hafter
    by_cases hsame : id = change.opportunityId
    · subst hsame
      rw [hrow] at hfound
      cases hfound
      rw [if_pos rfl] at hafter
      rw [← hold] at hnew
      rcases hstatus.next hnew with hnext | hclosed
      · exact .inl ⟨_, hafter, hnext⟩
      · refine .inr ⟨⟨row, hrow, ?_⟩, _, hafter, hclosed⟩
        intro hwas
        rw [hwas] at hnew
        exact absurd hnew List.not_mem_nil
    · rw [if_neg hsame] at hafter
      exact .inl ⟨row, hafter, hstatus⟩
  | valued => exact .inl ⟨row, hrow, hstatus⟩
  | costed => exact .inl ⟨row, hrow, hstatus⟩

variable [DecidableEq ι]

variable (store) in
/-- The ledgers that any number of calls bring about, interleaved in any order. -/
def LedgerRun : Pool ι (RoiTables F V T) PyExc Unit → Prop :=
  Pool.Reach (fun t => t = .empty) (fun _ p => ∃ call, p = store.program call) fun t t' => t' = t

variable (store) in
/-- Those of the runs in which no opportunity is closed while a caller is
about to record its value. -/
def RaceFreeRun : Pool ι (RoiTables F V T) PyExc Unit → Prop :=
  Pool.ReachUnder (fun t => t = .empty) (fun _ p => ∃ call, p = store.program call) NoRace

/-- The steps of any number of callers. -/
theorem LedgerRun.step {pool : Pool ι (RoiTables F V T) PyExc Unit} (h : store.LedgerRun pool)
    {i : ι} {act : RoiTables F V T → RoiTables F V T}
    {next : RoiTables F V T → Proc (RoiTables F V T) PyExc Unit}
    (hproc : pool.procs i = some (.step act next)) :
    store.LedgerStep pool.state (act pool.state) := by
  have hc : Pool.Compatible (fun _ : RoiTables F V T => True) (fun _ : ι => Keeps)
      (fun _ => store.LedgerStep) fun t t' => t' = t :=
    { refl := fun _ => .refl
      trans := fun _ _ _ _ => .trans
      others := fun _ _ _ _ _ hstep => hstep.keeps
      env_inv := fun _ _ _ _ => trivial
      env_rely := fun _ t t' ht => ht ▸ .refl t }
  have hsafe : ∀ (i : ι) p (t : RoiTables F V T), (∃ call, p = store.program call) → True →
      Proc.Safe Keeps store.LedgerStep (fun _ => True) (fun _ _ => True) p t := by
    rintro _ p t ⟨call, rfl⟩ -
    exact follows_program call
  obtain ⟨-, hall⟩ := Pool.Reach.safe hc (fun _ _ => trivial) hsafe h
  obtain ⟨-, hstep, -⟩ := hall i _ hproc pool.state (.refl _) trivial
  exact hstep

/-- A caller that is about to record has its opportunity in progress: by
induction on the run. -/
theorem RaceFreeRun.gated {pool : Pool ι (RoiTables F V T) PyExc Unit}
    (h : store.RaceFreeRun pool) : ∀ i p, pool.procs i = some p → GatedFrom pool.state p := by
  induction h with
  | init => exact fun _ _ hp => by cases hp
  | start _ _ hp ih =>
    obtain ⟨call, rfl⟩ := hp
    intro j q hq
    rcases Pool.update_eq_some hq with ⟨rfl, hsome⟩ | ⟨-, hsome⟩
    · obtain rfl := Option.some.inj hsome
      exact gated_program call
    · exact ih j q hsome
  | @step s procs i act next hrun hproc hok ih =>
    intro j q hq
    rcases Pool.update_eq_some hq with ⟨rfl, hsome⟩ | ⟨-, hsome⟩
    · obtain rfl := Option.some.inj hsome
      exact (ih j _ hproc).2 s
    · obtain ⟨hprogress, hgated⟩ := ih j q hsome
      refine ⟨fun id habout => ?_, hgated⟩
      -- the step of another caller closes the opportunity in a race only
      have hledger : store.LedgerRun ⟨s, procs⟩ := hrun.reach
      rcases (hledger.step hproc).inProgress (hprogress id habout) with hstill | hcloses
      · exact hstill
      · exact absurd habout (hok id hcloses j q hsome)
  | stop _ _ ih =>
    intro j q hq
    rcases Pool.update_eq_some hq with ⟨-, hsome⟩ | ⟨-, hsome⟩
    · cases hsome
    · exact ih j q hsome

/-- A call that never records, alone. -/
theorem raceFree_run {t : RoiTables F V T} (h : store.RaceFreeRun ⟨t, fun _ : ι => none⟩) (i : ι)
    (call : RoiCall F) (hnever : NeverRecords (store.program call)) :
    store.RaceFreeRun ⟨((store.program call).run t).2, fun _ : ι => none⟩ := by
  have hstart : store.RaceFreeRun
      ⟨t, Function.update (fun _ => none) i (some (store.program call))⟩ := h.start rfl ⟨call, rfl⟩
  clear h
  generalize store.program call = p at hstart hnever
  induction p generalizing t with
  | done r =>
    have hstop := hstart.stop (Function.update_self i _ _)
    rw [Function.update_idem] at hstop
    rwa [Function.update_eq_self_iff.mpr rfl] at hstop
  | step act next ih =>
    have hnext := hstart.step (Function.update_self i _ _) fun id _ j q hq => by
      have hq' : Function.update (fun _ => none) i (some (.step act next)) j = some q := hq
      rcases Pool.update_eq_some hq' with ⟨-, hsome⟩ | ⟨-, hsome⟩
      · obtain rfl := Option.some.inj hsome
        exact hnever.not_aboutToRecord
      · cases hsome
    rw [Function.update_idem] at hnext
    exact ih t hnext (hnever.next t)

/-- In the runs without a race, every step that inserts a realized or validated
value finds its opportunity in progress. -/
theorem realized_in_progress {pool : Pool ι (RoiTables F V T) PyExc Unit}
    (h : store.RaceFreeRun pool) {i : ι} {act : RoiTables F V T → RoiTables F V T}
    {next : RoiTables F V T → Proc (RoiTables F V T) PyExc Unit}
    (hproc : pool.procs i = some (.step act next)) :
    ∀ value ∈ (act pool.state).values, value ∉ pool.state.values → value.stage.Realized →
      ∃ row, pool.state.opportunity value.opportunityId = some row ∧ row.status.InProgress :=
  fun value hvalue hnew hstage => (h.gated i _ hproc).1 value.opportunityId
    ⟨act, next, rfl, pool.state, value, hvalue, hnew, hstage, rfl⟩

end

end RoiStore

/-! ### A value recorded for a closed opportunity -/

/-- A realized half dollar. -/
def sampleValue : ValueForm where
  opportunityId := lit "0"
  stage := lit "realized"
  amountUsd := some (.finite ⟨false, 5, 1⟩)
  evidenceKey := lit "e"
  recordedBy := lit "w"
  evidenceUri := []
  measurementDate := []
  notes := []

def createSample : RoiCall SmallFloat :=
  .createOpportunity (sampleOpportunity 0) [] (lit "2024-01-01T00:00:00+00:00")

def moveTo (status historyId : Str) : RoiCall SmallFloat :=
  .transition ⟨lit "0", status, lit "w", [], none⟩ historyId (lit "2024-01-02T00:00:00+00:00")

def recordSample : RoiCall SmallFloat :=
  .recordValue sampleValue (lit "m") (lit "2024-01-03T00:00:00+00:00") (lit "2024-01-03")

def afterCall (t : RoiTables SmallFloat Str Str) (call : RoiCall SmallFloat) :
    RoiTables SmallFloat Str Str := ((sampleLedger.program call).run t).2

/-- An opportunity in progress. -/
def startedTables : RoiTables SmallFloat Str Str :=
  afterCall (afterCall (afterCall .empty createSample) (moveTo (lit "approved") (lit "h1")))
    (moveTo (lit "in_progress") (lit "h2"))

/-- What remains of `record_value` after it has read the opportunity. -/
def halfRecorded : Proc (RoiTables SmallFloat Str Str) PyExc Unit :=
  ((sampleLedger.program recordSample).after 1 startedTables).1

/-- The opportunity is closed meanwhile. -/
def closing : Proc (RoiTables SmallFloat Str Str) PyExc Unit × RoiTables SmallFloat Str Str :=
  (sampleLedger.program (moveTo (lit "closed") (lit "h3"))).after 3
    ((sampleLedger.program recordSample).after 1 startedTables).2

/-- Its next step is the insertion. -/
theorem halfRecorded_step {t : RoiTables SmallFloat Str Str}
    (h : (halfRecorded.after 1 t).2.values ≠ t.values) :
    ∃ act next, halfRecorded = .step act next ∧ act t = (halfRecorded.after 1 t).2 := by
  cases hrest : halfRecorded with
  | done r =>
    rw [hrest] at h
    exact absurd rfl h
  | step act next => exact ⟨act, next, rfl, rfl⟩

theorem never_moveTo {status historyId : Str} :
    RoiStore.NeverRecords (sampleLedger.program (moveTo status historyId)) :=
  RoiStore.never_bind RoiStore.never_transition fun _ => RoiStore.never_done

theorem never_createSample : RoiStore.NeverRecords (sampleLedger.program createSample) :=
  RoiStore.never_bind RoiStore.never_createOpportunity fun _ => RoiStore.never_done

theorem realized_in_progress_started : ∃ act next, halfRecorded = .step act next ∧
    (act startedTables).values.length = 1 ∧
    ∀ value ∈ (act startedTables).values, value ∉ startedTables.values → value.stage.Realized →
      ∃ row, startedTables.opportunity value.opportunityId = some row ∧
        row.status.InProgress := by
  obtain ⟨act, next, hrest, hact⟩ := halfRecorded_step (t := startedTables) (by decide +kernel)
  refine ⟨act, next, hrest, ?_, ?_⟩
  · rw [hact]
    decide +kernel
  have hstarted : sampleLedger.RaceFreeRun ⟨startedTables, fun _ : ℕ => none⟩ :=
    RoiStore.raceFree_run (RoiStore.raceFree_run (RoiStore.raceFree_run (.init rfl) 0 _
      never_createSample) 0 _ never_moveTo) 0 _ never_moveTo
  -- the first step reads, and closes nothing
  have hread : sampleLedger.RaceFreeRun
      ⟨startedTables, Function.update (fun _ : ℕ => none) 0 (some halfRecorded)⟩ := by
    have hstart := hstarted.start (i := 0) rfl ⟨recordSample, rfl⟩
    have hnext := hstart.step (Function.update_self 0 _ _) fun id hcloses => by
      obtain ⟨⟨row, hrow, hopen⟩, row', hrow', hclosed⟩ := hcloses
      cases hrow.symm.trans hrow'
      exact absurd hclosed hopen
    rw [Function.update_idem] at hnext
    exact hnext
  rw [hrest] at hread
  exact RoiStore.realized_in_progress (i := 0) hread (show _ = some (Proc.step act next) from rfl)

/-- The insertion that finds the opportunity closed. -/
theorem realized_when_closed : ∃ (pool : Pool ℕ (RoiTables SmallFloat Str Str) PyExc Unit)
    (i : ℕ) (act : RoiTables SmallFloat Str Str → RoiTables SmallFloat Str Str)
    (next : RoiTables SmallFloat Str Str → Proc (RoiTables SmallFloat Str Str) PyExc Unit),
    sampleLedger.LedgerRun pool ∧ pool.procs i = some (.step act next) ∧
    ∃ value ∈ (act pool.state).values, value ∉ pool.state.values ∧ value.stage.Realized ∧
      (pool.state.opportunity value.opportunityId).map OpportunityRow.status = some .closed := by
  obtain ⟨act, next, hrest, hact⟩ := halfRecorded_step (t := closing.2) (by decide +kernel)
  have hstarted : sampleLedger.LedgerRun ⟨startedTables, fun _ : ℕ => none⟩ :=
    Pool.Reach.run (i := 0) (Pool.Reach.run (i := 0) (Pool.Reach.run (i := 0) (.init rfl)
      ⟨createSample, rfl⟩) ⟨_, rfl⟩) ⟨_, rfl⟩
  have hread := Pool.Reach.after 1 (hstarted.start (i := 0) rfl ⟨recordSample, rfl⟩)
  have hclose := Pool.Reach.after 3 (hread.start (i := 1) rfl ⟨moveTo (lit "closed") (lit "h3"), rfl⟩)
  refine ⟨_, 0, act, next, hclose, ?_, ?_⟩
  · show some halfRecorded = _
    rw [hrest]
  · show ∃ value ∈ (act closing.2).values, value ∉ closing.2.values ∧ _ ∧
      (closing.2.opportunity _).map _ = _
    rw [hact]
    decide +kernel

end AgentRoi
