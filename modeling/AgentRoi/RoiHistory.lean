/-
The status history of the ROI ledger, over every interleaving of calls.

* `historyOf`, `follow` — the rows of an opportunity, and the path they form;
* `HistoryPaths` — every history leads to the current status, one revision for
  each row;
* `LedgerStep.historyPaths`, `LedgerStep.closed` — every step keeps that, and
  leaves closed opportunities alone;
* `history_is_path` — all of it, for any number of callers.
-/
import AgentRoi.RoiSummary
import AgentRoi.Watching

namespace AgentRoi

open RowTable

variable {F V T ι : Type}

/-- Where a path of rows leads to; `none` if the rows form no path of allowed
transitions. -/
def follow (start : OpportunityStatus) : List (HistoryRow T) → Option OpportunityStatus
  | [] => some start
  | row :: rows =>
    if row.oldStatus = start ∧ row.newStatus ∈ allowedTransitions start then
      follow row.newStatus rows
    else none

/-- A path, and one transition more. -/
theorem follow_append {start status : OpportunityStatus} {rows : List (HistoryRow T)}
    {row : HistoryRow T} (h : follow start rows = some status) (hold : row.oldStatus = status)
    (hnew : row.newStatus ∈ allowedTransitions status) :
    follow start (rows ++ [row]) = some row.newStatus := by
  induction rows generalizing start with
  | nil =>
    cases h
    exact if_pos ⟨hold, hnew⟩
  | cons first rows ih =>
    rw [follow] at h
    split at h
    · next hfirst =>
      rw [List.cons_append, follow, if_pos hfirst]
      exact ih h
    · cases h

namespace RoiTables

variable {t t' : RoiTables F V T} {id : Str}

/-- The status history of an opportunity, in the order it was written. -/
def historyOf (t : RoiTables F V T) (id : Str) : List (HistoryRow T) :=
  t.history.filter fun row => row.opportunityId = id

/-- The history of every opportunity is a path to its status. -/
def HistoryPaths (t : RoiTables F V T) : Prop :=
  ∀ id row, t.opportunity id = some row → follow .proposed (t.historyOf id) = some row.status ∧
    row.revision = 1 + (t.historyOf id).length

/-- An opportunity that does not exist has no history. -/
theorem historyOf_eq_nil (h : t.opportunity id = none) : t.historyOf id = [] := by
  refine List.filter_eq_nil_iff.mpr fun row hrow hid => ?_
  have hexists := t.historyOpportunity row hrow
  rw [of_decide_eq_true hid] at hexists
  exact rowAt_eq_none_iff.mp h hexists

theorem historyOf_insertHistory {row : HistoryRow T}
    (hid : rowAt HistoryRow.historyId row.historyId t.history = none)
    (hopportunity : t.HasOpportunity row.opportunityId) :
    (t.insertHistory row hid hopportunity).historyOf id =
      t.historyOf id ++ if row.opportunityId = id then [row] else [] := by
  show (t.history ++ [row]).filter _ = _
  rw [List.filter_append, List.filter_singleton, Bool.cond_decide]
  rfl

end RoiTables

namespace RoiStore

open RoiTables

section

variable [LE T] {store : RoiStore F V T} {t t' : RoiTables F V T}

theorem LedgerStep.historyPaths (h : store.LedgerStep t t') (hi : t.HistoryPaths) :
    t'.HistoryPaths := by
  cases h with
  | stays => exact hi
  | @created row hid hsource hstatus hrevision =>
    intro id found hfound
    by_cases hsame : row.opportunityId = id
    · subst hsame
      rw [opportunity, RoiTables.insertOpportunity, rowAt_append_self hid] at hfound
      cases hfound
      show follow .proposed (t.historyOf row.opportunityId) = _ ∧
        _ = 1 + (t.historyOf row.opportunityId).length
      -- an opportunity begins with no history
      rw [historyOf_eq_nil hid, hstatus, hrevision]
      exact ⟨rfl, rfl⟩
    · rw [opportunity, RoiTables.insertOpportunity, rowAt_append_of_ne hsame] at hfound
      exact hi id found hfound
  | @moved row found hid hopportunity hfound hold hnew =>
    intro id row' hrow'
    have hmap : (t.opportunity id).map (fun opportunity =>
        if opportunity.opportunityId = row.opportunityId then opportunity.moved row.newStatus
        else opportunity) = some row' := opportunity_setStatus.symm.trans hrow'
    rw [historyOf_insertHistory]
    show follow .proposed (t.historyOf id ++ _) = _ ∧ _ = 1 + (t.historyOf id ++ _).length
    obtain ⟨before, hbefore, rfl⟩ := Option.map_eq_some_iff.mp hmap
    obtain ⟨hpath, hrevision⟩ := hi id before hbefore
    rw [key_of_rowAt hbefore]
    by_cases hsame : row.opportunityId = id
    · subst hsame
      rw [hfound] at hbefore
      cases hbefore
      rw [if_pos rfl, if_pos rfl, List.length_append]
      -- the path of the opportunity goes on from the status it had
      refine ⟨follow_append hpath hold.symm ?_, ?_⟩
      · rw [hold]
        exact hnew
      · show found.revision + 1 = _
        rw [hrevision, Nat.add_assoc]
        rfl
    · rw [if_neg hsame, if_neg fun hid => hsame hid.symm, List.append_nil]
      exact ⟨hpath, hrevision⟩
  | valued => exact hi
  | costed => exact hi

/-- No step changes a closed opportunity, or adds to its history. -/
theorem LedgerStep.closed (h : store.LedgerStep t t') {id : Str} {row : OpportunityRow F V T}
    (hrow : t.opportunity id = some row) (hclosed : row.status = .closed) :
    t'.opportunity id = some row ∧ t'.historyOf id = t.historyOf id := by
  cases h with
  | stays => exact ⟨hrow, rfl⟩
  | @created new hid hsource =>
    have hne : new.opportunityId ≠ id := by
      rintro rfl
      rw [hid] at hrow
      cases hrow
    exact ⟨(rowAt_append_of_ne hne).trans hrow, rfl⟩
  | @moved change found hid hopportunity hfound hold hnew =>
    have hne : change.opportunityId ≠ id := by
      rintro rfl
      rw [hrow] at hfound
      cases hfound
      -- nothing follows a closed opportunity
      rw [← hold, hclosed] at hnew
      exact absurd hnew List.not_mem_nil
    constructor
    · refine opportunity_setStatus.trans ?_
      rw [hrow, Option.map_some, key_of_rowAt hrow, if_neg fun hid => hne hid.symm]
    · rw [historyOf_insertHistory, if_neg hne]
      exact List.append_nil _
  | valued => exact ⟨hrow, rfl⟩
  | costed => exact ⟨hrow, rfl⟩

end

/-! ### Transitions that raise -/

section

variable [LE T] [PyFloatOps F] [PyDecimalFloat F] {store : RoiStore F V T} {t : RoiTables F V T}

/-- What was read can be read again. -/
theorem findOpportunity_keeps {u : RoiTables F V T} {id : Str} {opportunity : ValueOpportunity F}
    (h : store.findOpportunity id t = .ok opportunity) (hkeeps : Keeps t u) :
    ∃ opportunity', store.findOpportunity id u = .ok opportunity' := by
  obtain ⟨_, hbind, -⟩ := except_bind_eq_ok.mp h
  obtain ⟨row, hrow, hitem⟩ := findOpportunity_eq_ok h
  obtain ⟨row', hrow', hmoved⟩ := hkeeps id row hrow
  obtain ⟨metadata, hmetadata, -⟩ := except_bind_eq_ok.mp hitem
  have hsame : row'.metadataJson = row.metadataJson := by rw [hmoved]
  unfold findOpportunity
  rw [hbind, hrow']
  show ∃ opportunity', store.toOpportunity row' = .ok opportunity'
  unfold toOpportunity
  rw [hsame, hmetadata]
  exact ⟨_, rfl⟩

section

variable {α β : Type} {R : RoiTables F V T → RoiTables F V T → Prop}
  {f : α → Proc (RoiTables F V T) PyExc β}

omit [LE T] [PyFloatOps F] [PyDecimalFloat F] in
theorem clean_done_bind {r : Except PyExc α} (h : ∀ a, r = .ok a → Proc.Clean R (f a) t) :
    Proc.Clean R (.done r >>= f) t := by
  cases r with
  | ok a => exact h a rfl
  | error e => trivial

omit [LE T] [PyFloatOps F] [PyDecimalFloat F] in
theorem clean_reading {x : RoiTables F V T → Except PyExc α}
    (h : ∀ u a, R t u → x u = .ok a → Proc.Clean R (f a) u) :
    Proc.Clean R (reading x >>= f) t :=
  fun u hu => .inl ⟨rfl, clean_done_bind fun a ha => h u a hu ha⟩

omit [LE T] [PyFloatOps F] [PyDecimalFloat F] in
/-- A failed transaction changes nothing. -/
theorem clean_writing {x : PyM (RoiTables F V T) α}
    (h : ∀ u u' a, R t u → x u = (.ok a, u') → Proc.Returns R (f a) u') :
    Proc.Clean R (writing x >>= f) t := by
  intro u hu
  show ((x.transaction u).2 = u ∧
      Proc.Clean R (.done (x.transaction u).1 >>= f) (x.transaction u).2) ∨
    Proc.Returns R (.done (x.transaction u).1 >>= f) (x.transaction u).2
  rcases hx : x u with ⟨e | a, u'⟩
  · have hback : x.transaction u = (.error e, u) := by
      unfold PyM.transaction
      rw [hx]
    rw [hback]
    exact .inl ⟨rfl, trivial⟩
  · rw [PyM.transaction_eq_ok.mpr hx]
    exact .inr (h u u' a hu hx)

end

/-- A transition changes nothing, or its transaction is committed, and then
the opportunity is there to be answered with. -/
theorem clean_transition {form : TransitionForm} {historyId now : Str} :
    Proc.Clean Keeps (store.transition form historyId now) t := by
  refine clean_done_bind fun new _ => ?_
  refine clean_reading fun u current _ hread => ?_
  split
  · trivial
  refine clean_writing fun v v' _ huv h => ?_
  obtain ⟨changed, hid, hopportunity, rfl, -⟩ := move_eq_ok h
  have hkeeps : Keeps v (v.setStatus form.opportunityId new) := keeps_setStatus
  exact fun w hw _ => ⟨trivial, trivial, fun _ _ _ =>
    findOpportunity_keeps hread ((huv.trans hkeeps).trans hw)⟩

/-! ### All callers together -/

variable [DecidableEq ι]

variable (store) in
/-- The ledgers that any number of calls bring about, interleaved in any order;
each starts any number of times. -/
def WatchedRun (calls : ι → RoiCall F) :
    Pool ι (Watched ι (RoiTables F V T)) PyExc Unit → Prop :=
  Pool.Reach (fun w => w.state = .empty) (fun i p => p = (store.program (calls i)).watched i)
    fun w w' => w' = w

variable (store) in
/-- One such ledger after another. -/
def Later (calls : ι → RoiCall F) : (pool pool' : Pool ι (Watched ι (RoiTables F V T)) PyExc Unit) →
    Prop :=
  Relation.ReflTransGen (Pool.Next (fun i p => p = (store.program (calls i)).watched i)
    fun w w' => w' = w)

omit [PyFloatOps F] [PyDecimalFloat F] [DecidableEq ι] in
theorem compatible_ledger (i j : ι) (w w' : Watched ι (RoiTables F V T)) (hij : i ≠ j)
    (h : Watched.Own store.LedgerStep i w w') : Watched.Others Keeps j w w' :=
  ⟨h.1.keeps, h.2 j hij.symm⟩

/-- A transition that raises has changed nothing. -/
def RaisedUnchanged (calls : ι → RoiCall F) (i : ι) (r : Except PyExc Unit)
    (w : Watched ι (RoiTables F V T)) : Prop :=
  ∀ form historyId now, calls i = .transition form historyId now →
    (∃ e, r = .error e) → w.Unchanged i

/-- What is known of a watched call. -/
theorem safe_call (calls : ι → RoiCall F) (i : ι) (w : Watched ι (RoiTables F V T)) :
    Proc.Safe (Watched.Others Keeps i) (Watched.Own store.LedgerStep i)
      (fun w => w.state.HistoryPaths) (RaisedUnchanged calls i)
      ((store.program (calls i)).watched i) w := by
  refine Proc.safe_watched (I := HistoryPaths) LedgerStep.stays fun u _ _ hstart => ?_
  have hprogram : store.Stepping (store.program (calls i)) u.state := follows_program (calls i)
  have hsteps := (hprogram.safe fun _ _ hstep => hstep.historyPaths).watching (i := i)
  by_cases htransition : ∃ form historyId now, calls i = .transition form historyId now
  · obtain ⟨form, historyId, now, hcall⟩ := htransition
    have hclean : Proc.Clean Keeps (store.program (calls i)) u.state := by
      rw [hcall]
      exact clean_transition.bind_pure
    have hnone : u.Unchanged i := by
      intro step hstep
      rw [hstart] at hstep
      cases hstep
    exact (hsteps.and (hclean.watching hnone)).imp fun r v _ h _ _ _ _ hr => h.2 hr
  · exact hsteps.imp fun r v _ _ form historyId now hcall =>
      absurd ⟨form, historyId, now, hcall⟩ htransition

omit [PyFloatOps F] [PyDecimalFloat F] [DecidableEq ι] in
theorem compatible_pool : Pool.Compatible
    (fun w : Watched ι (RoiTables F V T) => w.state.HistoryPaths) (Watched.Others Keeps) (Watched.Own store.LedgerStep) fun w w' => w' = w where
  refl i w := ⟨.refl w.state, rfl⟩
  trans i w w' w'' h h' := ⟨h.1.trans h'.1, h'.2.trans h.2⟩
  others := compatible_ledger
  env_inv w w' h hi := by
    subst h
    exact hi
  env_rely i w w' h := by
    subst h
    exact ⟨.refl _, rfl⟩

/-- Whatever calls of any number of callers interleave: the history of every
opportunity is a path of allowed transitions from proposed to its status, its
revision is one more than the rows of its history, a closed opportunity never
changes, and a transition that raises has changed nothing. -/
theorem history_is_path {calls : ι → RoiCall F}
    {pool : Pool ι (Watched ι (RoiTables F V T)) PyExc Unit} (h : store.WatchedRun calls pool) :
    (∀ id row, pool.state.state.opportunity id = some row →
      follow .proposed (pool.state.state.historyOf id) = some row.status ∧
      row.revision = 1 + (pool.state.state.historyOf id).length ∧
      (row.status = .closed → ∀ pool', store.Later calls pool pool' →
        pool'.state.state.opportunity id = some row ∧
        pool'.state.state.historyOf id = pool.state.state.historyOf id)) ∧
    (∀ i form historyId now, calls i = .transition form historyId now →
      ∀ e, pool.procs i = some (.done (.error e)) → pool.state.Unchanged i) := by
  have hinit : ∀ w : Watched ι (RoiTables F V T), w.state = .empty → w.state.HistoryPaths := by
    intro w hw id row hrow
    rw [hw] at hrow
    cases hrow
  have hsafe : ∀ i p (w : Watched ι (RoiTables F V T)),
      p = (store.program (calls i)).watched i → w.state.HistoryPaths →
      Proc.Safe (Watched.Others Keeps i) (Watched.Own store.LedgerStep i)
        (fun w => w.state.HistoryPaths) (RaisedUnchanged calls i) p w := by
    rintro i p w rfl -
    exact safe_call calls i w
  obtain ⟨hpaths, hall⟩ := h.safe compatible_pool hinit hsafe
  constructor
  · intro id row hrow
    obtain ⟨hpath, hrevision⟩ := hpaths id row hrow
    refine ⟨hpath, hrevision, fun hclosed pool' hlater => ?_⟩
    exact (h.kept compatible_pool hinit hsafe
      (J := fun w => w.state.opportunity id = some row ∧
        w.state.historyOf id = pool.state.state.historyOf id)
      (fun i w w' hg hj => by
        obtain ⟨hsame, hhistory⟩ := hg.1.closed hj.1 hclosed
        exact ⟨hsame, hhistory.trans hj.2⟩)
      (fun w w' henv hj => henv ▸ hj) hlater ⟨hrow, rfl⟩).2
  · intro i form historyId now hcall e hraised
    exact hall i _ hraised pool.state ⟨.refl _, rfl⟩ hpaths form historyId now hcall ⟨e, rfl⟩

variable (store) in
/-- Calls that run one after the other. -/
def runCalls (calls : ι → RoiCall F) (order : List ι) (w : Watched ι (RoiTables F V T)) :
    Watched ι (RoiTables F V T) :=
  order.foldl (fun w i => (((store.program (calls i)).watched i).run w).2) w

theorem watchedRun_runCalls {calls : ι → RoiCall F} {order : List ι}
    {w : Watched ι (RoiTables F V T)} (h : store.WatchedRun calls ⟨w, fun _ => none⟩) :
    store.WatchedRun calls ⟨store.runCalls calls order w, fun _ => none⟩ := by
  induction order generalizing w with
  | nil => exact h
  | cons i order ih => exact ih (h.run rfl)

end

end RoiStore

/-! ### A sample -/

/-- One opportunity that is created, approved, started and closed. -/
def lifeCalls : ℕ → RoiCall SmallFloat
  | 0 => .createOpportunity (sampleOpportunity 0) [] (lit "2024-01-01T00:00:00+00:00")
  | 1 => .transition ⟨lit "0", lit "approved", lit "w", [], some 1⟩ (lit "h1")
    (lit "2024-01-02T00:00:00+00:00")
  | 2 => .transition ⟨lit "0", lit "in_progress", lit "w", [], none⟩ (lit "h2")
    (lit "2024-01-03T00:00:00+00:00")
  | _ => .transition ⟨lit "0", lit "closed", lit "w", [], none⟩ (lit "h3")
    (lit "2024-01-04T00:00:00+00:00")

def lifeTables : Watched ℕ (RoiTables SmallFloat Str Str) :=
  sampleLedger.runCalls lifeCalls [0, 1, 2, 3] ⟨.empty, fun _ => []⟩

theorem history_is_path_closed : ∃ row, lifeTables.state.opportunity (lit "0") = some row ∧
    row.status = .closed ∧ follow .proposed (lifeTables.state.historyOf (lit "0")) = some .closed ∧
    row.revision = 1 + (lifeTables.state.historyOf (lit "0")).length := by
  have hstatus : (lifeTables.state.opportunity (lit "0")).map OpportunityRow.status =
      some .closed := by
    decide +kernel
  obtain ⟨row, hrow, hclosed⟩ := Option.map_eq_some_iff.mp hstatus
  have hrun : sampleLedger.WatchedRun lifeCalls ⟨lifeTables, fun _ => none⟩ :=
    RoiStore.watchedRun_runCalls (.init rfl)
  obtain ⟨hpath, hrevision, -⟩ := (RoiStore.history_is_path hrun).1 _ row hrow
  rw [hclosed] at hpath
  exact ⟨row, hrow, hclosed, hpath, hrevision⟩

end AgentRoi
