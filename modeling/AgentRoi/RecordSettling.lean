/-
What a call leaves in the idempotency record it began.

* `ContextConfig.Started` — the call has come to its execution, and the store
  has answered `started`;
* `RecordSettled` — the record is completed or failed;
* `ContextConfig.Reportable` — the ways an execution can end of which the store
  is told;
* `record_settled_iff` — the record is settled in exactly these.

`_execute_sync` and `_execute_async` report an `Exception` and no other
`BaseException`, read its text before they call `fail`, and report nothing when
`complete` raises.
-/
import AgentRoi.CallLayers
import AgentRoi.IdempotencyLedger
import AgentRoi.ToolRuns

namespace AgentRoi

open ContextState IdempotencyTable

variable {F W C J α : Type}

/-! ### The store -/

namespace IdempotencyTable

variable {V T : Type} {bind : Str → Except PyExc Unit} {namesp key : Str}
  {f : IdempotencyRow V T → IdempotencyRow V T} {rows : IdempotencyTable V T}
  {row : IdempotencyRow V T}

/-- The update of a pending row changes one row. -/
theorem settle_pending (hn : bind namesp = .ok ()) (hk : bind key = .ok ())
    (hrow : rows (namesp, key) = some row) (hpending : row.status = .pending) :
    (settle bind namesp key f rows).1 = .ok () := by
  simp [settle, hn, hk, PyM.bind_apply, hrow, hpending]

end IdempotencyTable

namespace IdempotencyStore

variable [PyFloat F] {namesp key requestDigest : Str} {now : Instant} {ttlSeconds : Int}
  {s : IdempotencyStore F} {e : Entry F}

/-- The column of a store takes the text of a response. -/
def Storable (driver : Option (PgDriver F)) (response : PyVal F) : Prop :=
  match driver with
  | none => bindText (responseText response) = .ok ()
  | some driver => (driver.jsonb (responseText response)).isSome

instance decidableStorable (driver : Option (PgDriver F)) (response : PyVal F) :
    Decidable (Storable driver response) :=
  match driver with
  | none => inferInstanceAs (Decidable (bindText (responseText response) = .ok ()))
  | some driver => inferInstanceAs (Decidable (driver.jsonb (responseText response)).isSome)

/-- The record of a key is completed or failed. -/
def RecordSettled (s : IdempotencyStore F) (k : Str × Str) : Prop :=
  ∃ e, s.entries k = some e ∧ e.status ≠ .pending

theorem not_recordSettled {k : Str × Str} (h : (s.entries k).map Entry.status = some .pending) :
    ¬RecordSettled s k := by
  rintro ⟨e, he, hne⟩
  rw [he] at h
  exact hne (Option.some.inj h)

/-- A settled record does not answer that its request is in progress. -/
theorem answer_of_settled {k : Str × Str} (he : s.entries k = some e) (hne : e.status ≠ .pending) :
    e.answer ≠ .error idempotencyInProgress := by
  cases s with
  | sqlite rows =>
    obtain ⟨row, -, rfl⟩ := Option.map_eq_some_iff.mp he
    show SqliteIdempotencyStore.answer row ≠ _
    unfold SqliteIdempotencyStore.answer
    split
    · split
      · simp [idempotencyInProgress]
      · split <;> simp [idempotencyInProgress]
    · simp
    · rename_i hstatus
      exact absurd hstatus hne
  | postgres driver rows =>
    obtain ⟨row, -, rfl⟩ := Option.map_eq_some_iff.mp he
    show PostgresIdempotencyStore.answer row ≠ _
    unfold PostgresIdempotencyStore.answer
    split
    · split
      · simp
      · split <;> simp [idempotencyInProgress]
      · simp
    · simp
    · rename_i hstatus
      exact absurd hstatus hne

/-- The same request is answered with what its record was settled with, until
the record expires. -/
theorem begin_of_settled (he : s.entries (namesp, key) = some e) (hne : e.status ≠ .pending)
    (hlive : ¬e.Late now)
    (haccepts : Accepts s.driver? now namesp key e.requestDigest ttlSeconds) :
    (begin now namesp key e.requestDigest ttlSeconds s).1 = e.answer ∧
      e.answer ≠ .error idempotencyInProgress := by
  have hstep := (@begin_step F _ now namesp key e.requestDigest ttlSeconds s _ _ rfl).2
  have hanswer := (hstep.answer_of_live he hlive).1 haccepts
  rw [if_neg (not_not.mpr rfl)] at hanswer
  exact ⟨hanswer, answer_of_settled he hne⟩

/-- Completing a pending record fails only for a response the column rejects. -/
theorem complete_pending (haccepts : Accepts s.driver? now namesp key requestDigest ttlSeconds)
    (he : s.entries (namesp, key) = some e) (hpending : e.status = .pending)
    (response : PyVal F) :
    (complete namesp key response s).1 = .ok () ↔ Storable s.driver? response := by
  cases s with
  | sqlite rows =>
    obtain ⟨row, hrow, rfl⟩ := Option.map_eq_some_iff.mp he
    obtain ⟨-, -, hn, hk, -⟩ := haccepts
    show (PyM.transaction _ rows).1 = .ok () ↔ bindText (responseText response) = .ok ()
    cases hbind : bindText (responseText response) with
    | error exc => exact iff_of_false nofun nofun
    | ok _ =>
      refine iff_of_true ?_ rfl
      have hsettle := settle_pending (f := fun row => { row with
          status := RecordStatus.completed, responseJson := some (responseText response)
          errorText := [] }) (bindText_of_isSome hn) (bindText_of_isSome hk) hrow hpending
      exact PyM.transaction_returns hsettle
  | postgres driver rows =>
    obtain ⟨row, hrow, rfl⟩ := Option.map_eq_some_iff.mp he
    obtain ⟨hn, hk, -⟩ := haccepts
    show (PyM.transaction _ rows).1 = .ok () ↔ (driver.jsonb (responseText response)).isSome
    cases hvalue : driver.jsonb (responseText response) with
    | none => exact iff_of_false nofun nofun
    | some value =>
      refine iff_of_true ?_ rfl
      have hsettle := settle_pending (f := fun row => { row with
          status := RecordStatus.completed, responseJson := some value, errorText := [] })
        hn hk hrow hpending
      exact PyM.transaction_returns hsettle

/-- A pending record is settled by the calls of `complete` and `fail` that return. -/
theorem recordSettled_iff {k : Str × Str} {outcome : Except PyExc (IdempotencyResult F) → Prop}
    {s' : IdempotencyStore F} {r : Except PyExc Unit} (he : s.entries k = some e)
    (hpending : e.status = .pending) (h : SettleStep k outcome s.entries r s'.entries) :
    RecordSettled s' k ↔ r = .ok () := by
  generalize hσ : s'.entries = σ' at h
  cases h with
  | refused exc =>
    refine iff_of_false ?_ nofun
    rintro ⟨e', he', hne⟩
    rw [hσ, he] at he'
    obtain rfl := Option.some.inj he'
    exact hne hpending
  | @settled e' status answer he' _ hstatus _ =>
    refine iff_of_true ⟨{ e' with status, answer }, ?_, hstatus⟩ rfl
    rw [hσ]
    exact Function.update_self ..

end IdempotencyStore

open IdempotencyStore

namespace ContextConfig

variable (cfg : ContextConfig F W C J) (i : ℕ)

/-! ### What is asked of the store -/

section

variable [PyFloat F]

omit [PyFloat F] in
/-- A call of the store `n`, which has to be reached first. -/
def tellStore (n : ℕ) (x : PyM (IdempotencyStore F) Unit) : PyM (ContextState F W C J) Unit := do
  onWorld cfg.reachStore
  inStore n x

/-- Of an execution that ended with `r` the store is told: it is reached and
takes the result, or `r` is an `Exception` whose text can be read. -/
def Reportable (policy : IdempotencyPolicy F W) (u : ContextState F W C J) :
    Except PyExc (ToolResult F) → Prop
  | .ok result => (cfg.reachStore u.outside).1 = .ok () ∧
      Storable (u.stores policy.store).driver? result.value
  | .error e => e.isException = true ∧ e.text.isSome

variable [DecidableEq C]

/-- The call has prepared itself, and the store has answered `started` to it. -/
structure Started (call : ToolCall F C) (asyncMode : Bool) (s t : ContextState F W C J)
    (prepared : PreparedCall F W C) (policy : IdempotencyPolicy F W) (key : Str) : Prop where
  prepares : (cfg.prepareCall i call asyncMode s).1 = .ok prepared
  policed : prepared.spec.bind ToolSpec.idempotencyPolicy = some policy
  started : cfg.prepareRequest policy prepared.args call.kwargs
    (cfg.readCounter (cfg.prepareCall i call asyncMode s).2).2 = (.ok (key, .started), t)

end

variable {cfg i}

/-! ### What leaves the stores alone -/

/-- The stores are as they were. -/
def SameStores (s t : ContextState F W C J) : Prop := t.stores = s.stores

theorem SameStores.trans {s t u : ContextState F W C J} (h : SameStores s t)
    (h' : SameStores t u) : SameStores s u := Eq.trans h' h

/-- The program leaves the stores as they are. -/
def LeavesStores (p : Proc (ContextState F W C J) PyExc α) : Prop := Stays Eq SameStores p

theorem LeavesStores.run {p : Proc (ContextState F W C J) PyExc α} (h : LeavesStores p)
    (s : ContextState F W C J) : (p.run s).2.stores = s.stores :=
  Proc.Follows.run (J := fun t : ContextState F W C J => t.stores = s.stores) (fun _ => rfl)
    (fun _ _ hsame ht => Eq.trans hsame ht) (h s) rfl

/-- An execution leaves the record to the report. -/
theorem leavesStores_execution (asyncMode : Bool) (tool : ResolvedTool F W C)
    (kwargs : PyDict F) : LeavesStores (cfg.execution i asyncMode tool kwargs) :=
  stays_execution (fun _ => rfl) (fun _ _ h => h.stores) (fun _ => rfl) asyncMode

/-- The event that closes a call leaves the stores as they are. -/
theorem leavesStores_emitEnd (prepared : PreparedCall F W C) (started : ℚ) (eventType : Str)
    (detail : Str × PyVal F) (r : Except PyExc α) : LeavesStores
      (Proc.atomic (cfg.emitEnd i prepared started eventType detail) >>= fun _ => .done r) := by
  refine (stays_atomic ?_).bind (fun _ => rfl) fun _ => stays_done r
  refine each_bind (P := SameStores) (fun _ _ _ h h' => h.trans h') (fun _ => rfl) fun now t => ?_
  unfold emit
  cases cfg.auditEmitter with
  | none => rfl
  | some emitter => rfl

/-! ### The report -/

section

variable [PyFloat F] {s t u : ContextState F W C J} {policy : IdempotencyPolicy F W} {key : Str}

omit [PyFloat F] in
theorem tellStore_reached {n : ℕ} {x : PyM (IdempotencyStore F) Unit}
    (h : (cfg.reachStore u.outside).1 = .ok ()) :
    (cfg.tellStore n x u).1 = (x (u.stores n)).1 ∧
      (cfg.tellStore n x u).2.stores n = (x (u.stores n)).2 := by
  have hreached : onWorld cfg.reachStore u =
      (.ok (), u.setOutside (cfg.reachStore u.outside).2) := Prod.ext h rfl
  rw [tellStore, PyM.bind_of_ok hreached]
  exact ⟨rfl, Function.update_self ..⟩

omit [PyFloat F] in
theorem tellStore_unreached {n : ℕ} {x : PyM (IdempotencyStore F) Unit}
    (h : (cfg.reachStore u.outside).1 ≠ .ok ()) :
    (cfg.tellStore n x u).1 ≠ .ok () ∧ (cfg.tellStore n x u).2.stores = u.stores := by
  rcases hreach : (cfg.reachStore u.outside).1 with e | ⟨⟨⟩⟩
  · have hraised : onWorld cfg.reachStore u =
        (.error e, u.setOutside (cfg.reachStore u.outside).2) := Prod.ext hreach rfl
    rw [tellStore, PyM.bind_of_error hraised]
    exact ⟨nofun, rfl⟩
  · exact absurd hreach h

/-- A pending record is settled when the store was told. -/
theorem recordSettled_tellStore {n : ℕ} {x : PyM (IdempotencyStore F) Unit} {k : Str × Str}
    {outcome : Except PyExc (IdempotencyResult F) → Prop} {e : Entry F}
    (he : (u.stores n).entries k = some e) (hpending : e.status = .pending)
    (hx : SettleStep k outcome (u.stores n).entries (x (u.stores n)).1
      (x (u.stores n)).2.entries) :
    RecordSettled ((cfg.tellStore n x u).2.stores n) k ↔ (cfg.tellStore n x u).1 = .ok () := by
  by_cases hreach : (cfg.reachStore u.outside).1 = .ok ()
  · obtain ⟨hresult, hstore⟩ := tellStore_reached (x := x) (n := n) hreach
    rw [hresult, hstore]
    exact recordSettled_iff he hpending hx
  · obtain ⟨hresult, hstores⟩ := tellStore_unreached (x := x) (n := n) hreach
    refine iff_of_false ?_ hresult
    rintro ⟨e', he', hne⟩
    rw [hstores, he] at he'
    obtain rfl := Option.some.inj he'
    exact hne hpending

/-- The report of an execution settles the record if the store can be told. -/
theorem recordSettled_settleRequest {p : Proc (ContextState F W C J) PyExc (ToolResult F)}
    {now : Instant} {requestDigest : Str} {ttlSeconds : Int} {e : Entry F} (hp : LeavesStores p)
    (haccepts : Accepts (t.stores policy.store).driver? now policy.namesp key requestDigest
      ttlSeconds)
    (he : (t.stores policy.store).entries (policy.namesp, key) = some e)
    (hpending : e.status = .pending)
    (hfail : ∀ exc error, (p.run t).1 = .error exc → failureText exc = .ok error →
      (cfg.tellStore policy.store (IdempotencyStore.fail policy.namesp key error)
        (p.run t).2).1 = .ok ()) :
    RecordSettled (((cfg.settleRequest policy key p).run t).2.stores policy.store)
        (policy.namesp, key) ↔ cfg.Reportable policy (p.run t).2 (p.run t).1 := by
  have hstores := hp.run t
  rw [settleRequest, Proc.run_bind, Proc.run_attempt]
  rcases hrun : p.run t with ⟨exc | result, u⟩
  · rw [hrun] at hstores hfail
    replace hstores : u.stores = t.stores := hstores
    have hunsettled : ¬RecordSettled (u.stores policy.store) (policy.namesp, key) := by
      rintro ⟨e', he', hne⟩
      rw [hstores, he] at he'
      obtain rfl := Option.some.inj he'
      exact hne hpending
    show RecordSettled ((Proc.run (if _ then _ else _) u).2.stores _) _ ↔
      (exc.isException = true ∧ exc.text.isSome)
    by_cases hexception : exc.isException = true
    · rw [if_pos hexception]
      cases htext : exc.text with
      | none =>
        -- the text of the exception is read before the store is told
        have hraised : cfg.failRequest policy key exc u =
            (.error (.other (lit "Exception") none true), u) := by
          rw [failRequest, failureText, htext]
          rfl
        rw [run_atomic_of_error hraised]
        exact iff_of_false hunsettled nofun
      | some text =>
        have hread : failureText exc = .ok (exc.className ++ lit ": " ++ text) := by
          rw [failureText, htext]
          rfl
        have htold : cfg.failRequest policy key exc u = cfg.tellStore policy.store
            (IdempotencyStore.fail policy.namesp key (exc.className ++ lit ": " ++ text)) u := by
          rw [failRequest, hread]
          rfl
        have hok := hfail exc _ rfl hread
        have hsettled := (recordSettled_tellStore (hstores ▸ he) hpending
          (fail_step (s := u.stores policy.store) rfl).2).mpr hok
        obtain ⟨v, hv⟩ : ∃ v, cfg.tellStore policy.store (IdempotencyStore.fail policy.namesp key
            (exc.className ++ lit ": " ++ text)) u = (.ok (), v) := ⟨_, Prod.ext hok rfl⟩
        rw [run_atomic_of_ok (htold.trans hv)]
        rw [hv] at hsettled
        exact iff_of_true hsettled ⟨hexception, rfl⟩
    · rw [if_neg hexception]
      exact iff_of_false hunsettled fun h => hexception h.1
  · rw [hrun] at hstores
    replace hstores : u.stores = t.stores := hstores
    rw [← hstores] at he haccepts
    have hstep := (@complete_step F _ policy.namesp key result.value (u.stores policy.store)
      _ _ rfl).2
    have hsettled : RecordSettled ((cfg.completeRequest policy key result.value u).2.stores
        policy.store) (policy.namesp, key) ↔
          (cfg.completeRequest policy key result.value u).1 = .ok () :=
      recordSettled_tellStore (x := IdempotencyStore.complete policy.namesp key result.value)
        he hpending hstep
    have hcomplete := complete_pending haccepts he hpending result.value
    have hreport : (cfg.completeRequest policy key result.value u).1 = .ok () ↔
        (cfg.reachStore u.outside).1 = .ok () ∧
          Storable (u.stores policy.store).driver? result.value := by
      by_cases hreach : (cfg.reachStore u.outside).1 = .ok ()
      · rw [← hcomplete, and_iff_right hreach]
        exact iff_of_eq (congrArg (· = _) (tellStore_reached hreach).1)
      · exact iff_of_false (tellStore_unreached hreach).1 fun h => hreach h.1
    refine Iff.trans ?_ hreport
    refine Iff.trans ?_ hsettled
    show RecordSettled ((Proc.run (Proc.atomic (cfg.completeRequest policy key result.value) >>= _)
      u).2.stores _) _ ↔ RecordSettled ((cfg.completeRequest policy key result.value u).2.stores _) _
    rcases hcompleted : cfg.completeRequest policy key result.value u with ⟨exc | ⟨⟨⟩⟩, v⟩
    · rw [run_atomic_of_error hcompleted]
    · rw [run_atomic_of_ok hcompleted]
      rfl

/-- The record that `prepare` began. -/
theorem entry_of_prepareRequest {args : List (PyVal F)} {kwargs : PyDict F}
    (h : cfg.prepareRequest policy args kwargs s = (.ok (key, .started), t)) :
    ∃ now requestDigest e, Accepts (t.stores policy.store).driver? now policy.namesp key
        requestDigest policy.ttlSeconds ∧
      (t.stores policy.store).entries (policy.namesp, key) = some e ∧ e.status = .pending := by
  obtain ⟨text, s₁, -, h⟩ := PyM.bind_eq_ok.mp h
  split_ifs at h with hblank
  · cases h
  · obtain ⟨requestDigest, -, h⟩ := PyM.ofExcept_bind_eq_ok.mp h
    obtain ⟨now, s₂, -, h⟩ := PyM.bind_eq_ok.mp h
    obtain ⟨_, s₃, -, h⟩ := PyM.bind_eq_ok.mp h
    obtain ⟨answer, s₄, hbegin, h⟩ := PyM.bind_eq_ok.mp h
    cases h
    obtain ⟨store, hstore, rfl⟩ := PyM.on_eq_ok.mp hbegin
    obtain ⟨expires, -, haccepts, hentry⟩ := begin_started hstore
    rw [← (begin_step hstore).1] at haccepts
    have hself : Function.update s₃.stores policy.store store policy.store = store :=
      Function.update_self ..
    refine ⟨now, requestDigest, pendingEntry requestDigest expires, ?_, ?_, rfl⟩
    · show Accepts (Function.update s₃.stores policy.store store policy.store).driver? _ _ _ _ _
      rw [hself]
      exact haccepts
    · show (Function.update s₃.stores policy.store store policy.store).entries _ = _
      rw [hself]
      exact hentry

/-! ### Whole calls -/

omit [PyFloat F] in
/-- The event that closes a call leaves the record as it is. -/
theorem stores_reportCall (prepared : PreparedCall F W C)
    (p : Proc (ContextState F W C J) PyExc (ToolResult F)) (s : ContextState F W C J) :
    ((cfg.reportCall i prepared p).run s).2.stores =
      (p.run (cfg.readCounter s).2).2.stores := by
  have hcounter : cfg.readCounter s = (.ok (cfg.perfCounter s.outside).1, (cfg.readCounter s).2) :=
    rfl
  rw [reportCall, run_atomic_of_ok hcounter, Proc.run_bind, Proc.run_attempt]
  rcases p.run (cfg.readCounter s).2 with ⟨e | result, u⟩
  · show (Proc.run (if _ then _ else _) u).2.stores = u.stores
    split
    · exact (leavesStores_emitEnd prepared _ _ _ (.error e)).run u
    · rfl
  · exact (leavesStores_emitEnd prepared _ _ _ (.ok result)).run u

variable [DecidableEq C] {call : ToolCall F C} {asyncMode : Bool} {prepared : PreparedCall F W C}

theorem run_toolCall (h : cfg.prepareCall i call asyncMode s = (.ok prepared, t)) :
    (cfg.toolCall i asyncMode call).run s =
      (cfg.reportCall i prepared (cfg.execute prepared.toResolvedTool call.kwargs
        (cfg.execution i asyncMode prepared.toResolvedTool call.kwargs))).run t := by
  cases asyncMode with
  | true => exact run_atomic_of_ok h
  | false => exact run_atomic_of_ok h

/-- Once `begin` has answered `started`, a call leaves its record settled exactly
if its execution ended in a way of which the store is told; and then the same
request is answered, until the record expires. -/
theorem record_settled_iff (hstart : cfg.Started i call asyncMode s t prepared policy key)
    (hfail : ∀ exc error,
      ((cfg.execution i asyncMode prepared.toResolvedTool call.kwargs).run t).1 = .error exc →
      failureText exc = .ok error →
      (cfg.tellStore policy.store (IdempotencyStore.fail policy.namesp key error)
        ((cfg.execution i asyncMode prepared.toResolvedTool call.kwargs).run t).2).1 = .ok ()) :
    (RecordSettled (((cfg.toolCall i asyncMode call).run s).2.stores policy.store)
        (policy.namesp, key) ↔
      cfg.Reportable policy
        ((cfg.execution i asyncMode prepared.toResolvedTool call.kwargs).run t).2
        ((cfg.execution i asyncMode prepared.toResolvedTool call.kwargs).run t).1) ∧
    ∀ e now ttlSeconds,
      (((cfg.toolCall i asyncMode call).run s).2.stores policy.store).entries
        (policy.namesp, key) = some e → e.status ≠ .pending → ¬e.Late now →
      Accepts (((cfg.toolCall i asyncMode call).run s).2.stores policy.store).driver? now
        policy.namesp key e.requestDigest ttlSeconds →
      (IdempotencyStore.begin now policy.namesp key e.requestDigest ttlSeconds
          (((cfg.toolCall i asyncMode call).run s).2.stores policy.store)).1 = e.answer ∧
        e.answer ≠ .error idempotencyInProgress := by
  refine ⟨?_, fun e now ttlSeconds he hne hlive haccepts =>
    begin_of_settled he hne hlive haccepts⟩
  obtain ⟨now, requestDigest, e, haccepts, he, hpending⟩ := entry_of_prepareRequest hstart.started
  have hprepares : cfg.prepareCall i call asyncMode s =
      (.ok prepared, (cfg.prepareCall i call asyncMode s).2) := Prod.ext hstart.prepares rfl
  have hexecute : (cfg.execute prepared.toResolvedTool call.kwargs
      (cfg.execution i asyncMode prepared.toResolvedTool call.kwargs)).run
        (cfg.readCounter (cfg.prepareCall i call asyncMode s).2).2 =
      (cfg.settleRequest policy key
        (cfg.execution i asyncMode prepared.toResolvedTool call.kwargs)).run t := by
    rw [ContextConfig.execute, hstart.policed]
    exact run_atomic_of_ok hstart.started
  rw [run_toolCall hprepares, stores_reportCall, hexecute]
  exact recordSettled_settleRequest (leavesStores_execution asyncMode _ _) haccepts he hpending
    hfail

end

end ContextConfig

/-! ### A tool with an idempotency policy -/

theorem isBlank_payNamespace : isBlank (lit "payments") = false := by decide

/-- Payments are kept for a minute under one key. -/
def payOncePolicy : IdempotencyPolicy Half Unit where
  store := 0
  namesp := lit "payments"
  keyFactory := fun _ _ => pure (lit "k")
  ttlSeconds := 60
  namesp_not_blank := isBlank_payNamespace
  ttlSeconds_pos := Nat.one_le_ofNat

def payOnceTool : ToolSpec Half Unit Bool :=
  { payTool with requiresApproval := false, idempotencyPolicy := some payOncePolicy }

theorem name_of_payOnceTool : ∀ (name : Str) (spec : ToolSpec Half Unit Bool),
    (if name = lit "pay" then some payOnceTool else none) = some spec → spec.name = name := by
  intro name spec h
  split_ifs at h with hname
  rw [← Option.some.inj h, hname]
  rfl

/-- A context in which a payment ends as `r` says. -/
def payOnceContext (r : Except PyExc (ToolResult Half)) : ContextConfig Half Unit Bool Unit :=
  { payContext with
    callables := { payContext.callables with call := fun _ _ _ => .done r }
    toolRegistry := some
      ⟨fun name => if name = lit "pay" then some payOnceTool else none, name_of_payOnceTool⟩ }

/-- A payment that was made. -/
def paid : ToolResult Half := ⟨.none, lit "NoneType", false⟩

def keyboardInterrupt : PyExc := .other (lit "KeyboardInterrupt") (some []) false

/-- The key that was begun. -/
def startedKey : Except PyExc (Str × IdempotencyResult F) → Option Str
  | .ok (key, .started) => some key
  | _ => none

theorem startedKey_eq_some {r : Except PyExc (Str × IdempotencyResult F)} {key : Str}
    (h : startedKey r = some key) : r = .ok (key, .started) := by
  unfold startedKey at h
  split at h
  · rw [← Option.some.inj h]
  · cases h

namespace ContextConfig

/-- The context once the payment has begun its record. -/
def afterBegin (r : Except PyExc (ToolResult Half)) : ContextState Half Unit Bool Unit :=
  ((payOnceContext r).prepareRequest payOncePolicy [.int 5] []
    ((payOnceContext r).readCounter ((payOnceContext r).prepareCall 0 payCall false
      newContextState).2).2).2

theorem exists_started {r : Except PyExc (ToolResult Half)}
    (hprepares : ((payOnceContext r).prepareCall 0 payCall false newContextState).1.isOk = true)
    (hstarts : startedKey ((payOnceContext r).prepareRequest payOncePolicy [.int 5] []
      ((payOnceContext r).readCounter ((payOnceContext r).prepareCall 0 payCall false
        newContextState).2).2).1 = some (lit "k")) :
    ∃ prepared, (payOnceContext r).Started 0 payCall false newContextState (afterBegin r) prepared
      payOncePolicy (lit "k") ∧ prepared.toResolvedTool = ⟨true, [.int 5], some payOnceTool⟩ := by
  obtain ⟨prepared, t, hrun⟩ := PyM.exists_of_isOk hprepares
  have hprepared := congrArg Prod.fst hrun
  obtain ⟨events, -, hpreparation⟩ := logs_prepareCall (payOnceContext r) 0 payCall false
    newContextState
  have htool : prepared.toResolvedTool = ⟨true, [.int 5], some payOnceTool⟩ := by
    rw [hprepared] at hpreparation
    cases hpreparation with
    | prepared h => exact (Except.ok.inj h.resolved).symm
  refine ⟨prepared, ⟨hprepared, ?_, ?_⟩, htool⟩
  · rw [htool]
    rfl
  · rw [htool]
    exact Prod.ext (startedKey_eq_some hstarts) rfl

/-- A payment that is made leaves its record completed. -/
theorem record_settled_paid :
    RecordSettled ((((payOnceContext (.ok paid)).toolCall 0 false payCall).run
      newContextState).2.stores payOncePolicy.store) (payOncePolicy.namesp, lit "k") := by
  obtain ⟨prepared, hstart, htool⟩ := exists_started (r := .ok paid) (by decide +kernel)
    (by decide +kernel)
  have hrun : ∀ t, (((payOnceContext (.ok paid)).execution 0 false prepared.toResolvedTool
      payCall.kwargs).run t).1 = .ok paid := by
    intro t
    rw [htool]
    rfl
  refine (record_settled_iff hstart fun exc error hexc => ?_).1.mpr ?_
  · rw [hrun] at hexc
    cases hexc
  · rw [hrun]
    refine ⟨rfl, ?_⟩
    rw [(leavesStores_execution false prepared.toResolvedTool payCall.kwargs).run]
    decide +kernel

/-- A payment that is interrupted from the keyboard leaves its record pending. -/
theorem record_left_pending :
    (∃ prepared, (payOnceContext (.error keyboardInterrupt)).Started 0 payCall false
        newContextState (afterBegin (.error keyboardInterrupt)) prepared payOncePolicy (lit "k")) ∧
      ¬RecordSettled ((((payOnceContext (.error keyboardInterrupt)).toolCall 0 false payCall).run
        newContextState).2.stores payOncePolicy.store) (payOncePolicy.namesp, lit "k") := by
  obtain ⟨prepared, hstart, -⟩ := exists_started (r := .error keyboardInterrupt)
    (by decide +kernel) (by decide +kernel)
  have hpending : (((((payOnceContext (.error keyboardInterrupt)).toolCall 0 false payCall).run
      newContextState).2.stores payOncePolicy.store).entries
        (payOncePolicy.namesp, lit "k")).map Entry.status = some .pending := by decide +kernel
  exact ⟨⟨prepared, hstart⟩, not_recordSettled hpending⟩

end ContextConfig

end AgentRoi
