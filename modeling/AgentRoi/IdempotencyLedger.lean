/-
The idempotency stores as one ledger.

* `Entry`, `entries` — what a caller can observe of a table, whichever of the
  two stores holds it;
* `BeginStep`, `SettleStep` — what `begin`, and `complete` or `fail`, can do to
  the entries and answer;
* `begin_step`, `complete_step`, `fail_step` — the two stores do nothing else;
* `BeginStep.move`, `SettleStep.move` — both are moves of a ledger whose
  entries expire.

The SQLite store selects and then inserts, and takes the removal of late rows
back when it raises; the PostgreSQL store inserts or reads, and keeps it.
-/
import AgentRoi.IdempotencyStore
import AgentRoi.KeyLedger

namespace AgentRoi

open KeyLedger IdempotencyTable

variable {F : Type}

/-- What a caller can observe of a row. -/
structure Entry (F : Type) where
  requestDigest : Str
  status : RecordStatus
  answer : Except PyExc (IdempotencyResult F)
  expiresAt : Str

/-- The row is removed by the next `begin`. -/
def Entry.Late (now : Instant) (e : Entry F) : Prop := e.expiresAt < now.isoformat

/-- The entry of a `begin` that returned `started`. -/
def pendingEntry (requestDigest : Str) (expires : Instant) : Entry F where
  requestDigest := requestDigest
  status := .pending
  answer := .error idempotencyInProgress
  expiresAt := expires.isoformat

/-- A pending entry receives its outcome. -/
def Entry.Settles (e e' : Entry F) : Prop :=
  e.status = .pending ∧ ∃ status answer, status ≠ .pending ∧ e' = { e with status, answer }

/-- What `begin` does, by the way it ends.  It is refused on account of its
arguments, or because no entry is there and none can be added. -/
inductive BeginStep (now : Instant) (k : Str × Str) (requestDigest : Str)
    (expires : Except PyExc Instant) (accepts : Prop) (σ : Str × Str → Option (Entry F)) :
    Except PyExc (IdempotencyResult F) → (Str × Str → Option (Entry F)) → Prop
  | refused (exc : PyExc) : (accepts → ∀ e, σ k = some e → e.Late now) →
      BeginStep now k requestDigest expires accepts σ (.error exc) σ
  | conflict {σ' : Str × Str → Option (Entry F)} {e : Entry F} : Swept Entry.Late now σ σ' →
      σ k = some e → ¬e.Late now → e.requestDigest ≠ requestDigest →
      BeginStep now k requestDigest expires accepts σ (.error idempotencyConflict) σ'
  | answered {σ' : Str × Str → Option (Entry F)} {e : Entry F} : Swept Entry.Late now σ σ' →
      σ k = some e → ¬e.Late now → e.requestDigest = requestDigest →
      BeginStep now k requestDigest expires accepts σ e.answer σ'
  | started {σ' : Str × Str → Option (Entry F)} {t : Instant} : Swept Entry.Late now σ σ' →
      σ' k = none → accepts → expires = .ok t →
      BeginStep now k requestDigest expires accepts σ (.ok .started)
        (Function.update σ' k (some (pendingEntry requestDigest t)))

/-- What `complete` and `fail` do: nothing, or they settle a pending entry with
the given outcome. -/
inductive SettleStep (k : Str × Str) (outcome : Except PyExc (IdempotencyResult F) → Prop)
    (σ : Str × Str → Option (Entry F)) :
    Except PyExc Unit → (Str × Str → Option (Entry F)) → Prop
  | refused (exc : PyExc) : SettleStep k outcome σ (.error exc) σ
  | settled {e : Entry F} {status : RecordStatus} {answer : Except PyExc (IdempotencyResult F)} :
      σ k = some e → e.status = .pending → status ≠ .pending → outcome answer →
      SettleStep k outcome σ (.ok ()) (Function.update σ k (some { e with status, answer }))

theorem SettleStep.imp {k : Str × Str} {p q : Except PyExc (IdempotencyResult F) → Prop}
    {σ σ' : Str × Str → Option (Entry F)} {r : Except PyExc Unit} (h : SettleStep k p σ r σ')
    (hpq : ∀ a, p a → q a) : SettleStep k q σ r σ' := by
  cases h with
  | refused exc => exact .refused exc
  | settled he hp hs ho => exact .settled he hp hs (hpq _ ho)

/-! ### The two tables -/

section Tables

variable {V T : Type} {view : IdempotencyRow V T → Entry F}

/-- The entries of a table. -/
def viewRows (view : IdempotencyRow V T → Entry F) (rows : IdempotencyTable V T) :
    Str × Str → Option (Entry F) := fun k => (rows k).map view

theorem viewRows_update (rows : IdempotencyTable V T) (k : Str × Str) (row : IdempotencyRow V T) :
    viewRows view (Function.update rows k (some row)) =
      Function.update (viewRows view rows) k (some (view row)) := by
  funext k'
  by_cases h : k' = k
  · subst h
    simp [viewRows]
  · simp [viewRows, h]

/-- Removing expired rows removes late entries. -/
theorem swept_deleteRows {now : Instant} {expired : IdempotencyRow V T → Bool}
    (h : ∀ row, expired row = true ↔ (view row).Late now) (rows : IdempotencyTable V T) :
    Swept Entry.Late now (viewRows view rows) (viewRows view (deleteRows expired rows)) := by
  intro k
  cases hr : rows k with
  | none => exact .inl (by simp [viewRows, deleteRows, hr])
  | some row =>
    cases he : expired row with
    | false => exact .inl (by simp [viewRows, deleteRows, hr, he])
    | true =>
      refine .inr ⟨by simp [viewRows, deleteRows, hr, he], view row, by simp [viewRows, hr], ?_⟩
      exact (h row).mp he

theorem deleteRows_eq_some {expired : IdempotencyRow V T → Bool} {rows : IdempotencyTable V T}
    {k : Str × Str} {row : IdempotencyRow V T} (h : deleteRows expired rows k = some row) :
    rows k = some row ∧ expired row = false := by
  simpa [deleteRows, Option.filter_eq_some_iff] using h

theorem deleteRows_eq_none {expired : IdempotencyRow V T → Bool} {rows : IdempotencyTable V T}
    {k : Str × Str} (h : deleteRows expired rows k = none) {row : IdempotencyRow V T}
    (hr : rows k = some row) : expired row = true := by
  simpa [deleteRows, hr, Option.filter_eq_none_iff] using h

/-- The update of `complete` and `fail`. -/
theorem settle_step {bind : Str → Except PyExc Unit} {namesp key : Str}
    {f : IdempotencyRow V T → IdempotencyRow V T} {rows rows' : IdempotencyTable V T}
    {r : Except PyExc Unit} {outcome : Except PyExc (IdempotencyResult F) → Prop}
    (hf : ∀ row, ∃ status answer, status ≠ .pending ∧ outcome answer ∧
      view (f row) = { view row with status, answer })
    (hstatus : ∀ row, (view row).status = row.status)
    (h : settle bind namesp key f rows = (r, rows')) :
    SettleStep (namesp, key) outcome (viewRows view rows) r (viewRows view rows') := by
  unfold settle at h
  cases hn : bind namesp with
  | error exc => rw [hn] at h; cases h; exact .refused exc
  | ok _ =>
    cases hk : bind key with
    | error exc => rw [hn, hk] at h; cases h; exact .refused exc
    | ok _ =>
      rw [hn, hk] at h
      simp only [PyM.bind_apply, PyM.ofExcept_apply, PyM.get_apply] at h
      cases hr : rows (namesp, key) with
      | none => rw [hr] at h; cases h; exact .refused _
      | some row =>
        rw [hr] at h
        simp only at h
        split_ifs at h with hp
        · cases h
          obtain ⟨status, answer, hs, ho, hv⟩ := hf row
          rw [viewRows_update, hv]
          exact .settled (by simp [viewRows, hr]) ((hstatus row).trans hp) hs ho
        · cases h
          exact .refused _

/-- A transaction that settles, after a parameter was bound. -/
theorem transaction_settle_step {σ : Type} {x : PyM σ Unit} {k : Str × Str}
    {outcome : Except PyExc (IdempotencyResult F) → Prop} {e : σ → Str × Str → Option (Entry F)}
    {s s' : σ} {r : Except PyExc Unit}
    (hx : ∀ t, x s = (.ok (), t) → SettleStep k outcome (e s) (.ok ()) (e t))
    (h : PyM.transaction x s = (r, s')) : SettleStep k outcome (e s) r (e s') := by
  cases r with
  | error exc =>
    rw [(PyM.transaction_eq_error.mp h).1]
    exact .refused exc
  | ok u => exact hx s' (PyM.transaction_eq_ok.mp h)

end Tables

/-! ### SQLite -/

namespace SqliteIdempotencyStore

variable [PyFloat F]

def entry (row : IdempotencyRow Str Str) : Entry F where
  requestDigest := row.requestDigest
  status := row.status
  answer := answer row
  expiresAt := row.expiresAtUtc

theorem answer_ne (row : IdempotencyRow Str Str) :
    (answer row : Except PyExc (IdempotencyResult F)) ≠ .ok .started := by
  unfold answer
  split
  · split
    · simp
    · split <;> simp
  · simp
  · simp

/-- The arguments `begin` accepts when a row is there. -/
def Accepts (now : Instant) (namesp key : Str) (ttlSeconds : Int) : Prop :=
  isBlank namesp = false ∧ isBlank key = false ∧ (encodeUtf8 namesp).isSome ∧
    (encodeUtf8 key).isSome ∧ ∃ t, expiryAfter now ttlSeconds = .ok t

theorem begin_step {now : Instant} {namesp key requestDigest : Str} {ttlSeconds : Int}
    {rows rows' : IdempotencyTable Str Str} {r : Except PyExc (IdempotencyResult F)}
    (h : begin now namesp key requestDigest ttlSeconds rows = (r, rows')) :
    BeginStep now (namesp, key) requestDigest (expiryAfter now ttlSeconds)
      (Accepts now namesp key ttlSeconds) (viewRows entry rows) r (viewRows entry rows') := by
  have hexpired : ∀ row : IdempotencyRow Str Str, decide (row.expiresAtUtc < now.isoformat) = true ↔
      (entry row : Entry F).Late now := fun row => decide_eq_true_iff
  -- the delete of expired rows shows in the view as a sweep
  have hswept := swept_deleteRows (F := F) hexpired rows
  rw [begin] at h
  split_ifs at h with hblank
  · cases h
    refine .refused _ ?_
    rintro ⟨hn, hk, -⟩
    simp [hn, hk] at hblank
  cases hexp : expiryAfter now ttlSeconds with
  | error exc =>
    rw [hexp] at h
    cases h
    refine .refused _ ?_
    rintro ⟨-, -, -, -, t, ht⟩
    rw [hexp] at ht
    cases ht
  | ok expires =>
    rw [hexp] at h
    simp only [PyM.bind_apply, PyM.ofExcept_apply, PyM.transaction, PyM.modify_apply,
      PyM.get_apply] at h
    cases hn : bindText namesp with
    | error exc =>
      rw [hn] at h
      cases h
      refine .refused _ ?_
      rintro ⟨-, -, hn', -⟩
      rw [bindText_of_isSome hn'] at hn
      cases hn
    | ok _ =>
      cases hk : bindText key with
      | error exc =>
        rw [hn, hk] at h
        cases h
        refine .refused _ ?_
        rintro ⟨-, -, -, hk', -⟩
        rw [bindText_of_isSome hk'] at hk
        cases hk
      | ok _ =>
        rw [hn, hk] at h
        simp only at h
        -- a row that is left is not late, and its digest decides
        cases hr : deleteRows (fun row => decide (row.expiresAtUtc < now.isoformat)) rows
            (namesp, key) with
        | some row =>
          rw [hr] at h
          obtain ⟨hrow, hlive⟩ := deleteRows_eq_some hr
          have hentry : viewRows (entry (F := F)) rows (namesp, key) = some (entry row) := by
            simp [viewRows, hrow]
          have hnot : ¬(entry row : Entry F).Late now := by
            rw [← hexpired row, hlive]
            exact Bool.false_ne_true
          by_cases hd : row.requestDigest ≠ requestDigest
          · simp only [if_pos hd, PyM.raise_apply] at h
            cases h
            exact .conflict swept_refl hentry hnot hd
          · simp only [if_neg hd, PyM.ofExcept_apply] at h
            have hd' : (entry row : Entry F).requestDigest = requestDigest := not_not.mp hd
            cases ha : (answer row : Except PyExc (IdempotencyResult F)) with
            | error exc =>
              rw [ha] at h
              cases h
              rw [← ha]
              exact .answered swept_refl hentry hnot hd'
            | ok a =>
              rw [ha] at h
              cases h
              rw [← ha]
              exact .answered hswept hentry hnot hd'
        | none =>
          rw [hr] at h
          -- no row is left: the key had none, or a late one
          have hgone : ∀ e : Entry F, viewRows entry rows (namesp, key) = some e → e.Late now := by
            intro e he
            obtain ⟨row, hrow, rfl⟩ := Option.map_eq_some_iff.mp he
            exact (hexpired row).mp (deleteRows_eq_none hr hrow)
          cases hd : bindText requestDigest with
          | error exc =>
            simp only [PyM.bind_apply, PyM.ofExcept_apply, hd] at h
            cases h
            exact .refused _ fun _ => hgone
          | ok _ =>
            simp only [PyM.bind_apply, PyM.ofExcept_apply, hd, PyM.set_apply, PyM.pure_apply] at h
            cases h
            rw [viewRows_update]
            have haccepts : Accepts now namesp key ttlSeconds := by
              simp only [Bool.or_eq_true, not_or, Bool.not_eq_true] at hblank
              exact ⟨hblank.1, hblank.2, bindText_eq_ok hn, bindText_eq_ok hk, expires, hexp⟩
            exact .started hswept (by simp [viewRows, hr]) haccepts rfl

/-- A settled row is a settled entry. -/
theorem entry_settle (row : IdempotencyRow Str Str) (status : RecordStatus)
    (responseJson : Option Str) (errorText : Str) :
    (entry { row with status, responseJson, errorText } : Entry F) =
      { (entry row : Entry F) with
        status, answer := answer { row with status, responseJson, errorText } } := rfl

theorem loads_responseText (response : PyVal F) :
    Json.loads (responseText response) = some (toJsonable response).sortKeys := by
  have hclean := toJsonable_clean response
  rw [responseText, loads_canonicalJson, toJsonable_ofJson hclean.distinct, hclean.nameFloats,
    Json.sortKeys_sortKeys]

theorem complete_step {namesp key : Str} {response : PyVal F}
    {rows rows' : IdempotencyTable Str Str} {r : Except PyExc Unit}
    (h : complete namesp key response rows = (r, rows')) :
    SettleStep (namesp, key) (· = .ok (.completed (toJsonable response).sortKeys))
      (viewRows (entry (F := F)) rows) r (viewRows entry rows') := by
  refine transaction_settle_step (e := viewRows (entry (F := F))) (fun t ht => ?_) h
  obtain ⟨_, -, ht⟩ := PyM.ofExcept_bind_eq_ok.mp ht
  refine settle_step (fun row => ⟨.completed, _, by decide, ?_, entry_settle row _ _ _⟩)
    (fun _ => rfl) ht
  simp only [answer, loads_responseText]

theorem fail_step {namesp key error : Str} {rows rows' : IdempotencyTable Str Str}
    {r : Except PyExc Unit} (h : fail namesp key error rows = (r, rows')) :
    SettleStep (namesp, key) (· = .ok (.failed error))
      (viewRows (entry (F := F)) rows) r (viewRows entry rows') := by
  refine transaction_settle_step (e := viewRows (entry (F := F))) (fun t ht => ?_) h
  obtain ⟨_, -, ht⟩ := PyM.ofExcept_bind_eq_ok.mp ht
  exact settle_step (fun row => ⟨.failed, _, by decide, rfl, entry_settle row _ _ _⟩)
    (fun _ => rfl) ht

end SqliteIdempotencyStore

/-! ### PostgreSQL -/

namespace PostgresIdempotencyStore

variable [PyFloat F]

def entry (row : IdempotencyRow (Json F) Instant) : Entry F where
  requestDigest := row.requestDigest
  status := row.status
  answer := answer row
  expiresAt := row.expiresAtUtc.isoformat

theorem answer_ne (row : IdempotencyRow (Json F) Instant) : answer row ≠ .ok .started := by
  unfold answer
  split
  · split
    · simp
    · split <;> simp
    · simp
  · simp
  · simp

/-- The arguments `begin` accepts. -/
def Accepts (now : Instant) (namesp key requestDigest : Str) (ttlSeconds : Int) : Prop :=
  pgText namesp = .ok () ∧ pgText key = .ok () ∧ pgText requestDigest = .ok () ∧
    ∃ t, expiryAfter now ttlSeconds = .ok t

omit [PyFloat F] in
/-- The transaction inserts a fresh row, or finds one that is not late. -/
theorem insertOrRead_eq_ok {now expires : Instant} {namesp key requestDigest : Str}
    {rows rows' : IdempotencyTable (Json F) Instant} {inserted : Bool}
    {row : IdempotencyRow (Json F) Instant}
    (h : insertOrRead now expires namesp key requestDigest rows = (.ok (inserted, row), rows')) :
    (pgText namesp = .ok () ∧ pgText key = .ok () ∧ pgText requestDigest = .ok ()) ∧
    ((inserted = false ∧ rows' = deleteRows (fun row => row.expiresAtUtc < now) rows ∧
        rows' (namesp, key) = some row) ∨
      (inserted = true ∧ row = pendingRow requestDigest expires ∧
        deleteRows (fun row => row.expiresAtUtc < now) rows (namesp, key) = none ∧
        rows' = Function.update (deleteRows (fun row => row.expiresAtUtc < now) rows)
          (namesp, key) (some row))) := by
  rw [insertOrRead, PyM.transaction_eq_ok] at h
  obtain ⟨_, t, ht, h⟩ := PyM.bind_eq_ok.mp h
  cases ht
  obtain ⟨_, hn, h⟩ := PyM.ofExcept_bind_eq_ok.mp h
  obtain ⟨_, hk, h⟩ := PyM.ofExcept_bind_eq_ok.mp h
  obtain ⟨_, hd, h⟩ := PyM.ofExcept_bind_eq_ok.mp h
  rw [PyM.get_bind] at h
  refine ⟨⟨hn, hk, hd⟩, ?_⟩
  cases hr : deleteRows (fun row => decide (row.expiresAtUtc < now)) rows (namesp, key) with
  | some found =>
    rw [hr] at h
    cases h
    exact .inl ⟨rfl, rfl, hr⟩
  | none =>
    rw [hr] at h
    cases h
    exact .inr ⟨rfl, rfl, rfl, rfl⟩

omit [PyFloat F] in
theorem insertOrRead_eq_error {now expires : Instant} {namesp key requestDigest : Str}
    {rows rows' : IdempotencyTable (Json F) Instant} {exc : PyExc}
    (h : insertOrRead now expires namesp key requestDigest rows = (.error exc, rows')) :
    rows' = rows ∧ ¬(pgText namesp = .ok () ∧ pgText key = .ok () ∧ pgText requestDigest = .ok ()) := by
  obtain ⟨rfl, h⟩ := PyM.transaction_eq_error.mp h
  refine ⟨rfl, ?_⟩
  rintro ⟨hn, hk, hd⟩
  simp only [PyM.bind_apply, PyM.modify_apply, PyM.ofExcept_apply, PyM.get_apply, hn, hk, hd] at h
  cases hr : deleteRows (fun row => decide (row.expiresAtUtc < now)) rows' (namesp, key) <;>
    rw [hr] at h <;> cases h

theorem begin_step {now : Instant} {namesp key requestDigest : Str} {ttlSeconds : Int}
    {rows rows' : IdempotencyTable (Json F) Instant} {r : Except PyExc (IdempotencyResult F)}
    (h : begin now namesp key requestDigest ttlSeconds rows = (r, rows')) :
    BeginStep now (namesp, key) requestDigest (expiryAfter now ttlSeconds)
      (Accepts now namesp key requestDigest ttlSeconds) (viewRows entry rows) r
      (viewRows entry rows') := by
  have hexpired : ∀ row : IdempotencyRow (Json F) Instant,
      decide (row.expiresAtUtc < now) = true ↔ (entry row).Late now := fun row =>
    decide_eq_true_iff.trans Instant.isoformat_lt_iff.symm
  have hswept := swept_deleteRows hexpired rows
  rw [begin] at h
  cases hexp : expiryAfter now ttlSeconds with
  | error exc =>
    rw [hexp, PyM.bind_of_error (PyM.ofExcept_apply _ _)] at h
    obtain ⟨rfl, rfl⟩ := Prod.mk.inj h
    refine .refused _ ?_
    rintro ⟨-, -, -, t, ht⟩
    rw [hexp] at ht
    cases ht
  | ok expires =>
    rw [hexp, PyM.bind_of_ok (PyM.ofExcept_apply _ _), PyM.bind_apply] at h
    rcases hio : insertOrRead now expires namesp key requestDigest rows with ⟨exc | ⟨inserted, row⟩, t⟩
    · rw [hio] at h
      cases h
      -- a text that cannot be bound stops the insert, and the sweep is rolled back
      obtain ⟨rfl, hbad⟩ := insertOrRead_eq_error hio
      refine .refused _ ?_
      rintro ⟨hn, hk, hd, -⟩
      exact absurd ⟨hn, hk, hd⟩ hbad
    · rw [hio] at h
      simp only at h
      obtain ⟨⟨hn, hk, hd⟩, hcases⟩ := insertOrRead_eq_ok hio
      -- the insert met a row, or was the one that made it
      rcases hcases with ⟨rfl, rfl, hrow⟩ | ⟨rfl, rfl, hnone, rfl⟩
      · obtain ⟨hrow', hlive⟩ := deleteRows_eq_some hrow
        have hentry : viewRows entry rows (namesp, key) = some (entry row) := by
          simp [viewRows, hrow']
        have hnot : ¬(entry row).Late now := by
          rw [← hexpired row, hlive]
          exact Bool.false_ne_true
        by_cases hd : row.requestDigest ≠ requestDigest
        · rw [if_pos hd] at h
          cases h
          exact .conflict hswept hentry hnot hd
        · rw [if_neg hd, if_neg Bool.false_ne_true] at h
          cases h
          exact .answered hswept hentry hnot (not_not.mp hd)
      · rw [if_neg (by simp [pendingRow])] at h
        cases h
        rw [viewRows_update]
        exact .started hswept (by simp [viewRows, hnone]) ⟨hn, hk, hd, expires, hexp⟩ rfl

theorem entry_settle (row : IdempotencyRow (Json F) Instant) (status : RecordStatus)
    (responseJson : Option (Json F)) (errorText : Str) :
    entry { row with status, responseJson, errorText } =
      { entry row with status, answer := answer { row with status, responseJson, errorText } } :=
  rfl

theorem complete_step {driver : PgDriver F} {namesp key : Str} {response : PyVal F}
    {rows rows' : IdempotencyTable (Json F) Instant} {r : Except PyExc Unit}
    (h : complete driver namesp key response rows = (r, rows')) :
    SettleStep (namesp, key) (fun a => ∃ value, driver.jsonb (responseText response) = some value ∧
        ((∀ text, value ≠ .str text) → a = .ok (.completed value)))
      (viewRows entry rows) r (viewRows entry rows') := by
  refine transaction_settle_step (e := viewRows entry) (fun t ht => ?_) h
  cases hv : driver.jsonb (responseText response) with
  | none =>
    rw [hv] at ht
    cases ht
  | some value =>
    rw [hv] at ht
    refine settle_step (fun row => ⟨.completed, _, by decide, ⟨value, rfl, fun hstr => ?_⟩,
      entry_settle row _ _ _⟩) (fun _ => rfl) ht
    cases value with
    | str text => exact absurd rfl (hstr text)
    | _ => rfl

theorem fail_step {namesp key error : Str} {rows rows' : IdempotencyTable (Json F) Instant}
    {r : Except PyExc Unit} (h : fail namesp key error rows = (r, rows')) :
    SettleStep (namesp, key) (· = .ok (.failed error)) (viewRows entry rows) r
      (viewRows entry rows') := by
  refine transaction_settle_step (e := viewRows entry) (fun t ht => ?_) h
  obtain ⟨_, -, ht⟩ := PyM.ofExcept_bind_eq_ok.mp ht
  exact settle_step (fun row => ⟨.failed, _, by decide, rfl, entry_settle row _ _ _⟩)
    (fun _ => rfl) ht

end PostgresIdempotencyStore

/-! ### Either store -/

namespace IdempotencyStore

/-- The driver of a PostgreSQL store; none is the SQLite store. -/
def driver? : IdempotencyStore F → Option (PgDriver F)
  | .sqlite _ => none
  | .postgres driver _ => some driver

variable [PyFloat F]

def entries : IdempotencyStore F → Str × Str → Option (Entry F)
  | .sqlite rows => viewRows SqliteIdempotencyStore.entry rows
  | .postgres _ rows => viewRows PostgresIdempotencyStore.entry rows

/-- The arguments `begin` accepts when an entry is there. -/
def Accepts (driver : Option (PgDriver F)) (now : Instant) (namesp key requestDigest : Str)
    (ttlSeconds : Int) : Prop :=
  match driver with
  | none => SqliteIdempotencyStore.Accepts now namesp key ttlSeconds
  | some _ => PostgresIdempotencyStore.Accepts now namesp key requestDigest ttlSeconds

/-- The JSON value a response is stored as. -/
def stored (driver : Option (PgDriver F)) (response : PyVal F) : Option (Json F) :=
  match driver with
  | none => some (toJsonable response).sortKeys
  | some driver => driver.jsonb (responseText response)

/-- The PostgreSQL store does not return a stored string. -/
def Replayable (driver : Option (PgDriver F)) (response : PyVal F) : Prop :=
  driver.isSome → ∀ text, stored driver response ≠ some (.str text)

theorem begin_step {now : Instant} {namesp key requestDigest : Str} {ttlSeconds : Int}
    {s s' : IdempotencyStore F} {r : Except PyExc (IdempotencyResult F)}
    (h : begin now namesp key requestDigest ttlSeconds s = (r, s')) :
    s'.driver? = s.driver? ∧
      BeginStep now (namesp, key) requestDigest (expiryAfter now ttlSeconds)
        (Accepts s.driver? now namesp key requestDigest ttlSeconds) s.entries r s'.entries := by
  cases s with
  | sqlite rows =>
    obtain ⟨rows', hrun, rfl⟩ := PyM.embed_eq.mp h
    exact ⟨rfl, SqliteIdempotencyStore.begin_step hrun⟩
  | postgres driver rows =>
    obtain ⟨rows', hrun, rfl⟩ := PyM.embed_eq.mp h
    exact ⟨rfl, PostgresIdempotencyStore.begin_step hrun⟩

/-- What completing an entry with a response leaves as its answer. -/
def CompletedWith (driver : Option (PgDriver F)) (response : PyVal F)
    (a : Except PyExc (IdempotencyResult F)) : Prop :=
  ∃ value, stored driver response = some value ∧
    (Replayable driver response → a = .ok (.completed value))

theorem complete_step {namesp key : Str} {response : PyVal F} {s s' : IdempotencyStore F}
    {r : Except PyExc Unit} (h : complete namesp key response s = (r, s')) :
    s'.driver? = s.driver? ∧
      SettleStep (namesp, key) (CompletedWith s.driver? response) s.entries r s'.entries := by
  cases s with
  | sqlite rows =>
    obtain ⟨rows', hrun, rfl⟩ := PyM.embed_eq.mp h
    refine ⟨rfl, SettleStep.imp (SqliteIdempotencyStore.complete_step hrun) ?_⟩
    rintro a rfl
    exact ⟨_, rfl, fun _ => rfl⟩
  | postgres driver rows =>
    obtain ⟨rows', hrun, rfl⟩ := PyM.embed_eq.mp h
    refine ⟨rfl, SettleStep.imp (PostgresIdempotencyStore.complete_step hrun) ?_⟩
    rintro a ⟨value, hv, ha⟩
    refine ⟨value, hv, fun hreplay => ha fun text htext => hreplay rfl text ?_⟩
    rw [htext] at hv
    exact hv

theorem fail_step {namesp key error : Str} {s s' : IdempotencyStore F}
    {r : Except PyExc Unit} (h : fail namesp key error s = (r, s')) :
    s'.driver? = s.driver? ∧
      SettleStep (namesp, key) (· = .ok (.failed error)) s.entries r s'.entries := by
  cases s with
  | sqlite rows =>
    obtain ⟨rows', hrun, rfl⟩ := PyM.embed_eq.mp h
    exact ⟨rfl, SqliteIdempotencyStore.fail_step hrun⟩
  | postgres driver rows =>
    obtain ⟨rows', hrun, rfl⟩ := PyM.embed_eq.mp h
    exact ⟨rfl, PostgresIdempotencyStore.fail_step hrun⟩

/-- No entry answers `started`. -/
theorem entries_answer_ne {s : IdempotencyStore F} {k : Str × Str} {e : Entry F}
    (h : s.entries k = some e) : e.answer ≠ .ok .started := by
  cases s with
  | sqlite rows =>
    obtain ⟨row, -, rfl⟩ := Option.map_eq_some_iff.mp h
    exact SqliteIdempotencyStore.answer_ne row
  | postgres driver rows =>
    obtain ⟨row, -, rfl⟩ := Option.map_eq_some_iff.mp h
    exact PostgresIdempotencyStore.answer_ne row

/-- What a `begin` that returns `started` leaves. -/
theorem begin_started {now : Instant} {namesp key requestDigest : Str} {ttlSeconds : Int}
    {s s' : IdempotencyStore F}
    (h : begin now namesp key requestDigest ttlSeconds s = (.ok .started, s')) :
    ∃ expires, expiryAfter now ttlSeconds = .ok expires ∧
      Accepts s.driver? now namesp key requestDigest ttlSeconds ∧
      s'.entries (namesp, key) = some (pendingEntry requestDigest expires) := by
  obtain ⟨-, hstep⟩ := begin_step h
  generalize hr : (.ok .started : Except PyExc (IdempotencyResult F)) = r at hstep
  generalize s'.entries = σ' at hstep ⊢
  cases hstep with
  | refused _ _ => cases hr
  | conflict _ _ _ _ => cases hr
  | answered _ he _ _ => exact absurd hr.symm (entries_answer_ne he)
  | started _ _ ha ht => exact ⟨_, ht, ha, Function.update_self ..⟩

end IdempotencyStore

/-! ### Both steps are moves of the ledger -/

theorem BeginStep.move {now : Instant} {k : Str × Str} {requestDigest : Str}
    {expires : Except PyExc Instant} {accepts : Prop} {σ σ' : Str × Str → Option (Entry F)}
    {r : Except PyExc (IdempotencyResult F)}
    (h : BeginStep now k requestDigest expires accepts σ r σ') :
    Move Entry.Late Entry.Settles now k σ σ' := by
  cases h with
  | refused _ _ => exact .swept swept_refl
  | conflict h _ _ _ => exact .swept h
  | answered h _ _ _ => exact .swept h
  | started h hnone _ _ => exact .started _ h hnone

theorem SettleStep.move {now : Instant} {k : Str × Str}
    {outcome : Except PyExc (IdempotencyResult F) → Prop} {σ σ' : Str × Str → Option (Entry F)}
    {r : Except PyExc Unit} (h : SettleStep k outcome σ r σ') :
    Move Entry.Late Entry.Settles now k σ σ' := by
  cases h with
  | refused _ => exact .swept swept_refl
  | settled he hp hs _ => exact .settled he ⟨hp, _, _, hs, rfl⟩

/-- `begin` keeps every entry that is not late. -/
theorem BeginStep.kept {now : Instant} {k k' : Str × Str} {requestDigest : Str}
    {expires : Except PyExc Instant} {accepts : Prop} {σ σ' : Str × Str → Option (Entry F)}
    {r : Except PyExc (IdempotencyResult F)} {e : Entry F}
    (h : BeginStep now k requestDigest expires accepts σ r σ') (he : σ k' = some e)
    (hlive : ¬e.Late now) : σ' k' = some e := by
  cases h with
  | refused _ _ => exact he
  | conflict h _ _ _ => exact h.kept he hlive
  | answered h _ _ _ => exact h.kept he hlive
  | started h hnone _ _ =>
    by_cases hk : k' = k
    · subst hk
      rw [h.kept he hlive] at hnone
      cases hnone
    · rw [Function.update_of_ne hk]
      exact h.kept he hlive

/-- While an entry is not late, `begin` on its key answers from it. -/
theorem BeginStep.answer_of_live {now : Instant} {k : Str × Str} {requestDigest : Str}
    {expires : Except PyExc Instant} {accepts : Prop} {σ σ' : Str × Str → Option (Entry F)}
    {r : Except PyExc (IdempotencyResult F)} {e : Entry F}
    (h : BeginStep now k requestDigest expires accepts σ r σ') (he : σ k = some e)
    (hlive : ¬e.Late now) :
    (accepts → r = if e.requestDigest ≠ requestDigest then .error idempotencyConflict
      else e.answer) ∧ (e.answer ≠ .ok .started → r ≠ .ok .started) := by
  cases h with
  | refused exc h => exact ⟨fun ha => absurd (h ha e he) hlive, fun _ => by simp⟩
  | conflict _ he' _ hd =>
    rw [he] at he'
    cases he'
    exact ⟨fun _ => (if_pos hd).symm, fun _ => by simp⟩
  | answered _ he' _ hd =>
    rw [he] at he'
    cases he'
    exact ⟨fun _ => (if_neg (not_not.mpr hd)).symm, id⟩
  | started h hnone _ _ =>
    rw [h.kept he hlive] at hnone
    cases hnone

end AgentRoi
