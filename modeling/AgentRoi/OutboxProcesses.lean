/-
Worker processes over one SQLite outbox file.

Each process has a store object of its own, whose lock binds nobody else.  A
transaction is one step.  So is the `SELECT` of `dead_letter`, which runs
before the transaction of its two writes begins.

* `OutboxFile`, `process` — the file with the calls that ended, and one call
  in its steps;
* `FileReach` — any number of processes, which start calls and stop anywhere;
* `serial_if_as_read` — where the writes of `dead_letter` find the row as it
  was read, the calls have the results and the tables of a serial run in the
  order in which they ended;
* `former_owner_buries` — a former owner moves an event to the dead letters
  that another process has claimed.
-/
import AgentRoi.Interleaving
import AgentRoi.OutboxConservation
import Mathlib.Data.List.Find
import Mathlib.Data.List.Permutation

namespace AgentRoi

open OutboxTables RowTable

variable {F : Type} [PyFloat F]

/-- A call that ended, and whether its write found the row that was read. -/
structure FinishedCall (F : Type) where
  entry : OutboxEntry F
  asRead : Bool

structure OutboxFile (F : Type) where
  tables : OutboxTables Str Str
  finished : List (FinishedCall F)

namespace OutboxFile

variable {α : Type}

def onTables (x : PyM (OutboxTables Str Str) α) : PyM (OutboxFile F) α :=
  .on tables (fun file t => { file with tables := t }) x

def record (call : OutboxCall F) (asRead : Bool) (r : Except PyExc (List (OutboxEvent F))) :
    PyM (OutboxFile F) Unit :=
  .modify fun file => { file with finished := ⟨(call, r), asRead⟩ :: file.finished }

/-- The call ends with the result of `x`. -/
def ending (call : OutboxCall F) (asRead : Bool) (x : PyM (OutboxFile F) (List (OutboxEvent F))) :
    PyM (OutboxFile F) (List (OutboxEvent F)) := fun file =>
  let (r, file') := x file
  (r, ((record call asRead r) file').2)

end OutboxFile

open OutboxFile SqliteOutboxStore

/-- An operation that is one transaction. -/
def whole (order : RowOrder Str Str (sqliteFormat (F := F)).earlier) (call : OutboxCall F) :
    PyM (OutboxFile F) (List (OutboxEvent F)) :=
  ending call true (onTables ((OutboxBackend.sqlite order).exec call))

/-- The `SELECT` of `dead_letter`; the call ends here when it finds no lease. -/
def select (call : OutboxCall F) (eventId workerId : Str) :
    PyM (OutboxFile F) (OutboxRow Str Str) :=
  .tryExcept (onTables (leasedRow eventId workerId)) fun e => do
    record call true (.error e)
    .raise e

/-- The transaction of `dead_letter`. -/
def write (call : OutboxCall F) (eventId error : Str) (row : OutboxRow Str Str) :
    PyM (OutboxFile F) (List (OutboxEvent F)) := do
  let file ← PyM.get
  ending call (file.tables.row eventId = some row) do
    onTables (moveToDeadLetters call.now eventId error row)
    return []

/-- One call of a process, at the reading of the clock it uses. -/
def process (order : RowOrder Str Str (sqliteFormat (F := F)).earlier) (call : OutboxCall F) :
    Proc (OutboxFile F) PyExc (List (OutboxEvent F)) :=
  match call.op with
  | .deadLetter eventId workerId error => do
    let row ← .atomic (select call eventId workerId)
    .atomic (write call eventId error row)
  | _ => .atomic (whole order call)

/-- The files that processes can lead to from the tables `init`. -/
abbrev FileReach (order : RowOrder Str Str (sqliteFormat (F := F)).earlier)
    (init : OutboxTables Str Str) :
    Pool ℕ (OutboxFile F) PyExc (List (OutboxEvent F)) → Prop :=
  Pool.Reach (fun file => file = ⟨init, []⟩) (fun _ p => ∃ call, p = process order call)
    fun _ _ => False

/-- A serial run of whole operations. -/
abbrev SerialRun (order : RowOrder Str Str (sqliteFormat (F := F)).earlier)
    (init : OutboxTables Str Str) : List (OutboxEntry F) → OutboxTables Str Str → Prop :=
  CallRuns.Run (OutboxBackend.sqlite order).exec (fun _ _ => True) init

variable {order : RowOrder Str Str (sqliteFormat (F := F)).earlier}
  {init t : OutboxTables Str Str}

/-- So far every write found its row, and the calls that ended are a serial
run. -/
def Serial (order : RowOrder Str Str (sqliteFormat (F := F)).earlier)
    (init : OutboxTables Str Str) (file : OutboxFile F) : Prop :=
  (∀ call ∈ file.finished, call.asRead = true) →
    SerialRun order init (file.finished.map FinishedCall.entry) file.tables

omit [PyFloat F] in
/-- A row that is still as it was read is found again. -/
theorem leasedRow_again {eventId workerId : Str} {r : OutboxRow Str Str}
    {t₀ : OutboxTables Str Str} (h : leasedRow eventId workerId t₀ = (.ok r, t₀))
    (hrow : t.row eventId = some r) : leasedRow eventId workerId t = (.ok r, t) := by
  obtain ⟨-, hstatus, howner⟩ := (leasedRow_cases h).2 r rfl
  have hfind : t.outbox.find? (OutboxRow.leasedBy eventId workerId) = some r := by
    rw [← hrow]
    refine List.find?_congr ?_
    exact fun q hq => leasedBy_eq_of_row hrow hstatus howner hq
  obtain ⟨_, hbind, -⟩ := PyM.ofExcept_bind_eq_ok.mp h
  rw [leasedRow, PyM.bind_of_ok (by rw [PyM.ofExcept_apply, hbind]), PyM.get_bind, hfind]
  rfl

theorem Serial.record {file : OutboxFile F} {call : OutboxCall F} {asRead : Bool}
    {r : Except PyExc (List (OutboxEvent F))} {t : OutboxTables Str Str}
    (h : Serial order init file)
    (hexec : asRead = true → (OutboxBackend.sqlite order).exec call file.tables = (r, t)) :
    Serial order init ⟨t, ⟨(call, r), asRead⟩ :: file.finished⟩ := by
  intro hall
  have hrun := h fun c hc => hall c (List.mem_cons_of_mem _ hc)
  have hexec := hexec (hall _ List.mem_cons_self)
  have hnext := hrun.call (c := call) trivial
  rw [hexec] at hnext
  exact hnext

omit [PyFloat F] in
/-- The `SELECT` changes no table; where it finds no lease, the call ends. -/
theorem select_cases (call : OutboxCall F) (eventId workerId : Str) (file : OutboxFile F) :
    (∃ row, leasedRow eventId workerId file.tables = (.ok row, file.tables) ∧
      select call eventId workerId file = (.ok row, file)) ∨
    ∃ e, leasedRow eventId workerId file.tables = (.error e, file.tables) ∧
      select call eventId workerId file =
        (.error e, ⟨file.tables, ⟨(call, .error e), true⟩ :: file.finished⟩) := by
  rcases hread : leasedRow eventId workerId file.tables with ⟨r, t⟩
  obtain ⟨rfl, -⟩ := leasedRow_cases hread
  cases r with
  | ok row =>
    refine .inl ⟨row, rfl, ?_⟩
    rw [select, PyM.tryExcept, onTables, PyM.on, hread]
  | error e =>
    refine .inr ⟨e, rfl, ?_⟩
    rw [select, PyM.tryExcept, onTables, PyM.on, hread]
    rfl

omit [PyFloat F] in
/-- The call ends with its write. -/
theorem write_eq (call : OutboxCall F) (eventId error : Str) (row : OutboxRow Str Str)
    (file : OutboxFile F) {r : Except PyExc (List (OutboxEvent F))} {t : OutboxTables Str Str}
    (h : (moveToDeadLetters call.now eventId error row >>= fun _ => pure []) file.tables = (r, t)) :
    write call eventId error row file =
      (r, ⟨t, ⟨(call, r), file.tables.row eventId = some row⟩ :: file.finished⟩) := by
  rcases hmove : moveToDeadLetters call.now eventId error row file.tables with ⟨q, t₁⟩
  rw [write, PyM.get_bind, ending, onTables]
  cases q with
  | error e =>
    rw [PyM.bind_of_error hmove] at h
    cases h
    rw [PyM.bind_of_error (by rw [PyM.on, hmove])]
    rfl
  | ok u =>
    rw [PyM.bind_of_ok hmove] at h
    cases h
    rw [PyM.bind_of_ok (by rw [PyM.on, hmove])]
    rfl

/-- The whole of `dead_letter`, where the row that was read is still there. -/
theorem exec_of_leasedRow {now : Instant} {eventId workerId error : Str} {row : OutboxRow Str Str}
    (h : leasedRow eventId workerId t = (.ok row, t)) :
    (OutboxBackend.sqlite order).exec ⟨now, .deadLetter eventId workerId error⟩ t =
      (moveToDeadLetters now eventId error row >>= fun _ => pure []) t := by
  have hdead : deadLetter now eventId workerId error t =
      moveToDeadLetters now eventId error row t := PyM.bind_of_ok h
  show (deadLetter now eventId workerId error >>= fun _ => pure []) t = _
  rw [PyM.bind_apply, hdead]
  rfl

theorem exec_of_leasedRow_error {now : Instant} {eventId workerId error : Str} {e : PyExc}
    (h : leasedRow eventId workerId t = (.error e, t)) :
    (OutboxBackend.sqlite order).exec ⟨now, .deadLetter eventId workerId error⟩ t =
      (.error e, t) := by
  have hdead : deadLetter now eventId workerId error t = (.error e, t) := PyM.bind_of_error h
  exact PyM.bind_of_error hdead

/-- The `SELECT` keeps the serial run. -/
theorem select_step (now : Instant) (error : Str) {eventId workerId : Str} {file : OutboxFile F}
    (hfile : Serial order init file) :
    Serial order init (select ⟨now, .deadLetter eventId workerId error⟩ eventId workerId file).2 ∧
      ∀ row, (select (F := F) ⟨now, .deadLetter eventId workerId error⟩ eventId workerId
          file).1 = .ok row → ∃ t, leasedRow eventId workerId t = (.ok row, t) := by
  rcases select_cases ⟨now, .deadLetter eventId workerId error⟩ eventId workerId file with
    ⟨row, hread, heq⟩ | ⟨e, hread, heq⟩
  · rw [heq]
    refine ⟨hfile, fun row' hrow' => ?_⟩
    cases hrow'
    exact ⟨_, hread⟩
  · rw [heq]
    refine ⟨hfile.record fun _ => exec_of_leasedRow_error hread, fun row' hrow' => ?_⟩
    cases hrow'

/-- The transaction keeps the serial run: it is the whole operation where the
row is as it was read. -/
theorem write_step {now : Instant} {eventId workerId error : Str} {row : OutboxRow Str Str}
    {file : OutboxFile F} (hfile : Serial order init file)
    (hread : ∃ t, leasedRow eventId workerId t = (.ok row, t)) :
    Serial order init
      (write ⟨now, .deadLetter eventId workerId error⟩ eventId error row file).2 := by
  obtain ⟨t₀, hread⟩ := hread
  rcases hmove : (moveToDeadLetters now eventId error row >>= fun _ =>
    (pure [] : PyM _ (List (OutboxEvent F)))) file.tables with ⟨r, t⟩
  rw [write_eq ⟨now, .deadLetter eventId workerId error⟩ eventId error row file hmove]
  refine hfile.record fun hasRead => ?_
  have hrow : file.tables.row eventId = some row := by simpa using hasRead
  rw [exec_of_leasedRow (leasedRow_again hread hrow)]
  exact hmove

/-- Every step of a process keeps the serial run. -/
theorem process_safe (call : OutboxCall F) (file : OutboxFile F)
    (hfile : Serial order init file) :
    Proc.Safe (fun _ _ => True) (fun _ _ => True) (Serial order init) (fun _ _ => True)
      (process order call) file := by
  have hwhole : Proc.Safe (fun _ _ => True) (fun _ _ => True) (Serial order init)
      (fun _ _ => True) (Proc.atomic (whole order call)) file :=
    Proc.safe_atomic fun f _ hf => ⟨hf.record fun _ => rfl, trivial, fun _ _ _ => trivial⟩
  rcases hop : call with ⟨now, op⟩
  subst hop
  cases op with
  | deadLetter eventId workerId error =>
    refine Proc.safe_bind (Q := fun r _ => ∀ row, r = .ok row →
      ∃ t, leasedRow eventId workerId t = (.ok row, t)) (fun _ => trivial) ?_ hfile ?_
      fun _ _ _ _ => trivial
    · refine Proc.safe_atomic fun f _ hf => ?_
      obtain ⟨hserial, hrow⟩ := select_step now error hf
      exact ⟨hserial, trivial, fun _ _ _ => hrow⟩
    · intro row f _ hread
      refine Proc.safe_atomic fun g _ hg => ?_
      exact ⟨write_step hg (hread row rfl), trivial, fun _ _ _ => trivial⟩
  | _ => exact hwhole

/-- Where every write of `dead_letter` finds the row as it was read, the calls
that ended have the results and the tables of a serial run in their order.  So
an event is moved to the dead letters only by the worker that leases it. -/
theorem serial_if_as_read {pool : Pool ℕ (OutboxFile F) PyExc (List (OutboxEvent F))}
    (h : FileReach order init pool)
    (hread : ∀ call ∈ pool.state.finished, call.asRead = true) :
    SerialRun order init (pool.state.finished.map FinishedCall.entry) pool.state.tables ∧
      ∀ later call eventId workerId error events earlier,
        pool.state.finished.map FinishedCall.entry = later ++ (call, .ok events) :: earlier →
        call.op = .deadLetter eventId workerId error →
        ∃ t row, SerialRun order init earlier t ∧ t.row eventId = some row ∧
          row.status = .leased ∧ row.leaseOwner = some workerId := by
  have hserial : Serial order init pool.state := by
    refine (h.safe (I := Serial order init) (R := fun _ _ _ => True) (G := fun _ _ _ => True)
      (Q := fun _ _ _ => True) ⟨?_, ?_, ?_, ?_, ?_⟩ ?_ ?_).1
    · exact fun _ _ => trivial
    · exact fun _ _ _ _ _ _ => trivial
    · exact fun _ _ _ _ _ _ => trivial
    · exact fun _ _ hfalse => hfalse.elim
    · exact fun _ _ _ _ => trivial
    · rintro file rfl _
      exact .nil
    · rintro i p file ⟨call, rfl⟩ hfile
      exact process_safe call file hfile
  have hrun := hserial hread
  refine ⟨hrun, ?_⟩
  intro later call eventId workerId error events earlier hlog hop
  rw [hlog] at hrun
  obtain ⟨t', ht'⟩ := hrun.before
  obtain ⟨t, ht, -, hexec⟩ := ht'.last
  obtain ⟨now, op⟩ := call
  cases hop
  have hmove : OutboxMove sqliteFormat now (.deadLetter eventId workerId error) (.ok events) t t' :=
    deadLetter_move hexec
  cases hmove with
  | deadLettered hrow hstatus howner => exact ⟨t, _, ht, hrow, hstatus, howner⟩

/-! ### A former owner -/

/-- One process reads its lease, another claims the event, and the first
writes. -/
theorem read_claim_write (now : Instant) (error : Str) {eventId workerId : Str} {row : OutboxRow Str Str}
    {claim : OutboxCall F} (hclaim : process order claim = .atomic (whole order claim))
    (hread : leasedRow eventId workerId init = (.ok row, init)) :
    ∃ procs, FileReach order init
      ⟨(write ⟨now, .deadLetter eventId workerId error⟩ eventId error row
        (whole order claim ⟨init, []⟩).2).2, procs⟩ := by
  have hselect : select (F := F) ⟨now, .deadLetter eventId workerId error⟩ eventId workerId
      ⟨init, []⟩ = (.ok row, ⟨init, []⟩) := by
    rw [select, PyM.tryExcept, onTables, PyM.on, hread]
  have hinit : FileReach (F := F) order init ⟨⟨init, []⟩, fun _ => none⟩ := .init rfl
  have hstart := hinit.start (i := 0) (p := process order ⟨now, .deadLetter eventId workerId error⟩)
    rfl ⟨_, rfl⟩
  have hselected := hstart.step (Function.update_self 0 _ _)
  simp only [hselect, Function.update_idem] at hselected
  have hclaiming := hselected.start (i := 1) (p := .atomic (whole order claim)) rfl
    ⟨claim, hclaim.symm⟩
  have hclaimed := hclaiming.step (Function.update_self 1 _ _)
  simp only [Function.update_idem] at hclaimed
  have hwritten := hclaimed.step
    ((Function.update_of_ne Nat.zero_ne_one _ _).trans (Function.update_self 0 _ _))
  exact ⟨_, hwritten⟩

/-- The tables after an event was enqueued and claimed by the worker `w`. -/
def sampleTables : OutboxTables Str Str := (runCalls sampleBackend sampleCalls).2

/-- The worker `w` after its lease ran out. -/
def sampleBury : OutboxCall Half :=
  ⟨sampleInstant 100, .deadLetter (lit "e") (lit "w") (lit "offline")⟩

def sampleReclaim : OutboxCall Half := ⟨sampleInstant 100, .claim (lit "v") 10 60 []⟩

/-- The file after a worker moved an event it leases to the dead letters. -/
def sampleFile : OutboxFile Half :=
  ((process insertionOrder sampleBury).run ⟨sampleTables, []⟩).2

theorem serial_if_as_read_sample :
    sampleFile.finished.length = 1 ∧ (sampleFile.tables.letter (lit "e")).isSome ∧
      SerialRun insertionOrder sampleTables (sampleFile.finished.map FinishedCall.entry)
        sampleFile.tables := by
  have hinit : FileReach (F := Half) insertionOrder sampleTables
      ⟨⟨sampleTables, []⟩, fun _ => none⟩ := .init rfl
  have hreach : FileReach insertionOrder sampleTables ⟨sampleFile, fun _ => none⟩ :=
    hinit.run (i := 0) ⟨sampleBury, rfl⟩
  have hread : ∀ call ∈ sampleFile.finished, call.asRead = true := by
    have hall : sampleFile.finished.all FinishedCall.asRead = true := by decide +kernel
    exact List.all_eq_true.mp hall
  exact ⟨by decide +kernel, by decide +kernel, (serial_if_as_read hreach hread).1⟩

/-- A serial run of two calls. -/
theorem SerialRun.pair {c c' : OutboxCall F} {r r' : Except PyExc (List (OutboxEvent F))}
    (h : SerialRun order init [(c', r'), (c, r)] t) :
    ((OutboxBackend.sqlite order).exec c init).1 = r ∧
      ((OutboxBackend.sqlite order).exec c' ((OutboxBackend.sqlite order).exec c init).2).1 = r' := by
  obtain ⟨t₁, h₁, -, hexec'⟩ := h.last
  obtain ⟨t₀, h₀, -, hexec⟩ := h₁.last
  cases h₀
  rw [hexec]
  exact ⟨rfl, by rw [hexec']⟩

/-- A process reads its lease, which has run out; another process claims the
event; and the first still moves it to the dead letters.  No serial order of
the two calls has these results. -/
theorem former_owner_buries :
    ∃ log t, ∃ pool : Pool ℕ (OutboxFile Half) PyExc (List (OutboxEvent Half)),
    OutboxRun sampleBackend log t ∧ FileReach insertionOrder t pool ∧
    ¬ ∃ serial, serial.Perm (pool.state.finished.map FinishedCall.entry) ∧
      SerialRun insertionOrder t serial pool.state.tables := by
  have hok : (leasedRow (lit "e") (lit "w") sampleTables).1.isOk = true := by decide +kernel
  obtain ⟨row, t₁, hread⟩ := PyM.exists_of_isOk hok
  obtain ⟨rfl, -⟩ := leasedRow_cases hread
  have hclaim : process insertionOrder sampleReclaim = .atomic (whole insertionOrder sampleReclaim) :=
    rfl
  obtain ⟨procs, hpool⟩ := read_claim_write (sampleInstant 100) (lit "offline") hclaim hread
  refine ⟨_, _, _, sampleRun, hpool, ?_⟩
  rintro ⟨serial, hperm, hserial⟩
  -- the write returned, whatever row was read
  have hwrite := write_eq sampleBury (lit "e") (lit "offline") row
    (whole insertionOrder sampleReclaim ⟨sampleTables, []⟩).2 rfl
  have hentries : (write sampleBury (lit "e") (lit "offline") row
      (whole insertionOrder sampleReclaim ⟨sampleTables, []⟩).2).2.finished.map
        FinishedCall.entry =
      [(sampleBury, .ok []), (sampleReclaim, (sampleBackend.exec sampleReclaim sampleTables).1)] := by
    rw [hwrite]
    rfl
  rcases List.perm_pair.mp (hperm.trans (.of_eq hentries)) with rfl | rfl
  · -- after the claim the former owner is refused
    have hrefused : ((sampleBackend.exec sampleBury
        (sampleBackend.exec sampleReclaim sampleTables).2).1).isOk = false := by decide +kernel
    have hresult : (sampleBackend.exec sampleBury
        (sampleBackend.exec sampleReclaim sampleTables).2).1 = .ok [] := hserial.pair.2
    rw [hresult] at hrefused
    cases hrefused
  · -- after the dead letter there is nothing to claim
    have hnothing : ((sampleBackend.exec sampleReclaim
        (sampleBackend.exec sampleBury sampleTables).2).1.toOption.map List.length) = some 0 := by
      decide +kernel
    have hclaimed : ((sampleBackend.exec sampleReclaim sampleTables).1.toOption.map
        List.length) = some 1 := by decide +kernel
    have hresult : (sampleBackend.exec sampleReclaim (sampleBackend.exec sampleBury
        sampleTables).2).1 = (sampleBackend.exec sampleReclaim sampleTables).1 := hserial.pair.2
    rw [hresult, hclaimed] at hnothing
    cases hnothing

end AgentRoi
