/-
`PostgresMigrationManager.migrate` of `agent_roi.db.core`.

Calls come one after the other, as the advisory lock makes them, and any
operation of a call may raise.  The scripts act on the rest of the database:
what a statement does there is a parameter.

* `VersionTable`, `Database` — the recorded versions, and the rest;
* `connection` — a transaction, rolled back when its body raises;
* `migrate` — a call;
* `applyMigrations_eq_ok` — what the loop over the migrations does: it applies
  those that are not recorded, and no others;
* `migrations_once` — every call of a run applies what is not recorded yet,
  once and in its order, or changes nothing.
-/
import AgentRoi.Dict
import AgentRoi.PyM
import AgentRoi.SqlScript

namespace AgentRoi

structure Migration where
  version : ℤ
  name : Str
  sql : Str
  positive : 1 ≤ version
  hasName : isBlank name = false
  hasSql : isBlank sql = false

def Migration.row (m : Migration) : ℤ × Str := (m.version, m.name)

/-- `agent_roi_schema_migrations`. -/
structure VersionTable where
  rows : List (ℤ × Str)
  primaryKey : (rows.map Prod.fst).Nodup

/-- A table with one more row. -/
def VersionTable.insert (table : VersionTable) (row : ℤ × Str)
    (h : row.1 ∉ table.rows.map Prod.fst) : VersionTable where
  rows := table.rows ++ [row]
  primaryKey := by
    rw [List.map_append, List.map_singleton, ← List.concat_eq_append]
    exact table.primaryKey.concat h

structure Database (S : Type) where
  schemaExists : Bool
  versions : Option VersionTable
  /-- What the scripts act on. -/
  objects : S

/-- The recorded versions. -/
def Database.rows {S : Type} (db : Database S) : List (ℤ × Str) :=
  db.versions.elim [] VersionTable.rows

theorem Database.nodup_rows {S : Type} (db : Database S) : (db.rows.map Prod.fst).Nodup := by
  unfold Database.rows
  cases db.versions with
  | none => exact List.nodup_nil
  | some table => exact table.primaryKey

/-- A connection: the database as it sees it, and what its operations raise. -/
structure Session (S : Type) where
  db : Database S
  faults : List (Option PyExc)

section

variable {S α : Type}

/-- An operation of the connection, which may fail. -/
def operation (statement : PyM (Database S) α) : PyM (Session S) α := fun s =>
  match s.faults with
  | some e :: faults => (.error e, ⟨s.db, faults⟩)
  | none :: faults => ((statement s.db).1, ⟨(statement s.db).2, faults⟩)
  | [] => ((statement s.db).1, ⟨(statement s.db).2, []⟩)

/-- `CREATE SCHEMA IF NOT EXISTS`. -/
def createSchema : PyM (Database S) Unit := .modify fun db => { db with schemaExists := true }

/-- A statement with no effect on what is stored. -/
def noEffect : PyM (Database S) Unit := pure ()

/-- `PostgresConnectionFactory.connection` around its body. -/
def connection (body : PyM (Session S) α) (faults : List (Option PyExc)) :
    PyM (Database S) α :=
  .transaction fun db =>
    let run : PyM (Session S) α := do
      operation createSchema
      -- `SET search_path`
      operation noEffect
      let result ← body
      -- `conn.commit()`
      operation noEffect
      return result
    ((run ⟨db, faults⟩).1, (run ⟨db, faults⟩).2.db)

/-- `CREATE TABLE IF NOT EXISTS agent_roi_schema_migrations`. -/
def createVersionTable : PyM (Database S) Unit :=
  .modify fun db => { db with versions := some (db.versions.getD ⟨[], List.nodup_nil⟩) }

/-- `SELECT version, name FROM agent_roi_schema_migrations`, as `existing`. -/
def selectVersions : PyM (Database S) (List (ℤ × Str)) := do
  let db ← .get
  return dictOf db.rows

/-- `INSERT INTO agent_roi_schema_migrations`: the primary key is an `INTEGER`. -/
def insertVersion (version : ℤ) (name : Str) : PyM (Database S) Unit := do
  let db ← .get
  match db.versions with
  | none => .raise .integrityError
  | some table =>
    if h : version ∉ table.rows.map Prod.fst ∧ version < 2 ^ 31 then
      .set { db with versions := some (table.insert (version, name) h.1) }
    else .raise .integrityError

variable (execute : Str → S → Except PyExc S) (repr : Str → Str)

/-- A statement of a script. -/
def executeStatement (statement : Str) : PyM (Database S) Unit := fun db =>
  match execute statement db.objects with
  | .ok objects => (.ok (), { db with objects })
  | .error e => (.error e, db)

/-- The statements of one script, one after the other. -/
def executeScript : List Str → PyM (Session S) Unit
  | [] => return ()
  | statement :: statements => do
    operation (executeStatement execute statement)
    executeScript statements

/-- The loop over the selected migrations, with the versions it applies. -/
def applyMigrations (existing : List (ℤ × Str)) : List Migration → PyM (Session S) (List ℤ)
  | [] => return []
  | m :: rest =>
    match dictGet m.version existing with
    | some prior =>
      if prior = m.name then applyMigrations existing rest
      else .raise (migrationError (lit "Migration " ++ intText m.version ++
        lit " was previously applied as " ++ repr prior ++ lit ", not " ++ repr m.name))
    | none => do
      let statements ← .ofExcept (splitSqlStatements m.sql)
      executeScript execute statements
      operation (insertVersion m.version m.name)
      let applied ← applyMigrations existing rest
      return m.version :: applied

/-- `except Exception`: all but a `MigrationError` is raised as one. -/
def translateError (e : PyExc) : PyM (Session S) α :=
  if e.isException ∧ e.className ≠ lit "MigrationError" then
    .raise (migrationError (lit "PostgreSQL migration failed"))
  else .raise e

/-- A call: the migrations of its manager, its target, and what its
operations raise. -/
structure MigrateCall where
  migrations : List Migration
  target : Option ℤ
  faults : List (Option PyExc)

def MigrateCall.selected (call : MigrateCall) : List Migration :=
  call.migrations.filter fun m => call.target.all fun target => m.version ≤ target

/-- `PostgresMigrationManager.migrate`. -/
def migrate (call : MigrateCall) : PyM (Database S) (List ℤ) :=
  connection (.tryExcept (do
      -- `SELECT pg_advisory_xact_lock`
      operation noEffect
      operation createVersionTable
      let existing ← operation selectVersions
      applyMigrations execute repr existing call.selected)
    translateError) call.faults

/-- The database after some calls. -/
def afterCalls (db : Database S) : List MigrateCall → Database S
  | [] => db
  | call :: calls => afterCalls (migrate execute repr call db).2 calls

/-! ### One call -/

/-- The statements of the migrations, one after the other. -/
def runScripts (migrations : List Migration) (objects : S) : Except PyExc S :=
  migrations.foldlM (fun objects m => do
    let statements ← splitSqlStatements m.sql
    statements.foldlM (fun objects statement => execute statement objects) objects) objects

/-- The migrations that have no entry in `existing`, in their order. -/
def pending (existing : List (ℤ × Str)) (migrations : List Migration) : List Migration :=
  migrations.filter fun m => (dictGet m.version existing).isNone

/-- What the loop over the migrations did: the pending ones took effect, and
the others were recorded already, under their names. -/
structure Applied (existing : List (ℤ × Str)) (migrations : List Migration)
    (db db' : Database S) : Prop where
  rows : db'.rows = db.rows ++ (pending existing migrations).map Migration.row
  objects : runScripts execute (pending existing migrations) db.objects = .ok db'.objects
  settled : ∀ m ∈ migrations, m ∈ pending existing migrations ∨
    dictGet m.version existing = some m.name

variable {execute repr} {s s' : Session S} {existing : List (ℤ × Str)} {migrations : List Migration}
  {applied : List ℤ} {call : MigrateCall} {db db' start : Database S}

theorem mem_pending {m : Migration} :
    m ∈ pending existing migrations ↔ m ∈ migrations ∧ dictGet m.version existing = none := by
  rw [pending, List.mem_filter, Option.isNone_iff_eq_none]

theorem pending_of_none {m : Migration} (h : dictGet m.version existing = none) :
    pending existing (m :: migrations) = m :: pending existing migrations :=
  List.filter_cons_of_pos (by rw [h]; rfl)

theorem pending_of_some {m : Migration} {name : Str} (h : dictGet m.version existing = some name) :
    pending existing (m :: migrations) = pending existing migrations :=
  List.filter_cons_of_neg (by rw [h]; simp)

theorem runScripts_cons {m : Migration} {objects objects' : S} :
    runScripts execute (m :: migrations) objects = .ok objects' ↔
      ∃ statements between, splitSqlStatements m.sql = .ok statements ∧
        statements.foldlM (fun objects statement => execute statement objects) objects =
          .ok between ∧ runScripts execute migrations between = .ok objects' := by
  rw [runScripts, List.foldlM_cons]
  constructor
  · intro h
    obtain ⟨between, hfirst, hrest⟩ := except_bind_eq_ok.mp h
    obtain ⟨statements, hsplit, hrun⟩ := except_bind_eq_ok.mp hfirst
    exact ⟨statements, between, hsplit, hrun, hrest⟩
  · rintro ⟨statements, between, hsplit, hrun, hrest⟩
    exact except_bind_eq_ok.mpr ⟨between, except_bind_eq_ok.mpr ⟨statements, hsplit, hrun⟩, hrest⟩

theorem operation_eq_ok {statement : PyM (Database S) α} {a : α}
    (h : operation statement s = (.ok a, s')) : statement s.db = (.ok a, s'.db) := by
  unfold operation at h
  split at h
  · cases h
  · simp only [Prod.mk.injEq] at h
    obtain ⟨hresult, rfl⟩ := h
    exact Prod.ext hresult rfl
  · simp only [Prod.mk.injEq] at h
    obtain ⟨hresult, rfl⟩ := h
    exact Prod.ext hresult rfl

theorem executeScript_eq_ok {statements : List Str} {u : Unit}
    (h : executeScript execute statements s = (.ok u, s')) :
    statements.foldlM (fun objects statement => execute statement objects) s.db.objects =
        .ok s'.db.objects ∧
      s'.db.versions = s.db.versions := by
  induction statements generalizing s with
  | nil =>
    cases h
    exact ⟨rfl, rfl⟩
  | cons statement statements ih =>
    obtain ⟨_, s₁, hfirst, hrest⟩ := PyM.bind_eq_ok.mp h
    have hfirst := operation_eq_ok hfirst
    obtain ⟨hobjects, hversions⟩ := ih hrest
    unfold executeStatement at hfirst
    cases hrun : execute statement s.db.objects with
    | error e =>
      rw [hrun] at hfirst
      cases hfirst
    | ok objects =>
      rw [hrun] at hfirst
      simp only [Prod.mk.injEq, true_and] at hfirst
      rw [← hfirst] at hobjects hversions
      refine ⟨?_, hversions⟩
      rw [List.foldlM_cons, hrun]
      exact hobjects

theorem insertVersion_eq_ok {version : ℤ} {name : Str} {u : Unit}
    (h : insertVersion version name db = (.ok u, db')) :
    db'.rows = db.rows ++ [(version, name)] ∧ db'.objects = db.objects := by
  unfold insertVersion at h
  rw [PyM.get_bind] at h
  cases hversions : db.versions with
  | none =>
    rw [hversions] at h
    cases h
  | some table =>
    rw [hversions] at h
    dsimp only at h
    split at h
    · cases h
      refine ⟨?_, rfl⟩
      rw [Database.rows, Database.rows, hversions]
      rfl
    · cases h

/-- The loop, by induction on the migrations that are left. -/
theorem applyMigrations_eq_ok
    (h : applyMigrations execute repr existing migrations s = (.ok applied, s')) :
    applied = (pending existing migrations).map Migration.version ∧
      Applied execute existing migrations s.db s'.db := by
  induction migrations generalizing s applied with
  | nil =>
    cases h
    exact ⟨rfl, (List.append_nil _).symm, rfl, fun _ hm => absurd hm List.not_mem_nil⟩
  | cons m migrations ih =>
    rw [applyMigrations] at h
    cases hprior : dictGet m.version existing with
    | some prior =>
      rw [hprior] at h
      dsimp only at h
      split at h
      · next hname =>
        -- recorded already, under its name
        obtain ⟨happlied, hnew⟩ := ih h
        have hsame : pending existing (m :: migrations) = pending existing migrations :=
          pending_of_some hprior
        refine ⟨hsame ▸ happlied, hsame ▸ hnew.rows, hsame ▸ hnew.objects, ?_⟩
        rw [hsame, List.forall_mem_cons]
        exact ⟨.inr (hname ▸ hprior), hnew.settled⟩
      · cases h
    | none =>
      rw [hprior] at h
      obtain ⟨statements, hsplit, h⟩ := PyM.ofExcept_bind_eq_ok.mp h
      obtain ⟨_, s₁, hscript, h⟩ := PyM.bind_eq_ok.mp h
      obtain ⟨_, s₂, hinsert, h⟩ := PyM.bind_eq_ok.mp h
      obtain ⟨rest, s₃, hrest, h⟩ := PyM.bind_eq_ok.mp h
      cases h
      obtain ⟨hobjects, hversions⟩ := executeScript_eq_ok hscript
      obtain ⟨hrows, hkept⟩ := insertVersion_eq_ok (operation_eq_ok hinsert)
      obtain ⟨rfl, hnew⟩ := ih hrest
      rw [pending_of_none hprior]
      refine ⟨rfl, ?_, ?_, ?_⟩ <;> rw [pending_of_none hprior]
      · have hsame : s₁.db.rows = s.db.rows := by rw [Database.rows, hversions, Database.rows]
        rw [hnew.rows, hrows, hsame, List.append_assoc]
        rfl
      · exact runScripts_cons.mpr ⟨statements, _, hsplit, hobjects, hkept ▸ hnew.objects⟩
      · rw [List.forall_mem_cons]
        refine ⟨.inl List.mem_cons_self, fun other hother => ?_⟩
        exact (hnew.settled other hother).imp_left (List.mem_cons_of_mem m)

/-- What a connection has done that is closed without an exception. -/
theorem connection_eq_ok {body : PyM (Session S) α} {faults : List (Option PyExc)} {a : α}
    (h : connection body faults db = (.ok a, db')) :
    ∃ opened closed : Session S, opened.db = { db with schemaExists := true } ∧
      body opened = (.ok a, closed) ∧ db' = closed.db := by
  unfold connection at h
  have hrun := PyM.transaction_eq_ok.mp h
  simp only [Prod.mk.injEq] at hrun
  obtain ⟨hresult, hdb⟩ := hrun
  obtain ⟨_, s₁, hschema, hrun⟩ := PyM.bind_eq_ok.mp (Prod.ext hresult rfl)
  obtain ⟨_, opened, hpath, hrun⟩ := PyM.bind_eq_ok.mp hrun
  obtain ⟨result, closed, hbody, hrun⟩ := PyM.bind_eq_ok.mp hrun
  obtain ⟨_, s₄, hcommit, hrun⟩ := PyM.bind_eq_ok.mp hrun
  obtain ⟨hresult, hend⟩ := Prod.mk.inj hrun
  cases hresult
  have hschema : s₁.db = { db with schemaExists := true } :=
    (congrArg Prod.snd (operation_eq_ok hschema)).symm
  have hpath : opened.db = s₁.db := (congrArg Prod.snd (operation_eq_ok hpath)).symm
  have hcommit : s₄.db = closed.db := (congrArg Prod.snd (operation_eq_ok hcommit)).symm
  exact ⟨opened, closed, hpath.trans hschema, hbody,
    hdb.symm.trans ((congrArg Session.db hend).symm.trans hcommit)⟩

/-- A call that raises leaves the database as it was. -/
theorem migrate_eq_error {e : PyExc} (h : migrate execute repr call db = (.error e, db')) :
    db' = db := by
  unfold migrate connection at h
  exact (PyM.transaction_eq_error.mp h).1

theorem dictGet_rows {version : ℤ} {name : Str} :
    dictGet version (dictOf db.rows) = some name ↔ (version, name) ∈ db.rows := by
  rw [dictOf_of_nodup db.nodup_rows, dictGet_eq_some_iff db.nodup_rows]

/-- What a call that returns has applied. -/
theorem migrate_eq_ok (h : migrate execute repr call db = (.ok applied, db')) :
    applied = (pending (dictOf db.rows) call.selected).map Migration.version ∧
      Applied execute (dictOf db.rows) call.selected db db' := by
  unfold migrate at h
  obtain ⟨opened, closed, hopened, hbody, rfl⟩ := connection_eq_ok h
  -- the exception handler never returns
  have hbody := (PyM.tryExcept_eq_ok.mp hbody).resolve_right fun ⟨e, s, _, hraise⟩ => by
    unfold translateError at hraise
    split at hraise <;> cases hraise
  obtain ⟨_, t₁, hlock, hbody⟩ := PyM.bind_eq_ok.mp hbody
  obtain ⟨_, t₂, htable, hbody⟩ := PyM.bind_eq_ok.mp hbody
  obtain ⟨existing, t₃, hselect, hbody⟩ := PyM.bind_eq_ok.mp hbody
  obtain ⟨happlied, hnew⟩ := applyMigrations_eq_ok hbody
  -- what the operations before the loop did to the rows and the objects
  have hlock : t₁.db = opened.db := (congrArg Prod.snd (operation_eq_ok hlock)).symm
  have htable : t₂.db = { t₁.db with versions := some (t₁.db.versions.getD ⟨[], List.nodup_nil⟩) } :=
    (congrArg Prod.snd (operation_eq_ok htable)).symm
  have hselected : t₃.db = t₂.db := (congrArg Prod.snd (operation_eq_ok hselect)).symm
  have hexisting : Except.ok existing = Except.ok (dictOf t₂.db.rows) :=
    (congrArg Prod.fst (operation_eq_ok hselect)).symm
  have hobjects : t₃.db.objects = db.objects := by
    rw [hselected, htable, hlock, hopened]
  have hrows₂ : t₂.db.rows = db.rows := by
    rw [htable, hlock, hopened]
    cases hversions : db.versions <;> simp [Database.rows, hversions]
  have hrows : t₃.db.rows = db.rows := by rw [hselected, hrows₂]
  have hkey : existing = dictOf db.rows := by
    rw [← hrows₂]
    exact Except.ok.inj hexisting
  subst hkey
  exact ⟨happlied, hrows ▸ hnew.rows, hobjects ▸ hnew.objects, hnew.settled⟩

/-- A selected migration is recorded after a call that returns. -/
theorem Applied.recorded {m : Migration}
    (h : Applied execute (dictOf db.rows) migrations db db') (hm : m ∈ migrations) :
    m.row ∈ db'.rows := by
  rw [h.rows]
  rcases h.settled m hm with hnew | hexisting
  · exact List.mem_append_right _ (List.mem_map_of_mem hnew)
  · exact List.mem_append_left _ (dictGet_rows.mp hexisting)

/-- The loop applies nothing where everything is recorded. -/
theorem applyMigrations_of_recorded
    (h : ∀ m ∈ migrations, dictGet m.version existing = some m.name) :
    applyMigrations execute repr existing migrations s = (.ok [], s) := by
  induction migrations with
  | nil => rfl
  | cons m migrations ih =>
    obtain ⟨hm, hrest⟩ := List.forall_mem_cons.mp h
    rw [applyMigrations, hm]
    dsimp only
    rw [if_pos rfl]
    exact ih hrest

/-- A call whose operations do not fail returns where everything is recorded. -/
theorem migrate_of_recorded (hfaults : call.faults = [])
    (h : ∀ m ∈ call.selected, m.row ∈ db.rows) :
    (migrate execute repr call db).1 = .ok [] := by
  -- what the loop finds in the version table
  obtain ⟨found, hfound⟩ : ∃ found : Database S, found = { db with
      schemaExists := true
      versions := some (db.versions.getD ⟨[], List.nodup_nil⟩) } := ⟨_, rfl⟩
  have hrows : found.rows = db.rows := by
    rw [hfound]
    cases hversions : db.versions <;> simp [Database.rows, hversions]
  have hloop : applyMigrations execute repr (dictOf found.rows) call.selected
      (⟨found, []⟩ : Session S) = (.ok [], ⟨found, []⟩) := by
    refine applyMigrations_of_recorded fun m hm => ?_
    rw [hrows]
    exact dictGet_rows.mpr (h m hm)
  subst hfound
  unfold migrate connection
  rw [hfaults]
  simp only [PyM.transaction, PyM.tryExcept, PyM.bind_apply, operation, createSchema,
    createVersionTable, selectVersions, noEffect, PyM.modify, PyM.get, PyM.pure_apply, hloop]

/-! ### Runs -/

/-- A call changes nothing when it raises, and otherwise only adds rows. -/
theorem migrate_begins (call : MigrateCall) (db : Database S) :
    db.rows <+: (migrate execute repr call db).2.rows := by
  rcases h : migrate execute repr call db with ⟨e | applied, db'⟩
  · rw [migrate_eq_error h]
  · obtain ⟨-, hnew⟩ := migrate_eq_ok h
    exact ⟨_, hnew.rows.symm⟩

theorem afterCalls_begins (calls : List MigrateCall) (db : Database S) :
    db.rows <+: (afterCalls execute repr db calls).rows := by
  induction calls generalizing db with
  | nil => exact List.prefix_rfl
  | cons call calls ih => exact (migrate_begins call db).trans (ih _)

theorem afterCalls_append (calls later : List MigrateCall) (db : Database S) :
    afterCalls execute repr db (calls ++ later) =
      afterCalls execute repr (afterCalls execute repr db calls) later := by
  induction calls generalizing db with
  | nil => rfl
  | cons call calls ih => exact ih _

theorem runScripts_append {new : List Migration} {objects : S} :
    runScripts execute (migrations ++ new) objects =
      (runScripts execute migrations objects) >>= runScripts execute new :=
  List.foldlM_append

variable (execute) in
/-- The migrations that took effect since the start: they are recorded, their
scripts made the database what it is, and no version is among them twice. -/
structure Effective (start : Database S) (done : List Migration) (db : Database S) : Prop where
  rows : db.rows = start.rows ++ done.map Migration.row
  objects : runScripts execute done start.objects = .ok db.objects
  once : (done.map Migration.version).Nodup

theorem Effective.of_rows {done : List Migration} (hrows : db.rows = start.rows ++ done.map Migration.row)
    (hobjects : runScripts execute done start.objects = .ok db.objects) :
    Effective execute start done db where
  rows := hrows
  objects := hobjects
  once := by
    have hnodup : (db.rows.map Prod.fst).Nodup := db.nodup_rows
    rw [hrows, List.map_append, List.map_map] at hnodup
    exact (List.nodup_append.mp hnodup).2.1

/-- A call that returns extends what took effect. -/
theorem Effective.extend {done : List Migration} (h : Effective execute start done db)
    (hnew : Applied execute existing migrations db db') :
    Effective execute start (done ++ pending existing migrations) db' := by
  refine .of_rows ?_ ?_
  · rw [hnew.rows, h.rows, List.append_assoc, List.map_append]
  · rw [runScripts_append, h.objects]
    exact hnew.objects

/-- By induction on the calls: each changes nothing or extends what took
effect. -/
theorem effective_afterCalls {done : List Migration} (calls : List MigrateCall)
    (h : Effective execute start done db) :
    ∃ done', Effective execute start done' (afterCalls execute repr db calls) := by
  induction calls generalizing db done with
  | nil => exact ⟨done, h⟩
  | cons call calls ih =>
    rcases hcall : migrate execute repr call db with ⟨e | applied, db'⟩
    · have hdb := migrate_eq_error hcall
      subst hdb
      have hafter : afterCalls execute repr db' (call :: calls) =
          afterCalls execute repr db' calls := by rw [afterCalls, hcall]
      rw [hafter]
      exact ih h
    · obtain ⟨-, hnew⟩ := migrate_eq_ok hcall
      have hafter : afterCalls execute repr db (call :: calls) =
          afterCalls execute repr db' calls := by rw [afterCalls, hcall]
      rw [hafter]
      exact ih (h.extend hnew)

/-- The migrations whose versions are not recorded, in their order. -/
def unrecorded (db : Database S) (migrations : List Migration) : List Migration :=
  migrations.filter fun m => m.version ∉ db.rows.map Prod.fst

/-- What the loop finds pending is what is not recorded. -/
theorem pending_eq_unrecorded :
    pending (dictOf db.rows) migrations = unrecorded db migrations := by
  refine List.filter_congr fun m _ => ?_
  rw [Bool.eq_iff_iff, Option.isNone_iff_eq_none, decide_eq_true_iff, Option.eq_none_iff_forall_not_mem]
  constructor
  · intro hnone hrecorded
    obtain ⟨row, hrow, hversion⟩ := List.mem_map.mp hrecorded
    exact hnone row.2 (dictGet_rows.mpr (hversion ▸ hrow))
  · intro hnew name hname
    exact hnew (List.mem_map_of_mem (dictGet_rows.mp hname))

variable (execute repr) in
/-- What a call does, after the migrations of `done` took effect.  One that
returns applies each selected migration whose version is not recorded, and
every selected one is recorded then. -/
structure CallSpec (start : Database S) (done : List Migration) (call : MigrateCall)
    (db : Database S) : Prop where
  raises : ∀ e db', migrate execute repr call db = (.error e, db') → db' = db
  returns : ∀ applied db', migrate execute repr call db = (.ok applied, db') →
    applied = (unrecorded db call.selected).map Migration.version ∧
      Effective execute start (done ++ unrecorded db call.selected) db' ∧
      ∀ m ∈ call.selected, m.row ∈ db'.rows
  conflict : ∀ m ∈ call.selected, ∀ name, (m.version, name) ∈ db.rows → name ≠ m.name →
    ∃ e, migrate execute repr call db = (.error e, db)
  recorded : call.faults = [] → (∀ m ∈ call.selected, m.row ∈ db.rows) →
    (migrate execute repr call db).1 = .ok []

/-- In every run of calls, from any database, each migration takes effect once,
and is recorded: a call applies in its order what is not recorded yet, or
raises and changes nothing, and a repeated call applies nothing. -/
theorem migrations_once (execute : Str → S → Except PyExc S) (repr : Str → Str)
    (start : Database S) (calls : List MigrateCall) (call : MigrateCall) :
    (∃ done, Effective execute start done (afterCalls execute repr start calls) ∧
      CallSpec execute repr start done call (afterCalls execute repr start calls)) ∧
    ∀ before again after, calls = before ++ again :: after →
      again.migrations = call.migrations → again.target = call.target →
      (∃ applied db, migrate execute repr again (afterCalls execute repr start before) =
        (.ok applied, db)) →
      ∀ applied db, migrate execute repr call (afterCalls execute repr start calls) =
        (.ok applied, db) → applied = [] := by
  constructor
  · have hbegin : Effective execute start [] start :=
      Effective.of_rows (List.append_nil start.rows).symm rfl
    obtain ⟨done, hdone⟩ :
        ∃ done, Effective execute start done (afterCalls execute repr start calls) :=
      effective_afterCalls calls hbegin
    refine ⟨done, hdone, fun e db' h => migrate_eq_error h, fun applied db' h => ?_, ?_,
      migrate_of_recorded⟩
    · obtain ⟨happlied, hnew⟩ := migrate_eq_ok h
      rw [pending_eq_unrecorded] at happlied
      refine ⟨happlied, ?_, fun m hm => hnew.recorded hm⟩
      rw [← pending_eq_unrecorded]
      exact hdone.extend hnew
    · intro m hm name hrow hname
      rcases h : migrate execute repr call (afterCalls execute repr start calls) with
        ⟨e | applied, db'⟩
      · exact ⟨e, by rw [migrate_eq_error h]⟩
      · obtain ⟨-, hnew⟩ := migrate_eq_ok h
        have hget := dictGet_rows.mpr hrow
        rcases hnew.settled m hm with hmem | hsame
        · rw [(mem_pending.mp hmem).2] at hget
          cases hget
        · rw [hsame] at hget
          cases hget
          exact absurd rfl hname
  · rintro before again after rfl hmigrations htarget ⟨first, db₁, hfirst⟩ applied db₂ hsecond
    obtain ⟨-, hdone⟩ := migrate_eq_ok hfirst
    obtain ⟨rfl, hnew⟩ := migrate_eq_ok hsecond
    have hselected : again.selected = call.selected := by
      rw [MigrateCall.selected, MigrateCall.selected, hmigrations, htarget]
    have hrows : db₁.rows <+: (afterCalls execute repr start (before ++ again :: after)).rows := by
      rw [afterCalls_append, afterCalls, hfirst]
      exact afterCalls_begins after db₁
    -- whatever is applied is recorded already
    have hnone : ∀ m, m ∉ pending (dictOf (afterCalls execute repr start
        (before ++ again :: after)).rows) call.selected := by
      intro m hm
      obtain ⟨hm, hfresh⟩ := mem_pending.mp hm
      have hrow := hdone.recorded (hselected ▸ hm)
      have hget := dictGet_rows.mpr (hrows.subset hrow)
      rw [hfresh] at hget
      cases hget
    rw [List.eq_nil_iff_forall_not_mem.mpr hnone]
    rfl

/-- The objects are the statements that ran. -/
def recordStatement (statement : Str) (ran : List Str) : Except PyExc (List Str) :=
  .ok (ran ++ [statement])

def createTables : Migration where
  version := 1
  name := lit "tables"
  sql := lit "CREATE TABLE a(); CREATE TABLE b();"
  positive := by decide
  hasName := by decide
  hasSql := by decide

def createIndex : Migration where
  version := 2
  name := lit "index"
  sql := lit "CREATE INDEX i ON a(x)"
  positive := by decide
  hasName := by decide
  hasSql := by decide

/-- Both migrations, and no operation that raises. -/
def latestCall : MigrateCall := ⟨[createTables, createIndex], none, []⟩

def emptyDatabase : Database (List Str) := ⟨false, none, []⟩

theorem latestCall_applied :
    (migrate recordStatement id latestCall emptyDatabase).1 = .ok [1, 2] := by
  decide +kernel

theorem latestCall_statements :
    runScripts recordStatement (unrecorded emptyDatabase latestCall.selected) [] = .ok
      [lit "CREATE TABLE a()", lit "CREATE TABLE b()", lit "CREATE INDEX i ON a(x)"] := by
  decide +kernel

/-- The first call applies both migrations, and the second one nothing. -/
theorem migrations_once_latest : ∃ db,
    migrate recordStatement id latestCall emptyDatabase = (.ok [1, 2], db) ∧
      db.objects =
        [lit "CREATE TABLE a()", lit "CREATE TABLE b()", lit "CREATE INDEX i ON a(x)"] ∧
      db.rows = [(1, lit "tables"), (2, lit "index")] ∧
      (migrate recordStatement id latestCall db).1 = .ok [] := by
  obtain ⟨applied, db, hrun⟩ := PyM.exists_of_isOk (congrArg Except.isOk latestCall_applied)
  obtain rfl : applied = [1, 2] :=
    Except.ok.inj ((congrArg Prod.fst hrun).symm.trans latestCall_applied)
  obtain ⟨⟨done, hdone, hspec⟩, -⟩ :=
    migrations_once recordStatement id emptyDatabase [] latestCall
  rw [afterCalls] at hdone hspec
  obtain ⟨-, heffective, hrecorded⟩ := hspec.returns [1, 2] db hrun
  -- nothing was done before the first call
  obtain rfl : done = [] := by simpa [emptyDatabase, Database.rows] using hdone.rows
  obtain ⟨⟨_, -, hspec'⟩, -⟩ :=
    migrations_once recordStatement id emptyDatabase [latestCall] latestCall
  rw [afterCalls, afterCalls, hrun] at hspec'
  refine ⟨db, hrun, ?_, heffective.rows, hspec'.recorded rfl hrecorded⟩
  have hobjects := latestCall_statements.symm.trans heffective.objects
  exact (Except.ok.inj hobjects).symm

end

end AgentRoi
