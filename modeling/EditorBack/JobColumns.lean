import EditorBack.JobStore

/-!
# The columns behind the rows

In the database the status of a job is a text, which the statements compare with
literals and write through `Display`, and which the client reads through
`From<String>`; and `created_at` is read as an `Option`.  The statements on
`jobs` are here once more, on rows as they are stored.

`columns_exec` is the refinement: a statement on the columns of a table of rows
gives the columns of what the statement on the rows gives.  So a table that only
these statements have written holds the columns of rows, and reading one back
does not panic (`toJob_columns`).
-/

namespace EditorBack

/-- A row of `jobs` as it is stored. -/
structure JobColumns where
  id : Uuid
  language : String
  code : String
  status : String
  stdout : Option String
  stderr : Option String
  exitCode : Option Int32
  createdAt : Option Time
  updatedAt : Option Time
  lockedAt : Option Time
  lockToken : Option Uuid
  heartbeatAt : Option Time
  workerId : Option String

abbrev Columns := KeyedTable Uuid JobColumns JobColumns.id

namespace JobColumns

/-- `INSERT INTO jobs`; `created_at` has the default `NOW()`. -/
def new (now : Time) (job : Job) : JobColumns where
  id := job.id
  language := "rust"
  code := job.code
  status := job.status.toString
  stdout := job.stdout
  stderr := job.stderr
  exitCode := job.exitCode
  createdAt := some now
  updatedAt := none
  lockedAt := none
  lockToken := none
  heartbeatAt := none
  workerId := none

/-- What the client makes of the selected columns; `none` is the panic of
`From<String>`. -/
def toJob (c : JobColumns) : Option Job :=
  (RunStatus.ofString c.status).map fun status =>
    { id := c.id
      language := c.language
      code := c.code
      status := status
      stdout := c.stdout
      stderr := c.stderr
      exitCode := c.exitCode
      createdAt := c.createdAt
      heartbeatAt := c.heartbeatAt
      workerId := c.workerId }

/-- `heartbeat_at < NOW() - age` -/
def beatBefore (age now : Time) (c : JobColumns) : Bool :=
  match c.heartbeatAt with
  | some beat => decide (beat + age < now)
  | none => false

/-- The guard of `try_start`. -/
def startable (now : Time) (c : JobColumns) : Bool :=
  c.status == "Queued" ||
    (c.status == "Running" && (c.heartbeatAt.isNone || c.beatBefore (seconds 30) now))

/-- The guard of `heartbeat` and `finish`. -/
def heldBy (lockToken : Uuid) (c : JobColumns) : Bool :=
  c.status == "Running" && c.lockToken == some lockToken

/-- The guard of `reap_stale_job`. -/
def stale (timeout now : Time) (c : JobColumns) : Bool :=
  c.status == "Running" && c.beatBefore timeout now

/-- `SET` of `try_start`. -/
def start (now : Time) (token : Uuid) (workerId : String) (c : JobColumns) : JobColumns :=
  { c with
    status := "Running", lockedAt := some now, lockToken := some token,
    updatedAt := some now, heartbeatAt := some now, workerId := some workerId }

/-- `SET` of `update_status`. -/
def withStatus (status : RunStatus) (c : JobColumns) : JobColumns :=
  { c with status := status.toString }

/-- `SET` of `heartbeat`. -/
def renew (now : Time) (c : JobColumns) : JobColumns :=
  { c with updatedAt := some now, heartbeatAt := some now }

/-- `SET` of `finish`. -/
def store (now : Time) (args : FinishArgs) (c : JobColumns) : JobColumns :=
  { c with
    status := args.status.toString, stdout := args.stdout, stderr := args.stderr,
    exitCode := args.exitCode, lockedAt := none, lockToken := none, updatedAt := some now }

/-- `SET` of `reap_stale_job`. -/
def reset (c : JobColumns) : JobColumns :=
  { c with status := "Queued", workerId := none, lockToken := none, heartbeatAt := none }

theorem id_start (now : Time) (token : Uuid) (workerId : String) (c : JobColumns) :
    (c.start now token workerId).id = c.id := rfl
theorem id_withStatus (status : RunStatus) (c : JobColumns) : (c.withStatus status).id = c.id := rfl
theorem id_renew (now : Time) (c : JobColumns) : (c.renew now).id = c.id := rfl
theorem id_store (now : Time) (args : FinishArgs) (c : JobColumns) :
    (c.store now args).id = c.id := rfl
theorem id_reset (c : JobColumns) : c.reset.id = c.id := rfl

end JobColumns

/-- How a row is stored. -/
def JobRow.columns (r : JobRow) : JobColumns where
  id := r.id
  language := r.language
  code := r.code
  status := r.status.toString
  stdout := r.stdout
  stderr := r.stderr
  exitCode := r.exitCode
  createdAt := some r.createdAt
  updatedAt := r.updatedAt
  lockedAt := r.lockedAt
  lockToken := r.lockToken
  heartbeatAt := r.heartbeatAt
  workerId := r.workerId

theorem JobRow.id_columns (r : JobRow) : r.columns.id = r.id := rfl

/-- How a table is stored. -/
def Jobs.columns (t : Jobs) : Columns :=
  t.map JobRow.columns JobRow.id_columns

section Rows

variable (r : JobRow) (now : Time)

/-- **A stored row is read back without panic.** -/
theorem toJob_columns : r.columns.toJob = some r.toJob := by
  simp [JobColumns.toJob, JobRow.columns, RunStatus.ofString_toString, JobRow.toJob]

theorem status_columns (status : RunStatus) :
    (r.columns.status == status.toString) = (r.status == status) := by
  rw [JobRow.columns, Bool.eq_iff_iff, beq_iff_eq, beq_iff_eq]
  constructor
  · intro h
    have hread := congrArg RunStatus.ofString h
    rw [RunStatus.ofString_toString, RunStatus.ofString_toString] at hread
    exact Option.some_inj.mp hread
  · intro h
    rw [h]

theorem startable_columns : r.columns.startable now = r.startable now := by
  have hqueued : (r.columns.status == "Queued") = (r.status == .queued) :=
    status_columns r .queued
  have hrunning : (r.columns.status == "Running") = (r.status == .running) :=
    status_columns r .running
  rw [JobColumns.startable, hqueued, hrunning]
  rfl

theorem heldBy_columns (lockToken : Uuid) :
    r.columns.heldBy lockToken = r.heldBy lockToken := by
  have hrunning : (r.columns.status == "Running") = (r.status == .running) :=
    status_columns r .running
  rw [JobColumns.heldBy, hrunning]
  rfl

theorem stale_columns (timeout : Time) : r.columns.stale timeout now = r.stale timeout now := by
  have hrunning : (r.columns.status == "Running") = (r.status == .running) :=
    status_columns r .running
  rw [JobColumns.stale, hrunning]
  rfl

end Rows

/-! ## Statements -/

/-- The statements that write to `jobs`. -/
inductive Statement
  | create (job : Job)
  | tryStart (id : Uuid) (workerId : String) (token : Uuid)
  | updateStatus (id : Uuid) (status : RunStatus)
  | finish (id : Uuid) (args : FinishArgs) (lockToken : Uuid)
  | heartbeat (id : Uuid) (lockToken : Uuid)
  | reapStaleJob (timeout : Time) (gen : List Uuid)

namespace Statement

/-- The rows a statement leaves behind. -/
def exec (db : Db) : Statement → Jobs
  | .create job => ((JobStore.create job db).getD db).jobs
  | .tryStart id workerId token => (JobStore.tryStart id workerId token db).1.jobs
  | .updateStatus id status => (JobStore.updateStatus id status db).1.jobs
  | .finish id args lockToken => (JobStore.finish id args lockToken db).1.jobs
  | .heartbeat id lockToken => (JobStore.heartbeat id lockToken db).1.jobs
  | .reapStaleJob timeout gen => ((JobStore.reapStaleJob timeout gen db).elim db Prod.fst).jobs

/-- The statement on the columns, at a moment and with an outbox. -/
def execColumns (now : Time) (outbox : Outbox) (t : Columns) : Statement → Columns
  | .create job => (t.insertAll [JobColumns.new now job]).getD t
  | .tryStart id workerId token =>
      (t.updateAt id (·.startable now) (·.start now token workerId)
        (JobColumns.id_start now token workerId)).1
  | .updateStatus id status =>
      (t.updateAt id (fun _ => true) (·.withStatus status) (JobColumns.id_withStatus status)).1
  | .finish id args lockToken =>
      (t.updateAt id (·.heldBy lockToken) (·.store now args) (JobColumns.id_store now args)).1
  | .heartbeat id lockToken =>
      (t.updateAt id (·.heldBy lockToken) (·.renew now) (JobColumns.id_renew now)).1
  | .reapStaleJob timeout gen =>
      let reaped := (t.select (·.stale timeout now)).map JobColumns.id
      if gen.length = reaped.length ∧
          (outbox.insertAll (List.zipWith (JobOutbox.new now) gen reaped)).isSome then
        t.update (·.stale timeout now) (·.reset) JobColumns.id_reset
      else t

/-- The columns find the same jobs stale. -/
theorem reaped_columns (timeout now : Time) (jobs : Jobs) :
    (jobs.columns.select (·.stale timeout now)).map JobColumns.id =
      (jobs.select (·.stale timeout now)).map JobRow.id := by
  rw [Jobs.columns, KeyedTable.select_map fun r => stale_columns r now timeout, List.map_map]
  rfl

/-- **A statement on the columns is the statement on the rows.** -/
theorem columns_exec (st : Statement) (db : Db) :
    (st.exec db).columns = st.execColumns db.now db.outbox db.jobs.columns := by
  cases st with
  | create job =>
      have hinsert : db.jobs.columns.insertAll [JobColumns.new db.now job] =
          (db.jobs.insertAll [JobRow.new db.now job]).map Jobs.columns :=
        KeyedTable.insertAll_map [JobRow.new db.now job]
      rw [execColumns, hinsert, exec, JobStore.create]
      cases db.jobs.insertAll [JobRow.new db.now job] <;> rfl
  | tryStart id workerId token =>
      exact (KeyedTable.updateAt_map (JobRow.id_start db.now token workerId)
        (JobColumns.id_start db.now token workerId) (fun r => startable_columns r db.now)
        fun _ => rfl).symm
  | updateStatus id status =>
      exact (KeyedTable.updateAt_map (p := fun _ => true) (JobRow.id_withStatus status)
        (JobColumns.id_withStatus status) (fun _ => rfl) fun _ => rfl).symm
  | finish id args lockToken =>
      exact (KeyedTable.updateAt_map (JobRow.id_store db.now args)
        (JobColumns.id_store db.now args) (fun r => heldBy_columns r lockToken)
        fun _ => rfl).symm
  | heartbeat id lockToken =>
      exact (KeyedTable.updateAt_map (JobRow.id_renew db.now) (JobColumns.id_renew db.now)
        (fun r => heldBy_columns r lockToken) fun _ => rfl).symm
  | reapStaleJob timeout gen =>
      rw [execColumns, reaped_columns, exec, JobStore.reapStaleJob]
      by_cases hlength : gen.length =
          ((db.jobs.select (·.stale timeout db.now)).map JobRow.id).length
      · rw [if_pos hlength]
        cases db.outbox.insertAll (List.zipWith (JobOutbox.new db.now) gen
            ((db.jobs.select (·.stale timeout db.now)).map JobRow.id)) with
        | none =>
            rw [if_neg fun h => Bool.false_ne_true h.2]
            rfl
        | some outbox =>
            rw [if_pos ⟨hlength, rfl⟩]
            exact (KeyedTable.update_map JobRow.id_reset JobColumns.id_reset
              (fun r => stale_columns r db.now timeout) fun _ => rfl).symm
      · rw [if_neg hlength, if_neg fun h => hlength h.1]
        rfl

end Statement

end EditorBack
