import EditorBack.KeyedTable
import EditorBack.WireText
import Mathlib.Data.List.Sort

/-!
# The job store

The tables `jobs` and `job_outbox` and the statements of `job.rs`.  Every
statement is a function on the database: it sees the rows and the clock of one
moment and takes effect at once, which is how PostgreSQL runs a single
statement.

A comparison with `NULL` is not true in SQL, and no guard below negates one,
so a guard is a `Bool` that is `false` wherever SQL's answer is `NULL`.

The lemmas say what a statement does to the row behind each job id and what it
answers; later files use them and never unfold a statement.
-/

namespace EditorBack

/-- A row of `jobs`. -/
structure JobRow where
  id : Uuid
  language : String
  code : String
  status : RunStatus
  stdout : Option String
  stderr : Option String
  exitCode : Option Int32
  createdAt : Time
  updatedAt : Option Time
  lockedAt : Option Time
  lockToken : Option Uuid
  heartbeatAt : Option Time
  workerId : Option String
  deriving DecidableEq

/-- `Job`, the columns of a row that the program selects. -/
structure Job where
  id : Uuid
  language : String
  code : String
  status : RunStatus
  stdout : Option String
  stderr : Option String
  exitCode : Option Int32
  createdAt : Option Time
  heartbeatAt : Option Time
  workerId : Option String

/-- What `finish` stores: the verdict with the output it came with. -/
structure FinishArgs where
  status : RunStatus
  stdout : Option String
  stderr : Option String
  exitCode : Option Int32
  deriving DecidableEq

/-- `JobOutbox`, a row of `job_outbox`. -/
structure JobOutbox where
  id : Uuid
  jobId : Uuid
  eventType : String
  createdAt : Time
  publishedAt : Option Time

abbrev Jobs := KeyedTable Uuid JobRow JobRow.id
abbrev Outbox := KeyedTable Uuid JobOutbox JobOutbox.id

/-- The database: its clock and the two tables. -/
structure Db where
  now : Time
  jobs : Jobs
  outbox : Outbox

/-- The row of a job. -/
def Db.row (db : Db) (id : Uuid) : Option JobRow :=
  db.jobs.lookup id

/-- The number of outbox rows for a job. -/
def Db.requeues (db : Db) (jobId : Uuid) : Nat :=
  db.outbox.rows.countP (fun e => e.jobId == jobId)

/-! ## Rows -/

namespace JobRow

/-- The row `create` inserts.  The columns the statement does not name are
`NULL`, except `created_at`, which defaults to `NOW()`. -/
def new (now : Time) (job : Job) : JobRow where
  id := job.id
  language := "rust"
  code := job.code
  status := job.status
  stdout := job.stdout
  stderr := job.stderr
  exitCode := job.exitCode
  createdAt := now
  updatedAt := none
  lockedAt := none
  lockToken := none
  heartbeatAt := none
  workerId := none

/-- The columns of a row that `get` and `get_and_queued` select. -/
def toJob (r : JobRow) : Job where
  id := r.id
  language := r.language
  code := r.code
  status := r.status
  stdout := r.stdout
  stderr := r.stderr
  exitCode := r.exitCode
  createdAt := some r.createdAt
  heartbeatAt := r.heartbeatAt
  workerId := r.workerId

/-- `heartbeat_at < NOW() - age`; not true of a `NULL` heartbeat. -/
def beatBefore (age now : Time) (r : JobRow) : Bool :=
  match r.heartbeatAt with
  | some beat => decide (beat + age < now)
  | none => false

/-- The guard of `try_start`. -/
def startable (now : Time) (r : JobRow) : Bool :=
  r.status == .queued ||
    (r.status == .running && (r.heartbeatAt.isNone || r.beatBefore (seconds 30) now))

/-- The guard of `heartbeat` and `finish`. -/
def heldBy (lockToken : Uuid) (r : JobRow) : Bool :=
  r.status == .running && r.lockToken == some lockToken

/-- The guard of `reap_stale_job`. -/
def stale (timeout now : Time) (r : JobRow) : Bool :=
  r.status == .running && r.beatBefore timeout now

/-- `heartbeat_at >= NOW() - age`; not true of a `NULL` heartbeat. -/
def beatWithin (age now : Time) (r : JobRow) : Bool :=
  match r.heartbeatAt with
  | some beat => decide (now ≤ beat + age)
  | none => false

/-- The predicate of `is_job_execution_alive`. -/
def alive (now : Time) (r : JobRow) : Bool :=
  r.status == .running && r.beatWithin (seconds 30) now

/-- `SET` of `try_start`. -/
def start (now : Time) (token : Uuid) (workerId : String) (r : JobRow) : JobRow :=
  { r with
    status := .running, lockedAt := some now, lockToken := some token,
    updatedAt := some now, heartbeatAt := some now, workerId := some workerId }

/-- `SET` of `update_status`. -/
def withStatus (status : RunStatus) (r : JobRow) : JobRow :=
  { r with status := status }

/-- `SET` of `heartbeat`. -/
def renew (now : Time) (r : JobRow) : JobRow :=
  { r with updatedAt := some now, heartbeatAt := some now }

/-- `SET` of `finish`. -/
def store (now : Time) (args : FinishArgs) (r : JobRow) : JobRow :=
  { r with
    status := args.status, stdout := args.stdout, stderr := args.stderr,
    exitCode := args.exitCode, lockedAt := none, lockToken := none, updatedAt := some now }

/-- `SET` of `reap_stale_job`. -/
def reset (r : JobRow) : JobRow :=
  { r with status := .queued, workerId := none, lockToken := none, heartbeatAt := none }

/-- The result columns of a row. -/
def result (r : JobRow) : FinishArgs :=
  ⟨r.status, r.stdout, r.stderr, r.exitCode⟩

@[simp] theorem id_start (now : Time) (token : Uuid) (workerId : String) (r : JobRow) :
    (r.start now token workerId).id = r.id := rfl
@[simp] theorem id_withStatus (status : RunStatus) (r : JobRow) :
    (r.withStatus status).id = r.id := rfl
@[simp] theorem id_renew (now : Time) (r : JobRow) : (r.renew now).id = r.id := rfl
@[simp] theorem id_store (now : Time) (args : FinishArgs) (r : JobRow) :
    (r.store now args).id = r.id := rfl
@[simp] theorem id_reset (r : JobRow) : r.reset.id = r.id := rfl

theorem heldBy_iff {r : JobRow} {t : Uuid} :
    r.heldBy t = true ↔ r.status = .running ∧ r.lockToken = some t := by
  simp [heldBy]

theorem startable_iff {r : JobRow} {now : Time} :
    r.startable now = true ↔ r.status = .queued ∨
      (r.status = .running ∧ (r.heartbeatAt = none ∨ r.beatBefore (seconds 30) now = true)) := by
  simp [startable]

theorem stale_iff {r : JobRow} {timeout now : Time} :
    r.stale timeout now = true ↔ r.status = .running ∧ r.beatBefore timeout now = true := by
  simp [stale]

theorem beatBefore_iff {r : JobRow} {age now : Time} :
    r.beatBefore age now = true ↔ ∃ beat, r.heartbeatAt = some beat ∧ beat + age < now := by
  unfold beatBefore
  cases h : r.heartbeatAt <;> simp

theorem alive_iff {r : JobRow} {now : Time} :
    r.alive now = true ↔ r.status = .running ∧ r.beatWithin (seconds 30) now = true := by
  simp [alive]

end JobRow

/-- The row `reap_stale_job` inserts for one job it resets. -/
def JobOutbox.new (now : Time) (id jobId : Uuid) : JobOutbox :=
  ⟨id, jobId, "job.execute", now, none⟩

/-- `SET` of `mark_outbox_published`. -/
def JobOutbox.publish (now : Time) (e : JobOutbox) : JobOutbox :=
  { e with publishedAt := some now }

theorem JobOutbox.id_publish (now : Time) (e : JobOutbox) : (e.publish now).id = e.id := rfl

/-! ## Statements -/

namespace JobStore

/-- `create`: `INSERT INTO jobs`.  `none` is the primary key's refusal. -/
def create (job : Job) (db : Db) : Option Db :=
  (db.jobs.insertAll [JobRow.new db.now job]).map (fun jobs => { db with jobs := jobs })

/-- `get`, and the `SELECT` of `get_and_queued`. -/
def get (id : Uuid) (db : Db) : Option Job :=
  (db.row id).map JobRow.toJob

/-- `try_start`.  The token is the one `Uuid::new_v4` gave this call. -/
def tryStart (id : Uuid) (workerId : String) (token : Uuid) (db : Db) :
    Db × Except String (Option Uuid) :=
  let res := db.jobs.updateAt id (·.startable db.now) (·.start db.now token workerId)
    (JobRow.id_start db.now token workerId)
  ({ db with jobs := res.1 }, .ok (if res.2 = 1 then some token else none))

/-- `update_status`; also the `UPDATE` of `get_and_queued`. -/
def updateStatus (id : Uuid) (status : RunStatus) (db : Db) : Db × Except String Unit :=
  let res := db.jobs.updateAt id (fun _ => true) (·.withStatus status) (JobRow.id_withStatus status)
  ({ db with jobs := res.1 },
    if res.2 = 0 then .error ("job not found: " ++ id.hyphenated) else .ok ())

/-- `finish`. -/
def finish (id : Uuid) (args : FinishArgs) (lockToken : Uuid) (db : Db) :
    Db × Except String Bool :=
  let res := db.jobs.updateAt id (·.heldBy lockToken) (·.store db.now args)
    (JobRow.id_store db.now args)
  ({ db with jobs := res.1 },
    if res.2 = 0 then .error ("job lease lost: " ++ id.hyphenated) else .ok true)

/-- `heartbeat`. -/
def heartbeat (id : Uuid) (lockToken : Uuid) (db : Db) : Db × Except String Bool :=
  let res := db.jobs.updateAt id (·.heldBy lockToken) (·.renew db.now) (JobRow.id_renew db.now)
  ({ db with jobs := res.1 }, .ok (decide (res.2 = 1)))

/-- `reap_stale_job`, one statement over both tables.  `gen` are the values of
`gen_random_uuid()`, one for each row reset; `none` is the refusal of the
whole statement by the primary key of `job_outbox`. -/
def reapStaleJob (timeout : Time) (gen : List Uuid) (db : Db) : Option (Db × List Uuid) :=
  let reaped := (db.jobs.select (·.stale timeout db.now)).map JobRow.id
  if gen.length = reaped.length then
    (db.outbox.insertAll (List.zipWith (JobOutbox.new db.now) gen reaped)).map (fun outbox =>
      ({ db with
          jobs := db.jobs.update (·.stale timeout db.now) (·.reset) JobRow.id_reset
          outbox := outbox }, reaped))
  else none

/-- `get_unpublished_outbox`: `WHERE published_at IS NULL ORDER BY created_at
LIMIT $1`. -/
def getUnpublishedOutbox (limit : Nat) (db : Db) : List JobOutbox :=
  ((db.outbox.select (·.publishedAt.isNone)).insertionSort
    (fun a b => a.createdAt ≤ b.createdAt)).take limit

/-- `mark_outbox_published`. -/
def markOutboxPublished (id : Uuid) (db : Db) : Db :=
  { db with
    outbox := (db.outbox.updateAt id (·.publishedAt.isNone)
      (·.publish db.now) (JobOutbox.id_publish db.now)).1 }

/-- `is_job_execution_alive`, a `SELECT EXISTS`. -/
def isJobExecutionAlive (id : Uuid) (db : Db) : Bool :=
  (db.row id).any (·.alive db.now)

/-! ## What the statements do to each row -/

section Keyed

variable (id : Uuid) (db : Db) (j : Uuid)

theorem row_create {job : Job} {db db' : Db} (h : create job db = some db') (j : Uuid) :
    db'.row j = if job.id = j then some (JobRow.new db.now job) else db.row j := by
  obtain ⟨jobs, hins, rfl⟩ := Option.map_eq_some_iff.mp h
  exact KeyedTable.lookup_insertAll_singleton hins j

/-- A row is inserted only under an id without a row. -/
theorem row_none_of_create {job : Job} {db db' : Db} (h : create job db = some db') :
    db.row job.id = none := by
  obtain ⟨jobs, hins, rfl⟩ := Option.map_eq_some_iff.mp h
  exact KeyedTable.lookup_none_of_insertAll hins (List.mem_singleton_self _)

theorem create_frame {job : Job} {db db' : Db} (h : create job db = some db') :
    db'.now = db.now ∧ db'.outbox = db.outbox := by
  obtain ⟨jobs, hins, rfl⟩ := Option.map_eq_some_iff.mp h
  exact ⟨rfl, rfl⟩

/-- The row a `SELECT` answers with is stored under the id asked for. -/
theorem id_of_get {id : Uuid} {db : Db} {job : Job} (h : get id db = some job) :
    job.id = id ∧ ∃ r, db.row id = some r ∧ job = r.toJob := by
  obtain ⟨r, hr, rfl⟩ := Option.map_eq_some_iff.mp h
  have hid : r.id = id := KeyedTable.key_of_lookup hr
  exact ⟨hid, r, hr, rfl⟩

theorem row_tryStart (workerId : String) (token : Uuid) :
    (tryStart id workerId token db).1.row j =
      if j = id then (db.row j).map
        (fun r => if r.startable db.now then r.start db.now token workerId else r)
      else db.row j :=
  KeyedTable.lookup_updateAt _ _ _ _ (JobRow.id_start db.now token workerId) _

/-- `try_start` grants its token exactly when the row passes the guard. -/
theorem answer_tryStart (workerId : String) (token : Uuid) :
    (tryStart id workerId token db).2 =
      .ok (if (db.row id).any (·.startable db.now) then some token else none) := by
  simp only [tryStart, KeyedTable.rowsAffected_updateAt, Db.row]
  split <;> simp_all

theorem granted_tryStart (workerId : String) (token : Uuid) :
    (tryStart id workerId token db).2.toOption.join.isSome =
      (db.row id).any (·.startable db.now) := by
  rw [answer_tryStart]
  cases (db.row id).any (·.startable db.now) <;> rfl

theorem row_updateStatus (status : RunStatus) :
    (updateStatus id status db).1.row j =
      if j = id then (db.row j).map (·.withStatus status) else db.row j :=
  KeyedTable.lookup_updateAt _ _ (fun _ => true) _ (JobRow.id_withStatus status) _

/-- `update_status` fails exactly when there is no such row. -/
theorem answer_updateStatus (status : RunStatus) :
    (updateStatus id status db).2 =
      if (db.row id).isSome then .ok () else .error ("job not found: " ++ id.hyphenated) := by
  have hany : (db.jobs.lookup id).any (fun _ => true) = (db.jobs.lookup id).isSome := by
    cases db.jobs.lookup id <;> rfl
  simp only [updateStatus, KeyedTable.rowsAffected_updateAt, Db.row, hany]
  split <;> simp_all

theorem isOk_updateStatus (status : RunStatus) :
    (updateStatus id status db).2.isOk = (db.row id).isSome := by
  rw [answer_updateStatus]
  cases (db.row id).isSome <;> rfl

theorem row_finish (args : FinishArgs) (lockToken : Uuid) :
    (finish id args lockToken db).1.row j =
      if j = id then (db.row j).map
        (fun r => if r.heldBy lockToken then r.store db.now args else r)
      else db.row j :=
  KeyedTable.lookup_updateAt _ _ _ _ (JobRow.id_store db.now args) _

/-- `finish` stores a result exactly when the row is held by the token. -/
theorem answer_finish (args : FinishArgs) (lockToken : Uuid) :
    (finish id args lockToken db).2 =
      if (db.row id).any (·.heldBy lockToken) then .ok true
      else .error ("job lease lost: " ++ id.hyphenated) := by
  simp only [finish, KeyedTable.rowsAffected_updateAt, Db.row]
  split <;> simp_all

theorem isOk_finish (args : FinishArgs) (lockToken : Uuid) :
    (finish id args lockToken db).2.isOk = (db.row id).any (·.heldBy lockToken) := by
  rw [answer_finish]
  cases (db.row id).any (·.heldBy lockToken) <;> rfl

theorem row_heartbeat (lockToken : Uuid) :
    (heartbeat id lockToken db).1.row j =
      if j = id then (db.row j).map
        (fun r => if r.heldBy lockToken then r.renew db.now else r)
      else db.row j :=
  KeyedTable.lookup_updateAt _ _ _ _ (JobRow.id_renew db.now) _

/-- `heartbeat` answers whether the row is held by the token. -/
theorem answer_heartbeat (lockToken : Uuid) :
    (heartbeat id lockToken db).2 = .ok ((db.row id).any (·.heldBy lockToken)) := by
  simp only [heartbeat, KeyedTable.rowsAffected_updateAt, Db.row]
  split <;> simp_all

theorem renewed_heartbeat (lockToken : Uuid) :
    (heartbeat id lockToken db).2.toOption.getD false =
      (db.row id).any (·.heldBy lockToken) := by
  rw [answer_heartbeat]
  rfl

end Keyed

section Reap

variable {timeout : Time} {gen : List Uuid} {db db' : Db} {reaped : List Uuid}

/-- A reap resets the stale rows and no other. -/
theorem row_reapStaleJob (h : reapStaleJob timeout gen db = some (db', reaped)) (j : Uuid) :
    db'.row j = (db.row j).map (fun r => if r.stale timeout db.now then r.reset else r) := by
  simp only [reapStaleJob] at h
  split at h
  · obtain ⟨outbox, _, heq⟩ := Option.map_eq_some_iff.mp h
    cases heq
    exact KeyedTable.lookup_update _ _ _ JobRow.id_reset _
  · cases h

/-- A reap moves no clock and appends one outbox row for each job it resets. -/
theorem outbox_reapStaleJob (h : reapStaleJob timeout gen db = some (db', reaped)) :
    db'.now = db.now ∧ gen.length = reaped.length ∧
      reaped = (db.jobs.select (·.stale timeout db.now)).map JobRow.id ∧
      db.outbox.insertAll (List.zipWith (JobOutbox.new db.now) gen reaped) = some db'.outbox := by
  simp only [reapStaleJob] at h
  split at h
  · next hlen =>
      obtain ⟨outbox, hins, heq⟩ := Option.map_eq_some_iff.mp h
      cases heq
      exact ⟨rfl, hlen, rfl, hins⟩
  · cases h

/-- The jobs reset are those with a stale row. -/
theorem mem_reaped_iff (h : reapStaleJob timeout gen db = some (db', reaped)) {j : Uuid} :
    j ∈ reaped ↔ ∃ r, db.row j = some r ∧ r.stale timeout db.now = true := by
  rw [(outbox_reapStaleJob h).2.2.1, List.mem_map]
  constructor
  · intro h
    obtain ⟨r, hr, rfl⟩ := h
    obtain ⟨hmem, hstale⟩ := List.mem_filter.mp hr
    exact ⟨r, KeyedTable.lookup_of_mem hmem, hstale⟩
  · intro h
    obtain ⟨r, hr, hstale⟩ := h
    exact ⟨r, List.mem_filter.mpr ⟨KeyedTable.mem_of_lookup hr, hstale⟩,
      KeyedTable.key_of_lookup hr⟩

theorem mem_reaped_iff_any (h : reapStaleJob timeout gen db = some (db', reaped)) {j : Uuid} :
    j ∈ reaped ↔ (db.row j).any (·.stale timeout db.now) = true := by
  rw [mem_reaped_iff h]
  cases db.row j <;> simp

/-- A job is reset exactly if its row is another one afterwards. -/
theorem row_ne_iff_stale (h : reapStaleJob timeout gen db = some (db', reaped)) {j : Uuid} :
    db'.row j ≠ db.row j ↔ (db.row j).any (·.stale timeout db.now) = true := by
  rw [row_reapStaleJob h]
  cases db.row j with
  | none => simp
  | some r =>
      cases hstale : r.stale timeout db.now with
      | false => simp [hstale]
      | true =>
          have hrunning := (JobRow.stale_iff.mp hstale).1
          have hne : r.reset ≠ r := by
            intro heq
            rw [← heq] at hrunning
            cases hrunning
          simpa [hstale] using hne

/-- A job that is reset is returned once. -/
theorem count_reaped (h : reapStaleJob timeout gen db = some (db', reaped)) (j : Uuid) :
    reaped.count j = if (db.row j).any (·.stale timeout db.now) then 1 else 0 := by
  have hnodup : reaped.Nodup := by
    rw [(outbox_reapStaleJob h).2.2.1]
    exact db.jobs.nodup.sublist (List.filter_sublist.map _)
  rw [hnodup.count]
  simp only [mem_reaped_iff_any h]

/-- A batch of new outbox rows has as many rows for a job as the job has
entries in the batch. -/
private theorem countP_new (now : Time) (j : Uuid) :
    ∀ {gen reaped : List Uuid}, gen.length = reaped.length →
      (List.zipWith (JobOutbox.new now) gen reaped).countP (fun e => e.jobId == j) =
        reaped.count j := by
  intro gen reaped
  induction reaped generalizing gen with
  | nil => simp
  | cons id rest ih =>
      intro hlen
      cases gen with
      | nil => cases hlen
      | cons g gen =>
          have hrest : gen.length = rest.length := by simpa using hlen
          rw [List.zipWith_cons_cons, List.countP_cons, List.count_cons, ih hrest]
          rfl

/-- A reap inserts as many outbox rows for a job as it returns it. -/
theorem requeues_reapStaleJob (h : reapStaleJob timeout gen db = some (db', reaped)) (j : Uuid) :
    db'.requeues j = db.requeues j + reaped.count j := by
  obtain ⟨_, hlen, _, hins⟩ := outbox_reapStaleJob h
  rw [Db.requeues, KeyedTable.rows_insertAll hins, List.countP_append, countP_new db.now j hlen]
  rfl

/-- Publishing an event requeues nothing. -/
theorem requeues_markOutboxPublished (id j : Uuid) (db : Db) :
    (markOutboxPublished id db).requeues j = db.requeues j := by
  have hcolumn : ∀ e : JobOutbox, ∀ b : Bool,
      ((if b then e.publish db.now else e).jobId == j) = (e.jobId == j) := by
    intro e b
    cases b <;> rfl
  simp only [Db.requeues, markOutboxPublished, KeyedTable.updateAt, KeyedTable.update,
    List.countP_map]
  congr 1
  funext e
  exact hcolumn e _

/-- After a reap the outbox holds its old rows and rows for jobs reset. -/
theorem mem_outbox_of_reap (h : reapStaleJob timeout gen db = some (db', reaped))
    {e : JobOutbox} (he : e ∈ db'.outbox.rows) : e ∈ db.outbox.rows ∨ e.jobId ∈ reaped := by
  rw [KeyedTable.rows_insertAll (outbox_reapStaleJob h).2.2.2] at he
  rcases List.mem_append.mp he with hold | hnew
  · exact Or.inl hold
  · obtain ⟨n, hn, rfl⟩ := List.mem_iff_getElem.mp hnew
    refine Or.inr ?_
    rw [List.getElem_zipWith]
    exact List.getElem_mem _

/-- What a reap inserts is not published. -/
theorem unpublished_of_reap (h : reapStaleJob timeout gen db = some (db', reaped))
    {e : JobOutbox} (he : e ∈ db'.outbox.rows) : e ∈ db.outbox.rows ∨ e.publishedAt = none := by
  rw [KeyedTable.rows_insertAll (outbox_reapStaleJob h).2.2.2] at he
  rcases List.mem_append.mp he with hold | hnew
  · exact Or.inl hold
  · obtain ⟨n, hn, rfl⟩ := List.mem_iff_getElem.mp hnew
    right
    rw [List.getElem_zipWith]
    rfl

/-- Outbox rows survive a reap. -/
theorem outbox_subset_of_reap (h : reapStaleJob timeout gen db = some (db', reaped))
    {e : JobOutbox} (he : e ∈ db.outbox.rows) : e ∈ db'.outbox.rows := by
  rw [KeyedTable.rows_insertAll (outbox_reapStaleJob h).2.2.2]
  exact List.mem_append_left _ he

/-- **A reset leaves a message to be sent.**  For every job reset there is an
unpublished outbox row under an id the outbox did not hold before. -/
theorem outbox_of_reaped (h : reapStaleJob timeout gen db = some (db', reaped))
    {j : Uuid} (hj : j ∈ reaped) :
    ∃ e ∈ db'.outbox.rows, e.jobId = j ∧ e.publishedAt = none ∧
      ∀ e₀ ∈ db.outbox.rows, e₀.id ≠ e.id := by
  obtain ⟨_, hlen, _, hins⟩ := outbox_reapStaleJob h
  obtain ⟨n, hn, rfl⟩ := List.mem_iff_getElem.mp hj
  have hgen : n < gen.length := by omega
  have hnew : JobOutbox.new db.now gen[n] reaped[n] ∈
      List.zipWith (JobOutbox.new db.now) gen reaped := by
    refine List.mem_iff_getElem.mpr ⟨n, by simp; omega, ?_⟩
    rw [List.getElem_zipWith]
  refine ⟨JobOutbox.new db.now gen[n] reaped[n], ?_, rfl, rfl, ?_⟩
  · rw [KeyedTable.rows_insertAll hins]
    exact List.mem_append_right _ hnew
  · intro e₀ he₀ heq
    have hnone := KeyedTable.lookup_none_of_insertAll hins hnew
    rw [← heq, KeyedTable.lookup_of_mem he₀] at hnone
    cases hnone

end Reap

/-- Marking an event as published changes no other column of the outbox and no
other row. -/
theorem mem_outbox_markOutboxPublished {id : Uuid} {db : Db} {e : JobOutbox} :
    e ∈ (markOutboxPublished id db).outbox.rows ↔
      ∃ e₀ ∈ db.outbox.rows,
        (if decide (e₀.id = id) && e₀.publishedAt.isNone then e₀.publish db.now else e₀) = e :=
  KeyedTable.mem_updateAt _ _ _ _ (JobOutbox.id_publish db.now)

/-- The events a publisher selects are unpublished rows of the outbox. -/
theorem mem_getUnpublishedOutbox {limit : Nat} {db : Db} {e : JobOutbox}
    (h : e ∈ getUnpublishedOutbox limit db) : e ∈ db.outbox.rows := by
  have hsorted := List.mem_of_mem_take h
  rw [List.mem_insertionSort] at hsorted
  exact List.mem_of_mem_filter hsorted

end JobStore

end EditorBack
