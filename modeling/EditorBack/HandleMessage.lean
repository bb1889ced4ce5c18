import EditorBack.DockerRun
import EditorBack.JobStore

/-!
# `handle_message` and its heartbeat task

One call of `KafkaConsumer::handle_message` is a program that stops before
each statement it sends to the database and at each point where it waits; its
`Phase` says where it stands.  When `try_start` grants a lease, the call spawns
the heartbeat loop; what the two tasks share (the two cancellation tokens and
the error slot) is in `Lease`, which outlives the call.

A statement and its effect on the caller are one step; only the heartbeat's
answer is taken up by a step of its own, since the call runs on meanwhile.
The input of a step is what the environment decides: how the database call
ended, what the calls to Docker returned, what the worker's clock shows.
Metrics and log lines are left out.
-/

namespace EditorBack

/-- The payload of a record on `judge.jobs`, as `serde_json::from_slice` sees
it: missing, not a `JobMessage`, or a `JobMessage`. -/
inductive Payload
  | absent
  | invalid (err : String)
  | message (msg : JobMessage)
  deriving DecidableEq

/-- What happened to one job's row.  Events record effects; no step of the
program reads them. -/
inductive JobEvent
  | inserted (row : JobRow)
  /-- the `UPDATE` of `get_and_queued` -/
  | queued
  /-- a `try_start` that took the row -/
  | started (token : Uuid) (workerId : String) (time : Time)
  /-- `update_status(Running)` -/
  | marked
  /-- a `heartbeat` that found its lease -/
  | renewed (token : Uuid) (time : Time)
  /-- a `finish` that found its lease -/
  | finished (token : Uuid) (args : FinishArgs)
  /-- a reset by `reap_stale_job` -/
  | reset
  /-- a `heartbeat` that answered `false`, or a `finish` that failed with
  `job lease lost` -/
  | refused (token : Uuid)

/-- The heartbeat loop: waiting for its next tick or its cancellation, holding
the answer of a `heartbeat` it has not acted on yet, or over. -/
inductive BeatLoop
  | waiting
  | answered (answer : Except String Bool)
  | ended

/-- The granted lease with everything the call shares with its heartbeat task. -/
structure Lease where
  jobId : Uuid
  lockToken : Uuid
  loop : BeatLoop
  cancelExecution : Bool
  heartbeatCancel : Bool
  heartbeatErr : Option String

/-- The lease a call sets up right after `try_start`. -/
def Lease.spawn (jobId lockToken : Uuid) : Lease :=
  ⟨jobId, lockToken, .waiting, false, false, none⟩

/-- Where a call of `handle_message` stands. -/
inductive Phase
  /-- before the `SELECT` of `get_and_queued` -/
  | selecting (jobId : Uuid)
  /-- before its `UPDATE` -/
  | queuing (job : Job)
  /-- before the queue latency is computed -/
  | observing (job : Job)
  /-- before `try_start` -/
  | starting (job : Job)
  /-- before `update_status(Running)`, the heartbeat task running -/
  | marking (job : Job)
  /-- inside `run_rust` -/
  | running (job : Job)
  /-- before the heartbeat's error slot is read -/
  | collecting (job : Job) (result : Except RunError RunResponse)
  /-- waiting for the heartbeat task -/
  | joining (job : Job) (result : Except RunError RunResponse)
  /-- before `finish`, with what the call returns if that goes through -/
  | finishing (job : Job) (args : FinishArgs) (answer : Except ProcessError Unit)
  | returned (result : Except ProcessError Unit)
  | panicked
  | crashed

/-- The job a call is working on, while it is. -/
def Phase.jobId : Phase → Option Uuid
  | .selecting id => some id
  | .queuing job | .observing job | .starting job | .marking job | .running job
  | .collecting job _ | .joining job _ | .finishing job _ _ => some job.id
  | .returned _ | .panicked | .crashed => none

/-- The call has not been through its `try_start`. -/
def Phase.beforeStart : Phase → Bool
  | .selecting _ | .queuing _ | .observing _ | .starting _ => true
  | _ => false

/-- One call of `handle_message` on a worker. -/
structure Handler where
  workerId : String
  payload : Payload
  phase : Phase
  lease : Option Lease

/-- What the environment decides in one step of a call. -/
inductive HandlerInput
  | select (reply : Reply)
  | queue (reply : Reply)
  | observe (utcNow : Time)
  | tryStart (reply : Reply) (token : Uuid)
  | mark (reply : Reply)
  | runRust (calls : RunCalls)
  | collect
  | join
  | finish (reply : Reply)
  | beat (reply : Reply)
  | beatAnswer
  | beatCancelled
  | crash

/-- The token `Uuid::new_v4` gives in this step. -/
def HandlerInput.tokens : HandlerInput → List Uuid
  | .tryStart _ token => [token]
  | _ => []

/-- The step runs a statement that may write to the database. -/
def HandlerInput.writes : HandlerInput → Bool
  | .queue reply | .tryStart reply _ | .mark reply | .finish reply | .beat reply => reply.executed
  | _ => false

/-- What a step does: to the database, to the call, and what it did to a job. -/
structure HandlerEffect where
  db : Db
  handler : Handler
  event : Option (Uuid × JobEvent)

/-- The event of a statement that was executed and whose answer says that it `took` the
row, whether its caller sees the answer or not. -/
def Reply.eventIf (reply : Reply) (took : Bool) (jobId : Uuid) (event : JobEvent) :
    Option (Uuid × JobEvent) :=
  if reply.executed && took then some (jobId, event) else none

/-- The event of a statement that presents a lease: it answers that the lease is
`held`, or the caller is told that it is not. -/
def Reply.eventOfLease (reply : Reply) (held : Bool) (jobId lockToken : Uuid)
    (event : JobEvent) : Option (Uuid × JobEvent) :=
  if held then reply.eventIf true jobId event
  else if reply = .ok then some (jobId, .refused lockToken)
  else none

namespace Handler

/-- The start of `handle_message`: take the payload and decode it. -/
def receive (workerId : String) (payload : Payload) : Handler where
  workerId := workerId
  payload := payload
  phase :=
    match payload with
    | .absent => .returned (.error (.permanent "no payload"))
    | .invalid err => .returned (.error (.permanent ("invalid job message: " ++ err)))
    | .message msg => .selecting msg.jobId
  lease := none

def goto (phase : Phase) (h : Handler) : Handler :=
  { h with phase := phase }

def withLease (lease : Lease) (h : Handler) : Handler :=
  { h with lease := some lease }

/-- `.map_err(ProcessError::Retryable)?` -/
def retry (err : String) (h : Handler) : Handler :=
  h.goto (.returned (.error (.retryable err)))

/-- `get_and_queued`: the `SELECT`. -/
def select (reply : Reply) (db : Db) (h : Handler) : Option HandlerEffect :=
  match h.phase with
  | .selecting id =>
      some ⟨db,
        match (reply.call db (db, .ok (JobStore.get id db))).2 with
        | .ok (some job) => h.goto (.queuing job)
        | .ok none =>
            h.goto (.returned (.error (.permanent ("job " ++ id.hyphenated ++ " not found"))))
        | .error err => h.retry err,
        none⟩
  | _ => none

/-- `get_and_queued`: the `UPDATE`. -/
def queue (reply : Reply) (db : Db) (h : Handler) : Option HandlerEffect :=
  match h.phase with
  | .queuing job =>
      let statement := JobStore.updateStatus job.id .queued db
      let res := reply.call db statement
      some ⟨res.1,
        match res.2 with
        | .ok () => h.goto (.observing job)
        | .error err => h.retry err,
        reply.eventIf statement.2.isOk job.id .queued⟩
  | _ => none

/-- `(Utc::now() - job.created_at.unwrap()).to_std().expect(..)`: a missing
time and a negative difference panic. -/
def observe (utcNow : Time) (db : Db) (h : Handler) : Option HandlerEffect :=
  match h.phase with
  | .observing job =>
      some ⟨db,
        match job.createdAt with
        | some createdAt =>
            if utcNow < createdAt then h.goto .panicked else h.goto (.starting job)
        | none => h.goto .panicked,
        none⟩
  | _ => none

/-- `try_start`, and the spawn of the heartbeat task when it grants a token. -/
def tryStart (reply : Reply) (token : Uuid) (db : Db) (h : Handler) : Option HandlerEffect :=
  match h.phase with
  | .starting job =>
      let statement := JobStore.tryStart job.id h.workerId token db
      let res := reply.call db statement
      some ⟨res.1,
        match res.2 with
        | .ok (some lockToken) => (h.goto (.marking job)).withLease (.spawn job.id lockToken)
        | .ok none => h.goto (.returned (.ok ()))
        | .error err => h.retry err,
        reply.eventIf statement.2.toOption.join.isSome job.id
          (.started token h.workerId db.now)⟩
  | _ => none

/-- `update_status(Running)`, then the dispatch on the language: a job in
another language aborts the heartbeat task and is finished with an error. -/
def mark (reply : Reply) (db : Db) (h : Handler) : Option HandlerEffect :=
  match h.phase, h.lease with
  | .marking job, some lease =>
      let statement := JobStore.updateStatus job.id .running db
      let res := reply.call db statement
      some ⟨res.1,
        match res.2 with
        | .ok () =>
            if job.language = "rust" then h.goto (.running job)
            else
              let err := "unsupported lang:" ++ job.language
              (h.goto (.finishing job ⟨.runtimeError, none, some err, none⟩
                (.error (.permanent err)))).withLease { lease with loop := .ended }
        | .error err => h.retry err,
        reply.eventIf statement.2.isOk job.id .marked⟩
  | _, _ => none

/-- `run_rust`.  It reports a cancellation only if `cancel_execution` was
cancelled. -/
def runRust (calls : RunCalls) (db : Db) (h : Handler) : Option HandlerEffect :=
  match h.phase, h.lease with
  | .running job, some lease =>
      if calls.cancelled && !lease.cancelExecution then none
      else
        some ⟨db,
          match EditorBack.runRust job.id calls with
          | some result => h.goto (.collecting job result)
          | none => h.goto .panicked,
          none⟩
  | _, _ => none

/-- `heartbeat_err.lock().await.take()`, then `heartbeat_cancel.cancel()`. -/
def collect (db : Db) (h : Handler) : Option HandlerEffect :=
  match h.phase, h.lease with
  | .collecting job result, some lease =>
      some ⟨db,
        match lease.heartbeatErr with
        | some err =>
            (h.retry ("heartbeat database error: " ++ err)).withLease
              { lease with heartbeatErr := none }
        | none =>
            (h.goto (.joining job result)).withLease { lease with heartbeatCancel := true },
        none⟩
  | _, _ => none

/-- `heartbeat.await`, then the dispatch on the result. -/
def join (db : Db) (h : Handler) : Option HandlerEffect :=
  match h.phase, h.lease with
  | .joining job result, some lease =>
      match lease.loop with
      | .ended =>
          some ⟨db,
            match result with
            | .ok res =>
                h.goto (.finishing job
                  ⟨res.status, some res.stdout, some res.stderr, some res.exitCode⟩ (.ok ()))
            | .error .cancelled => h.retry "job lease lost"
            | .error (.other err) =>
                h.goto (.finishing job ⟨.runtimeError, none, some err, none⟩ (.ok ())),
            none⟩
      | _ => none
  | _, _ => none

/-- `finish`, on each of the three paths that store a result. -/
def finish (reply : Reply) (db : Db) (h : Handler) : Option HandlerEffect :=
  match h.phase, h.lease with
  | .finishing job args answer, some lease =>
      let statement := JobStore.finish job.id args lease.lockToken db
      let res := reply.call db statement
      some ⟨res.1,
        match res.2 with
        | .ok _ => h.goto (.returned answer)
        | .error err => h.retry err,
        reply.eventOfLease statement.2.isOk job.id lease.lockToken
          (.finished lease.lockToken args)⟩
  | _, _ => none

/-- The heartbeat loop's tick: send one `heartbeat`. -/
def beat (reply : Reply) (db : Db) (h : Handler) : Option HandlerEffect :=
  match h.lease with
  | some lease =>
      match lease.loop with
      | .waiting =>
          let statement := JobStore.heartbeat lease.jobId lease.lockToken db
          let res := reply.call db statement
          some ⟨res.1, h.withLease { lease with loop := .answered res.2 },
            reply.eventOfLease (statement.2.toOption.getD false) lease.jobId lease.lockToken
              (.renewed lease.lockToken db.now)⟩
      | _ => none
  | none => none

/-- The heartbeat loop acts on the answer it got. -/
def beatAnswer (db : Db) (h : Handler) : Option HandlerEffect :=
  match h.lease with
  | some lease =>
      match lease.loop with
      | .answered answer =>
          some ⟨db, h.withLease
            (match answer with
            | .ok true => { lease with loop := .waiting }
            | .ok false => { lease with loop := .ended, cancelExecution := true }
            | .error err =>
                { lease with loop := .ended, heartbeatErr := some err, heartbeatCancel := true }),
            none⟩
      | _ => none
  | none => none

/-- The heartbeat loop sees `heartbeat_cancel.cancelled()`. -/
def beatCancelled (db : Db) (h : Handler) : Option HandlerEffect :=
  match h.lease with
  | some lease =>
      match lease.loop with
      | .waiting =>
          if lease.heartbeatCancel then
            some ⟨db, h.withLease { lease with loop := .ended }, none⟩
          else none
      | _ => none
  | none => none

/-- The worker process dies, and every task in it. -/
def crash (db : Db) (h : Handler) : Option HandlerEffect :=
  some ⟨db,
    { h with
      phase := if h.phase.jobId.isSome then .crashed else h.phase
      lease := h.lease.map (fun lease => { lease with loop := .ended }) },
    none⟩

/-- One step of a call or of its heartbeat task. -/
def step (input : HandlerInput) (db : Db) (h : Handler) : Option HandlerEffect :=
  match input with
  | .select reply => h.select reply db
  | .queue reply => h.queue reply db
  | .observe utcNow => h.observe utcNow db
  | .tryStart reply token => h.tryStart reply token db
  | .mark reply => h.mark reply db
  | .runRust calls => h.runRust calls db
  | .collect => h.collect db
  | .join => h.join db
  | .finish reply => h.finish reply db
  | .beat reply => h.beat reply db
  | .beatAnswer => h.beatAnswer db
  | .beatCancelled => h.beatCancelled db
  | .crash => h.crash db

/-- The message of this call has to be delivered again: the call ended without
`Ok` and without a record on the dead-letter topic. -/
def owesRedelivery (h : Handler) : Bool :=
  match h.phase with
  | .returned (.error (.retryable _)) | .panicked | .crashed => true
  | _ => false

end Handler

end EditorBack
