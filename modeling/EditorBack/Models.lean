/-!
# Data shared by the API, the workers and the database

Job status, run results, messages and errors, as `models.rs` and `error.rs`
declare them, and the clock.

The `status` column is `TEXT`, written through `Display` and read through
`From<String>`, which panics on anything else; rows below carry the
enumeration itself, which `RunStatus.ofString_toString` justifies.
-/

namespace EditorBack

/-- `uuid::Uuid`, as a number. -/
abbrev Uuid := Nat

/-- A clock reading in microseconds, the resolution of `TIMESTAMPTZ`. -/
abbrev Time := Nat

/-- SQL's `INTERVAL 'n seconds'`, and `Duration::from_secs(n)`. -/
def seconds (n : Nat) : Time := n * 1000000

inductive RunStatus
  | accepted
  | compileError
  | runtimeError
  | timeLimitExceeded
  | memoryLimitExceeded
  | queued
  | running
  | success
  deriving DecidableEq, Repr

/-- `Display for RunStatus`, and `as_str`. -/
def RunStatus.toString : RunStatus → String
  | .accepted => "Accepted"
  | .compileError => "CompileError"
  | .runtimeError => "RuntimeError"
  | .timeLimitExceeded => "TimeLimitExceeded"
  | .memoryLimitExceeded => "MemoryLimitExceeded"
  | .queued => "Queued"
  | .running => "Running"
  | .success => "Success"

/-- `From<String> for RunStatus`; `none` is its panic. -/
def RunStatus.ofString (code : String) : Option RunStatus :=
  if code = "Accepted" then some .accepted
  else if code = "CompileError" then some .compileError
  else if code = "RuntimeError" then some .runtimeError
  else if code = "TimeLimitExceeded" then some .timeLimitExceeded
  else if code = "MemoryLimitExceeded" then some .memoryLimitExceeded
  else if code = "Queued" then some .queued
  else if code = "Running" then some .running
  else if code = "Success" then some .success
  else none

/-- A status written to its column is read back as itself, without panic. -/
theorem RunStatus.ofString_toString (s : RunStatus) : ofString s.toString = some s := by
  cases s <;> simp [toString, ofString]

/-- The verdicts: a job with one of these has been executed and answered. -/
def RunStatus.isTerminal : RunStatus → Bool
  | .success | .compileError | .runtimeError | .timeLimitExceeded | .memoryLimitExceeded => true
  | .accepted | .queued | .running => false

/-- `RunRequest`, the body of `POST /run`. -/
structure RunRequest where
  code : String

/-- `RunResponse`, what an execution gives. -/
structure RunResponse where
  stdout : String
  status : RunStatus
  stderr : String
  exitCode : Int32
  jobId : Uuid

/-- `ExecResult` of one command run in the container. -/
structure ExecResult where
  stdout : String
  stderr : String
  exitCode : Option Int32

/-- `JobMessage`, the content of a record on `judge.jobs`. -/
structure JobMessage where
  jobId : Uuid
  deriving DecidableEq

/-- `DlqMessage`, the content of a record on `jobs.dlq`. -/
structure DlqMessage where
  originalPayload : List UInt8
  error : String
  topic : String
  partition : Int32
  offset : Nat
  deriving DecidableEq

/-- `ProcessError`, how `handle_message` fails. -/
inductive ProcessError
  | retryable (err : String)
  | permanent (err : String)
  deriving DecidableEq

/-- `Display for ProcessError`. -/
def ProcessError.toString : ProcessError → String
  | .retryable err => "retryable error: " ++ err
  | .permanent err => "permanent error: " ++ err

/-- `RunError`, how `run_rust` fails. -/
inductive RunError
  | cancelled
  | other (err : String)
  deriving DecidableEq

/-- How a call to the database ended: it ran and answered, it did not run, or
it ran and its answer was lost.  The caller sees an error in the last two. -/
inductive Reply
  | ok
  | failed (err : String)
  | lost (err : String)
  deriving DecidableEq

/-- The statement took effect. -/
def Reply.executed : Reply → Bool
  | .ok | .lost _ => true
  | .failed _ => false

/-- A database call as its caller sees it: the database it leaves behind and
the answer. -/
def Reply.call {δ β : Type} (reply : Reply) (db : δ) (statement : δ × Except String β) :
    δ × Except String β :=
  match reply with
  | .ok => statement
  | .failed err => (db, .error err)
  | .lost err => (statement.1, .error err)

/-- How a send to Kafka ended: the broker took the record and said so, refused
it, or took it while the sender saw an error. -/
inductive SendReply
  | acked
  | refused (err : String)
  | unacked (err : String)
  deriving DecidableEq

/-- The record is on its topic. -/
def SendReply.accepted : SendReply → Bool
  | .acked | .unacked _ => true
  | .refused _ => false

end EditorBack
