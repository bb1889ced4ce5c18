import EditorBack.OutboxPublisher
import EditorBack.RunHandle
import EditorBack.Runs

/-!
# The whole system

Any number of API calls, `handle_message` calls with their heartbeat tasks,
reapers and outbox publishers share one database and the topic `judge.jobs`.
An action is one step of one of them, with what the environment decides in it;
all interleavings of such steps are runs.

Kafka delivers at least once.  `queue` holds the deliveries still owed: a
message enters it when Kafka accepts it, a delivery may leave its message
there for a further one (a duplicate), and a call that ends in a crash or in
`Retryable` puts its message back.  A reaper keeps nothing between two ticks,
so a reap may happen at any time.

`sent`, `published` and `history` record what happened; no step reads them.
`tokens` are the values `Uuid::new_v4` has given to `try_start`, assumed to be
pairwise distinct.
-/

namespace EditorBack

/-- A state of the system. -/
structure World where
  db : Db
  submissions : List Submission
  queue : List Payload
  handlers : List Handler
  publishers : List Publisher
  tokens : List Uuid
  /-- the jobs whose message Kafka has accepted -/
  sent : List Uuid
  /-- the outbox rows whose message Kafka has accepted -/
  published : List Uuid
  /-- what happened to each job's row, newest first -/
  history : Uuid → List JobEvent

inductive Action
  | advance (d : Time)
  | post (results : Except Nat RunRequest) (id : Uuid)
  | submission (i : Nat) (input : SubmissionInput)
  | deliver (k : Nat) (workerId : String) (again : Bool)
  | handler (i : Nat) (input : HandlerInput)
  | reap (gen : List Uuid) (reply : Reply)
  | spawnPublisher
  | publisher (i : Nat) (input : PublisherInput)

/-- What an event adds to the history of job `j`. -/
def eventsAt (event : Option (Uuid × JobEvent)) (j : Uuid) : List JobEvent :=
  match event with
  | some (id, e) => if j = id then [e] else []
  | none => []

namespace World

/-- The system before its first request. -/
def empty (now : Time) : World where
  db := ⟨now, .empty, .empty⟩
  submissions := []
  queue := []
  handlers := []
  publishers := []
  tokens := []
  sent := []
  published := []
  history := fun _ => []

/-- The row of a job. -/
def row (s : World) (j : Uuid) : Option JobRow :=
  s.db.row j

/-- One step of an API call. -/
def stepSubmission (i : Nat) (input : SubmissionInput) (s : World) : Option World :=
  (s.submissions[i]?).bind fun sub =>
    (sub.step input s.db).map fun eff =>
      { s with
        db := eff.db
        submissions := s.submissions.set i eff.submission
        queue := eff.accepted.toList.map Payload.message ++ s.queue
        sent := eff.accepted.toList.map JobMessage.jobId ++ s.sent
        history := fun j => eventsAt eff.event j ++ s.history j }

/-- Kafka hands a message to a worker. -/
def stepDeliver (k : Nat) (workerId : String) (again : Bool) (s : World) : Option World :=
  (s.queue[k]?).map fun payload =>
    { s with
      queue := if again then s.queue else s.queue.eraseIdx k
      handlers := s.handlers ++ [Handler.receive workerId payload] }

/-- One step of a `handle_message` call or of its heartbeat task. -/
def stepHandler (i : Nat) (input : HandlerInput) (s : World) : Option World :=
  if input.tokens.any (· ∈ s.tokens) then none
  else
    (s.handlers[i]?).bind fun h =>
      (h.step input s.db).map fun eff =>
        { s with
          db := eff.db
          handlers := s.handlers.set i eff.handler
          queue :=
            if eff.handler.owesRedelivery && !h.owesRedelivery then h.payload :: s.queue
            else s.queue
          tokens := input.tokens ++ s.tokens
          history := fun j => eventsAt eff.event j ++ s.history j }

/-- One tick of a reaper: `reap_stale_job(Duration::from_secs(30))`. -/
def stepReap (gen : List Uuid) (reply : Reply) (s : World) : Option World :=
  if reply.executed then
    (JobStore.reapStaleJob (seconds 30) gen s.db).map fun res =>
      { s with
        db := res.1
        history := fun j => (if j ∈ res.2 then [.reset] else []) ++ s.history j }
  else some s

/-- One step of an outbox publisher. -/
def stepPublisher (i : Nat) (input : PublisherInput) (s : World) : Option World :=
  (s.publishers[i]?).bind fun p =>
    (p.step input s.db).map fun eff =>
      { s with
        db := eff.db
        publishers := s.publishers.set i eff.publisher
        queue := eff.accepted.toList.map (fun e => .message ⟨e.jobId⟩) ++ s.queue
        sent := eff.accepted.toList.map JobOutbox.jobId ++ s.sent
        published := eff.accepted.toList.map JobOutbox.id ++ s.published }

/-- One step of the system. -/
def step (s : World) : Action → Option World
  | .advance d => some { s with db := { s.db with now := s.db.now + d } }
  | .post results id => some { s with submissions := s.submissions ++ [.receive results id] }
  | .submission i input => s.stepSubmission i input
  | .deliver k workerId again => s.stepDeliver k workerId again
  | .handler i input => s.stepHandler i input
  | .reap gen reply => s.stepReap gen reply
  | .spawnPublisher => some { s with publishers := s.publishers ++ [.idle] }
  | .publisher i input => s.stepPublisher i input

end World

/-! ## The steps of one job

Pieces of runs, for the executions the later files exhibit. -/

namespace Action

/-- Request `i` submits job `id`, and every call it makes succeeds. -/
def submit (i : Nat) (id : Uuid) : List Action :=
  [.post (.ok ⟨"fn main() {}"⟩) id,
    .submission i (.insert .ok), .submission i (.send .acked)]

/-- Call `i` goes as far as its `try_start`. -/
def start (i : Nat) (token : Uuid) : List Action :=
  [.handler i (.select .ok), .handler i (.queue .ok), .handler i (.observe 0),
    .handler i (.tryStart .ok token)]

/-- What Docker answers when the program prints `hello` and exits with `0`. -/
def helloCalls : RunCalls where
  workspace := .ok ()
  writeMain := .ok ()
  create := .ok ()
  start := .ok ()
  cancelled := false
  compile := .completed (.ok ⟨"", "", some 0⟩)
  stopCompile := .ok ()
  inspectCompile := .ok (some (some false))
  run := .completed (.ok ⟨"hello", "", some 0⟩)
  inspectRun := .ok (some (some false))

/-- Call `i` executes its job and stores the result. -/
def answer (i : Nat) : List Action :=
  [.handler i (.mark .ok), .handler i (.runRust helloCalls), .handler i .collect,
    .handler i .beatCancelled, .handler i .join, .handler i (.finish .ok)]

end Action

end EditorBack
