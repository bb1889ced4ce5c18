import EditorBack.HandleMessage

/-!
# `POST /run`

One call of `run_handle`: reject the body, or insert the job and send its
message.  The two stores share no transaction, so a call can end between
them.
-/

namespace EditorBack

/-- The `ApiError`s `run_handle` answers with. -/
inductive ApiError
  | internal (err : String)
  | invalidJson
  | payloadTooLarge

/-- Where a call of `run_handle` stands. -/
inductive SubmissionPhase
  /-- before `create` -/
  | inserting (job : Job)
  /-- before `send_job` -/
  | sending (msg : JobMessage)
  | returned (result : Except ApiError Uuid)
  | crashed

/-- One call of `run_handle`, with the id of the row it has inserted. -/
structure Submission where
  phase : SubmissionPhase
  inserted : Option Uuid

/-- What the environment decides in one step of a call. -/
inductive SubmissionInput
  | insert (reply : Reply)
  | send (reply : SendReply)
  | crash

/-- What a step does; `accepted` is the message it put on `judge.jobs`. -/
structure SubmissionEffect where
  db : Db
  submission : Submission
  accepted : Option JobMessage
  event : Option (Uuid × JobEvent)

/-- The job `run_handle` creates under a fresh id. -/
def Job.submit (id : Uuid) (request : RunRequest) : Job where
  id := id
  language := "rust"
  code := request.code
  status := .accepted
  stdout := none
  stderr := none
  exitCode := none
  createdAt := none
  heartbeatAt := none
  workerId := none

namespace Submission

/-- The start of `run_handle`.  A rejected body arrives as the status code of
its `JsonRejection`. -/
def receive (results : Except Nat RunRequest) (id : Uuid) : Submission where
  phase :=
    match results with
    | .ok request => .inserting (.submit id request)
    | .error status =>
        .returned (.error (if status = 413 then .payloadTooLarge else .invalidJson))
  inserted := none

/-- The call is no longer in progress. -/
def isOver (sub : Submission) : Bool :=
  match sub.phase with
  | .returned _ | .crashed => true
  | .inserting _ | .sending _ => false

/-- `state.jobs.create(&job).await?` -/
def insert (reply : Reply) (db : Db) (sub : Submission) : Option SubmissionEffect :=
  match sub.phase with
  | .inserting job =>
      let created := JobStore.create job db
      let res := reply.call db
        (match created with
        | some db' => (db', .ok ())
        | none => (db, .error "duplicate key value violates unique constraint"))
      let inserted := reply.executed && created.isSome
      some {
        db := res.1
        submission :=
          { phase :=
              match res.2 with
              | .ok () => .sending ⟨job.id⟩
              | .error err => .returned (.error (.internal err))
            inserted := if inserted then some job.id else none }
        accepted := none
        event := if inserted then some (job.id, .inserted (JobRow.new db.now job)) else none }
  | _ => none

/-- `state.kafka.send_job(&job_msg).await?` -/
def send (reply : SendReply) (db : Db) (sub : Submission) : Option SubmissionEffect :=
  match sub.phase with
  | .sending msg =>
      some {
        db := db
        submission :=
          { sub with
            phase :=
              match reply with
              | .acked => .returned (.ok msg.jobId)
              | .refused err | .unacked err => .returned (.error (.internal err)) }
        accepted := if reply.accepted then some msg else none
        event := none }
  | _ => none

/-- The API process dies. -/
def crash (db : Db) (sub : Submission) : Option SubmissionEffect :=
  some {
    db := db
    submission := { sub with phase := if sub.isOver then sub.phase else .crashed }
    accepted := none
    event := none }

/-- One step of a call. -/
def step (input : SubmissionInput) (db : Db) (sub : Submission) : Option SubmissionEffect :=
  match input with
  | .insert reply => sub.insert reply db
  | .send reply => sub.send reply db
  | .crash => sub.crash db

/-! ## The control flow of a call -/

/-- The transitions of a call, with what the branch knows. -/
inductive Move (db : Db) (sub : Submission) : SubmissionInput → SubmissionEffect → Prop
  | inserted {job : Job} {db' : Db} (hp : sub.phase = .inserting job)
      (hcreate : JobStore.create job db = some db') :
      Move db sub (.insert .ok) ⟨db', ⟨.sending ⟨job.id⟩, some job.id⟩, none,
        some (job.id, .inserted (JobRow.new db.now job))⟩
  | insertLost {job : Job} {db' : Db} {err : String} (hp : sub.phase = .inserting job)
      (hcreate : JobStore.create job db = some db') :
      Move db sub (.insert (.lost err))
        ⟨db', ⟨.returned (.error (.internal err)), some job.id⟩, none,
          some (job.id, .inserted (JobRow.new db.now job))⟩
  | insertFailed {job : Job} {reply : Reply} {err : String} (hp : sub.phase = .inserting job)
      (hnone : reply.executed = true → JobStore.create job db = none) :
      Move db sub (.insert reply) ⟨db, ⟨.returned (.error (.internal err)), none⟩, none, none⟩
  | acked {msg : JobMessage} (hp : sub.phase = .sending msg) :
      Move db sub (.send .acked)
        ⟨db, { sub with phase := .returned (.ok msg.jobId) }, some msg, none⟩
  | unacked {msg : JobMessage} {err : String} (hp : sub.phase = .sending msg) :
      Move db sub (.send (.unacked err))
        ⟨db, { sub with phase := .returned (.error (.internal err)) }, some msg, none⟩
  | refused {msg : JobMessage} {err : String} (hp : sub.phase = .sending msg) :
      Move db sub (.send (.refused err))
        ⟨db, { sub with phase := .returned (.error (.internal err)) }, none, none⟩
  | crashed (hactive : sub.isOver = false) :
      Move db sub .crash ⟨db, { sub with phase := .crashed }, none, none⟩
  | overCrashed (hover : sub.isOver = true) : Move db sub .crash ⟨db, sub, none, none⟩

/-- Every step of a call is a transition of its control flow. -/
theorem step_move {input : SubmissionInput} {db : Db} {sub : Submission}
    {eff : SubmissionEffect} (he : sub.step input db = some eff) : Move db sub input eff := by
  cases input with
  | insert reply =>
      simp only [step, insert] at he
      split at he <;> cases he
      next job hp =>
        cases hcreate : JobStore.create job db with
        | none =>
            cases reply with
            | ok => exact .insertFailed hp (fun _ => hcreate)
            | failed err => exact .insertFailed hp (fun _ => hcreate)
            | lost err => exact .insertFailed hp (fun _ => hcreate)
        | some db' =>
            cases reply with
            | ok => exact .inserted hp hcreate
            | failed err => exact .insertFailed hp nofun
            | lost err => exact .insertLost hp hcreate
  | send reply =>
      simp only [step, send] at he
      split at he <;> cases he
      next msg hp =>
        cases reply with
        | acked => exact .acked hp
        | refused err => exact .refused hp
        | unacked err => exact .unacked hp
  | crash =>
      cases he
      cases hover : sub.isOver with
      | true => exact .overCrashed hover
      | false => exact .crashed hover

section MoveFacts

variable {db : Db} {sub : Submission} {input : SubmissionInput} {eff : SubmissionEffect}

/-- Only a call that was about to send puts a message on the topic. -/
theorem Move.accepted (hm : Move db sub input eff) {msg : JobMessage}
    (h : eff.accepted = some msg) : sub.phase = .sending msg := by
  cases hm with
  | acked hp => cases h; exact hp
  | unacked hp => cases h; exact hp
  | _ => cases h

/-- A call about to send has inserted the row its message is about. -/
theorem Move.sending (hm : Move db sub input eff) {msg : JobMessage}
    (h : eff.submission.phase = .sending msg) : eff.submission.inserted = some msg.jobId := by
  cases hm with
  | inserted hp hcreate => cases h; rfl
  | overCrashed hover =>
      have hphase : sub.phase = .sending msg := h
      simp [isOver, hphase] at hover
  | _ => cases h

/-- What a call has inserted it had inserted before, or it has inserted it just
now under an id without a row. -/
theorem Move.inserted_or (hm : Move db sub input eff) {j : Uuid}
    (h : eff.submission.inserted = some j) :
    sub.inserted = some j ∨ (db.row j = none ∧ (eff.db.row j).isSome = true) := by
  have hcreated : ∀ {job : Job} {db' : Db}, JobStore.create job db = some db' →
      db.row job.id = none ∧ (db'.row job.id).isSome = true := by
    intro job db' hcreate
    refine ⟨JobStore.row_none_of_create hcreate, ?_⟩
    rw [JobStore.row_create hcreate]
    simp
  cases hm with
  | inserted hp hcreate => cases h; exact Or.inr (hcreated hcreate)
  | insertLost hp hcreate => cases h; exact Or.inr (hcreated hcreate)
  | insertFailed _ _ => cases h
  | _ => exact Or.inl h

/-- A call that answers with an id has had the message for it accepted. -/
theorem Move.answered (hm : Move db sub input eff) {j : Uuid}
    (h : eff.submission.phase = .returned (.ok j)) :
    sub.phase = .returned (.ok j) ∨ eff.accepted = some ⟨j⟩ := by
  cases hm with
  | acked hp => cases h; exact Or.inr rfl
  | overCrashed hover => exact Or.inl h
  | _ => cases h

end MoveFacts

/-- A call moves no clock and touches no outbox row. -/
theorem Move.frame {db : Db} {sub : Submission} {input : SubmissionInput}
    {eff : SubmissionEffect} (hm : Move db sub input eff) :
    eff.db.now = db.now ∧ eff.db.outbox = db.outbox := by
  cases hm with
  | inserted hp hcreate => exact JobStore.create_frame hcreate
  | insertLost hp hcreate => exact JobStore.create_frame hcreate
  | _ => exact ⟨rfl, rfl⟩

end Submission

end EditorBack
