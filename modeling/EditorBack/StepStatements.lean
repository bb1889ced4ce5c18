import EditorBack.JobColumns
import EditorBack.SystemMoves

/-!
# The statement of a step

A step of the system executes at most one statement that writes to `jobs`, which
its action and the phase of its component determine.  `World.jobs_of_step` says
that the rows after the step are those the statement leaves.
-/

namespace EditorBack

/-- The statement a step of `run_handle` executes. -/
def Submission.statement (sub : Submission) : SubmissionInput → Option Statement
  | .insert reply =>
      match sub.phase with
      | .inserting job => if reply.executed then some (.create job) else none
      | .sending _ | .returned _ | .crashed => none
  | .send _ | .crash => none

/-- The statement a step of `handle_message` or its heartbeat task executes. -/
def Handler.statement (h : Handler) (input : HandlerInput) : Option Statement :=
  if input.writes then
    match input, h.phase, h.lease with
    | .queue _, .queuing job, _ => some (.updateStatus job.id .queued)
    | .tryStart _ token, .starting job, _ => some (.tryStart job.id h.workerId token)
    | .mark _, .marking job, some _ => some (.updateStatus job.id .running)
    | .finish _, .finishing job args _, some lease => some (.finish job.id args lease.lockToken)
    | .beat _, _, some lease => some (.heartbeat lease.jobId lease.lockToken)
    | _, _, _ => none
  else none

/-- The statement on `jobs` that a step of the system executes. -/
def World.statement (s : World) : Action → Option Statement
  | .submission i input => (s.submissions[i]?).bind (·.statement input)
  | .handler i input => (s.handlers[i]?).bind (·.statement input)
  | .reap gen reply => if reply.executed then some (.reapStaleJob (seconds 30) gen) else none
  | .advance _ | .post _ _ | .deliver _ _ _ | .spawnPublisher | .publisher _ _ => none

/-- The rows after a statement, if there is one. -/
def Db.jobsAfter (db : Db) (st : Option Statement) : Jobs :=
  st.elim db.jobs (·.exec db)

theorem Submission.Move.jobs {db : Db} {sub : Submission} {input : SubmissionInput}
    {eff : SubmissionEffect} (hm : sub.Move db input eff) :
    eff.db.jobs = db.jobsAfter (sub.statement input) := by
  cases hm with
  | inserted hp hcreate | insertLost hp hcreate =>
      simp [statement, hp, Reply.executed, Db.jobsAfter, Statement.exec, hcreate]
  | @insertFailed job reply err hp hnone =>
      cases hexec : reply.executed with
      | false => simp [statement, hp, hexec, Db.jobsAfter]
      | true => simp [statement, hp, hexec, Db.jobsAfter, Statement.exec, hnone hexec]
  | _ => rfl

theorem Handler.Write.jobs {db db' : Db} {h : Handler} {input : HandlerInput}
    {event : Option (Uuid × JobEvent)} (hw : h.Write db input db' event) :
    db'.jobs = db.jobsAfter (h.statement input) := by
  cases hw with
  | none hnone => simp [statement, hnone, Db.jobsAfter]
  | queue hp hexec | tryStart hp hexec =>
      simp [statement, HandlerInput.writes, hp, hexec, Db.jobsAfter, Statement.exec]
  | mark hp hl hexec | finish hp hl hexec =>
      simp [statement, HandlerInput.writes, hp, hl, hexec, Db.jobsAfter, Statement.exec]
  | beat hl hexec =>
      simp [statement, HandlerInput.writes, hl, hexec, Db.jobsAfter, Statement.exec]

/-- **A step of the system leaves the rows its statement leaves.** -/
theorem World.jobs_of_step {s s' : World} {a : Action} (h : s.step a = some s') :
    s'.db.jobs = s.db.jobsAfter (s.statement a) := by
  cases a with
  | reap gen reply =>
      simp only [step, stepReap] at h
      split at h
      · next hexec =>
          obtain ⟨res, hreap, rfl⟩ := Option.map_eq_some_iff.mp h
          simp [statement, hexec, Db.jobsAfter, Statement.exec, hreap]
      · next hexec =>
          cases h
          simp [statement, hexec, Db.jobsAfter]
  | submission i input =>
      cases step_move h with
      | submission hsub hm => simp [statement, hsub, hm.jobs]
  | handler i input =>
      cases step_move h with
      | handler hhd hm hw hfresh => simp [statement, hhd, hw.jobs]
  | publisher i input =>
      cases step_move h with
      | publisher hp hm => exact hm.frame.2
  | advance d | post results id | spawnPublisher =>
      cases h
      rfl
  | deliver k workerId again =>
      cases step_move h
      rfl

end EditorBack
