import EditorBack.HandleMessage

/-!
# The control flow of a `handle_message` call

`Move` lists the transitions of a call and of its heartbeat task, one
constructor for each branch of the code, with what the branch knows about the
database.  `step_move` is its only contact with the step function: invariants
of calls are proved by cases on `Move`.

`Sound` collects the invariants every call keeps: it works on the job of its
message, its token was issued to it, and a result it carries is a verdict.
-/

namespace EditorBack

/-- What `finish` is given for a result that is stored. -/
def storedArgs : Except RunError RunResponse → Option FinishArgs
  | .ok res => some ⟨res.status, some res.stdout, some res.stderr, some res.exitCode⟩
  | .error (.other err) => some ⟨.runtimeError, none, some err, none⟩
  | .error .cancelled => none

namespace Handler

/-- The transitions of a call. -/
inductive Move (db : Db) : HandlerInput → Handler → Handler → Prop
  | selected {h : Handler} {reply : Reply} {id : Uuid} {job : Job}
      (hp : h.phase = .selecting id) (hget : JobStore.get id db = some job) :
      Move db (.select reply) h (h.goto (.queuing job))
  | notFound {h : Handler} {reply : Reply} {id : Uuid} {err : String}
      (hp : h.phase = .selecting id) (hget : JobStore.get id db = none) :
      Move db (.select reply) h (h.goto (.returned (.error (.permanent err))))
  | selectFailed {h : Handler} {reply : Reply} {id : Uuid} {err : String}
      (hp : h.phase = .selecting id) :
      Move db (.select reply) h (h.retry err)
  | queued {h : Handler} {reply : Reply} {job : Job}
      (hp : h.phase = .queuing job) (hexec : reply.executed = true) :
      Move db (.queue reply) h (h.goto (.observing job))
  | queueFailed {h : Handler} {reply : Reply} {job : Job} {err : String}
      (hp : h.phase = .queuing job) :
      Move db (.queue reply) h (h.retry err)
  | observed {h : Handler} {utcNow : Time} {job : Job}
      (hp : h.phase = .observing job) :
      Move db (.observe utcNow) h (h.goto (.starting job))
  | panicked {h : Handler} {utcNow : Time} {job : Job}
      (hp : h.phase = .observing job) :
      Move db (.observe utcNow) h (h.goto .panicked)
  | granted {h : Handler} {token : Uuid} {job : Job}
      (hp : h.phase = .starting job)
      (hrow : (db.row job.id).any (·.startable db.now) = true) :
      Move db (.tryStart .ok token) h
        ((h.goto (.marking job)).withLease (.spawn job.id token))
  | busy {h : Handler} {token : Uuid} {job : Job}
      (hp : h.phase = .starting job)
      (hrow : (db.row job.id).any (·.startable db.now) = false) :
      Move db (.tryStart .ok token) h (h.goto (.returned (.ok ())))
  | startFailed {h : Handler} {reply : Reply} {token : Uuid} {job : Job} {err : String}
      (hp : h.phase = .starting job) :
      Move db (.tryStart reply token) h (h.retry err)
  | marked {h : Handler} {job : Job} {lease : Lease}
      (hp : h.phase = .marking job) (hl : h.lease = some lease) :
      Move db (.mark .ok) h (h.goto (.running job))
  | unsupported {h : Handler} {job : Job} {lease : Lease} {err : String}
      (hp : h.phase = .marking job) (hl : h.lease = some lease) :
      Move db (.mark .ok) h
        ((h.goto (.finishing job ⟨.runtimeError, none, some err, none⟩
          (.error (.permanent err)))).withLease { lease with loop := .ended })
  | markFailed {h : Handler} {reply : Reply} {job : Job} {lease : Lease} {err : String}
      (hp : h.phase = .marking job) (hl : h.lease = some lease)
      (hfail : reply = .ok → db.row job.id = none) :
      Move db (.mark reply) h (h.retry err)
  | ran {h : Handler} {calls : RunCalls} {job : Job} {lease : Lease}
      {result : Except RunError RunResponse}
      (hp : h.phase = .running job) (hl : h.lease = some lease)
      (hrun : EditorBack.runRust job.id calls = some result) :
      Move db (.runRust calls) h (h.goto (.collecting job result))
  | beatFailed {h : Handler} {job : Job} {result : Except RunError RunResponse}
      {lease : Lease} {err err' : String}
      (hp : h.phase = .collecting job result) (hl : h.lease = some lease)
      (herr : lease.heartbeatErr = some err) :
      Move db .collect h ((h.retry err').withLease { lease with heartbeatErr := none })
  | collected {h : Handler} {job : Job} {result : Except RunError RunResponse} {lease : Lease}
      (hp : h.phase = .collecting job result) (hl : h.lease = some lease) :
      Move db .collect h
        ((h.goto (.joining job result)).withLease { lease with heartbeatCancel := true })
  | joined {h : Handler} {job : Job} {result : Except RunError RunResponse}
      {lease : Lease} {args : FinishArgs}
      (hp : h.phase = .joining job result) (hl : h.lease = some lease)
      (hloop : lease.loop = .ended) (hargs : storedArgs result = some args) :
      Move db .join h (h.goto (.finishing job args (.ok ())))
  | cancelled {h : Handler} {job : Job} {result : Except RunError RunResponse}
      {lease : Lease} {err : String}
      (hp : h.phase = .joining job result) (hl : h.lease = some lease)
      (hloop : lease.loop = .ended) :
      Move db .join h (h.retry err)
  | stored {h : Handler} {job : Job} {args : FinishArgs}
      {answer : Except ProcessError Unit} {lease : Lease}
      (hp : h.phase = .finishing job args answer) (hl : h.lease = some lease)
      (hheld : (db.row job.id).any (·.heldBy lease.lockToken) = true) :
      Move db (.finish .ok) h (h.goto (.returned answer))
  | storeFailed {h : Handler} {reply : Reply} {job : Job} {args : FinishArgs}
      {answer : Except ProcessError Unit} {lease : Lease} {err : String}
      (hp : h.phase = .finishing job args answer) (hl : h.lease = some lease) :
      Move db (.finish reply) h (h.retry err)
  | beat {h : Handler} {reply : Reply} {lease : Lease} {answer : Except String Bool}
      (hl : h.lease = some lease) (hloop : lease.loop = .waiting) :
      Move db (.beat reply) h (h.withLease { lease with loop := .answered answer })
  | beatRenewed {h : Handler} {lease : Lease}
      (hl : h.lease = some lease) (hloop : lease.loop = .answered (.ok true)) :
      Move db .beatAnswer h (h.withLease { lease with loop := .waiting })
  | beatLost {h : Handler} {lease : Lease}
      (hl : h.lease = some lease) (hloop : lease.loop = .answered (.ok false)) :
      Move db .beatAnswer h
        (h.withLease { lease with loop := .ended, cancelExecution := true })
  | beatError {h : Handler} {lease : Lease} {err : String}
      (hl : h.lease = some lease) (hloop : lease.loop = .answered (.error err)) :
      Move db .beatAnswer h
        (h.withLease { lease with
          loop := .ended, heartbeatErr := some err, heartbeatCancel := true })
  | beatStopped {h : Handler} {lease : Lease}
      (hl : h.lease = some lease) (hloop : lease.loop = .waiting)
      (hcancel : lease.heartbeatCancel = true) :
      Move db .beatCancelled h (h.withLease { lease with loop := .ended })
  | crashed (h : Handler) :
      Move db .crash h
        { h with
          phase := if h.phase.jobId.isSome then .crashed else h.phase
          lease := h.lease.map (fun lease => { lease with loop := .ended }) }

section StepMove

variable {db : Db} {h : Handler} {eff : HandlerEffect}

private theorem select_move {reply : Reply} (he : h.select reply db = some eff) :
    Move db (.select reply) h eff.handler := by
  unfold select at he
  split at he
  · next id hp =>
      cases he
      cases reply with
      | ok =>
          dsimp only [Reply.call]
          cases hget : JobStore.get id db with
          | none => exact .notFound hp hget
          | some job => exact .selected hp hget
      | failed err => exact .selectFailed hp
      | lost err => exact .selectFailed hp
  · cases he

private theorem queue_move {reply : Reply} (he : h.queue reply db = some eff) :
    Move db (.queue reply) h eff.handler := by
  unfold queue at he
  split at he
  · next job hp =>
      cases he
      cases reply with
      | ok =>
          dsimp only [Reply.call]
          cases (JobStore.updateStatus job.id .queued db).2 with
          | ok _ => exact .queued hp rfl
          | error err => exact .queueFailed hp
      | failed err => exact .queueFailed hp
      | lost err => exact .queueFailed hp
  · cases he

private theorem observe_move {utcNow : Time} (he : h.observe utcNow db = some eff) :
    Move db (.observe utcNow) h eff.handler := by
  unfold observe at he
  split at he
  · next job hp =>
      cases he
      dsimp only
      split
      · split
        · exact .panicked hp
        · exact .observed hp
      · exact .panicked hp
  · cases he

private theorem tryStart_move {reply : Reply} {token : Uuid}
    (he : h.tryStart reply token db = some eff) :
    Move db (.tryStart reply token) h eff.handler := by
  unfold tryStart at he
  split at he
  · next job hp =>
      cases he
      cases reply with
      | ok =>
          dsimp only [Reply.call]
          rw [JobStore.answer_tryStart]
          cases hrow : (db.row job.id).any (·.startable db.now) with
          | true => exact .granted hp hrow
          | false => exact .busy hp hrow
      | failed err => exact .startFailed hp
      | lost err => exact .startFailed hp
  · cases he

private theorem mark_move {reply : Reply} (he : h.mark reply db = some eff) :
    Move db (.mark reply) h eff.handler := by
  unfold mark at he
  split at he
  · next job lease hp hl =>
      cases he
      cases reply with
      | ok =>
          dsimp only [Reply.call]
          rw [JobStore.answer_updateStatus]
          cases hrow : db.row job.id with
          | none => exact .markFailed hp hl (fun _ => hrow)
          | some r =>
              dsimp only [Option.isSome]
              simp only [if_true]
              split
              · exact .marked hp hl
              · exact .unsupported hp hl
      | failed err => exact .markFailed hp hl nofun
      | lost err => exact .markFailed hp hl nofun
  · cases he

private theorem runRust_move {calls : RunCalls} (he : h.runRust calls db = some eff) :
    Move db (.runRust calls) h eff.handler := by
  unfold runRust at he
  split at he
  · next job lease hp hl =>
      split at he
      · cases he
      · cases he
        obtain ⟨result, hrun, _⟩ := runRust_verdict job.id calls
        dsimp only
        rw [hrun]
        exact .ran hp hl hrun
  · cases he

private theorem collect_move (he : h.collect db = some eff) :
    Move db .collect h eff.handler := by
  unfold collect at he
  split at he
  · next job result lease hp hl =>
      cases he
      dsimp only
      split
      · next err herr => exact .beatFailed hp hl herr
      · exact .collected hp hl
  · cases he

private theorem join_move (he : h.join db = some eff) :
    Move db .join h eff.handler := by
  unfold join at he
  split at he
  · next job result lease hp hl =>
      split at he
      · next hloop =>
          cases he
          dsimp only
          split
          · exact .joined hp hl hloop rfl
          · exact .cancelled hp hl hloop
          · exact .joined hp hl hloop rfl
      · cases he
  · cases he

private theorem finish_move {reply : Reply} (he : h.finish reply db = some eff) :
    Move db (.finish reply) h eff.handler := by
  unfold finish at he
  split at he
  · next job args answer lease hp hl =>
      cases he
      cases reply with
      | ok =>
          dsimp only [Reply.call]
          rw [JobStore.answer_finish]
          cases hheld : (db.row job.id).any (·.heldBy lease.lockToken) with
          | true => exact .stored hp hl hheld
          | false => exact .storeFailed hp hl
      | failed err => exact .storeFailed hp hl
      | lost err => exact .storeFailed hp hl
  · cases he

private theorem beat_move {reply : Reply} (he : h.beat reply db = some eff) :
    Move db (.beat reply) h eff.handler := by
  unfold beat at he
  split at he
  · next lease hl =>
      split at he
      · next hloop => cases he; exact .beat hl hloop
      · cases he
  · cases he

private theorem beatAnswer_move (he : h.beatAnswer db = some eff) :
    Move db .beatAnswer h eff.handler := by
  unfold beatAnswer at he
  split at he
  · next lease hl =>
      split at he
      · next answer hloop =>
          cases he
          dsimp only
          split
          · exact .beatRenewed hl hloop
          · exact .beatLost hl hloop
          · exact .beatError hl hloop
      · cases he
  · cases he

private theorem beatCancelled_move (he : h.beatCancelled db = some eff) :
    Move db .beatCancelled h eff.handler := by
  unfold beatCancelled at he
  split at he
  · next lease hl =>
      split at he
      · next hloop =>
          split at he
          · next hcancel => cases he; exact .beatStopped hl hloop hcancel
          · cases he
      · cases he
  · cases he

/-- **Every step of a call is a transition of its control flow.** -/
theorem step_move {input : HandlerInput} (he : h.step input db = some eff) :
    Move db input h eff.handler := by
  cases input with
  | select reply => exact select_move he
  | queue reply => exact queue_move he
  | observe utcNow => exact observe_move he
  | tryStart reply token => exact tryStart_move he
  | mark reply => exact mark_move he
  | runRust calls => exact runRust_move he
  | collect => exact collect_move he
  | join => exact join_move he
  | finish reply => exact finish_move he
  | beat reply => exact beat_move he
  | beatAnswer => exact beatAnswer_move he
  | beatCancelled => exact beatCancelled_move he
  | crash => cases he; exact .crashed h

end StepMove

/-- A call keeps its message. -/
theorem Move.payload {db : Db} {input : HandlerInput} {h h' : Handler}
    (hm : Move db input h h') : h'.payload = h.payload := by
  cases hm <;> rfl

/-- A call keeps its worker. -/
theorem Move.workerId {db : Db} {input : HandlerInput} {h h' : Handler}
    (hm : Move db input h h') : h'.workerId = h.workerId := by
  cases hm <;> rfl

/-! ## Statements -/

/-- The database a step leaves behind and the event it leaves in a history:
those of the one statement it executes, if it executes one. -/
inductive Write (db : Db) (h : Handler) :
    HandlerInput → Db → Option (Uuid × JobEvent) → Prop
  | none {input : HandlerInput} (hnone : input.writes = false) : Write db h input db none
  | queue {reply : Reply} {job : Job} (hp : h.phase = .queuing job)
      (hexec : reply.executed = true) :
      Write db h (.queue reply) (JobStore.updateStatus job.id .queued db).1
        (if (db.row job.id).isSome then some (job.id, .queued) else .none)
  | tryStart {reply : Reply} {token : Uuid} {job : Job} (hp : h.phase = .starting job)
      (hexec : reply.executed = true) :
      Write db h (.tryStart reply token) (JobStore.tryStart job.id h.workerId token db).1
        (if (db.row job.id).any (·.startable db.now) then
          some (job.id, .started token h.workerId db.now) else .none)
  | mark {reply : Reply} {job : Job} {lease : Lease} (hp : h.phase = .marking job)
      (hl : h.lease = some lease) (hexec : reply.executed = true) :
      Write db h (.mark reply) (JobStore.updateStatus job.id .running db).1
        (if (db.row job.id).isSome then some (job.id, .marked) else .none)
  | finish {reply : Reply} {job : Job} {args : FinishArgs} {answer : Except ProcessError Unit}
      {lease : Lease} (hp : h.phase = .finishing job args answer) (hl : h.lease = some lease)
      (hexec : reply.executed = true) :
      Write db h (.finish reply) (JobStore.finish job.id args lease.lockToken db).1
        (if (db.row job.id).any (·.heldBy lease.lockToken) then
          some (job.id, .finished lease.lockToken args)
        else if reply = .ok then some (job.id, .refused lease.lockToken) else .none)
  | beat {reply : Reply} {lease : Lease} (hl : h.lease = some lease)
      (hexec : reply.executed = true) :
      Write db h (.beat reply) (JobStore.heartbeat lease.jobId lease.lockToken db).1
        (if (db.row lease.jobId).any (·.heldBy lease.lockToken) then
          some (lease.jobId, .renewed lease.lockToken db.now)
        else if reply = .ok then some (lease.jobId, .refused lease.lockToken) else .none)

section StepWrite

variable {β : Type} {db : Db} {h : Handler} {input : HandlerInput} {reply : Reply}
  {stmt : Db × Except String β} {id : Uuid} {event : JobEvent}

/-- A statement that may fail to run is that statement or none. -/
private theorem write_guarded {took : Bool} (hwrites : input.writes = reply.executed)
    (hstmt : reply.executed = true →
      Write db h input stmt.1 (if took then some (id, event) else .none)) :
    Write db h input (reply.call db stmt).1 (reply.eventIf took id event) := by
  cases reply with
  | ok => simpa [Reply.call, Reply.eventIf, Reply.executed] using hstmt rfl
  | failed err => exact .none hwrites
  | lost err => simpa [Reply.call, Reply.eventIf, Reply.executed] using hstmt rfl

/-- A statement that presents a lease and may fail to run is that statement or
none. -/
private theorem write_lease {held : Bool} {token : Uuid} (hwrites : input.writes = reply.executed)
    (hstmt : reply.executed = true →
      Write db h input stmt.1
        (if held then some (id, event)
        else if reply = .ok then some (id, .refused token) else .none)) :
    Write db h input (reply.call db stmt).1 (reply.eventOfLease held id token event) := by
  cases reply with
  | ok => simpa [Reply.call, Reply.eventOfLease, Reply.eventIf, Reply.executed] using hstmt rfl
  | failed err =>
      have hnone : Reply.eventOfLease (.failed err) held id token event = .none := by
        cases held <;> rfl
      rw [hnone]
      exact .none hwrites
  | lost err => simpa [Reply.call, Reply.eventOfLease, Reply.eventIf, Reply.executed] using hstmt rfl

end StepWrite

/-- **Every step executes at most the statement its phase is about.** -/
theorem step_write {db : Db} {h : Handler} {eff : HandlerEffect} {input : HandlerInput}
    (he : h.step input db = some eff) : Write db h input eff.db eff.event := by
  cases input with
  | select reply =>
      simp only [step, select] at he
      split at he <;> cases he
      exact .none rfl
  | queue reply =>
      simp only [step, queue] at he
      split at he <;> cases he
      next job hp =>
        rw [JobStore.isOk_updateStatus]
        exact write_guarded rfl (.queue hp)
  | observe utcNow =>
      simp only [step, observe] at he
      split at he <;> cases he
      exact .none rfl
  | tryStart reply token =>
      simp only [step, tryStart] at he
      split at he <;> cases he
      next job hp =>
        rw [JobStore.granted_tryStart]
        exact write_guarded rfl (.tryStart hp)
  | mark reply =>
      simp only [step, mark] at he
      split at he <;> cases he
      next job lease hp hl =>
        rw [JobStore.isOk_updateStatus]
        exact write_guarded rfl (.mark hp hl)
  | runRust calls =>
      simp only [step, runRust] at he
      split at he
      · split at he <;> cases he
        exact .none rfl
      · cases he
  | collect =>
      simp only [step, collect] at he
      split at he <;> cases he
      exact .none rfl
  | join =>
      simp only [step, join] at he
      split at he
      · split at he <;> cases he
        exact .none rfl
      · cases he
  | finish reply =>
      simp only [step, finish] at he
      split at he <;> cases he
      next job args answer lease hp hl =>
        rw [JobStore.isOk_finish]
        exact write_lease rfl (.finish hp hl)
  | beat reply =>
      simp only [step, beat] at he
      split at he
      · next lease hl =>
          split at he <;> cases he
          rw [JobStore.renewed_heartbeat]
          exact write_lease rfl (.beat hl)
      · cases he
  | beatAnswer =>
      simp only [step, beatAnswer] at he
      split at he
      · split at he <;> cases he
        exact .none rfl
      · cases he
  | beatCancelled =>
      simp only [step, beatCancelled] at he
      split at he
      · split at he
        · split at he <;> cases he
          exact .none rfl
        · cases he
      · cases he
  | crash =>
      cases he
      exact .none rfl

/-- No statement of a call moves the clock or touches the outbox. -/
theorem Write.frame {db db' : Db} {h : Handler} {input : HandlerInput}
    {event : Option (Uuid × JobEvent)} (hw : Write db h input db' event) :
    db'.now = db.now ∧ db'.outbox = db.outbox := by
  cases hw <;> exact ⟨rfl, rfl⟩

/-- No statement of a call resets a row. -/
theorem Write.ne_reset {db db' : Db} {h : Handler} {input : HandlerInput}
    {event : Option (Uuid × JobEvent)} (hw : Write db h input db' event) {j : Uuid} :
    event ≠ some (j, .reset) := by
  cases hw <;> grind

/-! ## Invariants of a call -/

/-- The results a phase carries are verdicts. -/
def CarriesVerdict : Phase → Prop
  | .collecting _ result | .joining _ result =>
      ∀ args, storedArgs result = some args → args.status.isTerminal = true
  | .finishing _ args _ => args.status.isTerminal = true
  | _ => True

/-- What holds of a call at any time, `tokens` being those issued so far. -/
structure Sound (tokens : List Uuid) (h : Handler) : Prop where
  job : ∀ j, h.phase.jobId = some j → h.payload = .message ⟨j⟩
  leaseJob : ∀ l, h.lease = some l → h.payload = .message ⟨l.jobId⟩
  issued : ∀ l, h.lease = some l → l.lockToken ∈ tokens
  unleased : h.phase.beforeStart = true → h.lease = none
  verdict : CarriesVerdict h.phase

/-- A call and its heartbeat work on one job. -/
theorem Sound.same_job {tokens : List Uuid} {h : Handler} (hs : h.Sound tokens)
    {l : Lease} (hl : h.lease = some l) {j : Uuid} (hj : h.phase.jobId = some j) :
    l.jobId = j := by
  have hboth := (hs.leaseJob l hl).symm.trans (hs.job j hj)
  simpa using hboth

theorem receive_sound (tokens : List Uuid) (workerId : String) (payload : Payload) :
    (receive workerId payload).Sound tokens := by
  refine ⟨?_, nofun, nofun, fun _ => rfl, ?_⟩
  · intro j hj
    cases payload with
    | absent => cases hj
    | invalid err => cases hj
    | message msg => cases hj; rfl
  · cases payload <;> trivial

/-- What is stored for a result of `run_rust` is a verdict. -/
theorem storedArgs_isTerminal {jobId : Uuid} {calls : RunCalls}
    {result : Except RunError RunResponse} {args : FinishArgs}
    (hrun : EditorBack.runRust jobId calls = some result)
    (hargs : storedArgs result = some args) : args.status.isTerminal = true := by
  obtain ⟨result', hrun', hverdict⟩ := runRust_verdict jobId calls
  rw [hrun] at hrun'
  cases hrun'
  unfold storedArgs at hargs
  split at hargs
  · cases hargs
    exact hverdict
  · cases hargs
    rfl
  · cases hargs

/-- A call that goes on to a phase of its own job keeps its invariants. -/
theorem Sound.goto {tokens : List Uuid} {h : Handler} (hs : h.Sound tokens) {phase : Phase}
    (hjob : ∀ j, phase.jobId = some j → h.phase.jobId = some j)
    (hbefore : phase.beforeStart = true → h.phase.beforeStart = true)
    (hverdict : CarriesVerdict phase) : (h.goto phase).Sound tokens :=
  ⟨fun j hj => hs.job j (hjob j hj), hs.leaseJob, hs.issued,
    fun hb => hs.unleased (hbefore hb), hverdict⟩

/-- Changes to the flags of a lease keep a call's invariants. -/
theorem Sound.withLease {tokens : List Uuid} {h : Handler} (hs : h.Sound tokens)
    {l l' : Lease} (hl : h.lease = some l) (hjob : l'.jobId = l.jobId)
    (htoken : l'.lockToken = l.lockToken) : (h.withLease l').Sound tokens := by
  refine ⟨hs.job, ?_, ?_, ?_, hs.verdict⟩
  · intro l₁ h₁
    cases h₁
    rw [hjob]
    exact hs.leaseJob l hl
  · intro l₁ h₁
    cases h₁
    rw [htoken]
    exact hs.issued l hl
  · intro hb
    have hnone := hs.unleased hb
    rw [hl] at hnone
    cases hnone

/-- Issuing further tokens keeps a call's invariants. -/
theorem Sound.mono {tokens tokens' : List Uuid} {h : Handler} (hs : h.Sound tokens)
    (hsub : ∀ t ∈ tokens, t ∈ tokens') : h.Sound tokens' :=
  ⟨hs.job, hs.leaseJob, fun l hl => hsub _ (hs.issued l hl), hs.unleased, hs.verdict⟩

/-- **A step keeps the invariants of its call.** -/
theorem Move.sound {db : Db} {input : HandlerInput} {h h' : Handler} {tokens : List Uuid}
    (hm : Move db input h h') (hs : h.Sound tokens) : h'.Sound (input.tokens ++ tokens) := by
  have hs' : h.Sound (input.tokens ++ tokens) :=
    hs.mono (fun t ht => List.mem_append_right _ ht)
  cases hm with
  | selected hp hget =>
      refine hs'.goto ?_ (by rw [hp]; exact fun _ => rfl) trivial
      intro j hj
      cases hj
      rw [hp, (JobStore.id_of_get hget).1]
      rfl
  | queued hp _ | observed hp =>
      exact hs'.goto (by rw [hp]; exact fun _ hj => hj) (by rw [hp]; exact fun _ => rfl) trivial
  | notFound _ _ | selectFailed _ | queueFailed _ | panicked _ | busy _ _ | startFailed _
  | markFailed _ _ _ | cancelled _ _ _ | stored _ _ _ | storeFailed _ _ =>
      -- the call ends
      exact hs'.goto nofun nofun trivial
  | @granted h token job hp hrow =>
      have hpay : h.payload = .message ⟨job.id⟩ := hs.job job.id (by rw [hp]; rfl)
      refine ⟨?_, ?_, ?_, nofun, trivial⟩
      · intro j hj
        cases hj
        exact hpay
      · intro l hl
        cases hl
        exact hpay
      · intro l hl
        cases hl
        exact List.mem_append_left _ (List.mem_singleton_self token)
  | marked hp hl => exact hs'.goto (by rw [hp]; exact fun _ hj => hj) nofun trivial
  | @unsupported h job lease err hp hl =>
      have hg : (h.goto (.finishing job ⟨.runtimeError, none, some err, none⟩
          (.error (.permanent err)))).Sound (HandlerInput.tokens (.mark .ok) ++ tokens) :=
        hs'.goto (by rw [hp]; exact fun _ hj => hj) nofun rfl
      exact hg.withLease hl rfl rfl
  | ran hp hl hrun =>
      refine hs'.goto (by rw [hp]; exact fun _ hj => hj) nofun ?_
      intro args hargs
      exact storedArgs_isTerminal hrun hargs
  | @beatFailed h job result lease err err' hp hl _ =>
      have hg : (h.retry err').Sound (HandlerInput.tokens .collect ++ tokens) :=
        hs'.goto nofun nofun trivial
      exact hg.withLease hl rfl rfl
  | @collected h job result lease hp hl =>
      have hv := hs'.verdict
      rw [hp] at hv
      have hg : (h.goto (.joining job result)).Sound (HandlerInput.tokens .collect ++ tokens) :=
        hs'.goto (by rw [hp]; exact fun _ hj => hj) nofun hv
      exact hg.withLease hl rfl rfl
  | joined hp hl _ hargs =>
      have hv := hs'.verdict
      rw [hp] at hv
      exact hs'.goto (by rw [hp]; exact fun _ hj => hj) nofun (hv _ hargs)
  | beat hl _ | beatRenewed hl _ | beatLost hl _ | beatError hl _ | beatStopped hl _ _ =>
      exact hs'.withLease hl rfl rfl
  | crashed h =>
      refine ⟨?_, ?_, ?_, ?_, ?_⟩
      · intro j hj
        dsimp only at hj
        split at hj
        · cases hj
        · exact hs'.job j hj
      · intro l hl
        obtain ⟨l₀, hl₀, rfl⟩ := Option.map_eq_some_iff.mp hl
        exact hs'.leaseJob l₀ hl₀
      · intro l hl
        obtain ⟨l₀, hl₀, rfl⟩ := Option.map_eq_some_iff.mp hl
        exact hs'.issued l₀ hl₀
      · intro hb
        dsimp only at hb ⊢
        split at hb
        · cases hb
        · rw [hs'.unleased hb]
          rfl
      · dsimp only
        split
        · trivial
        · exact hs'.verdict

end Handler

end EditorBack
