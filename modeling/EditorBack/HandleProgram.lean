import EditorBack.CallTree
import EditorBack.SystemMoves

/-!
# `handle_message` as a program

`HandleMessage` has one call of `handle_message` as a state machine, cut at its
statements so that the other processes may come in between.  Here it is a program
again, in the order of the source.

`Handler.rest` says what each phase stands for: the rest of the program.  The
machine is faithful to it (`calls_follow_program`): in every run of the system, the
calls that a `handle_message` has made so far, with their answers, are those of its
program, and when it has returned or panicked, the program ends with these answers
in the same way.
-/

namespace EditorBack

open CallTree
open CallTree.Prog (Run Reaches)

/-- The calls of `handle_message`. -/
inductive HandleCall
  /-- the `SELECT` of `get_and_queued` -/
  | selectJob (id : Uuid)
  | updateStatus (id : Uuid) (status : RunStatus)
  /-- `Utc::now()` -/
  | utcNow
  | tryStart (id : Uuid) (workerId : String)
  /-- `tokio::spawn` of the heartbeat loop -/
  | spawnHeartbeat (id lockToken : Uuid)
  | runRust (id : Uuid) (code : String)
  /-- `heartbeat.abort()` -/
  | abortHeartbeat
  /-- `heartbeat_err.lock().await.take()` -/
  | takeHeartbeatErr
  /-- `heartbeat_cancel.cancel()` -/
  | cancelHeartbeat
  /-- `heartbeat.await` -/
  | joinHeartbeat
  | finish (id : Uuid) (args : FinishArgs) (lockToken : Uuid)

@[reducible] def HandleCall.Answer : HandleCall → Type
  | .selectJob _ => Except String (Option Job)
  | .updateStatus _ _ => Except String Unit
  | .utcNow => Time
  | .tryStart _ _ => Except String (Option Uuid)
  | .runRust _ _ => Except RunError RunResponse
  | .takeHeartbeatErr => Option String
  | .finish _ _ _ => Except String Bool
  | .spawnHeartbeat _ _ | .abortHeartbeat | .cancelHeartbeat | .joinHeartbeat => Unit

abbrev HandleProg := Prog HandleCall HandleCall.Answer
abbrev HandleEvent := Event HandleCall HandleCall.Answer

namespace HandleMessage

def ask (c : HandleCall) : HandleProg c.Answer :=
  Prog.perform c

/-- `return Err(ProcessError::Retryable(..))` -/
def retry (err : String) : HandleProg (Except ProcessError Unit) :=
  pure (.error (.retryable err))

/-- `finish(..).await.map_err(ProcessError::Retryable)?`, and then the answer. -/
def store (job : Job) (args : FinishArgs) (lockToken : Uuid)
    (answer : Except ProcessError Unit) : HandleProg (Except ProcessError Unit) := do
  let stored : Except String Bool ← ask (.finish job.id args lockToken)
  match stored with
  | .error err => retry err
  | .ok _ => pure answer

/-- The `match` on the result of the execution. -/
def conclude (job : Job) (lockToken : Uuid) (result : Except RunError RunResponse) :
    HandleProg (Except ProcessError Unit) :=
  match result with
  | .ok res =>
      store job ⟨res.status, some res.stdout, some res.stderr, some res.exitCode⟩ lockToken
        (.ok ())
  | .error .cancelled => retry "job lease lost"
  | .error (.other err) => store job ⟨.runtimeError, none, some err, none⟩ lockToken (.ok ())

/-- `heartbeat.await` and what follows. -/
def join (job : Job) (lockToken : Uuid) (result : Except RunError RunResponse) :
    HandleProg (Except ProcessError Unit) := do
  let _ ← ask .joinHeartbeat
  conclude job lockToken result

/-- From the error slot of the heartbeat on. -/
def collect (job : Job) (lockToken : Uuid) (result : Except RunError RunResponse) :
    HandleProg (Except ProcessError Unit) := do
  let heartbeatErr : Option String ← ask .takeHeartbeatErr
  match heartbeatErr with
  | some err => retry ("heartbeat database error: " ++ err)
  | none =>
    let _ ← ask .cancelHeartbeat
    join job lockToken result

/-- The arm `"rust"`, and what follows the `match`. -/
def execute (job : Job) (lockToken : Uuid) : HandleProg (Except ProcessError Unit) := do
  let result : Except RunError RunResponse ← ask (.runRust job.id job.code)
  collect job lockToken result

/-- The arm of the other languages. -/
def refuse (job : Job) (lockToken : Uuid) : HandleProg (Except ProcessError Unit) := do
  let _ ← ask .abortHeartbeat
  store job ⟨.runtimeError, none, some ("unsupported lang:" ++ job.language), none⟩ lockToken
    (.error (.permanent ("unsupported lang:" ++ job.language)))

/-- From `update_status(Running)` on. -/
def mark (job : Job) (lockToken : Uuid) : HandleProg (Except ProcessError Unit) := do
  let marked : Except String Unit ← ask (.updateStatus job.id .running)
  match marked with
  | .error err => retry err
  | .ok () => if job.language = "rust" then execute job lockToken else refuse job lockToken

/-- From `try_start` on. -/
def start (workerId : String) (job : Job) : HandleProg (Except ProcessError Unit) := do
  let started : Except String (Option Uuid) ← ask (.tryStart job.id workerId)
  match started with
  | .error err => retry err
  | .ok none => pure (.ok ())
  | .ok (some lockToken) =>
    let _ ← ask (.spawnHeartbeat job.id lockToken)
    mark job lockToken

/-- The queue latency: `unwrap` and `expect` may panic. -/
def observe (workerId : String) (job : Job) : HandleProg (Except ProcessError Unit) := do
  let utcNow : Time ← ask .utcNow
  match job.createdAt with
  | none => .panic
  | some createdAt => if utcNow < createdAt then .panic else start workerId job

/-- `get_and_queued` behind its `SELECT`. -/
def queue (job : Job) : HandleProg (Except String (Option Job)) := do
  let queued : Except String Unit ← ask (.updateStatus job.id .queued)
  match queued with
  | .error err => pure (.error err)
  | .ok () => pure (.ok (some job))

/-- `get_and_queued`. -/
def getAndQueued (id : Uuid) : HandleProg (Except String (Option Job)) := do
  let row : Except String (Option Job) ← ask (.selectJob id)
  match row with
  | .error err => pure (.error err)
  | .ok none => pure (.ok none)
  | .ok (some job) => queue job

/-- `handle_message` behind `get_and_queued`. -/
def handleJob (workerId : String) (id : Uuid) (got : Except String (Option Job)) :
    HandleProg (Except ProcessError Unit) :=
  match got with
  | .error err => retry err
  | .ok none => pure (.error (.permanent ("job " ++ id.hyphenated ++ " not found")))
  | .ok (some job) => observe workerId job

end HandleMessage

open HandleMessage (getAndQueued handleJob)

/-- `handle_message`, on a payload as it is decoded. -/
def handleMessage (workerId : String) (payload : Payload) :
    HandleProg (Except ProcessError Unit) :=
  match payload with
  | .absent => pure (.error (.permanent "no payload"))
  | .invalid err => pure (.error (.permanent ("invalid job message: " ++ err)))
  | .message msg => do
    let got ← getAndQueued msg.jobId
    handleJob workerId msg.jobId got

namespace Handler

/-- The token of the lease a call has. -/
def lockToken (h : Handler) : Uuid :=
  (h.lease.map Lease.lockToken).getD 0

/-- What is left of the program in each phase. -/
def rest (h : Handler) : HandleProg (Except ProcessError Unit) :=
  match h.phase with
  | .selecting id => getAndQueued id >>= handleJob h.workerId id
  | .queuing job => HandleMessage.queue job >>= handleJob h.workerId job.id
  | .observing job => HandleMessage.observe h.workerId job
  | .starting job => HandleMessage.start h.workerId job
  | .marking job => HandleMessage.mark job h.lockToken
  | .running job => HandleMessage.execute job h.lockToken
  | .collecting job result => HandleMessage.collect job h.lockToken result
  | .joining job result => HandleMessage.join job h.lockToken result
  | .finishing job args answer => HandleMessage.store job args h.lockToken answer
  | .returned result => pure result
  | .panicked | .crashed => .panic

/-- The calls a step makes, with their answers.  The heartbeat task makes its own. -/
def calls (input : HandlerInput) (db : Db) (h : Handler) : List HandleEvent :=
  match input, h.phase with
  | .select reply, .selecting id =>
      [⟨.selectJob id, (reply.call db (db, .ok (JobStore.get id db))).2⟩]
  | .queue reply, .queuing job =>
      [⟨.updateStatus job.id .queued,
        (reply.call db (JobStore.updateStatus job.id .queued db)).2⟩]
  | .observe utcNow, .observing _ => [⟨.utcNow, utcNow⟩]
  | .tryStart reply token, .starting job =>
      let started := (reply.call db (JobStore.tryStart job.id h.workerId token db)).2
      ⟨.tryStart job.id h.workerId, started⟩ ::
        match started with
        | .ok (some lockToken) => [⟨.spawnHeartbeat job.id lockToken, ()⟩]
        | _ => []
  | .mark reply, .marking job =>
      let marked := (reply.call db (JobStore.updateStatus job.id .running db)).2
      ⟨.updateStatus job.id .running, marked⟩ ::
        match marked with
        | .ok () => if job.language = "rust" then [] else [⟨.abortHeartbeat, ()⟩]
        | .error _ => []
  | .runRust calls, .running job =>
      match EditorBack.runRust job.id calls with
      | some result => [⟨.runRust job.id job.code, result⟩]
      | none => []
  | .collect, .collecting _ _ =>
      match h.lease.bind Lease.heartbeatErr with
      | some err => [⟨.takeHeartbeatErr, some err⟩]
      | none => [⟨.takeHeartbeatErr, none⟩, ⟨.cancelHeartbeat, ()⟩]
  | .join, .joining _ _ => [⟨.joinHeartbeat, ()⟩]
  | .finish reply, .finishing job args _ =>
      [⟨.finish job.id args h.lockToken,
        (reply.call db (JobStore.finish job.id args h.lockToken db)).2⟩]
  | _, _ => []

section Steps

variable {db : Db} {h : Handler} {eff : HandlerEffect}

-- both are read off the phase, which each step below fixes
attribute [local simp] rest calls

private theorem rest_select {reply : Reply} (he : h.select reply db = some eff) :
    Reaches h.rest (h.calls (.select reply) db) eff.handler.rest := by
  unfold select at he
  split at he
  · next id hp =>
      cases he
      simp only [rest, calls, hp]
      cases reply with
      | ok =>
          dsimp only [Reply.call]
          cases hget : JobStore.get id db with
          | none => exact .call (.nil _)
          | some job =>
              have hid := (JobStore.id_of_get hget).1
              subst hid
              exact .call (.nil _)
      | failed err => exact .call (.nil _)
      | lost err => exact .call (.nil _)
  · cases he

private theorem rest_queue {reply : Reply} (he : h.queue reply db = some eff) :
    Reaches h.rest (h.calls (.queue reply) db) eff.handler.rest := by
  unfold queue at he
  split at he
  · next job hp =>
      cases he
      simp only [rest, calls, hp]
      generalize (reply.call db (JobStore.updateStatus job.id .queued db)).2 = queued
      cases queued <;> exact .call (.nil _)
  · cases he

private theorem rest_observe {utcNow : Time} (he : h.observe utcNow db = some eff) :
    Reaches h.rest (h.calls (.observe utcNow) db) eff.handler.rest := by
  unfold observe at he
  split at he
  · next job hp =>
      cases he
      simp only [rest, calls, hp]
      cases hcreated : job.createdAt with
      | none =>
          simp only [HandleMessage.observe, hcreated]
          exact .call (.nil _)
      | some createdAt =>
          simp only [HandleMessage.observe, hcreated, goto]
          by_cases hlt : utcNow < createdAt
          · rw [if_pos hlt]
            exact .call (.of_eq (if_pos hlt))
          · rw [if_neg hlt]
            exact .call (.of_eq (if_neg hlt))
  · cases he

private theorem rest_tryStart {reply : Reply} {token : Uuid}
    (he : h.tryStart reply token db = some eff) :
    Reaches h.rest (h.calls (.tryStart reply token) db) eff.handler.rest := by
  unfold tryStart at he
  split at he
  · next job hp =>
      cases he
      simp only [rest, calls, hp]
      generalize (reply.call db (JobStore.tryStart job.id h.workerId token db)).2 = started
      rcases started with err | _ | lockToken
      · exact .call (.nil _)
      · exact .call (.nil _)
      · exact .call (.call (.nil _))
  · cases he

private theorem rest_mark {reply : Reply} (he : h.mark reply db = some eff) :
    Reaches h.rest (h.calls (.mark reply) db) eff.handler.rest := by
  unfold mark at he
  split at he
  · next job lease hp hl =>
      cases he
      have htoken : h.lockToken = lease.lockToken := by simp [lockToken, hl]
      simp only [rest, calls, hp]
      generalize (reply.call db (JobStore.updateStatus job.id .running db)).2 = marked
      rcases marked with err | _
      · exact .call (.nil _)
      · by_cases hrust : job.language = "rust"
        · simp only [if_pos hrust]
          exact .call (.of_eq (if_pos hrust))
        · simp only [if_neg hrust]
          rw [htoken]
          refine .call (Reaches.trans (.of_eq (if_neg hrust)) ?_)
          exact .call (.nil _)
  · cases he

private theorem rest_runRust {runCalls : RunCalls} (he : h.runRust runCalls db = some eff) :
    Reaches h.rest (h.calls (.runRust runCalls) db) eff.handler.rest := by
  unfold runRust at he
  split at he
  · next job lease hp hl =>
      split at he
      · cases he
      · cases he
        obtain ⟨result, hrun, _⟩ := runRust_verdict job.id runCalls
        simp only [rest, calls, hp, hrun]
        exact .call (.nil _)
  · cases he

private theorem rest_collect (he : h.collect db = some eff) :
    Reaches h.rest (h.calls .collect db) eff.handler.rest := by
  unfold collect at he
  split at he
  · next job result lease hp hl =>
      cases he
      cases herr : lease.heartbeatErr with
      | some err =>
          simp only [rest, calls, hp, hl, Option.bind_some, herr]
          exact .call (.nil _)
      | none =>
          have htoken : h.lockToken = lease.lockToken := by simp [lockToken, hl]
          simp only [rest, calls, hp, hl, Option.bind_some, herr, htoken]
          exact .call (.call (.nil _))
  · cases he

private theorem rest_join (he : h.join db = some eff) :
    Reaches h.rest (h.calls .join db) eff.handler.rest := by
  unfold join at he
  split at he
  · next job result lease hp hl =>
      split at he
      · cases he
        simp only [rest, calls, hp]
        rcases result with err | res
        · cases err <;> exact .call (.nil _)
        · exact .call (.nil _)
      · cases he
  · cases he

private theorem rest_finish {reply : Reply} (he : h.finish reply db = some eff) :
    Reaches h.rest (h.calls (.finish reply) db) eff.handler.rest := by
  unfold finish at he
  split at he
  · next job args answer lease hp hl =>
      have htoken : lease.lockToken = h.lockToken := by simp [lockToken, hl]
      rw [htoken] at he
      cases he
      simp only [rest, calls, hp]
      generalize (reply.call db (JobStore.finish job.id args h.lockToken db)).2 = stored
      cases stored <;> exact .call (.nil _)
  · cases he

/-- The heartbeat task leaves the rest of the program as it is. -/
theorem rest_withLease {lease lease' : Lease} (hl : h.lease = some lease)
    (htoken : lease'.lockToken = lease.lockToken) : (h.withLease lease').rest = h.rest := by
  have hsame : (h.withLease lease').lockToken = h.lockToken := by
    simp [lockToken, withLease, hl, htoken]
  unfold rest
  rw [hsame]
  rfl

/-- The steps of the heartbeat task. -/
private theorem rest_beat {input : HandlerInput} {h' : Handler} (hm : Move db input h h')
    (hbeat : (∃ reply, input = .beat reply) ∨ input = .beatAnswer ∨ input = .beatCancelled) :
    h'.rest = h.rest ∧ h.calls input db = [] := by
  cases hm with
  | beat hl _ | beatRenewed hl _ | beatLost hl _ | beatError hl _ | beatStopped hl _ _ =>
      exact ⟨rest_withLease hl rfl, rfl⟩
  | _ => simp at hbeat

/-- **A step of a call makes the next calls of its program**, unless its worker dies. -/
theorem rest_step {input : HandlerInput} (he : h.step input db = some eff)
    (hcrash : input ≠ .crash) : Reaches h.rest (h.calls input db) eff.handler.rest := by
  have hbeat : (∃ reply, input = .beat reply) ∨ input = .beatAnswer ∨ input = .beatCancelled →
      Reaches h.rest (h.calls input db) eff.handler.rest := by
    intro hbeat
    obtain ⟨hrest, hcalls⟩ := rest_beat (step_move he) hbeat
    rw [hcalls]
    exact .of_eq hrest.symm
  cases input with
  | select reply => exact rest_select he
  | queue reply => exact rest_queue he
  | observe utcNow => exact rest_observe he
  | tryStart reply token => exact rest_tryStart he
  | mark reply => exact rest_mark he
  | runRust runCalls => exact rest_runRust he
  | collect => exact rest_collect he
  | join => exact rest_join he
  | finish reply => exact rest_finish he
  | beat reply => exact hbeat (Or.inl ⟨reply, rfl⟩)
  | beatAnswer => exact hbeat (Or.inr (Or.inl rfl))
  | beatCancelled => exact hbeat (Or.inr (Or.inr rfl))
  | crash => exact absurd rfl hcrash

/-- A call whose worker has died makes no calls any more. -/
theorem Move.stays_crashed {input : HandlerInput} {h' : Handler} (hm : Move db input h h')
    (hcrashed : h.phase = .crashed) : h'.phase = .crashed ∧ h.calls input db = [] := by
  have hcalls : h.calls input db = [] := by
    cases input <;> simp [hcrashed]
  refine ⟨?_, hcalls⟩
  cases hm with
  | beat _ _ | beatRenewed _ _ | beatLost _ _ | beatError _ _ | beatStopped _ _ _ => exact hcrashed
  | crashed h => simp [hcrashed]
  | _ => simp_all

/-- The call has made the calls of its program, and stands where they lead. -/
structure Follows (h : Handler) (log : List HandleEvent) : Prop where
  made : ∃ p, Reaches (handleMessage h.workerId h.payload) log p
  stands : h.phase ≠ .crashed → Reaches (handleMessage h.workerId h.payload) log h.rest

theorem receive_follows (workerId : String) (payload : Payload) :
    (receive workerId payload).Follows [] := by
  have hrest : handleMessage workerId payload = (receive workerId payload).rest := by
    cases payload <;> rfl
  exact ⟨⟨_, .nil _⟩, fun _ => .of_eq hrest⟩

/-- **A call follows its program.** -/
theorem Follows.step {input : HandlerInput} {log : List HandleEvent} (hs : h.Follows log)
    (he : h.step input db = some eff) : eff.handler.Follows (log ++ h.calls input db) := by
  have hm := step_move he
  by_cases hcrashed : h.phase = .crashed
  · obtain ⟨hphase, hcalls⟩ := hm.stays_crashed hcrashed
    rw [hcalls, List.append_nil]
    exact ⟨by rw [hm.workerId, hm.payload]; exact hs.made, fun hnot => absurd hphase hnot⟩
  · have hstands := hs.stands hcrashed
    by_cases hcrash : input = .crash
    · subst hcrash
      have hcalls : h.calls .crash db = [] := by
        simp
      rw [hcalls, List.append_nil]
      refine ⟨by rw [hm.workerId, hm.payload]; exact hs.made, ?_⟩
      intro hnot
      cases he
      -- only a call that is over is left by a crash
      cases hp : h.phase with
      | returned result =>
          simp only [rest, hp] at hstands
          simpa [hp, Phase.jobId] using hstands
      | panicked =>
          simp only [rest, hp] at hstands
          simpa [hp, Phase.jobId] using hstands
      | _ => simp [hp, Phase.jobId] at hnot
    · have hrest := hstands.trans (rest_step he hcrash)
      rw [← hm.workerId, ← hm.payload] at hrest
      exact ⟨⟨_, hrest⟩, fun _ => hrest⟩

end Steps

end Handler

namespace World

/-- The calls that `handle_message` call `i` makes in a step of the system, newest first. -/
def callsOf (i : Nat) (s : World) : Action → List HandleEvent
  | .handler k input =>
      match s.handlers[k]? with
      | some h => if k = i then (h.calls input s.db).reverse else []
      | none => []
  | _ => []

/-- Call `i` follows its program, once it is there. -/
structure CallFollows (i : Nat) (s : World) (log : List HandleEvent) : Prop where
  absent : s.handlers[i]? = none → log = []
  follows : ∀ h, s.handlers[i]? = some h → h.Follows log.reverse

section Steps

variable {i : Nat} {s s' : World} {log : List HandleEvent}

theorem callFollows_step {a : Action} (hs : s.CallFollows i log) (hstep : s.step a = some s') :
    s'.CallFollows i (s.callsOf i a ++ log) := by
  cases a with
  | handler k input =>
      simp only [step, stepHandler] at hstep
      split at hstep
      · cases hstep
      · obtain ⟨h, hk, hstep⟩ := Option.bind_eq_some_iff.mp hstep
        obtain ⟨eff, heff, rfl⟩ := Option.map_eq_some_iff.mp hstep
        by_cases hki : k = i
        · subst hki
          have hcalls : s.callsOf k (.handler k input) = (h.calls input s.db).reverse := by
            simp [callsOf, hk]
          rw [hcalls]
          have hlength := (List.getElem?_eq_some_iff.mp hk).1
          refine ⟨?_, ?_⟩
          · intro hnone
            simp [List.getElem?_set_self hlength] at hnone
          · intro h' hh'
            dsimp only at hh'
            rw [List.getElem?_set_self hlength] at hh'
            cases hh'
            rw [List.reverse_append, List.reverse_reverse]
            exact (hs.follows h hk).step heff
        · have hcalls : s.callsOf i (.handler k input) = [] := by
            simp [callsOf, hk, hki]
          rw [hcalls, List.nil_append]
          refine ⟨?_, ?_⟩
          · intro hnone
            exact hs.absent (by simpa [List.getElem?_set_ne hki] using hnone)
          · intro h' hh'
            exact hs.follows h' (by simpa [List.getElem?_set_ne hki] using hh')
  | deliver k workerId again =>
      obtain ⟨payload, _, rfl⟩ := Option.map_eq_some_iff.mp hstep
      refine ⟨?_, ?_⟩
      · intro hnone
        refine hs.absent (List.getElem?_eq_none ?_)
        have hle := List.getElem?_eq_none_iff.mp hnone
        simp only [List.length_append] at hle
        omega
      · intro h' hh'
        rcases Nat.lt_or_ge i s.handlers.length with hlt | hge
        · dsimp only at hh'
          rw [List.getElem?_append_left hlt] at hh'
          exact hs.follows h' hh'
        · have hlog := hs.absent (List.getElem?_eq_none hge)
          dsimp only at hh'
          rw [List.getElem?_append_right hge, List.getElem?_singleton] at hh'
          split at hh'
          · cases hh'
            rw [hlog]
            exact Handler.receive_follows workerId payload
          · cases hh'
  | _ => cases step_move hstep <;> exact ⟨hs.absent, hs.follows⟩

end Steps

/-- **The state machine is the program.**  In every run of the system, the calls that a
`handle_message` has made so far, with their answers, are calls of its program; when it
has returned, the program returns the same after them, and when it has panicked, so
does the program. -/
theorem calls_follow_program (now : Time) (i : Nat) (as : List Action) :
    Runs.HoldsAlong (Runs.logged step (callsOf i))
      (fun p => ∀ h, p.1.handlers[i]? = some h →
        (∃ q, Reaches (handleMessage h.workerId h.payload) p.2.reverse q) ∧
        (∀ result, h.phase = .returned result →
          Run (handleMessage h.workerId h.payload) p.2.reverse (some result)) ∧
        (h.phase = .panicked → Run (handleMessage h.workerId h.payload) p.2.reverse none))
      (empty now, []) as := by
  have hstart : (empty now).CallFollows i [] :=
    ⟨fun _ => rfl, fun h hh => by simp [empty] at hh⟩
  have hinv : Runs.HoldsAlong (Runs.logged step (callsOf i)) (fun p => p.1.CallFollows i p.2)
      (empty now, []) as := by
    refine Runs.logged_holdsAlong ?_ hstart as
    intro s log a s' hs hstep
    exact callFollows_step hs hstep
  refine hinv.mono ?_
  intro p hp h hh
  have hfollows := hp.follows h hh
  refine ⟨hfollows.made, ?_, ?_⟩
  · intro result hphase
    have hstands := hfollows.stands (by rw [hphase]; simp)
    simp only [Handler.rest, hphase] at hstands
    exact hstands.returned
  · intro hphase
    have hstands := hfollows.stands (by rw [hphase]; simp)
    simp only [Handler.rest, hphase] at hstands
    exact hstands.panicked

end World

end EditorBack
