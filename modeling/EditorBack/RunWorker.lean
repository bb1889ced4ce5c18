import EditorBack.ConsumerLoop
import EditorBack.HandleMessage

/-!
# A worker and its consumer task

`run_worker` spawns the consumer as a task of its own, waits for the shutdown
signal, and looks at what has become of the task only then.  Inside the task
every `?` ends the loop: a failed `subscribe`, a failed clean-up, a commit the
client refuses, and a record for `jobs.dlq` that is not acknowledged.

`RunPhase.next` is the loop of `KafkaConsumer::run` over records from anywhere,
of which the loop over one partition is a case (`Partition.next_of_step`), and
`RunWorker` puts it into its task.  As long as the process waits for its signal
the consumer lives exactly until the first of these calls fails
(`consumer_lives_iff`), and once it is dead it takes no record any more while
the process goes on serving `/health` (`dead_consumer_takes_nothing`).  One of
the calls is bound to fail: nobody creates the topic `jobs.dlq`, so the first
record that cannot be read is the last one taken (`unreadable_ends_consumer`).
-/

namespace EditorBack

/-! ## The loop over any records -/

/-- What the environment decides in one step of the loop. -/
inductive LoopInput
  | receive (message : Message)
  | receiveError
  /-- the shutdown signal, or the end of the stream -/
  | stop
  | handle (result : Except ProcessError Unit)
  | deadLetter (reply : SendReply)
  | commit (result : Except String Unit)

/-- The record the loop receives. -/
def LoopInput.received : LoopInput → List Message
  | .receive message => [message]
  | _ => []

/-- One step of the loop of `KafkaConsumer::run`. -/
def RunPhase.next : RunPhase → LoopInput → Option RunPhase
  | .polling, .receive message => some (.handling message)
  | .polling, .receiveError => some .polling
  | .polling, .stop => some (.returned (.ok ()))
  | .handling message, .handle result =>
      some (match result with
        | .ok () => .committing message
        | .error (.permanent err) => .deadLettering message (.permanent err)
        | .error (.retryable _) => .polling)
  | .deadLettering message _, .deadLetter reply =>
      some (match reply with
        | .acked => .committing message
        | .refused err | .unacked err =>
            .returned (.error ("failed to send message to DLQ: " ++ err)))
  | .committing _, .commit result =>
      some (match result with
        | .ok () => .polling
        | .error err => .returned (.error ("Kafka commit failed: " ++ err)))
  | _, _ => none

/-- The input of the loop in a step of a partition's consumer. -/
def Partition.input (s : Partition) : RunAction → Option LoopInput
  | .receive =>
      (s.log[s.position]?).map fun payload =>
        .receive ⟨payload, s.topic, s.partition, s.position⟩
  | .receiveError => some .receiveError
  | .shutdown => some .stop
  | .handle result => some (.handle result)
  | .deadLetter reply => some (.deadLetter reply)
  | .commit result => some (.commit result)
  | .produce _ | .start _ | .carryOut _ | .crash => none

/-- The consumer of one partition moves as the loop does. -/
theorem Partition.next_of_step {s s' : Partition} {a : RunAction} {input : LoopInput}
    (h : s.step a = some s') (hinput : s.input a = some input) :
    s.phase.next input = some s'.phase := by
  cases a with
  | receive =>
      obtain ⟨payload, hpayload, rfl⟩ := Option.map_eq_some_iff.mp hinput
      simp only [step, receive] at h
      split at h
      · next hphase =>
          rw [hpayload] at h
          cases h
          rw [hphase]
          rfl
      · cases h
  | receiveError =>
      cases hinput
      simp only [step, receiveError] at h
      split at h
      · next hphase =>
          cases h
          rw [hphase]
          rfl
      · cases h
  | shutdown =>
      cases hinput
      simp only [step, shutdown] at h
      split at h
      · next hphase =>
          cases h
          rw [hphase]
          rfl
      · cases h
  | handle result =>
      cases hinput
      simp only [step, handle] at h
      split at h
      · next message hphase =>
          cases h
          rw [hphase]
          rcases result with err | _
          · cases err <;> rfl
          · rfl
      · cases h
  | deadLetter reply =>
      cases hinput
      simp only [step, deadLetter] at h
      split at h
      · next message error hphase =>
          cases h
          rw [hphase]
          cases reply <;> rfl
      · cases h
  | commit result =>
      cases hinput
      simp only [step, commit] at h
      split at h
      · next message hphase =>
          cases h
          rw [hphase]
          cases result <;> rfl
      · cases h
  | produce _ | start _ | carryOut _ | crash => cases hinput

/-- The calls of the loop whose errors are not logged but handed up by `?`. -/
def LoopInput.succeeds : LoopInput → Bool
  | .deadLetter .acked | .commit (.ok ()) => true
  | .deadLetter _ | .commit _ => false
  | _ => true

/-- A loop that nobody stops ends exactly at a failed call. -/
theorem RunPhase.isOver_of_next {p p' : RunPhase} {input : LoopInput}
    (h : p.next input = some p') (hstop : input ≠ .stop) :
    p.isOver = false ∧ p'.isOver = !input.succeeds := by
  unfold RunPhase.next at h
  split at h
  · cases h
    exact ⟨rfl, rfl⟩
  · cases h
    exact ⟨rfl, rfl⟩
  · exact absurd rfl hstop
  · next message result =>
      cases h
      refine ⟨rfl, ?_⟩
      rcases result with err | _
      · cases err <;> rfl
      · rfl
  · next message error reply =>
      cases h
      refine ⟨rfl, ?_⟩
      cases reply <;> rfl
  · next message result =>
      cases h
      refine ⟨rfl, ?_⟩
      cases result <;> rfl
  · cases h

/-! ## The worker -/

/-- How a call ends that may panic. -/
inductive Ended
  | returned (result : Except String Unit)
  | panicked
  deriving DecidableEq

/-- Where the task stands that `run_worker` has spawned for its consumer. -/
inductive ConsumerTask
  | unspawned
  /-- before `consumer.subscribe()?` -/
  | subscribing
  /-- inside `clean_orphan_containers` -/
  | cleaning
  | looping (phase : RunPhase)
  | panicked

/-- The task is over, with a result nobody has asked for yet. -/
def ConsumerTask.isOver : ConsumerTask → Bool
  | .looping phase => phase.isOver
  | .panicked => true
  | _ => false

/-- Where `run_worker` itself stands. -/
inductive MainPhase
  /-- before the tasks are spawned -/
  | starting
  /-- inside `shutdown_signal` -/
  | waiting
  /-- before the end of `consumer_task.await??` -/
  | joining
  | returned (result : Except String Unit)

/-- A worker process, and the topics of its broker. -/
structure RunWorker where
  main : MainPhase
  task : ConsumerTask
  /-- the token `shutdown` is cancelled -/
  signalled : Bool
  streamEnded : Bool
  topics : List String
  /-- the records the loop has taken, newest first -/
  taken : List Message

inductive WorkerAction
  /-- the calls of `run_worker` before its tasks are spawned -/
  | startUp (result : Except String Unit)
  | subscribe (result : Except String Unit)
  | cleanUp (outcome : Ended)
  | loop (input : LoopInput)
  /-- `handle_message` panics -/
  | panic
  | streamEnd
  | signal
  | join
  /-- somebody else creates a topic -/
  | createTopic (name : String)

section Payloads

variable (decode : List UInt8 → Except String JobMessage)

/-- The payload of a record, as `handle_message` reads it. -/
def Message.read (message : Message) : Payload :=
  match message.payload with
  | none => .absent
  | some bytes =>
      match decode bytes with
      | .ok msg => .message msg
      | .error err => .invalid err

/-- A call of `handle_message` that has ended on the payload alone has no other
result, and does not panic. -/
def Message.admits (workerId : String) (message : Message)
    (result : Option (Except ProcessError Unit)) : Prop :=
  match (Handler.receive workerId (message.read decode)).phase with
  | .returned answer => result = some answer
  | _ => True

instance (workerId : String) (message : Message) (result : Option (Except ProcessError Unit)) :
    Decidable (message.admits decode workerId result) := by
  unfold Message.admits
  split <;> infer_instance

end Payloads

namespace RunWorker

/-- A worker before its first call: `create_app` has made sure of `judge.jobs`,
and the broker creates no topic by itself. -/
def start : RunWorker where
  main := .starting
  task := .unspawned
  signalled := false
  streamEnded := false
  topics := ["judge.jobs"]
  taken := []

section Steps

variable (decode : List UInt8 → Except String JobMessage) (workerId : String)

/-- What the loop can meet.  The `select!` is biased to the shutdown signal, and
the broker acknowledges nothing on a topic it does not have.  A poll of the `select!` is
taken to be atomic with respect to `cancel()`: no signal falls between its look at the
token and its look at the stream. -/
def Permits (s : RunWorker) : RunPhase → LoopInput → Prop
  | _, .receive _ | _, .receiveError => s.signalled = false
  | _, .stop => s.signalled = true
  | .handling message, .handle result => message.admits decode workerId (some result)
  | _, .deadLetter .acked => "jobs.dlq" ∈ s.topics
  | _, _ => True

instance (s : RunWorker) (phase : RunPhase) (input : LoopInput) :
    Decidable (s.Permits decode workerId phase input) := by
  unfold Permits
  split <;> infer_instance

def goto (task : ConsumerTask) (s : RunWorker) : RunWorker :=
  { s with task := task }

def stepStartUp (result : Except String Unit) (s : RunWorker) : Option RunWorker :=
  match s.main with
  | .starting =>
      some (match result with
        | .ok () => { s with main := .waiting, task := .subscribing }
        | .error err => { s with main := .returned (.error err) })
  | _ => none

/-- `consumer.subscribe()?` -/
def stepSubscribe (result : Except String Unit) (s : RunWorker) : Option RunWorker :=
  match s.task with
  | .subscribing =>
      some (match result with
        | .ok () => s.goto .cleaning
        | .error err => s.goto (.looping (.returned (.error err))))
  | _ => none

/-- `self.runner.clean_orphan_containers(&self.jobs).await?` -/
def stepCleanUp (outcome : Ended) (s : RunWorker) : Option RunWorker :=
  match s.task with
  | .cleaning =>
      some (match outcome with
        | .returned (.ok ()) => s.goto (.looping .polling)
        | .returned (.error err) => s.goto (.looping (.returned (.error err)))
        | .panicked => s.goto .panicked)
  | _ => none

def stepLoop (input : LoopInput) (s : RunWorker) : Option RunWorker :=
  match s.task with
  | .looping phase =>
      if s.Permits decode workerId phase input then
        (phase.next input).map fun phase' =>
          { s with
            task := .looping phase'
            taken := input.received ++ s.taken }
      else none
  | _ => none

def stepPanic (s : RunWorker) : Option RunWorker :=
  match s.task with
  | .looping (.handling message) =>
      if message.admits decode workerId none then some (s.goto .panicked) else none
  | _ => none

def stepStreamEnd (s : RunWorker) : Option RunWorker :=
  match s.task with
  | .looping .polling =>
      if s.signalled then none
      else some { s with task := .looping (.returned (.ok ())), streamEnded := true }
  | _ => none

def stepSignal (s : RunWorker) : Option RunWorker :=
  match s.main with
  | .waiting => some { s with main := .joining, signalled := true }
  | _ => none

/-- `consumer_task.await??` -/
def stepJoin (s : RunWorker) : Option RunWorker :=
  match s.main, s.task with
  | .joining, .looping (.returned result) => some { s with main := .returned result }
  | .joining, .panicked => some { s with main := .returned (.error "task panicked") }
  | _, _ => none

def step (s : RunWorker) : WorkerAction → Option RunWorker
  | .startUp result => s.stepStartUp result
  | .subscribe result => s.stepSubscribe result
  | .cleanUp outcome => s.stepCleanUp outcome
  | .loop input => s.stepLoop decode workerId input
  | .panic => s.stepPanic decode workerId
  | .streamEnd => s.stepStreamEnd
  | .signal => s.stepSignal
  | .join => s.stepJoin
  | .createTopic name => some { s with topics := name :: s.topics }

end Steps

/-- **No consumer dies silently.**  Up to the shutdown signal and the end of the
stream, the consumer is taking messages or `run_worker` has returned an
error. -/
def ConsumerLives (s : RunWorker) : Prop :=
  s.signalled = false → s.streamEnded = false →
    s.task.isOver = false ∨ ∃ err, s.main = .returned (.error err)

/-- No call fails that the consumer answers for with its life. -/
def NothingFails (s : RunWorker) (a : WorkerAction) (_ : RunWorker) : Prop :=
  s.signalled = false →
    match a with
    | .subscribe result => result = .ok ()
    | .cleanUp outcome => outcome = .returned (.ok ())
    | .loop input => input.succeeds = true
    | .panic => False
    | _ => True

/-- The server for `/health` and `/metrics` runs as long as the process. -/
def servesHealth (s : RunWorker) : Bool :=
  match s.main with
  | .waiting | .joining => true
  | .starting | .returned _ => false

/-- The process against its task. -/
structure Sound (s : RunWorker) : Prop where
  starting : s.main = .starting → s.task = .unspawned
  spawned : s.signalled = false → s.task = .unspawned ∨ s.main = .waiting
  joining : s.main = .joining → s.signalled = true
  ended : s.streamEnded = true → s.task.isOver = true

theorem sound_start : start.Sound :=
  ⟨fun _ => rfl, fun _ => Or.inl rfl, nofun, nofun⟩

section Steps

variable {decode : List UInt8 → Except String JobMessage} {workerId : String}
  {s s' : RunWorker} {a : WorkerAction}

/-- A step of the consumer task: the task was in progress, `run_worker` stays
where it is, and before its signal the task goes on, or comes to the end of its
stream, exactly if nothing fails. -/
structure TaskMove (s : RunWorker) (a : WorkerAction) (s' : RunWorker) : Prop where
  active : s.task.isOver = false
  before : s.task ≠ .unspawned
  after : s'.task ≠ .unspawned
  main : s'.main = s.main
  signalled : s'.signalled = s.signalled
  ended : s'.streamEnded = true → s.streamEnded = true ∨ s'.task.isOver = true
  lives : s.signalled = false → s.streamEnded = false →
    (s'.task.isOver = false ∨ s'.streamEnded = true ↔ NothingFails s a s')

/-- A step of a task in progress that is not the end of the stream. -/
private theorem TaskMove.of_task {task : ConsumerTask} (htask : s.task = task)
    (hactive : task.isOver = false) (hbefore : task ≠ .unspawned)
    (hafter : s'.task ≠ .unspawned) (hmain : s'.main = s.main)
    (hsignalled : s'.signalled = s.signalled) (hstream : s'.streamEnded = s.streamEnded)
    (hlives : s.signalled = false → (s'.task.isOver = false ↔ NothingFails s a s')) :
    TaskMove s a s' := by
  subst htask
  refine ⟨hactive, hbefore, hafter, hmain, hsignalled, ?_, ?_⟩
  · intro hended
    rw [hstream] at hended
    exact Or.inl hended
  · intro hsignal hnot
    rw [hstream, hnot, ← hlives hsignal]
    simp

private theorem taskMove_subscribe {result : Except String Unit}
    (h : s.stepSubscribe result = some s') : TaskMove s (.subscribe result) s' := by
  unfold stepSubscribe at h
  split at h
  · next htask =>
      cases h
      cases result with
      | ok _ =>
          refine .of_task htask rfl nofun nofun rfl rfl rfl ?_
          exact fun _ => iff_of_true rfl fun _ => rfl
      | error err =>
          refine .of_task htask rfl nofun nofun rfl rfl rfl ?_
          exact fun hsignal => iff_of_false nofun fun hok => nomatch hok hsignal
  · cases h

private theorem taskMove_cleanUp {outcome : Ended} (h : s.stepCleanUp outcome = some s') :
    TaskMove s (.cleanUp outcome) s' := by
  unfold stepCleanUp at h
  split at h
  · next htask =>
      cases h
      split
      · refine .of_task htask rfl nofun nofun rfl rfl rfl ?_
        exact fun _ => iff_of_true rfl fun _ => rfl
      · refine .of_task htask rfl nofun nofun rfl rfl rfl ?_
        exact fun hsignal => iff_of_false nofun fun hok => nomatch hok hsignal
      · refine .of_task htask rfl nofun nofun rfl rfl rfl ?_
        exact fun hsignal => iff_of_false nofun fun hok => nomatch hok hsignal
  · cases h

/-- The loop stops at the signal only. -/
private theorem stopped_of_permits {phase : RunPhase}
    (h : s.Permits decode workerId phase .stop) : s.signalled = true := by
  cases phase <;> exact h

private theorem taskMove_loop {input : LoopInput}
    (h : s.stepLoop decode workerId input = some s') : TaskMove s (.loop input) s' := by
  unfold stepLoop at h
  split at h
  · next phase htask =>
      split at h
      · next hpermits =>
          obtain ⟨phase', hnext, rfl⟩ := Option.map_eq_some_iff.mp h
          by_cases hstop : input = .stop
          · subst hstop
            have hactive : phase.isOver = false := by
              cases phase <;> first | rfl | cases hnext
            refine .of_task htask hactive nofun nofun rfl rfl rfl ?_
            intro hnot
            rw [stopped_of_permits hpermits] at hnot
            cases hnot
          · obtain ⟨hactive, hover⟩ := RunPhase.isOver_of_next hnext hstop
            refine .of_task htask hactive nofun nofun rfl rfl rfl ?_
            intro hsignal
            change phase'.isOver = false ↔ (s.signalled = false → input.succeeds = true)
            simp [hover, hsignal]
      · cases h
  · cases h

private theorem taskMove_panic (h : s.stepPanic decode workerId = some s') :
    TaskMove s .panic s' := by
  unfold stepPanic at h
  split at h
  · next message htask =>
      split at h
      · cases h
        refine .of_task htask rfl nofun nofun rfl rfl rfl ?_
        exact fun hsignal => iff_of_false nofun fun hok => hok hsignal
      · cases h
  · cases h

private theorem taskMove_streamEnd (h : s.stepStreamEnd = some s') :
    TaskMove s .streamEnd s' := by
  unfold stepStreamEnd at h
  split at h
  · next htask =>
      split at h
      · cases h
      · cases h
        exact ⟨by rw [htask]; rfl, by rw [htask]; exact nofun, nofun, rfl, rfl,
          fun _ => Or.inr rfl, fun _ _ => iff_of_true (Or.inr rfl) fun _ => trivial⟩
  · cases h

/-- The steps of a worker: of its task, of `run_worker`, and of its broker. -/
inductive Move (s : RunWorker) : WorkerAction → RunWorker → Prop
  | task {a : WorkerAction} {s' : RunWorker} (hm : TaskMove s a s') : Move s a s'
  | startedUp (hmain : s.main = .starting) :
      Move s (.startUp (.ok ())) { s with main := .waiting, task := .subscribing }
  | startFailed (err : String) (hmain : s.main = .starting) :
      Move s (.startUp (.error err)) { s with main := .returned (.error err) }
  | signalled (hmain : s.main = .waiting) :
      Move s .signal { s with main := .joining, signalled := true }
  | joined (result : Except String Unit) (hmain : s.main = .joining) :
      Move s .join { s with main := .returned result }
  | created (name : String) : Move s (.createTopic name) { s with topics := name :: s.topics }

theorem step_move (h : s.step decode workerId a = some s') : Move s a s' := by
  cases a with
  | startUp result =>
      simp only [step, stepStartUp] at h
      split at h
      · next hmain =>
          cases h
          cases result with
          | ok _ => exact .startedUp hmain
          | error err => exact .startFailed err hmain
      · cases h
  | subscribe result => exact .task (taskMove_subscribe h)
  | cleanUp outcome => exact .task (taskMove_cleanUp h)
  | loop input => exact .task (taskMove_loop h)
  | panic => exact .task (taskMove_panic h)
  | streamEnd => exact .task (taskMove_streamEnd h)
  | signal =>
      simp only [step, stepSignal] at h
      split at h
      · next hmain =>
          cases h
          exact .signalled hmain
      · cases h
  | join =>
      simp only [step, stepJoin] at h
      split at h
      · next result hmain _ =>
          cases h
          exact .joined result hmain
      · next hmain _ =>
          cases h
          exact .joined _ hmain
      · cases h
  | createTopic name =>
      cases h
      exact .created name

/-- A worker without a signal waits for it while its task is in progress. -/
theorem Sound.waiting (hs : s.Sound) (hsignal : s.signalled = false)
    (htask : s.task ≠ .unspawned) : s.main = .waiting := by
  rcases hs.spawned hsignal with hnone | hwaiting
  · exact absurd hnone htask
  · exact hwaiting

/-- The process and its task go together at every step. -/
theorem Move.sound (hm : Move s a s') (hs : s.Sound) : s'.Sound := by
  cases hm with
  | task hm =>
      refine ⟨?_, ?_, ?_, ?_⟩
      · intro hstarting
        rw [hm.main] at hstarting
        exact absurd (hs.starting hstarting) hm.before
      · intro hsignal
        rw [hm.signalled] at hsignal
        exact Or.inr (hm.main.trans (hs.waiting hsignal hm.before))
      · intro hjoining
        rw [hm.signalled]
        rw [hm.main] at hjoining
        exact hs.joining hjoining
      · intro hstream
        rcases hm.ended hstream with hold | hover
        · have hactive := hm.active
          rw [hs.ended hold] at hactive
          cases hactive
        · exact hover
  | startedUp hmain =>
      refine ⟨nofun, fun _ => Or.inr rfl, nofun, ?_⟩
      intro hstream
      have hover := hs.ended hstream
      rw [hs.starting hmain] at hover
      cases hover
  | startFailed err hmain => exact ⟨nofun, fun _ => Or.inl (hs.starting hmain), nofun, hs.ended⟩
  | signalled hmain => exact ⟨nofun, nofun, fun _ => rfl, hs.ended⟩
  | joined result hmain =>
      refine ⟨nofun, ?_, nofun, hs.ended⟩
      intro hsignal
      have hcancelled := hs.joining hmain
      rw [hsignal] at hcancelled
      cases hcancelled
  | created name => exact ⟨hs.starting, hs.spawned, hs.joining, hs.ended⟩

/-- A worker whose task is spawned and which waits for its signal reports no
error of the task. -/
private theorem consumerLives_iff_of_waiting (hwaiting : s.main = .waiting)
    (hsignal : s.signalled = false) :
    s.ConsumerLives ↔ s.task.isOver = false ∨ s.streamEnded = true := by
  cases hstream : s.streamEnded <;> simp [ConsumerLives, hwaiting, hsignal, hstream]

/-- **A step lets the consumer die silently exactly if a call fails in it.** -/
theorem Move.consumerLives_iff (hm : Move s a s') (hs : s.Sound) (hlives : s.ConsumerLives) :
    s'.ConsumerLives ↔ NothingFails s a s' := by
  cases hm with
  | task hm =>
      by_cases hsignal : s.signalled = false
      · have hstream : s.streamEnded = false := by
          by_contra hended
          have hactive := hm.active
          rw [hs.ended (by simpa using hended)] at hactive
          cases hactive
        rw [← hm.lives hsignal hstream]
        exact consumerLives_iff_of_waiting (hm.main.trans (hs.waiting hsignal hm.before))
          (hm.signalled.trans hsignal)
      · refine iff_of_true ?_ fun hnot => absurd hnot hsignal
        intro hnot
        rw [hm.signalled] at hnot
        exact absurd hnot hsignal
  | startedUp hmain => exact iff_of_true (fun _ _ => Or.inl rfl) fun _ => trivial
  | startFailed err hmain => exact iff_of_true (fun _ _ => Or.inr ⟨err, rfl⟩) fun _ => trivial
  | signalled hmain => exact iff_of_true nofun fun _ => trivial
  | joined result hmain =>
      refine iff_of_true ?_ fun _ => trivial
      intro hsignal
      have hcancelled := hs.joining hmain
      rw [hsignal] at hcancelled
      cases hcancelled
  | created name => exact iff_of_true hlives fun _ => trivial

end Steps

section Runs

variable (decode : List UInt8 → Except String JobMessage) (workerId : String)

/-- **The consumer lives exactly until the first failure.**  Along any run of a
worker, its consumer is taking messages or `run_worker` has returned an error
up to the signal and the end of the stream, if and only if before the signal
`subscribe`, the clean-up and every commit succeed, every record for `jobs.dlq`
is acknowledged, and nothing panics. -/
theorem consumer_lives_iff (as : List WorkerAction) :
    Runs.HoldsAlong (step decode workerId) ConsumerLives start as ↔
      Runs.StepsMeet (step decode workerId) NothingFails start as := by
  refine Runs.holdsAlong_iff_stepsMeet (fun s a s' hs h => (step_move h).sound hs) ?_
    sound_start ?_ as
  · intro s a s' hs hlives h
    exact (step_move h).consumerLives_iff hs hlives
  · exact fun _ _ => Or.inl rfl

/-- **A dead consumer takes nothing, and the process hides it.**  From any state
in which the task is over, no run takes a further record, and `/health` is
served all the way to the signal. -/
theorem dead_consumer_takes_nothing {s : RunWorker} (hs : s.Sound)
    (hover : s.task.isOver = true) (as : List WorkerAction) :
    Runs.HoldsAlong (step decode workerId)
      (fun t => t.taken = s.taken ∧ (t.signalled = false → t.servesHealth = true)) s as := by
  have hinv : Runs.HoldsAlong (step decode workerId)
      (fun t => t.Sound ∧ t.task.isOver = true ∧ t.taken = s.taken) s as := by
    refine Runs.holdsAlong_of_invariant ?_ ⟨hs, hover, rfl⟩ as
    intro t a t' ht h
    obtain ⟨ht, hover, htaken⟩ := ht
    have hm := step_move h
    refine ⟨hm.sound ht, ?_⟩
    cases hm with
    | task hm =>
        have hactive := hm.active
        rw [hover] at hactive
        cases hactive
    | startedUp hmain =>
        rw [ht.starting hmain] at hover
        cases hover
    | _ => exact ⟨hover, htaken⟩
  refine hinv.mono ?_
  intro t ht
  obtain ⟨ht, hover, htaken⟩ := ht
  refine ⟨htaken, ?_⟩
  intro hsignal
  have hspawned : t.task ≠ .unspawned := by
    intro hnone
    rw [hnone] at hover
    cases hover
  simp [servesHealth, ht.waiting hsignal hspawned]

variable {decode workerId}

/-- A step of a loop in progress. -/
private theorem loop_spec {s s' : RunWorker} {phase : RunPhase} {input : LoopInput}
    (h : s.step decode workerId (.loop input) = some s') (htask : s.task = .looping phase) :
    s.Permits decode workerId phase input ∧ ∃ phase', phase.next input = some phase' ∧
      s' = { s with task := .looping phase', taken := input.received ++ s.taken } := by
  simp only [step, stepLoop, htask] at h
  split at h
  · next hpermits =>
      obtain ⟨phase', hnext, rfl⟩ := Option.map_eq_some_iff.mp h
      exact ⟨hpermits, phase', hnext, rfl⟩
  · cases h

/-- `handle_message` fails permanently for a record it cannot read. -/
private theorem permanent_of_admits {message : Message} {result : Except ProcessError Unit}
    (hread : ∀ msg, message.read decode ≠ .message msg)
    (hadmits : message.admits decode workerId (some result)) :
    ∃ err, result = .error (.permanent err) := by
  cases hpayload : message.read decode with
  | absent =>
      simp only [Message.admits, hpayload, Handler.receive, Option.some_inj] at hadmits
      exact ⟨_, hadmits⟩
  | invalid err =>
      simp only [Message.admits, hpayload, Handler.receive, Option.some_inj] at hadmits
      exact ⟨_, hadmits⟩
  | message msg => exact absurd hpayload (hread msg)

/-- **A record that cannot be read is the last one.**  Without a topic
`jobs.dlq`, two steps of the loop after it has taken such a record the task is
over, and `run_worker` has not moved. -/
theorem unreadable_ends_consumer {s s₁ s₂ : RunWorker} {message : Message}
    {input₁ input₂ : LoopInput} (htask : s.task = .looping (.handling message))
    (hread : ∀ msg, message.read decode ≠ .message msg) (htopic : "jobs.dlq" ∉ s.topics)
    (h₁ : s.step decode workerId (.loop input₁) = some s₁)
    (h₂ : s₁.step decode workerId (.loop input₂) = some s₂) :
    s₂.task.isOver = true ∧ s₂.main = s.main := by
  obtain ⟨hpermits₁, phase₁, hnext₁, rfl⟩ := loop_spec h₁ htask
  cases input₁ with
  | handle result =>
      obtain ⟨err, rfl⟩ := permanent_of_admits hread hpermits₁
      cases hnext₁
      obtain ⟨hpermits₂, phase₂, hnext₂, rfl⟩ := loop_spec h₂ rfl
      cases input₂ with
      | deadLetter reply =>
          refine ⟨?_, rfl⟩
          cases reply with
          | acked => exact absurd hpermits₂ htopic
          | refused err' | unacked err' =>
              cases hnext₂
              rfl
      | _ => cases hnext₂
  | _ => cases hnext₁

end Runs

/-! ## The record that ends a worker -/

/-- A worker starts, takes a record of one zero byte, and cannot report it. -/
def zeroByte : List WorkerAction :=
  [.startUp (.ok ()), .subscribe (.ok ()), .cleanUp (.returned (.ok ())),
    .loop (.receive ⟨some [0], "judge.jobs", 0, 0⟩),
    .loop (.handle (.error (.permanent
      "invalid job message: expected value at line 1 column 1"))),
    .loop (.deadLetter (.refused "unknown topic or partition"))]

/-- The consumer is dead, and the worker waits for its signal. -/
theorem zero_byte_kills_consumer :
    ¬ Runs.HoldsAlong (step JobMessage.fromSlice "worker-1") ConsumerLives start zeroByte := by
  intro h
  have hend : (Runs.exec (step JobMessage.fromSlice "worker-1") start zeroByte).map
      (fun s => (s.signalled, s.streamEnded, s.task.isOver, s.servesHealth)) =
      some (false, false, true, true) := by decide
  obtain ⟨s, hrun, hs⟩ := Option.map_eq_some_iff.mp hend
  simp only [Prod.mk.injEq] at hs
  obtain ⟨hsignal, hstream, hover, hhealth⟩ := hs
  rcases h.final hrun hsignal hstream with hactive | ⟨err, hreturned⟩
  · rw [hover] at hactive
    cases hactive
  · simp [servesHealth, hreturned] at hhealth

end RunWorker

end EditorBack
