import EditorBack.RunWorker

/-!
# Shutting a worker down

At its signal `run_worker` cancels the token of the consumer and waits for the task.
The `select!` looks at the token first, so the loop takes no further record; the
record in hand still goes all its way, and `run_worker` returns what the task
returned.

From the signal on the worker is at most five calls away from its end, and one of
them can always be made (`signal_drains`).  `Parting` says how the loop has parted
with each record it took: an `Ok` of `run_worker` is given only when every one of
them was committed or had ended `Retryable` (`shutdown_accounts`).
-/

namespace EditorBack

/-! ## The records the loop has taken -/

/-- How the loop has parted with a record. -/
inductive Parting
  /-- the client accepted its commit -/
  | committed
  /-- it ended `Retryable`, and the loop went on -/
  | retried
  /-- the task ended at it -/
  | dropped
  deriving DecidableEq

namespace RunPhase

/-- The record the loop has in hand. -/
def inHand : RunPhase → List Message
  | .handling message | .deadLettering message _ | .committing message => [message]
  | .polling | .returned _ | .crashed => []

/-- The record the loop parts with in a step. -/
def parts : RunPhase → LoopInput → List (Message × Parting)
  | .handling message, .handle (.error (.retryable _)) => [(message, .retried)]
  | .deadLettering message _, .deadLetter (.refused _) => [(message, .dropped)]
  | .deadLettering message _, .deadLetter (.unacked _) => [(message, .dropped)]
  | .committing message, .commit (.ok ()) => [(message, .committed)]
  | .committing message, .commit (.error _) => [(message, .dropped)]
  | _, _ => []

/-- How many calls the loop is from its end once its token is cancelled. -/
def rank : RunPhase → Nat
  | .handling _ => 4
  | .deadLettering _ _ => 3
  | .committing _ => 2
  | .polling => 1
  | .returned _ | .crashed => 0

variable {p p' : RunPhase} {input : LoopInput}

/-- The transitions of the loop. -/
inductive Transition : RunPhase → LoopInput → RunPhase → Prop
  | received (message : Message) : Transition .polling (.receive message) (.handling message)
  | receiveError : Transition .polling .receiveError .polling
  | stopped : Transition .polling .stop (.returned (.ok ()))
  | handled (message : Message) :
      Transition (.handling message) (.handle (.ok ())) (.committing message)
  | rejected (message : Message) (err : String) :
      Transition (.handling message) (.handle (.error (.permanent err)))
        (.deadLettering message (.permanent err))
  | retried (message : Message) (err : String) :
      Transition (.handling message) (.handle (.error (.retryable err))) .polling
  | reported (message : Message) (error : ProcessError) :
      Transition (.deadLettering message error) (.deadLetter .acked) (.committing message)
  | refused (message : Message) (error : ProcessError) (err : String) :
      Transition (.deadLettering message error) (.deadLetter (.refused err))
        (.returned (.error ("failed to send message to DLQ: " ++ err)))
  | unacked (message : Message) (error : ProcessError) (err : String) :
      Transition (.deadLettering message error) (.deadLetter (.unacked err))
        (.returned (.error ("failed to send message to DLQ: " ++ err)))
  | committed (message : Message) : Transition (.committing message) (.commit (.ok ())) .polling
  | uncommitted (message : Message) (err : String) :
      Transition (.committing message) (.commit (.error err))
        (.returned (.error ("Kafka commit failed: " ++ err)))

theorem next_transition (h : p.next input = some p') : Transition p input p' := by
  unfold next at h
  split at h
  · cases h
    exact .received _
  · cases h
    exact .receiveError
  · cases h
    exact .stopped
  · next message result =>
      cases h
      rcases result with err | _
      · cases err with
        | retryable err => exact .retried _ _
        | permanent err => exact .rejected _ _
      · exact .handled _
  · next message error reply =>
      cases h
      cases reply with
      | acked => exact .reported _ _
      | refused err => exact .refused _ _ err
      | unacked err => exact .unacked _ _ err
  · next message result =>
      cases h
      rcases result with err | _
      · exact .uncommitted _ err
      · exact .committed _
  · cases h

/-- The loop parts with what it had in hand, or keeps it. -/
theorem Transition.parts (ht : Transition p input p') :
    input.received ++ p.inHand = p'.inHand ++ (p.parts input).map Prod.fst := by
  cases ht <;> rfl

/-- A record at which the loop does not go on ends it with an error. -/
theorem Transition.dropped (ht : Transition p input p') {message : Message}
    (hmem : (message, .dropped) ∈ p.parts input) : ∃ err, p' = .returned (.error err) := by
  cases ht with
  | refused _ _ err | unacked _ _ err | uncommitted _ err => exact ⟨_, rfl⟩
  | _ => simp [RunPhase.parts] at hmem

/-- Every input but those of the stream brings the loop nearer to its end. -/
theorem Transition.rank_lt (ht : Transition p input p') (hstream : input.received = [])
    (herror : input ≠ .receiveError) : p'.rank < p.rank := by
  cases ht with
  | received message => cases hstream
  | receiveError => exact absurd rfl herror
  | _ => simp [rank]

theorem Transition.active (ht : Transition p input p') : p.isOver = false := by
  cases ht <;> rfl

theorem Transition.ne_crashed (ht : Transition p input p') : p' ≠ .crashed := by
  cases ht <;> simp

end RunPhase

/-! ## The task and its process -/

namespace ConsumerTask

/-- The record the task has in hand. -/
def inHand : ConsumerTask → List Message
  | .looping phase => phase.inHand
  | .unspawned | .subscribing | .cleaning | .panicked => []

/-- How many calls the task is from its end once its token is cancelled. -/
def rank : ConsumerTask → Nat
  | .subscribing => 3
  | .cleaning => 2
  | .looping phase => phase.rank
  | .unspawned | .panicked => 0

/-- The task has ended with an error or a panic. -/
def hasFailed : ConsumerTask → Bool
  | .looping (.returned (.error _)) | .panicked => true
  | _ => false

/-- What is left of the task after `consumer.subscribe()?`. -/
def subscribed : Except String Unit → ConsumerTask
  | .ok () => .cleaning
  | .error err => .looping (.returned (.error err))

/-- What is left of the task after the clean-up. -/
def cleaned : Ended → ConsumerTask
  | .returned (.ok ()) => .looping .polling
  | .returned (.error err) => .looping (.returned (.error err))
  | .panicked => .panicked

theorem isOver_of_hasFailed {task : ConsumerTask} (h : task.hasFailed = true) :
    task.isOver = true := by
  unfold hasFailed at h
  split at h
  · rfl
  · rfl
  · cases h

end ConsumerTask

/-- The worker makes the step itself. -/
def WorkerAction.isOwn : WorkerAction → Bool
  | .createTopic _ => false
  | _ => true

namespace RunWorker

/-- The record the loop parts with in a step of the worker. -/
def parts (s : RunWorker) (a : WorkerAction) : List (Message × Parting) :=
  match s.task, a with
  | .looping phase, .loop input => phase.parts input
  | .looping (.handling message), .panic => [(message, .dropped)]
  | _, _ => []

/-- How many calls a worker that was signalled is from its end. -/
def rank (s : RunWorker) : Nat :=
  match s.main with
  | .joining => s.task.rank + 1
  | .starting | .waiting | .returned _ => 0

section Steps

variable (decode : List UInt8 → Except String JobMessage) (workerId : String)

/-- The transitions of a worker. -/
inductive Transition (s : RunWorker) : WorkerAction → RunWorker → Prop
  | startedUp (hmain : s.main = .starting) :
      Transition s (.startUp (.ok ())) { s with main := .waiting, task := .subscribing }
  | startFailed (err : String) (hmain : s.main = .starting) :
      Transition s (.startUp (.error err)) { s with main := .returned (.error err) }
  | subscribed (result : Except String Unit) (htask : s.task = .subscribing) :
      Transition s (.subscribe result) (s.goto (.subscribed result))
  | cleaned (outcome : Ended) (htask : s.task = .cleaning) :
      Transition s (.cleanUp outcome) (s.goto (.cleaned outcome))
  | looped {phase phase' : RunPhase} {input : LoopInput} (htask : s.task = .looping phase)
      (hpermits : s.Permits decode workerId phase input) (hnext : phase.Transition input phase') :
      Transition s (.loop input)
        { s with task := .looping phase', taken := input.received ++ s.taken }
  | panicked {message : Message} (htask : s.task = .looping (.handling message)) :
      Transition s .panic (s.goto .panicked)
  | ended (htask : s.task = .looping .polling) (hsignal : s.signalled = false) :
      Transition s .streamEnd
        { s with task := .looping (.returned (.ok ())), streamEnded := true }
  | signalled (hmain : s.main = .waiting) :
      Transition s .signal { s with main := .joining, signalled := true }
  | joined (result : Except String Unit) (hmain : s.main = .joining)
      (htask : s.task = .looping (.returned result)) :
      Transition s .join { s with main := .returned result }
  | joinFailed (hmain : s.main = .joining) (htask : s.task = .panicked) :
      Transition s .join { s with main := .returned (.error "task panicked") }
  | created (name : String) :
      Transition s (.createTopic name) { s with topics := name :: s.topics }

end Steps

section Steps

variable {decode : List UInt8 → Except String JobMessage} {workerId : String}
  {s s' : RunWorker} {a : WorkerAction}

theorem step_transition (h : s.step decode workerId a = some s') :
    Transition decode workerId s a s' := by
  cases a with
  | startUp result =>
      simp only [step, stepStartUp] at h
      split at h
      · next hmain =>
          cases h
          cases result with
          | ok _ => exact .startedUp hmain
          | error err => exact .startFailed err hmain
      · cases h
  | subscribe result =>
      simp only [step, stepSubscribe] at h
      split at h
      · next htask =>
          cases h
          cases result <;> exact .subscribed _ htask
      · cases h
  | cleanUp outcome =>
      simp only [step, stepCleanUp] at h
      split at h
      · next htask =>
          cases h
          rcases outcome with (_ | _) | _ <;> exact .cleaned _ htask
      · cases h
  | loop input =>
      simp only [step, stepLoop] at h
      split at h
      · next phase htask =>
          split at h
          · next hpermits =>
              obtain ⟨phase', hnext, rfl⟩ := Option.map_eq_some_iff.mp h
              exact .looped htask hpermits (RunPhase.next_transition hnext)
          · cases h
      · cases h
  | panic =>
      simp only [step, stepPanic] at h
      split at h
      · next message htask =>
          split at h <;> cases h
          exact .panicked htask
      · cases h
  | streamEnd =>
      simp only [step, stepStreamEnd] at h
      split at h
      · next htask =>
          split at h
          · cases h
          · next hsignal =>
              cases h
              exact .ended htask (by simpa using hsignal)
      · cases h
  | signal =>
      simp only [step, stepSignal] at h
      split at h <;> cases h
      next hmain => exact .signalled hmain
  | join =>
      simp only [step, stepJoin] at h
      split at h
      · next result hmain htask =>
          cases h
          exact .joined result hmain htask
      · next hmain htask =>
          cases h
          exact .joinFailed hmain htask
      · cases h
  | createTopic name =>
      cases h
      exact .created name

/-- The process against its task, and against the signal. -/
structure Orderly (s : RunWorker) : Prop where
  starting : s.main = .starting → s.task = .unspawned
  spawned : s.main = .waiting ∨ s.main = .joining → s.task ≠ .unspawned
  signalled : s.signalled = true → s.main = .joining ∨ ∃ result, s.main = .returned result
  uncrashed : s.task ≠ .looping .crashed
  ended : ∀ result, s.main = .returned result → s.task = .unspawned ∨ s.task.isOver = true
  ok : s.main = .returned (.ok ()) → s.task = .looping (.returned (.ok ()))

theorem orderly_start : start.Orderly := by
  refine ⟨?_, ?_, ?_, ?_, ?_, ?_⟩ <;> simp [start]

/-- A task in progress moves on. -/
theorem Orderly.of_task (hs : s.Orderly) (hspawned : s.task ≠ .unspawned)
    (hactive : s.task.isOver = false) (hmain : s'.main = s.main)
    (hsignalled : s'.signalled = s.signalled) (hafter : s'.task ≠ .unspawned)
    (huncrashed : s'.task ≠ .looping .crashed) : s'.Orderly := by
  have hreturned : ∀ result, s'.main ≠ .returned result := by
    intro result hreturned
    rw [hmain] at hreturned
    rcases hs.ended result hreturned with hnone | hover
    · exact hspawned hnone
    · rw [hactive] at hover
      cases hover
  refine ⟨?_, fun _ => hafter, ?_, huncrashed, ?_, ?_⟩
  · intro hstarting
    rw [hmain] at hstarting
    exact absurd (hs.starting hstarting) hspawned
  · intro hsignal
    rw [hmain]
    exact hs.signalled (hsignalled ▸ hsignal)
  · exact fun result hmain' => absurd hmain' (hreturned result)
  · exact fun hmain' => absurd hmain' (hreturned _)

theorem Transition.orderly (ht : Transition decode workerId s a s') (hs : s.Orderly) :
    s'.Orderly := by
  cases ht with
  | startedUp hmain =>
      have hsignal : s.signalled = false := by
        by_contra hsignal
        rcases hs.signalled (by simpa using hsignal) with hjoining | ⟨result, hreturned⟩
        · rw [hmain] at hjoining
          cases hjoining
        · rw [hmain] at hreturned
          cases hreturned
      refine ⟨?_, ?_, ?_, ?_, ?_, ?_⟩ <;> simp [hsignal]
  | startFailed err hmain =>
      refine ⟨?_, ?_, ?_, hs.uncrashed, ?_, ?_⟩ <;> simp [hs.starting hmain]
  | subscribed result htask =>
      refine hs.of_task (by simp [htask]) (by rw [htask]; rfl) rfl rfl ?_ ?_ <;>
        cases result <;> simp [goto, ConsumerTask.subscribed]
  | cleaned outcome htask =>
      refine hs.of_task (by simp [htask]) (by rw [htask]; rfl) rfl rfl ?_ ?_ <;>
        rcases outcome with (_ | _) | _ <;> simp [goto, ConsumerTask.cleaned]
  | looped htask _ hnext =>
      refine hs.of_task (by simp [htask]) ?_ rfl rfl (by simp) ?_
      · rw [htask]
        exact hnext.active
      · simpa using hnext.ne_crashed
  | panicked htask =>
      exact hs.of_task (by simp [htask]) (by rw [htask]; rfl) rfl rfl (by simp [goto])
        (by simp [goto])
  | ended htask _ =>
      exact hs.of_task (by simp [htask]) (by rw [htask]; rfl) rfl rfl (by simp) (by simp)
  | signalled hmain =>
      refine ⟨?_, ?_, ?_, hs.uncrashed, ?_, ?_⟩ <;> simp [hs.spawned (Or.inl hmain)]
  | joined result hmain htask =>
      refine ⟨?_, ?_, ?_, hs.uncrashed, ?_, ?_⟩ <;>
        simp [htask, ConsumerTask.isOver, RunPhase.isOver]
  | joinFailed hmain htask =>
      refine ⟨?_, ?_, ?_, hs.uncrashed, ?_, ?_⟩ <;> simp [htask, ConsumerTask.isOver]
  | created name => exact ⟨hs.starting, hs.spawned, hs.signalled, hs.uncrashed, hs.ended, hs.ok⟩

/-! ## After the signal -/

/-- **After the signal every call of the worker brings it nearer to its end**, and none
of them takes a record. -/
theorem Transition.drains (ht : Transition decode workerId s a s') (hs : s.Orderly)
    (hsignal : s.signalled = true) :
    s'.signalled = true ∧ s'.taken = s.taken ∧ s'.rank + a.isOwn.toNat ≤ s.rank := by
  -- a task in progress has `run_worker` waiting for it
  have hjoining : s.task ≠ .unspawned → s.task.isOver = false → s.main = .joining := by
    intro hspawned hactive
    rcases hs.signalled hsignal with hjoining | ⟨result, hreturned⟩
    · exact hjoining
    · rcases hs.ended result hreturned with hnone | hover
      · exact absurd hnone hspawned
      · rw [hactive] at hover
        cases hover
  have hnot : s.main ≠ .starting ∧ s.main ≠ .waiting := by
    rcases hs.signalled hsignal with hjoining | ⟨result, hreturned⟩
    · simp [hjoining]
    · simp [hreturned]
  cases ht with
  | startedUp hmain | startFailed _ hmain => exact absurd hmain hnot.1
  | signalled hmain => exact absurd hmain hnot.2
  | ended _ hno =>
      rw [hsignal] at hno
      cases hno
  | subscribed result htask =>
      have hmain := hjoining (by simp [htask]) (by rw [htask]; rfl)
      refine ⟨hsignal, rfl, ?_⟩
      cases result <;>
        simp [rank, goto, hmain, htask, ConsumerTask.subscribed, ConsumerTask.rank,
          RunPhase.rank, WorkerAction.isOwn]
  | cleaned outcome htask =>
      have hmain := hjoining (by simp [htask]) (by rw [htask]; rfl)
      refine ⟨hsignal, rfl, ?_⟩
      rcases outcome with (_ | _) | _ <;>
        simp [rank, goto, hmain, htask, ConsumerTask.cleaned, ConsumerTask.rank,
          RunPhase.rank, WorkerAction.isOwn]
  | @looped phase phase' input htask hpermits hnext =>
      have hmain := hjoining (by simp [htask]) (by rw [htask]; exact hnext.active)
      have hstream : input.received = [] ∧ input ≠ .receiveError := by
        cases hnext <;> simp_all [Permits, LoopInput.received]
      have hlt := hnext.rank_lt hstream.1 hstream.2
      refine ⟨hsignal, by simp [hstream.1], ?_⟩
      simp only [rank, hmain, htask, ConsumerTask.rank, WorkerAction.isOwn, Bool.toNat_true]
      omega
  | panicked htask =>
      have hmain := hjoining (by simp [htask]) (by rw [htask]; rfl)
      refine ⟨hsignal, rfl, ?_⟩
      simp [rank, goto, hmain, htask, ConsumerTask.rank, RunPhase.rank, WorkerAction.isOwn]
  | joined result hmain htask =>
      exact ⟨hsignal, rfl, by simp [rank, hmain, WorkerAction.isOwn]⟩
  | joinFailed hmain htask =>
      exact ⟨hsignal, rfl, by simp [rank, hmain, WorkerAction.isOwn]⟩
  | created name => exact ⟨hsignal, rfl, by simp [rank, WorkerAction.isOwn]⟩

theorem rank_le (s : RunWorker) : s.rank ≤ 5 := by
  unfold rank ConsumerTask.rank RunPhase.rank
  split <;> (try split) <;> (try split) <;> omega

/-- A call has some result for its message. -/
theorem exists_admits (decode : List UInt8 → Except String JobMessage) (workerId : String)
    (message : Message) : ∃ result, message.admits decode workerId (some result) := by
  unfold Message.admits
  split
  · next answer _ => exact ⟨answer, rfl⟩
  · exact ⟨.ok (), trivial⟩

/-- **After the signal the worker is never stuck.** -/
theorem Orderly.exists_step (hs : s.Orderly) (hsignal : s.signalled = true) :
    (∃ result, s.main = .returned result) ∨
      ∃ a, a.isOwn = true ∧ (s.step decode workerId a).isSome = true := by
  rcases hs.signalled hsignal with hmain | hreturned
  · right
    have hspawned := hs.spawned (Or.inr hmain)
    have huncrashed := hs.uncrashed
    cases htask : s.task with
    | unspawned => exact absurd htask hspawned
    | subscribing => exact ⟨.subscribe (.ok ()), rfl, by simp [step, stepSubscribe, htask]⟩
    | cleaning =>
        exact ⟨.cleanUp (.returned (.ok ())), rfl, by simp [step, stepCleanUp, htask]⟩
    | panicked => exact ⟨.join, rfl, by simp [step, stepJoin, hmain, htask]⟩
    | looping phase =>
        cases phase with
        | polling =>
            exact ⟨.loop .stop, rfl,
              by simp [step, stepLoop, htask, Permits, hsignal, RunPhase.next]⟩
        | handling message =>
            obtain ⟨result, hadmits⟩ := exists_admits decode workerId message
            exact ⟨.loop (.handle result), rfl,
              by simp [step, stepLoop, htask, Permits, hadmits, RunPhase.next]⟩
        | deadLettering message error =>
            exact ⟨.loop (.deadLetter (.refused "")), rfl,
              by simp [step, stepLoop, htask, Permits, RunPhase.next]⟩
        | committing message =>
            exact ⟨.loop (.commit (.ok ())), rfl,
              by simp [step, stepLoop, htask, Permits, RunPhase.next]⟩
        | returned result => exact ⟨.join, rfl, by simp [step, stepJoin, hmain, htask]⟩
        | crashed => exact absurd htask huncrashed
  · exact Or.inl hreturned

/-! ## The records of a worker -/

/-- The worker against the records its loop has parted with. -/
structure Accounted (s : RunWorker) (log : List (Message × Parting)) : Prop where
  orderly : s.Orderly
  taken : s.taken = s.task.inHand ++ log.map Prod.fst
  dropped : ∀ message, (message, .dropped) ∈ log → s.task.hasFailed = true

/-- A task in progress has dropped nothing. -/
theorem Accounted.not_dropped {log : List (Message × Parting)} (hs : s.Accounted log)
    (hactive : s.task.isOver = false) (message : Message) : (message, .dropped) ∉ log := by
  intro hmem
  have hover := ConsumerTask.isOver_of_hasFailed (hs.dropped message hmem)
  rw [hactive] at hover
  cases hover

/-- A step that parts with nothing. -/
theorem Accounted.of_same {log : List (Message × Parting)} (hs : s.Accounted log)
    (hs' : s'.Orderly) (hparts : s.parts a = []) (htaken : s'.taken = s.taken)
    (hhand : s'.task.inHand = s.task.inHand)
    (hfailed : s.task.isOver = false ∨ s'.task = s.task) :
    s'.Accounted (s.parts a ++ log) := by
  rw [hparts, List.nil_append]
  refine ⟨hs', by rw [htaken, hhand]; exact hs.taken, ?_⟩
  intro message hmem
  rcases hfailed with hactive | hsame
  · exact absurd hmem (hs.not_dropped hactive message)
  · rw [hsame]
    exact hs.dropped message hmem

theorem Transition.accounted (ht : Transition decode workerId s a s')
    {log : List (Message × Parting)} (hs : s.Accounted log) :
    s'.Accounted (s.parts a ++ log) := by
  have hs' := ht.orderly hs.orderly
  have hother : (∀ input, a ≠ .loop input) → a ≠ .panic → s.parts a = [] := by
    intro hloop hpanic
    unfold parts
    split
    · exact absurd rfl (hloop _)
    · exact absurd rfl hpanic
    · rfl
  cases ht with
  | startedUp hmain =>
      have htask := hs.orderly.starting hmain
      exact hs.of_same hs' (hother (by simp) (by simp)) rfl (by rw [htask]; rfl)
        (Or.inl (by rw [htask]; rfl))
  | startFailed _ _ | signalled _ | joined _ _ _ | joinFailed _ _ | created _ =>
      exact hs.of_same hs' (hother (by simp) (by simp)) rfl rfl (Or.inr rfl)
  | subscribed result htask =>
      refine hs.of_same hs' (hother (by simp) (by simp)) rfl ?_ (Or.inl (by rw [htask]; rfl))
      rw [htask]
      cases result <;> rfl
  | cleaned outcome htask =>
      refine hs.of_same hs' (hother (by simp) (by simp)) rfl ?_ (Or.inl (by rw [htask]; rfl))
      rw [htask]
      rcases outcome with (_ | _) | _ <;> rfl
  | ended htask _ =>
      exact hs.of_same hs' (hother (by simp) (by simp)) rfl (by rw [htask]; rfl)
        (Or.inl (by rw [htask]; rfl))
  | @looped phase phase' input htask _ hnext =>
      have hparts : s.parts (.loop input) = phase.parts input := by
        simp [parts, htask]
      have htaken := hs.taken
      rw [htask] at htaken
      rw [hparts]
      refine ⟨hs', ?_, ?_⟩
      · change input.received ++ s.taken = phase'.inHand ++ (phase.parts input ++ log).map Prod.fst
        rw [htaken, List.map_append, ← List.append_assoc, ← List.append_assoc, ← hnext.parts]
        rfl
      · intro message hmem
        rcases List.mem_append.mp hmem with hnew | hold
        · obtain ⟨err, rfl⟩ := hnext.dropped hnew
          rfl
        · have hactive : s.task.isOver = false := by
            rw [htask]
            exact hnext.active
          exact absurd hold (hs.not_dropped hactive message)
  | @panicked message htask =>
      have hparts : s.parts .panic = [(message, .dropped)] := by
        simp [parts, htask]
      have htaken := hs.taken
      rw [htask] at htaken
      rw [hparts]
      exact ⟨hs', htaken, fun _ _ => rfl⟩

end Steps

section Runs

variable (decode : List UInt8 → Except String JobMessage) (workerId : String)

/-- **A signalled worker drains.**  From the signal on it takes no record, it makes at
most five calls, and it can always make the next one until it has returned. -/
theorem signal_drains (as : List WorkerAction) :
    Runs.HoldsAlong (step decode workerId)
      (fun s => s.signalled = true → ∀ bs t, Runs.exec (step decode workerId) s bs = some t →
        t.taken = s.taken ∧ bs.countP WorkerAction.isOwn ≤ 5 ∧
          ((∃ result, t.main = .returned result) ∨
            ∃ a, a.isOwn = true ∧ (t.step decode workerId a).isSome = true))
      start as := by
  have horderly : Runs.HoldsAlong (step decode workerId) Orderly start as :=
    Runs.holdsAlong_of_invariant (fun s a s' hs h => (step_transition h).orderly hs)
      orderly_start as
  refine horderly.mono ?_
  intro s hs hsignal bs t hrun
  have hinv : ∀ (u : RunWorker) (b : WorkerAction) (u' : RunWorker),
      (u.Orderly ∧ u.signalled = true ∧ u.taken = s.taken) → u.step decode workerId b = some u' →
        u'.Orderly ∧ u'.signalled = true ∧ u'.taken = s.taken := by
    intro u b u' hu h
    have ht := step_transition h
    obtain ⟨hsignal', htaken, _⟩ := ht.drains hu.1 hu.2.1
    exact ⟨ht.orderly hu.1, hsignal', htaken.trans hu.2.2⟩
  obtain ⟨ht, hsignal', htaken⟩ :=
    (Runs.holdsAlong_of_invariant hinv ⟨hs, hsignal, rfl⟩ bs).final hrun
  refine ⟨htaken, ?_, ht.exists_step hsignal'⟩
  have hcount : bs.countP WorkerAction.isOwn + t.rank ≤ s.rank :=
    Runs.countP_add_rank_le hinv
      (fun u b u' hu h => ((step_transition h).drains hu.1 hu.2.1).2.2) ⟨hs, hsignal, rfl⟩ hrun
  have hrank := rank_le s
  omega

/-- **`Ok` means that nothing was left behind.**  Every record the loop has taken is in
its hand, or it has parted with it; and when `run_worker` has returned `Ok`, each of them
was committed or had ended `Retryable`. -/
theorem shutdown_accounts (as : List WorkerAction) :
    Runs.HoldsAlong (Runs.logged (step decode workerId) parts)
      (fun p => p.1.taken = p.1.task.inHand ++ p.2.map Prod.fst ∧
        (p.1.main = .returned (.ok ()) →
          p.1.taken = p.2.map Prod.fst ∧ ∀ e ∈ p.2, e.2 = .committed ∨ e.2 = .retried))
      (start, []) as := by
  have hstart : start.Accounted [] :=
    ⟨orderly_start, rfl, fun _ hmem => absurd hmem List.not_mem_nil⟩
  have hinv : Runs.HoldsAlong (Runs.logged (step decode workerId) parts)
      (fun p => p.1.Accounted p.2) (start, []) as := by
    refine Runs.logged_holdsAlong ?_ hstart as
    intro s log a s' hs h
    exact (step_transition h).accounted hs
  refine hinv.mono ?_
  intro p hp
  refine ⟨hp.taken, ?_⟩
  intro hmain
  have htask := hp.orderly.ok hmain
  have htaken := hp.taken
  rw [htask] at htaken
  refine ⟨htaken, ?_⟩
  rintro ⟨message, parting⟩ hmem
  cases parting with
  | committed => exact Or.inl rfl
  | retried => exact Or.inr rfl
  | dropped =>
      have hfailed := hp.dropped message hmem
      rw [htask] at hfailed
      cases hfailed

end Runs

end RunWorker

end EditorBack
