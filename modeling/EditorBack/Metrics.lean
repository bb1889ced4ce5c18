import EditorBack.SystemMoves
import EditorBack.Tally

/-!
# The metrics of the workers

What `handle_message` tells the metrics of its worker, step by step, next to the
steps themselves.  The log of a run is what all workers have told theirs, the ones
that are gone included, with the results that were stored beside it.

A call goes through five stages as far as its metrics are concerned, and `Stage.Move`
is all that happens in them.  So the metrics form a funnel that fits the system at
every moment (`metrics_account`): `jobs_running` is up for exactly the executions in
progress, and `jobs_finished_by_status` has counted exactly the results that were
stored with a status, but for lost answers and for the failures, which are counted
elsewhere or nowhere.
-/

namespace EditorBack

/-- An operation of `handle_message` on the metrics of its worker. -/
inductive MetricOp
  /-- `job_queue_latency_seconds.observe(..)` -/
  | queueLatency (latency : Time)
  /-- `start_timer()`, and `jobs_running` is incremented by `RunningGuard::new` -/
  | started
  /-- the guard decrements `jobs_running`, and the timer observes the duration -/
  | stopped
  /-- `jobs_finished_total` and `jobs_finished_by_status` are incremented -/
  | finished (status : RunStatus)
  /-- `jobs_failed_total.inc()` -/
  | failed
  deriving DecidableEq

/-- What is noted in a run. -/
inductive MetricNote
  | op (workerId : String) (op : MetricOp)
  /-- a worker dies inside `run_rust`, and its gauge with it -/
  | lost (workerId : String)
  /-- a job in another language is about to be finished; no metric is told -/
  | unsupported
  /-- a result is stored, and whether `finish` says so -/
  | stored (status : RunStatus) (told : Bool)
  deriving DecidableEq

namespace Handler

/-- The operations on the metrics in a step from `h` to `h'`. -/
def metrics (input : HandlerInput) (h h' : Handler) : List MetricOp :=
  match input with
  | .observe utcNow =>
      match h'.phase with
      | .starting job => [.queueLatency (utcNow - job.createdAt.getD 0)]
      | _ => []
  | .mark _ =>
      match h'.phase with
      | .running _ => [.started]
      | _ => []
  | .runRust _ => [.stopped]
  | .join =>
      match h.phase with
      | .joining _ (.error (.other _)) => [.failed]
      | _ => []
  | .finish _ =>
      match h.phase, h'.phase with
      -- only the arm of a `RunResponse` has a stdout to store
      | .finishing _ args _, .returned (.ok ()) =>
          if args.stdout.isSome then [.finished args.status] else []
      | _, _ => []
  | _ => []

/-- What a step does apart from them. -/
def asides (input : HandlerInput) (h : Handler) (eff : HandlerEffect) : List MetricNote :=
  match input with
  | .crash =>
      match h.phase with
      | .running _ => [.lost h.workerId]
      | _ => []
  | .mark _ =>
      match eff.handler.phase with
      | .finishing _ _ _ => [.unsupported]
      | _ => []
  | .finish reply =>
      match eff.event with
      | some (_, .finished _ args) => [.stored args.status (decide (reply = .ok))]
      | _ => []
  | _ => []

def notes (input : HandlerInput) (h : Handler) (eff : HandlerEffect) : List MetricNote :=
  (metrics input h eff.handler).map (.op h.workerId) ++ asides input h eff

end Handler

/-- How far a call is, as its metrics have it. -/
inductive Stage
  | idle
  /-- its queue latency is observed -/
  | observed
  | running
  /-- `run_rust` has returned, and no counter is told of it yet -/
  | answered
  /-- what is left is to store an error -/
  | failing
  deriving DecidableEq

def Phase.stage : Phase → Stage
  | .starting _ | .marking _ => .observed
  | .running _ => .running
  | .collecting _ _ | .joining _ _ => .answered
  | .finishing _ args _ => if args.stdout.isSome then .answered else .failing
  | .selecting _ | .queuing _ | .observing _ | .returned _ | .panicked | .crashed => .idle

/-- What a call does next, and what is noted about it. -/
inductive Stage.Move (workerId : String) : Stage → List MetricNote → Stage → Prop
  | quiet (a : Stage) : Move workerId a [] a
  | ended {a : Stage} (ha : a ≠ .running) : Move workerId a [] .idle
  | observed (latency : Time) :
      Move workerId .idle [.op workerId (.queueLatency latency)] .observed
  | started : Move workerId .observed [.op workerId .started] .running
  | unsupported : Move workerId .observed [.unsupported] .failing
  | stopped : Move workerId .running [.op workerId .stopped] .answered
  | lost : Move workerId .running [.lost workerId] .idle
  | failed : Move workerId .answered [.op workerId .failed] .failing
  | finished (status : RunStatus) :
      Move workerId .answered [.op workerId (.finished status), .stored status true] .idle
  | unanswered (status : RunStatus) : Move workerId .answered [.stored status false] .idle
  | storedError (told : Bool) : Move workerId .failing [.stored .runtimeError told] .idle

namespace Handler

/-- A result that is to be stored is a `RunResponse` or an error. -/
def Answers (h : Handler) : Prop :=
  ∀ job args answer, h.phase = .finishing job args answer →
    (args.stdout.isSome = true ∧ answer = .ok ()) ∨
      (args.stdout = none ∧ args.status = .runtimeError)

theorem receive_answers (workerId : String) (payload : Payload) :
    (receive workerId payload).Answers := by
  intro job args answer hp
  cases payload <;> cases hp

section Moves

variable {db : Db} {input : HandlerInput} {h h' : Handler} {eff : HandlerEffect}

theorem Move.answers (hm : Move db input h h') (hs : h.Answers) : h'.Answers := by
  intro job args answer hp
  cases hm with
  | unsupported _ _ =>
      cases hp
      exact Or.inr ⟨rfl, rfl⟩
  | @joined _ _ result _ _ _ _ _ hargs =>
      cases hp
      cases result with
      | ok res =>
          cases hargs
          exact Or.inl ⟨rfl, rfl⟩
      | error err =>
          cases err with
          | cancelled => cases hargs
          | other err =>
              cases hargs
              exact Or.inr ⟨rfl, rfl⟩
  | beat _ _ | beatRenewed _ _ | beatLost _ _ | beatError _ _ | beatStopped _ _ _ =>
      exact hs job args answer hp
  | crashed h =>
      dsimp only at hp
      split at hp
      · cases hp
      · exact hs job args answer hp
  | _ => cases hp

private theorem stage_join (he : h.step .join db = some eff) :
    Stage.Move h.workerId h.phase.stage (h.notes .join eff) eff.handler.phase.stage := by
  simp only [step, join] at he
  split at he
  · next job result lease hp hl =>
      split at he
      · cases he
        have hstage : h.phase.stage = .answered := by rw [hp]; rfl
        rw [hstage]
        rcases result with err | res
        · cases err with
          | cancelled =>
              simp only [notes, metrics, asides, hp]
              exact .ended (by simp)
          | other err =>
              simp only [notes, metrics, asides, hp]
              exact .failed
        · simp only [notes, metrics, asides, hp]
          exact .quiet _
      · cases he
  · cases he

private theorem stage_finish {reply : Reply} (he : h.step (.finish reply) db = some eff)
    (hs : h.Answers) :
    Stage.Move h.workerId h.phase.stage (h.notes (.finish reply) eff) eff.handler.phase.stage := by
  simp only [step, finish] at he
  split at he
  · next job args answer lease hp hl =>
      cases he
      have hrunning : h.phase.stage ≠ .running := by
        rw [hp]
        simp only [Phase.stage]
        split <;> simp
      rw [JobStore.isOk_finish]
      cases hheld : (db.row job.id).any (·.heldBy lease.lockToken) with
      | false =>
          -- the lease is lost, and nothing is stored
          cases reply with
          | ok =>
              have hanswer : ∃ err,
                  (JobStore.finish job.id args lease.lockToken db).2 = .error err := by
                rw [JobStore.answer_finish, hheld]
                exact ⟨_, rfl⟩
              obtain ⟨err, herr⟩ := hanswer
              simp only [notes, metrics, asides, hp, Reply.call, herr, retry, goto]
              exact .ended (hp ▸ hrunning)
          | failed err =>
              simp only [notes, metrics, asides, hp, Reply.call, retry, goto]
              exact .ended (hp ▸ hrunning)
          | lost err =>
              simp only [notes, metrics, asides, hp, Reply.call, retry, goto]
              exact .ended (hp ▸ hrunning)
      | true =>
          rcases hs job args answer hp with ⟨hout, rfl⟩ | ⟨hnone, hstatus⟩
          · have hstage : h.phase.stage = .answered := by
              rw [hp]
              simp [Phase.stage, hout]
            rw [hstage]
            cases reply with
            | ok =>
                have hanswer : (JobStore.finish job.id args lease.lockToken db).2 = .ok true := by
                  rw [JobStore.answer_finish, hheld]
                  rfl
                simp only [notes, metrics, asides, hp, Reply.call, hanswer, goto, hout]
                exact .finished _
            | failed err =>
                simp only [notes, metrics, asides, hp, Reply.call, retry, goto]
                exact .ended (by simp)
            | lost err =>
                simp only [notes, metrics, asides, hp, Reply.call, retry, goto]
                exact .unanswered _
          · have hstage : h.phase.stage = .failing := by
              rw [hp]
              simp [Phase.stage, hnone]
            have hmove : ∀ told,
                Stage.Move h.workerId .failing [.stored args.status told] .idle := by
              intro told
              rw [hstatus]
              exact .storedError told
            rw [hstage]
            cases reply with
            | ok =>
                have hanswer : (JobStore.finish job.id args lease.lockToken db).2 = .ok true := by
                  rw [JobStore.answer_finish, hheld]
                  rfl
                rcases answer with err | _
                · simp only [notes, metrics, asides, hp, Reply.call, hanswer, goto]
                  exact hmove true
                · simp only [notes, metrics, asides, hp, Reply.call, hanswer, goto, hnone]
                  exact hmove true
            | failed err =>
                simp only [notes, metrics, asides, hp, Reply.call, retry, goto]
                exact .ended (by simp)
            | lost err =>
                simp only [notes, metrics, asides, hp, Reply.call, retry, goto]
                exact hmove false
  · cases he

/-- **Every step of a call is a move of its stage.** -/
theorem stage_move (he : h.step input db = some eff) (hs : h.Answers) :
    Stage.Move h.workerId h.phase.stage (h.notes input eff) eff.handler.phase.stage := by
  by_cases hjoin : input = .join
  · subst hjoin
    exact stage_join he
  by_cases hfinish : ∃ reply, input = .finish reply
  · obtain ⟨reply, rfl⟩ := hfinish
    exact stage_finish he hs
  obtain ⟨db', h', event⟩ := eff
  have hm := step_move he
  dsimp only at hm ⊢
  cases hm with
  | selected hp _ | notFound hp _ | selectFailed hp | queued hp _ | queueFailed hp | panicked hp =>
      rw [hp]
      exact .quiet .idle
  | observed hp =>
      rw [hp]
      exact .observed _
  | granted hp _ =>
      rw [hp]
      exact .quiet .observed
  | busy hp _ | startFailed hp | markFailed hp _ _ =>
      rw [hp]
      exact .ended (by simp [Phase.stage])
  | marked hp _ =>
      rw [hp]
      exact .started
  | unsupported hp _ =>
      rw [hp]
      exact .unsupported
  | ran hp _ _ =>
      rw [hp]
      exact .stopped
  | beatFailed hp _ _ =>
      rw [hp]
      exact .ended (by simp [Phase.stage])
  | collected hp _ =>
      rw [hp]
      exact .quiet .answered
  | joined _ _ _ _ | cancelled _ _ _ => exact absurd rfl hjoin
  | stored _ _ _ | storeFailed _ _ => exact absurd ⟨_, rfl⟩ hfinish
  | beat _ _ | beatRenewed _ _ | beatLost _ _ | beatError _ _ | beatStopped _ _ _ =>
      exact .quiet _
  | crashed h =>
      cases hp : h.phase with
      | running job =>
          simp only [notes, metrics, asides, hp]
          exact .lost
      | returned _ | panicked | crashed =>
          simp only [notes, metrics, asides, hp]
          exact .quiet .idle
      | finishing job args answer =>
          simp only [notes, metrics, asides, hp]
          refine .ended ?_
          simp only [Phase.stage]
          split <;> simp
      | _ =>
          simp only [notes, metrics, asides, hp]
          exact .ended (by simp [Phase.stage])

end Moves

end Handler

/-! ## Counting the notes -/

namespace MetricNote

def isLatency : MetricNote → Bool
  | .op _ (.queueLatency _) => true
  | _ => false

def isStarted : MetricNote → Bool
  | .op _ .started => true
  | _ => false

def isStopped : MetricNote → Bool
  | .op _ .stopped => true
  | _ => false

def isFinished : MetricNote → Bool
  | .op _ (.finished _) => true
  | _ => false

/-- `jobs_finished_by_status` is incremented for `status`. -/
def isFinishedAs (status : RunStatus) : MetricNote → Bool
  | .op _ (.finished status') => status' == status
  | _ => false

def isFailed : MetricNote → Bool
  | .op _ .failed => true
  | _ => false

def isUnsupported : MetricNote → Bool
  | .unsupported => true
  | _ => false

/-- A result with `status` is stored. -/
def isStored (status : RunStatus) : MetricNote → Bool
  | .stored status' _ => status' == status
  | _ => false

end MetricNote

/-- The call is in stage `a`. -/
def Handler.isAt (a : Stage) (h : Handler) : Bool :=
  decide (h.phase.stage = a)

/-- The call is inside `run_rust`, on worker `workerId`. -/
def Handler.runsOn (workerId : String) (h : Handler) : Bool :=
  decide (h.workerId = workerId) && h.isAt .running

namespace Stage

open MetricNote

variable {workerId : String} {a b : Stage} {ns : List MetricNote}

theorem Move.latencies (hm : Move workerId a ns b) :
    ns.countP isStarted + ns.countP isUnsupported + (decide (b = .observed)).toNat ≤
      (decide (a = .observed)).toNat + ns.countP isLatency := by
  cases hm <;> simp [isStarted, isUnsupported, isLatency]

theorem Move.gauge (hm : Move workerId a ns b) (w : String) :
    (decide (workerId = w) && decide (a = .running)).toNat + ns.count (.op w .started) =
      (decide (workerId = w) && decide (b = .running)).toNat + ns.count (.op w .stopped) +
        ns.count (.lost w) := by
  by_cases hw : workerId = w
  · subst hw
    cases hm with
    | ended ha => simp [ha]
    | _ => simp
  · cases hm <;> simp [hw]

theorem Move.durations (hm : Move workerId a ns b) :
    ns.countP isFinished + ns.countP isFailed + (decide (b = .answered)).toNat ≤
      (decide (a = .answered)).toNat + ns.countP isStopped := by
  cases hm <;> simp [isFinished, isFailed, isStopped, List.countP_cons]

theorem Move.told (hm : Move workerId a ns b) (status : RunStatus) :
    ns.countP (isFinishedAs status) + ns.count (.stored status false) ≤
      ns.countP (isStored status) := by
  cases hm with
  | finished _ => simp [isFinishedAs, isStored, List.countP_cons]
  | unanswered _ => simp [isFinishedAs, isStored, List.countP_cons, List.count_cons]
  | storedError told =>
      cases told <;> simp [isFinishedAs, isStored, List.countP_cons, List.count_cons]
  | _ => simp [isFinishedAs, isStored]

theorem Move.results (hm : Move workerId a ns b) {status : RunStatus}
    (hstatus : status ≠ .runtimeError) :
    ns.countP (isStored status) =
      ns.countP (isFinishedAs status) + ns.count (.stored status false) := by
  cases hm with
  | finished _ => simp [isFinishedAs, isStored, List.countP_cons]
  | unanswered _ => simp [isFinishedAs, isStored, List.countP_cons, List.count_cons]
  | storedError told => simp [isFinishedAs, isStored, hstatus.symm]
  | _ => simp [isFinishedAs, isStored]

theorem Move.errors (hm : Move workerId a ns b) :
    ns.countP (isStored .runtimeError) + (decide (b = .failing)).toNat ≤
      (decide (a = .failing)).toNat + ns.countP (isFinishedAs .runtimeError) +
        ns.count (.stored .runtimeError false) + ns.countP isFailed +
          ns.countP isUnsupported := by
  cases hm with
  | finished _ => simp [isFinishedAs, isStored, isFailed, isUnsupported, List.countP_cons]
  | unanswered _ =>
      simp [isFinishedAs, isStored, isFailed, isUnsupported, List.countP_cons, List.count_cons]
  | _ => simp [isFinishedAs, isStored, isFailed, isUnsupported]

end Stage

/-! ## The metrics against the system -/

namespace World

open MetricNote

/-- What a step of the system notes. -/
def notes (s : World) : Action → List MetricNote
  | .handler i input =>
      match (s.handlers[i]?).bind fun h => (h.step input s.db).map (h.notes input) with
      | some ns => ns
      | none => []
  | _ => []

/-- The metrics agree with the calls of all workers. -/
structure MetricsAgree (calls : List Handler) (log : List MetricNote) : Prop where
  /-- `jobs_running` is up for the executions in progress -/
  gauge : ∀ w, log.count (.op w .started) =
    calls.countP (Handler.runsOn w) + log.count (.op w .stopped) + log.count (.lost w)
  /-- what `jobs_finished_by_status` has counted is stored -/
  told : ∀ status, log.countP (isFinishedAs status) + log.count (.stored status false) ≤
    log.countP (isStored status)
  /-- no other results are stored with another status than `RuntimeError` -/
  results : ∀ status, status ≠ .runtimeError → log.countP (isStored status) =
    log.countP (isFinishedAs status) + log.count (.stored status false)
  /-- and the others belong to failures and to unsupported languages -/
  errors : log.countP (isStored .runtimeError) + calls.countP (Handler.isAt .failing) ≤
    log.countP (isFinishedAs .runtimeError) + log.count (.stored .runtimeError false) +
      log.countP isFailed + log.countP isUnsupported
  /-- counted over all jobs: no more of them are finished or failed than durations were
  observed -/
  durations : log.countP isFinished + log.countP isFailed +
    calls.countP (Handler.isAt .answered) ≤ log.countP isStopped
  /-- counted over all jobs: no more of them are executed or of an unsupported language than
  queue latencies were observed -/
  latencies : log.countP isStarted + log.countP isUnsupported +
    calls.countP (Handler.isAt .observed) ≤ log.countP isLatency

/-- A step leaves the calls as they are, adds one, or is a move of one of them. -/
inductive CallsMove (calls : List Handler) : List MetricNote → List Handler → Prop
  | same : CallsMove calls [] calls
  | received (workerId : String) (payload : Payload) :
      CallsMove calls [] (calls ++ [.receive workerId payload])
  | moved {i : Nat} {h h' : Handler} {ns : List MetricNote} (hi : calls[i]? = some h)
      (hworker : h'.workerId = h.workerId)
      (hm : Stage.Move h.workerId h.phase.stage ns h'.phase.stage) :
      CallsMove calls ns (calls.set i h')

/-- The metrics, and what the calls are about to tell them. -/
structure Metered (s : World) (log : List MetricNote) : Prop where
  answers : ∀ h ∈ s.handlers, h.Answers
  agree : MetricsAgree s.handlers log

section Steps

variable {s s' : World} {a : Action} {log : List MetricNote}

theorem calls_move (hs : ∀ h ∈ s.handlers, h.Answers) (hstep : s.step a = some s') :
    CallsMove s.handlers (s.notes a) s'.handlers ∧ ∀ h ∈ s'.handlers, h.Answers := by
  have hanswers : ∀ h ∈ s'.handlers, h.Answers := by
    intro h' hmem
    rcases handler_origin hstep hmem with hold | ⟨payload, _, workerId, rfl⟩ |
      ⟨i, input, h, eff, _, hi, heff, rfl⟩
    · exact hs h' hold
    · exact Handler.receive_answers workerId payload
    · exact (Handler.step_move heff).answers (hs h (List.mem_of_getElem? hi))
  refine ⟨?_, hanswers⟩
  cases a with
  | handler i input =>
      simp only [step, stepHandler] at hstep
      split at hstep
      · cases hstep
      · obtain ⟨h, hi, hstep⟩ := Option.bind_eq_some_iff.mp hstep
        obtain ⟨eff, heff, rfl⟩ := Option.map_eq_some_iff.mp hstep
        have hnotes : s.notes (.handler i input) = h.notes input eff := by
          simp [notes, hi, heff]
        rw [hnotes]
        exact .moved hi (Handler.step_move heff).workerId
          (Handler.stage_move heff (hs h (List.mem_of_getElem? hi)))
  | deliver k workerId again =>
      obtain ⟨payload, _, rfl⟩ := Option.map_eq_some_iff.mp hstep
      exact .received workerId payload
  | _ => cases step_move hstep <;> exact .same

/-- **Every step keeps the metrics in agreement with the calls.** -/
theorem CallsMove.agree {calls calls' : List Handler} {ns : List MetricNote}
    (hm : CallsMove calls ns calls') (hs : MetricsAgree calls log) :
    MetricsAgree calls' (ns ++ log) := by
  cases hm with
  | same => exact hs
  | received workerId payload =>
      -- a new call is idle
      have hidle : ∀ a, a ≠ .idle →
          (calls ++ [Handler.receive workerId payload]).countP (Handler.isAt a) =
            calls.countP (Handler.isAt a) := by
        intro a ha
        have hnot : Handler.isAt a (.receive workerId payload) = false := by
          cases payload <;> simp [Handler.isAt, Handler.receive, Phase.stage, ha.symm]
        rw [Tally.countP_append_one, Tally.one_of_false hnot, Nat.add_zero]
      refine ⟨?_, hs.told, hs.results, ?_, ?_, ?_⟩
      · intro w
        have hnot : Handler.runsOn w (.receive workerId payload) = false := by
          cases payload <;> simp [Handler.runsOn, Handler.isAt, Handler.receive, Phase.stage]
        rw [Tally.countP_append_one, Tally.one_of_false hnot, Nat.add_zero]
        exact hs.gauge w
      · rw [hidle .failing (by simp)]
        exact hs.errors
      · rw [hidle .answered (by simp)]
        exact hs.durations
      · rw [hidle .observed (by simp)]
        exact hs.latencies
  | @moved i h h' ns hi hworker hm =>
      have hset : ∀ a, (calls.set i h').countP (Handler.isAt a) +
          (decide (h.phase.stage = a)).toNat =
          calls.countP (Handler.isAt a) + (decide (h'.phase.stage = a)).toNat :=
        fun a => Tally.countP_set hi h'
      refine ⟨?_, ?_, ?_, ?_, ?_, ?_⟩
      · intro w
        have hold := hs.gauge w
        have hmove := hm.gauge w
        have hrun : (calls.set i h').countP (Handler.runsOn w) +
            (decide (h.workerId = w) && decide (h.phase.stage = .running)).toNat =
            calls.countP (Handler.runsOn w) +
              (decide (h.workerId = w) && decide (h'.phase.stage = .running)).toNat := by
          have hcalls := Tally.countP_set (p := Handler.runsOn w) hi h'
          simpa [Tally.one, Handler.runsOn, Handler.isAt, hworker] using hcalls
        simp only [List.count_append]
        omega
      · intro status
        have hold := hs.told status
        have hmove := hm.told status
        simp only [List.count_append, List.countP_append]
        omega
      · intro status hstatus
        have hold := hs.results status hstatus
        have hmove := hm.results hstatus
        simp only [List.count_append, List.countP_append]
        omega
      · have hold := hs.errors
        have hmove := hm.errors
        have hcalls := hset .failing
        simp only [List.count_append, List.countP_append]
        omega
      · have hold := hs.durations
        have hmove := hm.durations
        have hcalls := hset .answered
        simp only [List.countP_append]
        omega
      · have hold := hs.latencies
        have hmove := hm.latencies
        have hcalls := hset .observed
        simp only [List.countP_append]
        omega

end Steps

/-- **The metrics fit the system at every moment.**  In every run, what the workers have
told their metrics agrees with the calls at work and with the results ever stored. -/
theorem metrics_account (now : Time) (as : List Action) :
    Runs.HoldsAlong (Runs.logged step notes) (fun p => MetricsAgree p.1.handlers p.2)
      (empty now, []) as := by
  have hstart : (empty now).Metered [] := by
    refine ⟨by simp [empty], ?_, ?_, ?_, ?_, ?_, ?_⟩ <;> simp [empty]
  have hinv : Runs.HoldsAlong (Runs.logged step notes) (fun p => p.1.Metered p.2)
      (empty now, []) as := by
    refine Runs.logged_holdsAlong ?_ hstart as
    intro s log a s' hs hstep
    obtain ⟨hm, hanswers⟩ := calls_move hs.answers hstep
    exact ⟨hanswers, hm.agree hs.agree⟩
  exact hinv.mono (fun _ hp => hp.agree)

end World

end EditorBack
