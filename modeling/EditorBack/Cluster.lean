import EditorBack.Deliveries
import EditorBack.OwnMessages
import EditorBack.RunWorker

/-!
# The system with its topic

`World` takes the topic for granted: a message is delivered, perhaps twice, and
comes back when its call ends badly.  Here `judge.jobs` is a number of
partitions, each read by the loop of `KafkaConsumer::run`: `send_job` appends the
bytes of its message to one of them, a call of `handle_message` is made for the
record the loop has taken and answers to it, and what has been committed decides
where the next consumer of the partition begins.

A partition may be taken from its consumer at any time, because the worker dies or
because the group rebalances.  A call that is at work for the consumer then goes on,
next to the calls of the next consumer, and nobody waits for its result.

Two things are assumed of Kafka and the decoder: a consumer that has lost its partition
commits nothing for it any more once there is another (the loop does not poll between a
record and its commit, so the commit is of the generation that took the record, and the
coordinator refuses those of former generations), and `decode` reads what `encode` has
written.

The system with its topic is a case of the system: whatever it gets to, the
system gets to (`reachable_of_run`).
-/

namespace EditorBack

/-- A partition of `judge.jobs` and the consumer it is assigned to. -/
structure Consumer where
  partition : Partition
  workerId : String
  /-- the call of `handle_message` for the last record it has taken -/
  call : Nat
  /-- how many of the `requests` are of former consumers; they come last -/
  former : Nat
  /-- the offsets whose last delivery was handled to `Ok` -/
  settled : List Nat

/-- The system and the consumers of its topic. -/
structure Cluster where
  world : World
  consumers : List Consumer

inductive ClusterAction
  /-- a step of anything but a consumer, and the partition of the message it sends -/
  | system (a : Action) (p : Nat)
  | start (p : Nat) (workerId : String) (cleanup : Except String Unit)
  | receive (p : Nat)
  /-- the call for the record in hand has returned -/
  | handle (p : Nat)
  /-- any other step of a consumer -/
  | loop (p : Nat) (a : RunAction)

/-- The record at an offset. -/
def Partition.record (s : Partition) (o : Nat) : Option Message :=
  (s.log[o]?).map fun payload => ⟨payload, s.topic, s.partition, o⟩

/-- The loop has no record in hand, and no call. -/
def RunPhase.isIdle : RunPhase → Bool
  | .polling | .returned _ | .crashed => true
  | .handling _ | .deadLettering _ _ | .committing _ => false

theorem RunPhase.isIdle_of_isOver {phase : RunPhase} (h : phase.isOver = true) :
    phase.isIdle = true := by
  cases phase <;> first | rfl | cases h

theorem RunPhase.ne_of_isIdle {phase : RunPhase} (h : phase.isIdle = true) :
    (∀ message, phase ≠ .handling message) ∧
      ∀ message error, phase ≠ .deadLettering message error := by
  cases phase <;> simp_all [isIdle]

theorem Partition.inHand_of_isIdle {s : Partition} (h : s.phase.isIdle = true) :
    s.inHand = none := by
  unfold inHand
  cases hp : s.phase <;> simp_all [RunPhase.isIdle]

theorem Partition.frontier_of_isIdle {s : Partition} (h : s.phase.isIdle = true) :
    s.frontier = s.position := by
  unfold frontier
  cases hp : s.phase <;> simp_all [RunPhase.isIdle]

/-- The action hands a message of the topic to a worker. -/
def Action.delivers : Action → Bool
  | .deliver _ _ _ => true
  | _ => false

/-- The messages a step puts on the topic. -/
def World.accepts (s : World) : Action → List JobMessage
  | .submission i input =>
      match (s.submissions[i]?).bind (·.step input s.db) with
      | some eff => eff.accepted.toList
      | none => []
  | .publisher i input =>
      match (s.publishers[i]?).bind (·.step input s.db) with
      | some eff => eff.accepted.toList.map fun e => ⟨e.jobId⟩
      | none => []
  | _ => []

namespace Consumer

section Steps

variable (encode : JobMessage → List UInt8)

def empty (partition : Int32) : Consumer where
  partition := .empty "judge.jobs" partition
  workerId := ""
  call := 0
  former := 0
  settled := []

/-- `send_job` puts messages into the partition. -/
def produce (msgs : List JobMessage) (q : Consumer) : Consumer :=
  { q with
    partition :=
      { q.partition with log := q.partition.log ++ msgs.map fun msg => some (encode msg) } }

/-- A consumer is started for the partition, at what is committed. -/
def start (workerId : String) (cleanup : Except String Unit) (q : Consumer) : Option Consumer :=
  (q.partition.step (.start cleanup)).map fun s =>
    { q with
      partition := s
      workerId := workerId
      former := s.requests.length }

/-- The next record is taken, for the call at place `call`. -/
def receive (call : Nat) (q : Consumer) : Option Consumer :=
  (q.partition.step .receive).map fun s =>
    { q with
      partition := s
      call := call
      settled := q.settled.filter (· ≠ q.partition.position) }

/-- The call for the record in hand has returned `result`. -/
def handle (result : Except ProcessError Unit) (q : Consumer) : Option Consumer :=
  (q.partition.step (.handle result)).map fun s =>
    { q with
      partition := s
      settled :=
        match result with
        | .ok () => q.partition.inHand.toList.map Message.offset ++ q.settled
        | .error _ => q.settled }

/-- What may happen to a consumer by itself.  `.crash` takes its partition from it, also
in the middle of a call; the broker carries out no commit of a former one. -/
def permits (q : Consumer) : RunAction → Bool
  | .receiveError | .shutdown | .deadLetter _ | .commit _ | .crash => true
  | .carryOut k => k + q.former < q.partition.requests.length
  | .produce _ | .start _ | .receive | .handle _ => false

def loop (a : RunAction) (q : Consumer) : Option Consumer :=
  if q.permits a then (q.partition.step a).map fun s => { q with partition := s } else none

end Steps

end Consumer

namespace Cluster

/-- The system before its first request, its topic with `n` partitions. -/
def empty (now : Time) (n : Nat) : Cluster where
  world := .empty now
  consumers := (List.range n).map fun p => .empty (Int32.ofNat p)

/-- The consumer of partition `p` takes a step. -/
def update (p : Nat) (f : Consumer → Option Consumer) (c : Cluster) : Option Cluster :=
  (c.consumers[p]?).bind fun q => (f q).map fun q' => { c with consumers := c.consumers.set p q' }

section Steps

variable (decode : List UInt8 → Except String JobMessage) (encode : JobMessage → List UInt8)

/-- The call of `handle_message` for the record a consumer has in hand. -/
def calls (q : Consumer) : List Handler :=
  q.partition.inHand.toList.map fun message => .receive q.workerId (message.read decode)

def stepSystem (a : Action) (p : Nat) (c : Cluster) : Option Cluster :=
  if a.delivers then none
  else
    (c.consumers[p]?).bind fun q =>
      (c.world.step a).map fun world =>
        ⟨world, c.consumers.set p (q.produce encode (c.world.accepts a))⟩

def stepReceive (p : Nat) (c : Cluster) : Option Cluster :=
  (c.consumers[p]?).bind fun q =>
    (q.receive c.world.handlers.length).map fun q' =>
      ⟨{ c.world with handlers := c.world.handlers ++ calls decode q' }, c.consumers.set p q'⟩

def stepHandle (p : Nat) (c : Cluster) : Option Cluster :=
  c.update p fun q =>
    match (c.world.handlers[q.call]?).map Handler.phase with
    | some (.returned result) => q.handle result
    | _ => none

def step (c : Cluster) : ClusterAction → Option Cluster
  | .system a p => c.stepSystem encode a p
  | .start p workerId cleanup => c.update p (·.start workerId cleanup)
  | .receive p => c.stepReceive decode p
  | .handle p => c.stepHandle p
  | .loop p a => c.update p (·.loop a)

end Steps

/-- The transitions of the system with its topic. -/
inductive Move (decode : List UInt8 → Except String JobMessage)
    (encode : JobMessage → List UInt8) (c : Cluster) : ClusterAction → Cluster → Prop
  | system {a : Action} {p : Nat} {q : Consumer} {world : World} (hq : c.consumers[p]? = some q)
      (ha : a.delivers = false) (hstep : c.world.step a = some world) :
      Move decode encode c (.system a p)
        ⟨world, c.consumers.set p (q.produce encode (c.world.accepts a))⟩
  | started {p : Nat} {workerId : String} {cleanup : Except String Unit} {q : Consumer}
      {phase : RunPhase} (hq : c.consumers[p]? = some q) (hover : q.partition.phase.isOver = true)
      (hidle : phase.isIdle = true) :
      Move decode encode c (.start p workerId cleanup)
        { c with
          consumers := c.consumers.set p
            { q with
              partition :=
                { q.partition with
                  position := q.partition.committed
                  phase := phase
                  retried := [] }
              workerId := workerId
              former := q.partition.requests.length } }
  | received {p : Nat} {q : Consumer} {message : Message} (hq : c.consumers[p]? = some q)
      (hpoll : q.partition.phase = .polling)
      (hrecord : q.partition.record q.partition.position = some message) :
      Move decode encode c (.receive p)
        ⟨{ c.world with
            handlers := c.world.handlers ++ [.receive q.workerId (message.read decode)] },
          c.consumers.set p
            { q with
              partition :=
                { q.partition with
                  position := q.partition.position + 1
                  phase := .handling message }
              call := c.world.handlers.length
              settled := q.settled.filter (· ≠ q.partition.position) }⟩
  | handled {p : Nat} {q : Consumer} {hd : Handler} {message : Message}
      (hq : c.consumers[p]? = some q) (hphase : q.partition.phase = .handling message)
      (hhd : c.world.handlers[q.call]? = some hd) (hreturned : hd.phase = .returned (.ok ())) :
      Move decode encode c (.handle p)
        { c with
          consumers := c.consumers.set p
            { q with
              partition :=
                { q.partition with
                  phase := .committing message
                  handled := message.offset :: q.partition.handled }
              settled := message.offset :: q.settled } }
  | failed {p : Nat} {q : Consumer} {hd : Handler} {message : Message} {err : String}
      (hq : c.consumers[p]? = some q) (hphase : q.partition.phase = .handling message)
      (hhd : c.world.handlers[q.call]? = some hd)
      (hreturned : hd.phase = .returned (.error (.retryable err))) :
      Move decode encode c (.handle p)
        { c with
          consumers := c.consumers.set p
            { q with
              partition :=
                { q.partition with
                  phase := .polling
                  retried := message.offset :: q.partition.retried } } }
  | rejected {p : Nat} {q : Consumer} {hd : Handler} {message : Message} {err : String}
      (hq : c.consumers[p]? = some q) (hphase : q.partition.phase = .handling message)
      (hhd : c.world.handlers[q.call]? = some hd)
      (hreturned : hd.phase = .returned (.error (.permanent err))) :
      Move decode encode c (.handle p)
        { c with
          consumers := c.consumers.set p
            { q with
              partition :=
                { q.partition with phase := .deadLettering message (.permanent err) } } }
  | looped {p : Nat} {a : RunAction} {q : Consumer} {s : Partition}
      (hq : c.consumers[p]? = some q) (hpermits : q.permits a = true)
      (hstep : q.partition.step a = some s) :
      Move decode encode c (.loop p a)
        { c with consumers := c.consumers.set p { q with partition := s } }

/-- **Every step of the system with its topic is one of its transitions.** -/
theorem step_move {decode : List UInt8 → Except String JobMessage}
    {encode : JobMessage → List UInt8} {c c' : Cluster} {a : ClusterAction}
    (h : c.step decode encode a = some c') : c.Move decode encode a c' := by
  cases a with
  | system a p =>
      simp only [step, stepSystem] at h
      split at h
      · cases h
      · next ha =>
          obtain ⟨q, hq, h⟩ := Option.bind_eq_some_iff.mp h
          obtain ⟨world, hstep, rfl⟩ := Option.map_eq_some_iff.mp h
          exact .system hq (by simpa using ha) hstep
  | start p workerId cleanup =>
      obtain ⟨q, hq, h⟩ := Option.bind_eq_some_iff.mp h
      obtain ⟨q', hq', rfl⟩ := Option.map_eq_some_iff.mp h
      obtain ⟨s, hs, rfl⟩ := Option.map_eq_some_iff.mp hq'
      simp only [Partition.step, Partition.start] at hs
      split at hs
      · next hover =>
          cases hs
          cases cleanup with
          | ok _ => exact .started hq hover rfl
          | error _ => exact .started hq hover rfl
      · cases hs
  | receive p =>
      obtain ⟨q, hq, h⟩ := Option.bind_eq_some_iff.mp h
      obtain ⟨q', hq', rfl⟩ := Option.map_eq_some_iff.mp h
      obtain ⟨s, hs, rfl⟩ := Option.map_eq_some_iff.mp hq'
      simp only [Partition.step, Partition.receive] at hs
      split at hs
      · next hpoll =>
          obtain ⟨payload, hpayload, rfl⟩ := Option.map_eq_some_iff.mp hs
          exact .received hq hpoll (by simp [Partition.record, hpayload])
      · cases hs
  | handle p =>
      obtain ⟨q, hq, h⟩ := Option.bind_eq_some_iff.mp h
      obtain ⟨q', hq', rfl⟩ := Option.map_eq_some_iff.mp h
      dsimp only at hq'
      split at hq'
      · next result hresult =>
          obtain ⟨hd, hhd, hreturned⟩ := Option.map_eq_some_iff.mp hresult
          obtain ⟨s, hs, rfl⟩ := Option.map_eq_some_iff.mp hq'
          simp only [Partition.step, Partition.handle] at hs
          split at hs
          · next message hphase =>
              cases hs
              rcases result with err | ⟨⟩
              · cases err with
                | retryable err => exact .failed hq hphase hhd hreturned
                | permanent err => exact .rejected hq hphase hhd hreturned
              · have hhand : q.partition.inHand = some message := by
                  simp [Partition.inHand, hphase]
                simp only [hhand]
                exact .handled hq hphase hhd hreturned
          · cases hs
      · cases hq'
  | loop p a =>
      obtain ⟨q, hq, h⟩ := Option.bind_eq_some_iff.mp h
      obtain ⟨q', hq', rfl⟩ := Option.map_eq_some_iff.mp h
      simp only [Consumer.loop] at hq'
      split at hq'
      · next hpermits =>
          obtain ⟨s, hs, rfl⟩ := Option.map_eq_some_iff.mp hq'
          exact .looped hq hpermits hs
      · cases hq'

end Cluster

/-- What a consumer may do to its partition by itself, as long as it sends nothing
to `jobs.dlq`. -/
inductive Partition.LoopMove (s : Partition) : RunAction → Partition → Prop
  | stayed (a : RunAction) : LoopMove s a s
  | stopped {a : RunAction} {phase : RunPhase} (hover : phase.isOver = true)
      (hidle : a ≠ .crash → ∀ message, s.phase ≠ .handling message) :
      LoopMove s a { s with phase := phase }
  | committed {message : Message} (hphase : s.phase = .committing message) :
      LoopMove s (.commit (.ok ()))
        { s with phase := .polling, requests := (message.offset + 1) :: s.requests }
  | carried {k offset : Nat} (hoffset : s.requests[k]? = some offset) :
      LoopMove s (.carryOut k)
        { s with committed := offset, requests := s.requests.eraseIdx k }

theorem Consumer.loop_move {q : Consumer} {a : RunAction} {s : Partition}
    (hpermits : q.permits a = true) (h : q.partition.step a = some s)
    (hplain : ∀ message err, q.partition.phase ≠ .deadLettering message err) :
    q.partition.LoopMove a s := by
  cases a with
  | produce _ | start _ | receive | handle _ => cases hpermits
  | receiveError =>
      simp only [Partition.step, Partition.receiveError] at h
      split at h <;> cases h
      exact .stayed _
  | shutdown =>
      simp only [Partition.step, Partition.shutdown] at h
      split at h <;> cases h
      next hpoll => exact .stopped rfl (by simp [hpoll])
  | deadLetter reply =>
      -- `hplain` rules the one branch out that does something
      simp only [Partition.step, Partition.deadLetter] at h
      cases h
  | commit result =>
      simp only [Partition.step, Partition.commit] at h
      split at h <;> cases h
      next message hphase =>
        cases result with
        | ok _ => exact .committed hphase
        | error err => exact .stopped rfl (by simp [hphase])
  | carryOut k =>
      obtain ⟨offset, hoffset, rfl⟩ := Option.map_eq_some_iff.mp h
      exact .carried hoffset
  | crash =>
      simp only [Partition.step, Partition.crash] at h
      split at h <;> cases h
      exact .stopped rfl (fun hne => absurd rfl hne)

/-! ## A case of the system -/

namespace World

section Steps

variable {s s' : World} {a : Action}

/-- The accepted messages are what a step sends. -/
theorem sent_of_accepts (h : s.step a = some s') :
    s'.sent = (s.accepts a).map JobMessage.jobId ++ s.sent := by
  cases a with
  | submission i input =>
      obtain ⟨sub, hsub, h⟩ := Option.bind_eq_some_iff.mp h
      obtain ⟨eff, heff, rfl⟩ := Option.map_eq_some_iff.mp h
      simp [accepts, hsub, heff]
  | publisher i input =>
      obtain ⟨p, hp, h⟩ := Option.bind_eq_some_iff.mp h
      obtain ⟨eff, heff, rfl⟩ := Option.map_eq_some_iff.mp h
      simp [accepts, hp, heff, Function.comp_def]
  | _ => cases step_move h <;> rfl

/-- A call that was at work has ended so that its message comes back. -/
def ComesBack (s : World) (a : Action) (s' : World) (payload : Payload) : Prop :=
  ∃ i input hd hd', a = .handler i input ∧ s.handlers[i]? = some hd ∧
    hd.phase.jobId.isSome = true ∧ s'.handlers[i]? = some hd' ∧ hd'.owesRedelivery = true ∧
    hd.payload = payload

/-- A step that delivers nothing takes nothing from the topic, and would be the
same on any other topic. -/
theorem step_requeued (h : s.step a = some s') (ha : a.delivers = false) (q : List Payload) :
    ∃ added, s'.queue = added ++ s.queue ∧
      ({ s with queue := q } : World).step a = some { s' with queue := added ++ q } ∧
      (∀ msg ∈ s.accepts a, .message msg ∈ added) ∧
      ∀ payload ∈ added, (∃ msg ∈ s.accepts a, payload = .message msg) ∨
        s.ComesBack a s' payload := by
  cases a with
  | deliver k workerId again => cases ha
  | advance d => cases h; exact ⟨[], rfl, rfl, by simp [accepts], by simp⟩
  | post results id => cases h; exact ⟨[], rfl, rfl, by simp [accepts], by simp⟩
  | spawnPublisher => cases h; exact ⟨[], rfl, rfl, by simp [accepts], by simp⟩
  | reap gen reply =>
      simp only [step, stepReap] at h ⊢
      split at h
      · next hexec =>
          obtain ⟨res, hres, rfl⟩ := Option.map_eq_some_iff.mp h
          exact ⟨[], rfl, by rw [if_pos hexec, hres]; rfl, by simp [accepts], by simp⟩
      · next hexec =>
          cases h
          exact ⟨[], rfl, by rw [if_neg hexec]; rfl, by simp [accepts], by simp⟩
  | submission i input =>
      obtain ⟨sub, hsub, h⟩ := Option.bind_eq_some_iff.mp h
      obtain ⟨eff, heff, rfl⟩ := Option.map_eq_some_iff.mp h
      refine ⟨eff.accepted.toList.map Payload.message, rfl, ?_, ?_, ?_⟩
      · simp [step, stepSubmission, hsub, heff]
      · simp [accepts, hsub, heff]
      · intro payload hmem
        obtain ⟨msg, hmsg, rfl⟩ := List.mem_map.mp hmem
        exact Or.inl ⟨msg, by simpa [accepts, hsub, heff] using hmsg, rfl⟩
  | publisher i input =>
      obtain ⟨p, hp, h⟩ := Option.bind_eq_some_iff.mp h
      obtain ⟨eff, heff, rfl⟩ := Option.map_eq_some_iff.mp h
      refine ⟨eff.accepted.toList.map fun e => .message ⟨e.jobId⟩, rfl, ?_, ?_, ?_⟩
      · simp [step, stepPublisher, hp, heff]
      · simp [accepts, hp, heff]
      · intro payload hmem
        obtain ⟨e, he, rfl⟩ := List.mem_map.mp hmem
        refine Or.inl ⟨⟨e.jobId⟩, ?_, rfl⟩
        simp only [accepts, hp, Option.bind_some, heff]
        exact List.mem_map_of_mem he
  | handler i input =>
      simp only [step, stepHandler] at h ⊢
      split at h
      · cases h
      · next hfresh =>
          obtain ⟨hd, hhd, h⟩ := Option.bind_eq_some_iff.mp h
          obtain ⟨eff, heff, rfl⟩ := Option.map_eq_some_iff.mp h
          refine ⟨if eff.handler.owesRedelivery && !hd.owesRedelivery then [hd.payload] else [],
            ?_, ?_, by simp [accepts], ?_⟩
          · dsimp only
            split <;> rfl
          · rw [if_neg hfresh]
            simp only [hhd, Option.bind_some, heff, Option.map_some]
            congr 2
            split <;> rfl
          · intro payload hmem
            split at hmem
            · next howes =>
                simp only [Bool.and_eq_true, Bool.not_eq_true'] at howes
                cases List.mem_singleton.mp hmem
                refine Or.inr ⟨i, input, hd, eff.handler, rfl, hhd, ?_, ?_, howes.1, rfl⟩
                · rcases (Handler.step_move heff).jobId_or with ⟨_, hsame⟩ | ⟨hjob, _⟩
                  · rw [hsame, howes.2] at howes
                    cases howes.1
                  · exact hjob
                · exact List.getElem?_set_self (List.getElem?_eq_some_iff.mp hhd).1
            · cases hmem

end Steps

end World

/-- Only `send_job` changes what is in a partition. -/
theorem Partition.record_of_step {s s' : Partition} {a : RunAction} (h : s.step a = some s')
    (ha : ∀ payload, a ≠ .produce payload) (o : Nat) : s'.record o = s.record o := by
  have hframe : s'.log = s.log ∧ s'.topic = s.topic ∧ s'.partition = s.partition := by
    cases a with
    | produce payload => exact absurd rfl (ha payload)
    | start cleanup =>
        simp only [step, start] at h
        split at h <;> cases h
        exact ⟨rfl, rfl, rfl⟩
    | receive =>
        simp only [step, receive] at h
        split at h
        · obtain ⟨payload, _, rfl⟩ := Option.map_eq_some_iff.mp h
          exact ⟨rfl, rfl, rfl⟩
        · cases h
    | receiveError =>
        simp only [step, receiveError] at h
        split at h <;> cases h
        exact ⟨rfl, rfl, rfl⟩
    | shutdown =>
        simp only [step, shutdown] at h
        split at h <;> cases h
        exact ⟨rfl, rfl, rfl⟩
    | handle result =>
        simp only [step, handle] at h
        split at h <;> cases h
        split <;> exact ⟨rfl, rfl, rfl⟩
    | deadLetter reply =>
        simp only [step, deadLetter] at h
        split at h <;> cases h
        split <;> exact ⟨rfl, rfl, rfl⟩
    | commit result =>
        simp only [step, commit] at h
        split at h <;> cases h
        split <;> exact ⟨rfl, rfl, rfl⟩
    | carryOut k =>
        obtain ⟨offset, _, rfl⟩ := Option.map_eq_some_iff.mp h
        exact ⟨rfl, rfl, rfl⟩
    | crash =>
        simp only [step, crash] at h
        split at h <;> cases h
        exact ⟨rfl, rfl, rfl⟩
  obtain ⟨hlog, htopic, hpartition⟩ := hframe
  simp only [record, hlog, htopic, hpartition]

/-- A record of a partition that messages are put into is an old one or one of
them. -/
theorem Consumer.record_produce {encode : JobMessage → List UInt8} {msgs : List JobMessage}
    {q : Consumer} {o : Nat} {message : Message}
    (h : (q.produce encode msgs).partition.record o = some message) :
    (o < q.partition.log.length ∧ q.partition.record o = some message) ∨
      (q.partition.log.length ≤ o ∧ ∃ msg ∈ msgs, message.payload = some (encode msg)) := by
  obtain ⟨payload, hpayload, rfl⟩ := Option.map_eq_some_iff.mp h
  change (q.partition.log ++ msgs.map fun msg => some (encode msg))[o]? = some payload at hpayload
  by_cases ho : o < q.partition.log.length
  · rw [List.getElem?_append_left ho] at hpayload
    exact Or.inl ⟨ho, by simp only [Partition.record, hpayload]; rfl⟩
  · have hle : q.partition.log.length ≤ o := Nat.le_of_not_lt ho
    rw [List.getElem?_append_right hle] at hpayload
    obtain ⟨msg, hmsg, rfl⟩ := List.mem_map.mp (List.mem_of_getElem? hpayload)
    exact Or.inr ⟨hle, msg, hmsg, rfl⟩

/-- A consumer that is not replaced is an old one. -/
theorem Cluster.forall_set {consumers : List Consumer} {P : Consumer → Prop} {p : Nat}
    {q' : Consumer} (hold : ∀ q ∈ consumers, P q) (hnew : P q') :
    ∀ q ∈ consumers.set p q', P q := by
  intro q hq
  rcases List.mem_or_eq_of_mem_set hq with hmem | rfl
  · exact hold q hmem
  · exact hnew

section Codec

variable {decode : List UInt8 → Except String JobMessage} {encode : JobMessage → List UInt8}
  (hcodec : ∀ msg, decode (encode msg) = .ok msg)

include hcodec

theorem Message.read_encode {message : Message} {msg : JobMessage}
    (h : message.payload = some (encode msg)) : message.read decode = .message msg := by
  simp [read, h, hcodec]

namespace Cluster

/-- The world of the system with its topic against the system: they are the same, and
every record is there to be delivered. -/
def Simulated (decode : List UInt8 → Except String JobMessage) (c : Cluster) (s : World) : Prop :=
  c.world = s ∧ ∀ q ∈ c.consumers, ∀ o message, q.partition.record o = some message →
    message.read decode ∈ s.queue

/-- **A step of the system with its topic is a run of the system.** -/
theorem simulated_step (c : Cluster) (a : ClusterAction) (c' : Cluster) (s : World)
    (hs : c.Simulated decode s) (h : c.step decode encode a = some c') :
    ∃ bs s', Runs.exec World.step s bs = some s' ∧ c'.Simulated decode s' := by
  obtain ⟨rfl, hrecords⟩ := hs
  have hstays : ∀ {p : Nat} {q q' : Consumer}, c.consumers[p]? = some q →
      (∀ o, q'.partition.record o = q.partition.record o) →
      ∃ bs s', Runs.exec World.step c.world bs = some s' ∧
        Simulated decode { c with consumers := c.consumers.set p q' } s' := by
    intro p q q' hq hsame
    refine ⟨[], c.world, rfl, rfl, forall_set hrecords ?_⟩
    intro o message hmessage
    rw [hsame] at hmessage
    exact hrecords q (List.mem_of_getElem? hq) o message hmessage
  cases step_move h with
  | @system a p q world hq ha hstep =>
      obtain ⟨added, hqueue, _, haccepted, _⟩ := World.step_requeued hstep ha []
      have hkept : ∀ payload ∈ c.world.queue, payload ∈ world.queue := by
        intro payload hmem
        rw [hqueue]
        exact List.mem_append_right _ hmem
      refine ⟨[a], world, by simp [Runs.exec, hstep], rfl, forall_set ?_ ?_⟩
      · intro q hq o message hmessage
        exact hkept _ (hrecords q hq o message hmessage)
      · intro o message hmessage
        rcases Consumer.record_produce hmessage with ⟨_, hold⟩ | ⟨_, msg, hmsg, hpayload⟩
        · exact hkept _ (hrecords q (List.mem_of_getElem? hq) o message hold)
        · rw [Message.read_encode hcodec hpayload, hqueue]
          exact List.mem_append_left _ (haccepted msg hmsg)
  | @received p q message hq hpoll hrecord =>
      have hmem := hrecords q (List.mem_of_getElem? hq) _ message hrecord
      obtain ⟨k, hk⟩ := List.mem_iff_getElem?.mp hmem
      refine ⟨[.deliver k q.workerId true], _, ?_, rfl, forall_set hrecords ?_⟩
      · simp [Runs.exec, World.step, World.stepDeliver, hk]
      · exact hrecords q (List.mem_of_getElem? hq)
  | started hq _ _ | handled hq _ _ _ | failed hq _ _ _ | rejected hq _ _ _ =>
      exact hstays hq (fun _ => rfl)
  | looped hq hpermits hstep =>
      refine hstays hq (fun o => Partition.record_of_step hstep ?_ o)
      intro payload heq
      subst heq
      cases hpermits

/-- **The system with its topic is a case of the system.**  Every state it gets
into, apart from its consumers, is a state of some run of the system. -/
theorem reachable_of_run (now : Time) (n : Nat) {as : List ClusterAction} {c : Cluster}
    (hrun : Runs.exec (step decode encode) (empty now n) as = some c) :
    ∃ bs, Runs.exec World.step (.empty now) bs = some c.world := by
  have hempty : (empty now n).Simulated decode (.empty now) := by
    refine ⟨rfl, ?_⟩
    intro q hq o message hmessage
    obtain ⟨p, _, rfl⟩ := List.mem_map.mp hq
    simp [Consumer.empty, Partition.empty, Partition.record] at hmessage
  obtain ⟨bs, s, hbs, rfl, _⟩ := Runs.exec_of_simulation (simulated_step hcodec) hempty hrun
  exact ⟨bs, hbs⟩

end Cluster

end Codec

namespace Cluster

/-- Jobs `1` and `2` are submitted, each to a partition of its own. -/
def submitted : List ClusterAction :=
  (Action.submit 0 1).map (.system · 0) ++ (Action.submit 1 2).map (.system · 1)

/-- Worker-1 has started job `1` when its partition is given to worker-3, whose call for
the same record takes the job over; the first call finds its lease lost. -/
def takenOver : List ClusterAction :=
  [.start 0 "worker-1" (.ok ()), .receive 0] ++ (Action.start 0 5).map (.system · 0) ++
    [.system (.handler 0 (.mark .ok)) 0, .system (.handler 0 (.runRust Action.helloCalls)) 0,
      .loop 0 .crash, .start 0 "worker-3" (.ok ()), .receive 0] ++
    (Action.start 1 6).map (.system · 0) ++
    ([.collect, .beatCancelled, .join, .finish .ok].map (Action.handler 0)).map (.system · 0) ++
    (Action.answer 1).map (.system · 0) ++
    [.handle 0, .loop 0 (.commit (.ok ())), .loop 0 (.carryOut 0)]

/-- The database is away when worker-2 takes the record of job `2`, and back when the
worker has been restarted. -/
def retriedJob : List ClusterAction :=
  [.start 1 "worker-2" (.ok ()), .receive 1,
    .system (.handler 2 (.select (.failed "connection refused"))) 1, .handle 1,
    .loop 1 .shutdown, .start 1 "worker-2" (.ok ()), .receive 1] ++
    (Action.start 3 7 ++ Action.answer 3).map (.system · 1) ++
    [.handle 1, .loop 1 (.commit (.ok ())), .loop 1 (.carryOut 0)]

/-- Both jobs are executed, the one past a rebalance, the other past a restart. -/
def committedJobs : List ClusterAction :=
  submitted ++ takenOver ++ retriedJob

theorem committed_jobs_reachable :
    ∃ c, Runs.exec (step JobMessage.fromSlice JobMessage.toVec) (empty 0 2) committedJobs =
        some c ∧
      ∃ bs, Runs.exec World.step (.empty 0) bs = some c.world := by
  have hruns : (Runs.exec (step JobMessage.fromSlice JobMessage.toVec) (empty 0 2)
      committedJobs).isSome = true := by decide +kernel
  obtain ⟨c, hrun⟩ := Option.isSome_iff_exists.mp hruns
  exact ⟨c, hrun, reachable_of_run JobMessage.fromSlice_toVec 0 2 hrun⟩

end Cluster

end EditorBack
