import EditorBack.Models
import EditorBack.Runs

/-!
# The consumer loop

`KafkaConsumer::run` on one partition of `judge.jobs`.  The loop takes the
records in order and commits after each one it is done with; a commit moves the
group's offset past everything before it.  A record whose handling is
`Retryable` gets no commit of its own, but it does not stop the loop either.

The partition is a list of payloads, a record's offset being its place in the
list.  A commit is a request the client accepts and the broker carries out
later, if at all, and a consumer that is started again begins at the committed
offset.  `handled`, `dlq` and `retried` record what happened; the loop does not
read them.
-/

namespace EditorBack

/-- A record received from a topic. -/
structure Message where
  payload : Option (List UInt8)
  topic : String
  partition : Int32
  offset : Nat

/-- The record `send_to_dlq` sends about a message. -/
def Message.toDlq (message : Message) (error : ProcessError) : DlqMessage where
  originalPayload := message.payload.getD []
  error := error.toString
  topic := message.topic
  partition := message.partition
  offset := message.offset

/-- Where the loop stands. -/
inductive RunPhase
  /-- waiting for the next record or the shutdown signal -/
  | polling
  /-- inside `handle_message` -/
  | handling (message : Message)
  /-- inside `send_to_dlq` -/
  | deadLettering (message : Message) (error : ProcessError)
  /-- before `commit_message` -/
  | committing (message : Message)
  | returned (result : Except String Unit)
  | crashed

/-- The loop is not in progress. -/
def RunPhase.isOver : RunPhase → Bool
  | .returned _ | .crashed => true
  | _ => false

/-- One partition, its group's committed offset and the consumer it is assigned
to. -/
structure Partition where
  topic : String
  partition : Int32
  log : List (Option (List UInt8))
  committed : Nat
  /-- accepted commits the broker has not carried out, newest first -/
  requests : List Nat
  position : Nat
  phase : RunPhase
  /-- the offsets whose `handle_message` has returned `Ok` -/
  handled : List Nat
  /-- the acknowledged records on `jobs.dlq` -/
  dlq : List DlqMessage
  /-- the offsets that have ended `Retryable` since the consumer was started -/
  retried : List Nat

inductive RunAction
  | produce (payload : Option (List UInt8))
  | start (cleanup : Except String Unit)
  | receive
  | receiveError
  /-- the shutdown signal, or the end of the stream -/
  | shutdown
  | handle (result : Except ProcessError Unit)
  | deadLetter (reply : SendReply)
  | commit (result : Except String Unit)
  | carryOut (k : Nat)
  | crash

namespace Partition

def empty (topic : String) (partition : Int32) : Partition where
  topic := topic
  partition := partition
  log := []
  committed := 0
  requests := []
  position := 0
  phase := .returned (.ok ())
  handled := []
  dlq := []
  retried := []

/-- `run` up to its loop, on the partition as the group's offset has it. -/
def start (cleanup : Except String Unit) (s : Partition) : Option Partition :=
  if s.phase.isOver then
    some { s with
      position := s.committed
      phase :=
        match cleanup with
        | .ok () => .polling
        | .error err => .returned (.error err)
      retried := [] }
  else none

/-- `stream.next()` gives the next record. -/
def receive (s : Partition) : Option Partition :=
  match s.phase with
  | .polling =>
      (s.log[s.position]?).map fun payload =>
        { s with
          position := s.position + 1
          phase := .handling ⟨payload, s.topic, s.partition, s.position⟩ }
  | _ => none

/-- `stream.next()` gives an error, which is logged. -/
def receiveError (s : Partition) : Option Partition :=
  match s.phase with
  | .polling => some s
  | _ => none

def shutdown (s : Partition) : Option Partition :=
  match s.phase with
  | .polling => some { s with phase := .returned (.ok ()) }
  | _ => none

/-- The `match` on the result of `handle_message`. -/
def handle (result : Except ProcessError Unit) (s : Partition) : Option Partition :=
  match s.phase with
  | .handling message =>
      some
        (match result with
        | .ok () =>
            { s with phase := .committing message, handled := message.offset :: s.handled }
        | .error (.permanent err) => { s with phase := .deadLettering message (.permanent err) }
        | .error (.retryable _) =>
            { s with phase := .polling, retried := message.offset :: s.retried })
  | _ => none

/-- `self.send_to_dlq(&message, &err).await?` -/
def deadLetter (reply : SendReply) (s : Partition) : Option Partition :=
  match s.phase with
  | .deadLettering message error =>
      some
        (match reply with
        | .acked =>
            { s with phase := .committing message, dlq := message.toDlq error :: s.dlq }
        | .refused err | .unacked err =>
            { s with
              phase := .returned (.error ("failed to send message to DLQ: " ++ err)) })
  | _ => none

/-- `self.consumer.commit_message(&message, CommitMode::Async)` -/
def commit (result : Except String Unit) (s : Partition) : Option Partition :=
  match s.phase with
  | .committing message =>
      some
        (match result with
        | .ok () =>
            { s with phase := .polling, requests := (message.offset + 1) :: s.requests }
        | .error err =>
            { s with phase := .returned (.error ("Kafka commit failed: " ++ err)) })
  | _ => none

/-- The broker carries out an accepted commit. -/
def carryOut (k : Nat) (s : Partition) : Option Partition :=
  (s.requests[k]?).map fun offset =>
    { s with committed := offset, requests := s.requests.eraseIdx k }

def crash (s : Partition) : Option Partition :=
  if s.phase.isOver then none else some { s with phase := .crashed }

def step (s : Partition) : RunAction → Option Partition
  | .produce payload => some { s with log := s.log ++ [payload] }
  | .start cleanup => s.start cleanup
  | .receive => s.receive
  | .receiveError => s.receiveError
  | .shutdown => s.shutdown
  | .handle result => s.handle result
  | .deadLetter reply => s.deadLetter reply
  | .commit result => s.commit result
  | .carryOut k => s.carryOut k
  | .crash => s.crash

/-! ## What a commit passes over -/

/-- The message at an offset was handled with `Ok`, or a record with its
payload, topic, partition and offset was acknowledged on `jobs.dlq`. -/
def Processed (s : Partition) (o : Nat) : Prop :=
  o ∈ s.handled ∨ ∃ payload, s.log[o]? = some payload ∧ ∃ d ∈ s.dlq,
    d.originalPayload = payload.getD [] ∧ d.topic = s.topic ∧ d.partition = s.partition ∧
      d.offset = o

/-- Every message below the committed offset was processed. -/
def CommitsProcessed (s : Partition) : Prop :=
  ∀ o < s.committed, s.Processed o

/-- A commit is issued only as long as no record has ended `Retryable` since the
consumer was started. -/
def CommitsBeforeRetry (s : Partition) (a : RunAction) (_ : Partition) : Prop :=
  match a with
  | .commit (.ok ()) => s.retried = []
  | _ => True

instance (s : Partition) (a : RunAction) (s' : Partition) :
    Decidable (CommitsBeforeRetry s a s') := by
  unfold CommitsBeforeRetry
  split <;> infer_instance

/-- The first offset the consumer is not done with: that of the record in hand,
or the next one. -/
def frontier (s : Partition) : Nat :=
  match s.phase with
  | .handling message | .deadLettering message _ => message.offset
  | _ => s.position

/-- The record in hand, if there is one. -/
def inHand (s : Partition) : Option Message :=
  match s.phase with
  | .handling message | .deadLettering message _ | .committing message => some message
  | _ => none

/-- The consumer against its partition. -/
structure Sound (s : Partition) : Prop where
  committed : ∀ o < s.committed, s.Processed o
  requests : ∀ n ∈ s.requests, ∀ o < n, s.Processed o
  passed : s.phase.isOver = false → s.retried = [] → ∀ o < s.frontier, s.Processed o
  received : ∀ message, s.inHand = some message →
    s.position = message.offset + 1 ∧ s.log[message.offset]? = some message.payload ∧
      message.topic = s.topic ∧ message.partition = s.partition

/-- Processed messages stay processed while the partition grows. -/
theorem Processed.mono {s s' : Partition} {o : Nat} (h : s.Processed o)
    (hhandled : ∀ n ∈ s.handled, n ∈ s'.handled) (hdlq : ∀ d ∈ s.dlq, d ∈ s'.dlq)
    (hlog : ∀ payload, s.log[o]? = some payload → s'.log[o]? = some payload)
    (htopic : s'.topic = s.topic) (hpartition : s'.partition = s.partition) :
    s'.Processed o := by
  rcases h with hok | ⟨payload, hp, d, hd, hcolumns⟩
  · exact Or.inl (hhandled o hok)
  · refine Or.inr ⟨payload, hlog payload hp, d, hdlq d hd, ?_⟩
    rw [htopic, hpartition]
    exact hcolumns

section Steps

variable {s s' : Partition}

/-- A loop that ends leaves everything as it was. -/
private theorem Sound.ended (hs : s.Sound) {phase : RunPhase} (hover : phase.isOver = true) :
    Sound { s with phase := phase } := by
  refine ⟨hs.committed, hs.requests, ?_, ?_⟩
  · intro hnot
    have hboth : phase.isOver = false := hnot
    rw [hover] at hboth
    cases hboth
  · intro message hmessage
    cases phase with
    | returned result => cases hmessage
    | crashed => cases hmessage
    | _ => cases hover

/-- Going on to the commit of the record in hand, once that is processed. -/
private theorem Sound.toCommit (hs : s.Sound) {message : Message} {handled : List Nat}
    {dlq : List DlqMessage} (hhand : s.inHand = some message)
    (hfrontier : s.frontier = message.offset) (hactive : s.phase.isOver = false)
    (hmono : ∀ o, s.Processed o →
      Processed { s with phase := .committing message, handled := handled, dlq := dlq } o)
    (hdone : Processed { s with phase := .committing message, handled := handled, dlq := dlq }
      message.offset) :
    Sound { s with phase := .committing message, handled := handled, dlq := dlq } := by
  obtain ⟨hposition, hcolumns⟩ := hs.received message hhand
  refine ⟨fun o ho => hmono o (hs.committed o ho),
    fun n hn o ho => hmono o (hs.requests n hn o ho), ?_, ?_⟩
  · intro _ hretried o ho
    have hlt : o < message.offset + 1 := hposition ▸ ho
    by_cases heq : o = message.offset
    · rw [heq]
      exact hdone
    · apply hmono
      apply hs.passed hactive hretried
      rw [hfrontier]
      omega
  · intro message' hmessage'
    cases hmessage'
    exact ⟨hposition, hcolumns⟩

private theorem sound_produce (hs : s.Sound) (payload : Option (List UInt8)) :
    Sound { s with log := s.log ++ [payload] } := by
  have hlog : ∀ {o : Nat} {p : Option (List UInt8)}, s.log[o]? = some p →
      (s.log ++ [payload])[o]? = some p := by
    intro o p hp
    rw [List.getElem?_append_left (List.getElem?_eq_some_iff.mp hp).1]
    exact hp
  have hmono : ∀ o, s.Processed o → Processed { s with log := s.log ++ [payload] } o := by
    intro o ho
    exact ho.mono (fun _ hn => hn) (fun _ hd => hd) (fun _ hp => hlog hp) rfl rfl
  refine ⟨fun o ho => hmono o (hs.committed o ho), fun n hn o ho => hmono o (hs.requests n hn o ho),
    fun hactive hretried o ho => hmono o (hs.passed hactive hretried o ho), ?_⟩
  intro message hmessage
  obtain ⟨hposition, hpayload, hcolumns⟩ := hs.received message hmessage
  exact ⟨hposition, hlog hpayload, hcolumns⟩

/-- A consumer that is started begins where the commits have got to. -/
private theorem sound_start {cleanup : Except String Unit} (hs : s.Sound)
    (h : s.start cleanup = some s') : s'.Sound := by
  unfold start at h
  split at h
  · cases h
    cases cleanup with
    | ok _ => exact ⟨hs.committed, hs.requests, fun _ _ o ho => hs.committed o ho, by simp [inHand]⟩
    | error err => exact ⟨hs.committed, hs.requests, nofun, by simp [inHand]⟩
  · cases h

private theorem sound_receive (hs : s.Sound) (h : s.receive = some s') : s'.Sound := by
  unfold receive at h
  split at h
  · next hphase =>
      obtain ⟨payload, hpayload, rfl⟩ := Option.map_eq_some_iff.mp h
      refine ⟨hs.committed, hs.requests, ?_, ?_⟩
      · intro _ hretried o ho
        have hfrontier : s.frontier = s.position := by simp [frontier, hphase]
        apply hs.passed (by rw [hphase]; rfl) hretried
        rw [hfrontier]
        exact ho
      · intro message hmessage
        cases hmessage
        exact ⟨rfl, hpayload, rfl, rfl⟩
  · cases h

private theorem sound_handle {result : Except ProcessError Unit} (hs : s.Sound)
    (h : s.handle result = some s') : s'.Sound := by
  unfold handle at h
  split at h
  · next message hphase =>
      cases h
      have hhand : s.inHand = some message := by simp [inHand, hphase]
      have hfrontier : s.frontier = message.offset := by simp [frontier, hphase]
      have hactive : s.phase.isOver = false := by rw [hphase]; rfl
      cases result with
      | ok _ =>
          apply hs.toCommit hhand hfrontier hactive
          · intro o ho
            exact ho.mono (fun _ hn => List.mem_cons_of_mem _ hn) (fun _ hd => hd)
              (fun _ hp => hp) rfl rfl
          · exact Or.inl List.mem_cons_self
      | error err =>
          cases err with
          | permanent err =>
              refine ⟨hs.committed, hs.requests, ?_, ?_⟩
              · intro _ hretried o ho
                apply hs.passed hactive hretried
                rw [hfrontier]
                exact ho
              · intro message' hmessage'
                cases hmessage'
                exact hs.received message hhand
          | retryable err => exact ⟨hs.committed, hs.requests, nofun, by simp [inHand]⟩
  · cases h

private theorem sound_deadLetter {reply : SendReply} (hs : s.Sound)
    (h : s.deadLetter reply = some s') : s'.Sound := by
  unfold deadLetter at h
  split at h
  · next message error hphase =>
      cases h
      have hhand : s.inHand = some message := by simp [inHand, hphase]
      have hfrontier : s.frontier = message.offset := by simp [frontier, hphase]
      have hactive : s.phase.isOver = false := by rw [hphase]; rfl
      obtain ⟨_, hpayload, htopic, hpartition⟩ := hs.received message hhand
      cases reply with
      | acked =>
          apply hs.toCommit hhand hfrontier hactive
          · intro o ho
            exact ho.mono (fun _ hn => hn) (fun _ hd => List.mem_cons_of_mem _ hd)
              (fun _ hp => hp) rfl rfl
          · exact Or.inr ⟨message.payload, hpayload, message.toDlq error, List.mem_cons_self, rfl,
              htopic, hpartition, rfl⟩
      | refused err => exact hs.ended rfl
      | unacked err => exact hs.ended rfl
  · cases h

/-- A commit is asked for while everything up to its record is processed. -/
private theorem sound_commit {result : Except String Unit} (hs : s.Sound)
    (h : s.commit result = some s') (hretried : result = .ok () → s.retried = []) :
    s'.Sound := by
  unfold commit at h
  split at h
  · next message hphase =>
      cases h
      cases result with
      | ok _ =>
          have hfrontier : s.frontier = s.position := by simp [frontier, hphase]
          have hpassed : ∀ o < s.position, s.Processed o := by
            intro o ho
            apply hs.passed (by rw [hphase]; rfl) (hretried rfl)
            rw [hfrontier]
            exact ho
          refine ⟨hs.committed, ?_, fun _ _ => hpassed, by simp [inHand]⟩
          intro n hn o ho
          obtain ⟨hposition, _⟩ := hs.received message (by simp [inHand, hphase])
          rcases List.mem_cons.mp hn with rfl | hold
          · apply hpassed
            rw [hposition]
            exact ho
          · exact hs.requests n hold o ho
      | error err => exact hs.ended rfl
  · cases h

private theorem sound_carryOut {k : Nat} (hs : s.Sound) (h : s.carryOut k = some s') :
    s'.Sound := by
  obtain ⟨offset, hoffset, rfl⟩ := Option.map_eq_some_iff.mp h
  exact ⟨hs.requests offset (List.mem_of_getElem? hoffset),
    fun n hn => hs.requests n (List.mem_of_mem_eraseIdx hn), hs.passed, hs.received⟩

end Steps

/-- **While no record ends `Retryable`, the loop leaves nothing unprocessed
behind.** -/
theorem sound_step (s : Partition) (a : RunAction) (s' : Partition) (hs : s.Sound)
    (h : s.step a = some s') (hcond : CommitsBeforeRetry s a s') : s'.Sound := by
  cases a with
  | produce payload =>
      cases h
      exact sound_produce hs payload
  | start cleanup => exact sound_start hs h
  | receive => exact sound_receive hs h
  | receiveError =>
      simp only [step, receiveError] at h
      split at h
      · cases h
        exact hs
      · cases h
  | shutdown =>
      simp only [step, shutdown] at h
      split at h
      · cases h
        exact hs.ended rfl
      · cases h
  | handle result => exact sound_handle hs h
  | deadLetter reply => exact sound_deadLetter hs h
  | commit result =>
      apply sound_commit hs h
      intro hok
      subst hok
      exact hcond
  | carryOut k => exact sound_carryOut hs h
  | crash =>
      simp only [step, crash] at h
      split at h
      · cases h
      · cases h
        exact hs.ended rfl

theorem sound_empty (topic : String) (partition : Int32) : (empty topic partition).Sound := by
  refine ⟨?_, ?_, ?_, ?_⟩ <;> simp [empty, inHand, RunPhase.isOver]

/-- **No commit passes over an unprocessed message**, in any run in which the
consumer commits nothing once a record has ended `Retryable`. -/
theorem commits_pass_processed (topic : String) (partition : Int32) (as : List RunAction)
    (hcond : Runs.StepsMeet step CommitsBeforeRetry (empty topic partition) as) :
    Runs.HoldsAlong step CommitsProcessed (empty topic partition) as := by
  have hinv := Runs.holdsAlong_of_stepsMeet sound_step (sound_empty topic partition) hcond
  exact hinv.mono (fun s hs => hs.committed)

/-- One record is handled, a second one is dead-lettered, and the worker is
restarted over a third one that ends `Retryable`. -/
def restartedAfterRetry : List RunAction :=
  [.produce (some [123]), .produce none, .produce (some [125]), .start (.ok ()),
    .receive, .handle (.ok ()), .commit (.ok ()),
    .receive, .handle (.error (.permanent "no payload")), .deadLetter .acked, .commit (.ok ()),
    .receive, .handle (.error (.retryable "connection reset by peer")), .crash,
    .carryOut 1, .carryOut 0, .start (.ok ()), .receive, .handle (.ok ()), .commit (.ok ()),
    .carryOut 0]

theorem commits_pass_processed_restarted :
    Runs.HoldsAlong step CommitsProcessed (empty "judge.jobs" 0) restartedAfterRetry :=
  commits_pass_processed "judge.jobs" 0 restartedAfterRetry (by decide)

/-- A record ends `Retryable` and the next one, handled by the same consumer,
is committed. -/
def committedOver : List RunAction :=
  [.produce (some [123]), .produce (some [125]), .start (.ok ()),
    .receive, .handle (.error (.retryable "connection reset by peer")),
    .receive, .handle (.ok ()), .commit (.ok ()), .carryOut 0]

/-- The commit of the second record passes over the first. -/
theorem commit_passes_over_retryable :
    ¬ Runs.HoldsAlong step CommitsProcessed (empty "judge.jobs" 0) committedOver := by
  intro h
  have hend : (Runs.exec step (empty "judge.jobs" 0) committedOver).map
      (fun s => (s.committed, s.handled, s.dlq)) = some (2, [1], []) := by decide
  obtain ⟨s, hrun, hs⟩ := Option.map_eq_some_iff.mp hend
  simp only [Prod.mk.injEq] at hs
  obtain ⟨hcommitted, hhandled, hdlq⟩ := hs
  rcases h.final hrun 0 (by rw [hcommitted]; decide) with hok | ⟨payload, _, d, hd, _⟩
  · rw [hhandled] at hok
    simp at hok
  · rw [hdlq] at hd
    cases hd

end Partition

end EditorBack
