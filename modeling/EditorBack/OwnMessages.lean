import EditorBack.ConsumerLoop
import EditorBack.Provenance

/-!
# Messages the system sends itself

`handle_message` fails permanently for a payload it cannot read, a job it
cannot find and a language it cannot run.  None of these happens to a message
that `send_job` has put on the topic: it decodes, the row it names was inserted
before it was sent, and `create` writes every row with the language `rust`,
which no statement changes.

`own_messages_never_permanent` is the result; its second half follows the
answer to the consumer loop, which sends nothing to `jobs.dlq` about a record
whose calls never fail permanently.
-/

namespace EditorBack

/-- The job a call has loaded, while it works on it. -/
def Phase.job : Phase → Option Job
  | .queuing job | .observing job | .starting job | .marking job | .running job
  | .collecting job _ | .joining job _ | .finishing job _ _ => some job
  | .selecting _ | .returned _ | .panicked | .crashed => none

namespace Handler

/-- A call on a message that decodes to a job in Rust, and has not failed
permanently. -/
structure Ordinary (h : Handler) : Prop where
  payload : ∃ msg, h.payload = .message msg
  language : ∀ job, h.phase.job = some job → job.language = "rust"
  answer : ∀ job args answer, h.phase = .finishing job args answer → answer = .ok ()
  accepted : ∀ err, h.phase ≠ .returned (.error (.permanent err))

theorem receive_ordinary (workerId : String) (msg : JobMessage) :
    (receive workerId (.message msg)).Ordinary := by
  refine ⟨⟨msg, rfl⟩, ?_, ?_, ?_⟩ <;> simp [receive, Phase.job]

/-- A call that goes on with the job it has, to anything but a `finish` or a
permanent failure. -/
theorem Ordinary.goto {h : Handler} (ho : h.Ordinary) {phase : Phase}
    (hjob : ∀ job, phase.job = some job → h.phase.job = some job)
    (hanswer : ∀ job args answer, phase ≠ .finishing job args answer)
    (haccepted : ∀ err, phase ≠ .returned (.error (.permanent err))) :
    (h.goto phase).Ordinary :=
  ⟨ho.payload, fun job hj => ho.language job (hjob job hj),
    fun job args answer hp => absurd hp (hanswer job args answer), haccepted⟩

theorem Ordinary.retry {h : Handler} (ho : h.Ordinary) (err : String) : (h.retry err).Ordinary :=
  ho.goto (by simp [Phase.job]) (by simp) (by simp)

theorem Ordinary.withLease {h : Handler} (ho : h.Ordinary) (lease : Lease) :
    (h.withLease lease).Ordinary :=
  ⟨ho.payload, ho.language, ho.answer, ho.accepted⟩

/-- A job in Rust passes the dispatch on the language. -/
theorem mark_dispatches {reply : Reply} {db : Db} {h : Handler} {eff : HandlerEffect}
    (he : h.step (.mark reply) db = some eff) {job : Job} {args : FinishArgs}
    {answer : Except ProcessError Unit} (hp : eff.handler.phase = .finishing job args answer) :
    ∃ job', h.phase = .marking job' ∧ job'.language ≠ "rust" := by
  simp only [step, mark] at he
  split at he
  · next job' lease hphase hl =>
      cases he
      refine ⟨job', hphase, ?_⟩
      intro hlang
      dsimp only at hp
      split at hp
      · rw [if_pos hlang] at hp
        cases hp
      · cases hp
  · cases he

/-- **A step on a stored job in Rust is ordinary.** -/
theorem Ordinary.step {h : Handler} (ho : h.Ordinary) {db : Db} {input : HandlerInput}
    {eff : HandlerEffect} (he : h.step input db = some eff)
    (hrow : ∀ id, h.phase = .selecting id → (db.row id).isSome = true)
    (hrust : ∀ id r, db.row id = some r → r.language = "rust") : eff.handler.Ordinary := by
  have hmark : ∀ reply, input = .mark reply → ∀ job args answer,
      eff.handler.phase ≠ .finishing job args answer := by
    intro reply hinput job args answer hp
    subst hinput
    obtain ⟨job', hphase, hlang⟩ := mark_dispatches he hp
    exact hlang (ho.language job' (by rw [hphase]; rfl))
  have hm := step_move he
  generalize eff.handler = h' at hm hmark
  cases hm with
  | @selected _ _ id job hp hget =>
      obtain ⟨_, r, hr, rfl⟩ := JobStore.id_of_get hget
      refine ⟨ho.payload, ?_, by simp [Handler.goto], by simp [Handler.goto]⟩
      intro job hj
      cases hj
      exact hrust id r hr
  | notFound hp hget =>
      have hsome := hrow _ hp
      simp only [JobStore.get, Option.map_eq_none_iff] at hget
      rw [hget] at hsome
      cases hsome
  | queued hp _ | observed hp | marked hp _ | ran hp _ _ =>
      exact ho.goto (by rw [hp]; exact fun _ hj => hj) (by simp) (by simp)
  | selectFailed _ | queueFailed _ | startFailed _ | markFailed _ _ _ | cancelled _ _ _
  | storeFailed _ _ => exact ho.retry _
  | panicked _ | busy _ _ => exact ho.goto (by simp [Phase.job]) (by simp) (by simp)
  | granted hp _ =>
      apply Ordinary.withLease
      exact ho.goto (by rw [hp]; exact fun _ hj => hj) (by simp) (by simp)
  | unsupported _ _ => exact absurd rfl (hmark _ rfl _ _ _)
  | beatFailed _ _ _ => exact (ho.retry _).withLease _
  | collected hp _ =>
      apply Ordinary.withLease
      exact ho.goto (by rw [hp]; exact fun _ hj => hj) (by simp) (by simp)
  | joined hp _ _ _ =>
      refine ⟨ho.payload, ?_, ?_, by simp [Handler.goto]⟩
      · intro job hj
        exact ho.language job (by rw [hp]; exact hj)
      · intro job args answer hfinish
        cases hfinish
        rfl
  | @stored _ job args answer _ hp _ _ =>
      have hanswer := ho.answer job args answer hp
      subst hanswer
      exact ho.goto (by simp [Phase.job]) (by simp) (by simp)
  | beat _ _ | beatRenewed _ _ | beatLost _ _ | beatError _ _ | beatStopped _ _ _ =>
      exact ho.withLease _
  | crashed h =>
      refine ⟨ho.payload, ?_, ?_, ?_⟩
      · intro job hj
        dsimp only at hj
        split at hj
        · cases hj
        · exact ho.language job hj
      · intro job args answer hp
        dsimp only at hp
        split at hp
        · cases hp
        · exact ho.answer job args answer hp
      · intro err hp
        dsimp only at hp
        split at hp
        · cases hp
        · exact ho.accepted err hp

end Handler

/-- No statement changes the language of a row, and every row is inserted in
Rust. -/
theorem RowStep.rust {now : Time} {before after : List Uuid} {r? r?' : Option JobRow}
    {events : List JobEvent} (h : RowStep now before after r? r?' events)
    (hrust : ∀ r, r? = some r → r.language = "rust") {r' : JobRow} (hr' : r?' = some r') :
    r'.language = "rust" := by
  cases h with
  | idle | refuse => exact hrust r' hr'
  | insert job _ =>
      cases hr'
      rfl
  | queue r | start r _ _ _ _ _ | mark r | renew r _ _ | finish r _ _ _ _ | reset r _ =>
      cases hr'
      exact hrust r rfl

namespace World

/-- Every message in the system is one it has sent itself, about a job in Rust. -/
structure Ordinary (s : World) : Prop where
  provenance : s.Provenance
  rust : ∀ j r, s.row j = some r → r.language = "rust"
  queue : ∀ payload ∈ s.queue, ∃ msg, payload = .message msg
  handlers : ∀ hd ∈ s.handlers, hd.Ordinary

section Steps

variable {s s' : World} {a : Action}

/-- Only `JobMessage`s enter the topic. -/
private theorem ordinary_queue (hs : s.Ordinary) (h : s.step a = some s') {payload : Payload}
    (hmem : payload ∈ s'.queue) : ∃ msg, payload = .message msg := by
  rcases queue_origin h hmem with hold | ⟨msg, rfl, _⟩ | ⟨hd, hhd, rfl⟩
  · exact hs.queue payload hold
  · exact ⟨msg, rfl⟩
  · exact (hs.handlers hd hhd).payload

/-- Calls stay ordinary. -/
private theorem ordinary_handlers (hs : s.Ordinary) (h : s.step a = some s') {hd' : Handler}
    (hmem : hd' ∈ s'.handlers) : hd'.Ordinary := by
  rcases handler_origin h hmem with
    hold | ⟨payload, hpayload, workerId, rfl⟩ | ⟨i, input, hd, eff, _, hhd, heff, rfl⟩
  · exact hs.handlers hd' hold
  · obtain ⟨msg, rfl⟩ := hs.queue payload hpayload
    exact Handler.receive_ordinary workerId msg
  · have hmem : hd ∈ s.handlers := List.mem_of_getElem? hhd
    refine (hs.handlers hd hmem).step heff ?_ hs.rust
    intro id hp
    -- the row was inserted before its message was sent
    exact hs.provenance.stored id (hs.provenance.working hmem (by rw [hp]; rfl))

end Steps

theorem ordinary_empty (now : Time) : (empty now).Ordinary := by
  refine ⟨provenance_empty now, ?_, ?_, ?_⟩ <;>
    simp [empty, row, Db.row, KeyedTable.empty, KeyedTable.lookup]

/-- **Every step keeps the system ordinary.** -/
theorem ordinary_step (s : World) (a : Action) (s' : World) (hs : s.Ordinary)
    (h : s.step a = some s') : s'.Ordinary where
  provenance := provenance_step s a s' hs.provenance h
  rust := by
    intro j r hr
    obtain ⟨_, _, hrow⟩ := step_row h hs.provenance.sound j
    exact hrow.rust (hs.rust j) hr
  queue := fun _ hmem => ordinary_queue hs h hmem
  handlers := fun _ hmem => ordinary_handlers hs h hmem

/-- No call of `handle_message` has failed permanently. -/
def NoPermanentFailure (s : World) : Prop :=
  ∀ hd ∈ s.handlers, ∀ err, hd.phase ≠ .returned (.error (.permanent err))

end World

/-! ## The dead-letter topic -/

namespace Partition

/-- No call on the record at offset `o` fails permanently. -/
def SparesRecord (o : Nat) (s : Partition) (a : RunAction) (_ : Partition) : Prop :=
  ∀ message err, s.phase = .handling message → message.offset = o →
    a ≠ .handle (.error (.permanent err))

/-- The record at offset `o` is not on `jobs.dlq`, and is not about to be. -/
structure NotDeadLettered (o : Nat) (s : Partition) : Prop where
  sent : ∀ d ∈ s.dlq, d.offset ≠ o
  sending : ∀ message err, s.phase = .deadLettering message err → message.offset ≠ o

/-- Leaving `jobs.dlq` alone, for any phase but the dead letter of the record. -/
private theorem NotDeadLettered.goto {o : Nat} {s s' : Partition} (hs : s.NotDeadLettered o)
    (hdlq : s'.dlq = s.dlq)
    (hphase : ∀ message err, s'.phase = .deadLettering message err → message.offset ≠ o) :
    s'.NotDeadLettered o :=
  ⟨by rw [hdlq]; exact hs.sent, hphase⟩

theorem notDeadLettered_step {o : Nat} (s : Partition) (a : RunAction) (s' : Partition)
    (hs : s.NotDeadLettered o) (h : s.step a = some s') (hcond : SparesRecord o s a s') :
    s'.NotDeadLettered o := by
  cases a with
  | produce payload =>
      cases h
      exact ⟨hs.sent, hs.sending⟩
  | start cleanup =>
      simp only [step, start] at h
      split at h <;> cases h
      cases cleanup <;> exact hs.goto rfl (by simp)
  | receive =>
      simp only [step, receive] at h
      split at h
      · obtain ⟨payload, _, rfl⟩ := Option.map_eq_some_iff.mp h
        exact hs.goto rfl (by simp)
      · cases h
  | receiveError =>
      simp only [step, receiveError] at h
      split at h <;> cases h
      exact hs
  | shutdown =>
      simp only [step, shutdown] at h
      split at h <;> cases h
      exact hs.goto rfl (by simp)
  | handle result =>
      simp only [step, handle] at h
      split at h <;> cases h
      next message hphase =>
        rcases result with err | ⟨⟩
        · cases err with
          | permanent err =>
              refine hs.goto rfl ?_
              intro message' err' hp
              cases hp
              intro heq
              exact hcond message err hphase heq rfl
          | retryable err => exact hs.goto rfl (by simp)
        · exact hs.goto rfl (by simp)
  | deadLetter reply =>
      simp only [step, deadLetter] at h
      split at h <;> cases h
      next message err hphase =>
        cases reply with
        | acked =>
            refine ⟨?_, by simp⟩
            intro d hd
            rcases List.mem_cons.mp hd with rfl | hold
            · exact hs.sending message err hphase
            · exact hs.sent d hold
        | refused err' => exact hs.goto rfl (by simp)
        | unacked err' => exact hs.goto rfl (by simp)
  | commit result =>
      simp only [step, commit] at h
      split at h <;> cases h
      cases result <;> exact hs.goto rfl (by simp)
  | carryOut k =>
      obtain ⟨offset, _, rfl⟩ := Option.map_eq_some_iff.mp h
      exact ⟨hs.sent, hs.sending⟩
  | crash =>
      simp only [step, crash] at h
      split at h <;> cases h
      exact hs.goto rfl (by simp)

end Partition

/-- **The system never dead-letters its own messages.**  In every state of every
run no call of `handle_message` has failed permanently; and a record whose
calls do not fail permanently is never sent to `jobs.dlq`. -/
theorem own_messages_never_permanent (now : Time) (as : List Action) :
    Runs.HoldsAlong World.step World.NoPermanentFailure (.empty now) as ∧
      ∀ (topic : String) (partition : Int32) (o : Nat) (bs : List RunAction),
        Runs.StepsMeet Partition.step (Partition.SparesRecord o) (.empty topic partition) bs →
          Runs.HoldsAlong Partition.step (fun s => ∀ d ∈ s.dlq, d.offset ≠ o)
            (.empty topic partition) bs := by
  constructor
  · have hinv := Runs.holdsAlong_of_invariant World.ordinary_step (World.ordinary_empty now) as
    exact hinv.mono (fun s hs hd hmem => (hs.handlers hd hmem).accepted)
  · intro topic partition o bs hcond
    have hinv := Runs.holdsAlong_of_stepsMeet Partition.notDeadLettered_step
      (s := Partition.empty topic partition) ⟨by simp [Partition.empty], by simp [Partition.empty]⟩
      hcond
    exact hinv.mono (fun s hs => hs.sent)

end EditorBack
