import EditorBack.Requeues
import EditorBack.StrandedJobs
import EditorBack.Tally

/-!
# Messages and executions

Kafka delivers at least once, and a message comes back whenever its call does not end
in `Ok`.  So a job can be executed more than once, but not out of nothing: the ledger
of the topic balances (`topic_balances`), and every lease that is granted has been paid
for by a message that was sent, came back or was delivered twice
(`executions_accounted`).
-/

namespace EditorBack

/-- What happens to the messages on the topic. -/
inductive DeliveryEvent
  /-- a worker is given the message -/
  | taken (jobId : Uuid)
  /-- a worker is given the message, which stays where it is -/
  | duplicated (jobId : Uuid)
  /-- a call ends, and the message has to be delivered again -/
  | owed (jobId : Uuid)
  deriving DecidableEq

/-- The message is about job `j`. -/
def Payload.isFor (j : Uuid) : Payload → Bool
  | .message msg => msg.jobId == j
  | .absent | .invalid _ => false

/-- The call is at work on job `j`. -/
def Handler.worksOn (j : Uuid) (h : Handler) : Bool :=
  h.phase.jobId == some j

/-- The call is at work on job `j`, before its `try_start`. -/
def Handler.awaitsStart (j : Uuid) (h : Handler) : Bool :=
  h.worksOn j && h.phase.beforeStart

namespace Handler

open Tally (one)

section Moves

variable {db : Db} {input : HandlerInput} {h h' : Handler}

/-- A call stays with its job until it ends. -/
theorem Move.jobId_or (hm : Move db input h h') :
    (h'.phase.jobId = h.phase.jobId ∧ h'.owesRedelivery = h.owesRedelivery) ∨
      (h.phase.jobId.isSome = true ∧ h'.phase.jobId = none) := by
  have hcalm : ∀ {h : Handler}, h.phase.jobId.isSome = true → h.owesRedelivery = false := by
    intro h hjob
    unfold owesRedelivery
    split <;> simp_all [Phase.jobId]
  have hkeeps : h.phase.jobId.isSome = true → h'.phase.jobId = h.phase.jobId →
      h'.phase.jobId = h.phase.jobId ∧ h'.owesRedelivery = h.owesRedelivery := by
    intro hjob hsame
    refine ⟨hsame, ?_⟩
    rw [hcalm hjob, hcalm (by rw [hsame]; exact hjob)]
  cases hm with
  | @selected _ _ id job hp hget =>
      refine Or.inl (hkeeps (by rw [hp]; rfl) ?_)
      rw [hp]
      exact congrArg some (JobStore.id_of_get hget).1
  | queued hp _ | observed hp | granted hp _ | marked hp _ | unsupported hp _ | ran hp _ _
  | collected hp _ | joined hp _ _ _ =>
      exact Or.inl (hkeeps (by rw [hp]; rfl) (by rw [hp]; rfl))
  | notFound hp _ | selectFailed hp | queueFailed hp | panicked hp | busy hp _ | startFailed hp
  | markFailed hp _ _ | beatFailed hp _ _ | cancelled hp _ _ | stored hp _ _ | storeFailed hp _ =>
      exact Or.inr ⟨by rw [hp]; rfl, rfl⟩
  | beat _ _ | beatRenewed _ _ | beatLost _ _ | beatError _ _ | beatStopped _ _ _ =>
      exact Or.inl ⟨rfl, rfl⟩
  | crashed h =>
      by_cases hjob : h.phase.jobId.isSome = true
      · refine Or.inr ⟨hjob, ?_⟩
        simp only [hjob, if_true]
        rfl
      · exact Or.inl (by simp [hjob, owesRedelivery])

/-- A call that ends gives up its job for the message it may put back. -/
theorem Move.worksOn_le {tokens : List Uuid} (hm : Move db input h h') (hs : h.Sound tokens)
    (j : Uuid) :
    one (worksOn j) h' +
        (if h'.owesRedelivery && !h.owesRedelivery then one (Payload.isFor j) h.payload else 0) ≤
      one (worksOn j) h := by
  rcases hm.jobId_or with ⟨hjob, howes⟩ | ⟨hjob, hend⟩
  · have hsame : one (worksOn j) h' = one (worksOn j) h := by simp only [one, worksOn, hjob]
    simp [howes, hsame]
  · obtain ⟨id, hid⟩ := Option.isSome_iff_exists.mp hjob
    have hidle : one (worksOn j) h' = 0 := Tally.one_of_false (by simp [worksOn, hend])
    have hpay : one (Payload.isFor j) h.payload = one (worksOn j) h := by
      rw [hs.job id hid]
      simp [one, worksOn, hid, Payload.isFor]
    rw [hidle, hpay]
    split <;> omega

/-- A call that is past its `try_start` does not come back before it. -/
theorem Move.awaitsStart_le (hm : Move db input h h') (j : Uuid) :
    one (awaitsStart j) h' ≤ one (awaitsStart j) h := by
  have hnone : ∀ {h' : Handler}, h'.phase.beforeStart = false → one (awaitsStart j) h' = 0 :=
    fun hbefore => Tally.one_of_false (by simp [awaitsStart, hbefore])
  cases hm with
  | selected hp hget =>
      have hid := (JobStore.id_of_get hget).1
      simp [one, awaitsStart, worksOn, goto, hp, Phase.jobId, Phase.beforeStart, hid]
  | queued hp _ | observed hp =>
      simp [one, awaitsStart, worksOn, goto, hp, Phase.jobId, Phase.beforeStart]
  | beat _ _ | beatRenewed _ _ | beatLost _ _ | beatError _ _ | beatStopped _ _ _ =>
      exact Nat.le_refl _
  | crashed h =>
      by_cases hjob : h.phase.jobId.isSome = true
      · rw [hnone (by simp [hjob, Phase.beforeStart])]
        exact Nat.zero_le _
      · simp [one, awaitsStart, worksOn, hjob]
  | _ =>
      rw [hnone rfl]
      exact Nat.zero_le _

/-- A lease is granted to a call that has waited for it. -/
theorem Move.start_le {db' : Db} {event : Option (Uuid × JobEvent)} (hm : Move db input h h')
    (hw : Write db h input db' event) (j : Uuid) :
    (eventsAt event j).countP JobEvent.isStart + one (awaitsStart j) h' ≤
      one (awaitsStart j) h := by
  have hother : (∀ e ∈ eventsAt event j, e.isStart = false) →
      (eventsAt event j).countP JobEvent.isStart + one (awaitsStart j) h' ≤
        one (awaitsStart j) h := by
    intro hnone
    rw [List.countP_eq_zero.mpr (fun e he => by simp [hnone e he]), Nat.zero_add]
    exact hm.awaitsStart_le j
  cases hw with
  | none _ => exact hother (by simp [eventsAt])
  | queue _ _ | mark _ _ _ =>
      refine hother ?_
      intro e he
      rw [World.mem_eventsAt] at he
      split at he <;> cases he
      rfl
  | finish _ _ _ | beat _ _ =>
      refine hother ?_
      intro e he
      rw [World.mem_eventsAt] at he
      split at he
      · cases he
        rfl
      · split at he <;> cases he
        rfl
  | @tryStart reply token job hp _ =>
      have hpast : one (awaitsStart j) h' = 0 := by
        refine Tally.one_of_false ?_
        cases hm <;> simp [awaitsStart, goto, retry, withLease, Phase.beforeStart]
      rw [hpast, Nat.add_zero]
      by_cases hj : j = job.id
      · subst hj
        have hwaits : one (awaitsStart job.id) h = 1 :=
          Tally.one_of_true (by simp [awaitsStart, worksOn, hp, Phase.jobId, Phase.beforeStart])
        rw [hwaits]
        split <;> simp [eventsAt, List.countP_cons, JobEvent.isStart]
      · split <;> simp [eventsAt, hj]

end Moves

end Handler

/-- The event of a message. -/
def Payload.event {α : Type} (f : Uuid → α) : Payload → List α
  | .message msg => [f msg.jobId]
  | .absent | .invalid _ => []

/-- A message counts for its own job. -/
theorem Payload.count_event {α : Type} [DecidableEq α] {f : Uuid → α}
    (hf : ∀ i j, f i = f j ↔ i = j)
    (payload : Payload) (j : Uuid) :
    (payload.event f).count (f j) = Tally.one (Payload.isFor j) payload := by
  cases payload with
  | message msg =>
      by_cases hj : msg.jobId = j
      · subst hj
        simp [event, Tally.one, isFor]
      · have hne : f msg.jobId ≠ f j := fun heq => hj ((hf _ _).mp heq)
        have hfor : (msg.jobId == j) = false := by simpa using hj
        simp [event, Tally.one, isFor, hfor, hne]
  | absent => rfl
  | invalid err => rfl

theorem Payload.count_event_of_ne {α : Type} [DecidableEq α] {f g : Uuid → α}
    (hfg : ∀ i j, f i ≠ g j) (payload : Payload) (j : Uuid) : (payload.event f).count (g j) = 0 := by
  cases payload with
  | message msg => simp [event, hfg]
  | absent => rfl
  | invalid err => rfl

/-- Messages that Kafka accepts are about the jobs they are sent for. -/
theorem Payload.countP_accepted {α : Type} (accepted : Option α) (job : α → Uuid) (j : Uuid) :
    (accepted.toList.map fun e => Payload.message ⟨job e⟩).countP (isFor j) =
      (accepted.toList.map job).count j := by
  cases accepted with
  | none => rfl
  | some e => by_cases hj : job e = j <;> simp [isFor, hj]

namespace World

open Tally (one)

/-- What a step does to the messages on the topic. -/
def delivers (s : World) : Action → List DeliveryEvent
  | .deliver k _ again =>
      match s.queue[k]? with
      | some payload => payload.event (if again then .duplicated else .taken)
      | none => []
  | .handler i input =>
      match s.handlers[i]? with
      | some h =>
          match h.step input s.db with
          | some eff =>
              if eff.handler.owesRedelivery && !h.owesRedelivery then h.payload.event .owed else []
          | none => []
      | none => []
  | _ => []

/-- The ledger of the topic, and what the leases of a job are paid from. -/
structure Balanced (s : World) (log : List DeliveryEvent) : Prop where
  sound : s.Sound
  topic : ∀ j, s.queue.countP (Payload.isFor j) + log.count (.taken j) =
    s.sent.count j + log.count (.owed j)
  leases : ∀ j, (s.history j).countP JobEvent.isStart +
    s.handlers.countP (Handler.awaitsStart j) ≤ log.count (.taken j) + log.count (.duplicated j)

theorem balanced_empty (now : Time) : (empty now).Balanced [] := by
  refine ⟨empty_sound now, ?_, ?_⟩ <;> simp [empty]

section Steps

variable {s s' : World} {log : List DeliveryEvent}

/-- Messages that Kafka accepts are sent and on the topic. -/
private theorem Balanced.topic_sent {α : Type} {accepted : Option α} {job : α → Uuid}
    (hs : s.Balanced log) (j : Uuid) :
    ((accepted.toList.map fun e => Payload.message ⟨job e⟩) ++ s.queue).countP
        (Payload.isFor j) + log.count (.taken j) =
      (accepted.toList.map job ++ s.sent).count j + log.count (.owed j) := by
  have htopic := hs.topic j
  rw [List.countP_append, List.count_append, Payload.countP_accepted]
  omega

private theorem balanced_submission {i : Nat} {input : SubmissionInput} (hs : s.Balanced log)
    (h : s.step (.submission i input) = some s') : s'.Balanced log := by
  have hsound := step_sound s _ s' hs.sound h
  cases step_move h with
  | @submission _ _ sub eff hsub hm =>
      refine ⟨hsound, ?_, ?_⟩
      · intro j
        exact hs.topic_sent j
      · intro j
        have hevents : (eventsAt eff.event j).countP JobEvent.isStart = 0 := by
          refine List.countP_eq_zero.mpr ?_
          intro e he
          rw [mem_eventsAt] at he
          cases hm with
          | inserted _ _ | insertLost _ _ =>
              cases he
              nofun
          | _ => cases he
        have hleases := hs.leases j
        dsimp only
        rw [List.countP_append, hevents, Nat.zero_add]
        exact hleases

private theorem balanced_publisher {i : Nat} {input : PublisherInput} (hs : s.Balanced log)
    (h : s.step (.publisher i input) = some s') : s'.Balanced log := by
  have hsound := step_sound s _ s' hs.sound h
  cases step_move h with
  | @publisher _ _ p eff hp hm =>
      refine ⟨hsound, ?_, hs.leases⟩
      intro j
      exact hs.topic_sent j

private theorem balanced_deliver {k : Nat} {workerId : String} {again : Bool}
    (hs : s.Balanced log) (h : s.step (.deliver k workerId again) = some s') :
    s'.Balanced (s.delivers (.deliver k workerId again) ++ log) := by
  have hsound := step_sound s _ s' hs.sound h
  obtain ⟨payload, hpayload, rfl⟩ := Option.map_eq_some_iff.mp h
  have hawaits : ∀ j, one (Handler.awaitsStart j) (.receive workerId payload) =
      one (Payload.isFor j) payload := by
    intro j
    cases payload <;>
      simp [one, Handler.awaitsStart, Handler.worksOn, Handler.receive, Phase.jobId,
        Phase.beforeStart, Payload.isFor]
  simp only [delivers, hpayload]
  cases again with
  | false =>
      refine ⟨hsound, ?_, ?_⟩
      · intro j
        have htopic := hs.topic j
        have herase := Tally.countP_eraseIdx (p := Payload.isFor j) hpayload
        simp only [Bool.false_eq_true, if_false, List.count_append]
        rw [Payload.count_event (by simp), Payload.count_event_of_ne (by simp)]
        omega
      · intro j
        have hleases := hs.leases j
        simp only [Bool.false_eq_true, if_false, List.count_append]
        rw [Payload.count_event (by simp), Payload.count_event_of_ne (by simp),
          Tally.countP_append_one, hawaits]
        omega
  | true =>
      refine ⟨hsound, ?_, ?_⟩
      · intro j
        have htopic := hs.topic j
        simp only [if_true, List.count_append]
        rw [Payload.count_event_of_ne (by simp), Payload.count_event_of_ne (by simp)]
        omega
      · intro j
        have hleases := hs.leases j
        simp only [if_true, List.count_append]
        rw [Payload.count_event (by simp), Payload.count_event_of_ne (by simp),
          Tally.countP_append_one, hawaits]
        omega

private theorem balanced_handler {i : Nat} {input : HandlerInput} (hs : s.Balanced log)
    (h : s.step (.handler i input) = some s') :
    s'.Balanced (s.delivers (.handler i input) ++ log) := by
  have hsound := step_sound s _ s' hs.sound h
  simp only [step, stepHandler] at h
  split at h
  · cases h
  · obtain ⟨hd, hhd, h⟩ := Option.bind_eq_some_iff.mp h
    obtain ⟨eff, heff, rfl⟩ := Option.map_eq_some_iff.mp h
    simp only [delivers, hhd, heff]
    refine ⟨hsound, ?_, ?_⟩
    · intro j
      have htopic := hs.topic j
      dsimp only
      split
      · rw [Tally.countP_cons, List.count_append, List.count_append,
          Payload.count_event (by simp), Payload.count_event_of_ne (by simp)]
        omega
      · exact htopic
    · intro j
      have hleases := hs.leases j
      have hset := Tally.countP_set (p := Handler.awaitsStart j) hhd eff.handler
      have hstart := (Handler.step_move heff).start_le (Handler.step_write heff) j
      have hevents : ∀ f : Uuid → DeliveryEvent, (∀ i j, DeliveryEvent.owed i ≠ f j) →
          ((if eff.handler.owesRedelivery && !hd.owesRedelivery then
            hd.payload.event DeliveryEvent.owed else []) ++ log).count (f j) =
            log.count (f j) := by
        intro f hf
        split
        · rw [List.count_append, Payload.count_event_of_ne hf, Nat.zero_add]
        · rfl
      rw [hevents .taken (by simp), hevents .duplicated (by simp)]
      dsimp only
      rw [List.countP_append]
      omega

end Steps

/-- **Every step keeps the ledger balanced.** -/
theorem balanced_step (s : World) (log : List DeliveryEvent) (a : Action) (s' : World)
    (hs : s.Balanced log) (h : s.step a = some s') : s'.Balanced (s.delivers a ++ log) := by
  cases a with
  | submission i input => exact balanced_submission hs h
  | publisher i input => exact balanced_publisher hs h
  | deliver k workerId again => exact balanced_deliver hs h
  | handler i input => exact balanced_handler hs h
  | advance d | post results id | spawnPublisher =>
      have hsound := step_sound s _ s' hs.sound h
      cases h
      exact ⟨hsound, hs.topic, hs.leases⟩
  | reap gen reply =>
      have hsound := step_sound s _ s' hs.sound h
      change s'.Balanced log
      cases step_move h with
      | reapFailed => exact hs
      | reaped _ =>
          refine ⟨hsound, hs.topic, ?_⟩
          intro j
          have hleases := hs.leases j
          dsimp only
          split <;> simpa [List.countP_cons, JobEvent.isStart] using hleases

/-- **Every execution is paid for by a message.**  In every state of every run, the
messages a job has on the topic are those that were sent or came back, less those that
were taken; and no more leases have been granted on the job than messages for it were
sent, came back or were delivered twice. -/
theorem executions_accounted (now : Time) (as : List Action) :
    Runs.HoldsAlong (Runs.logged step delivers)
      (fun p => ∀ j,
        p.1.queue.countP (Payload.isFor j) + p.2.count (.taken j) =
          p.1.sent.count j + p.2.count (.owed j) ∧
        (p.1.history j).countP JobEvent.isStart ≤
          p.1.sent.count j + p.2.count (.owed j) + p.2.count (.duplicated j))
      (empty now, []) as := by
  have hbalanced : Runs.HoldsAlong (Runs.logged step delivers)
      (fun p => p.1.Balanced p.2) (empty now, []) as :=
    Runs.logged_holdsAlong balanced_step (balanced_empty now) as
  refine hbalanced.mono ?_
  intro p hp j
  have htopic := hp.topic j
  have hleases := hp.leases j
  exact ⟨htopic, by omega⟩

end World

end EditorBack
