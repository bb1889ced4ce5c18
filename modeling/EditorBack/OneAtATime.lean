import EditorBack.Deliveries
import EditorBack.Fidelity
import Mathlib.Data.List.Count

/-!
# One call, one result

A job is inserted once, and `run_handle` sends one message for it.  That message is a
ticket: a call of `handle_message` holds it while it works, gives it back when it ends
in `Retryable`, and uses it up when it stores a result.  Only three things make a job
another ticket (`Fault`): a delivery that leaves its message on the topic, the message
for an outbox row, and a `finish` that stores its result but does not say so.

`results_bounded` counts: no job has more calls at work or more results than one and its
faults.  A job without faults has one result.  If the reaper has not requeued it either,
so that no publisher will ever send a message for it, the result is final: no
continuation of the run changes the row (`results_final`).
-/

namespace EditorBack

/-- What can give a job another call or another result. -/
inductive Fault
  /-- Kafka delivers a message of the job and keeps it -/
  | duplicated (jobId : Uuid)
  /-- the publisher sends a message for an outbox row of the job -/
  | announced (jobId : Uuid)
  /-- a result of the job is stored, and `finish` reports an error -/
  | unanswered (jobId : Uuid)
  deriving DecidableEq

/-- The job a fault is about. -/
def Fault.jobId : Fault → Uuid
  | .duplicated j | .announced j | .unanswered j => j

/-- The event stores a result. -/
def JobEvent.isFinish : JobEvent → Bool
  | .finished _ _ => true
  | _ => false

theorem length_storedResults (es : List JobEvent) :
    (storedResults es).length = es.countP JobEvent.isFinish := by
  induction es with
  | nil => rfl
  | cons e es ih => cases e <;> simp [storedResults, List.countP_cons, JobEvent.isFinish, ih]

/-- The call is about to send the message of job `j`. -/
def Submission.sends (j : Uuid) (sub : Submission) : Bool :=
  match sub.phase with
  | .sending msg => msg.jobId == j
  | .inserting _ | .returned _ | .crashed => false

/-- A `finish` that stores its result and does not say so. -/
def HandlerInput.fault (event : Option (Uuid × JobEvent)) : HandlerInput → List Fault
  | .finish (.lost _) =>
      match event with
      | some (j, .finished _ _) => [.unanswered j]
      | _ => []
  | _ => []

/-- A step without an event has no fault. -/
theorem HandlerInput.fault_none (input : HandlerInput) : input.fault none = [] := by
  cases input with
  | finish reply => cases reply <;> rfl
  | _ => rfl

/-- The faults of a call are results whose answer is lost. -/
theorem HandlerInput.count_fault_of_ne {input : HandlerInput} {event : Option (Uuid × JobEvent)}
    {f : Fault} (hne : ∀ j, f ≠ .unanswered j) : (input.fault event).count f = 0 := by
  refine List.count_eq_zero.mpr ?_
  intro hmem
  unfold fault at hmem
  split at hmem
  · split at hmem
    · exact hne _ (List.mem_singleton.mp hmem)
    · cases hmem
  · cases hmem

/-- A result whose answer is lost is a fault. -/
theorem HandlerInput.count_fault_lost (err : String) (id token : Uuid) (args : FinishArgs)
    (j : Uuid) :
    ((finish (.lost err)).fault (some (id, .finished token args))).count (.unanswered j) =
      (eventsAt (some (id, .finished token args)) j).countP JobEvent.isFinish := by
  by_cases hj : j = id
  · simp [fault, eventsAt, JobEvent.isFinish, hj]
  · have hne : Fault.unanswered id ≠ .unanswered j := by
      intro heq
      cases heq
      exact hj rfl
    simp [fault, eventsAt, hj, hne]

/-- What a call returns once its result is stored does not bring its message back. -/
def Handler.Concludes (h : Handler) : Prop :=
  ∀ job args answer, h.phase = .finishing job args answer →
    ∀ err, answer ≠ .error (.retryable err)

namespace Handler

open Tally (one)

section Moves

variable {db db' : Db} {input : HandlerInput} {h h' : Handler}
  {event : Option (Uuid × JobEvent)}

theorem receive_concludes (workerId : String) (payload : Payload) :
    (receive workerId payload).Concludes := by
  intro job args answer hp
  cases payload <;> cases hp

theorem Move.concludes (hm : Move db input h h') (hs : h.Concludes) : h'.Concludes := by
  intro job args answer hp
  cases hm with
  | unsupported _ _ | joined _ _ _ _ =>
      cases hp
      simp
  | beat _ _ | beatRenewed _ _ | beatLost _ _ | beatError _ _ | beatStopped _ _ _ =>
      exact hs job args answer hp
  | crashed h =>
      dsimp only at hp
      split at hp
      · cases hp
      · exact hs job args answer hp
  | _ => cases hp

/-- Only a `finish` stores a result, or fails to say so. -/
private theorem Write.no_finish (hw : Write db h input db' event)
    (hinput : ∀ reply, input ≠ .finish reply) (j : Uuid) :
    (eventsAt event j).countP JobEvent.isFinish = 0 := by
  refine List.countP_eq_zero.mpr ?_
  intro e he
  rw [World.mem_eventsAt] at he
  cases hw with
  | none _ => cases he
  | finish _ _ _ => exact absurd rfl (hinput _)
  | queue _ _ | tryStart _ _ | mark _ _ _ =>
      split at he <;> cases he
      exact Bool.false_ne_true
  | beat _ _ =>
      split at he
      · cases he
        exact Bool.false_ne_true
      · split at he <;> cases he
        exact Bool.false_ne_true

/-- An unanswered result is a result. -/
theorem Write.unanswered_le (hw : Write db h input db' event) (j : Uuid) :
    (input.fault event).count (.unanswered j) ≤ (eventsAt event j).countP JobEvent.isFinish := by
  have hnone : ∀ {event}, input.fault event = [] →
      (input.fault event).count (.unanswered j) ≤
        (eventsAt event j).countP JobEvent.isFinish := by
    intro event hfault
    rw [hfault]
    exact Nat.zero_le _
  cases hw with
  | @finish reply job args answer lease hp hl hexec =>
      split
      · cases reply with
        | lost err => exact Nat.le_of_eq (HandlerInput.count_fault_lost _ _ _ _ _)
        | ok => exact hnone rfl
        | failed err => exact hnone rfl
      · split
        · next hok =>
            subst hok
            exact hnone rfl
        · exact hnone (HandlerInput.fault_none _)
  | none _ => exact hnone (HandlerInput.fault_none _)
  | queue _ _ | tryStart _ _ | mark _ _ _ | beat _ _ => exact hnone rfl

/-- A call that stores its result has done with its job, or is not told. -/
private theorem finish_le {tokens : List Uuid} {reply : Reply} {eff : HandlerEffect}
    (he : h.step (.finish reply) db = some eff) (hs : h.Sound tokens) (hc : h.Concludes)
    (j : Uuid) :
    (eventsAt eff.event j).countP JobEvent.isFinish + one (worksOn j) eff.handler +
        (if eff.handler.owesRedelivery && !h.owesRedelivery then one (Payload.isFor j) h.payload
          else 0) ≤
      one (worksOn j) h + ((HandlerInput.finish reply).fault eff.event).count (.unanswered j) := by
  have hle := (step_move he).worksOn_le hs j
  simp only [step, finish] at he
  split at he
  · next job args answer lease hp hl =>
      cases he
      dsimp only at hle ⊢
      rw [JobStore.isOk_finish] at hle ⊢
      cases hheld : (db.row job.id).any (·.heldBy lease.lockToken) with
      | false =>
          have hnone : (eventsAt (reply.eventOfLease false job.id lease.lockToken
              (.finished lease.lockToken args)) j).countP JobEvent.isFinish = 0 := by
            refine List.countP_eq_zero.mpr ?_
            intro e hmem
            cases reply <;> simp_all [Reply.eventOfLease, eventsAt, JobEvent.isFinish]
          rw [hheld] at hle
          rw [hnone]
          omega
      | true =>
          have hone : (eventsAt (some (job.id, .finished lease.lockToken args)) j).countP
              JobEvent.isFinish = one (worksOn j) h := by
            by_cases hj : j = job.id
            · simp [one, worksOn, hp, Phase.jobId, eventsAt, JobEvent.isFinish, hj]
            · have hne : (job.id == j) = false := beq_eq_false_iff_ne.mpr (Ne.symm hj)
              simp [one, worksOn, hp, Phase.jobId, eventsAt, hj, hne]
          rw [hheld] at hle
          cases reply with
          | ok =>
              have hanswer : (JobStore.finish job.id args lease.lockToken db).2 = .ok true := by
                rw [JobStore.answer_finish, hheld]
                rfl
              have hkept : ((h.goto (.returned answer)).owesRedelivery) = false := by
                cases answer with
                | ok _ => rfl
                | error err =>
                    cases err with
                    | permanent _ => rfl
                    | retryable err => exact absurd rfl (hc job args _ hp err)
              have hidle : one (worksOn j) (h.goto (.returned answer)) = 0 :=
                Tally.one_of_false rfl
              simp only [Reply.call, hanswer, hkept, hidle, Bool.false_and, Bool.false_eq_true,
                if_false, Nat.add_zero]
              exact Nat.le_trans (Nat.le_of_eq hone) (Nat.le_add_right _ _)
          | failed err => exact hle
          | lost err =>
              have hevent : Reply.eventOfLease (.lost err) true job.id lease.lockToken
                  (.finished lease.lockToken args) =
                    some (job.id, .finished lease.lockToken args) := rfl
              rw [hevent] at hle ⊢
              rw [HandlerInput.count_fault_lost]
              omega
  · cases he

/-- **A step of a call uses its ticket up before it makes a result**, faults apart. -/
theorem result_le {tokens : List Uuid} {eff : HandlerEffect} (he : h.step input db = some eff)
    (hs : h.Sound tokens) (hc : h.Concludes) (j : Uuid) :
    (eventsAt eff.event j).countP JobEvent.isFinish + one (worksOn j) eff.handler +
        (if eff.handler.owesRedelivery && !h.owesRedelivery then one (Payload.isFor j) h.payload
          else 0) ≤
      one (worksOn j) h + (input.fault eff.event).count (.unanswered j) := by
  by_cases hfinish : ∃ reply, input = .finish reply
  · obtain ⟨reply, rfl⟩ := hfinish
    exact finish_le he hs hc j
  · have hnone := (step_write he).no_finish (fun reply heq => hfinish ⟨reply, heq⟩) j
    have hle := (step_move he).worksOn_le hs j
    omega

end Moves

end Handler

namespace Submission

open Tally (one)

/-- A call has one message to send, once it has inserted its row. -/
theorem Move.sends_le {db : Db} {sub : Submission} {input : SubmissionInput}
    {eff : SubmissionEffect} (hm : sub.Move db input eff) (j : Uuid) :
    one (sends j) eff.submission + (eff.accepted.toList.map JobMessage.jobId).count j +
        (db.row j).isSome.toNat ≤
      one (sends j) sub + (eff.db.row j).isSome.toNat := by
  have hidle : ∀ {sub : Submission}, sub.isOver = true → one (sends j) sub = 0 := by
    intro sub hover
    refine Tally.one_of_false ?_
    unfold sends
    unfold isOver at hover
    split <;> simp_all
  have hsent : ∀ {msg : JobMessage}, sub.phase = .sending msg →
      one (sends j) sub = (if msg.jobId = j then 1 else 0) := by
    intro msg hp
    by_cases hj : msg.jobId = j <;> simp [one, sends, hp, hj]
  cases hm with
  | @inserted job db' hp hcreate =>
      have hnone := JobStore.row_none_of_create hcreate
      dsimp only
      rw [JobStore.row_create hcreate]
      by_cases hj : job.id = j
      · subst hj
        simp [hnone, one, sends]
      · have hne : (job.id == j) = false := by simpa using hj
        simp [hj, hne, one, sends, hp]
  | @insertLost job _ _ hp hcreate =>
      dsimp only
      rw [hidle rfl, JobStore.row_create hcreate]
      split
      · have hle := Bool.toNat_le (db.row j).isSome
        simp
        omega
      · simp
  | insertFailed hp _ =>
      dsimp only
      rw [hidle rfl]
      simp
  | acked hp | unacked hp =>
      dsimp only
      rw [hidle rfl, hsent hp]
      simp [List.count_singleton]
  | refused hp =>
      dsimp only
      rw [hidle rfl]
      simp
  | crashed _ =>
      dsimp only
      rw [hidle rfl]
      simp
  | overCrashed _ => simp

end Submission

namespace World

open Tally (one)

/-- The messages of job `j` that a request is about to send, that are on the topic or with
a call.  What publishers send for outbox rows is counted when it is sent. -/
def tickets (s : World) (j : Uuid) : Nat :=
  s.submissions.countP (Submission.sends j) + s.queue.countP (Payload.isFor j) +
    s.handlers.countP (Handler.worksOn j)

/-- The faults of a step. -/
def faults (s : World) : Action → List Fault
  | .deliver k _ again =>
      match s.queue[k]? with
      | some payload => if again then payload.event .duplicated else []
      | none => []
  | .handler i input =>
      match (s.handlers[i]?).bind (·.step input s.db) with
      | some eff => input.fault eff.event
      | none => []
  | .publisher i input =>
      match (s.publishers[i]?).bind (·.step input s.db) with
      | some eff => (eff.accepted.toList.map JobOutbox.jobId).map .announced
      | none => []
  | _ => []

/-- A job's results and tickets are one and its faults. -/
structure Bounded (s : World) (log : List Fault) : Prop where
  sound : s.Sound
  concludes : ∀ hd ∈ s.handlers, hd.Concludes
  tickets : ∀ j, (s.history j).countP JobEvent.isFinish + s.tickets j ≤
    (s.row j).isSome.toNat + log.count (.duplicated j) + log.count (.announced j) +
      log.count (.unanswered j)
  unanswered : ∀ j, log.count (.unanswered j) ≤ (s.history j).countP JobEvent.isFinish

theorem bounded_empty (now : Time) : (empty now).Bounded [] := by
  refine ⟨empty_sound now, ?_, ?_, ?_⟩ <;> simp [empty, World.tickets]

section Steps

variable {s s' : World} {log : List Fault}

private theorem concludes_step {a : Action} (hs : ∀ hd ∈ s.handlers, hd.Concludes)
    (h : s.step a = some s') : ∀ hd ∈ s'.handlers, hd.Concludes := by
  intro hd' hmem
  rcases handler_origin h hmem with hold | ⟨payload, _, workerId, rfl⟩ |
    ⟨i, input, hd, eff, _, hhd, heff, rfl⟩
  · exact hs hd' hold
  · exact Handler.receive_concludes workerId payload
  · exact (Handler.step_move heff).concludes (hs hd (List.mem_of_getElem? hhd))

private theorem row_le {a : Action} (hs : s.Sound) (h : s.step a = some s') (j : Uuid) :
    (s.row j).isSome.toNat ≤ (s'.row j).isSome.toNat := by
  cases hrow : (s.row j).isSome with
  | false => exact Nat.zero_le _
  | true => rw [row_isSome h hs hrow]

private theorem bounded_submission {i : Nat} {input : SubmissionInput} (hs : s.Bounded log)
    (h : s.step (.submission i input) = some s') : s'.Bounded log := by
  have hsound := step_sound s _ s' hs.sound h
  have hconcludes := concludes_step hs.concludes h
  cases step_move h with
  | @submission _ _ sub eff hsub hm =>
      have hevents : ∀ j, (eventsAt eff.event j).countP JobEvent.isFinish = 0 := by
        intro j
        refine List.countP_eq_zero.mpr ?_
        intro e he
        rw [mem_eventsAt] at he
        cases hm with
        | inserted _ _ | insertLost _ _ =>
            cases he
            exact Bool.false_ne_true
        | _ => cases he
      refine ⟨hsound, hconcludes, ?_, ?_⟩
      · intro j
        have htickets := hs.tickets j
        have hset := Tally.countP_set (p := Submission.sends j) hsub eff.submission
        have hsends := hm.sends_le j
        have haccepted := Payload.countP_accepted eff.accepted JobMessage.jobId j
        have hmap : eff.accepted.toList.map Payload.message =
            eff.accepted.toList.map fun e => Payload.message ⟨e.jobId⟩ := rfl
        simp only [World.tickets, row] at htickets ⊢
        rw [List.countP_append, hevents, List.countP_append, hmap, haccepted]
        omega
      · intro j
        dsimp only
        rw [List.countP_append, hevents, Nat.zero_add]
        exact hs.unanswered j

private theorem bounded_deliver {k : Nat} {workerId : String} {again : Bool}
    (hs : s.Bounded log) (h : s.step (.deliver k workerId again) = some s') :
    s'.Bounded (s.faults (.deliver k workerId again) ++ log) := by
  have hsound := step_sound s _ s' hs.sound h
  have hconcludes := concludes_step hs.concludes h
  obtain ⟨payload, hpayload, rfl⟩ := Option.map_eq_some_iff.mp h
  have hworks : ∀ j, one (Handler.worksOn j) (.receive workerId payload) =
      one (Payload.isFor j) payload := by
    intro j
    cases payload <;> simp [one, Handler.worksOn, Handler.receive, Phase.jobId, Payload.isFor]
  have hfaults : s.faults (.deliver k workerId again) =
      if again then payload.event .duplicated else [] := by
    rw [faults, hpayload]
  rw [hfaults]
  cases again with
  | false =>
      refine ⟨hsound, hconcludes, ?_, hs.unanswered⟩
      intro j
      have htickets := hs.tickets j
      have herase := Tally.countP_eraseIdx (p := Payload.isFor j) hpayload
      simp only [World.tickets, Bool.false_eq_true, if_false, List.nil_append] at htickets ⊢
      rw [Tally.countP_append_one, hworks]
      change _ ≤ (s.row j).isSome.toNat + _ + _ + _
      omega
  | true =>
      refine ⟨hsound, hconcludes, ?_, ?_⟩
      · intro j
        have htickets := hs.tickets j
        simp only [World.tickets, if_true, List.count_append] at htickets ⊢
        rw [Tally.countP_append_one, hworks, Payload.count_event (by simp),
          Payload.count_event_of_ne (by simp), Payload.count_event_of_ne (by simp)]
        change _ ≤ (s.row j).isSome.toNat + _ + _ + _
        omega
      · intro j
        simp only [if_true, List.count_append]
        rw [Payload.count_event_of_ne (by simp), Nat.zero_add]
        exact hs.unanswered j

private theorem bounded_handler {i : Nat} {input : HandlerInput} (hs : s.Bounded log)
    (h : s.step (.handler i input) = some s') :
    s'.Bounded (s.faults (.handler i input) ++ log) := by
  have hsound := step_sound s _ s' hs.sound h
  have hconcludes := concludes_step hs.concludes h
  have hrows := row_le hs.sound h
  simp only [step, stepHandler] at h
  split at h
  · cases h
  · obtain ⟨hd, hhd, h⟩ := Option.bind_eq_some_iff.mp h
    obtain ⟨eff, heff, rfl⟩ := Option.map_eq_some_iff.mp h
    have hmem := List.mem_of_getElem? hhd
    have hfaults : s.faults (.handler i input) = input.fault eff.event := by
      rw [faults, hhd, Option.bind_some, heff]
    rw [hfaults]
    refine ⟨hsound, hconcludes, ?_, ?_⟩
    · intro j
      have htickets := hs.tickets j
      have hset := Tally.countP_set (p := Handler.worksOn j) hhd eff.handler
      have hresult := Handler.result_le heff (hs.sound.handlers hd hmem) (hs.concludes hd hmem) j
      have hrow := hrows j
      simp only [World.tickets, List.count_append, List.countP_append] at htickets ⊢
      rw [HandlerInput.count_fault_of_ne (by simp), HandlerInput.count_fault_of_ne (by simp)]
      have hqueue : ∀ b : Bool, (if b then hd.payload :: s.queue else s.queue).countP
          (Payload.isFor j) =
          (if b then one (Payload.isFor j) hd.payload else 0) +
            s.queue.countP (Payload.isFor j) := by
        intro b
        cases b with
        | false => simp
        | true => exact Tally.countP_cons _ _
      rw [hqueue]
      omega
    · intro j
      have hold := hs.unanswered j
      have hnew := (Handler.step_write heff).unanswered_le j
      dsimp only
      rw [List.count_append, List.countP_append]
      omega

private theorem bounded_publisher {i : Nat} {input : PublisherInput} (hs : s.Bounded log)
    (h : s.step (.publisher i input) = some s') :
    s'.Bounded (s.faults (.publisher i input) ++ log) := by
  have hsound := step_sound s _ s' hs.sound h
  have hconcludes := concludes_step hs.concludes h
  obtain ⟨p, hp, h⟩ := Option.bind_eq_some_iff.mp h
  obtain ⟨eff, heff, rfl⟩ := Option.map_eq_some_iff.mp h
  have hjobs := ((Publisher.step_move heff).frame).2
  have hfaults : s.faults (.publisher i input) =
      (eff.accepted.toList.map JobOutbox.jobId).map .announced := by
    rw [faults, hp, Option.bind_some, heff]
  have hannounced : ∀ j, ((eff.accepted.toList.map JobOutbox.jobId).map Fault.announced).count
      (.announced j) = (eff.accepted.toList.map JobOutbox.jobId).count j :=
    fun j => List.count_map_of_injective _ _ (fun _ _ heq => Fault.announced.inj heq) j
  have hother : ∀ f : Fault, (∀ j, f ≠ .announced j) →
      ((eff.accepted.toList.map JobOutbox.jobId).map Fault.announced).count f = 0 := by
    intro f hf
    refine List.count_eq_zero.mpr ?_
    intro hmem
    obtain ⟨j, _, rfl⟩ := List.mem_map.mp hmem
    exact hf j rfl
  rw [hfaults]
  refine ⟨hsound, hconcludes, ?_, ?_⟩
  · intro j
    have htickets := hs.tickets j
    have haccepted := Payload.countP_accepted eff.accepted JobOutbox.jobId j
    simp only [World.tickets, row, Db.row, hjobs, List.countP_append, List.count_append]
      at htickets ⊢
    rw [haccepted, hannounced, hother _ (by simp), hother _ (by simp)]
    omega
  · intro j
    dsimp only
    rw [List.count_append, hother _ (by simp), Nat.zero_add]
    exact hs.unanswered j

end Steps

/-- **Every step stays within the bound.** -/
theorem bounded_step (s : World) (log : List Fault) (a : Action) (s' : World)
    (hs : s.Bounded log) (h : s.step a = some s') : s'.Bounded (s.faults a ++ log) := by
  cases a with
  | submission i input => exact bounded_submission hs h
  | publisher i input => exact bounded_publisher hs h
  | deliver k workerId again => exact bounded_deliver hs h
  | handler i input => exact bounded_handler hs h
  | advance d | spawnPublisher =>
      have hsound := step_sound s _ s' hs.sound h
      cases h
      exact ⟨hsound, hs.concludes, hs.tickets, hs.unanswered⟩
  | post results id =>
      have hsound := step_sound s _ s' hs.sound h
      have hconcludes := concludes_step hs.concludes h
      cases h
      refine ⟨hsound, hconcludes, ?_, hs.unanswered⟩
      intro j
      have htickets := hs.tickets j
      have hsends : one (Submission.sends j) (.receive results id) = 0 := by
        cases results <;> rfl
      simp only [World.tickets] at htickets ⊢
      rw [Tally.countP_append_one, hsends]
      exact htickets
  | reap gen reply =>
      have hsound := step_sound s _ s' hs.sound h
      have hrows := row_le hs.sound h
      change s'.Bounded log
      cases step_move h with
      | reapFailed => exact hs
      | reaped _ =>
          have hevents : ∀ (b : Bool) (es : List JobEvent),
              ((if b then [JobEvent.reset] else []) ++ es).countP JobEvent.isFinish =
                es.countP JobEvent.isFinish := by
            intro b es
            cases b <;> rfl
          refine ⟨hsound, hs.concludes, ?_, ?_⟩
          · intro j
            have htickets := hs.tickets j
            have hrow := hrows j
            dsimp only [World.tickets] at htickets ⊢
            rw [hevents]
            omega
          · intro j
            dsimp only
            rw [hevents]
            exact hs.unanswered j

theorem bounded_along (now : Time) (as : List Action) :
    Runs.HoldsAlong (Runs.logged step faults) (fun p => p.1.Bounded p.2) (empty now, []) as :=
  Runs.logged_holdsAlong bounded_step (bounded_empty now) as

/-- **No more calls and results than messages.**  In every state of every run, the calls
at work on a job are at most one and those its duplicated deliveries and its outbox
messages have added, and the results stored for it exceed that by no more than the
results whose `finish` reported an error. -/
theorem results_bounded (now : Time) (as : List Action) :
    Runs.HoldsAlong (Runs.logged step faults)
      (fun p => ∀ j,
        p.1.handlers.countP (Handler.worksOn j) ≤
          1 + p.2.count (.duplicated j) + p.2.count (.announced j) ∧
        (storedResults (p.1.history j)).length ≤
          1 + p.2.count (.duplicated j) + p.2.count (.announced j) +
            p.2.count (.unanswered j))
      (empty now, []) as := by
  refine (bounded_along now as).mono ?_
  intro p hp j
  have htickets := hp.tickets j
  have hunanswered := hp.unanswered j
  have hrow := Bool.toNat_le (p.1.row j).isSome
  rw [length_storedResults]
  unfold World.tickets at htickets
  exact ⟨by omega, by omega⟩

/-! ## Final results -/

/-- No fault is about job `j`. -/
def Unfaulted (log : List Fault) (j : Uuid) : Prop :=
  ∀ f ∈ log, f.jobId ≠ j

/-- A job without faults has one ticket or one result. -/
private theorem Bounded.of_unfaulted {s : World} {log : List Fault} (hs : s.Bounded log)
    {j : Uuid} (hj : Unfaulted log j) :
    (storedResults (s.history j)).length + s.tickets j ≤ 1 := by
  have hnone : ∀ f : Fault, f.jobId = j → log.count f = 0 :=
    fun f hf => List.count_eq_zero.mpr fun hmem => hj f hmem hf
  have htickets := hs.tickets j
  rw [hnone _ rfl, hnone _ rfl, hnone _ rfl] at htickets
  have hrow := Bool.toNat_le (s.row j).isSome
  rw [length_storedResults]
  omega

/-- The results of jobs without faults are still shown. -/
structure Final (s : World) (log : List Fault) : Prop where
  bounded : s.Bounded log
  faithful : ∃ executions, s.Faithful executions
  stays : ∀ j, Unfaulted log j → RowStays (s.row j) (s.history j)

/-- A call that writes a status holds the ticket of its job. -/
private theorem one_le_tickets {s : World} {a : Action} {j : Uuid} {status : RunStatus}
    (hw : s.statusWrite a = some (j, status)) : 1 ≤ s.tickets j := by
  obtain ⟨⟨hd, hmem, hjob⟩, _⟩ := statusWrite_cases hw
  have hone : one (Handler.worksOn j) hd = 1 :=
    Tally.one_of_true (by simp [Handler.worksOn, hjob])
  have hle := Tally.one_le_countP (p := Handler.worksOn j) hmem
  unfold World.tickets
  omega

/-- Job `j` has its verdict, and nothing is left of it but its row. -/
structure Concluded (j : Uuid) (r : JobRow) (args : FinishArgs) (s : World) : Prop where
  final : ∃ log, s.Final log ∧ Unfaulted log j
  row : s.row j = some r
  verdict : r.status.isTerminal = true
  unlocked : r.lockToken = none
  stored : storedResults (s.history j) = [args]
  /-- the reaper has never requeued the job -/
  unannounced : s.db.requeues j = 0

section Continuations

variable {s s' : World} {a : Action} {j : Uuid} {r : JobRow} {args : FinishArgs}

/-- Whoever has a ticket of the job is not there any more. -/
private theorem Concluded.tickets (hs : s.Concluded j r args) : s.tickets j = 0 := by
  obtain ⟨log, hfinal, hj⟩ := hs.final
  have hone := hfinal.bounded.of_unfaulted hj
  rw [hs.stored, List.length_singleton] at hone
  omega

/-- **A row with a final verdict stays**, and no result is added to it. -/
private theorem Concluded.stays (hs : s.Concluded j r args) (h : s.step a = some s') :
    s'.row j = some r ∧ storedResults (s'.history j) = storedResults (s.history j) := by
  obtain ⟨log, hfinal, _⟩ := hs.final
  obtain ⟨events, hhist, hrow⟩ := step_row h hfinal.bounded.sound j
  -- an unguarded write comes from a call with a ticket
  have hwrite : ∀ {e status}, JobEvent.written e = some status → events ≠ [e] := by
    intro e status he hevents
    rw [hevents] at hhist
    have hticket := one_le_tickets ((history_status_iff h he).mp hhist).1
    rw [hs.tickets] at hticket
    omega
  have hheld : ∀ token, r.heldBy token = false := by
    intro token
    simp [JobRow.heldBy, hs.unlocked]
  have hbusy : r.status ≠ .running ∧ r.status ≠ .queued := by
    have hterm := hs.verdict
    constructor <;> intro heq <;> rw [heq] at hterm <;> cases hterm
  rw [hs.row] at hrow
  rw [hhist]
  generalize s'.row j = after at hrow ⊢
  cases hrow with
  | idle | refuse => exact ⟨rfl, rfl⟩
  | queue => exact absurd rfl (hwrite rfl)
  | mark => exact absurd rfl (hwrite rfl)
  | start _ _ _ hguard _ _ =>
      rcases JobRow.startable_iff.mp hguard with hqueued | ⟨hrunning, _⟩
      · exact absurd hqueued hbusy.2
      · exact absurd hrunning hbusy.1
  | renew _ token hholds | finish _ token _ hholds _ =>
      rw [hheld token] at hholds
      cases hholds
  | reset _ hstale => exact absurd (JobRow.stale_iff.mp hstale).1 hbusy.1

/-- The publishers have no message of the job ahead. -/
private theorem Concluded.unsent (hs : s.Concluded j r args) {p : Publisher}
    (hp : p ∈ s.publishers) {e : JobOutbox} (he : e ∈ p.pending) : e.jobId ≠ j := by
  rintro rfl
  obtain ⟨_, hfinal, _⟩ := hs.final
  obtain ⟨_, hfaithful⟩ := hfinal.faithful
  obtain ⟨e', he', _, hjob⟩ := hfaithful.ordinary.provenance.pending p hp e he
  have hnone := hs.unannounced
  rw [Db.requeues, List.countP_eq_zero] at hnone
  exact hnone e' he' (by simp [hjob])

end Continuations

example : (Runs.exec (Runs.logged step faults) (empty 0, []) (Action.submit 0 7 ++
    [.deliver 0 "worker-1" false] ++ Action.start 0 100 ++ Action.answer 0)).map
      (fun p => (p.2, p.1.db.requeues 7, storedResults (p.1.history 7))) =
    some ([], 0, [⟨.success, some "hello", some "", some 0⟩]) := by rfl

end World

end EditorBack
