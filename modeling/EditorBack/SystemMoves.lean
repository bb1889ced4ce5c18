import EditorBack.HandlerMoves
import EditorBack.System

/-!
# The transitions of the system

`World.Move` lists what one step of the system can be, one constructor for each
component that moves, with the transition of that component inside.  A theorem
about one part of the state is proved by cases on `Move`: the components that
leave the part alone fall under one wildcard.  The `origin` lemmas say where a
call, a message or a mark after a step comes from.

The second half is about the two statements that write a status without looking
at the row: `history_status_iff` reads them off the row's history.
-/

namespace EditorBack

namespace World

/-- The transitions of the system. -/
inductive Move (s : World) : Action → World → Prop
  | advanced (d : Time) : Move s (.advance d) { s with db := { s.db with now := s.db.now + d } }
  | posted (results : Except Nat RunRequest) (id : Uuid) :
      Move s (.post results id) { s with submissions := s.submissions ++ [.receive results id] }
  | submission {i : Nat} {input : SubmissionInput} {sub : Submission} {eff : SubmissionEffect}
      (hsub : s.submissions[i]? = some sub) (hm : sub.Move s.db input eff) :
      Move s (.submission i input)
        { s with
          db := eff.db
          submissions := s.submissions.set i eff.submission
          queue := eff.accepted.toList.map Payload.message ++ s.queue
          sent := eff.accepted.toList.map JobMessage.jobId ++ s.sent
          history := fun j => eventsAt eff.event j ++ s.history j }
  | delivered {k : Nat} {workerId : String} {again : Bool} {payload : Payload}
      (hpayload : s.queue[k]? = some payload) :
      Move s (.deliver k workerId again)
        { s with
          queue := if again then s.queue else s.queue.eraseIdx k
          handlers := s.handlers ++ [Handler.receive workerId payload] }
  | handler {i : Nat} {input : HandlerInput} {hd hd' : Handler} {db : Db}
      {event : Option (Uuid × JobEvent)} (hhd : s.handlers[i]? = some hd)
      (hm : hd.Move s.db input hd') (hw : hd.Write s.db input db event)
      (hfresh : ∀ t ∈ input.tokens, t ∉ s.tokens) :
      Move s (.handler i input)
        { s with
          db := db
          handlers := s.handlers.set i hd'
          queue :=
            if hd'.owesRedelivery && !hd.owesRedelivery then hd.payload :: s.queue else s.queue
          tokens := input.tokens ++ s.tokens
          history := fun j => eventsAt event j ++ s.history j }
  | reaped {gen : List Uuid} {reply : Reply} {db : Db} {reaped : List Uuid}
      (hreap : JobStore.reapStaleJob (seconds 30) gen s.db = some (db, reaped)) :
      Move s (.reap gen reply)
        { s with
          db := db
          history := fun j =>
            (if (s.row j).any (·.stale (seconds 30) s.db.now) then [.reset] else []) ++
              s.history j }
  | reapFailed {gen : List Uuid} {reply : Reply} : Move s (.reap gen reply) s
  | spawned : Move s .spawnPublisher { s with publishers := s.publishers ++ [.idle] }
  | publisher {i : Nat} {input : PublisherInput} {p : Publisher} {eff : PublisherEffect}
      (hp : s.publishers[i]? = some p) (hm : p.Move s.db input eff) :
      Move s (.publisher i input)
        { s with
          db := eff.db
          publishers := s.publishers.set i eff.publisher
          queue := eff.accepted.toList.map (fun e => .message ⟨e.jobId⟩) ++ s.queue
          sent := eff.accepted.toList.map JobOutbox.jobId ++ s.sent
          published := eff.accepted.toList.map JobOutbox.id ++ s.published }

section Steps

variable {s s' : World} {a : Action}

/-- **Every step of the system is a transition of one component.** -/
theorem step_move (h : s.step a = some s') : s.Move a s' := by
  cases a with
  | advance d =>
      cases h
      exact .advanced d
  | post results id =>
      cases h
      exact .posted results id
  | submission i input =>
      obtain ⟨sub, hsub, h⟩ := Option.bind_eq_some_iff.mp h
      obtain ⟨eff, heff, rfl⟩ := Option.map_eq_some_iff.mp h
      exact .submission hsub (Submission.step_move heff)
  | deliver k workerId again =>
      obtain ⟨payload, hpayload, rfl⟩ := Option.map_eq_some_iff.mp h
      exact .delivered hpayload
  | handler i input =>
      simp only [step, stepHandler] at h
      split at h
      · cases h
      · next hfresh =>
          obtain ⟨hd, hhd, h⟩ := Option.bind_eq_some_iff.mp h
          obtain ⟨eff, heff, rfl⟩ := Option.map_eq_some_iff.mp h
          exact .handler hhd (Handler.step_move heff) (Handler.step_write heff)
            (by simpa using hfresh)
  | reap gen reply =>
      simp only [step, stepReap] at h
      split at h
      · obtain ⟨⟨db, reaped⟩, hreap, rfl⟩ := Option.map_eq_some_iff.mp h
        -- the jobs returned are those with a stale row
        simp only [JobStore.mem_reaped_iff_any hreap]
        exact .reaped hreap
      · cases h
        exact .reapFailed
  | spawnPublisher =>
      cases h
      exact .spawned
  | publisher i input =>
      obtain ⟨p, hp, h⟩ := Option.bind_eq_some_iff.mp h
      obtain ⟨eff, heff, rfl⟩ := Option.map_eq_some_iff.mp h
      exact .publisher hp (Publisher.step_move heff)

/-- Issued tokens stay issued. -/
theorem step_tokens (h : s.step a = some s') : ∀ t ∈ s.tokens, t ∈ s'.tokens := by
  intro t ht
  cases step_move h with
  | handler _ _ _ _ => exact List.mem_append_right _ ht
  | _ => exact ht

/-- What has been sent stays sent. -/
theorem step_sent (h : s.step a = some s') {j : Uuid} (hj : j ∈ s.sent) : j ∈ s'.sent := by
  cases step_move h with
  | submission _ _ => exact List.mem_append_right _ hj
  | publisher _ _ => exact List.mem_append_right _ hj
  | _ => exact hj

/-- A payload on the topic was there before, has just been sent, or is put back by
a call that had been given it. -/
theorem queue_origin (h : s.step a = some s') {payload : Payload} (hmem : payload ∈ s'.queue) :
    payload ∈ s.queue ∨ (∃ msg, payload = .message msg ∧ msg.jobId ∈ s'.sent) ∨
      ∃ hd ∈ s.handlers, hd.payload = payload := by
  cases step_move h with
  | submission _ _ =>
      rcases List.mem_append.mp hmem with hnew | hold
      · obtain ⟨msg, hmsg, rfl⟩ := List.mem_map.mp hnew
        exact Or.inr (Or.inl ⟨msg, rfl, List.mem_append_left _ (List.mem_map_of_mem hmsg)⟩)
      · exact Or.inl hold
  | delivered _ =>
      dsimp only at hmem
      split at hmem
      · exact Or.inl hmem
      · exact Or.inl (List.mem_of_mem_eraseIdx hmem)
  | @handler _ _ hd _ _ _ hhd _ _ _ =>
      dsimp only at hmem
      split at hmem
      · rcases List.mem_cons.mp hmem with rfl | hold
        · exact Or.inr (Or.inr ⟨hd, List.mem_of_getElem? hhd, rfl⟩)
        · exact Or.inl hold
      · exact Or.inl hmem
  | publisher _ _ =>
      rcases List.mem_append.mp hmem with hnew | hold
      · obtain ⟨e, he, rfl⟩ := List.mem_map.mp hnew
        exact Or.inr (Or.inl ⟨⟨e.jobId⟩, rfl, List.mem_append_left _ (List.mem_map_of_mem he)⟩)
      · exact Or.inl hold
  | _ => exact Or.inl hmem

/-- What has been published stays published. -/
theorem step_published (h : s.step a = some s') {id : Uuid} (hid : id ∈ s.published) :
    id ∈ s'.published := by
  cases step_move h with
  | publisher _ _ => exact List.mem_append_right _ hid
  | _ => exact hid

/-- A publisher that is to mark an event was so before, or Kafka has just
acknowledged the event's message. -/
theorem marking_origin (h : s.step a = some s') {event : JobOutbox} {rest : List JobOutbox}
    (hmem : .marking event rest ∈ s'.publishers) :
    .marking event rest ∈ s.publishers ∨
      ∃ i, a = .publisher i (.send .acked) ∧ s.publishers[i]? = some (.sending event rest) ∧
        event.id ∈ s'.published := by
  have hproceed : ∀ events, Publisher.proceed events ≠ .marking event rest := by
    intro events
    cases events <;> exact nofun
  cases step_move h with
  | spawned =>
      rcases List.mem_append.mp hmem with hold | hnew
      · exact Or.inl hold
      · cases List.mem_singleton.mp hnew
  | @publisher i _ _ _ hp hm =>
      rcases List.mem_or_eq_of_mem_set hmem with hold | heq
      · exact Or.inl hold
      · cases hm with
        | acked =>
            cases heq
            exact Or.inr ⟨i, rfl, hp, List.mem_append_left _ (List.mem_singleton_self _)⟩
        | markLost => cases heq
        | stopped => cases heq
        | _ => exact absurd heq.symm (hproceed _)
  | _ => exact Or.inl hmem

/-- A call in the system was there before, has just been given a message of the
topic, or has just taken a step. -/
theorem handler_origin (h : s.step a = some s') {hd' : Handler} (hmem : hd' ∈ s'.handlers) :
    hd' ∈ s.handlers ∨
      (∃ payload ∈ s.queue, ∃ workerId, hd' = .receive workerId payload) ∨
      ∃ i input hd eff, a = .handler i input ∧ s.handlers[i]? = some hd ∧
        hd.step input s.db = some eff ∧ hd' = eff.handler := by
  cases a with
  | deliver k workerId again =>
      obtain ⟨payload, hpayload, rfl⟩ := Option.map_eq_some_iff.mp h
      rcases List.mem_append.mp hmem with hold | hnew
      · exact Or.inl hold
      · exact Or.inr (Or.inl ⟨payload, List.mem_of_getElem? hpayload, workerId,
          List.mem_singleton.mp hnew⟩)
  | handler i input =>
      simp only [step, stepHandler] at h
      split at h
      · cases h
      · obtain ⟨hd, hhd, h⟩ := Option.bind_eq_some_iff.mp h
        obtain ⟨eff, heff, rfl⟩ := Option.map_eq_some_iff.mp h
        rcases List.mem_or_eq_of_mem_set hmem with hold | rfl
        · exact Or.inl hold
        · exact Or.inr (Or.inr ⟨i, input, hd, eff, rfl, hhd, heff, rfl⟩)
  | _ =>
      left
      cases step_move h <;> exact hmem

/-- A request in the system was there before, has just come in, or has just taken
a step, whose effect is then the system's. -/
theorem submission_origin (h : s.step a = some s') {sub' : Submission}
    (hmem : sub' ∈ s'.submissions) :
    sub' ∈ s.submissions ∨ (∃ results id, sub' = .receive results id) ∨
      ∃ sub ∈ s.submissions, ∃ input eff, sub.Move s.db input eff ∧ sub' = eff.submission ∧
        s'.db = eff.db ∧ s'.sent = eff.accepted.toList.map JobMessage.jobId ++ s.sent := by
  cases step_move h with
  | posted results id =>
      rcases List.mem_append.mp hmem with hold | hnew
      · exact Or.inl hold
      · exact Or.inr (Or.inl ⟨results, id, List.mem_singleton.mp hnew⟩)
  | submission hsub hm =>
      rcases List.mem_or_eq_of_mem_set hmem with hold | rfl
      · exact Or.inl hold
      · exact Or.inr (Or.inr ⟨_, List.mem_of_getElem? hsub, _, _, hm, rfl, rfl, rfl⟩)
  | _ => exact Or.inl hmem

/-- Calls stay at their places. -/
theorem handlers_length_le (h : s.step a = some s') :
    s.handlers.length ≤ s'.handlers.length := by
  cases step_move h with
  | delivered _ => simp
  | handler _ _ _ _ => simp
  | _ => exact Nat.le_refl _

/-- The call at a place is the one that was there, a new one, or that one after
a step. -/
theorem handler_at_step (h : s.step a = some s') {i : Nat} {hd' : Handler}
    (hhd' : s'.handlers[i]? = some hd') :
    s.handlers[i]? = some hd' ∨
      (s.handlers[i]? = none ∧ ∃ workerId payload, hd' = .receive workerId payload) ∨
      ∃ input hd, s.handlers[i]? = some hd ∧ hd.Move s.db input hd' := by
  cases step_move h with
  | @delivered _ workerId _ payload _ =>
      dsimp only at hhd'
      rcases Nat.lt_or_ge i s.handlers.length with hlt | hge
      · rw [List.getElem?_append_left hlt] at hhd'
        exact Or.inl hhd'
      · rw [List.getElem?_append_right hge, List.getElem?_singleton] at hhd'
        split at hhd'
        · cases hhd'
          exact Or.inr (Or.inl ⟨List.getElem?_eq_none hge, workerId, payload, rfl⟩)
        · cases hhd'
  | @handler k input hd _ _ _ hhd hm _ _ =>
      dsimp only at hhd'
      by_cases hik : k = i
      · subst hik
        rw [List.getElem?_set_self (List.getElem?_eq_some_iff.mp hhd).1] at hhd'
        cases hhd'
        exact Or.inr (Or.inr ⟨input, hd, hhd, hm⟩)
      · rw [List.getElem?_set_ne hik] at hhd'
        exact Or.inl hhd'
  | _ => exact Or.inl hhd'

/-- **Exactness for calls.**  When a step of a call keeps `P` exactly if it meets
`C`, then a step of the system keeps `P` of all calls exactly if it meets `C`
whenever it is a step of a call. -/
theorem handlers_iff_of_step {P : Handler → Prop} {C : HandlerInput → Handler → Prop}
    (h : s.step a = some s') (hreceive : ∀ workerId payload, P (.receive workerId payload))
    (hexact : ∀ hd ∈ s.handlers, ∀ input, ∀ hd' ∈ s'.handlers, hd.Move s.db input hd' →
      (P hd' ↔ C input hd))
    (hp : ∀ hd ∈ s.handlers, P hd) :
    (∀ hd ∈ s'.handlers, P hd) ↔
      ∀ i input hd, a = .handler i input → s.handlers[i]? = some hd → C input hd := by
  cases step_move h with
  | @handler i input hd hd' _ _ hhd hm _ _ =>
      have hmem : hd ∈ s.handlers := List.mem_of_getElem? hhd
      have hmem' : hd' ∈ s.handlers.set i hd' :=
        List.mem_set (List.getElem?_eq_some_iff.mp hhd).1 _
      have hiff : P hd' ↔ C input hd := hexact hd hmem input hd' hmem' hm
      constructor
      · intro hall i' input' hd₀ heq hhd₀
        cases heq
        rw [hhd] at hhd₀
        cases hhd₀
        exact hiff.mp (hall hd' hmem')
      · intro hcond hd₁ hmem₁
        rcases List.mem_or_eq_of_mem_set hmem₁ with hold | rfl
        · exact hp hd₁ hold
        · exact hiff.mpr (hcond i input hd rfl hhd)
  | delivered _ =>
      refine iff_of_true ?_ (by simp)
      intro hd hmem
      rcases List.mem_append.mp hmem with hold | hnew
      · exact hp hd hold
      · cases List.mem_singleton.mp hnew
        exact hreceive _ _
  | _ => exact iff_of_true hp (by simp)

/-- The database clock never goes back. -/
theorem step_now (h : s.step a = some s') : s.db.now ≤ s'.db.now := by
  cases step_move h with
  | advanced d => exact Nat.le_add_right _ _
  | submission _ hm => exact Nat.le_of_eq hm.frame.1.symm
  | handler _ _ hw _ => exact Nat.le_of_eq hw.frame.1.symm
  | reaped hreap => exact Nat.le_of_eq (JobStore.outbox_reapStaleJob hreap).1.symm
  | publisher _ hm => exact Nat.le_of_eq hm.frame.1.symm
  | _ => exact Nat.le_refl _

/-- A reap either does not run or resets the rows that are stale. -/
theorem step_reap {gen : List Uuid} {reply : Reply} (h : s.step (.reap gen reply) = some s') :
    (reply.executed = false ∧ s' = s) ∨
      (reply.executed = true ∧
        ∃ reaped, JobStore.reapStaleJob (seconds 30) gen s.db = some (s'.db, reaped) ∧
          ∀ j, s'.history j =
            (if (s.row j).any (·.stale (seconds 30) s.db.now) then [.reset] else []) ++
              s.history j) := by
  simp only [step, stepReap] at h
  split at h
  · next hexec =>
      obtain ⟨⟨db, reaped⟩, hreap, rfl⟩ := Option.map_eq_some_iff.mp h
      refine Or.inr ⟨hexec, reaped, hreap, ?_⟩
      intro j
      simp only [JobStore.mem_reaped_iff_any hreap]
      rfl
  · next hexec =>
      cases h
      exact Or.inl ⟨by simpa using hexec, rfl⟩

end Steps

/-! ## Invariants of the calls -/

/-- What holds of every call in the system. -/
structure Sound (s : World) : Prop where
  handlers : ∀ h ∈ s.handlers, h.Sound s.tokens
  submissions : ∀ sub ∈ s.submissions, ∀ job, sub.phase = .inserting job →
    job.status = .accepted

theorem empty_sound (now : Time) : (empty now).Sound := by
  constructor <;> simp [empty]

/-- A submitted job is accepted. -/
private theorem receive_inserting {results : Except Nat RunRequest} {id : Uuid} {job : Job}
    (hp : (Submission.receive results id).phase = .inserting job) : job.status = .accepted := by
  cases results with
  | ok request =>
      cases hp
      rfl
  | error status => cases hp

/-- A step of an API call leads to no new insertion. -/
theorem submission_inserting {input : SubmissionInput} {db : Db} {sub : Submission}
    {eff : SubmissionEffect} (hm : sub.Move db input eff) {job : Job}
    (hp : eff.submission.phase = .inserting job) : sub.phase = .inserting job := by
  cases hm with
  | overCrashed _ => exact hp
  | _ => cases hp

/-- **Every step keeps the invariants of the calls.** -/
theorem step_sound (s : World) (a : Action) (s' : World) (hs : s.Sound)
    (h : s.step a = some s') : s'.Sound := by
  refine ⟨?_, ?_⟩
  · intro hd' hhd'
    cases step_move h with
    | delivered _ =>
        rcases List.mem_append.mp hhd' with hold | hnew
        · exact hs.handlers hd' hold
        · cases List.mem_singleton.mp hnew
          exact Handler.receive_sound _ _ _
    | @handler _ _ hd _ _ _ hhd hm _ _ =>
        rcases List.mem_or_eq_of_mem_set hhd' with hold | rfl
        · exact (hs.handlers hd' hold).mono (fun t ht => List.mem_append_right _ ht)
        · exact hm.sound (hs.handlers hd (List.mem_of_getElem? hhd))
    | _ => exact hs.handlers hd' hhd'
  · intro sub' hsub' job hp
    rcases submission_origin h hsub' with
      hold | ⟨results, id, rfl⟩ | ⟨sub, hsub, input, eff, hm, rfl, _, _⟩
    · exact hs.submissions sub' hold job hp
    · exact receive_inserting hp
    · exact hs.submissions sub hsub job (submission_inserting hm hp)

/-! ## Unguarded status writes -/

/-- The status write without a guard that a step executes: the `UPDATE` of
`get_and_queued`, or `update_status(Running)`. -/
def statusWrite (s : World) : Action → Option (Uuid × RunStatus)
  | .handler i (.queue reply) =>
      if reply.executed then
        (s.handlers[i]?).bind fun h =>
          match h.phase with
          | .queuing job => some (job.id, .queued)
          | _ => none
      else none
  | .handler i (.mark reply) =>
      if reply.executed then
        (s.handlers[i]?).bind fun h =>
          match h.phase with
          | .marking job => some (job.id, .running)
          | _ => none
      else none
  | _ => none

end World

/-- The status that the statement behind an event writes without a guard. -/
def JobEvent.written : JobEvent → Option RunStatus
  | .queued => some .queued
  | .marked => some .running
  | _ => none

namespace World

section StatusWrites

variable {s s' : World} {a : Action} {j : Uuid}

/-- An unguarded write comes from a call that works on the job, and sets
`Queued` or `Running`. -/
theorem statusWrite_cases {status : RunStatus} (hw : s.statusWrite a = some (j, status)) :
    (∃ hd ∈ s.handlers, hd.phase.jobId = some j) ∧ (status = .queued ∨ status = .running) := by
  unfold statusWrite at hw
  split at hw
  · split at hw
    · obtain ⟨hd, hhd, hw⟩ := Option.bind_eq_some_iff.mp hw
      split at hw
      · next job hp =>
          cases hw
          exact ⟨⟨hd, List.mem_of_getElem? hhd, by rw [hp]; rfl⟩, Or.inl rfl⟩
      · cases hw
    · cases hw
  · split at hw
    · obtain ⟨hd, hhd, hw⟩ := Option.bind_eq_some_iff.mp hw
      split at hw
      · next job hp =>
          cases hw
          exact ⟨⟨hd, List.mem_of_getElem? hhd, by rw [hp]; rfl⟩, Or.inr rfl⟩
      · cases hw
    · cases hw
  · cases hw

/-- A step of a call that executes no statement is no status write. -/
private theorem statusWrite_of_not_writes {i : Nat} {input : HandlerInput}
    (hnone : input.writes = false) : s.statusWrite (.handler i input) = none := by
  cases input with
  | queue reply =>
      have hexec : reply.executed = false := hnone
      simp [statusWrite, hexec]
  | mark reply =>
      have hexec : reply.executed = false := hnone
      simp [statusWrite, hexec]
  | _ => rfl

/-- What an event adds to a history. -/
theorem mem_eventsAt {event : Option (Uuid × JobEvent)} {e : JobEvent} :
    e ∈ eventsAt event j ↔ event = some (j, e) := by
  cases event with
  | none => simp [eventsAt]
  | some pair =>
      obtain ⟨id, e'⟩ := pair
      by_cases hj : j = id
      · subst hj
        simp [eventsAt, eq_comm]
      · simp [eventsAt, hj, Ne.symm hj]

private theorem eventsAt_eq_singleton {event : Option (Uuid × JobEvent)} {e : JobEvent} :
    eventsAt event j = [e] ↔ event = some (j, e) := by
  rw [← mem_eventsAt]
  cases event with
  | none => simp [eventsAt]
  | some pair =>
      simp only [eventsAt]
      split <;> simp [eq_comm]

theorem append_eq_cons {events es : List JobEvent} {e : JobEvent} :
    events ++ es = e :: es ↔ events = [e] := by
  rw [← List.singleton_append]
  exact List.append_left_inj es

/-- **Unguarded writes show in the history.**  The history of a row grows by the
event of such a write exactly when the step executes it and there is a row. -/
theorem history_status_iff (h : s.step a = some s') {e : JobEvent} {status : RunStatus}
    (he : e.written = some status) :
    s'.history j = e :: s.history j ↔
      s.statusWrite a = some (j, status) ∧ (s.row j).isSome = true := by
  have hother : ∀ {event : Option (Uuid × JobEvent)},
      (∀ id e', event = some (id, e') → e'.written = none) →
      ¬ eventsAt event j ++ s.history j = e :: s.history j := by
    intro event hevent heq
    have hnone := hevent j e (eventsAt_eq_singleton.mp (append_eq_cons.mp heq))
    rw [he] at hnone
    cases hnone
  cases step_move h with
  | submission _ hm =>
      refine iff_of_false (hother ?_) (by simp [statusWrite])
      intro id e' heq
      cases hm <;> cases heq <;> rfl
  | @handler i _ _ _ _ _ hhd _ hw _ =>
      cases hw with
      | none hnone =>
          refine iff_of_false (hother (by simp)) ?_
          rw [statusWrite_of_not_writes hnone]
          simp
      | @queue reply job hp hexec =>
          have hwrite : s.statusWrite (.handler i (.queue reply)) = some (job.id, .queued) := by
            simp [statusWrite, hhd, hp, hexec]
          rw [hwrite, append_eq_cons, eventsAt_eq_singleton]
          cases e <;> cases he <;> grind [row]
      | @mark reply job _ hp _ hexec =>
          have hwrite : s.statusWrite (.handler i (.mark reply)) = some (job.id, .running) := by
            simp [statusWrite, hhd, hp, hexec]
          rw [hwrite, append_eq_cons, eventsAt_eq_singleton]
          cases e <;> cases he <;> grind [row]
      | _ => exact iff_of_false (hother (by grind [JobEvent.written])) (by simp [statusWrite])
  | reaped _ =>
      refine iff_of_false ?_ (by simp [statusWrite])
      rw [append_eq_cons]
      split
      · intro heq
        cases heq
        cases he
      · exact nofun
  | _ => simp [statusWrite]

/-- Only a reap resets a row. -/
theorem reap_of_history_reset (h : s.step a = some s')
    (hhist : s'.history j = .reset :: s.history j) : ∃ gen reply, a = .reap gen reply := by
  cases step_move h with
  | submission _ hm =>
      have hev := eventsAt_eq_singleton.mp (append_eq_cons.mp hhist)
      cases hm <;> cases hev
  | handler _ _ hw _ =>
      exact absurd (eventsAt_eq_singleton.mp (append_eq_cons.mp hhist)) hw.ne_reset
  | reaped _ => exact ⟨_, _, rfl⟩
  | reapFailed => exact ⟨_, _, rfl⟩
  | _ => simp at hhist

end StatusWrites

end World

end EditorBack
