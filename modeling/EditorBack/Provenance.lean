import EditorBack.RowSteps

/-!
# Where messages come from

Every message in the system is about a job whose message Kafka has accepted
before, and every such job has a row.  The invariant follows an id through all
its places: the row that has left `Accepted`, the deliveries still owed, the
calls working on it, the outbox and the batches of the publishers.
-/

namespace EditorBack

/-- The outbox holds a row `id` for job `jobId`. -/
def Db.Outboxed (db : Db) (id jobId : Uuid) : Prop :=
  ∃ e ∈ db.outbox.rows, e.id = id ∧ e.jobId = jobId

/-- Publishing an event removes nothing from the outbox and adds nothing. -/
theorem Db.outboxed_markOutboxPublished {db : Db} {event id jobId : Uuid} :
    (JobStore.markOutboxPublished event db).Outboxed id jobId ↔ db.Outboxed id jobId := by
  have hcolumns : ∀ e : JobOutbox, ∀ b : Bool,
      (if b then e.publish db.now else e).id = e.id ∧
        (if b then e.publish db.now else e).jobId = e.jobId := by
    intro e b
    cases b <;> exact ⟨rfl, rfl⟩
  constructor
  · intro h
    obtain ⟨e, he, rfl, rfl⟩ := h
    obtain ⟨e₀, he₀, rfl⟩ := JobStore.mem_outbox_markOutboxPublished.mp he
    exact ⟨e₀, he₀, (hcolumns e₀ _).1.symm, (hcolumns e₀ _).2.symm⟩
  · intro h
    obtain ⟨e₀, he₀, rfl, rfl⟩ := h
    exact ⟨_, JobStore.mem_outbox_markOutboxPublished.mpr ⟨e₀, he₀, rfl⟩, hcolumns e₀ _⟩

/-- What a publisher still has ahead, it has selected from the outbox. -/
theorem Publisher.Move.pending {db : Db} {input : PublisherInput} {p : Publisher}
    {eff : PublisherEffect} (hm : Publisher.Move db input p eff) {e : JobOutbox}
    (he : e ∈ eff.publisher.pending) : e ∈ p.pending ∨ e ∈ db.outbox.rows := by
  have hproceed : ∀ {events : List JobOutbox}, e ∈ (Publisher.proceed events).pending →
      e ∈ events := by
    intro events hmem
    cases events with
    | nil => cases hmem
    | cons event rest => exact hmem
  cases hm with
  | selected => exact Or.inr (JobStore.mem_getUnpublishedOutbox (hproceed he))
  | acked => exact Or.inl he
  | unacked => exact Or.inl (List.mem_cons_of_mem _ (hproceed he))
  | refused => exact Or.inl (List.mem_cons_of_mem _ (hproceed he))
  | marked => exact Or.inl (List.mem_cons_of_mem _ (hproceed he))
  | markLost => cases he
  | stopped => cases he

/-- A publisher sends what it has pending. -/
theorem Publisher.Move.accepted {db : Db} {input : PublisherInput} {p : Publisher}
    {eff : PublisherEffect} (hm : Publisher.Move db input p eff) {e : JobOutbox}
    (he : eff.accepted = some e) : e ∈ p.pending := by
  cases hm with
  | acked => cases he; exact List.mem_cons_self
  | unacked => cases he; exact List.mem_cons_self
  | _ => cases he

/-- A publisher keeps every outbox entry. -/
theorem Publisher.Move.outboxed_iff {db : Db} {input : PublisherInput} {p : Publisher}
    {eff : PublisherEffect} (hm : Publisher.Move db input p eff) {id jobId : Uuid} :
    eff.db.Outboxed id jobId ↔ db.Outboxed id jobId := by
  cases hm with
  | marked => exact Db.outboxed_markOutboxPublished
  | markLost => exact Db.outboxed_markOutboxPublished
  | _ => exact Iff.rfl

namespace World

/-- Every id that circulates has been sent before, and what has been sent has
a row. -/
structure Provenance (s : World) : Prop where
  sound : s.Sound
  stored : ∀ j ∈ s.sent, (s.row j).isSome = true
  inserted : ∀ sub ∈ s.submissions, ∀ j, sub.inserted = some j → (s.row j).isSome = true
  sending : ∀ sub ∈ s.submissions, ∀ msg, sub.phase = .sending msg →
    sub.inserted = some msg.jobId
  answered : ∀ sub ∈ s.submissions, ∀ j, sub.phase = .returned (.ok j) → j ∈ s.sent
  queued : ∀ j, .message ⟨j⟩ ∈ s.queue → j ∈ s.sent
  handled : ∀ h ∈ s.handlers, ∀ j, h.payload = .message ⟨j⟩ → j ∈ s.sent
  touched : ∀ j r, s.row j = some r → r.status ≠ .accepted → j ∈ s.sent
  outboxed : ∀ id j, s.db.Outboxed id j → j ∈ s.sent
  pending : ∀ p ∈ s.publishers, ∀ e ∈ p.pending, s.db.Outboxed e.id e.jobId

section Steps

variable {s s' : World} {a : Action} {j : Uuid}

/-- Rows stay. -/
theorem row_isSome (h : s.step a = some s') (hs : s.Sound)
    (hrow : (s.row j).isSome = true) : (s'.row j).isSome = true := by
  obtain ⟨events, _, hstep⟩ := step_row h hs j
  exact hstep.isSome hrow

/-- What a call works on was sent. -/
theorem Provenance.working (hs : s.Provenance) {hd : Handler} (hhd : hd ∈ s.handlers)
    (hjob : hd.phase.jobId = some j) : j ∈ s.sent :=
  hs.handled hd hhd j ((hs.sound.handlers hd hhd).job j hjob)

/-- What a call works on has a row. -/
theorem Provenance.row_of_working (hs : s.Provenance) {hd : Handler} (hhd : hd ∈ s.handlers)
    (hjob : hd.phase.jobId = some j) : ∃ r, s.row j = some r :=
  Option.isSome_iff_exists.mp (hs.stored j (hs.working hhd hjob))

/-- What a publisher sends was sent before. -/
theorem Provenance.published (hs : s.Provenance) {i : Nat} {input : PublisherInput}
    {p : Publisher} {eff : PublisherEffect} (hp : s.publishers[i]? = some p)
    (hm : p.Move s.db input eff) {e : JobOutbox} (he : eff.accepted = some e) :
    e.jobId ∈ s.sent :=
  hs.outboxed e.id e.jobId (hs.pending p (List.mem_of_getElem? hp) e (hm.accepted he))

/-- A job is sent for the first time by the call that has inserted it. -/
theorem Provenance.sent_origin (hs : s.Provenance) (h : s.step a = some s') (hj : j ∈ s'.sent) :
    j ∈ s.sent ∨ ∃ i input sub, a = .submission i input ∧ s.submissions[i]? = some sub ∧
      sub.phase = .sending ⟨j⟩ := by
  cases step_move h with
  | @submission i input sub _ hsub hm =>
      rcases List.mem_append.mp hj with hnew | hold
      · obtain ⟨msg, hmsg, rfl⟩ := List.mem_map.mp hnew
        exact Or.inr ⟨i, input, sub, rfl, hsub, hm.accepted (by simpa using hmsg)⟩
      · exact Or.inl hold
  | publisher hp hm =>
      rcases List.mem_append.mp hj with hnew | hold
      · obtain ⟨e, he, rfl⟩ := List.mem_map.mp hnew
        exact Or.inl (hs.published hp hm (by simpa using he))
      · exact Or.inl hold
  | _ => exact Or.inl hj

/-- A message is sent for a job that has a row. -/
private theorem sent_step (hs : s.Provenance) (h : s.step a = some s') (hj : j ∈ s'.sent) :
    (s.row j).isSome = true := by
  rcases hs.sent_origin h hj with hold | ⟨i, input, sub, _, hsub, hphase⟩
  · exact hs.stored j hold
  · have hmem : sub ∈ s.submissions := List.mem_of_getElem? hsub
    exact hs.inserted sub hmem j (hs.sending sub hmem _ hphase)

/-- A call inserts under an id that has a row afterwards. -/
private theorem inserted_step (hs : s.Provenance) (h : s.step a = some s') {sub' : Submission}
    (hsub' : sub' ∈ s'.submissions) (hj : sub'.inserted = some j) :
    (s'.row j).isSome = true := by
  have hkept : ∀ {sub}, sub ∈ s.submissions → sub.inserted = some j → (s'.row j).isSome = true :=
    fun hsub hins => row_isSome h hs.sound (hs.inserted _ hsub j hins)
  rcases submission_origin h hsub' with
    hold | ⟨results, id, rfl⟩ | ⟨sub, hsub, input, eff, hm, rfl, hdb, _⟩
  · exact hkept hold hj
  · cases hj
  · rcases hm.inserted_or hj with hbefore | ⟨_, hrow⟩
    · exact hkept hsub hbefore
    · rw [row, hdb]
      exact hrow

/-- A call that is about to send has inserted the row the message is about. -/
private theorem sending_step (hs : s.Provenance) (h : s.step a = some s') {sub' : Submission}
    (hsub' : sub' ∈ s'.submissions) {msg : JobMessage} (hp : sub'.phase = .sending msg) :
    sub'.inserted = some msg.jobId := by
  rcases submission_origin h hsub' with
    hold | ⟨results, id, rfl⟩ | ⟨sub, hsub, input, eff, hm, rfl, _, _⟩
  · exact hs.sending sub' hold msg hp
  · cases results <;> cases hp
  · exact hm.sending hp

/-- A call answers with an id whose message was sent. -/
private theorem answered_step (hs : s.Provenance) (h : s.step a = some s') {sub' : Submission}
    (hsub' : sub' ∈ s'.submissions) (hp : sub'.phase = .returned (.ok j)) : j ∈ s'.sent := by
  rcases submission_origin h hsub' with
    hold | ⟨results, id, rfl⟩ | ⟨sub, hsub, input, eff, hm, rfl, _, hsent⟩
  · exact step_sent h (hs.answered sub' hold j hp)
  · cases results <;> cases hp
  · rcases hm.answered hp with hbefore | hacc
    · exact step_sent h (hs.answered sub hsub j hbefore)
    · rw [hsent, hacc]
      exact List.mem_cons_self

/-- A message on the topic was put there by a send, or put back by a call that
had been given it. -/
private theorem queued_step (hs : s.Provenance) (h : s.step a = some s')
    (hj : .message ⟨j⟩ ∈ s'.queue) : j ∈ s'.sent := by
  rcases queue_origin h hj with hold | ⟨msg, heq, hsent⟩ | ⟨hd, hhd, hpay⟩
  · exact step_sent h (hs.queued j hold)
  · cases heq
    exact hsent
  · exact step_sent h (hs.handled hd hhd j hpay)

/-- A call is given a message from the topic. -/
private theorem handled_step (hs : s.Provenance) (h : s.step a = some s') {hd' : Handler}
    (hhd' : hd' ∈ s'.handlers) (hpay : hd'.payload = .message ⟨j⟩) : j ∈ s.sent := by
  rcases handler_origin h hhd' with
    hold | ⟨payload, hpayload, workerId, rfl⟩ | ⟨i, input, hd, eff, _, hhd, heff, rfl⟩
  · exact hs.handled hd' hold j hpay
  · have hthis : payload = .message ⟨j⟩ := hpay
    subst hthis
    exact hs.queued j hpayload
  · have hsame := (Handler.step_move heff).payload
    exact hs.handled hd (List.mem_of_getElem? hhd) j (hsame.symm.trans hpay)

/-- A row leaves `Accepted` only for a message that was sent. -/
private theorem touched_step (hs : s.Provenance) (h : s.step a = some s') {r' : JobRow}
    (hr' : s'.row j = some r') (hstatus : r'.status ≠ .accepted) : j ∈ s.sent := by
  have hwritten : ∀ {e : JobEvent} {status : RunStatus}, e.written = some status →
      s'.history j = e :: s.history j → j ∈ s.sent := by
    intro e status he hhist
    obtain ⟨⟨hd, hhd, hjob⟩, _⟩ := statusWrite_cases ((history_status_iff h he).mp hhist).1
    exact hs.working hhd hjob
  obtain ⟨events, hhist, hrow⟩ := step_row h hs.sound j
  rcases hrow.leaves_accepted hr' hstatus with ⟨r, hr, hold⟩ | rfl | rfl
  · exact hs.touched j r hr hold
  · exact hwritten rfl hhist
  · exact hwritten rfl hhist

/-- Outbox rows are never deleted. -/
theorem outboxed_mono (h : s.step a = some s') {id : Uuid} (hout : s.db.Outboxed id j) :
    s'.db.Outboxed id j := by
  obtain ⟨e, he, hcolumns⟩ := hout
  cases step_move h with
  | submission _ hm => exact ⟨e, by rw [hm.frame.2]; exact he, hcolumns⟩
  | handler _ _ hw _ => exact ⟨e, by rw [hw.frame.2]; exact he, hcolumns⟩
  | reaped hreap => exact ⟨e, JobStore.outbox_subset_of_reap hreap he, hcolumns⟩
  | publisher _ hm => exact hm.outboxed_iff.mpr ⟨e, he, hcolumns⟩
  | _ => exact ⟨e, he, hcolumns⟩

/-- Outbox rows are written for jobs that were sent. -/
private theorem outboxed_step (hs : s.Provenance) (h : s.step a = some s') {id : Uuid}
    (hout : s'.db.Outboxed id j) : j ∈ s.sent := by
  obtain ⟨e, he, hid, rfl⟩ := hout
  have hold : e ∈ s.db.outbox.rows → e.jobId ∈ s.sent :=
    fun hmem => hs.outboxed e.id e.jobId ⟨e, hmem, rfl, rfl⟩
  cases step_move h with
  | submission _ hm => exact hold (by rw [← hm.frame.2]; exact he)
  | handler _ _ hw _ => exact hold (by rw [← hw.frame.2]; exact he)
  | reaped hreap =>
      rcases JobStore.mem_outbox_of_reap hreap he with hmem | hnew
      · exact hold hmem
      · -- a stale row is running, so its message was sent
        obtain ⟨r, hr, hstale⟩ := (JobStore.mem_reaped_iff hreap).mp hnew
        apply hs.touched e.jobId r hr
        rw [(JobRow.stale_iff.mp hstale).1]
        exact nofun
  | publisher _ hm => exact hs.outboxed id e.jobId (hm.outboxed_iff.mp ⟨e, he, hid, rfl⟩)
  | _ => exact hold he

/-- What a publisher has ahead is in the outbox. -/
private theorem pending_step (hs : s.Provenance) (h : s.step a = some s') {p' : Publisher}
    (hp' : p' ∈ s'.publishers) {e : JobOutbox} (he : e ∈ p'.pending) :
    s'.db.Outboxed e.id e.jobId := by
  apply outboxed_mono h
  cases step_move h with
  | spawned =>
      rcases List.mem_append.mp hp' with hold | hnew
      · exact hs.pending p' hold e he
      · cases List.mem_singleton.mp hnew
        cases he
  | @publisher _ _ p _ hp hm =>
      rcases List.mem_or_eq_of_mem_set hp' with hold | rfl
      · exact hs.pending p' hold e he
      · rcases hm.pending he with hbefore | hrow
        · exact hs.pending p (List.mem_of_getElem? hp) e hbefore
        · exact ⟨e, hrow, rfl, rfl⟩
  | _ => exact hs.pending p' hp' e he

end Steps

theorem provenance_empty (now : Time) : (empty now).Provenance := by
  refine ⟨empty_sound now, ?_, ?_, ?_, ?_, ?_, ?_, ?_, ?_, ?_⟩ <;>
    simp [empty, row, Db.row, Db.Outboxed, KeyedTable.empty, KeyedTable.lookup]

/-- **Every step keeps the provenance of messages.** -/
theorem provenance_step (s : World) (a : Action) (s' : World) (hs : s.Provenance)
    (h : s.step a = some s') : s'.Provenance where
  sound := step_sound s a s' hs.sound h
  stored := fun _ hj => row_isSome h hs.sound (sent_step hs h hj)
  inserted := fun _ hsub _ hj => inserted_step hs h hsub hj
  sending := fun _ hsub _ hp => sending_step hs h hsub hp
  answered := fun _ hsub _ hp => answered_step hs h hsub hp
  queued := fun _ hj => queued_step hs h hj
  handled := fun _ hhd _ hpay => step_sent h (handled_step hs h hhd hpay)
  touched := fun _ _ hr hstatus => step_sent h (touched_step hs h hr hstatus)
  outboxed := fun _ _ hout => step_sent h (outboxed_step hs h hout)
  pending := fun _ hp _ he => pending_step hs h hp he

end World

end EditorBack
