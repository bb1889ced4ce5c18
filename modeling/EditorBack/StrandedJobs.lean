import EditorBack.Provenance

/-!
# No acknowledged job is stranded

A job that was answered with its id always has somebody to bring it on: it is
done, or a message for it is on the topic or being handled, or an outbox row
for it waits to be published, or the reaper will see its heartbeat grow old.

The invariant is about every job that was ever sent, and about outbox rows
whose message Kafka has not yet accepted: those are the rows a publisher can
only take away by putting their message on the topic.  Two further facts make
it inductive: a call past its `get_and_queued` finds its row out of `Accepted`,
so that a `try_start` which is refused leaves a row that is done or beating,
and a publisher marks only what it has sent.
-/

namespace EditorBack

/-- What brings job `j` on. -/
inductive World.Covered (s : World) (j : Uuid) : Prop
  | verdict {r : JobRow} (hr : s.row j = some r) (hterm : r.status.isTerminal = true)
  | queued (hmem : .message ⟨j⟩ ∈ s.queue)
  | handled {h : Handler} (hmem : h ∈ s.handlers) (hjob : h.phase.jobId = some j)
  | outboxed {e : JobOutbox} (hmem : e ∈ s.db.outbox.rows) (hjob : e.jobId = j)
      (hunpublished : e.publishedAt = none) (hunsent : e.id ∉ s.published)
  | beating {r : JobRow} (hr : s.row j = some r) (hrunning : r.status = .running)
      (hbeat : r.heartbeatAt ≠ none)

/-! ## How a call lets go of its job -/

section Leaving

variable {db : Db} {input : HandlerInput} {h h' : Handler} {j : Uuid}

/-- After a step, a call still works on its job, or its message goes back to
the topic, or it has found no row, a busy row, or stored a result. -/
theorem Handler.Move.leaves (hm : Handler.Move db input h h') (hjob : h.phase.jobId = some j) :
    h'.phase.jobId = some j ∨ (h'.owesRedelivery && !h.owesRedelivery) = true ∨
      JobStore.get j db = none ∨
      (∃ token job, input = .tryStart .ok token ∧ h.phase = .starting job ∧ job.id = j ∧
        (db.row j).any (·.startable db.now) = false) ∨
      (∃ job args answer lease, input = .finish .ok ∧ h.phase = .finishing job args answer ∧
        h.lease = some lease ∧ job.id = j ∧
        (db.row j).any (·.heldBy lease.lockToken) = true) := by
  have hcalm : h.owesRedelivery = false := by
    unfold owesRedelivery
    split <;> simp_all [Phase.jobId]
  have hretry : ∀ err, ((h.retry err).owesRedelivery && !h.owesRedelivery) = true := by
    intro err
    rw [hcalm]
    rfl
  cases hm with
  | @selected _ reply id job hp hget =>
      rw [hp] at hjob
      cases hjob
      exact Or.inl (congrArg some (JobStore.id_of_get hget).1)
  | notFound hp hget =>
      rw [hp] at hjob
      cases hjob
      exact Or.inr (Or.inr (Or.inl hget))
  | selectFailed _ | queueFailed _ | startFailed _ | markFailed _ _ _ | cancelled _ _ _
  | storeFailed _ _ => exact Or.inr (Or.inl (hretry _))
  | queued hp _ | observed hp | granted hp _ | marked hp _ | unsupported hp _ | ran hp _ _
  | collected hp _ | joined hp _ _ _ => exact Or.inl (by rw [hp] at hjob; exact hjob)
  | panicked _ => exact Or.inr (Or.inl (by rw [hcalm]; rfl))
  | @busy _ token job hp hrow =>
      rw [hp] at hjob
      cases hjob
      exact Or.inr (Or.inr (Or.inr (Or.inl ⟨token, job, rfl, hp, rfl, hrow⟩)))
  | beatFailed _ _ _ => exact Or.inr (Or.inl (by rw [hcalm]; rfl))
  | @stored _ job args answer lease hp hl hheld =>
      rw [hp] at hjob
      cases hjob
      exact Or.inr (Or.inr (Or.inr (Or.inr ⟨job, args, answer, lease, rfl, hp, hl, rfl, hheld⟩)))
  | beat _ _ | beatRenewed _ _ | beatLost _ _ | beatError _ _ | beatStopped _ _ _ =>
      exact Or.inl hjob
  | crashed h =>
      refine Or.inr (Or.inl ?_)
      rw [hcalm]
      simp [owesRedelivery, hjob]

/-- A call gets past its `get_and_queued` by executing the `UPDATE`. -/
theorem Handler.Move.passes_queue {job : Job} (hm : Handler.Move db input h h')
    (hp' : h'.phase = .observing job ∨ h'.phase = .starting job) :
    (h.phase = .observing job ∨ h.phase = .starting job) ∨
      ∃ reply, input = .queue reply ∧ reply.executed = true ∧ h.phase = .queuing job := by
  cases hm with
  | @queued _ reply job' hp hexec =>
      rcases hp' with hp' | hp' <;> cases hp'
      exact Or.inr ⟨reply, rfl, hexec, hp⟩
  | observed hp =>
      rcases hp' with hp' | hp' <;> cases hp'
      exact Or.inl (Or.inl hp)
  | beat _ _ | beatRenewed _ _ | beatLost _ _ | beatError _ _ | beatStopped _ _ _ =>
      exact Or.inl hp'
  | crashed h =>
      dsimp only at hp'
      split at hp'
      · rcases hp' with hp' | hp' <;> cases hp'
      · exact Or.inl hp'
  | _ => rcases hp' with hp' | hp' <;> cases hp'

end Leaving

/-- A row that is neither startable nor `Accepted` is done or beating. -/
theorem JobRow.done_or_beating {r : JobRow} {now : Time} (hstart : r.startable now = false)
    (hstatus : r.status ≠ .accepted) :
    r.status.isTerminal = true ∨ (r.status = .running ∧ r.heartbeatAt ≠ none) := by
  cases hs : r.status with
  | accepted => exact absurd hs hstatus
  | queued =>
      rw [JobRow.startable_iff.mpr (Or.inl hs)] at hstart
      cases hstart
  | running =>
      refine Or.inr ⟨rfl, ?_⟩
      intro hnull
      rw [JobRow.startable_iff.mpr (Or.inr ⟨hs, Or.inl hnull⟩)] at hstart
      cases hstart
  | _ => exact Or.inl rfl

namespace World

/-- Every job ever sent is covered, and what keeps it so. -/
structure Watched (s : World) : Prop where
  provenance : s.Provenance
  started : ∀ h ∈ s.handlers, ∀ job, h.phase = .observing job ∨ h.phase = .starting job →
    ∀ r, s.row job.id = some r → r.status ≠ .accepted
  marking : ∀ p ∈ s.publishers, ∀ e rest, p = .marking e rest → e.id ∈ s.published
  published : ∀ id ∈ s.published, ∃ j, s.db.Outboxed id j
  covered : ∀ j ∈ s.sent, s.Covered j

theorem watched_empty (now : Time) : (empty now).Watched := by
  refine ⟨provenance_empty now, ?_, ?_, ?_, ?_⟩ <;> simp [empty]

section Steps

variable {s s' : World} {a : Action} {j : Uuid}

/-! ### A covered job stays covered -/

/-- Messages stay on the topic until they are delivered. -/
private theorem covered_of_queued (h : s.step a = some s') (hj : .message ⟨j⟩ ∈ s.queue) :
    s'.Covered j := by
  cases step_move h with
  | submission _ _ => exact .queued (List.mem_append_right _ hj)
  | @delivered _ _ _ payload hpayload =>
      by_cases hthis : payload = .message ⟨j⟩
      · subst hthis
        exact .handled (List.mem_append_right _ (List.mem_singleton_self _)) rfl
      · apply Covered.queued
        dsimp only
        split
        · exact hj
        · obtain ⟨n, hn⟩ := List.mem_iff_getElem?.mp hj
          refine List.mem_eraseIdx_iff_getElem?.mpr ⟨n, ?_, hn⟩
          intro heq
          subst heq
          rw [hpayload] at hn
          exact hthis (Option.some_inj.mp hn)
  | handler _ _ _ _ =>
      apply Covered.queued
      dsimp only
      split
      · exact List.mem_cons_of_mem _ hj
      · exact hj
  | publisher _ _ => exact .queued (List.mem_append_right _ hj)
  | _ => exact .queued hj

/-- A refused `try_start` leaves its row as it found it, done or beating. -/
private theorem covered_of_busy (hs : s.Watched) {hd : Handler} (hmem : hd ∈ s.handlers)
    {token : Uuid} {job : Job} {db : Db} {event : Option (Uuid × JobEvent)}
    (hw : hd.Write s.db (.tryStart .ok token) db event) (hp : hd.phase = .starting job)
    (hrow : (s.db.row job.id).any (·.startable s.db.now) = false) (hs' : s'.db = db) :
    s'.Covered job.id := by
  obtain ⟨r, hr⟩ := hs.provenance.row_of_working hmem (by rw [hp]; rfl)
  have hrdb : s.db.row job.id = some r := hr
  have hfree : r.startable s.db.now = false := by simpa [hrdb] using hrow
  have hafter : s'.row job.id = some r := by
    rw [row, hs']
    cases hw with
    | none _ => exact hrdb
    | @tryStart _ _ job' hp' _ =>
        rw [hp] at hp'
        cases hp'
        rw [JobStore.row_tryStart, if_pos rfl, hrdb]
        simp [hfree]
  rcases JobRow.done_or_beating hfree (hs.started hd hmem job (Or.inr hp) r hr) with
    hterm | ⟨hrunning, hbeat⟩
  · exact .verdict hafter hterm
  · exact .beating hafter hrunning hbeat

/-- A `finish` that went through has stored a verdict. -/
private theorem covered_of_stored (hs : s.Watched) {hd : Handler} (hmem : hd ∈ s.handlers)
    {job : Job} {args : FinishArgs} {answer : Except ProcessError Unit} {lease : Lease} {db : Db}
    {event : Option (Uuid × JobEvent)} (hw : hd.Write s.db (.finish .ok) db event)
    (hp : hd.phase = .finishing job args answer) (hl : hd.lease = some lease)
    (hheld : (s.db.row job.id).any (·.heldBy lease.lockToken) = true) (hs' : s'.db = db) :
    s'.Covered job.id := by
  obtain ⟨r, hr⟩ := hs.provenance.row_of_working hmem (by rw [hp]; rfl)
  have hrdb : s.db.row job.id = some r := hr
  have hheldr : r.heldBy lease.lockToken = true := by simpa [hrdb] using hheld
  have hterm : args.status.isTerminal = true := by
    have hv := (hs.provenance.sound.handlers hd hmem).verdict
    rwa [hp] at hv
  have hafter : s'.row job.id = some (r.store s.db.now args) := by
    rw [row, hs']
    cases hw with
    | none hnone => cases hnone
    | @finish _ job' args' answer' lease' hp' hl' _ =>
        rw [hp] at hp'
        cases hp'
        rw [hl] at hl'
        cases hl'
        rw [JobStore.row_finish, if_pos rfl, hrdb]
        simp [hheldr]
  exact .verdict hafter hterm

/-- **A call lets go of its job only when the job is covered.** -/
private theorem covered_of_handled (hs : s.Watched) (h : s.step a = some s') {hd : Handler}
    (hmem : hd ∈ s.handlers) (hjob : hd.phase.jobId = some j) : s'.Covered j := by
  cases step_move h with
  | @handler i input hd₀ hd' db event hhd hm hw _ =>
      obtain ⟨n, hn⟩ := List.mem_iff_getElem?.mp hmem
      by_cases hi : n = i
      · -- this very call moves
        subst hi
        rw [hhd] at hn
        cases hn
        have hlt : n < s.handlers.length := (List.getElem?_eq_some_iff.mp hhd).1
        rcases hm.leaves hjob with
          hstay | howes | hnone | ⟨token, job, rfl, hp, rfl, hrow⟩ |
            ⟨job, args, answer, lease, rfl, hp, hl, rfl, hheld⟩
        · exact .handled (List.mem_set hlt _) hstay
        · apply Covered.queued
          rw [if_pos howes, (hs.provenance.sound.handlers hd hmem).job j hjob]
          exact List.mem_cons_self
        · -- a call works on a job that has a row
          obtain ⟨r, hr⟩ := hs.provenance.row_of_working hmem hjob
          change s.db.row j = some r at hr
          rw [JobStore.get, hr] at hnone
          cases hnone
        · exact covered_of_busy hs hmem hw hp hrow rfl
        · exact covered_of_stored hs hmem hw hp hl hheld rfl
      · apply Covered.handled (List.mem_iff_getElem?.mpr ⟨n, ?_⟩) hjob
        rw [List.getElem?_set_ne (Ne.symm hi)]
        exact hn
  | delivered _ => exact .handled (List.mem_append_left _ hmem) hjob
  | _ => exact .handled hmem hjob

/-- A row that shows a verdict or a heartbeat is covered after every step: a
status write comes from a call in progress, and a reset leaves an outbox
row. -/
private theorem covered_of_shown (hs : s.Watched) (h : s.step a = some s') {r : JobRow}
    (hr : s.row j = some r)
    (hshown : r.status.isTerminal = true ∨ (r.status = .running ∧ r.heartbeatAt ≠ none)) :
    s'.Covered j := by
  have hkeep : s'.row j = some r → s'.Covered j := by
    intro hr'
    rcases hshown with hterm | ⟨hrunning, hbeat⟩
    · exact .verdict hr' hterm
    · exact .beating hr' hrunning hbeat
  have hwritten : ∀ {e : JobEvent} {status : RunStatus}, e.written = some status →
      s'.history j = e :: s.history j → s'.Covered j := by
    intro e status he hhist
    obtain ⟨⟨hd, hhd, hjob⟩, _⟩ := statusWrite_cases ((history_status_iff h he).mp hhist).1
    exact covered_of_handled hs h hhd hjob
  obtain ⟨events, hhist, hrow⟩ := step_row h hs.provenance.sound j
  rw [hr] at hrow
  generalize hr' : s'.row j = r?' at hrow
  cases hrow with
  | idle => exact hkeep hr'
  | refuse => exact hkeep hr'
  | queue _ => exact hwritten rfl hhist
  | start _ token workerId _ _ _ => exact .beating hr' rfl nofun
  | mark _ => exact hwritten rfl hhist
  | renew _ token hheld => exact .beating hr' (JobRow.heldBy_iff.mp hheld).1 nofun
  | finish _ token args _ hterminal => exact .verdict hr' hterminal
  | reset _ hstale =>
      obtain ⟨gen, reply, rfl⟩ := reap_of_history_reset h hhist
      cases step_move h with
      | reaped hreap =>
          have hmem := (JobStore.mem_reaped_iff hreap).mpr ⟨r, hr, hstale⟩
          obtain ⟨e, he, hjob, hnone, hfresh⟩ := JobStore.outbox_of_reaped hreap hmem
          apply Covered.outboxed he hjob hnone
          intro hpub
          obtain ⟨j', e₀, he₀, hid, _⟩ := hs.published e.id hpub
          exact hfresh e₀ he₀ hid
      | reapFailed => exact hkeep hr

/-- A publisher that sends an event either sends this very row or leaves it
unsent. -/
private theorem covered_of_sending (hs : s.Watched) {i : Nat} {p : Publisher}
    (hp : s.publishers[i]? = some p) {e' : JobOutbox} (hpending : e' ∈ p.pending)
    {e : JobOutbox} (he : e ∈ s.db.outbox.rows) (hnone : e.publishedAt = none)
    (hunsent : e.id ∉ s.published) (hdb : s'.db = s.db)
    (hqueue : s'.queue = .message ⟨e'.jobId⟩ :: s.queue)
    (hpub : s'.published = e'.id :: s.published) : s'.Covered e.jobId := by
  obtain ⟨e₀, he₀, hid, hjob⟩ := hs.provenance.pending p (List.mem_of_getElem? hp) e' hpending
  by_cases hsame : e'.id = e.id
  · have heq : e₀ = e := KeyedTable.eq_of_key he₀ he (hid.trans hsame)
    subst heq
    apply Covered.queued
    rw [hqueue, hjob]
    exact List.mem_cons_self
  · apply Covered.outboxed (by rw [hdb]; exact he) rfl hnone
    rw [hpub]
    intro hmem
    rcases List.mem_cons.mp hmem with heq | hold
    · exact hsame heq.symm
    · exact hunsent hold

/-- An outbox row waits until a publisher has put its message on the topic. -/
private theorem covered_of_outboxed (hs : s.Watched) (h : s.step a = some s') {e : JobOutbox}
    (he : e ∈ s.db.outbox.rows) (hnone : e.publishedAt = none) (hunsent : e.id ∉ s.published) :
    s'.Covered e.jobId := by
  cases step_move h with
  | submission _ hm => exact .outboxed (by rw [hm.frame.2]; exact he) rfl hnone hunsent
  | handler _ _ hw _ => exact .outboxed (by rw [hw.frame.2]; exact he) rfl hnone hunsent
  | reaped hreap =>
      exact .outboxed (JobStore.outbox_subset_of_reap hreap he) rfl hnone hunsent
  | @publisher _ _ p _ hp hm =>
      -- marking an event published touches no row that is still unsent
      have hmark : ∀ {event : JobOutbox} {rest : List JobOutbox}, p = .marking event rest →
          e ∈ (JobStore.markOutboxPublished event.id s.db).outbox.rows := by
        intro event rest heq
        have hsent := hs.marking p (List.mem_of_getElem? hp) event rest heq
        have hne : e.id ≠ event.id := by
          intro hid
          rw [hid] at hunsent
          exact hunsent hsent
        exact JobStore.mem_outbox_markOutboxPublished.mpr ⟨e, he, by simp [hne]⟩
      cases hm with
      | acked => exact covered_of_sending hs hp List.mem_cons_self he hnone hunsent rfl rfl rfl
      | unacked => exact covered_of_sending hs hp List.mem_cons_self he hnone hunsent rfl rfl rfl
      | marked => exact .outboxed (hmark rfl) rfl hnone hunsent
      | markLost => exact .outboxed (hmark rfl) rfl hnone hunsent
      | _ => exact .outboxed he rfl hnone hunsent
  | _ => exact .outboxed he rfl hnone hunsent

/-- **A covered job stays covered.** -/
theorem covered_step (hs : s.Watched) (h : s.step a = some s') (hc : s.Covered j) :
    s'.Covered j := by
  cases hc with
  | verdict hr hterm => exact covered_of_shown hs h hr (Or.inl hterm)
  | queued hmem => exact covered_of_queued h hmem
  | handled hmem hjob => exact covered_of_handled hs h hmem hjob
  | outboxed hmem hjob hnone hunsent =>
      subst hjob
      exact covered_of_outboxed hs h hmem hnone hunsent
  | beating hr hrunning hbeat => exact covered_of_shown hs h hr (Or.inr ⟨hrunning, hbeat⟩)

/-- A message just accepted is on the topic. -/
private theorem covered_of_sent (h : s.step a = some s') (hj : j ∈ s'.sent) :
    j ∈ s.sent ∨ s'.Covered j := by
  cases step_move h with
  | submission _ _ =>
      rcases List.mem_append.mp hj with hnew | hold
      · obtain ⟨msg, hmsg, rfl⟩ := List.mem_map.mp hnew
        exact Or.inr (.queued (List.mem_append_left _ (List.mem_map_of_mem hmsg)))
      · exact Or.inl hold
  | publisher _ _ =>
      rcases List.mem_append.mp hj with hnew | hold
      · obtain ⟨e, he, rfl⟩ := List.mem_map.mp hnew
        exact Or.inr (.queued (List.mem_append_left _ (List.mem_map.mpr ⟨e, he, rfl⟩)))
      · exact Or.inl hold
  | _ => exact Or.inl hj

/-! ### What keeps it so -/

/-- The `UPDATE` of `get_and_queued` leaves no row `Accepted`. -/
private theorem not_accepted_of_queue {db db' : Db} {hd : Handler} {reply : Reply} {job : Job}
    {event : Option (Uuid × JobEvent)} (hw : hd.Write db (.queue reply) db' event)
    (hexec : reply.executed = true) (hp : hd.phase = .queuing job) {r' : JobRow}
    (hr' : db'.row job.id = some r') : r'.status ≠ .accepted := by
  cases hw with
  | none hnone =>
      have hnot : reply.executed = false := hnone
      rw [hexec] at hnot
      cases hnot
  | @queue _ job₀ hp₀ _ =>
      rw [hp] at hp₀
      cases hp₀
      rw [JobStore.row_updateStatus, if_pos rfl] at hr'
      obtain ⟨r, _, rfl⟩ := Option.map_eq_some_iff.mp hr'
      exact nofun

/-- A call past its `get_and_queued` keeps finding its row out of `Accepted`. -/
private theorem started_step (hs : s.Watched) (h : s.step a = some s') {hd' : Handler}
    (hmem' : hd' ∈ s'.handlers) {job : Job}
    (hp' : hd'.phase = .observing job ∨ hd'.phase = .starting job) {r' : JobRow}
    (hr' : s'.row job.id = some r') : r'.status ≠ .accepted := by
  have hold : ∀ {hd : Handler}, hd ∈ s.handlers →
      (hd.phase = .observing job ∨ hd.phase = .starting job) → r'.status ≠ .accepted := by
    intro hd hmem hp
    have hjob : hd.phase.jobId = some job.id := by rcases hp with hp | hp <;> rw [hp] <;> rfl
    obtain ⟨r, hr⟩ := hs.provenance.row_of_working hmem hjob
    obtain ⟨events, _, hrow⟩ := step_row h hs.provenance.sound job.id
    obtain ⟨r₁, hr₁, hstatus⟩ := hrow.not_accepted hr (hs.started hd hmem job hp r hr)
    rw [hr'] at hr₁
    cases hr₁
    exact hstatus
  cases step_move h with
  | @delivered _ _ _ payload _ =>
      rcases List.mem_append.mp hmem' with hmem | hnew
      · exact hold hmem hp'
      · cases List.mem_singleton.mp hnew
        cases payload <;> rcases hp' with hp' | hp' <;> cases hp'
  | handler hhd hm hw _ =>
      rcases List.mem_or_eq_of_mem_set hmem' with hmem | rfl
      · exact hold hmem hp'
      · rcases hm.passes_queue hp' with hp | ⟨reply, rfl, hexec, hp⟩
        · exact hold (List.mem_of_getElem? hhd) hp
        · exact not_accepted_of_queue hw hexec hp hr'
  | _ => exact hold hmem' hp'

/-- What was published comes from the outbox. -/
private theorem published_step (hs : s.Watched) (h : s.step a = some s') {id : Uuid}
    (hid : id ∈ s'.published) : ∃ j, s'.db.Outboxed id j := by
  have hbefore : ∃ j, s.db.Outboxed id j := by
    cases step_move h with
    | publisher hp hm =>
        rcases List.mem_append.mp hid with hnew | hold
        · obtain ⟨e, he, rfl⟩ := List.mem_map.mp hnew
          have hpending := hm.accepted (by simpa using he)
          exact ⟨e.jobId, hs.provenance.pending _ (List.mem_of_getElem? hp) e hpending⟩
        · exact hs.published id hold
    | _ => exact hs.published id hid
  obtain ⟨j, hout⟩ := hbefore
  exact ⟨j, outboxed_mono h hout⟩

end Steps

/-- **Every step keeps every sent job covered.** -/
theorem watched_step (s : World) (a : Action) (s' : World) (hs : s.Watched)
    (h : s.step a = some s') : s'.Watched where
  provenance := provenance_step s a s' hs.provenance h
  started := fun _ hmem _ hp _ hr => started_step hs h hmem hp hr
  marking := by
    rintro p hp event rest rfl
    rcases marking_origin h hp with hold | ⟨_, _, _, hnew⟩
    · exact step_published h (hs.marking _ hold event rest rfl)
    · exact hnew
  published := fun _ hid => published_step hs h hid
  covered := by
    intro j hj
    rcases covered_of_sent h hj with hold | hnew
    · exact covered_step hs h (hs.covered j hold)
    · exact hnew

/-- The row of job `j` is done, or somebody is going to take it up: a message
on the topic or in a worker's hands, an unpublished outbox row, or the reaper
once the heartbeat is old enough. -/
def Attended (s : World) (j : Uuid) : Prop :=
  ∃ r, s.row j = some r ∧
    (r.status.isTerminal = true ∨
      (.message ⟨j⟩ ∈ s.queue ∨ ∃ h ∈ s.handlers, h.phase.jobId = some j) ∨
      (∃ e ∈ s.db.outbox.rows, e.jobId = j ∧ e.publishedAt = none) ∨
      (r.status = .running ∧ r.heartbeatAt ≠ none))

theorem Watched.attended {s : World} (hs : s.Watched) {j : Uuid} (hj : j ∈ s.sent) :
    s.Attended j := by
  obtain ⟨r, hr⟩ := Option.isSome_iff_exists.mp (hs.provenance.stored j hj)
  refine ⟨r, hr, ?_⟩
  cases hs.covered j hj with
  | verdict hr' hterm =>
      rw [hr] at hr'
      cases hr'
      exact Or.inl hterm
  | queued hmem => exact Or.inr (Or.inl (Or.inl hmem))
  | handled hmem hjob => exact Or.inr (Or.inl (Or.inr ⟨_, hmem, hjob⟩))
  | outboxed hmem hjob hnone _ => exact Or.inr (Or.inr (Or.inl ⟨_, hmem, hjob, hnone⟩))
  | beating hr' hrunning hbeat =>
      rw [hr] at hr'
      cases hr'
      exact Or.inr (Or.inr (Or.inr ⟨hrunning, hbeat⟩))

/-- **No acknowledged job is stranded.**  In every state of every run, each job
whose request was answered with its id is attended. -/
theorem acknowledged_jobs_attended (now : Time) (as : List Action) :
    Runs.HoldsAlong step
      (fun s => ∀ sub ∈ s.submissions, ∀ j, sub.phase = .returned (.ok j) → s.Attended j)
      (empty now) as := by
  have hinv := Runs.holdsAlong_of_invariant watched_step (watched_empty now) as
  refine hinv.mono ?_
  intro s hs sub hsub j hp
  exact hs.attended (hs.provenance.answered sub hsub j hp)

end World

end EditorBack
