import EditorBack.Provenance

/-!
# The outbox loses no event

Publishers work from snapshots: several of them select the same rows, send
their messages and mark them, and each may fail or die in between.  What makes
this safe is the order of two steps, for each row and in each publisher: the
row is marked only after Kafka has acknowledged its message.

The argument follows the outbox through a run with a log of what happens to it.
`outbox_loses_nothing` says that every row ever inserted is still there, that
`published_at` was set only after an acknowledgement of the message carrying
that row's job, and that it is never changed again.
-/

namespace EditorBack

/-- What happens to the outbox. -/
inductive OutboxEvent
  | inserted (row : JobOutbox)
  /-- Kafka acknowledged the message a publisher sent for the row `id` -/
  | acked (id : Uuid) (msg : JobMessage)
  /-- a `mark_outbox_published` that set `published_at` -/
  | published (id : Uuid) (time : Time)

/-- `e'` is `e` at a later time: the same row, and published as `e` was if `e`
was. -/
structure JobOutbox.Follows (e e' : JobOutbox) : Prop where
  id : e'.id = e.id
  jobId : e'.jobId = e.jobId
  eventType : e'.eventType = e.eventType
  createdAt : e'.createdAt = e.createdAt
  publishedAt : ∀ time, e.publishedAt = some time → e'.publishedAt = some time

theorem JobOutbox.Follows.refl (e : JobOutbox) : e.Follows e :=
  ⟨rfl, rfl, rfl, rfl, fun _ h => h⟩

theorem JobOutbox.Follows.trans {e e' e'' : JobOutbox} (h : e.Follows e') (h' : e'.Follows e'') :
    e.Follows e'' :=
  ⟨h'.id.trans h.id, h'.jobId.trans h.jobId, h'.eventType.trans h.eventType,
    h'.createdAt.trans h.createdAt, fun time ht => h'.publishedAt time (h.publishedAt time ht)⟩

/-- Marking a row leaves a later state of every row. -/
theorem JobStore.follows_markOutboxPublished {id : Uuid} {db : Db} {e : JobOutbox}
    (he : e ∈ db.outbox.rows) :
    ∃ e' ∈ (markOutboxPublished id db).outbox.rows, e.Follows e' := by
  refine ⟨_, mem_outbox_markOutboxPublished.mpr ⟨e, he, rfl⟩, ?_⟩
  split
  · next hmarked =>
      refine ⟨rfl, rfl, rfl, rfl, ?_⟩
      intro time ht
      simp [ht] at hmarked
  · exact .refl e

/-- A row that is published afterwards was published before, or it is the row
marked, unpublished before. -/
theorem JobStore.published_of_mark {id : Uuid} {db : Db} {e : JobOutbox} {time : Time}
    (he : e ∈ (markOutboxPublished id db).outbox.rows) (ht : e.publishedAt = some time) :
    e ∈ db.outbox.rows ∨
      (e.id = id ∧ time = db.now ∧ ∃ e₀ ∈ db.outbox.rows,
        e₀.id = id ∧ e₀.jobId = e.jobId ∧ e₀.publishedAt = none) := by
  obtain ⟨e₀, he₀, rfl⟩ := mem_outbox_markOutboxPublished.mp he
  by_cases hmarked : (decide (e₀.id = id) && e₀.publishedAt.isNone) = true
  · rw [if_pos hmarked] at ht ⊢
    simp only [Bool.and_eq_true, decide_eq_true_eq, Option.isNone_iff_eq_none] at hmarked
    cases ht
    exact Or.inr ⟨hmarked.1, rfl, e₀, he₀, hmarked.1, rfl, hmarked.2⟩
  · rw [if_neg hmarked]
    exact Or.inl he₀

/-- The rows of `db'` whose `published_at` was `NULL` in `db`. -/
def Db.publishes (db db' : Db) : List OutboxEvent :=
  db'.outbox.rows.filterMap fun e =>
    if (db.outbox.lookup e.id).any (·.publishedAt.isNone) then
      e.publishedAt.map (OutboxEvent.published e.id)
    else none

namespace World

/-- What a step does to the outbox: the rows a reap has inserted, the message that a
publisher's step has put on the topic with an acknowledgement, and the rows that a mark
has published. -/
def emits (s : World) : Action → List OutboxEvent
  | .reap gen reply =>
      match reply.executed, JobStore.reapStaleJob (seconds 30) gen s.db with
      | true, some (_, reaped) =>
          (List.zipWith (JobOutbox.new s.db.now) gen reaped).map OutboxEvent.inserted
      | _, _ => []
  | .publisher i input =>
      match (s.publishers[i]?).bind (·.step input s.db), input with
      | some eff, .send .acked => eff.accepted.toList.map fun e => .acked e.id ⟨e.jobId⟩
      | some eff, .mark _ => s.db.publishes eff.db
      | _, _ => []
  | _ => []

/-- The outbox against the log of what happened to it. -/
structure OutboxKept (s : World) (log : List OutboxEvent) : Prop where
  /-- every row ever inserted is still there -/
  present : ∀ e, .inserted e ∈ log → ∃ e' ∈ s.db.outbox.rows, e.Follows e'
  /-- a published row was acknowledged before it was marked -/
  published : ∀ e ∈ s.db.outbox.rows, ∀ time, e.publishedAt = some time →
    ∃ newer older, log = newer ++ .published e.id time :: older ∧
      .acked e.id ⟨e.jobId⟩ ∈ older

/-- What keeps it so: a publisher about to mark a row has had its message
acknowledged. -/
structure OutboxSound (s : World) (log : List OutboxEvent) : Prop where
  provenance : s.Provenance
  kept : s.OutboxKept log
  marking : ∀ p ∈ s.publishers, ∀ event rest, p = .marking event rest →
    .acked event.id ⟨event.jobId⟩ ∈ log

section Steps

variable {s s' : World} {a : Action} {log : List OutboxEvent}

/-- **No step removes an outbox row or changes its columns**, but for setting a
`published_at` that was `NULL`. -/
theorem follows_step (h : s.step a = some s') {e : JobOutbox} (he : e ∈ s.db.outbox.rows) :
    ∃ e' ∈ s'.db.outbox.rows, e.Follows e' := by
  cases step_move h with
  | submission _ hm => exact ⟨e, by rw [hm.frame.2]; exact he, .refl e⟩
  | handler _ _ hw _ => exact ⟨e, by rw [hw.frame.2]; exact he, .refl e⟩
  | reaped hreap => exact ⟨e, JobStore.outbox_subset_of_reap hreap he, .refl e⟩
  | publisher _ hm =>
      cases hm with
      | marked => exact JobStore.follows_markOutboxPublished he
      | markLost => exact JobStore.follows_markOutboxPublished he
      | _ => exact ⟨e, he, .refl e⟩
  | _ => exact ⟨e, he, .refl e⟩

/-- A row that was published stays behind its acknowledgement. -/
private theorem published_of_old (hs : s.OutboxKept log) {e : JobOutbox}
    (he : e ∈ s.db.outbox.rows) {time : Time} (ht : e.publishedAt = some time)
    (events : List OutboxEvent) :
    ∃ newer older, events ++ log = newer ++ .published e.id time :: older ∧
      .acked e.id ⟨e.jobId⟩ ∈ older := by
  obtain ⟨newer, older, rfl, hacked⟩ := hs.published e he time ht
  exact ⟨events ++ newer, older, by simp, hacked⟩

/-- The mark of a publisher, on the row whose message it has had acknowledged. -/
private theorem published_of_mark (hs : s.OutboxSound log) {i : Nat} {reply : Reply}
    {event : JobOutbox} {rest : List JobOutbox} (hp : s.publishers[i]? = some (.marking event rest))
    (hexec : (reply.call s.db (JobStore.markOutboxPublished event.id s.db, .ok ())).1 =
      JobStore.markOutboxPublished event.id s.db) {e : JobOutbox}
    (he : e ∈ (JobStore.markOutboxPublished event.id s.db).outbox.rows) {time : Time}
    (ht : e.publishedAt = some time) :
    ∃ newer older, s.emits (.publisher i (.mark reply)) ++ log =
        newer ++ .published e.id time :: older ∧ .acked e.id ⟨e.jobId⟩ ∈ older := by
  have hmem : Publisher.marking event rest ∈ s.publishers := List.mem_of_getElem? hp
  rcases JobStore.published_of_mark he ht with hold | ⟨hid, rfl, e₀, he₀, hid₀, hjob₀, hnone⟩
  · exact published_of_old hs.kept hold ht _
  · have hjob : event.jobId = e.jobId := by
      obtain ⟨e₁, he₁, hid₁, hjob₁⟩ :=
        hs.provenance.pending _ hmem event List.mem_cons_self
      have hsame : e₁ = e₀ := KeyedTable.eq_of_key he₁ he₀ (hid₁.trans hid₀.symm)
      rw [← hjob₁, hsame, hjob₀]
    have hlookup : s.db.outbox.lookup event.id = some e₀ := by
      rw [← hid₀]
      exact KeyedTable.lookup_of_mem he₀
    have hpublished : .published e.id s.db.now ∈ s.emits (.publisher i (.mark reply)) := by
      simp only [emits, hp, Option.bind_some, Publisher.step, Publisher.mark, hexec]
      refine List.mem_filterMap.mpr ⟨e, he, ?_⟩
      simp [hid, hlookup, hnone, ht]
    obtain ⟨newer, older, hsplit⟩ := List.append_of_mem hpublished
    refine ⟨newer, older ++ log, by rw [hsplit]; simp, ?_⟩
    rw [hid, ← hjob]
    exact List.mem_append_right _ (hs.marking _ hmem event rest rfl)

/-- A row is published by a publisher that has had its message acknowledged. -/
private theorem publishedAt_step (hs : s.OutboxSound log) (h : s.step a = some s') {e : JobOutbox}
    (he : e ∈ s'.db.outbox.rows) {time : Time} (ht : e.publishedAt = some time) :
    ∃ newer older, s.emits a ++ log = newer ++ .published e.id time :: older ∧
      .acked e.id ⟨e.jobId⟩ ∈ older := by
  have hold := fun hmem : e ∈ s.db.outbox.rows => published_of_old hs.kept hmem ht (s.emits a)
  cases step_move h with
  | submission _ hm => exact hold (by rw [← hm.frame.2]; exact he)
  | handler _ _ hw _ => exact hold (by rw [← hw.frame.2]; exact he)
  | reaped hreap =>
      rcases JobStore.unpublished_of_reap hreap he with hmem | hnone
      · exact hold hmem
      · rw [hnone] at ht
        cases ht
  | publisher hp hm =>
      cases hm with
      | marked => exact published_of_mark hs hp rfl he ht
      | markLost => exact published_of_mark hs hp rfl he ht
      | _ => exact hold he
  | _ => exact hold he

/-- What a step says it has inserted is in the outbox. -/
private theorem inserted_mem (h : s.step a = some s') {e : JobOutbox}
    (he : .inserted e ∈ s.emits a) : e ∈ s'.db.outbox.rows := by
  cases a with
  | reap gen reply =>
      rcases step_reap h with ⟨hexec, rfl⟩ | ⟨hexec, reaped, hreap, _⟩
      · simp [emits, hexec] at he
      · simp only [emits, hexec, hreap] at he
        obtain ⟨row, hrow, heq⟩ := List.mem_map.mp he
        cases heq
        rw [KeyedTable.rows_insertAll (JobStore.outbox_reapStaleJob hreap).2.2.2]
        exact List.mem_append_right _ hrow
  | publisher i input =>
      -- publishers insert nothing
      exfalso
      simp only [emits] at he
      split at he
      · simp at he
      · obtain ⟨e', _, hpublished⟩ := List.mem_filterMap.mp he
        split at hpublished
        · obtain ⟨time, _, heq⟩ := Option.map_eq_some_iff.mp hpublished
          cases heq
        · cases hpublished
      · cases he
  | _ => cases he

/-- A publisher comes to mark a row by the acknowledgement of its message. -/
private theorem acked_step (hs : s.OutboxSound log) (h : s.step a = some s') {event : JobOutbox}
    {rest : List JobOutbox} (hmem : .marking event rest ∈ s'.publishers) :
    .acked event.id ⟨event.jobId⟩ ∈ s.emits a ++ log := by
  rcases marking_origin h hmem with hold | ⟨i, rfl, hp, _⟩
  · exact List.mem_append_right _ (hs.marking _ hold event rest rfl)
  · simp [emits, hp, Publisher.step, Publisher.send, SendReply.accepted]

end Steps

theorem outboxSound_empty (now : Time) : (empty now).OutboxSound [] := by
  refine ⟨provenance_empty now, ⟨by simp, ?_⟩, by simp [empty]⟩
  simp [empty, KeyedTable.empty]

/-- **Every step keeps the outbox in line with its log.** -/
theorem outboxSound_step (s : World) (log : List OutboxEvent) (a : Action) (s' : World)
    (hs : s.OutboxSound log) (h : s.step a = some s') : s'.OutboxSound (s.emits a ++ log) where
  provenance := provenance_step s a s' hs.provenance h
  kept := {
    present := by
      intro e he
      rcases List.mem_append.mp he with hnew | hold
      · exact ⟨e, inserted_mem h hnew, .refl e⟩
      · obtain ⟨e', he', hfollows⟩ := hs.kept.present e hold
        obtain ⟨e'', he'', hfollows'⟩ := follows_step h he'
        exact ⟨e'', he'', hfollows.trans hfollows'⟩
    published := fun _ he _ ht => publishedAt_step hs h he ht }
  marking := by
    rintro p hp event rest rfl
    exact acked_step hs h hp

/-- A step leaves a later state of every outbox row. -/
def OutboxFollows (s : World) (_ : Action) (s' : World) : Prop :=
  ∀ e ∈ s.db.outbox.rows, ∃ e' ∈ s'.db.outbox.rows, e.Follows e'

/-- **The outbox loses no event.**  In every state of every run, every row ever
inserted is still there, and a row with `published_at` set had the message
carrying its job acknowledged before.  No step changes a row but by setting a
`published_at` that was `NULL`. -/
theorem outbox_loses_nothing (now : Time) (as : List Action) :
    Runs.HoldsAlong (Runs.logged step emits) (fun p => p.1.OutboxKept p.2) (empty now, []) as ∧
      Runs.StepsMeet step OutboxFollows (empty now) as := by
  constructor
  · have hinv := Runs.logged_holdsAlong outboxSound_step (outboxSound_empty now) as
    exact hinv.mono (fun p hp => hp.kept)
  · exact Runs.stepsMeet_of_invariant step_sound
      (fun _ _ _ _ h _ he => follows_step h he) (empty_sound now) as

end World

end EditorBack
