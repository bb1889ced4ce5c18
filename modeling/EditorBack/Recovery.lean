import EditorBack.CallProgress
import EditorBack.OutboxDrain
import EditorBack.StrandedJobs

/-!
# Every job can still be brought to a verdict

`acknowledged_jobs_attended` says that somebody is in charge of every job that was
sent.  Here it is shown that this is enough: whatever has failed so far, from every
state of every run there are steps with which nothing goes wrong, and after which the
job has its verdict.  They need no further request, no restart and little more than
30 seconds on the database clock.

The steps depend on who is in charge.  A call at work is let go on, which brings every
call nearer to its end (`Handler.rank_next`); a row that beats is waited for and
reaped; an outbox row is published; and a message on the topic is handed to a worker,
whose call then has the row to itself (`Handler.OnCourse`).
-/

namespace EditorBack

/-! ## Steps with which nothing goes wrong -/

/-- The step of a call is answered as it should be.  An execution ends as `calls` says,
no clock is behind, and a `finish` fails only on what its columns do not take. -/
def Handler.Healthy (calls : RunCalls) (h : Handler) : HandlerInput → Prop
  | .select reply | .queue reply | .tryStart reply _ | .mark reply | .beat reply => reply = .ok
  | .observe utcNow => ∀ job createdAt, h.phase = .observing job →
      job.createdAt = some createdAt → createdAt ≤ utcNow
  | .runRust calls' => calls' = calls
  | .finish reply => reply = h.storeReply
  | .collect | .join | .beatAnswer | .beatCancelled => True
  | .crash => False

/-- The step of a publisher is answered as it should be. -/
def PublisherInput.healthy : PublisherInput → Bool
  | .select .ok | .send .acked | .mark .ok => true
  | .select _ | .send _ | .mark _ | .crash => false

namespace World

/-- Nothing goes wrong in the step, no message is delivered twice and no request comes
in. -/
def Healthy (calls : RunCalls) (s : World) (a : Action) (_ : World) : Prop :=
  match a with
  | .advance _ | .spawnPublisher => True
  | .deliver _ _ again => again = false
  | .handler i input => ∀ hd, s.handlers[i]? = some hd → hd.Healthy calls input
  | .reap _ reply => reply = .ok
  | .publisher _ input => input.healthy = true
  | .post _ _ | .submission _ _ => False

/-- Job `j` has its verdict, by time `t`. -/
def DecidedBy (t : Time) (j : Uuid) (s : World) : Prop :=
  s.db.now ≤ t ∧ ∃ r, s.row j = some r ∧ r.status.isTerminal = true

end World

theorem Handler.healthy_next {calls : RunCalls} {token : Uuid} {h : Handler}
    (hjob : h.phase.jobId.isSome = true) : h.Healthy calls (h.next calls token) := by
  cases hp : h.phase with
  | observing job =>
      simp only [next, hp]
      intro job' createdAt hp' hcreated
      rw [hp] at hp'
      cases hp'
      rw [hcreated]
      exact Nat.le_refl _
  | finishing job args answer => simp [next, hp, Healthy, storeReply]
  | joining job result =>
      simp only [next, hp]
      split <;> trivial
  | returned _ | panicked | crashed =>
      rw [hp] at hjob
      cases hjob
  | _ => simp [next, hp, Healthy]

/-! ## What every state of a run has -/

/-- No statement writes a heartbeat ahead of the clock. -/
theorem RowStep.punctual {now : Time} {before after : List Uuid} {r? r?' : Option JobRow}
    {events : List JobEvent} (h : RowStep now before after r? r?' events)
    (hp : ∀ r beat, r? = some r → r.heartbeatAt = some beat → beat ≤ now) {r' : JobRow}
    {beat : Time} (hr' : r?' = some r') (hbeat : r'.heartbeatAt = some beat) : beat ≤ now := by
  cases h with
  | idle | refuse => exact hp r' beat hr' hbeat
  | insert job _ | reset r _ =>
      cases hr'
      cases hbeat
  | queue r | mark r | finish r _ _ _ _ =>
      cases hr'
      exact hp r beat rfl hbeat
  | start r _ _ _ _ _ | renew r _ _ =>
      cases hr'
      cases hbeat
      exact Nat.le_refl _

/-- What some calls have ahead of them, taken together. -/
def Handler.totalRank : List Handler → Nat
  | [] => 0
  | h :: hs => h.rank + totalRank hs

/-- One call that comes nearer to its end lowers the total. -/
theorem Handler.totalRank_set_lt {hs : List Handler} {i : Nat} {h h' : Handler}
    (hi : hs[i]? = some h) (hlt : h'.rank < h.rank) :
    totalRank (hs.set i h') < totalRank hs := by
  induction hs generalizing i with
  | nil => cases hi
  | cons h₀ hs ih =>
      cases i with
      | zero =>
          cases hi
          exact Nat.add_lt_add_right hlt _
      | succ i => exact Nat.add_lt_add_left (ih hi) _

/-- There are ids with which a reap goes through. -/
theorem JobStore.exists_reap (timeout : Time) (db : Db) :
    ∃ gen db' reaped, reapStaleJob timeout gen db = some (db', reaped) := by
  let reaped := (db.jobs.select (·.stale timeout db.now)).map JobRow.id
  obtain ⟨gen, hlen, hnodup, hfresh⟩ :=
    KeyedTable.exists_fresh (db.outbox.rows.map JobOutbox.id) reaped.length
  have hids : (List.zipWith (JobOutbox.new db.now) gen reaped).map JobOutbox.id = gen := by
    refine List.ext_getElem (by simp [hlen]) ?_
    intro n _ _
    rw [List.getElem_map, List.getElem_zipWith]
    rfl
  have hins : (db.outbox.insertAll (List.zipWith (JobOutbox.new db.now) gen reaped)).isSome := by
    refine KeyedTable.isSome_insertAll (by rw [hids]; exact hnodup) ?_
    intro e he
    refine hfresh e.id ?_
    rw [← hids]
    exact List.mem_map_of_mem he
  obtain ⟨outbox, hins⟩ := Option.isSome_iff_exists.mp hins
  refine ⟨gen, { db with
    jobs := db.jobs.update (·.stale timeout db.now) (·.reset) JobRow.id_reset
    outbox := outbox }, reaped, ?_⟩
  simp only [reapStaleJob]
  rw [if_pos hlen, hins, Option.map_some]

namespace World

/-- What the steps below rest on. -/
structure Settled (s : World) : Prop where
  watched : s.Watched
  ordinary : s.Ordinary
  leased : ∀ hd ∈ s.handlers, hd.Leased
  dated : ∀ hd ∈ s.handlers, hd.Dated
  punctual : ∀ j r beat, s.row j = some r → r.heartbeatAt = some beat → beat ≤ s.db.now

theorem settled_empty (now : Time) : (empty now).Settled := by
  refine ⟨watched_empty now, ordinary_empty now, ?_, ?_, ?_⟩ <;>
    simp [empty, row, Db.row, KeyedTable.empty, KeyedTable.lookup]

/-- What every call has from its start and keeps in every step. -/
theorem handlers_keep {P : Handler → Prop} {s s' : World} {a : Action} (h : s.step a = some s')
    (hreceive : ∀ workerId payload, P (.receive workerId payload))
    (hmove : ∀ hd input hd', hd.Move s.db input hd' → P hd → P hd')
    (hp : ∀ hd ∈ s.handlers, P hd) : ∀ hd ∈ s'.handlers, P hd := by
  refine (handlers_iff_of_step (C := fun _ _ => True) h hreceive ?_ hp).mpr (by simp)
  intro hd hmem input hd' _ hm
  exact iff_of_true (hmove hd input hd' hm (hp hd hmem)) trivial

theorem settled_step (s : World) (a : Action) (s' : World) (hs : s.Settled)
    (h : s.step a = some s') : s'.Settled where
  watched := watched_step s a s' hs.watched h
  ordinary := ordinary_step s a s' hs.ordinary h
  leased := handlers_keep h Handler.receive_leased (fun _ _ _ hm => hm.leased) hs.leased
  dated := handlers_keep h Handler.dated_receive (fun _ _ _ hm => hm.dated) hs.dated
  punctual := by
    intro j r beat hr hbeat
    obtain ⟨_, _, hrow⟩ := step_row h hs.ordinary.provenance.sound j
    exact Nat.le_trans (hrow.punctual (hs.punctual j) hr hbeat) (step_now h)

/-! ## A call is let go on -/

section Calls

variable {s : World} {j : Uuid} {t : Time} {calls : RunCalls} {args : FinishArgs}

/-- A step that a call can take with fresh tokens is a step of the system. -/
theorem step_handler {i : Nat} {hd : Handler} {input : HandlerInput} {eff : HandlerEffect}
    (hi : s.handlers[i]? = some hd) (hfresh : ∀ token ∈ input.tokens, token ∉ s.tokens)
    (he : hd.step input s.db = some eff) :
    ∃ s', s.step (.handler i input) = some s' ∧ s'.db = eff.db ∧
      s'.handlers = s.handlers.set i eff.handler := by
  have hunused : input.tokens.any (· ∈ s.tokens) = false := by simpa using hfresh
  simp only [step, stepHandler, hunused, Bool.false_eq_true, if_false, hi, Option.bind_some, he,
    Option.map_some]
  exact ⟨_, rfl, rfl, rfl⟩

/-- A call at work can take its next step in the system. -/
theorem Settled.step_next (hs : s.Settled) {i : Nat} {hd : Handler}
    (hi : s.handlers[i]? = some hd) (hjob : hd.phase.jobId.isSome = true)
    (hcalls : calls.cancelled = false) :
    ∃ token eff s', hd.step (hd.next calls token) s.db = some eff ∧
      s.step (.handler i (hd.next calls token)) = some s' ∧
      s.Healthy calls (.handler i (hd.next calls token)) s' ∧
      s'.db = eff.db ∧ s'.handlers = s.handlers.set i eff.handler := by
  obtain ⟨tokens, hlen, _, hfresh⟩ := KeyedTable.exists_fresh s.tokens 1
  obtain ⟨token, rfl⟩ := List.length_eq_one_iff.mp hlen
  obtain ⟨eff, heff⟩ := Option.isSome_iff_exists.mp
    (Handler.step_next token s.db (hs.leased hd (List.mem_of_getElem? hi)) hjob hcalls)
  have hunused : ∀ token' ∈ (hd.next calls token).tokens, token' ∉ s.tokens := by
    have htoken : token ∉ s.tokens := hfresh token (List.mem_singleton_self token)
    unfold Handler.next
    split
    case h_8 => split <;> simp [HandlerInput.tokens]
    all_goals simp [HandlerInput.tokens, htoken]
  obtain ⟨s', hstep, hdb, hhandlers⟩ := step_handler hi hunused heff
  refine ⟨token, eff, s', heff, hstep, ?_, hdb, hhandlers⟩
  intro hd' hi'
  rw [hi] at hi'
  cases hi'
  exact Handler.healthy_next hjob

/-- A step of a call moves no clock. -/
theorem now_of_handler {s s' : World} {i : Nat} {input : HandlerInput}
    (h : s.step (.handler i input) = some s') : s'.db.now = s.db.now := by
  cases step_move h with
  | handler _ _ hw _ => exact hw.frame.1

/-- Call `i` has the row of job `j` to itself. -/
structure Deciding (i : Nat) (j : Uuid) (args : FinishArgs) (t : Time) (s : World) : Prop where
  settled : s.Settled
  inTime : s.db.now ≤ t
  course : ∃ hd, s.handlers[i]? = some hd ∧ hd.OnCourse j args s.db

/-- What call `i` has ahead of it. -/
def rankAt (i : Nat) (s : World) : Nat :=
  ((s.handlers[i]?).map Handler.rank).getD 0

/-- **A call that has the row of its job to itself comes to its verdict.** -/
theorem Deciding.next {i : Nat} (hs : s.Deciding i j args t) (hcalls : calls.Storable j args) :
    Runs.CanReach step (Healthy calls) (DecidedBy t j) s ∨
      ∃ a s', s.step a = some s' ∧ Healthy calls s a s' ∧ s'.Deciding i j args t ∧
        s'.rankAt i < s.rankAt i := by
  have hterm : args.status.isTerminal = true := by
    obtain ⟨result, hrun, hargs⟩ := hcalls.answered
    exact Handler.storedArgs_isTerminal hrun hargs
  obtain ⟨hd, hi, hc⟩ := hs.course
  have hmem : hd ∈ s.handlers := List.mem_of_getElem? hi
  have hjob : hd.phase.jobId.isSome = true := by rw [hc.jobId]; rfl
  obtain ⟨token, eff, s', heff, hstep, hhealthy, hdb, hhandlers⟩ :=
    hs.settled.step_next hi hjob hcalls.uncancelled
  have hnow : s'.db.now ≤ t := by rw [now_of_handler hstep]; exact hs.inTime
  have hi' : s'.handlers[i]? = some eff.handler := by
    rw [hhandlers, List.getElem?_set_self (List.getElem?_eq_some_iff.mp hi).1]
  have hdated := hs.settled.dated hd hmem
  have hordinary := hs.settled.ordinary.handlers hd hmem
  rcases hc.next hcalls hdated hordinary heff with hcourse | ⟨r, hr, hresult⟩
  · rw [← hdb] at hcourse
    refine Or.inr ⟨_, s', hstep, hhealthy, ?_, ?_⟩
    · exact ⟨settled_step s _ s' hs.settled hstep, hnow, _, hi', hcourse⟩
    · simpa [rankAt, hi, hi'] using Handler.rank_next hjob heff
  · refine Or.inl (.next hstep hhealthy (.here ⟨hnow, r, ?_, ?_⟩))
    · rw [row, hdb]
      exact hr
    · rw [← hresult] at hterm
      exact hterm

/-- **A job with a message on the topic can be decided.** -/
theorem Settled.canReach_of_queued (hs : s.Settled) (hcalls : calls.Storable j args)
    (hmem : .message ⟨j⟩ ∈ s.queue) (ht : s.db.now ≤ t) :
    Runs.CanReach step (Healthy calls) (DecidedBy t j) s := by
  obtain ⟨k, hk⟩ := List.mem_iff_getElem?.mp hmem
  have hrow : (s.row j).isSome = true :=
    hs.ordinary.provenance.stored j (hs.ordinary.provenance.queued j hmem)
  have hstep : s.step (.deliver k "worker" false) = some
      { s with
        queue := s.queue.eraseIdx k
        handlers := s.handlers ++ [.receive "worker" (.message ⟨j⟩)] } := by
    simp [step, stepDeliver, hk]
  refine .next hstep rfl ?_
  refine Runs.canReach_of_rank (rankAt s.handlers.length)
    (fun _ (hs : Deciding s.handlers.length j args t _) => hs.next hcalls) ?_
  refine ⟨settled_step s _ _ hs hstep, ht, .receive "worker" (.message ⟨j⟩), by simp, ?_⟩
  exact ⟨rfl, hrow⟩

end Calls

end World

/-! ## A publisher is let go on -/

/-- A publisher that goes on with rows that are unpublished, and none of them twice.
Where it is to mark an event, the event is not about job `j`. -/
structure Publisher.Draining (j : Uuid) (db : Db) (p : Publisher) : Prop where
  going : p ≠ .stopped
  pending : ∀ e ∈ p.pending, e ∈ JobStore.unpublished db
  nodup : (p.pending.map JobOutbox.id).Nodup
  marking : ∀ event rest, p = .marking event rest → event.jobId ≠ j

theorem Publisher.Draining.idle {j : Uuid} {db : Db} : Publisher.idle.Draining j db :=
  ⟨nofun, nofun, List.nodup_nil, nofun⟩

/-- The rest of a batch is next. -/
theorem Publisher.Draining.proceed {j : Uuid} {db : Db} {events : List JobOutbox}
    (hpending : ∀ e ∈ events, e ∈ JobStore.unpublished db)
    (hnodup : (events.map JobOutbox.id).Nodup) : (Publisher.proceed events).Draining j db := by
  cases events with
  | nil => exact .idle
  | cons event rest => exact ⟨nofun, hpending, hnodup, nofun⟩

/-- The steps up to the next mark. -/
def Publisher.ahead : Publisher → Nat
  | .idle => 2
  | .sending _ _ => 1
  | .marking _ _ | .stopped => 0

theorem Publisher.ahead_proceed_le (events : List JobOutbox) :
    (Publisher.proceed events).ahead ≤ 2 := by
  cases events <;> simp [Publisher.proceed, Publisher.ahead]

namespace World

section Outbox

variable {s : World} {j : Uuid} {t : Time} {calls : RunCalls} {args : FinishArgs}

/-- A step of a publisher is a step of the system. -/
theorem step_publisher {i : Nat} {p : Publisher} (input : PublisherInput) {eff : PublisherEffect}
    (hi : s.publishers[i]? = some p) (he : p.step input s.db = some eff) :
    ∃ s', s.step (.publisher i input) = some s' ∧ s'.db = eff.db ∧
      s'.publishers[i]? = some eff.publisher ∧
      s'.queue = eff.accepted.toList.map (fun e => .message ⟨e.jobId⟩) ++ s.queue := by
  have hlt : i < s.publishers.length := (List.getElem?_eq_some_iff.mp hi).1
  simp only [step, stepPublisher, hi, Option.bind_some, he, Option.map_some]
  exact ⟨_, rfl, rfl, List.getElem?_set_self hlt, rfl⟩

/-- Publisher `i` is at work on the outbox, with a row for job `j` in it. -/
structure Publishing (i : Nat) (j : Uuid) (t : Time) (s : World) : Prop where
  settled : s.Settled
  inTime : s.db.now ≤ t
  draining : ∃ p, s.publishers[i]? = some p ∧ p.Draining j s.db
  waiting : ∃ e ∈ JobStore.unpublished s.db, e.jobId = j

/-- What a publisher has ahead of it: the unpublished rows, and the steps to the next
mark. -/
def ahead (i : Nat) (s : World) : Nat :=
  3 * (JobStore.unpublished s.db).length + ((s.publishers[i]?).map Publisher.ahead).getD 0

/-- **A publisher that goes on comes to the row of job `j`.** -/
theorem Publishing.next {i : Nat} (hs : s.Publishing i j t) (hcalls : calls.Storable j args) :
    Runs.CanReach step (Healthy calls) (DecidedBy t j) s ∨
      ∃ a s', s.step a = some s' ∧ Healthy calls s a s' ∧ s'.Publishing i j t ∧
        s'.ahead i < s.ahead i := by
  obtain ⟨p, hi, hp⟩ := hs.draining
  obtain ⟨e, he, hjob⟩ := hs.waiting
  cases p with
  | stopped => exact absurd rfl hp.going
  | idle =>
      obtain ⟨s', hstep, hdb, hi', _⟩ := step_publisher (.select .ok) hi rfl
      have hsame : s'.db = s.db := hdb
      refine Or.inr ⟨_, s', hstep, rfl, ?_, ?_⟩
      · refine ⟨settled_step s _ s' hs.settled hstep, by rw [hsame]; exact hs.inTime,
          ⟨_, hi', ?_⟩, e, by rw [hsame]; exact he, hjob⟩
        rw [hsame]
        exact .proceed (fun e he => JobStore.unpublished_of_mem_batch he) JobStore.nodup_batch
      · -- there is a row to publish, so the batch is not empty
        have hpos : 0 < (JobStore.getUnpublishedOutbox 100 s.db).length := by
          rw [JobStore.length_batch]
          have := List.length_pos_of_mem he
          omega
        obtain ⟨event, rest, hbatch⟩ := List.exists_cons_of_length_pos hpos
        have hi'' : s'.publishers[i]? = some (.sending event rest) := by
          rw [hi']
          simp [Reply.call, hbatch, Publisher.proceed]
        simp [ahead, hsame, hi, hi'', Publisher.ahead]
  | sending event rest =>
      obtain ⟨s', hstep, hdb, hi', hqueue⟩ := step_publisher (.send .acked) hi rfl
      have hsame : s'.db = s.db := hdb
      have hnow : s'.db.now ≤ t := by rw [hsame]; exact hs.inTime
      have hs' := settled_step s _ s' hs.settled hstep
      by_cases hthis : event.jobId = j
      · refine Or.inl (.next hstep rfl (hs'.canReach_of_queued hcalls ?_ hnow))
        rw [hqueue, ← hthis]
        exact List.mem_cons_self
      · refine Or.inr ⟨_, s', hstep, rfl, ?_, ?_⟩
        · refine ⟨hs', hnow, ⟨_, hi', ?_⟩, e, by rw [hsame]; exact he, hjob⟩
          rw [hsame]
          refine ⟨by simp, hp.pending, hp.nodup, ?_⟩
          intro event' rest' heq
          cases heq
          exact hthis
        · simp [ahead, hsame, hi, hi', Publisher.ahead]
  | marking event rest =>
      obtain ⟨s', hstep, hdb, hi', _⟩ := step_publisher (.mark .ok) hi rfl
      have hmarked : s'.db = JobStore.markOutboxPublished event.id s.db := hdb
      have hevent : event ∈ JobStore.unpublished s.db := hp.pending event List.mem_cons_self
      have hnodup := List.nodup_cons.mp hp.nodup
      have hkept : ∀ e' ∈ JobStore.unpublished s.db, e'.id ≠ event.id →
          e' ∈ JobStore.unpublished s'.db := by
        intro e' he' hne
        rw [hmarked, JobStore.unpublished_mark]
        exact List.mem_filter.mpr ⟨he', by simp [hne]⟩
      refine Or.inr ⟨_, s', hstep, rfl, ?_, ?_⟩
      · refine ⟨settled_step s _ s' hs.settled hstep, by rw [hmarked]; exact hs.inTime,
          ⟨_, hi', .proceed ?_ hnodup.2⟩, e, hkept e he ?_, hjob⟩
        · intro e' he'
          refine hkept e' (hp.pending e' (List.mem_cons_of_mem _ he')) ?_
          intro hid
          exact hnodup.1 (hid ▸ List.mem_map_of_mem he')
        · -- the row of job `j` is another one
          intro hid
          have hsame : e = event := KeyedTable.eq_of_key (JobStore.mem_unpublished.mp he).1
            (JobStore.mem_unpublished.mp hevent).1 hid
          exact hp.marking event rest rfl (hsame ▸ hjob)
      · have hless := JobStore.length_unpublished_mark hevent
        have hrest := Publisher.ahead_proceed_le rest
        have hi'' : s'.publishers[i]? = some (.proceed rest) := hi'
        have hzero : (Publisher.marking event rest).ahead = 0 := rfl
        simp only [ahead, hi, hi'', hmarked, Option.map_some, Option.getD_some, hzero]
        omega

/-- **A job with an unpublished outbox row can be decided.** -/
theorem Settled.canReach_of_unpublished (hs : s.Settled) (hcalls : calls.Storable j args)
    {e : JobOutbox} (he : e ∈ JobStore.unpublished s.db) (hjob : e.jobId = j)
    (ht : s.db.now ≤ t) : Runs.CanReach step (Healthy calls) (DecidedBy t j) s := by
  have hstep : s.step .spawnPublisher = some { s with publishers := s.publishers ++ [.idle] } := rfl
  refine .next hstep trivial ?_
  refine Runs.canReach_of_rank (ahead s.publishers.length)
    (fun _ (hs : Publishing s.publishers.length j t _) => hs.next hcalls) ?_
  exact ⟨settled_step s _ _ hs hstep, ht, ⟨.idle, by simp, .idle⟩,
    e, he, hjob⟩

end Outbox

/-! ## Everybody else who may be in charge -/

section Charge

variable {s : World} {j : Uuid} {t : Time} {calls : RunCalls} {args : FinishArgs}

/-- **A running job whose heartbeat is left alone can be decided**, half a minute
later. -/
theorem Settled.canReach_of_beating (hs : s.Settled) (hcalls : calls.Storable j args) {r : JobRow}
    (hr : s.row j = some r) (hrunning : r.status = .running) (hbeat : r.heartbeatAt ≠ none)
    (ht : s.db.now + (seconds 30 + 1) ≤ t) :
    Runs.CanReach step (Healthy calls) (DecidedBy t j) s := by
  obtain ⟨beat, hbeat⟩ := Option.ne_none_iff_exists'.mp hbeat
  have hstep : s.step (.advance (seconds 30 + 1)) =
      some { s with db := { s.db with now := s.db.now + (seconds 30 + 1) } } := rfl
  refine .next hstep trivial ?_
  -- by now the heartbeat is too old
  generalize hs₁ : { s with db := { s.db with now := s.db.now + (seconds 30 + 1) } } = s₁ at hstep ⊢
  have hnow : s₁.db.now = s.db.now + (seconds 30 + 1) := by rw [← hs₁]
  have hr₁ : s₁.db.row j = some r := by rw [← hs₁]; exact hr
  have hstale : r.stale (seconds 30) s₁.db.now = true := by
    have hpunctual : beat ≤ s.db.now := hs.punctual j r beat hr hbeat
    refine JobRow.stale_iff.mpr ⟨hrunning, JobRow.beatBefore_iff.mpr ⟨beat, hbeat, ?_⟩⟩
    rw [hnow]
    exact Nat.lt_succ_of_le (Nat.add_le_add_right hpunctual _)
  obtain ⟨gen, db, reaped, hreap⟩ := JobStore.exists_reap (seconds 30) s₁.db
  have hreset : ∃ s₂, s₁.step (.reap gen .ok) = some s₂ ∧ s₂.db = db := by
    simp only [step, stepReap, Reply.executed, if_true, hreap, Option.map_some]
    exact ⟨_, rfl, rfl⟩
  obtain ⟨s₂, hstep₂, rfl⟩ := hreset
  obtain ⟨e, he, hjob, hnone, _⟩ :=
    JobStore.outbox_of_reaped hreap ((JobStore.mem_reaped_iff hreap).mpr ⟨r, hr₁, hstale⟩)
  have hs₂ := settled_step s₁ _ s₂ (settled_step s _ s₁ hs hstep) hstep₂
  refine .next hstep₂ rfl ?_
  refine hs₂.canReach_of_unpublished hcalls (JobStore.mem_unpublished.mpr ⟨he, hnone⟩) hjob ?_
  rw [(JobStore.outbox_reapStaleJob hreap).1, hnow]
  exact ht

/-- Job `j` was sent, and there is time for a reap. -/
structure Pending (j : Uuid) (t : Time) (s : World) : Prop where
  settled : s.Settled
  sent : j ∈ s.sent
  inTime : s.db.now + (seconds 30 + 1) ≤ t

/-- **Whoever is in charge of a job can bring it on.** -/
theorem Pending.next (hs : s.Pending j t) (hcalls : calls.Storable j args) :
    Runs.CanReach step (Healthy calls) (DecidedBy t j) s ∨
      ∃ a s', s.step a = some s' ∧ Healthy calls s a s' ∧ s'.Pending j t ∧
        Handler.totalRank s'.handlers < Handler.totalRank s.handlers := by
  have hnow : s.db.now ≤ t := Nat.le_trans (Nat.le_add_right _ _) hs.inTime
  cases hs.settled.watched.covered j hs.sent with
  | verdict hr hterm => exact Or.inl (.here ⟨hnow, _, hr, hterm⟩)
  | queued hmem => exact Or.inl (hs.settled.canReach_of_queued hcalls hmem hnow)
  | outboxed hmem hjob hnone _ =>
      exact Or.inl (hs.settled.canReach_of_unpublished hcalls
        (JobStore.mem_unpublished.mpr ⟨hmem, hnone⟩) hjob hnow)
  | beating hr hrunning hbeat =>
      exact Or.inl (hs.settled.canReach_of_beating hcalls hr hrunning hbeat hs.inTime)
  | @handled hd hmem hjob =>
      obtain ⟨i, hi⟩ := List.mem_iff_getElem?.mp hmem
      have hwork : hd.phase.jobId.isSome = true := by rw [hjob]; rfl
      obtain ⟨token, eff, s', heff, hstep, hhealthy, hdb, hhandlers⟩ :=
        hs.settled.step_next hi hwork hcalls.uncancelled
      refine Or.inr ⟨_, s', hstep, hhealthy, ?_, ?_⟩
      · refine ⟨settled_step s _ s' hs.settled hstep, step_sent hstep hs.sent, ?_⟩
        rw [now_of_handler hstep]
        exact hs.inTime
      · rw [hhandlers]
        exact Handler.totalRank_set_lt hi (Handler.rank_next hwork heff)

end Charge

/-- **Every job can be brought to its verdict.**  From every state of every run, however
the calls, the databases and the executions have failed so far: each job whose message
Kafka has accepted, and so each job that was acknowledged, has its verdict after some
steps with which nothing goes wrong, given an execution of it whose result can be stored.
On the database clock they take no more than 30 seconds and a microsecond. -/
theorem sent_jobs_recoverable (now : Time) (as : List Action) :
    Runs.HoldsAlong step
      (fun s => ∀ j ∈ s.sent, ∀ calls args, calls.Storable j args →
        Runs.CanReach step (Healthy calls) (DecidedBy (s.db.now + (seconds 30 + 1)) j) s)
      (empty now) as := by
  have hinv := Runs.holdsAlong_of_invariant settled_step (settled_empty now) as
  refine hinv.mono ?_
  intro s hs j hj calls args hcalls
  have hpending : Pending j (s.db.now + (seconds 30 + 1)) s := ⟨hs, hj, Nat.le_refl _⟩
  have hnext : ∀ s', Pending j (s.db.now + (seconds 30 + 1)) s' → _ :=
    fun _ hs' => hs'.next hcalls
  exact Runs.canReach_of_rank (fun s => Handler.totalRank s.handlers) hnext hpending

end World

end EditorBack
