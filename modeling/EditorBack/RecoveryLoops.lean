import EditorBack.FailFast
import EditorBack.System

/-!
# The recovery loops of a worker

`Reaper::run` and `OutboxPublisher::run` are endless loops with one tick after
the other.  Both hand a database error up by `?`: a reaper ends with its first
failed `reap_stale_job`, and a publisher with the first tick in which the
`SELECT` fails or an acknowledged event cannot be marked, and with it ends the
rest of that batch.  A failed send alone is logged and passed over.

A tick is what its calls meet: the database at that moment and the answers they
get.  The loops are instances of `FailFast`, so a tick is attended exactly if
all the ticks before it were free of such errors (`recovery_survives_iff`).
`publishOnce_machine` ties the loop over a batch to the publisher of the
system, whose steps the other processes interleave with.
-/

namespace EditorBack

/-! ## The reaper -/

/-- What one tick of a reaper meets. -/
structure ReapTick where
  db : Db
  gen : List Uuid
  reply : Reply

/-- `reap_stale_job(Duration::from_secs(30))`: the database it leaves behind and
its answer.  The primary key of `job_outbox` may refuse the statement. -/
def ReapTick.reap (t : ReapTick) : Db × Except String (List Uuid) :=
  match JobStore.reapStaleJob (seconds 30) t.gen t.db with
  | some res => t.reply.call t.db (res.1, .ok res.2)
  | none => (t.db, .error "duplicate key value violates unique constraint")

/-- The call of the tick succeeds. -/
def ReapTick.succeeds (t : ReapTick) : Bool :=
  t.reap.2.isOk

/-- A row is stale at the tick. -/
def ReapTick.HasStale (t : ReapTick) : Prop :=
  ∃ j r, t.db.row j = some r ∧ r.stale (seconds 30) t.db.now = true

namespace Reaper

/-- `Reaper::run`: the database after each tick. -/
def run (ts : List ReapTick) : List Db :=
  FailFast.outcomes (fun t => t.reap.2) (fun t => t.reap.1) (fun t => t.db) ts

/-- At every tick whose call succeeds, every stale row is reset. -/
def ResetsStale (ts : List ReapTick) : Prop :=
  ∀ (n : Nat) (t : ReapTick) (db : Db), ts[n]? = some t → (run ts)[n]? = some db →
    t.succeeds = true → ∀ j r, t.db.row j = some r → r.stale (seconds 30) t.db.now = true →
      db.row j = some r.reset

/-- A tick with a stale row comes after successful calls only. -/
def FailuresLate (ts : List ReapTick) : Prop :=
  ∀ (n : Nat) (t : ReapTick), ts[n]? = some t → t.succeeds = true → t.HasStale →
    ∀ t' ∈ ts.take n, t'.succeeds = true

end Reaper

/-! ## The publisher -/

/-- What one tick of a publisher meets: the database at its `SELECT`, and the
answers to it and to the send and the mark of each event. -/
structure PublishTick where
  db : Db
  select : Reply
  send : Uuid → SendReply
  mark : Uuid → Reply

namespace PublishTick

/-- The batch of the tick. -/
def batch (t : PublishTick) : List JobOutbox :=
  JobStore.getUnpublishedOutbox 100 t.db

/-- What a batch leaves of one event: a failed send is logged, a failed mark is
handed up. -/
def publish (t : PublishTick) (event : JobOutbox) : Except String Unit :=
  match t.send event.id with
  | .acked => ((t.mark event.id).call () ((), .ok ())).2
  | .refused _ | .unacked _ => .ok ()

/-- `publish_once`: the events it attempts to send, and its result. -/
def publishOnce (t : PublishTick) : List JobOutbox × Except String Unit :=
  match (t.select.call t.db (t.db, .ok t.batch)).2 with
  | .ok events => (FailFast.attempted t.publish events, FailFast.result t.publish events)
  | .error err => ([], .error err)

/-- The `SELECT` succeeds, and the mark of every acknowledged event. -/
def Clean (t : PublishTick) : Prop :=
  t.select = .ok ∧ ∀ e ∈ t.batch, t.send e.id = .acked → t.mark e.id = .ok

end PublishTick

namespace Publisher

/-- `OutboxPublisher::run`: the events attempted at each tick. -/
def run (ts : List PublishTick) : List (List JobOutbox) :=
  FailFast.outcomes (fun t => t.publishOnce.2) (fun t => t.publishOnce.1) (fun _ => []) ts

/-- At every tick whose `SELECT` succeeds, every event of the batch is
attempted. -/
def AttemptsBatch (ts : List PublishTick) : Prop :=
  ∀ (n : Nat) (t : PublishTick) (sent : List JobOutbox), ts[n]? = some t →
    (run ts)[n]? = some sent → t.select = .ok → ∀ e ∈ t.batch, e ∈ sent

/-- A tick with a batch comes after clean ticks only, and only the last event of
a batch is acknowledged and not marked. -/
def FailuresLate (ts : List PublishTick) : Prop :=
  ∀ (n : Nat) (t : PublishTick), ts[n]? = some t → t.select = .ok → t.batch ≠ [] →
    (∀ t' ∈ ts.take n, t'.Clean) ∧
      ∀ e ∈ t.batch.dropLast, t.send e.id = .acked → t.mark e.id = .ok

end Publisher

/-- **Recovery survives errors.** -/
def RecoverySurvives (reaps : List ReapTick) (ticks : List PublishTick) : Prop :=
  Reaper.ResetsStale reaps ∧ Publisher.AttemptsBatch ticks

/-! ## What a tick does -/

/-- A successful tick resets the stale rows. -/
theorem ReapTick.row_reap {t : ReapTick} (hok : t.succeeds = true) {j : Uuid} {r : JobRow}
    (hr : t.db.row j = some r) (hstale : r.stale (seconds 30) t.db.now = true) :
    t.reap.1.row j = some r.reset := by
  unfold succeeds at hok
  unfold reap at hok ⊢
  split
  · next res hreap =>
      obtain ⟨db', reaped⟩ := res
      rw [hreap] at hok
      cases hreply : t.reply with
      | ok =>
          have hrow := JobStore.row_reapStaleJob hreap j
          simp only [Reply.call, hrow, hr, Option.map_some, hstale, if_true]
      | failed err =>
          rw [hreply] at hok
          cases hok
      | lost err =>
          rw [hreply] at hok
          cases hok
  · next hreap =>
      rw [hreap] at hok
      cases hok

/-- A stale row is not as a reset would leave it. -/
theorem JobRow.reset_ne {r : JobRow} {timeout now : Time} (h : r.stale timeout now = true) :
    r.reset ≠ r := by
  intro hsame
  have hrunning := (JobRow.stale_iff.mp h).1
  rw [← hsame] at hrunning
  cases hrunning

/-- A reap of the system is a tick. -/
theorem World.db_stepReap {gen : List Uuid} {reply : Reply} {s s' : World}
    (h : s.stepReap gen reply = some s') : s'.db = (ReapTick.mk s.db gen reply).reap.1 := by
  unfold stepReap at h
  unfold ReapTick.reap
  cases reply with
  | failed err =>
      cases h
      dsimp only
      split <;> rfl
  | ok | lost err =>
      obtain ⟨res, hreap, rfl⟩ := Option.map_eq_some_iff.mp h
      dsimp only
      rw [hreap]
      rfl

namespace PublishTick

variable {t : PublishTick}

/-- No event comes twice in a batch. -/
theorem nodup_batch : t.batch.Nodup := by
  have hrows : t.db.outbox.rows.Nodup := List.Nodup.of_map _ t.db.outbox.nodup
  apply List.Nodup.sublist (List.take_sublist _ _)
  exact (List.perm_insertionSort _ _).nodup_iff.mpr (hrows.filter _)

theorem isOk_publish (e : JobOutbox) :
    (t.publish e).isOk = true ↔ (t.send e.id = .acked → t.mark e.id = .ok) := by
  unfold publish
  cases t.send e.id with
  | acked => cases t.mark e.id <;> simp [Reply.call, Except.isOk, Except.toBool]
  | refused err => simp [Except.isOk, Except.toBool]
  | unacked err => simp [Except.isOk, Except.toBool]

/-- A tick whose `SELECT` succeeds is the loop over its batch. -/
theorem publishOnce_of_selected (h : t.select = .ok) :
    t.publishOnce =
      (FailFast.attempted t.publish t.batch, FailFast.result t.publish t.batch) := by
  simp [publishOnce, h, Reply.call]

/-- A clean tick is one that ends without an error. -/
theorem isOk_publishOnce : t.publishOnce.2.isOk = true ↔ t.Clean := by
  by_cases h : t.select = .ok
  · rw [publishOnce_of_selected h, FailFast.isOk_result, FailFast.allOk_iff]
    simp only [Clean, h, true_and, isOk_publish]
  · have hfail : t.publishOnce.2.isOk = false := by
      unfold publishOnce
      cases hselect : t.select with
      | ok => exact absurd hselect h
      | failed err => rfl
      | lost err => rfl
    simp [Clean, h, hfail]

/-- The whole batch is attempted if only its last event can fail to be
marked. -/
theorem attempted_batch_iff :
    (∀ e ∈ t.batch, e ∈ FailFast.attempted t.publish t.batch) ↔
      ∀ e ∈ t.batch.dropLast, t.send e.id = .acked → t.mark e.id = .ok := by
  have hprefix := FailFast.attempted_prefix (f := t.publish) t.batch
  simp only [← isOk_publish]
  rw [← FailFast.attempted_eq_iff]
  constructor
  · intro hall
    apply hprefix.eq_of_length_le
    exact (List.subperm_of_subset nodup_batch hall).length_le
  · intro heq e he
    rw [heq]
    exact he

end PublishTick

/-! ## The publisher of the system -/

namespace Publisher

/-- A publisher at work while others change the database. -/
def advance (p : Publisher) (x : Db × PublisherInput) : Option Publisher :=
  (p.step x.2 x.1).map PublisherEffect.publisher

/-- The event a step attempts to send. -/
def attempt : Publisher → Db × PublisherInput → List JobOutbox
  | .sending event _, (_, .send _) => [event]
  | _, _ => []

/-- The answers of a tick, for as long as the loop over its batch asks. -/
def answers (t : PublishTick) : List JobOutbox → List PublisherInput
  | [] => []
  | event :: rest =>
      .send (t.send event.id) ::
        match t.send event.id with
        | .acked => .mark (t.mark event.id) :: if t.mark event.id = .ok then answers t rest else []
        | .refused _ | .unacked _ => answers t rest

/-- The send of the next event. -/
private theorem logged_send (event : JobOutbox) (rest log : List JobOutbox) (db : Db)
    (reply : SendReply) :
    Runs.logged advance attempt (proceed (event :: rest), log) (db, .send reply) =
      some (if reply = .acked then .marking event rest else proceed rest, event :: log) := by
  cases reply <;> rfl

/-- The mark of an acknowledged event. -/
private theorem logged_mark (event : JobOutbox) (rest log : List JobOutbox) (db : Db)
    (reply : Reply) :
    Runs.logged advance attempt (.marking event rest, log) (db, .mark reply) =
      some (if reply = .ok then proceed rest else .stopped, log) := by
  cases reply <;> rfl

/-- The loop over a batch is what the publisher does under these answers. -/
private theorem exec_answers (t : PublishTick) (events log : List JobOutbox)
    (steps : List (Db × PublisherInput)) (h : steps.map Prod.snd = answers t events) :
    Runs.exec (Runs.logged advance attempt) (proceed events, log) steps =
      some (if (FailFast.result t.publish events).isOk then .idle else .stopped,
        (FailFast.attempted t.publish events).reverse ++ log) := by
  induction events generalizing steps log with
  | nil =>
      rw [List.map_eq_nil_iff.mp h]
      rfl
  | cons e rest ih =>
      obtain ⟨⟨db, input⟩, steps, rfl, rfl, hrest⟩ := List.map_eq_cons_iff.mp h
      rw [Runs.exec, logged_send, Option.bind_some, FailFast.result, FailFast.attempted]
      cases hsend : t.send e.id with
      | acked =>
          rw [hsend] at hrest
          obtain ⟨⟨db', input'⟩, steps, rfl, rfl, hsteps⟩ := List.map_eq_cons_iff.mp hrest
          rw [if_pos rfl, Runs.exec, logged_mark, Option.bind_some]
          cases hmark : t.mark e.id with
          | ok =>
              have hpublish : t.publish e = .ok () := by
                simp [PublishTick.publish, hsend, hmark, Reply.call]
              rw [hmark, if_pos rfl] at hsteps
              rw [hpublish, if_pos rfl, ih (e :: log) steps hsteps]
              simp [Except.isOk, Except.toBool]
          | failed err | lost err =>
              have hpublish : t.publish e = .error err := by
                simp [PublishTick.publish, hsend, hmark, Reply.call]
              rw [hmark, if_neg (by simp)] at hsteps
              rw [hpublish, List.map_eq_nil_iff.mp hsteps]
              rfl
      | refused err | unacked err =>
          have hpublish : t.publish e = .ok () := by
            simp [PublishTick.publish, hsend]
          rw [hsend] at hrest
          rw [hpublish, if_neg (by simp), ih (e :: log) steps hrest]
          simp [Except.isOk, Except.toBool]

/-- **`publish_once` is a batch of the system's publisher**, whatever the others
do to the database between its calls. -/
theorem publishOnce_machine (t : PublishTick) (steps : List (Db × PublisherInput))
    (hinputs : steps.map Prod.snd = answers t t.batch) (hselect : t.select = .ok) :
    Runs.exec (Runs.logged advance attempt) (.idle, []) ((t.db, .select t.select) :: steps) =
      some (if t.publishOnce.2.isOk then .idle else .stopped, t.publishOnce.1.reverse) := by
  have hbatch := exec_answers t t.batch [] steps hinputs
  rw [List.append_nil] at hbatch
  rw [PublishTick.publishOnce_of_selected hselect, ← hbatch, hselect]
  rfl

end Publisher

/-! ## What the loops leave out -/

/-- **A reaper resets every stale row exactly if only its last ticks fail.** -/
theorem Reaper.resetsStale_iff (ts : List ReapTick) : ResetsStale ts ↔ FailuresLate ts := by
  constructor
  · intro hresets n t ht hok hstale
    obtain ⟨j, r, hr, hstale⟩ := hstale
    by_contra hfail
    have hdb : (run ts)[n]? = some t.db := by
      simp only [run, FailFast.getElem?_outcomes, ht, Option.map_some]
      rw [if_neg]
      rw [FailFast.allOk_iff]
      exact hfail
    have hreset := hresets n t t.db ht hdb hok j r hr hstale
    rw [hr, Option.some_inj] at hreset
    exact JobRow.reset_ne hstale hreset.symm
  · intro hlate n t db ht hdb hok j r hr hstale
    have hall := hlate n t ht hok ⟨j, r, hr, hstale⟩
    simp only [run, FailFast.getElem?_outcomes, ht, Option.map_some] at hdb
    rw [if_pos (FailFast.allOk_iff.mpr hall)] at hdb
    cases hdb
    exact ReapTick.row_reap hok hr hstale

/-- **A publisher attempts every batch exactly if only its last ticks fail**,
and in each batch only the last mark. -/
theorem Publisher.attemptsBatch_iff (ts : List PublishTick) :
    AttemptsBatch ts ↔ FailuresLate ts := by
  constructor
  · intro hattempts n t ht hselect hne
    have hall : ∀ t' ∈ ts.take n, t'.publishOnce.2.isOk = true := by
      by_contra hfail
      have hsent : (run ts)[n]? = some [] := by
        simp only [run, FailFast.getElem?_outcomes, ht, Option.map_some]
        rw [if_neg]
        rw [FailFast.allOk_iff]
        exact hfail
      obtain ⟨e, he⟩ := List.exists_mem_of_ne_nil _ hne
      cases hattempts n t [] ht hsent hselect e he
    refine ⟨fun t' ht' => PublishTick.isOk_publishOnce.mp (hall t' ht'), ?_⟩
    have hsent : (run ts)[n]? = some t.publishOnce.1 := by
      simp only [run, FailFast.getElem?_outcomes, ht, Option.map_some]
      rw [if_pos (FailFast.allOk_iff.mpr hall)]
    rw [PublishTick.publishOnce_of_selected hselect] at hsent
    exact PublishTick.attempted_batch_iff.mp (hattempts n t _ ht hsent hselect)
  · intro hlate n t sent ht hsent hselect e he
    obtain ⟨hclean, hmarks⟩ := hlate n t ht hselect (List.ne_nil_of_mem he)
    simp only [run, FailFast.getElem?_outcomes, ht, Option.map_some] at hsent
    rw [if_pos (FailFast.allOk_iff.mpr
      fun t' ht' => PublishTick.isOk_publishOnce.mpr (hclean t' ht'))] at hsent
    cases hsent
    rw [PublishTick.publishOnce_of_selected hselect]
    exact PublishTick.attempted_batch_iff.mpr hmarks e he

/-- **Recovery survives exactly the errors that come too late to matter.**
Every stale row is reset at every successful tick of a reaper and every event
attempted at every successful tick of a publisher, if and only if no tick of a
reaper that finds a stale row comes after a failed one, no tick of a publisher
that finds an event comes after one with a failed `SELECT` or a failed mark, and
no mark fails before the last event of a batch. -/
theorem recovery_survives_iff (reaps : List ReapTick) (ticks : List PublishTick) :
    RecoverySurvives reaps ticks ↔
      Reaper.FailuresLate reaps ∧ Publisher.FailuresLate ticks := by
  rw [RecoverySurvives, Reaper.resetsStale_iff, Publisher.attemptsBatch_iff]

/-- A worker has died in the middle of job `7`, a minute ago. -/
def abandonedDb : Db :=
  ((Runs.exec World.step (.empty 0)
    (Action.submit 0 7 ++ [.deliver 0 "worker-1" false] ++ Action.start 0 100 ++
      [.handler 0 (.mark .ok), .handler 0 .crash, .advance (seconds 60)])).map World.db).getD
    ⟨0, .empty, .empty⟩

/-- The connection is reset at one tick of a reaper and stands again at the
next. -/
def resetConnection : List ReapTick :=
  [⟨abandonedDb, [1], .failed "connection reset by peer"⟩, ⟨abandonedDb, [1], .ok⟩]

/-- The job is not reset any more. -/
theorem failed_reap_ends_recovery : ¬ RecoverySurvives resetConnection [] := by
  intro h
  have hstale : ∃ r, abandonedDb.row 7 = some r ∧
      r.stale (seconds 30) abandonedDb.now = true := by
    have hrow : (abandonedDb.row 7).map (·.stale (seconds 30) abandonedDb.now) = some true := by
      decide
    exact Option.map_eq_some_iff.mp hrow
  have hlate := (Reaper.resetsStale_iff _).mp h.1 1 ⟨abandonedDb, [1], .ok⟩ rfl (by decide)
    ⟨7, hstale⟩ ⟨abandonedDb, [1], .failed "connection reset by peer"⟩ (by simp [resetConnection])
  revert hlate
  decide

end EditorBack
