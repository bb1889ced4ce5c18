import EditorBack.JobStore

/-!
# The outbox publisher

`OutboxPublisher::run` publishes batch after batch: it selects up to a hundred
unpublished events, sends the message of each and marks the event once Kafka
has taken the message.  A failed send is logged and skipped; a failed database
call ends the loop for good.  Any number of publishers work on the same table.
-/

namespace EditorBack

/-- Where a publisher stands: between two batches, before the send or the mark
of an event with the rest of its batch ahead, or stopped. -/
inductive Publisher
  | idle
  | sending (event : JobOutbox) (rest : List JobOutbox)
  | marking (event : JobOutbox) (rest : List JobOutbox)
  | stopped

/-- What the environment decides in one step of a publisher. -/
inductive PublisherInput
  | select (reply : Reply)
  | send (reply : SendReply)
  | mark (reply : Reply)
  | crash

/-- What a step does; `accepted` is the event whose message it put on
`judge.jobs`. -/
structure PublisherEffect where
  db : Db
  publisher : Publisher
  accepted : Option JobOutbox

namespace Publisher

/-- The events of the current batch that are still ahead. -/
def pending : Publisher → List JobOutbox
  | .sending event rest | .marking event rest => event :: rest
  | .idle | .stopped => []

/-- Go on with the rest of a batch. -/
def proceed : List JobOutbox → Publisher
  | [] => .idle
  | event :: rest => .sending event rest

/-- `get_unpublished_outbox(100).await?` -/
def select (reply : Reply) (db : Db) : Publisher → Option PublisherEffect
  | .idle =>
      some ⟨db,
        match (reply.call db (db, .ok (JobStore.getUnpublishedOutbox 100 db))).2 with
        | .ok events => proceed events
        | .error _ => .stopped,
        none⟩
  | _ => none

/-- `self.producer.send_job(&message).await` -/
def send (reply : SendReply) (db : Db) : Publisher → Option PublisherEffect
  | .sending event rest =>
      some ⟨db,
        match reply with
        | .acked => .marking event rest
        | .refused _ | .unacked _ => proceed rest,
        if reply.accepted then some event else none⟩
  | _ => none

/-- `self.jobs.mark_outbox_published(event.id).await?` -/
def mark (reply : Reply) (db : Db) : Publisher → Option PublisherEffect
  | .marking event rest =>
      let res := reply.call db (JobStore.markOutboxPublished event.id db, .ok ())
      some ⟨res.1,
        match res.2 with
        | .ok () => proceed rest
        | .error _ => .stopped,
        none⟩
  | _ => none

/-- One step of a publisher. -/
def step (input : PublisherInput) (db : Db) (p : Publisher) : Option PublisherEffect :=
  match input with
  | .select reply => p.select reply db
  | .send reply => p.send reply db
  | .mark reply => p.mark reply db
  | .crash => some ⟨db, .stopped, none⟩

/-- The transitions of a publisher. -/
inductive Move (db : Db) : PublisherInput → Publisher → PublisherEffect → Prop
  | selected {reply : Reply} :
      Move db (.select reply) .idle ⟨db, proceed (JobStore.getUnpublishedOutbox 100 db), none⟩
  | acked {event : JobOutbox} {rest : List JobOutbox} :
      Move db (.send .acked) (.sending event rest) ⟨db, .marking event rest, some event⟩
  | unacked {event : JobOutbox} {rest : List JobOutbox} {err : String} :
      Move db (.send (.unacked err)) (.sending event rest) ⟨db, proceed rest, some event⟩
  | refused {event : JobOutbox} {rest : List JobOutbox} {err : String} :
      Move db (.send (.refused err)) (.sending event rest) ⟨db, proceed rest, none⟩
  | marked {event : JobOutbox} {rest : List JobOutbox} :
      Move db (.mark .ok) (.marking event rest)
        ⟨JobStore.markOutboxPublished event.id db, proceed rest, none⟩
  | markLost {event : JobOutbox} {rest : List JobOutbox} {err : String} :
      Move db (.mark (.lost err)) (.marking event rest)
        ⟨JobStore.markOutboxPublished event.id db, .stopped, none⟩
  | stopped {input : PublisherInput} {p : Publisher} : Move db input p ⟨db, .stopped, none⟩

/-- Every step of a publisher is one of its transitions. -/
theorem step_move {input : PublisherInput} {db : Db} {p : Publisher} {eff : PublisherEffect}
    (he : p.step input db = some eff) : Move db input p eff := by
  cases input with
  | select reply =>
      cases p <;> simp only [step, select] at he <;> cases he
      cases reply with
      | ok => exact .selected
      | failed err => exact .stopped
      | lost err => exact .stopped
  | send reply =>
      cases p <;> simp only [step, send] at he <;> cases he
      cases reply with
      | acked => exact .acked
      | refused err => exact .refused
      | unacked err => exact .unacked
  | mark reply =>
      cases p <;> simp only [step, mark] at he <;> cases he
      cases reply with
      | ok => exact .marked
      | failed err => exact .stopped
      | lost err => exact .markLost
  | crash =>
      cases he
      exact .stopped

/-- A publisher moves no clock and touches no job row. -/
theorem Move.frame {db : Db} {input : PublisherInput} {p : Publisher} {eff : PublisherEffect}
    (hm : Move db input p eff) : eff.db.now = db.now ∧ eff.db.jobs = db.jobs := by
  cases hm <;> exact ⟨rfl, rfl⟩

end Publisher

end EditorBack
