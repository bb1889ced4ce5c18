import EditorBack.Alternation
import EditorBack.LeaseFencing

/-!
# One requeue per lease

Every worker runs its own reaper on the same table, so a stale job is seen by
several of them.  A reset clears the token and the heartbeat together: without
the heartbeat the row is not stale, without the token nobody can renew it, and
the writes that make the row running again restore neither.  So a job is not
reset again before it is started again.

The heartbeat of a row carries the argument: a row that has one has been
granted since its last reset (`RowStep.requeued`).  What a reset puts into the
outbox is then accounted for by a grant (`one_requeue_per_lease`).
-/

namespace EditorBack

open Alternation (armed Alternates)

/-- The event is a reset by a reaper. -/
def JobEvent.isReset : JobEvent → Bool
  | .reset => true
  | _ => false

/-- The event is a `try_start` that took the row. -/
def JobEvent.isStart : JobEvent → Bool
  | .started _ _ _ => true
  | _ => false

theorem JobEvent.not_isStart_of_isReset (e : JobEvent) (h : e.isReset = true) :
    e.isStart = false := by
  cases e <;> first | rfl | cases h

/-- The row has been started since its last reset. -/
abbrev StartedSinceReset (es : List JobEvent) : Prop :=
  armed JobEvent.isStart JobEvent.isReset es = true

/-- Events that keep the lease do not reset the row. -/
theorem startedSinceReset_of_heldSince {token : Uuid} {workerId : String} {es : List JobEvent}
    (h : HeldSince token workerId es) : StartedSinceReset es := by
  obtain ⟨newer, time, older, rfl, hnewer⟩ := h
  induction newer with
  | nil => rfl
  | cons e newer ih =>
      have hrest := ih (fun e' he' => hnewer e' (List.mem_cons_of_mem _ he'))
      have hkeeps := hnewer e List.mem_cons_self
      cases e with
      | started t w time => rfl
      | reset => cases hkeeps
      | finished t args => cases hkeeps
      | _ => exact hrest

/-- A row against its history: resets and starts alternate, and a heartbeat is
that of a start since the last reset. -/
structure RowRequeued (tokens : List Uuid) (r? : Option JobRow) (es : List JobEvent) : Prop where
  fenced : RowFenced tokens r? es
  alternates : Alternates JobEvent.isStart JobEvent.isReset es
  beating : ∀ r, r? = some r → r.heartbeatAt ≠ none → StartedSinceReset es

section Step

variable {now : Time} {before after : List Uuid} {r? r?' : Option JobRow}
  {events es : List JobEvent}

/-- An event that is neither a start nor a reset, and gives the row no heartbeat
it did not have. -/
private theorem RowRequeued.keep {tokens : List Uuid} {e : JobEvent}
    (h : RowRequeued before r? es) (hfenced : RowFenced tokens r?' (e :: es))
    (hreset : e.isReset = false)
    (hbeat : ∀ r', r?' = some r' → r'.heartbeatAt ≠ none →
      ∃ r, r? = some r ∧ r.heartbeatAt ≠ none) : RowRequeued tokens r?' (e :: es) := by
  refine ⟨hfenced, .cons h.alternates (by simp [hreset]), ?_⟩
  intro r' hr' hne
  obtain ⟨r, hr, hold⟩ := hbeat r' hr' hne
  have harmed := h.beating r hr hold
  simp [StartedSinceReset, armed, hreset, harmed]

/-- **Every statement keeps starts and resets alternating.** -/
theorem RowStep.requeued (h : RowStep now before after r? r?' events)
    (hsub : ∀ t ∈ before, t ∈ after) (hr : RowRequeued before r? es) :
    RowRequeued after r?' (events ++ es) := by
  have hfenced := h.fenced hsub hr.fenced
  cases h with
  | idle => exact ⟨hfenced, hr.alternates, hr.beating⟩
  | insert job _ =>
      refine hr.keep hfenced rfl ?_
      intro r' hr' hne
      cases hr'
      exact absurd rfl hne
  | queue r =>
      refine hr.keep hfenced rfl ?_
      intro r' hr' hne
      cases hr'
      exact ⟨r, rfl, hne⟩
  | mark r =>
      refine hr.keep hfenced rfl ?_
      intro r' hr' hne
      cases hr'
      exact ⟨r, rfl, hne⟩
  | start r token workerId _ _ _ => exact ⟨hfenced, .cons hr.alternates nofun, fun _ _ _ => rfl⟩
  | renew r token hheld =>
      -- only the token in force renews, and it was granted since the last reset
      obtain ⟨workerId, hforce⟩ := hr.fenced.inForce_of_heldBy hheld
      have harmed := startedSinceReset_of_heldSince (heldSince_of_inForce hforce)
      exact ⟨hfenced, .cons hr.alternates nofun, fun _ _ _ => harmed⟩
  | finish r token args _ _ =>
      refine hr.keep hfenced rfl ?_
      intro r' hr' hne
      cases hr'
      exact ⟨r, rfl, hne⟩
  | reset r hstale =>
      obtain ⟨beat, hbeat, _⟩ := JobRow.beatBefore_iff.mp (JobRow.stale_iff.mp hstale).2
      have harmed := hr.beating r rfl (by rw [hbeat]; exact nofun)
      refine ⟨hfenced, .cons hr.alternates (fun _ => harmed), ?_⟩
      intro r' hr' hne
      cases hr'
      exact absurd rfl hne
  | refuse r? token _ _ => exact hr.keep hfenced rfl (fun r' hr' hne => ⟨r', hr', hne⟩)

end Step

/-! ## The outbox -/

/-- A publisher requeues nothing. -/
theorem Publisher.Move.requeues {db : Db} {input : PublisherInput} {p : Publisher}
    {eff : PublisherEffect} (hm : Publisher.Move db input p eff) (j : Uuid) :
    eff.db.requeues j = db.requeues j := by
  cases hm with
  | marked => exact JobStore.requeues_markOutboxPublished _ j db
  | markLost => exact JobStore.requeues_markOutboxPublished _ j db
  | _ => rfl

namespace World

/-- The step is a `reap_stale_job` that changes the row of `j`. -/
def resets (s : World) (a : Action) (j : Uuid) : Bool :=
  match a with
  | .reap gen reply =>
      reply.executed && (JobStore.reapStaleJob (seconds 30) gen s.db).any fun res =>
        decide (res.1.row j ≠ s.row j)
  | _ => false

/-- A reset inserts one outbox row for its job and returns the job once; nothing
else inserts outbox rows, and no job is returned that is not reset. -/
def RequeuesResets (s : World) (a : Action) (s' : World) : Prop :=
  ∀ j, s'.db.requeues j = s.db.requeues j + (s.resets a j).toNat ∧
    ∀ gen reply db reaped, a = .reap gen reply → reply.executed = true →
      JobStore.reapStaleJob (seconds 30) gen s.db = some (db, reaped) →
      reaped.count j = (s.resets a j).toNat

/-- Between any two resets of a job there is a start of it, and the job has no
more outbox rows than starts. -/
structure OneRequeuePerLease (s : World) (j : Uuid) : Prop where
  separated : ∀ newer mid older, s.history j = newer ++ .reset :: (mid ++ .reset :: older) →
    ∃ e ∈ mid, e.isStart = true
  bounded : s.db.requeues j ≤ (s.history j).countP JobEvent.isStart

section Steps

variable {s s' : World} {a : Action}

theorem resets_of_not_reap (hreap : ¬ ∃ gen reply, a = .reap gen reply) {j : Uuid} :
    s.resets a j = false := by
  cases a with
  | reap gen reply => exact absurd ⟨gen, reply, rfl⟩ hreap
  | _ => rfl

/-- A reap changes the rows that are stale. -/
theorem resets_reap {gen reaped : List Uuid} {reply : Reply} {db : Db}
    (hexec : reply.executed = true)
    (hreap : JobStore.reapStaleJob (seconds 30) gen s.db = some (db, reaped)) (j : Uuid) :
    s.resets (.reap gen reply) j = (s.row j).any (·.stale (seconds 30) s.db.now) := by
  simp only [resets, hexec, hreap, Bool.true_and, Option.any_some]
  rw [Bool.eq_iff_iff, decide_eq_true_iff]
  exact JobStore.row_ne_iff_stale hreap

/-- The jobs a reap returns are those it resets, once each. -/
theorem count_reaped {gen reaped : List Uuid} {reply : Reply} {db : Db}
    (hexec : reply.executed = true)
    (hreap : JobStore.reapStaleJob (seconds 30) gen s.db = some (db, reaped)) (j : Uuid) :
    reaped.count j = (s.resets (.reap gen reply) j).toNat := by
  rw [JobStore.count_reaped hreap, resets_reap hexec hreap]
  cases h : (s.db.row j).any (·.stale (seconds 30) s.db.now) <;> simp [row, h]

/-- **Outbox rows are inserted by resets.** -/
theorem requeues_step (h : s.step a = some s') (j : Uuid) :
    s'.db.requeues j = s.db.requeues j + (s.resets a j).toNat := by
  by_cases hreap : ∃ gen reply, a = .reap gen reply
  · obtain ⟨gen, reply, rfl⟩ := hreap
    rcases step_reap h with ⟨hexec, rfl⟩ | ⟨hexec, reaped, hrun, _⟩
    · simp [resets, hexec]
    · rw [JobStore.requeues_reapStaleJob hrun, count_reaped hexec hrun]
  · rw [resets_of_not_reap hreap]
    cases step_move h with
    | submission _ hm => simp only [Db.requeues, hm.frame.2, Bool.toNat_false, Nat.add_zero]
    | handler _ _ hw _ => simp only [Db.requeues, hw.frame.2, Bool.toNat_false, Nat.add_zero]
    | publisher _ hm => exact hm.requeues j
    | reaped _ => exact absurd ⟨_, _, rfl⟩ hreap
    | _ => rfl

/-- The history gains a reset exactly if the step resets the row. -/
theorem countP_reset_step (h : s.step a = some s') (j : Uuid) :
    (s'.history j).countP JobEvent.isReset =
      (s.history j).countP JobEvent.isReset + (s.resets a j).toNat := by
  have hother : ∀ {event : Option (Uuid × JobEvent)}, event ≠ some (j, .reset) →
      (eventsAt event j ++ s.history j).countP JobEvent.isReset =
        (s.history j).countP JobEvent.isReset := by
    intro event hne
    rw [List.countP_append, Nat.add_eq_right, List.countP_eq_zero]
    intro e he hreset
    cases e with
    | reset => exact hne (mem_eventsAt.mp he)
    | _ => cases hreset
  by_cases hreap : ∃ gen reply, a = .reap gen reply
  · obtain ⟨gen, reply, rfl⟩ := hreap
    rcases step_reap h with ⟨hexec, rfl⟩ | ⟨hexec, reaped, hrun, hhist⟩
    · simp [resets, hexec]
    · rw [hhist j, List.countP_append, Nat.add_comm, resets_reap hexec hrun]
      cases (s.row j).any (·.stale (seconds 30) s.db.now) <;> rfl
  · rw [resets_of_not_reap hreap]
    cases step_move h with
    | submission _ hm =>
        apply hother
        cases hm <;> simp
    | handler _ _ hw _ => exact hother hw.ne_reset
    | reaped _ => exact absurd ⟨_, _, rfl⟩ hreap
    | _ => rfl

end Steps

/-- Starts and resets alternate on every row, and the outbox holds a row for
every reset. -/
structure Requeued (s : World) : Prop where
  rows : s.RowsSatisfy RowRequeued
  outbox : ∀ j, s.db.requeues j = (s.history j).countP JobEvent.isReset

theorem requeued_empty (now : Time) : (empty now).Requeued := by
  refine ⟨RowsSatisfy.empty ⟨?_, .nil, by simp⟩ now, fun _ => rfl⟩
  exact (fenced_empty now).rows 0

theorem requeued_step (s : World) (a : Action) (s' : World) (hs : s.Requeued)
    (h : s.step a = some s') : s'.Requeued := by
  refine ⟨RowsSatisfy.step (fun _ _ _ _ _ _ _ hsub hr hrow => hrow.requeued hsub hr) s a s'
    hs.rows h, ?_⟩
  intro j
  rw [requeues_step h, countP_reset_step h, hs.outbox j]

theorem Requeued.oneRequeuePerLease {s : World} (hs : s.Requeued) (j : Uuid) :
    s.OneRequeuePerLease j := by
  have halternates := (hs.rows.rows j).alternates
  constructor
  · intro newer mid older hsplit
    rw [hsplit] at halternates
    exact halternates.separated JobEvent.not_isStart_of_isReset rfl rfl
  · rw [hs.outbox j]
    exact halternates.count_le JobEvent.not_isStart_of_isReset

/-- **One requeue per lease.**  In every state of every run, between any two
resets of a job there is a `try_start` that took it, and the job has at most as
many outbox rows as there were such starts.  Every reset inserts one outbox row
for its job and returns it once; no other step inserts any. -/
theorem one_requeue_per_lease (now : Time) (as : List Action) :
    Runs.HoldsAlong step (fun s => ∀ j, s.OneRequeuePerLease j) (empty now) as ∧
      Runs.StepsMeet step RequeuesResets (empty now) as := by
  have hinv := Runs.holdsAlong_of_invariant requeued_step (requeued_empty now) as
  refine ⟨hinv.mono (fun s hs j => hs.oneRequeuePerLease j), ?_⟩
  refine Runs.stepsMeet_of_invariant requeued_step ?_ (requeued_empty now) as
  intro s a s' _ h j
  refine ⟨requeues_step h j, ?_⟩
  intro gen reply db reaped ha hexec hreap
  subst ha
  exact count_reaped hexec hreap j

end World

end EditorBack
