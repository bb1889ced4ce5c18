import EditorBack.Cadence
import EditorBack.HeartbeatTask
import EditorBack.StepStatements

/-!
# The cadence of heartbeats

The heartbeat loop of a call ticks at once and then every 10 seconds, a tick that
has become due during a slow heartbeat firing right after it.  `Paced` runs the
system next to the timer of one call: a heartbeat is sent by a tick, executed at
some moment, and answered when the loop takes up the answer, and time does not pass
beyond a tick that can fire.

`heartbeats_keep_lease_fresh` is about runs in which every heartbeat takes less than
15 seconds and is answered with `Ok(true)`, and no other call takes the row out of
`Running`: from the first heartbeat on, the row is never stale, nor startable, and
its execution counts as alive.  So the reaper and the other calls leave it alone,
which is why the next heartbeat finds it.
-/

namespace EditorBack

open Cadence (Clock Steady)

/-! ## The row under a lease -/

/-- The row is held by the token, with a heartbeat since `b`. -/
structure JobRow.LeasedSince (lockToken : Uuid) (b : Time) (r : JobRow) : Prop where
  held : r.heldBy lockToken = true
  beat : ∃ beat, r.heartbeatAt = some beat ∧ b ≤ beat

section Fresh

variable {lockToken : Uuid} {b now : Time} {r : JobRow}

theorem JobRow.LeasedSince.fresh (h : r.LeasedSince lockToken b) (hfresh : now < b + seconds 30) :
    ∃ beat, r.heartbeatAt = some beat ∧ now < beat + seconds 30 := by
  obtain ⟨beat, hbeat, hle⟩ := h.beat
  exact ⟨beat, hbeat, Nat.lt_of_lt_of_le hfresh (Nat.add_le_add_right hle _)⟩

theorem JobRow.LeasedSince.not_beatBefore (h : r.LeasedSince lockToken b)
    (hfresh : now < b + seconds 30) : r.beatBefore (seconds 30) now = false := by
  obtain ⟨beat, hbeat, hbound⟩ := h.fresh hfresh
  simp only [beatBefore, hbeat, decide_eq_false_iff_not]
  exact Nat.lt_asymm hbound

/-- A fresh lease is not reaped, ... -/
theorem JobRow.LeasedSince.not_stale (h : r.LeasedSince lockToken b)
    (hfresh : now < b + seconds 30) : r.stale (seconds 30) now = false := by
  rw [stale, h.not_beatBefore hfresh, Bool.and_false]

/-- ... not taken over, ... -/
theorem JobRow.LeasedSince.not_startable (h : r.LeasedSince lockToken b)
    (hfresh : now < b + seconds 30) : r.startable now = false := by
  obtain ⟨beat, hbeat, _⟩ := h.beat
  have hrunning := (heldBy_iff.mp h.held).1
  simp [startable, h.not_beatBefore hfresh, hbeat, hrunning]

/-- ... and its execution is alive. -/
theorem JobRow.LeasedSince.alive (h : r.LeasedSince lockToken b)
    (hfresh : now < b + seconds 30) : r.alive now = true := by
  obtain ⟨beat, hbeat, hbound⟩ := h.fresh hfresh
  have hrunning := (heldBy_iff.mp h.held).1
  have hwithin : now ≤ beat + seconds 30 := Nat.le_of_lt hbound
  simp [JobRow.alive, beatWithin, hbeat, hrunning, hwithin]

end Fresh

/-- The statement takes the row of job `j` out of `Running`, and is not a reap. -/
def Statement.unsettles (db : Db) (j : Uuid) : Statement → Bool
  | .updateStatus id status => id == j && status != .running
  | .finish id _ lockToken => id == j && (db.row j).any (·.heldBy lockToken)
  | .create _ | .tryStart _ _ _ | .heartbeat _ _ | .reapStaleJob _ _ => false

/-- **A fresh lease outlasts every statement** that does not take its row out of
`Running` outright. -/
theorem Statement.keeps_lease {db : Db} {j lockToken : Uuid} {b : Time} {r : JobRow}
    {st : Statement} (hr : db.row j = some r) (hlease : r.LeasedSince lockToken b)
    (hpast : b ≤ db.now) (hfresh : db.now < b + seconds 30)
    (hsettled : st.unsettles db j = false)
    (hreap : ∀ timeout gen, st = .reapStaleJob timeout gen → timeout = seconds 30) :
    ∃ r', (st.exec db).lookup j = some r' ∧ r'.LeasedSince lockToken b := by
  have hsame : ∀ {jobs : Jobs}, jobs.lookup j = some r →
      ∃ r', jobs.lookup j = some r' ∧ r'.LeasedSince lockToken b :=
    fun h => ⟨r, h, hlease⟩
  cases st with
  | create job =>
      rw [exec]
      cases hcreate : JobStore.create job db with
      | none => exact hsame hr
      | some db' =>
          have hne : job.id ≠ j := by
            intro heq
            have hnone := JobStore.row_none_of_create hcreate
            rw [heq, hr] at hnone
            cases hnone
          have hrow := JobStore.row_create hcreate j
          rw [if_neg hne, hr] at hrow
          exact hsame hrow
  | tryStart id workerId token =>
      have hrow := JobStore.row_tryStart id db j workerId token
      have hguard : r.startable db.now = false := hlease.not_startable hfresh
      rw [hr, Option.map_some, hguard, if_neg Bool.false_ne_true, ite_self] at hrow
      exact hsame hrow
  | updateStatus id status =>
      have hrow := JobStore.row_updateStatus id db j status
      rw [hr, Option.map_some] at hrow
      by_cases hj : j = id
      · rw [if_pos hj] at hrow
        have hrunning : status = .running := by
          simpa [unsettles, hj] using hsettled
        refine ⟨r.withStatus status, hrow, ?_, hlease.beat⟩
        rw [hrunning]
        exact JobRow.heldBy_iff.mpr ⟨rfl, (JobRow.heldBy_iff.mp hlease.held).2⟩
      · rw [if_neg hj] at hrow
        exact hsame hrow
  | finish id args token =>
      have hrow := JobStore.row_finish id db j args token
      rw [hr, Option.map_some] at hrow
      by_cases hj : j = id
      · have hguard : r.heldBy token = false := by
          subst hj
          simpa [unsettles, hr] using hsettled
        rw [hguard, if_neg Bool.false_ne_true, ite_self] at hrow
        exact hsame hrow
      · rw [if_neg hj] at hrow
        exact hsame hrow
  | heartbeat id token =>
      have hrow := JobStore.row_heartbeat id db j token
      rw [hr, Option.map_some] at hrow
      split at hrow
      · split at hrow
        · exact ⟨r.renew db.now, hrow, hlease.held, db.now, rfl, hpast⟩
        · exact hsame hrow
      · exact hsame hrow
  | reapStaleJob timeout gen =>
      rw [exec]
      cases hreaped : JobStore.reapStaleJob timeout gen db with
      | none => exact hsame hr
      | some res =>
          obtain ⟨db', reaped⟩ := res
          have hrow := JobStore.row_reapStaleJob hreaped j
          have hguard : r.stale timeout db.now = false := by
            rw [hreap timeout gen rfl]
            exact hlease.not_stale hfresh
          rw [hr, Option.map_some, hguard, if_neg Bool.false_ne_true] at hrow
          exact hsame hrow

/-! ## The lease of a call -/

/-- What a step does to the heartbeat loop. -/
inductive BeatStep : BeatLoop → HandlerInput → BeatLoop → Prop
  | idle {loop : BeatLoop} {input : HandlerInput} (hsend : ∀ reply, input ≠ .beat reply)
      (hanswer : input ≠ .beatAnswer) : BeatStep loop input loop
  | ended {loop : BeatLoop} {input : HandlerInput} : BeatStep loop input .ended
  | answered {reply : Reply} {answer : Except String Bool} :
      BeatStep .waiting (.beat reply) (.answered answer)
  | renewed : BeatStep (.answered (.ok true)) .beatAnswer .waiting

namespace Handler

section Leases

variable {db db' : Db} {input : HandlerInput} {h h' : Handler} {tokens : List Uuid} {l : Lease}

/-- A call keeps its lease. -/
theorem Move.lease (hm : Move db input h h') (hs : h.Sound tokens) (hl : h.lease = some l) :
    ∃ l', h'.lease = some l' ∧ l'.jobId = l.jobId ∧ l'.lockToken = l.lockToken ∧
      BeatStep l.loop input l'.loop := by
  cases hm with
  | granted hp hrow =>
      have hnone := hs.unleased (by rw [hp]; rfl)
      rw [hl] at hnone
      cases hnone
  | unsupported hp hl' | beatLost hl' _ | beatError hl' _ | beatStopped hl' _ _ =>
      rw [hl] at hl'
      cases hl'
      exact ⟨_, rfl, rfl, rfl, .ended⟩
  | beatFailed hp hl' herr | collected hp hl' =>
      rw [hl] at hl'
      cases hl'
      exact ⟨_, rfl, rfl, rfl, .idle nofun nofun⟩
  | beat hl' hloop =>
      rw [hl] at hl'
      cases hl'
      rw [hloop]
      exact ⟨_, rfl, rfl, rfl, .answered⟩
  | beatRenewed hl' hloop =>
      rw [hl] at hl'
      cases hl'
      rw [hloop]
      exact ⟨_, rfl, rfl, rfl, .renewed⟩
  | crashed h => exact ⟨{ l with loop := .ended }, by simp [hl], rfl, rfl, .ended⟩
  | _ => exact ⟨l, hl, rfl, rfl, .idle nofun nofun⟩

/-- A call under a lease whose loop goes on leaves the row in `Running`. -/
theorem Write.settled {event : Option (Uuid × JobEvent)} (hw : Write db h input db' event)
    (hs : h.Sound tokens) (hb : h.BeatSound) (hl : h.lease = some l) (hloop : l.loop ≠ .ended)
    (j : Uuid) : ∀ st, h.statement input = some st → st.unsettles db j = false := by
  intro st hst
  cases hw with
  | none hnone => simp [statement, hnone] at hst
  | queue hp hexec =>
      have hnone := hs.unleased (by rw [hp]; rfl)
      rw [hl] at hnone
      cases hnone
  | tryStart hp hexec =>
      have hnone := hs.unleased (by rw [hp]; rfl)
      rw [hl] at hnone
      cases hnone
  | mark hp hl' hexec =>
      simp [statement, HandlerInput.writes, hexec, hp, hl'] at hst
      subst hst
      simp [Statement.unsettles]
  | finish hp hl' hexec => exact absurd (hb.finishing l hl _ _ _ hp) hloop
  | beat hl' hexec =>
      simp [statement, HandlerInput.writes, hexec, hl'] at hst
      subst hst
      rfl

/-- A heartbeat that is answered with `Ok(true)` has renewed the row. -/
theorem beat_renewed {reply : Reply} {eff : HandlerEffect} {l' : Lease}
    (he : h.step (.beat reply) db = some eff) (hl : h.lease = some l)
    (hl' : eff.handler.lease = some l') (hanswer : l'.loop = .answered (.ok true)) :
    ∃ r, eff.db.row l.jobId = some r ∧ r.LeasedSince l.lockToken db.now := by
  simp only [step, beat, hl] at he
  split at he
  · cases he
    cases hl'
    injection hanswer with hcall
    cases reply with
    | ok =>
        have hheld : (db.row l.jobId).any (·.heldBy l.lockToken) = true := by
          rw [Reply.call, JobStore.answer_heartbeat] at hcall
          injection hcall
        obtain ⟨r, hr, hguard⟩ : ∃ r, db.row l.jobId = some r ∧ r.heldBy l.lockToken = true := by
          simpa [Option.any_eq_true] using hheld
        have hrow := JobStore.row_heartbeat l.jobId db l.jobId l.lockToken
        rw [if_pos rfl, hr, Option.map_some, if_pos hguard] at hrow
        exact ⟨r.renew db.now, hrow, hguard, db.now, rfl, Nat.le_refl _⟩
    | failed err => cases hcall
    | lost err => cases hcall
  · cases he

end Leases

end Handler

/-! ## The system with the timer of one call -/

/-- The time an action takes. -/
def Action.elapsed : Action → Time
  | .advance d => d
  | _ => 0

/-- The action is a step of call `i`. -/
def Action.isOf (i : Nat) : Action → Bool
  | .handler k _ => k == i
  | _ => false

/-- The loop has been answered with `Ok(true)`. -/
def BeatLoop.isRenewed : BeatLoop → Bool
  | .answered (.ok true) => true
  | _ => false

theorem BeatLoop.isEnded_eq_false {loop : BeatLoop} (h : loop ≠ .ended) : loop.isEnded = false := by
  cases loop with
  | ended => exact absurd rfl h
  | waiting | answered _ => rfl

theorem BeatLoop.eq_of_isRenewed {loop : BeatLoop} (h : loop.isRenewed = true) :
    loop = .answered (.ok true) := by
  unfold isRenewed at h
  split at h
  · rfl
  · cases h

/-- The loop waits for its next tick, or for an answer. -/
def BeatLoop.isWaiting : BeatLoop → Bool
  | .waiting => true
  | .answered _ | .ended => false

namespace World

/-- The heartbeat loop of call `i`. -/
def beatLoop (s : World) (i : Nat) : Option BeatLoop :=
  ((s.handlers[i]?).bind Handler.lease).map Lease.loop

/-- Only `advance` moves the clock. -/
theorem now_of_step {s s' : World} {a : Action} (h : s.step a = some s') :
    s'.db.now = s.db.now + a.elapsed := by
  cases step_move h with
  | advanced d => rfl
  | submission _ hm => exact hm.frame.1
  | handler _ _ hw _ => exact hw.frame.1
  | reaped hreap => exact (JobStore.outbox_reapStaleJob hreap).1
  | publisher _ hm => exact hm.frame.1
  | _ => rfl

/-- The reaper's time-out. -/
theorem timeout_of_statement {s : World} {a : Action} {timeout : Time} {gen : List Uuid}
    (h : s.statement a = some (.reapStaleJob timeout gen)) : timeout = seconds 30 := by
  cases a with
  | reap gen' reply =>
      simp only [statement] at h
      split at h
      · cases h
        rfl
      · cases h
  | submission i input =>
      obtain ⟨sub, _, hst⟩ := Option.bind_eq_some_iff.mp h
      unfold Submission.statement at hst
      split at hst
      · split at hst
        · split at hst <;> cases hst
        · cases hst
        · cases hst
        · cases hst
      · cases hst
      · cases hst
  | handler i input =>
      obtain ⟨hd, _, hst⟩ := Option.bind_eq_some_iff.mp h
      unfold Handler.statement at hst
      split at hst
      · split at hst <;> cases hst
      · cases hst
  | advance _ | post _ _ | deliver _ _ _ | spawnPublisher | publisher _ _ => cases h

end World

/-- The system and the timer of one call. -/
structure Paced where
  world : World
  clock : Clock

inductive PacedAction
  | system (a : Action)
  /-- `interval.tick()` -/
  | tick

namespace Paced

section Step

variable (i : Nat)

/-- The timer is created. -/
def start (world : World) : Paced :=
  ⟨world, .start world.db.now⟩

/-- What an action is to the timer of call `i`.  Once the loop has ended, nothing
waits for the timer. -/
def turn (s : Paced) : Action → Option Clock
  | .advance d =>
      if (s.world.beatLoop i).any (·.isEnded) then some { s.clock with now := s.clock.now + d }
      else s.clock.wait (seconds 10) d
  | .handler k input =>
      if k = i then
        match input with
        | .beat _ => s.clock.execute
        | .beatAnswer => s.clock.reply
        | .beatCancelled => if s.clock.sent.isNone then some s.clock else none
        | _ => some s.clock
      else some s.clock
  | _ => some s.clock

/-- A step of the system in the time of call `i`. -/
def step (s : Paced) : PacedAction → Option Paced
  | .system a => (s.turn i a).bind fun clock =>
      (s.world.step a).map fun world => ⟨world, clock⟩
  | .tick =>
      if (s.world.beatLoop i).any (·.isWaiting) then
        (s.clock.tick (seconds 10)).map fun clock => { s with clock := clock }
      else none

/-- A heartbeat of call `i` is answered with `Ok(true)`. -/
def renewed (s' : Paced) : PacedAction → Bool
  | .system (.handler k (.beat _)) => k != i || (s'.world.beatLoop i).any (·.isRenewed)
  | _ => true

/-- No other call takes the row of job `j` out of `Running`. -/
def undisturbed (j : Uuid) (s : Paced) : PacedAction → Bool
  | .system a => a.isOf i || (s.world.statement a).all fun st => !st.unsettles s.world.db j
  | .tick => true

/-- **What is assumed of a step**: heartbeats are answered with `Ok(true)` and in
less than 15 seconds, and the row is left alone. -/
def Favourable (j : Uuid) (s : Paced) (a : PacedAction) (s' : Paced) : Prop :=
  s'.renewed i a = true ∧ s'.clock.InTime (seconds 15) ∧ s.undisturbed i j a = true

instance (j : Uuid) (s : Paced) (a : PacedAction) (s' : Paced) :
    Decidable (Favourable i j s a s') :=
  inferInstanceAs (Decidable (_ ∧ _ ∧ _))

/-- **The lease on job `j` is fresh.**  From the first heartbeat of the loop to its
end, the row is held, its heartbeat is less than 30 seconds old, and neither
`reap_stale_job` nor `try_start` applies to it. -/
def LeaseFresh (j lockToken : Uuid) (s : Paced) : Prop :=
  (s.world.beatLoop i).any (·.isEnded) = false → s.clock.stamp.isSome = true →
    ∃ r beat, s.world.row j = some r ∧ r.heldBy lockToken = true ∧ r.heartbeatAt = some beat ∧
      s.world.db.now < beat + seconds 30 ∧ r.stale (seconds 30) s.world.db.now = false ∧
      r.startable s.world.db.now = false ∧ JobStore.isJobExecutionAlive j s.world.db = true

end Step

/-! ## What a favourable run keeps -/

/-- A loop that goes on, against its timer and the row. -/
structure Beating (j lockToken : Uuid) (loop : BeatLoop) (s : Paced) : Prop where
  agrees : (loop = .waiting ∧ s.clock.executed = false) ∨
    (loop = .answered (.ok true) ∧ s.clock.executed = true)
  steady : Steady (seconds 10) (seconds 15) s.clock
  inTime : s.clock.InTime (seconds 15)
  held : ∀ b, s.clock.stamp = some b → b ≤ s.world.db.now ∧
    ∃ r, s.world.row j = some r ∧ r.LeasedSince lockToken b

/-- **What every state of a favourable run has.** -/
structure Inv (i : Nat) (j lockToken : Uuid) (s : Paced) : Prop where
  sound : s.world.BeatsSound
  clock : s.clock.now = s.world.db.now
  lease : ∃ hd l, s.world.handlers[i]? = some hd ∧ hd.lease = some l ∧ l.jobId = j ∧
    l.lockToken = lockToken ∧ (l.loop = .ended ∨ Beating j lockToken l.loop s)

section Invariant

variable {i : Nat} {j lockToken : Uuid} {s s' : Paced} {loop : BeatLoop}

theorem beatLoop_of_lease {w : World} {hd : Handler} {l : Lease}
    (hhd : w.handlers[i]? = some hd) (hl : hd.lease = some l) : w.beatLoop i = some l.loop := by
  rw [World.beatLoop, hhd, Option.bind_some, hl, Option.map_some]

theorem Beating.goes (hb : Beating j lockToken loop s) : loop ≠ .ended := by
  rintro rfl
  rcases hb.agrees with ⟨hloop, _⟩ | ⟨hloop, _⟩ <;> cases hloop

/-- While the loop goes on, its last heartbeat is less than 30 seconds old. -/
theorem Beating.fresh (hb : Beating j lockToken loop s) (hclock : s.clock.now = s.world.db.now)
    {b : Time} (hstamp : s.clock.stamp = some b) : s.world.db.now < b + seconds 30 := by
  have hpos : 0 < seconds 15 := by simp [seconds]
  have hgap : max (seconds 10) (seconds 15) + seconds 15 = seconds 30 := by simp [seconds]
  have hbound := hb.steady.fresh hpos hb.inTime hstamp
  rw [hclock, Nat.add_assoc, hgap] at hbound
  exact hbound

theorem Inv.leaseFresh (h : Inv i j lockToken s) : LeaseFresh i j lockToken s := by
  obtain ⟨hd, l, hhd, hl, rfl, rfl, hloop⟩ := h.lease
  intro hgoes hstamped
  rw [beatLoop_of_lease hhd hl, Option.any_some] at hgoes
  rcases hloop with hended | hb
  · rw [hended] at hgoes
    cases hgoes
  · obtain ⟨b, hstamp⟩ := Option.isSome_iff_exists.mp hstamped
    have hfresh := hb.fresh h.clock hstamp
    obtain ⟨_, r, hr, hlease⟩ := hb.held b hstamp
    obtain ⟨beat, hbeat, hbound⟩ := hlease.fresh hfresh
    refine ⟨r, beat, hr, hlease.held, hbeat, hbound, hlease.not_stale hfresh,
      hlease.not_startable hfresh, ?_⟩
    have hrdb : s.world.db.row l.jobId = some r := hr
    rw [JobStore.isJobExecutionAlive, hrdb, Option.any_some]
    exact hlease.alive hfresh

/-- A settled step keeps the row under the lease. -/
theorem Beating.keeps_row (hb : Beating j lockToken loop s)
    (hclock : s.clock.now = s.world.db.now) {a : Action} {world : World}
    (hworld : s.world.step a = some world)
    (hsettled : ∀ st, s.world.statement a = some st → st.unsettles s.world.db j = false)
    {b : Time} (hstamp : s.clock.stamp = some b) :
    b ≤ world.db.now ∧ ∃ r, world.row j = some r ∧ r.LeasedSince lockToken b := by
  obtain ⟨hpast, r, hr, hlease⟩ := hb.held b hstamp
  refine ⟨Nat.le_trans hpast (World.step_now hworld), ?_⟩
  have hrow : world.row j = (s.world.db.jobsAfter (s.world.statement a)).lookup j := by
    rw [← World.jobs_of_step hworld]
    rfl
  rw [hrow]
  cases hst : s.world.statement a with
  | none => exact ⟨r, hr, hlease⟩
  | some st =>
      refine Statement.keeps_lease hr hlease hpast (hb.fresh hclock hstamp) (hsettled st hst) ?_
      intro timeout gen heq
      rw [heq] at hst
      exact World.timeout_of_statement hst

/-- The timer shows the time of the system. -/
theorem clock_of_turn {a : Action} {clock : Clock} (h : s.turn i a = some clock) :
    clock.now = s.clock.now + a.elapsed := by
  cases a with
  | advance d =>
      simp only [turn] at h
      split at h
      · cases h
        rfl
      · unfold Clock.wait at h
        split at h <;> cases h
        rfl
  | handler k input =>
      simp only [turn] at h
      split at h
      · split at h
        · exact (Cadence.execute_frame h).1
        · exact (Cadence.reply_frame h).1
        · split at h <;> cases h
          rfl
        · cases h
          rfl
      · cases h
        rfl
  | post _ _ | submission _ _ | deliver _ _ _ | reap _ _ | spawnPublisher | publisher _ _ =>
      cases h
      rfl

/-- A tick sends the next heartbeat. -/
theorem inv_tick (hs : Inv i j lockToken s) (h : s.step i .tick = some s')
    (hfav : Favourable i j s .tick s') : Inv i j lockToken s' := by
  obtain ⟨hd, l, hhd, hl, hj, ht, hloop⟩ := hs.lease
  simp only [step, beatLoop_of_lease hhd hl, Option.any_some] at h
  split at h
  · next hwaiting =>
      obtain ⟨clock, htick, rfl⟩ := Option.map_eq_some_iff.mp h
      obtain ⟨hnow, hexecuted, hstamp⟩ := Cadence.tick_frame htick
      refine ⟨hs.sound, hnow.trans hs.clock, hd, l, hhd, hl, hj, ht, ?_⟩
      rcases hloop with hended | hb
      · exact Or.inl hended
      · refine Or.inr ⟨?_, hb.steady.tick htick, hfav.2.1, ?_⟩
        · rcases hb.agrees with ⟨hloop, _⟩ | ⟨hloop, _⟩
          · exact Or.inl ⟨hloop, hexecuted⟩
          · rw [hloop] at hwaiting
            cases hwaiting
        · intro b hb'
          exact hb.held b (hstamp ▸ hb')
  · cases h

/-- A call stays as it is while others move. -/
theorem handler_stays {w w' : World} {a : Action} {hd : Handler} (h : w.step a = some w')
    (hother : a.isOf i = false) (hhd : w.handlers[i]? = some hd) :
    w'.handlers[i]? = some hd := by
  cases World.step_move h with
  | delivered _ =>
      dsimp only
      rw [List.getElem?_append_left (List.getElem?_eq_some_iff.mp hhd).1]
      exact hhd
  | @handler k input old new _ _ hold hm hw hfresh =>
      have hne : k ≠ i := by simpa [Action.isOf] using hother
      dsimp only
      rw [List.getElem?_set_ne hne]
      exact hhd
  | _ => exact hhd

/-- While others move, the timer waits at most. -/
theorem turn_of_other {a : Action} {clock : Clock} (hother : a.isOf i = false)
    (hgoes : (s.world.beatLoop i).any (·.isEnded) = false) (h : s.turn i a = some clock) :
    clock = s.clock ∨ ∃ d, s.clock.wait (seconds 10) d = some clock := by
  cases a with
  | advance d =>
      simp only [turn, hgoes] at h
      exact Or.inr ⟨d, h⟩
  | handler k input =>
      have hne : k ≠ i := by simpa [Action.isOf] using hother
      simp only [turn, if_neg hne] at h
      cases h
      exact Or.inl rfl
  | post _ _ | submission _ _ | deliver _ _ _ | reap _ _ | spawnPublisher | publisher _ _ =>
      cases h
      exact Or.inl rfl

/-- The others leave the loop and its row alone. -/
theorem inv_other {a : Action} (hs : Inv i j lockToken s) (h : s.step i (.system a) = some s')
    (hother : a.isOf i = false) (hfav : Favourable i j s (.system a) s') :
    Inv i j lockToken s' := by
  obtain ⟨clock, hturn, hmap⟩ := Option.bind_eq_some_iff.mp h
  obtain ⟨world, hworld, rfl⟩ := Option.map_eq_some_iff.mp hmap
  obtain ⟨hd, l, hhd, hl, hj, ht, hloop⟩ := hs.lease
  have hclock : clock.now = world.db.now := by
    rw [clock_of_turn hturn, World.now_of_step hworld, hs.clock]
  refine ⟨World.beatsSound_step _ _ _ hs.sound hworld, hclock, hd, l,
    handler_stays hworld hother hhd, hl, hj, ht, ?_⟩
  rcases hloop with hended | hb
  · exact Or.inl hended
  · have hgoes : (s.world.beatLoop i).any (·.isEnded) = false := by
      rw [beatLoop_of_lease hhd hl, Option.any_some]
      exact BeatLoop.isEnded_eq_false hb.goes
    have hsettled : ∀ st, s.world.statement a = some st →
        st.unsettles s.world.db j = false := by
      intro st hst
      simpa [undisturbed, hother, hst] using hfav.2.2
    have hframe : Steady (seconds 10) (seconds 15) clock ∧ clock.executed = s.clock.executed ∧
        clock.stamp = s.clock.stamp := by
      rcases turn_of_other hother hgoes hturn with rfl | ⟨d, hwait⟩
      · exact ⟨hb.steady, rfl, rfl⟩
      · exact ⟨hb.steady.wait hwait, Cadence.wait_frame hwait⟩
    obtain ⟨hsteady, hexecuted, hstamp⟩ := hframe
    refine Or.inr ⟨?_, hsteady, hfav.2.1, ?_⟩
    · dsimp only
      rw [hexecuted]
      exact hb.agrees
    · intro b hb'
      exact hb.keeps_row hs.clock hworld hsettled (hstamp ▸ hb')

/-- What is neither a heartbeat nor its answer is nothing to the timer. -/
theorem turn_of_idle {input : HandlerInput} {clock : Clock} (hsend : ∀ reply, input ≠ .beat reply)
    (hanswer : input ≠ .beatAnswer) (h : s.turn i (.handler i input) = some clock) :
    clock = s.clock := by
  simp only [turn, if_true] at h
  split at h
  · next reply => exact absurd rfl (hsend reply)
  · exact absurd rfl hanswer
  · split at h <;> cases h
    rfl
  · cases h
    rfl

/-- The steps of the call itself: a heartbeat renews the row, its answer lets the
loop wait for the next tick, and the rest is nothing to the timer. -/
theorem inv_own {input : HandlerInput} (hs : Inv i j lockToken s)
    (h : s.step i (.system (.handler i input)) = some s')
    (hfav : Favourable i j s (.system (.handler i input)) s') : Inv i j lockToken s' := by
  obtain ⟨clock, hturn, hmap⟩ := Option.bind_eq_some_iff.mp h
  obtain ⟨world, hworld, rfl⟩ := Option.map_eq_some_iff.mp hmap
  obtain ⟨hd, l, hhd, hl, hj, ht, hloop⟩ := hs.lease
  have hclock : clock.now = world.db.now := by
    rw [clock_of_turn hturn, World.now_of_step hworld, hs.clock]
  have hmem : hd ∈ s.world.handlers := List.mem_of_getElem? hhd
  have hsound := hs.sound.provenance.sound.handlers hd hmem
  have hbeats := hs.sound.handlers hd hmem
  obtain ⟨eff, heff, hhd', hdb⟩ : ∃ eff, hd.step input s.world.db = some eff ∧
      world.handlers[i]? = some eff.handler ∧ world.db = eff.db := by
    simp only [World.step, World.stepHandler, hhd, Option.bind_some] at hworld
    split at hworld
    · cases hworld
    · obtain ⟨eff, heff, rfl⟩ := Option.map_eq_some_iff.mp hworld
      exact ⟨eff, heff, List.getElem?_set_self (List.getElem?_eq_some_iff.mp hhd).1, rfl⟩
  obtain ⟨l', hl', hj', ht', hbeat⟩ := (Handler.step_move heff).lease hsound hl
  refine ⟨World.beatsSound_step _ _ _ hs.sound hworld, hclock, eff.handler, l', hhd', hl',
    hj'.trans hj, ht'.trans ht, ?_⟩
  have hsettled : l.loop ≠ .ended → ∀ st, s.world.statement (.handler i input) = some st →
      st.unsettles s.world.db j = false := by
    intro hgoes st hst
    simp only [World.statement, hhd, Option.bind_some] at hst
    exact (Handler.step_write heff).settled hsound hbeats hl hgoes j st hst
  rcases hloop with hended | hb
  · rw [hended] at hbeat
    generalize hloop' : l'.loop = loop' at hbeat
    cases hbeat <;> exact Or.inl rfl
  · have hgoes := hb.goes
    generalize hold : l.loop = old at hbeat
    generalize hnew : l'.loop = new at hbeat
    cases hbeat with
    | ended => exact Or.inl rfl
    | idle hsend hanswer =>
        have hsame := turn_of_idle hsend hanswer hturn
        subst hsame
        refine Or.inr ⟨hold ▸ hb.agrees, hb.steady, hb.inTime, ?_⟩
        intro b hstamp
        exact hb.keeps_row hs.clock hworld (hsettled hgoes) hstamp
    | @answered reply answer =>
        have hexec : s.clock.execute = some clock := by simpa [turn] using hturn
        obtain ⟨_, hexecuted, hstamp⟩ := Cadence.execute_frame hexec
        have hrenewed := hfav.1
        simp only [renewed, bne_self_eq_false, Bool.false_or, beatLoop_of_lease hhd' hl', hnew,
          Option.any_some] at hrenewed
        cases BeatLoop.eq_of_isRenewed hrenewed
        refine Or.inr ⟨Or.inr ⟨rfl, hexecuted⟩, hb.steady.execute hexec, hfav.2.1, ?_⟩
        intro b hb'
        rw [hstamp] at hb'
        cases hb'
        obtain ⟨r, hr, hlease⟩ := Handler.beat_renewed heff hl hl' hnew
        rw [ht, ← hs.clock] at hlease
        refine ⟨?_, r, ?_, hlease⟩
        · rw [← hclock]
          exact Nat.le_of_eq (Cadence.execute_frame hexec).1.symm
        · rw [World.row, hdb, ← hj]
          exact hr
    | renewed =>
        have hreply : s.clock.reply = some clock := by simpa [turn] using hturn
        obtain ⟨_, hexecuted, hstamp⟩ := Cadence.reply_frame hreply
        refine Or.inr ⟨Or.inl ⟨rfl, hexecuted⟩, hb.steady.reply hb.inTime hreply, hfav.2.1, ?_⟩
        intro b hb'
        exact hb.keeps_row hs.clock hworld (hsettled hgoes) (hstamp ▸ hb')

/-- **A favourable step keeps the invariant.** -/
theorem inv_step {a : PacedAction} (hs : Inv i j lockToken s) (h : s.step i a = some s')
    (hfav : Favourable i j s a s') : Inv i j lockToken s' := by
  cases a with
  | tick => exact inv_tick hs h hfav
  | system a =>
      cases hother : a.isOf i with
      | false => exact inv_other hs h hother hfav
      | true =>
          cases a with
          | handler k input =>
              have hk : k = i := by simpa [Action.isOf] using hother
              subst hk
              exact inv_own hs h hfav
          | _ => cases hother

/-- A loop that waits for its first tick. -/
theorem inv_start {world : World} (hsound : world.BeatsSound) {hd : Handler} {l : Lease}
    (hhd : world.handlers[i]? = some hd) (hl : hd.lease = some l) (hloop : l.loop = .waiting) :
    Inv i l.jobId l.lockToken (start world) :=
  ⟨hsound, rfl, hd, l, hhd, hl, rfl, rfl,
    Or.inr ⟨Or.inl ⟨hloop, rfl⟩, Cadence.steady_start _, nofun, nofun⟩⟩

end Invariant

/-- **The cadence of heartbeats keeps the lease fresh.**  Take any state of any run
in which call `i` has spawned its heartbeat loop.  However long the execution lasts
and whatever else happens: as long as every heartbeat takes less than 15 seconds and
is answered with `Ok(true)`, and no other call takes the row out of `Running`, the
row's heartbeat is less than 30 seconds old from the first heartbeat until the loop
ends, so that the row is neither reaped nor taken over and its execution is alive. -/
theorem heartbeats_keep_lease_fresh {now : Time} {before : List Action} {world : World}
    (hreached : Runs.exec World.step (World.empty now) before = some world) {i : Nat}
    {hd : Handler} {l : Lease} (hhd : world.handlers[i]? = some hd) (hl : hd.lease = some l)
    (hloop : l.loop = .waiting) (as : List PacedAction)
    (hfav : Runs.StepsMeet (step i) (Favourable i l.jobId) (start world) as) :
    Runs.HoldsAlong (step i) (LeaseFresh i l.jobId l.lockToken) (start world) as := by
  have hsound : world.BeatsSound :=
    (Runs.holdsAlong_of_invariant World.beatsSound_step (World.beatsSound_empty now) before).final
      hreached
  have hinv := Runs.holdsAlong_of_stepsMeet (fun _ _ _ => inv_step)
    (inv_start hsound hhd hl hloop) hfav
  exact hinv.mono fun _ => Inv.leaseFresh

/-! ## Slow heartbeats -/

/-- Job `7` is granted to call `0`. -/
def granted : List Action :=
  Action.submit 0 7 ++ [.deliver 0 "worker-1" false] ++ Action.start 0 100

def grantedWorld : World :=
  (Runs.exec World.step (.empty 0) granted).getD (.empty 0)

/-- Two heartbeats, each just less than 15 seconds under way, the first executed at
once and the second at the last moment. -/
def slowBeats : List PacedAction :=
  [.tick, .system (.handler 0 (.beat .ok)), .system (.advance 14999999),
    .system (.handler 0 .beatAnswer), .tick, .system (.advance 14999999),
    .system (.handler 0 (.beat .ok)), .system (.handler 0 .beatAnswer)]

theorem slow_beats_keep_lease_fresh :
    (Runs.exec (step 0) (start grantedWorld) slowBeats).isSome = true ∧
      Runs.StepsMeet (step 0) (Favourable 0 7) (start grantedWorld) slowBeats ∧
      Runs.HoldsAlong (step 0) (LeaseFresh 0 7 100) (start grantedWorld) slowBeats := by
  have hreached : Runs.exec World.step (World.empty 0) granted = some grantedWorld := rfl
  have hlease : (grantedWorld.handlers[0]?).bind Handler.lease = some (.spawn 7 100) := rfl
  obtain ⟨hd, hhd, hl⟩ := Option.bind_eq_some_iff.mp hlease
  have hfav : Runs.StepsMeet (step 0) (Favourable 0 7) (start grantedWorld) slowBeats := by
    decide
  exact ⟨rfl, hfav, heartbeats_keep_lease_fresh hreached hhd hl rfl slowBeats hfav⟩

end Paced

end EditorBack
