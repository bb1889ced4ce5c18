import EditorBack.Provenance

/-!
# Heartbeat tasks and the calls that spawned them

After `try_start` a call of `handle_message` runs next to its heartbeat task.
The task has to be over when the call is: dropping the handle of a task only
detaches it.  Every exit after the spawn looks at the task first, by aborting
it, by waiting for it or because the task has failed already, with one
exception: the `?` behind `update_status(Running)`.
`heartbeats_end_with_handlers_iff` says that this exit is all there is.
-/

namespace EditorBack

/-- The heartbeat loop is over. -/
def BeatLoop.isEnded : BeatLoop → Bool
  | .ended => true
  | .waiting | .answered _ => false

/-- The heartbeat loop can still send a heartbeat: it has not broken out of its
loop or been aborted, it has stored no error, and it has not been cancelled. -/
def Lease.active (l : Lease) : Bool :=
  !l.loop.isEnded && l.heartbeatErr.isNone && !l.heartbeatCancel

theorem Lease.not_active_of_ended {l : Lease} (h : l.loop = .ended) : l.active = false := by
  simp [active, h, BeatLoop.isEnded]

/-- The call has returned. -/
def Phase.isReturned : Phase → Bool
  | .returned _ => true
  | _ => false

namespace Handler

/-- The call and its heartbeat loop, as far as they share a lease. -/
structure BeatSound (h : Handler) : Prop where
  failed : ∀ l, h.lease = some l → l.heartbeatErr ≠ none → l.loop = .ended
  finishing : ∀ l, h.lease = some l → ∀ job args answer,
    h.phase = .finishing job args answer → l.loop = .ended

/-- The heartbeat loop of a call that has returned is over. -/
def BeatStops (h : Handler) : Prop :=
  ∀ l, h.lease = some l → h.phase.isReturned = true → l.active = false

theorem receive_beatSound (workerId : String) (payload : Payload) :
    (receive workerId payload).BeatSound :=
  ⟨nofun, nofun⟩

/-- Going on under the same lease, anywhere but to a `finish`. -/
theorem BeatSound.goto {h : Handler} (hs : h.BeatSound) {phase : Phase}
    (hphase : ∀ job args answer, phase ≠ .finishing job args answer) : (h.goto phase).BeatSound :=
  ⟨hs.failed, fun _ _ job args answer hp => absurd hp (hphase job args answer)⟩

/-- A heartbeat step before the loop is over. -/
theorem BeatSound.live {h : Handler} (hs : h.BeatSound) {l l' : Lease} (hl : h.lease = some l)
    (hloop : l.loop ≠ .ended) (herr : l'.heartbeatErr = l.heartbeatErr) :
    (h.withLease l').BeatSound := by
  have hnone : l.heartbeatErr = none := by
    by_contra hne
    exact hloop (hs.failed l hl hne)
  refine ⟨?_, ?_⟩
  · intro l₁ hl₁ hne
    cases hl₁
    rw [herr, hnone] at hne
    exact absurd rfl hne
  · intro l₁ _ job args answer hp
    exact absurd (hs.finishing l hl job args answer hp) hloop

/-- A loop that is over may have stored anything. -/
theorem BeatSound.ended {h : Handler} {l : Lease} (hloop : l.loop = .ended) :
    (h.withLease l).BeatSound := by
  refine ⟨?_, ?_⟩
  · intro l₁ hl₁ _
    cases hl₁
    exact hloop
  · intro l₁ hl₁ _ _ _ _
    cases hl₁
    exact hloop

theorem Move.beatSound {db : Db} {input : HandlerInput} {h h' : Handler}
    (hm : Move db input h h') (hs : h.BeatSound) : h'.BeatSound := by
  cases hm with
  | selected _ _ | notFound _ _ | selectFailed _ | queued _ _ | queueFailed _ | observed _
  | panicked _ | busy _ _ | startFailed _ | marked _ _ | markFailed _ _ _ | ran _ _ _
  | cancelled _ _ _ | stored _ _ _ | storeFailed _ _ => exact hs.goto (by simp)
  | granted hp _ =>
      refine ⟨?_, fun _ _ _ _ _ hp' => by cases hp'⟩
      intro l hl hne
      cases hl
      exact absurd rfl hne
  | unsupported hp hl => exact .ended rfl
  | beatFailed hp hl herr =>
      refine ⟨?_, fun _ _ _ _ _ hp' => by cases hp'⟩
      intro l hl' hne
      cases hl'
      exact absurd rfl hne
  | @collected _ job result lease hp hl =>
      refine ⟨?_, fun _ _ _ _ _ hp' => by cases hp'⟩
      intro l hl' hne
      cases hl'
      exact hs.failed lease hl hne
  | joined hp hl hloop _ =>
      refine ⟨hs.failed, ?_⟩
      intro l hl' _ _ _ _
      have hsame : h.lease = some l := hl'
      rw [hl] at hsame
      cases hsame
      exact hloop
  | beat hl hloop | beatRenewed hl hloop => exact hs.live hl (by rw [hloop]; exact nofun) rfl
  | beatLost hl _ => exact .ended rfl
  | beatError hl _ => exact .ended rfl
  | beatStopped hl _ _ => exact .ended rfl
  | crashed h =>
      have hended : ∀ {l : Lease}, h.lease.map (fun l => { l with loop := .ended }) = some l →
          l.loop = .ended := by
        intro l hl
        obtain ⟨l₀, _, rfl⟩ := Option.map_eq_some_iff.mp hl
        rfl
      exact ⟨fun l hl _ => hended hl, fun l hl _ _ _ _ => hended hl⟩

section BeatStops

variable {db : Db} {input : HandlerInput} {h h' : Handler} {tokens : List Uuid}

/-- A call that goes on under a lease whose loop is over leaves none behind. -/
theorem BeatStops.goto_of_ended {l : Lease} (hl : h.lease = some l) (hloop : l.loop = .ended)
    (phase : Phase) : (h.goto phase).BeatStops := by
  intro l' hl' _
  have hsame : h.lease = some l' := hl'
  rw [hl] at hsame
  cases hsame
  exact Lease.not_active_of_ended hloop

/-- A heartbeat step that ends the loop leaves none behind. -/
theorem BeatStops.withLease_of_ended {l : Lease} (hloop : l.loop = .ended) :
    (h.withLease l).BeatStops := by
  intro l' hl' _
  cases hl'
  exact Lease.not_active_of_ended hloop

/-- A heartbeat step that goes on leaves the loop as active as it was. -/
theorem BeatStops.withLease_of_active {l l' : Lease} (hp : h.BeatStops) (hl : h.lease = some l)
    (hsame : l'.active = l.active) : (h.withLease l').BeatStops := by
  intro l₁ hl₁ hreturned
  cases hl₁
  rw [hsame]
  exact hp l hl hreturned

/-- **A step other than `update_status(Running)` leaves no heartbeat behind.** -/
theorem Move.beatStops (hm : Move db input h h') (hs : h.BeatSound) (hsound : h.Sound tokens)
    (hp : h.BeatStops) (hmark : ∀ reply, input ≠ .mark reply) : h'.BeatStops := by
  -- before `try_start` there is no lease, so there is no loop
  have hbefore : h.phase.beforeStart = true → ∀ phase, (h.goto phase).BeatStops := by
    intro hphase phase l hl _
    have hl' : h.lease = some l := hl
    rw [hsound.unleased hphase] at hl'
    cases hl'
  cases hm with
  | selected hphase _ | notFound hphase _ | selectFailed hphase | queued hphase _
  | queueFailed hphase | observed hphase | panicked hphase | busy hphase _
  | startFailed hphase => exact hbefore (by rw [hphase]; rfl) _
  | granted _ _ => exact nofun
  | marked _ _ => exact absurd rfl (hmark _)
  | unsupported _ _ => exact absurd rfl (hmark _)
  | markFailed _ _ _ => exact absurd rfl (hmark _)
  | ran _ _ _ => exact nofun
  | beatFailed _ hl herr =>
      -- a loop that has stored an error is over
      have hloop := hs.failed _ hl (by rw [herr]; exact nofun)
      exact .withLease_of_ended hloop
  | collected _ _ => exact nofun
  | joined _ _ _ _ => exact nofun
  | cancelled _ hl hloop => exact .goto_of_ended hl hloop _
  | stored hphase hl _ => exact .goto_of_ended hl (hs.finishing _ hl _ _ _ hphase) _
  | storeFailed hphase hl => exact .goto_of_ended hl (hs.finishing _ hl _ _ _ hphase) _
  | beat hl hloop | beatRenewed hl hloop =>
      exact hp.withLease_of_active hl (by simp [Lease.active, hloop, BeatLoop.isEnded])
  | beatLost _ _ => exact .withLease_of_ended rfl
  | beatError _ _ => exact .withLease_of_ended rfl
  | beatStopped _ _ _ => exact .withLease_of_ended rfl
  | crashed h =>
      intro l hl _
      obtain ⟨l₀, _, rfl⟩ := Option.map_eq_some_iff.mp hl
      exact Lease.not_active_of_ended rfl

/-- **A step leaves a heartbeat behind exactly if it is an
`update_status(Running)` answered with an error while the loop is active.** -/
theorem Move.beatStops_iff (hm : Move db input h h') (hs : h.BeatSound) (hsound : h.Sound tokens)
    (hrow : ∀ job, h.phase = .marking job → (db.row job.id).isSome = true) (hp : h.BeatStops) :
    h'.BeatStops ↔ ∀ reply l, input = .mark reply → h.lease = some l → l.active = true →
      reply = .ok := by
  by_cases hmark : ∀ reply, input ≠ .mark reply
  · exact iff_of_true (hm.beatStops hs hsound hp hmark)
      (fun reply _ heq => absurd heq (hmark reply))
  · push Not at hmark
    obtain ⟨reply, rfl⟩ := hmark
    cases hm with
    | marked _ _ =>
        refine iff_of_true nofun ?_
        intro reply l heq _ _
        cases heq
        rfl
    | unsupported _ _ =>
        refine iff_of_true nofun ?_
        intro reply l heq _ _
        cases heq
        rfl
    | @markFailed _ _ job lease err hphase hl hfail =>
        have hne : reply ≠ .ok := by
          intro hok
          have hsome := hrow job hphase
          rw [hfail hok] at hsome
          cases hsome
        constructor
        · intro hstops reply' l heq hl' hactive
          rw [hstops l hl' rfl] at hactive
          cases hactive
        · intro hcond l hl' _
          by_contra hactive
          exact hne (hcond reply l rfl hl' (by simpa using hactive))

end BeatStops

end Handler

namespace World

/-- The heartbeat loop of every call that has returned is over. -/
def HeartbeatsStop (s : World) : Prop :=
  ∀ h ∈ s.handlers, h.BeatStops

/-- An `update_status(Running)` whose heartbeat loop is active is answered. -/
def AnswersMarks (s : World) (a : Action) (_ : World) : Prop :=
  ∀ i reply h l, a = .handler i (.mark reply) → s.handlers[i]? = some h → h.lease = some l →
    l.active = true → reply = .ok

/-- Calls agree with their heartbeat loops. -/
structure BeatsSound (s : World) : Prop where
  provenance : s.Provenance
  handlers : ∀ h ∈ s.handlers, h.BeatSound

theorem beatsSound_empty (now : Time) : (empty now).BeatsSound :=
  ⟨provenance_empty now, by simp [empty]⟩

theorem beatsSound_step (s : World) (a : Action) (s' : World) (hs : s.BeatsSound)
    (h : s.step a = some s') : s'.BeatsSound := by
  refine ⟨provenance_step s a s' hs.provenance h, ?_⟩
  intro hd' hmem
  rcases handler_origin h hmem with
    hold | ⟨payload, _, workerId, rfl⟩ | ⟨i, input, hd, eff, _, hhd, heff, rfl⟩
  · exact hs.handlers hd' hold
  · exact Handler.receive_beatSound workerId payload
  · exact (Handler.step_move heff).beatSound (hs.handlers hd (List.mem_of_getElem? hhd))

/-- **Heartbeats end with their handlers exactly if `update_status(Running)` is
answered.**  Along any run, no call that has returned leaves an active
heartbeat loop behind if and only if no `update_status(Running)` is answered
with an error while the loop of its call is active. -/
theorem heartbeats_end_with_handlers_iff (now : Time) (as : List Action) :
    Runs.HoldsAlong step HeartbeatsStop (empty now) as ↔
      Runs.StepsMeet step AnswersMarks (empty now) as := by
  refine Runs.holdsAlong_iff_stepsMeet beatsSound_step ?_ (beatsSound_empty now) ?_ as
  · intro s a s' hs hp h
    have hexact : ∀ hd ∈ s.handlers, ∀ input, ∀ hd' ∈ s'.handlers, hd.Move s.db input hd' →
        (hd'.BeatStops ↔ ∀ reply l, input = .mark reply → hd.lease = some l → l.active = true →
          reply = .ok) := by
      intro hd hmem input hd' _ hm
      refine hm.beatStops_iff (hs.handlers hd hmem) (hs.provenance.sound.handlers hd hmem) ?_
        (hp hd hmem)
      intro job hphase
      exact hs.provenance.stored _ (hs.provenance.working hmem (by rw [hphase]; rfl))
    refine (handlers_iff_of_step h (fun _ _ => nofun) hexact hp).trans ?_
    constructor
    · intro hcond i reply hd l heq hhd hl hactive
      exact hcond i (.mark reply) hd heq hhd reply l rfl hl hactive
    · intro hcond i input hd heq hhd reply l hinput hl hactive
      subst hinput
      exact hcond i reply hd l heq hhd hl hactive
  · intro hd hmem
    cases hmem

/-- A worker takes job `7`, and the connection breaks before its
`update_status(Running)`. -/
def failedMark : List Action :=
  Action.submit 0 7 ++ [.deliver 0 "worker-1" false] ++ Action.start 0 100 ++
    [.handler 0 (.mark (.failed "connection reset by peer"))]

/-- The call returns, and its heartbeat loop goes on. -/
theorem failed_mark_leaves_heartbeat :
    ¬ Runs.HoldsAlong step HeartbeatsStop (empty 0) failedMark := by
  intro h
  have hend : (Runs.exec step (empty 0) failedMark).map
      (fun s => s.handlers[0]?.map fun hd => (hd.phase.isReturned, hd.lease.map Lease.active)) =
      some (some (true, some true)) := by decide
  obtain ⟨s, hrun, hs⟩ := Option.map_eq_some_iff.mp hend
  simp only [Option.map_eq_some_iff, Prod.mk.injEq] at hs
  obtain ⟨hd, hhd, hreturned, l, hl, hactive⟩ := hs
  rw [h.final hrun hd (List.mem_of_getElem? hhd) l hl hreturned] at hactive
  cases hactive

end World

end EditorBack
