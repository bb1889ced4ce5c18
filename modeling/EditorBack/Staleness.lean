import EditorBack.RowSteps

/-!
# The staleness predicates

Three statements decide by `heartbeat_at` what has become of a running job:
`is_job_execution_alive`, the reaper, and the take-over of `try_start`.  On a
row with a heartbeat they agree at every time.  On a running row without one
they do not: it is neither alive nor reapable, while `try_start` takes it.

No statement that makes a row running leaves it without a heartbeat, except
`update_status(Running)`, which writes the status alone.
`staleness_agrees_iff` says that the predicates agree along a run exactly if
this write never meets a row without a heartbeat.
-/

namespace EditorBack

/-- At time `now` the row is alive or reapable but not both, and `try_start`
takes it over exactly if the reaper would reset it. -/
structure JobRow.StalenessAgrees (now : Time) (r : JobRow) : Prop where
  decided : r.alive now = true ∨ r.stale (seconds 30) now = true
  exclusive : ¬ (r.alive now = true ∧ r.stale (seconds 30) now = true)
  takeover : r.startable now = true ↔ r.stale (seconds 30) now = true

/-- Of a running row the predicates agree exactly if it has a heartbeat. -/
theorem JobRow.stalenessAgrees_iff {r : JobRow} (hrunning : r.status = .running) :
    (∀ now, r.StalenessAgrees now) ↔ r.heartbeatAt ≠ none := by
  constructor
  · intro hagrees hnull
    rcases (hagrees 0).decided with halive | hstale
    · have hwithin := (JobRow.alive_iff.mp halive).2
      simp [beatWithin, hnull] at hwithin
    · have hbefore := (JobRow.stale_iff.mp hstale).2
      simp [beatBefore, hnull] at hbefore
  · intro hbeat now
    obtain ⟨beat, hbeat⟩ := Option.ne_none_iff_exists'.mp hbeat
    have hwithin : r.alive now = true ↔ now ≤ beat + seconds 30 := by
      simp [JobRow.alive_iff, hrunning, beatWithin, hbeat]
    have hbefore : r.stale (seconds 30) now = true ↔ beat + seconds 30 < now := by
      simp [JobRow.stale_iff, hrunning, beatBefore, hbeat]
    refine ⟨?_, ?_, ?_⟩
    · rw [hwithin, hbefore]
      rcases Nat.lt_or_ge (beat + seconds 30) now with hlate | hearly
      · exact Or.inr hlate
      · exact Or.inl hearly
    · rw [hwithin, hbefore]
      intro hboth
      exact Nat.not_lt.mpr hboth.1 hboth.2
    · simp [JobRow.startable_iff, JobRow.stale_iff, hrunning, hbeat]

/-- A running row has a heartbeat. -/
def Beating (r? : Option JobRow) : Prop :=
  ∀ r, r? = some r → r.status = .running → r.heartbeatAt ≠ none

/-- **A statement leaves a running row without a heartbeat exactly if it is an
`update_status(Running)` that finds none.** -/
theorem RowStep.beating_iff {now : Time} {before after : List Uuid} {r? r?' : Option JobRow}
    {events : List JobEvent} (h : RowStep now before after r? r?' events) (hb : Beating r?) :
    Beating r?' ↔ (events = [.marked] → ∀ r, r? = some r → r.heartbeatAt ≠ none) := by
  cases h with
  | idle => exact iff_of_true hb (by simp)
  | insert job haccepted =>
      refine iff_of_true ?_ (by simp)
      intro r hr hrunning
      cases hr
      rw [JobRow.new, haccepted] at hrunning
      cases hrunning
  | queue r =>
      refine iff_of_true ?_ (by simp)
      intro r' hr hrunning
      cases hr
      cases hrunning
  | start r token workerId _ _ _ =>
      refine iff_of_true ?_ (by simp)
      intro r' hr _
      cases hr
      exact nofun
  | mark r =>
      constructor
      · intro hbeat _ r' hr
        cases hr
        exact hbeat (r.withStatus .running) rfl rfl
      · intro hbeat r' hr _
        cases hr
        exact hbeat rfl r rfl
  | renew r token _ =>
      refine iff_of_true ?_ (by simp)
      intro r' hr _
      cases hr
      exact nofun
  | finish r token args _ hterminal =>
      refine iff_of_true ?_ (by simp)
      intro r' hr hrunning
      cases hr
      have hstatus : args.status = .running := hrunning
      rw [hstatus] at hterminal
      cases hterminal
  | reset r _ =>
      refine iff_of_true ?_ (by simp)
      intro r' hr hrunning
      cases hr
      cases hrunning
  | refuse => exact iff_of_true hb (by simp)

namespace World

/-- On every running row and at every database time the staleness predicates
agree. -/
def StalenessAgrees (s : World) : Prop :=
  ∀ j r now, s.row j = some r → r.status = .running → r.StalenessAgrees now

/-- An `update_status(Running)` finds a heartbeat on its row. -/
def MarksBeatingRows (s : World) (a : Action) (_ : World) : Prop :=
  ∀ j r, s.statusWrite a = some (j, .running) → s.row j = some r → r.heartbeatAt ≠ none

theorem stalenessAgrees_iff_beating {s : World} :
    s.StalenessAgrees ↔ ∀ j, Beating (s.row j) := by
  constructor
  · intro hagrees j r hr hrunning
    exact (JobRow.stalenessAgrees_iff hrunning).mp (fun now => hagrees j r now hr hrunning)
  · intro hbeat j r now hr hrunning
    exact (JobRow.stalenessAgrees_iff hrunning).mpr (hbeat j r hr hrunning) now

/-- **The staleness predicates agree exactly if `update_status(Running)` always
finds a heartbeat.** -/
theorem staleness_agrees_iff (now : Time) (as : List Action) :
    Runs.HoldsAlong step StalenessAgrees (empty now) as ↔
      Runs.StepsMeet step MarksBeatingRows (empty now) as := by
  refine Runs.holdsAlong_iff_stepsMeet step_sound ?_ (empty_sound now) ?_ as
  · intro s a s' hs hp h
    rw [stalenessAgrees_iff_beating] at hp ⊢
    constructor
    · intro hbeat j r hw hr
      obtain ⟨events, hhist, hrow⟩ := step_row h hs j
      have hmarked := (history_status_iff h (e := .marked) rfl).mpr ⟨hw, by rw [hr]; rfl⟩
      rw [hhist, append_eq_cons] at hmarked
      exact (hrow.beating_iff (hp j)).mp (hbeat j) hmarked r hr
    · intro hcond j
      obtain ⟨events, hhist, hrow⟩ := step_row h hs j
      apply (hrow.beating_iff (hp j)).mpr
      intro hevents r hr
      rw [hevents] at hhist
      exact hcond j r ((history_status_iff h rfl).mp hhist).1 hr
  · rw [stalenessAgrees_iff_beating]
    intro j r hr
    cases hr

/-- A worker takes job `7` and pauses, a reaper resets the job a minute later,
and the worker wakes up. -/
def markAfterReset : List Action :=
  Action.submit 0 7 ++ [.deliver 0 "worker-1" false] ++ Action.start 0 100 ++
    [.advance (seconds 60), .reap [1] .ok, .handler 0 (.mark .ok)]

/-- The job is running without a heartbeat: nobody's, and never to be reaped. -/
theorem late_mark_escapes_reaper :
    ¬ Runs.HoldsAlong step StalenessAgrees (empty 0) markAfterReset := by
  intro h
  have hend : (Runs.exec step (empty 0) markAfterReset).map
      (fun s => (s.row 7).map fun r => (r.status, r.heartbeatAt)) =
      some (some (.running, none)) := by rfl
  obtain ⟨s, hrun, hs⟩ := Option.map_eq_some_iff.mp hend
  simp only [Option.map_eq_some_iff, Prod.mk.injEq] at hs
  obtain ⟨r, hr, hrunning, hnull⟩ := hs
  exact stalenessAgrees_iff_beating.mp (h.final hrun) 7 r hr hrunning hnull

end World

end EditorBack
