import EditorBack.HeartbeatTask
import EditorBack.OwnMessages

/-!
# The lease under a running program

While a program runs, its lease has to be renewed; once it cannot be, the
execution has to be cancelled.  The heartbeat loop ends in three ways.  When the
lease is lost it cancels the execution first, and when it is cancelled itself
the program is over already.  When a heartbeat meets a database error, though,
the loop stores the error, cancels its own token and ends: the execution goes
on, and nobody renews the lease any more.

`execution_leased_iff` says that the third way is the only one in which a
program runs on under a lease without a heartbeat.
-/

namespace EditorBack

/-- The call is between its `try_start` and the end of `run_rust`. -/
def Phase.executes : Phase → Bool
  | .marking _ | .running _ => true
  | _ => false

/-- The call is inside `run_rust`. -/
def Phase.isRunning : Phase → Bool
  | .running _ => true
  | _ => false

/-- The flags of a lease against its loop: they say why the loop has ended. -/
structure Lease.Explained (l : Lease) (executes : Bool) : Prop where
  live : l.loop ≠ .ended → l.cancelExecution = false ∧ l.heartbeatErr = none
  uncancelled : executes = true → l.loop ≠ .ended → l.heartbeatCancel = false
  failed : l.heartbeatErr ≠ none → l.cancelExecution = false
  ended : executes = true → l.loop = .ended → l.cancelExecution = true ∨ l.heartbeatErr ≠ none

/-- A lease whose call is past the execution. -/
theorem Lease.Explained.past {l : Lease} {executes : Bool} (h : l.Explained executes) :
    l.Explained false :=
  ⟨h.live, nofun, h.failed, nofun⟩

namespace Handler

/-- The lease of a call is explained. -/
def LeaseExplained (h : Handler) : Prop :=
  ∀ l, h.lease = some l → l.Explained h.phase.executes

/-- A program in execution has a heartbeat loop, or has been cancelled. -/
def ExecutionLeased (h : Handler) : Prop :=
  h.phase.isRunning = true →
    ∃ l, h.lease = some l ∧ (l.loop ≠ .ended ∨ l.cancelExecution = true)

section Explained

variable {h : Handler}

/-- Going on under the same lease. -/
theorem LeaseExplained.goto (he : h.LeaseExplained) {phase : Phase}
    (hexec : phase.executes = true → h.phase.executes = true) : (h.goto phase).LeaseExplained := by
  intro l hl
  have hold := he l hl
  refine ⟨hold.live, fun hphase => hold.uncancelled (hexec hphase), hold.failed,
    fun hphase => hold.ended (hexec hphase)⟩

/-- Replacing the lease. -/
theorem LeaseExplained.withLease {l : Lease} (hl : l.Explained h.phase.executes) :
    (h.withLease l).LeaseExplained := by
  intro l' hl'
  cases hl'
  exact hl

/-- **The flags of a lease always say why its loop has ended.** -/
theorem Move.leaseExplained {db : Db} {input : HandlerInput} {h' : Handler}
    (hm : Move db input h h') (he : h.LeaseExplained) : h'.LeaseExplained := by
  cases hm with
  | selected _ _ | notFound _ _ | selectFailed _ | queued _ _ | queueFailed _ | observed _
  | panicked _ | busy _ _ | startFailed _ | markFailed _ _ _ | ran _ _ _ | joined _ _ _ _
  | cancelled _ _ _ | stored _ _ _ | storeFailed _ _ => exact he.goto nofun
  | granted _ _ => exact .withLease ⟨fun _ => ⟨rfl, rfl⟩, fun _ _ => rfl, nofun, nofun⟩
  | marked hp _ => exact he.goto (by rw [hp]; exact fun _ => rfl)
  | unsupported _ hl => exact .withLease ⟨nofun, nofun, (he _ hl).failed, nofun⟩
  | beatFailed _ hl herr =>
      have hfailed := (he _ hl).failed (by rw [herr]; exact nofun)
      exact .withLease ⟨fun _ => ⟨hfailed, rfl⟩, nofun, nofun, nofun⟩
  | collected _ hl =>
      have hold := he _ hl
      exact .withLease ⟨hold.live, nofun, hold.failed, nofun⟩
  | beat hl hloop | beatRenewed hl hloop =>
      have hold := he _ hl
      have hlive := hold.live (by rw [hloop]; exact nofun)
      exact .withLease ⟨fun _ => hlive,
        fun hexec _ => hold.uncancelled hexec (by rw [hloop]; exact nofun), hold.failed, nofun⟩
  | beatLost hl hloop =>
      have hlive := (he _ hl).live (by rw [hloop]; exact nofun)
      exact .withLease ⟨nofun, nofun, fun hne => absurd hlive.2 hne, fun _ _ => Or.inl rfl⟩
  | beatError hl hloop =>
      have hlive := (he _ hl).live (by rw [hloop]; exact nofun)
      exact .withLease ⟨nofun, nofun, fun _ => hlive.1, fun _ _ => Or.inr nofun⟩
  | beatStopped hl hloop hcancel =>
      -- a call past its execution has cancelled the loop
      have hold := he _ hl
      refine .withLease ⟨nofun, nofun, hold.failed, ?_⟩
      intro hexec _
      rw [hold.uncancelled hexec (by rw [hloop]; exact nofun)] at hcancel
      cases hcancel
  | crashed h =>
      intro l hl
      obtain ⟨l₀, hl₀, rfl⟩ := Option.map_eq_some_iff.mp hl
      refine ⟨nofun, nofun, (he l₀ hl₀).failed, ?_⟩
      have hover : (if h.phase.jobId.isSome then Phase.crashed else h.phase).executes = false := by
        cases h.phase <;> rfl
      intro hexec
      dsimp only at hexec
      rw [hover] at hexec
      cases hexec

end Explained

/-- No program is started after its heartbeat loop has ended on an error, and no
such error ends the loop of a running one. -/
def KeepsHeartbeat (input : HandlerInput) (h : Handler) : Prop :=
  ∀ l, h.lease = some l → (input = .mark .ok → l.heartbeatErr = none) ∧
    (input = .beatAnswer → h.phase.isRunning = true → ∀ err, l.loop ≠ .answered (.error err))

section Exactness

variable {db : Db} {input : HandlerInput} {h h' : Handler}

/-- A step that leaves a call outside `run_rust`. -/
private theorem executionLeased_of_idle (hidle : h'.phase.isRunning = false) :
    h'.ExecutionLeased := by
  intro hrunning
  rw [hidle] at hrunning
  cases hrunning

/-- Taking up an answer that is not an error. -/
private theorem keeps_of_answered {l : Lease} {answer : Except String Bool}
    (hl : h.lease = some l) (hloop : l.loop = .answered answer)
    (hok : ∀ err, answer ≠ .error err) : KeepsHeartbeat .beatAnswer h := by
  intro l' hl'
  rw [hl] at hl'
  cases hl'
  refine ⟨nofun, ?_⟩
  intro _ _ err herr
  rw [hloop] at herr
  cases herr
  exact hok err rfl

/-- **A step leaves a program without a heartbeat exactly if it starts one after
a heartbeat error or takes up such an error under it.** -/
theorem Move.executionLeased_iff (hm : Move db input h h') (he : h.LeaseExplained)
    (ho : h'.Ordinary)
    (hrow : ∀ job, h.phase = .marking job → (db.row job.id).isSome = true) :
    h'.ExecutionLeased ↔ KeepsHeartbeat input h := by
  have hother : input ≠ .mark .ok → input ≠ .beatAnswer → KeepsHeartbeat input h :=
    fun hmark hbeat _ _ => ⟨fun heq => absurd heq hmark, fun heq => absurd heq hbeat⟩
  cases hm with
  | selected _ _ | notFound _ _ | selectFailed _ | queued _ _ | queueFailed _ | observed _
  | panicked _ | busy _ _ | startFailed _ | ran _ _ _ | beatFailed _ _ _ | collected _ _
  | joined _ _ _ _ | cancelled _ _ _ | stored _ _ _ | storeFailed _ _ | granted _ _ =>
      exact iff_of_true (executionLeased_of_idle rfl) (hother (by simp) (by simp))
  | @marked _ job lease hphase hl =>
      have hold := he lease hl
      constructor
      · intro hleased l hl'
        rw [hl] at hl'
        cases hl'
        refine ⟨fun _ => ?_, nofun⟩
        -- a stored error means that the loop is over and nothing was cancelled
        by_contra herr
        obtain ⟨l, hl', hrenewed⟩ := hleased rfl
        have hsame : h.lease = some l := hl'
        rw [hl] at hsame
        cases hsame
        rcases hrenewed with hlive | hcancelled
        · exact herr (hold.live hlive).2
        · rw [hold.failed herr] at hcancelled
          cases hcancelled
      · intro hkeeps _
        refine ⟨lease, hl, ?_⟩
        by_cases hloop : lease.loop = .ended
        · rcases hold.ended (by rw [hphase]; rfl) hloop with hcancelled | herr
          · exact Or.inr hcancelled
          · exact absurd ((hkeeps lease hl).1 rfl) herr
        · exact Or.inl hloop
  | unsupported _ _ =>
      have hanswer := ho.answer _ _ _ rfl
      cases hanswer
  | @markFailed _ reply job lease err hphase hl hfail =>
      refine iff_of_true (executionLeased_of_idle rfl) (hother ?_ (by simp))
      intro heq
      cases heq
      have hsome := hrow job hphase
      rw [hfail rfl] at hsome
      cases hsome
  | beat hl hloop =>
      exact iff_of_true (fun _ => ⟨_, rfl, Or.inl nofun⟩) (hother (by simp) (by simp))
  | beatRenewed hl hloop =>
      exact iff_of_true (fun _ => ⟨_, rfl, Or.inl nofun⟩) (keeps_of_answered hl hloop nofun)
  | beatLost hl hloop =>
      exact iff_of_true (fun _ => ⟨_, rfl, Or.inr rfl⟩) (keeps_of_answered hl hloop nofun)
  | @beatError _ lease err hl hloop =>
      have hlive := (he lease hl).live (by rw [hloop]; exact nofun)
      constructor
      · intro hleased l hl'
        rw [hl] at hl'
        cases hl'
        refine ⟨nofun, ?_⟩
        intro _ hrunning _ _
        obtain ⟨l, hl', hrenewed⟩ := hleased hrunning
        cases hl'
        rcases hrenewed with hne | hcancelled
        · exact hne rfl
        · have hfalse : lease.cancelExecution = true := hcancelled
          rw [hlive.1] at hfalse
          cases hfalse
      · intro hkeeps hrunning
        exact absurd hloop ((hkeeps lease hl).2 rfl hrunning err)
  | @beatStopped _ lease hl hloop hcancel =>
      refine iff_of_true (executionLeased_of_idle ?_) (hother (by simp) (by simp))
      -- only a call past its execution has cancelled its loop
      change h.phase.isRunning = false
      by_contra hrunning
      have hexec : h.phase.executes = true := by
        cases hphase : h.phase <;> simp_all [Phase.isRunning, Phase.executes]
      rw [(he lease hl).uncancelled hexec (by rw [hloop]; exact nofun)] at hcancel
      cases hcancel
  | crashed h =>
      have hover : (if h.phase.jobId.isSome then Phase.crashed else h.phase).isRunning = false := by
        cases h.phase <;> rfl
      exact iff_of_true (executionLeased_of_idle hover) (hother (by simp) (by simp))

end Exactness

end Handler

namespace World

/-- **No program runs on under a lease nobody renews.**  While a call is inside
`run_rust`, its heartbeat loop is not over or its execution has been
cancelled. -/
def ExecutionsLeased (s : World) : Prop :=
  ∀ hd ∈ s.handlers, hd.ExecutionLeased

/-- No program is started after its heartbeat loop has ended on a database
error, and no such error ends the loop of a running one. -/
def KeepsHeartbeats (s : World) (a : Action) (_ : World) : Prop :=
  ∀ i input hd, a = .handler i input → s.handlers[i]? = some hd → hd.KeepsHeartbeat input

/-- The system with the leases of its calls explained. -/
structure LeasesExplained (s : World) : Prop where
  ordinary : s.Ordinary
  handlers : ∀ hd ∈ s.handlers, hd.LeaseExplained

theorem leasesExplained_empty (now : Time) : (empty now).LeasesExplained :=
  ⟨ordinary_empty now, by simp [empty]⟩

theorem leasesExplained_step (s : World) (a : Action) (s' : World) (hs : s.LeasesExplained)
    (h : s.step a = some s') : s'.LeasesExplained := by
  refine ⟨ordinary_step s a s' hs.ordinary h, ?_⟩
  intro hd' hmem
  rcases handler_origin h hmem with
    hold | ⟨payload, _, workerId, rfl⟩ | ⟨i, input, hd, eff, _, hhd, heff, rfl⟩
  · exact hs.handlers hd' hold
  · exact nofun
  · exact (Handler.step_move heff).leaseExplained (hs.handlers hd (List.mem_of_getElem? hhd))

/-- **Executions are leased exactly as long as no heartbeat error outruns
them.**  Along any run, every program in execution has a heartbeat loop or has
been cancelled, if and only if no program is started after its heartbeat loop
has ended on a database error and no such error ends the loop of a running
one. -/
theorem execution_leased_iff (now : Time) (as : List Action) :
    Runs.HoldsAlong step ExecutionsLeased (empty now) as ↔
      Runs.StepsMeet step KeepsHeartbeats (empty now) as := by
  refine Runs.holdsAlong_iff_stepsMeet leasesExplained_step ?_ (leasesExplained_empty now) ?_ as
  · intro s a s' hs hp h
    have hordinary := (ordinary_step s a s' hs.ordinary h).handlers
    have hexact : ∀ hd ∈ s.handlers, ∀ input, ∀ hd' ∈ s'.handlers, hd.Move s.db input hd' →
        (hd'.ExecutionLeased ↔ hd.KeepsHeartbeat input) := by
      intro hd hmem input hd' hmem' hm
      refine hm.executionLeased_iff (hs.handlers hd hmem) (hordinary hd' hmem') ?_
      intro job hphase
      have hprovenance := hs.ordinary.provenance
      exact hprovenance.stored _ (hprovenance.working hmem (by rw [hphase]; rfl))
    refine handlers_iff_of_step h ?_ hexact hp
    intro workerId payload hrunning
    cases payload <;> cases hrunning
  · intro hd hmem
    cases hmem

/-- A worker takes job `7`, and while its program runs a heartbeat meets a
broken connection. -/
def failedHeartbeat : List Action :=
  Action.submit 0 7 ++ [.deliver 0 "worker-1" false] ++ Action.start 0 100 ++
    [.handler 0 (.mark .ok), .handler 0 (.beat (.failed "connection reset by peer")),
      .handler 0 .beatAnswer]

/-- The program runs on, with no heartbeat and no cancellation. -/
theorem failed_heartbeat_leaves_execution :
    ¬ Runs.HoldsAlong step ExecutionsLeased (empty 0) failedHeartbeat := by
  intro h
  have hend : (Runs.exec step (empty 0) failedHeartbeat).map
      (fun s => s.handlers[0]?.map fun hd => (hd.phase.isRunning,
        hd.lease.map fun l => (l.loop.isEnded, l.cancelExecution))) =
      some (some (true, some (true, false))) := by decide
  obtain ⟨s, hrun, hs⟩ := Option.map_eq_some_iff.mp hend
  simp only [Option.map_eq_some_iff, Prod.mk.injEq] at hs
  obtain ⟨hd, hhd, hrunning, l, hl, hended, hcancel⟩ := hs
  obtain ⟨l', hl', hrenewed⟩ := h.final hrun hd (List.mem_of_getElem? hhd) hrunning
  rw [hl] at hl'
  cases hl'
  rcases hrenewed with hne | hcancelled
  · cases hloop : l.loop <;> simp_all [BeatLoop.isEnded]
  · rw [hcancel] at hcancelled
    cases hcancelled

end World

end EditorBack
