import EditorBack.ExecutionLease

/-!
# Orphan containers

A worker that starts lists the containers the workers have created, asks the
database about the job each of them is labelled with, and removes those whose
job is not being executed.  Between the list, the question and the removal the
other workers go on.

`Host` puts the containers of the Docker host and any number of such clean-ups
next to the system.  A container belongs to the call that created it, and no
call enters a container it has not created, so a container found without a call
inside stays without one.  What a clean-up asks, though, is the row of the job,
and not the container: `get_and_queued` of another call makes that row
`Queued`, and a missed heartbeat makes it stale, while the program runs.
`cleanup_spares_executions` says that nothing is killed as long as the row of
every execution that is asked about reads as alive.
-/

namespace EditorBack

/-- The call has not entered `run_rust` yet. -/
def Phase.beforeRun : Phase → Bool
  | .selecting _ | .queuing _ | .observing _ | .starting _ | .marking _ => true
  | _ => false

/-- A call does not come back to before its `run_rust`. -/
theorem Handler.Move.beforeRun {db : Db} {input : HandlerInput} {h h' : Handler}
    (hm : Handler.Move db input h h') (hpast : h.phase.beforeRun = false) :
    h'.phase.beforeRun = false := by
  cases hm with
  | selected hp _ | queued hp _ | observed hp | granted hp _ =>
      rw [hp] at hpast
      cases hpast
  | beat _ _ | beatRenewed _ _ | beatLost _ _ | beatError _ _ | beatStopped _ _ _ => exact hpast
  | crashed h =>
      dsimp only
      split
      · rfl
      · exact hpast
  | _ => rfl

/-- A call inside `run_rust` was there, or was about to enter it. -/
theorem Handler.Move.isRunning {db : Db} {input : HandlerInput} {h h' : Handler}
    (hm : Handler.Move db input h h') (hrunning : h'.phase.isRunning = true) :
    h.phase.isRunning = true ∨ h.phase.beforeRun = true := by
  cases hm with
  | marked hp _ => exact Or.inr (by rw [hp]; rfl)
  | beat _ _ | beatRenewed _ _ | beatLost _ _ | beatError _ _ | beatStopped _ _ _ =>
      exact Or.inl hrunning
  | crashed h =>
      dsimp only at hrunning
      split at hrunning
      · cases hrunning
      · exact Or.inl hrunning
  | _ => cases hrunning

/-- A container with its label `oj.job_id`. -/
structure Container where
  id : Uuid
  jobId : Uuid

/-- Where a call stands in `with_container`, once it has created its container. -/
inductive Sandbox
  | created (container : Uuid)
  /-- the closure is running -/
  | started (container : Uuid)
  | left
  deriving DecidableEq

/-- The container a call is inside of. -/
def Sandbox.container : Sandbox → Option Uuid
  | .created c | .started c => some c
  | .left => none

/-- Where `clean_orphan_containers` stands. -/
inductive Cleanup
  /-- before `list_code_containers` -/
  | listing
  /-- before `is_job_execution_alive` -/
  | checking (container : Container) (rest : List Container)
  /-- before the container's workspace is looked up -/
  | inspecting (container : Container) (rest : List Container)
  /-- before `remove_container` -/
  | removing (container : Container) (rest : List Container)
  | returned (result : Except String Unit)
  | panicked
  | crashed

/-- The clean-up of one worker. -/
structure CleanupTask where
  workerId : String
  phase : Cleanup

/-- What the environment decides in one step of a clean-up. -/
inductive CleanupInput
  | list (result : Except String Unit)
  | check (reply : Reply)
  | inspect (workspace : Except String (Option String))
  | remove (reply : Reply)
  | crash

namespace Cleanup

/-- Go on with the rest of the list. -/
def proceed : List Container → Cleanup
  | [] => .returned (.ok ())
  | c :: rest => .checking c rest

/-- The containers the clean-up has ahead. -/
def pending : Cleanup → List Container
  | .checking c rest | .inspecting c rest | .removing c rest => c :: rest
  | .listing | .returned _ | .panicked | .crashed => []

/-- The container found without a live execution. -/
def condemned : Cleanup → Option Container
  | .inspecting c _ | .removing c _ => some c
  | _ => none

/-- `self.list_code_containers().await?` -/
def list (containers : List Container) (result : Except String Unit) : Cleanup → Option Cleanup
  | .listing =>
      some (match result with
        | .ok () => proceed containers
        | .error err => .returned (.error err))
  | _ => none

/-- `jobs.is_job_execution_alive(job_id).await?` -/
def check (db : Db) (reply : Reply) : Cleanup → Option Cleanup
  | .checking c rest =>
      some (match (reply.call db (db, .ok (JobStore.isJobExecutionAlive c.jobId db))).2 with
        | .ok true => proceed rest
        | .ok false => .inspecting c rest
        | .error err => .returned (.error err))
  | _ => none

/-- `get_workspace_from_container`; a failure becomes `None`, and `None` is
unwrapped. -/
def inspect (workspace : Except String (Option String)) : Cleanup → Option Cleanup
  | .inspecting c rest =>
      some (match workspace with
        | .ok (some _) => .removing c rest
        | .ok none | .error _ => .panicked)
  | _ => none

/-- `remove_container` by force; an error is logged. -/
def remove : Cleanup → Option (Container × Cleanup)
  | .removing c rest => some (c, proceed rest)
  | _ => none

@[simp] theorem pending_proceed (cs : List Container) : (proceed cs).pending = cs := by
  cases cs <;> rfl

@[simp] theorem condemned_proceed (cs : List Container) : (proceed cs).condemned = none := by
  cases cs <;> rfl

/-- A list puts the containers it has seen ahead. -/
theorem pending_of_list {containers : List Container} {result : Except String Unit}
    {p p' : Cleanup} (h : p.list containers result = some p') :
    (∀ c ∈ p'.pending, c ∈ containers) ∧ p'.condemned = none := by
  unfold list at h
  split at h
  · cases h
    cases result with
    | ok _ => simp
    | error err => simp [pending, condemned]
  · cases h

/-- A check puts nothing new ahead, and condemns what is answered not to be
alive. -/
theorem pending_of_check {db : Db} {reply : Reply} {p p' : Cleanup}
    (h : p.check db reply = some p') :
    (∀ c ∈ p'.pending, c ∈ p.pending) ∧
      ∀ c, p'.condemned = some c → ∃ rest, reply = .ok ∧ p = .checking c rest ∧
        JobStore.isJobExecutionAlive c.jobId db = false := by
  unfold check at h
  split at h
  · next c rest =>
      cases h
      cases reply with
      | ok =>
          dsimp only [Reply.call]
          cases halive : JobStore.isJobExecutionAlive c.jobId db with
          | true =>
              refine ⟨?_, by simp⟩
              intro c' hc'
              rw [pending_proceed] at hc'
              exact List.mem_cons_of_mem _ hc'
          | false =>
              refine ⟨fun _ hc' => hc', ?_⟩
              intro c' hc'
              cases hc'
              exact ⟨rest, rfl, rfl, halive⟩
      | failed err => exact ⟨by simp [Reply.call, pending], by simp [Reply.call, condemned]⟩
      | lost err => exact ⟨by simp [Reply.call, pending], by simp [Reply.call, condemned]⟩
  · cases h

/-- Looking up the workspace keeps the container condemned, or panics. -/
theorem pending_of_inspect {workspace : Except String (Option String)} {p p' : Cleanup}
    (h : p.inspect workspace = some p') :
    (∀ c ∈ p'.pending, c ∈ p.pending) ∧
      ∀ c, p'.condemned = some c → p.condemned = some c := by
  unfold inspect at h
  split at h
  · cases h
    split
    · exact ⟨fun _ hc => hc, fun _ hc => hc⟩
    · simp [pending, condemned]
    · simp [pending, condemned]
  · cases h

/-- A removal goes on to the next container. -/
theorem pending_of_remove {p p' : Cleanup} {c : Container} (h : p.remove = some (c, p')) :
    (∀ c ∈ p'.pending, c ∈ p.pending) ∧ p'.condemned = none := by
  unfold remove at h
  split at h
  · cases h
    refine ⟨?_, by simp⟩
    intro c' hc'
    rw [pending_proceed] at hc'
    exact List.mem_cons_of_mem _ hc'
  · cases h

end Cleanup

/-- The system on a Docker host, with the clean-ups of starting workers. -/
structure Host where
  world : World
  containers : List Container
  /-- the ids of all containers created so far -/
  created : List Uuid
  /-- where each call stands in `with_container` -/
  sandboxes : Nat → Option Sandbox
  cleanups : List CleanupTask

inductive HostAction
  | system (a : Action)
  | create (i : Nat) (container : Uuid)
  | start (i : Nat)
  | leave (i : Nat) (removed : Bool)
  | spawnCleanup (workerId : String)
  | cleanup (k : Nat) (input : CleanupInput)

namespace Host

def empty (now : Time) : Host where
  world := .empty now
  containers := []
  created := []
  sandboxes := fun _ => none
  cleanups := []

/-- The job call `i` is running. -/
def runningJob (s : Host) (i : Nat) : Option Job :=
  (s.world.handlers[i]?).bind fun hd =>
    match hd.phase with
    | .running job => some job
    | _ => none

/-- Call `i` is inside `with_container`. -/
def inside (s : Host) (i : Nat) : Bool :=
  ((s.sandboxes i).bind Sandbox.container).isSome

/-- A step of the system.  `run_rust` returns after `with_container` has. -/
def stepSystem (a : Action) (s : Host) : Option Host :=
  match a with
  | .handler i (.runRust _) =>
      if s.inside i then none else (s.world.step a).map fun w => { s with world := w }
  | _ => (s.world.step a).map fun w => { s with world := w }

/-- `create_container`, under an id not used before. -/
def stepCreate (i : Nat) (container : Uuid) (s : Host) : Option Host :=
  (s.runningJob i).bind fun job =>
    if (s.sandboxes i).isSome || container ∈ s.created then none
    else some
      { s with
        containers := ⟨container, job.id⟩ :: s.containers
        created := container :: s.created
        sandboxes := fun n => if n = i then some (.created container) else s.sandboxes n }

/-- `start_container`. -/
def stepStart (i : Nat) (s : Host) : Option Host :=
  (s.runningJob i).bind fun _ =>
    match s.sandboxes i with
    | some (.created c) =>
        some { s with sandboxes := fun n => if n = i then some (.started c) else s.sandboxes n }
    | _ => none

/-- The end of `with_container`: after `clean_up`, which may fail to remove the
container, or after a failed creation or start, which leaves it behind. -/
def stepLeave (i : Nat) (removed : Bool) (s : Host) : Option Host :=
  (s.runningJob i).bind fun _ =>
    ((s.sandboxes i).bind Sandbox.container).map fun c =>
      { s with
        containers := if removed then s.containers.filter (·.id ≠ c) else s.containers
        sandboxes := fun n => if n = i then some .left else s.sandboxes n }

/-- One step of a clean-up. -/
def stepCleanup (k : Nat) (input : CleanupInput) (s : Host) : Option Host :=
  (s.cleanups[k]?).bind fun task =>
    let goto := fun phase => { s with cleanups := s.cleanups.set k { task with phase := phase } }
    match input with
    | .list result => (task.phase.list s.containers result).map goto
    | .check reply => (task.phase.check s.world.db reply).map goto
    | .inspect workspace => (task.phase.inspect workspace).map goto
    | .remove reply =>
        task.phase.remove.map fun res =>
          { goto res.2 with
            containers :=
              if reply.executed then s.containers.filter (·.id ≠ res.1.id) else s.containers }
    | .crash => some (goto .crashed)

def step (s : Host) : HostAction → Option Host
  | .system a => s.stepSystem a
  | .create i container => s.stepCreate i container
  | .start i => s.stepStart i
  | .leave i removed => s.stepLeave i removed
  | .spawnCleanup workerId => some { s with cleanups := s.cleanups ++ [⟨workerId, .listing⟩] }
  | .cleanup k input => s.stepCleanup k input

/-- Some call of another worker than `workerId` is inside container `c`, and
alive. -/
def Inhabited (s : Host) (workerId : String) (c : Uuid) : Prop :=
  ∃ i hd sandbox, s.world.handlers[i]? = some hd ∧ hd.workerId ≠ workerId ∧
    hd.phase.isRunning = true ∧ s.sandboxes i = some sandbox ∧ sandbox.container = some c

/-- Some call of another worker than `workerId` is executing user code in
container `c`. -/
def Executing (s : Host) (workerId : String) (c : Uuid) : Prop :=
  ∃ i hd, s.world.handlers[i]? = some hd ∧ hd.workerId ≠ workerId ∧
    hd.phase.isRunning = true ∧ s.sandboxes i = some (.started c)

instance (s : Host) (workerId : String) (c : Uuid) : Decidable (s.Inhabited workerId c) :=
  decidable_of_iff
    (∃ i < s.world.handlers.length, ∃ hd ∈ s.world.handlers[i]?, hd.workerId ≠ workerId ∧
      hd.phase.isRunning = true ∧ ∃ sandbox ∈ s.sandboxes i, sandbox.container = some c) (by
    constructor
    · rintro ⟨i, _, hd, hhd, hworker, hrunning, sandbox, hsandbox, hc⟩
      exact ⟨i, hd, sandbox, hhd, hworker, hrunning, hsandbox, hc⟩
    · rintro ⟨i, hd, sandbox, hhd, hworker, hrunning, hsandbox, hc⟩
      exact ⟨i, (List.getElem?_eq_some_iff.mp hhd).1, hd, hhd, hworker, hrunning, sandbox,
        hsandbox, hc⟩)

instance (s : Host) (workerId : String) (c : Uuid) : Decidable (s.Executing workerId c) :=
  decidable_of_iff
    (∃ i < s.world.handlers.length, ∃ hd ∈ s.world.handlers[i]?, hd.workerId ≠ workerId ∧
      hd.phase.isRunning = true ∧ s.sandboxes i = some (.started c)) (by
    constructor
    · rintro ⟨i, _, hd, hhd, hworker, hrunning, hsandbox⟩
      exact ⟨i, hd, hhd, hworker, hrunning, hsandbox⟩
    · rintro ⟨i, hd, hhd, hworker, hrunning, hsandbox⟩
      exact ⟨i, (List.getElem?_eq_some_iff.mp hhd).1, hd, hhd, hworker, hrunning, hsandbox⟩)

/-- The container that clean-up `k` is about to remove by force. -/
def removed (s : Host) : HostAction → Option (String × Container)
  | .cleanup k (.remove reply) =>
      (s.cleanups[k]?).bind fun task =>
        match task.phase with
        | .removing c _ => if reply.executed then some (task.workerId, c) else none
        | _ => none
  | _ => none

/-- The container about whose job a clean-up is answered. -/
def asked (s : Host) : HostAction → Option (String × Container)
  | .cleanup k (.check .ok) =>
      (s.cleanups[k]?).bind fun task =>
        match task.phase with
        | .checking c _ => some (task.workerId, c)
        | _ => none
  | _ => none

/-- A forced removal hits no container in which another worker executes user
code. -/
def RemovalsSpare (s : Host) (a : HostAction) (_ : Host) : Prop :=
  ∀ p ∈ s.removed a, ¬ s.Executing p.1 p.2.id

/-- A clean-up that asks about the job of a container with a call of another
worker inside is told that the job is alive. -/
def ChecksFindAlive (s : Host) (a : HostAction) (_ : Host) : Prop :=
  ∀ p ∈ s.asked a, s.Inhabited p.1 p.2.id →
    JobStore.isJobExecutionAlive p.2.jobId s.world.db = true

instance (s : Host) (a : HostAction) (s' : Host) : Decidable (RemovalsSpare s a s') :=
  inferInstanceAs (Decidable (∀ p ∈ s.removed a, ¬ s.Executing p.1 p.2.id))

instance (s : Host) (a : HostAction) (s' : Host) : Decidable (ChecksFindAlive s a s') :=
  inferInstanceAs (Decidable (∀ p ∈ s.asked a, s.Inhabited p.1 p.2.id →
    JobStore.isJobExecutionAlive p.2.jobId s.world.db = true))

/-! ## Clean-ups -/

/-- What one step of a clean-up does: it touches no call, and it condemns a
container only on the answer that its job is not alive. -/
theorem stepCleanup_spec {s s' : Host} {k : Nat} {input : CleanupInput}
    (h : s.stepCleanup k input = some s') :
    s'.world = s.world ∧ s'.sandboxes = s.sandboxes ∧ s'.created = s.created ∧
      (∀ c ∈ s'.containers, c ∈ s.containers) ∧
      ∃ task phase, s.cleanups[k]? = some task ∧
        s'.cleanups = s.cleanups.set k ⟨task.workerId, phase⟩ ∧
        (∀ c ∈ phase.pending, c ∈ task.phase.pending ∨ c ∈ s.containers) ∧
        ∀ c, phase.condemned = some c → task.phase.condemned = some c ∨
          ∃ rest, input = .check .ok ∧ task.phase = .checking c rest ∧
            JobStore.isJobExecutionAlive c.jobId s.world.db = false := by
  obtain ⟨task, htask, h⟩ := Option.bind_eq_some_iff.mp h
  cases input with
  | list result =>
      obtain ⟨phase, hphase, rfl⟩ := Option.map_eq_some_iff.mp h
      obtain ⟨hpending, hnone⟩ := Cleanup.pending_of_list hphase
      refine ⟨rfl, rfl, rfl, fun _ hc => hc, task, phase, htask, rfl,
        fun c hc => Or.inr (hpending c hc), ?_⟩
      intro c hc
      rw [hnone] at hc
      cases hc
  | check reply =>
      obtain ⟨phase, hphase, rfl⟩ := Option.map_eq_some_iff.mp h
      obtain ⟨hpending, hcondemned⟩ := Cleanup.pending_of_check hphase
      refine ⟨rfl, rfl, rfl, fun _ hc => hc, task, phase, htask, rfl,
        fun c hc => Or.inl (hpending c hc), ?_⟩
      intro c hc
      obtain ⟨rest, rfl, hchecking, hdead⟩ := hcondemned c hc
      exact Or.inr ⟨rest, rfl, hchecking, hdead⟩
  | inspect workspace =>
      obtain ⟨phase, hphase, rfl⟩ := Option.map_eq_some_iff.mp h
      obtain ⟨hpending, hcondemned⟩ := Cleanup.pending_of_inspect hphase
      exact ⟨rfl, rfl, rfl, fun _ hc => hc, task, phase, htask, rfl,
        fun c hc => Or.inl (hpending c hc), fun c hc => Or.inl (hcondemned c hc)⟩
  | remove reply =>
      obtain ⟨⟨c₀, phase⟩, hphase, rfl⟩ := Option.map_eq_some_iff.mp h
      obtain ⟨hpending, hnone⟩ := Cleanup.pending_of_remove hphase
      refine ⟨rfl, rfl, rfl, ?_, task, phase, htask, rfl, fun c hc => Or.inl (hpending c hc), ?_⟩
      · intro c hc
        dsimp only at hc
        split at hc
        · exact List.mem_of_mem_filter hc
        · exact hc
      · intro c hc
        rw [hnone] at hc
        cases hc
  | crash =>
      cases h
      exact ⟨rfl, rfl, rfl, fun _ hc => hc, task, .crashed, htask, rfl, nofun, nofun⟩

/-! ## Who is inside a container -/

/-- The host against its clean-ups. -/
structure Sound (s : Host) : Prop where
  /-- a call has no container before it is inside `run_rust` -/
  entered : ∀ i, s.sandboxes i ≠ none →
    ∃ hd, s.world.handlers[i]? = some hd ∧ hd.phase.beforeRun = false
  /-- the ids of containers are never used again -/
  existing : ∀ c ∈ s.containers, c.id ∈ s.created
  listed : ∀ task ∈ s.cleanups, ∀ c ∈ task.phase.pending, c.id ∈ s.created
  /-- no call of another worker is inside a condemned container -/
  condemned : ∀ task ∈ s.cleanups, ∀ c, task.phase.condemned = some c →
    ¬ s.Inhabited task.workerId c.id

section Steps

variable {s s' : Host}

/-- The containers of a call that has not entered `run_rust` are none. -/
theorem Sound.not_beforeRun (hs : s.Sound) {i : Nat} {hd : Handler}
    (hhd : s.world.handlers[i]? = some hd) (hsome : s.sandboxes i ≠ none) :
    hd.phase.beforeRun = false := by
  obtain ⟨hd₀, hhd₀, hpast⟩ := hs.entered i hsome
  rw [hhd] at hhd₀
  cases hhd₀
  exact hpast

/-- A step that lets no call into a container, and condemns none but empty
ones. -/
private theorem Sound.step (hs : s.Sound)
    (hentered : ∀ i, s'.sandboxes i ≠ none →
      ∃ hd, s'.world.handlers[i]? = some hd ∧ hd.phase.beforeRun = false)
    (hexisting : ∀ c ∈ s'.containers, c.id ∈ s'.created)
    (hcreated : ∀ id ∈ s.created, id ∈ s'.created) (hcleanups : s'.cleanups = s.cleanups)
    (hinside : ∀ workerId c, c ∈ s.created → s'.Inhabited workerId c → s.Inhabited workerId c) :
    s'.Sound := by
  refine ⟨hentered, hexisting, ?_, ?_⟩
  · rw [hcleanups]
    exact fun task htask c hc => hcreated _ (hs.listed task htask c hc)
  · rw [hcleanups]
    intro task htask c hc hin
    refine hs.condemned task htask c hc (hinside _ _ ?_ hin)
    apply hs.listed task htask c
    cases hphase : task.phase with
    | inspecting c' rest =>
        rw [hphase] at hc
        cases hc
        exact List.mem_cons_self
    | removing c' rest =>
        rw [hphase] at hc
        cases hc
        exact List.mem_cons_self
    | _ =>
        rw [hphase] at hc
        cases hc

theorem stepSystem_spec {a : Action} (h : s.stepSystem a = some s') :
    ∃ w, s.world.step a = some w ∧ s' = { s with world := w } := by
  unfold stepSystem at h
  split at h
  · split at h
    · cases h
    · obtain ⟨w, hw, rfl⟩ := Option.map_eq_some_iff.mp h
      exact ⟨w, hw, rfl⟩
  · obtain ⟨w, hw, rfl⟩ := Option.map_eq_some_iff.mp h
    exact ⟨w, hw, rfl⟩

/-- No step of the system puts a call into a container. -/
private theorem sound_system {a : Action} (hs : s.Sound) (h : s.stepSystem a = some s') :
    s'.Sound := by
  obtain ⟨w, hw, rfl⟩ := stepSystem_spec h
  refine hs.step ?_ hs.existing (fun _ hid => hid) rfl ?_
  · intro i hsome
    obtain ⟨hd, hhd, hpast⟩ := hs.entered i hsome
    have hlt : i < w.handlers.length :=
      Nat.lt_of_lt_of_le (List.getElem?_eq_some_iff.mp hhd).1 (World.handlers_length_le hw)
    obtain ⟨hd', hhd'⟩ : ∃ hd', w.handlers[i]? = some hd' := ⟨_, List.getElem?_eq_getElem hlt⟩
    refine ⟨hd', hhd', ?_⟩
    rcases World.handler_at_step hw hhd' with hsame | ⟨hnone, _⟩ | ⟨input, hd₀, hhd₀, hm⟩
    · rw [hhd] at hsame
      cases hsame
      exact hpast
    · rw [hhd] at hnone
      cases hnone
    · rw [hhd] at hhd₀
      cases hhd₀
      exact hm.beforeRun hpast
  · intro workerId c _ hin
    obtain ⟨i, hd', sandbox, hhd', hworker, hrunning, hsandbox, hc⟩ := hin
    have hsome : s.sandboxes i ≠ none := by
      intro hnone
      have hboth : s.sandboxes i = some sandbox := hsandbox
      rw [hnone] at hboth
      cases hboth
    rcases World.handler_at_step hw hhd' with hsame | ⟨_, workerId', payload, rfl⟩ |
      ⟨input, hd, hhd, hm⟩
    · exact ⟨i, hd', sandbox, hsame, hworker, hrunning, hsandbox, hc⟩
    · cases payload <;> cases hrunning
    · refine ⟨i, hd, sandbox, hhd, by rw [← hm.workerId]; exact hworker, ?_, hsandbox, hc⟩
      rcases hm.isRunning hrunning with hold | hbefore
      · exact hold
      · rw [hs.not_beforeRun hhd hsome] at hbefore
        cases hbefore

/-- A call that is running a job is past its `try_start`. -/
private theorem beforeRun_of_runningJob {i : Nat} {job : Job} (h : s.runningJob i = some job) :
    ∃ hd, s.world.handlers[i]? = some hd ∧ hd.phase.beforeRun = false := by
  obtain ⟨hd, hhd, h⟩ := Option.bind_eq_some_iff.mp h
  split at h
  · next job' hphase => exact ⟨hd, hhd, by rw [hphase]; rfl⟩
  · cases h

/-- One call moves on in `with_container`, and the others stay. -/
private theorem sound_sandbox (hs : s.Sound) {i : Nat} {job : Job} {sandbox : Sandbox}
    (hjob : s.runningJob i = some job) (hworld : s'.world = s.world)
    (hcleanups : s'.cleanups = s.cleanups)
    (hsandboxes : s'.sandboxes = fun n => if n = i then some sandbox else s.sandboxes n)
    (hexisting : ∀ c ∈ s'.containers, c.id ∈ s'.created)
    (hcreated : ∀ id ∈ s.created, id ∈ s'.created)
    (hinside : ∀ c ∈ s.created, sandbox.container = some c →
      ∃ old, s.sandboxes i = some old ∧ old.container = some c) : s'.Sound := by
  refine hs.step ?_ hexisting hcreated hcleanups ?_
  · intro n hsome
    rw [hworld]
    by_cases hn : n = i
    · rw [hn]
      exact beforeRun_of_runningJob hjob
    · apply hs.entered n
      simpa [hsandboxes, hn] using hsome
  · intro workerId c hc hin
    obtain ⟨n, hd, sb, hhd, hworker, hrunning, hsandbox, hcontainer⟩ := hin
    rw [hworld] at hhd
    rw [hsandboxes] at hsandbox
    by_cases hn : n = i
    · subst hn
      simp only [if_true] at hsandbox
      cases hsandbox
      obtain ⟨old, hold, hcold⟩ := hinside c hc hcontainer
      exact ⟨n, hd, old, hhd, hworker, hrunning, hold, hcold⟩
    · simp only [hn, if_false] at hsandbox
      exact ⟨n, hd, sb, hhd, hworker, hrunning, hsandbox, hcontainer⟩

private theorem sound_create {i : Nat} {container : Uuid} (hs : s.Sound)
    (h : s.stepCreate i container = some s') : s'.Sound := by
  obtain ⟨job, hjob, h⟩ := Option.bind_eq_some_iff.mp h
  split at h
  · cases h
  · next hfresh =>
      cases h
      simp only [Bool.or_eq_true, decide_eq_true_eq, not_or] at hfresh
      refine sound_sandbox hs hjob rfl rfl rfl ?_ (fun _ hid => List.mem_cons_of_mem _ hid) ?_
      · intro c hc
        rcases List.mem_cons.mp hc with rfl | hold
        · exact List.mem_cons_self
        · exact List.mem_cons_of_mem _ (hs.existing c hold)
      · -- the new container is not one of those listed before
        intro c hc hcontainer
        cases hcontainer
        exact absurd hc hfresh.2

private theorem sound_start {i : Nat} (hs : s.Sound) (h : s.stepStart i = some s') :
    s'.Sound := by
  obtain ⟨job, hjob, h⟩ := Option.bind_eq_some_iff.mp h
  split at h
  · next c hsandbox =>
      cases h
      refine sound_sandbox hs hjob rfl rfl rfl hs.existing (fun _ hid => hid) ?_
      intro c' _ hcontainer
      exact ⟨_, hsandbox, hcontainer⟩
  · cases h

private theorem sound_leave {i : Nat} {removed : Bool} (hs : s.Sound)
    (h : s.stepLeave i removed = some s') : s'.Sound := by
  obtain ⟨job, hjob, h⟩ := Option.bind_eq_some_iff.mp h
  obtain ⟨c, _, rfl⟩ := Option.map_eq_some_iff.mp h
  refine sound_sandbox hs hjob rfl rfl rfl ?_ (fun _ hid => hid) (fun _ _ hnone => by cases hnone)
  intro c' hc'
  dsimp only at hc'
  split at hc'
  · exact hs.existing c' (List.mem_of_mem_filter hc')
  · exact hs.existing c' hc'

/-- A clean-up that is told the truth condemns only what nobody is inside of. -/
private theorem sound_cleanup {k : Nat} {input : CleanupInput} (hs : s.Sound)
    (h : s.stepCleanup k input = some s') (hcond : ChecksFindAlive s (.cleanup k input) s') :
    s'.Sound := by
  obtain ⟨hworld, hsandboxes, hcreated, hcontainers, task, phase, htask, hcleanups, hpending,
    hcondemned⟩ := stepCleanup_spec h
  have hmem : task ∈ s.cleanups := List.mem_of_getElem? htask
  have hin : ∀ workerId c, s'.Inhabited workerId c ↔ s.Inhabited workerId c := by
    intro workerId c
    simp only [Inhabited, hworld, hsandboxes]
  refine ⟨?_, ?_, ?_, ?_⟩
  · rw [hworld, hsandboxes]
    exact hs.entered
  · rw [hcreated]
    exact fun c hc => hs.existing c (hcontainers c hc)
  · rw [hcleanups, hcreated]
    intro task' htask' c hc
    rcases List.mem_or_eq_of_mem_set htask' with hold | rfl
    · exact hs.listed task' hold c hc
    · rcases hpending c hc with hahead | hexists
      · exact hs.listed task hmem c hahead
      · exact hs.existing c hexists
  · rw [hcleanups]
    intro task' htask' c hc
    rw [hin]
    rcases List.mem_or_eq_of_mem_set htask' with hold | rfl
    · exact hs.condemned task' hold c hc
    · rcases hcondemned c hc with hbefore | ⟨rest, rfl, hchecking, hdead⟩
      · exact hs.condemned task hmem c hbefore
      · intro hinside
        have hasked : s.asked (.cleanup k (.check .ok)) = some (task.workerId, c) := by
          simp only [asked, htask, hchecking, Option.bind_some]
        rw [hcond _ hasked hinside] at hdead
        cases hdead

end Steps

/-- What is removed by force had been condemned. -/
theorem condemned_of_removed {s : Host} {a : HostAction} {p : String × Container}
    (h : s.removed a = some p) :
    ∃ task c, task ∈ s.cleanups ∧ task.phase.condemned = some c ∧ p = (task.workerId, c) := by
  unfold removed at h
  split at h
  · obtain ⟨task, htask, h⟩ := Option.bind_eq_some_iff.mp h
    split at h
    · next c rest hphase =>
        split at h
        · cases h
          exact ⟨task, c, List.mem_of_getElem? htask, by rw [hphase]; rfl, rfl⟩
        · cases h
    · cases h
  · cases h

theorem sound_empty (now : Time) : (empty now).Sound := by
  refine ⟨?_, ?_, ?_, ?_⟩ <;> simp [empty]

/-- **While checks find executions alive, condemned containers stay empty.** -/
theorem sound_step (s : Host) (a : HostAction) (s' : Host) (hs : s.Sound)
    (h : s.step a = some s') (hcond : ChecksFindAlive s a s') : s'.Sound := by
  cases a with
  | system a => exact sound_system hs h
  | create i container => exact sound_create hs h
  | start i => exact sound_start hs h
  | leave i removed => exact sound_leave hs h
  | spawnCleanup workerId =>
      cases h
      refine ⟨hs.entered, hs.existing, ?_, ?_⟩
      · intro task htask c hc
        rcases List.mem_append.mp htask with hold | hnew
        · exact hs.listed task hold c hc
        · cases List.mem_singleton.mp hnew
          cases hc
      · intro task htask c hc
        rcases List.mem_append.mp htask with hold | hnew
        · exact hs.condemned task hold c hc
        · cases List.mem_singleton.mp hnew
          cases hc
  | cleanup k input => exact sound_cleanup hs h hcond

/-- **Clean-ups kill no execution whose row reads as alive.**  In any run in
which a clean-up that asks about a container with a call of another worker
inside is told that the job is alive, no forced removal hits a container in
which another worker executes user code. -/
theorem cleanup_spares_executions (now : Time) (as : List HostAction)
    (hcond : Runs.StepsMeet step ChecksFindAlive (empty now) as) :
    Runs.StepsMeet step RemovalsSpare (empty now) as := by
  have hinv := Runs.holdsAlong_of_stepsMeet sound_step (sound_empty now) hcond
  refine Runs.StepsMeet.of_holdsAlong ?_ hinv hcond
  intro s a s' hs _ _ p hp hexecuting
  obtain ⟨task, c, htask, hcondemned, rfl⟩ := condemned_of_removed hp
  obtain ⟨i, hd, hhd, hworker, hrunning, hsandbox⟩ := hexecuting
  exact hs.condemned task htask c hcondemned
    ⟨i, hd, .started c.id, hhd, hworker, hrunning, hsandbox, rfl⟩

/-- Worker-2 takes job `8` and dies inside container `901`; forty seconds later
worker-1 runs job `7` in container `900`. -/
def diedInContainer : List HostAction :=
  (Action.submit 0 8 ++ Action.submit 1 7 ++ [Action.deliver 1 "worker-2" false] ++
    Action.start 0 100 ++ [Action.handler 0 (.mark .ok)]).map .system ++
  [.create 0 901, .start 0, .system (.handler 0 .crash), .system (.advance (seconds 40))] ++
  (Action.deliver 1 "worker-1" true :: Action.start 1 101 ++
    [Action.handler 1 (.mark .ok)]).map .system ++
  [.create 1 900, .start 1]

/-- Worker-3 finds container `900` in use and removes container `901`. -/
theorem cleanup_removes_orphan :
    Runs.StepsMeet step RemovalsSpare (empty 0) (diedInContainer ++
      [.spawnCleanup "worker-3", .cleanup 0 (.list (.ok ())), .cleanup 0 (.check .ok),
        .cleanup 0 (.check .ok), .cleanup 0 (.inspect (.ok (some "/tmp/job"))),
        .cleanup 0 (.remove .ok)]) :=
  cleanup_spares_executions 0 _ (by decide)

/-- The message of a job that is being executed comes again: the second call
puts the row back to `Queued`, and a worker that starts at that moment removes
the container under the program. -/
theorem queued_execution_killed :
    ¬ Runs.StepsMeet step RemovalsSpare (empty 0) (diedInContainer ++
      [.system (.deliver 1 "worker-2" false), .system (.handler 2 (.select .ok)),
        .system (.handler 2 (.queue .ok)),
        .spawnCleanup "worker-3", .cleanup 0 (.list (.ok ())), .cleanup 0 (.check .ok),
        .cleanup 0 (.inspect (.ok (some "/tmp/job"))), .cleanup 0 (.remove .ok)]) := by
  decide

end Host

end EditorBack
