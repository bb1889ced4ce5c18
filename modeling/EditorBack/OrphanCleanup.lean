import EditorBack.OrphanContainers
import EditorBack.WithContainer

/-!
# The clean-up of orphan containers

`clean_orphan_containers` goes through the containers that `list_code_containers`
returns and makes up to nine calls for each: the question to the database, the
inspection, the removal, and the deletion of the workspace, which is tried again
while the directory is busy.  Every error behind the question is logged and
passed over, except that the workspace that was not found is unwrapped.

`orphans_handled_iff` says that this is what a clean-up can fail on: it handles
the whole list exactly if every container it inspects is still there with its
label.  `phase_of_run` ties the program to the clean-ups of the Docker host:
call by call they are in the same place.
-/

namespace EditorBack

open CallTree

/-- `std::io::Error`, as far as it is read. -/
structure IoError where
  rawOsError : Option Nat

/-- The calls of a clean-up. -/
inductive OrphanCall
  | docker (c : DockerCall)
  | isJobExecutionAlive (jobId : Uuid)
  | removeDirAll (path : String)
  | sleep (d : Time)

@[reducible] def OrphanCall.Answer : OrphanCall → Type
  | .docker c => c.Answer
  | .isJobExecutionAlive _ => Except String Bool
  | .removeDirAll _ => Except IoError Unit
  | .sleep _ => Unit

abbrev OrphanProg := Prog OrphanCall OrphanCall.Answer
abbrev OrphanEvent := Event OrphanCall OrphanCall.Answer

namespace OrphanCleanup

def ask (c : OrphanCall) : OrphanProg c.Answer :=
  Prog.perform c

section Listing

-- `Uuid::parse_str(value).ok()`
variable (parseStr : String → Option Uuid)

/-- What `list_code_containers` takes of one container: nothing without an id,
without labels or without a job. -/
def codeContainer (c : ContainerSummary) : Option Container := do
  let id ← c.id
  let labels ← c.labels
  let jobId ← (labels.lookup "oj.job_id").bind parseStr
  pure ⟨id, jobId⟩

/-- `list_code_containers`. -/
def listCodeContainers : OrphanProg (Except String (List Container)) := do
  let containers : Except String (List ContainerSummary) ←
    ask (.docker (.listContainers "managed-by=worker"))
  match containers with
  | .error err => pure (.error err)
  | .ok containers => pure (.ok (containers.filterMap (codeContainer parseStr)))

end Listing

/-- The label `oj.workspace` of an inspected container. -/
def workspaceLabel (container : ContainerInspect) : Option String :=
  match container.config with
  | some (some labels) => labels.lookup "oj.workspace"
  | some none | none => none

/-- `get_workspace_from_container`. -/
def getWorkspaceFromContainer (id : Uuid) : OrphanProg (Except String (Option String)) := do
  let container : Except String ContainerInspect ← ask (.docker (.inspectContainer id))
  match container with
  | .error err => pure (.error err)
  | .ok container => pure (.ok (workspaceLabel container))

/-- The loop of `remove_workspace` with some attempts left.  Error 16 is `EBUSY`. -/
def tryRemoveWorkspace (path : String) : Nat → OrphanProg Unit
  | 0 => pure ()
  | attempts + 1 => do
    let result : Except IoError Unit ← ask (.removeDirAll path)
    match result with
    | .ok () => pure ()
    | .error error =>
      if error.rawOsError = some 16 then do
        let _ ← ask (.sleep (seconds 200))
        tryRemoveWorkspace path attempts
      else pure ()

/-- `remove_workspace`. -/
def removeWorkspace (path : String) : OrphanProg Unit :=
  tryRemoveWorkspace path 5

/-- An error of `get_workspace_from_container` is logged and becomes `None`. -/
def orNone : Except String (Option String) → Option String
  | .ok path => path
  | .error _ => none

/-- The loop of `clean_orphan_containers`. -/
def cleanAll : List Container → OrphanProg (Except String Unit)
  | [] => pure (.ok ())
  | c :: rest => do
    let alive : Except String Bool ← ask (.isJobExecutionAlive c.jobId)
    match alive with
    | .error err => pure (.error err)
    | .ok true => cleanAll rest
    | .ok false =>
      let found ← getWorkspaceFromContainer c.id
      match orNone found with
      | none => .panic
      | some path =>
        let _ ← ask (.docker (.removeContainer c.id true))
        removeWorkspace path
        cleanAll rest

/-- `clean_orphan_containers`. -/
def cleanOrphanContainers (parseStr : String → Option Uuid) :
    OrphanProg (Except String Unit) := do
  let containers ← listCodeContainers parseStr
  match containers with
  | .error err => pure (.error err)
  | .ok containers => cleanAll containers

/-! ## What a clean-up has done -/

/-- The answer about a job. -/
def answered : OrphanEvent → Option (Uuid × Except String Bool)
  | ⟨.isJobExecutionAlive jobId, alive⟩ => some (jobId, alive)
  | _ => none

/-- The container whose forced removal is attempted. -/
def removedId : OrphanEvent → Option Uuid
  | ⟨.docker (.removeContainer id true), _⟩ => some id
  | _ => none

/-- The workspace whose deletion is attempted. -/
def deletedPath : OrphanEvent → Option String
  | ⟨.removeDirAll path, _⟩ => some path
  | _ => none

/-- What the inspection of a container says about its workspace. -/
def foundWorkspace : OrphanEvent → Option (Uuid × Option String)
  | ⟨.docker (.inspectContainer id), .ok container⟩ => some (id, workspaceLabel container)
  | ⟨.docker (.inspectContainer id), .error _⟩ => some (id, none)
  | _ => none

/-- What a clean-up does about one container. -/
inductive Handled (c : Container) (log : List OrphanEvent) : Prop
  /-- its job is alive, and nothing is removed -/
  | spared (hasked : log.filterMap answered = [(c.jobId, .ok true)])
      (hkept : log.filterMap removedId = []) (hundeleted : log.filterMap deletedPath = [])
  /-- its job is not alive, and it is removed, with no workspace but its own -/
  | removed (hasked : log.filterMap answered = [(c.jobId, .ok false)])
      (hremoved : log.filterMap removedId = [c.id])
      (hdeleted : ∀ path ∈ log.filterMap deletedPath,
        (c.id, some path) ∈ log.filterMap foundWorkspace)

/-- **The whole list is handled**: the clean-up returns `Ok`, and what it has done
falls into one piece for each container. -/
def HandlesAll (containers : List Container) (log : List OrphanEvent)
    (out : Option (Except String Unit)) : Prop :=
  out = some (.ok ()) ∧ ∃ pieces, log = pieces.flatten ∧ List.Forall₂ Handled containers pieces

/-- The questions to the database succeed. -/
def QueriesSucceed (log : List OrphanEvent) : Prop :=
  ∀ p ∈ log.filterMap answered, p.2.isOk = true

/-- Every container that is inspected is there, with the label of its workspace. -/
def WorkspacesFound (log : List OrphanEvent) : Prop :=
  ∀ p ∈ log.filterMap foundWorkspace, p.2.isSome = true

/-! ## The clean-ups of the Docker host -/

end OrphanCleanup

namespace Cleanup

/-- `check`, by its answer. -/
def checked (alive : Except String Bool) : Cleanup → Option Cleanup
  | .checking c rest =>
      some (match alive with
        | .ok true => proceed rest
        | .ok false => .inspecting c rest
        | .error err => .returned (.error err))
  | _ => none

/-- The database answers what its row says. -/
theorem check_eq_checked {db : Db} {reply : Reply} {c : Container} {rest : List Container} :
    (Cleanup.checking c rest).check db reply = (Cleanup.checking c rest).checked
      (reply.call db (db, .ok (JobStore.isJobExecutionAlive c.jobId db))).2 :=
  rfl

/-- Where the clean-up is after one more call. -/
def follow (phase : Cleanup) : OrphanEvent → Option Cleanup
  | ⟨.isJobExecutionAlive _, alive⟩ => phase.checked alive
  | ⟨.docker (.inspectContainer _), inspected⟩ =>
      phase.inspect (inspected.map OrphanCleanup.workspaceLabel)
  | ⟨.docker (.removeContainer _ _), _⟩ => phase.remove.map Prod.snd
  | ⟨.removeDirAll _, _⟩ | ⟨.sleep _, _⟩ => some phase
  | ⟨.docker _, _⟩ => none

/-- Where the clean-up ends. -/
def ended : Option (Except String Unit) → Cleanup
  | some result => .returned result
  | none => .panicked

end Cleanup

namespace OrphanCleanup

/-! ## How a clean-up goes -/

section Runs

variable {log : List OrphanEvent} {out : Option (Except String Unit)} {c : Container}
  {rest : List Container}

theorem run_ask_bind {β : Type} {call : OrphanCall} {g : call.Answer → OrphanProg β}
    {out : Option β} (h : Prog.Run (ask call >>= g) log out) :
    ∃ answer after, log = ⟨call, answer⟩ :: after ∧ Prog.Run (g answer) after out :=
  Prog.run_perform_bind.mp h

/-- Attempts to delete one workspace, and nothing else. -/
structure Deletes (path : String) (log : List OrphanEvent) : Prop where
  asks : log.filterMap answered = []
  removes : log.filterMap removedId = []
  inspects : log.filterMap foundWorkspace = []
  deletes : ∀ p ∈ log.filterMap deletedPath, p = path
  stays : ∀ phase : Cleanup, log.foldlM Cleanup.follow phase = some phase

/-- `remove_workspace` does not panic, and touches one workspace. -/
theorem run_tryRemoveWorkspace {path : String} {attempts : Nat} {out : Option Unit}
    (h : Prog.Run (tryRemoveWorkspace path attempts) log out) :
    out = some () ∧ Deletes path log := by
  induction attempts generalizing log with
  | zero =>
      obtain ⟨rfl, rfl⟩ := Prog.run_pure.mp h
      exact ⟨rfl, rfl, rfl, rfl, by simp, fun _ => rfl⟩
  | succ attempts ih =>
      obtain ⟨result, after, rfl, hafter⟩ := run_ask_bind h
      have hlast : ∀ {after : List OrphanEvent}, Deletes path after →
          Deletes path (⟨.removeDirAll path, result⟩ :: after) := by
        intro after hd
        refine ⟨hd.asks, hd.removes, hd.inspects, ?_, hd.stays⟩
        intro p hp
        rcases List.mem_cons.mp hp with rfl | hp
        · rfl
        · exact hd.deletes p hp
      cases result with
      | ok _ =>
          obtain ⟨rfl, rfl⟩ := Prog.run_pure.mp hafter
          exact ⟨rfl, hlast ⟨rfl, rfl, rfl, by simp, fun _ => rfl⟩⟩
      | error error =>
          dsimp only at hafter
          split at hafter
          · obtain ⟨slept, after, rfl, hretry⟩ := run_ask_bind hafter
            obtain ⟨rfl, hd⟩ := ih hretry
            exact ⟨rfl, hlast ⟨hd.asks, hd.removes, hd.inspects, hd.deletes, hd.stays⟩⟩
          · obtain ⟨rfl, rfl⟩ := Prog.run_pure.mp hafter
            exact ⟨rfl, hlast ⟨rfl, rfl, rfl, by simp, fun _ => rfl⟩⟩

/-- The turns of the loop. -/
inductive Turn (c : Container) (rest : List Container) :
    List OrphanEvent → Option (Except String Unit) → Prop
  | failed {err : String} : Turn c rest [⟨.isJobExecutionAlive c.jobId, .error err⟩]
      (some (.error err))
  | spared {after : List OrphanEvent} {out : Option (Except String Unit)}
      (hrest : Prog.Run (cleanAll rest) after out) :
      Turn c rest (⟨.isJobExecutionAlive c.jobId, .ok true⟩ :: after) out
  | panicked {inspected : Except String ContainerInspect}
      (hnone : foundWorkspace ⟨.docker (.inspectContainer c.id), inspected⟩ = some (c.id, none)) :
      Turn c rest [⟨.isJobExecutionAlive c.jobId, .ok false⟩,
        ⟨.docker (.inspectContainer c.id), inspected⟩] none
  | removed {inspected : Except String ContainerInspect} {path : String}
      {removal : Except String Unit} {deleting after : List OrphanEvent}
      {out : Option (Except String Unit)}
      (hsome : foundWorkspace ⟨.docker (.inspectContainer c.id), inspected⟩ =
        some (c.id, some path))
      (hdeletes : Deletes path deleting) (hrest : Prog.Run (cleanAll rest) after out) :
      Turn c rest (⟨.isJobExecutionAlive c.jobId, .ok false⟩ ::
        ⟨.docker (.inspectContainer c.id), inspected⟩ ::
        ⟨.docker (.removeContainer c.id true), removal⟩ :: deleting ++ after) out

theorem run_getWorkspaceFromContainer {id : Uuid}
    {out : Option (Except String (Option String))}
    (h : Prog.Run (getWorkspaceFromContainer id) log out) :
    ∃ inspected found, log = [⟨.docker (.inspectContainer id), inspected⟩] ∧
      out = some found ∧
      foundWorkspace ⟨.docker (.inspectContainer id), inspected⟩ = some (id, orNone found) := by
  obtain ⟨inspected, after, rfl, hafter⟩ := run_ask_bind h
  cases inspected with
  | error err =>
      obtain ⟨rfl, rfl⟩ := Prog.run_pure.mp hafter
      exact ⟨.error err, _, rfl, rfl, rfl⟩
  | ok container =>
      obtain ⟨rfl, rfl⟩ := Prog.run_pure.mp hafter
      exact ⟨.ok container, _, rfl, rfl, rfl⟩

/-- **What the loop does with its first container.** -/
theorem turn_of_run (h : Prog.Run (cleanAll (c :: rest)) log out) : Turn c rest log out := by
  obtain ⟨alive, after, rfl, hafter⟩ := run_ask_bind h
  rcases alive with err | _ | _
  · obtain ⟨rfl, rfl⟩ := Prog.run_pure.mp hafter
    exact .failed
  · rcases Prog.run_bind.mp hafter with ⟨_, after, found, rfl, hget, hfound⟩ | ⟨hget, _⟩
    · obtain ⟨inspected, _, rfl, hout, hlabel⟩ := run_getWorkspaceFromContainer hget
      cases hout
      cases hnone : orNone found with
      | none =>
          rw [hnone] at hlabel hfound
          obtain ⟨rfl, rfl⟩ := Prog.run_panic.mp hfound
          exact .panicked hlabel
      | some path =>
          rw [hnone] at hlabel hfound
          obtain ⟨removal, after, rfl, hremoved⟩ := run_ask_bind hfound
          rcases Prog.run_bind.mp hremoved with ⟨deleting, after, _, rfl, hdelete, hrest⟩ | ⟨hdelete, _⟩
          · exact .removed hlabel (run_tryRemoveWorkspace hdelete).2 hrest
          · cases (run_tryRemoveWorkspace hdelete).1
    · obtain ⟨_, _, _, hout, _⟩ := run_getWorkspaceFromContainer hget
      cases hout
  · exact .spared hafter

/-- The events about a container that is removed. -/
def removal (c : Container) (inspected : Except String ContainerInspect)
    (result : Except String Unit) (deleting : List OrphanEvent) : List OrphanEvent :=
  ⟨.isJobExecutionAlive c.jobId, .ok false⟩ :: ⟨.docker (.inspectContainer c.id), inspected⟩ ::
    ⟨.docker (.removeContainer c.id true), result⟩ :: deleting

theorem answered_removal {inspected : Except String ContainerInspect}
    {result : Except String Unit} {path : String} {deleting : List OrphanEvent}
    (h : Deletes path deleting) :
    (removal c inspected result deleting).filterMap answered = [(c.jobId, .ok false)] :=
  congrArg _ h.asks

theorem removedId_removal {inspected : Except String ContainerInspect}
    {result : Except String Unit} {path : String} {deleting : List OrphanEvent}
    (h : Deletes path deleting) :
    (removal c inspected result deleting).filterMap removedId = [c.id] :=
  congrArg _ h.removes

theorem foundWorkspace_removal {inspected : Except String ContainerInspect}
    {result : Except String Unit} {path : String} {deleting : List OrphanEvent}
    (hsome : foundWorkspace ⟨.docker (.inspectContainer c.id), inspected⟩ = some (c.id, some path))
    (h : Deletes path deleting) :
    (removal c inspected result deleting).filterMap foundWorkspace = [(c.id, some path)] := by
  have htail : (⟨.docker (.removeContainer c.id true), result⟩ :: deleting).filterMap
      foundWorkspace = [] := h.inspects
  rw [removal, List.filterMap_cons_none rfl, List.filterMap_cons_some hsome, htail]

/-- The loop returns `Ok` exactly if it finds the workspaces of all containers it
inspects. -/
theorem returns_iff {containers : List Container} (h : Prog.Run (cleanAll containers) log out)
    (hqueries : QueriesSucceed log) : out = some (.ok ()) ↔ WorkspacesFound log := by
  induction containers generalizing log with
  | nil =>
      obtain ⟨rfl, rfl⟩ := Prog.run_pure.mp h
      exact iff_of_true rfl (by simp [WorkspacesFound])
  | cons c rest ih =>
      cases turn_of_run h with
      | failed =>
          have hok := hqueries (c.jobId, _) (List.mem_singleton_self _)
          cases hok
      | @spared after _ hrest =>
          have hasked : QueriesSucceed after := fun p hp =>
            hqueries p (List.mem_cons_of_mem _ hp)
          change out = some (.ok ()) ↔ WorkspacesFound after
          exact ih hrest hasked
      | @panicked inspected hnone =>
          refine iff_of_false nofun ?_
          intro hfound
          have hsome := hfound (c.id, none) (by
            rw [List.filterMap_cons_none rfl, List.filterMap_cons_some hnone]
            exact List.mem_cons_self)
          cases hsome
      | @removed inspected path result deleting after _ hsome hdeletes hrest =>
          change QueriesSucceed (removal c inspected result deleting ++ after) at hqueries
          change _ ↔ WorkspacesFound (removal c inspected result deleting ++ after)
          have hasked : QueriesSucceed after := by
            intro p hp
            refine hqueries p ?_
            rw [List.filterMap_append]
            exact List.mem_append_right _ hp
          rw [ih hrest hasked, WorkspacesFound, WorkspacesFound, List.filterMap_append,
            foundWorkspace_removal hsome hdeletes]
          simp

/-- A loop that returns `Ok` has handled its containers one by one. -/
theorem pieces_of_run {containers : List Container} (h : Prog.Run (cleanAll containers) log out)
    (hout : out = some (.ok ())) :
    ∃ pieces, log = pieces.flatten ∧ List.Forall₂ Handled containers pieces := by
  induction containers generalizing log with
  | nil =>
      obtain ⟨rfl, _⟩ := Prog.run_pure.mp h
      exact ⟨[], rfl, .nil⟩
  | cons c rest ih =>
      cases turn_of_run h with
      | failed => cases hout
      | @spared after _ hrest =>
          obtain ⟨pieces, rfl, hpieces⟩ := ih hrest
          exact ⟨[⟨.isJobExecutionAlive c.jobId, .ok true⟩] :: pieces, rfl,
            .cons (.spared rfl rfl rfl) hpieces⟩
      | panicked _ => cases hout
      | @removed inspected path result deleting after _ hsome hdeletes hrest =>
          obtain ⟨pieces, rfl, hpieces⟩ := ih hrest
          refine ⟨removal c inspected result deleting :: pieces, rfl, .cons ?_ hpieces⟩
          refine .removed (answered_removal hdeletes) (removedId_removal hdeletes) ?_
          intro p hp
          have hpath : p = path := hdeletes.deletes p hp
          rw [foundWorkspace_removal hsome hdeletes, hpath]
          exact List.mem_singleton_self _

/-- **The clean-ups of the Docker host take the steps of the program**, and end as
it ends. -/
theorem phase_of_run {containers : List Container} (h : Prog.Run (cleanAll containers) log out) :
    log.foldlM Cleanup.follow (Cleanup.proceed containers) = some (Cleanup.ended out) := by
  induction containers generalizing log with
  | nil =>
      obtain ⟨rfl, rfl⟩ := Prog.run_pure.mp h
      rfl
  | cons c rest ih =>
      cases turn_of_run h with
      | failed => rfl
      | spared hrest => exact ih hrest
      | @panicked inspected hnone =>
          cases inspected with
          | ok container =>
              have hlabel : workspaceLabel container = none := by
                simpa [foundWorkspace] using hnone
              simp [Cleanup.follow, Cleanup.proceed, Cleanup.checked, Cleanup.inspect,
                Except.map, hlabel, Cleanup.ended]
          | error err => rfl
      | @removed inspected path result deleting after _ hsome hdeletes hrest =>
          cases inspected with
          | ok container =>
              have hlabel : workspaceLabel container = some path := by
                simpa [foundWorkspace] using hsome
              change (removal c (.ok container) result deleting ++ after).foldlM _ _ = _
              rw [List.foldlM_append]
              have hremoval : (removal c (.ok container) result deleting).foldlM Cleanup.follow
                  (Cleanup.proceed (c :: rest)) = some (Cleanup.proceed rest) := by
                simp [removal, Cleanup.follow, Cleanup.proceed, Cleanup.checked, Cleanup.inspect,
                  Cleanup.remove, Except.map, hlabel, hdeletes.stays]
              rw [hremoval]
              exact ih hrest
          | error err => cases hsome

/-- **A clean-up handles the whole list exactly if it finds every workspace.**
Whatever containers are listed and however the removals and deletions go: with
successful queries, `clean_orphan_containers` returns `Ok`, has attempted a forced
removal of exactly the listed containers whose job is not alive, and has touched
no workspace but theirs, if and only if each of these is still there when it is
inspected and has its label `oj.workspace`. -/
theorem orphans_handled_iff {parseStr : String → Option Uuid}
    {summaries : List ContainerSummary}
    (h : Prog.Run (cleanOrphanContainers parseStr)
      (⟨.docker (.listContainers "managed-by=worker"), .ok summaries⟩ :: log) out)
    (hqueries : QueriesSucceed log) :
    HandlesAll (summaries.filterMap (codeContainer parseStr)) log out ↔ WorkspacesFound log := by
  have hrun : Prog.Run (cleanAll (summaries.filterMap (codeContainer parseStr))) log out := by
    cases h with
    | call h => exact h
  rw [← returns_iff hrun hqueries, HandlesAll]
  exact and_iff_left_of_imp (pieces_of_run hrun)

end Runs

/-! ## Two containers of the workers -/

/-- Containers `900` of job `7` and `901` of job `8`. -/
def summaries : List ContainerSummary :=
  [⟨some 900, some [("managed-by", "worker"),
      ("oj.job_id", "00000000-0000-0000-0000-000000000007")]⟩,
    ⟨some 901, some [("managed-by", "worker"),
      ("oj.job_id", "00000000-0000-0000-0000-000000000008")]⟩]

def listed : OrphanEvent :=
  ⟨.docker (.listContainers "managed-by=worker"), .ok summaries⟩

/-- Job `7` is alive, and container `901` is removed with its workspace. -/
def cleanedLog : List OrphanEvent :=
  [⟨.isJobExecutionAlive 7, .ok true⟩, ⟨.isJobExecutionAlive 8, .ok false⟩,
    ⟨.docker (.inspectContainer 901),
      .ok ⟨none, some (some [("oj.workspace", "/workspaces/worker-1/8")])⟩⟩,
    ⟨.docker (.removeContainer 901 true), .ok ()⟩,
    ⟨.removeDirAll "/workspaces/worker-1/8", .error ⟨some 16⟩⟩, ⟨.sleep (seconds 200), ()⟩,
    ⟨.removeDirAll "/workspaces/worker-1/8", .ok ()⟩]

/-- Another worker has removed container `900` since the list. -/
def vanishedLog : List OrphanEvent :=
  [⟨.isJobExecutionAlive 7, .ok false⟩,
    ⟨.docker (.inspectContainer 900), .error "No such container: 900"⟩]

theorem run_cleaned :
    Prog.Run (cleanOrphanContainers Uuid.parseStr) (listed :: cleanedLog) (some (.ok ())) :=
  .call (.call (.call (.call (.call (.call (.call (.call (.ret _))))))))

theorem run_vanished :
    Prog.Run (cleanOrphanContainers Uuid.parseStr) (listed :: vanishedLog) none :=
  .call (.call (.call .panic))

/-- The list with a live and a dead job is handled. -/
theorem cleaned_orphans_handled :
    HandlesAll (summaries.filterMap (codeContainer Uuid.parseStr)) cleanedLog (some (.ok ())) := by
  have hqueries : QueriesSucceed cleanedLog := by
    simp [QueriesSucceed, cleanedLog, answered, Except.isOk, Except.toBool]
  have hfound : WorkspacesFound cleanedLog := by
    simp [WorkspacesFound, cleanedLog, foundWorkspace, workspaceLabel]
  exact (orphans_handled_iff run_cleaned hqueries).mpr hfound

/-- A container that vanishes before it is inspected ends the clean-up in a panic,
and the rest of the list is not handled. -/
theorem vanished_container_panics :
    ¬ ∀ parseStr containers log out, Prog.Run (cleanOrphanContainers parseStr)
      (⟨.docker (.listContainers "managed-by=worker"), .ok containers⟩ :: log) out →
        QueriesSucceed log → HandlesAll (containers.filterMap (codeContainer parseStr)) log out := by
  intro h
  have hqueries : QueriesSucceed vanishedLog := by
    simp [QueriesSucceed, vanishedLog, answered, Except.isOk, Except.toBool]
  have hhandled := h Uuid.parseStr summaries vanishedLog none run_vanished hqueries
  cases hhandled.1

end OrphanCleanup

end EditorBack
