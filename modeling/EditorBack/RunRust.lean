import EditorBack.EventOrder
import EditorBack.WithContainer

/-!
# `run_rust` as a whole

`run_rust` sets up a workspace, writes the source into it, and runs the closure in a
container that sees the workspace.  It makes calls to the file system and calls of
`with_container`.  The workspace is a guard: `Drop` removes its directory when
`run_rust` ends, and the `TempDir` inside it tries once more.

`runRust_exact`: the results of the program are those that `runRust` computes from the
answers of the calls, as a run has them on record, and it never panics.
`workspace_reclaimed`: whatever fails, the directory of the workspace is removed after
everything else.  `execution_gated`: a program is executed at most once, in the container
that was started for it, behind its compiler and with its own source.
-/

namespace EditorBack

open CallTree EventOrder
open DockerRunner (ClosureCall)

/-- The calls to the file system and the environment. -/
inductive FsCall
  | isDir (path : String)
  /-- `DirBuilder::new().recursive(true).create` -/
  | createDirAll (path : String)
  /-- `tempdir_in`, which answers the name it has chosen -/
  | tempdirIn (path : String)
  /-- `std::env::var` -/
  | envVar (name : String)
  | write (path contents : String)
  | removeDirAll (path : String)

@[reducible] def FsCall.Answer : FsCall → Type
  | .isDir _ => Bool
  | .createDirAll _ | .write _ _ | .removeDirAll _ => Except String Unit
  | .tempdirIn _ | .envVar _ => Except String String

/-- The calls of `run_rust`. -/
abbrev RunnerCall := FsCall ⊕ Raced DockerCall ClosureCall

abbrev RunnerAnswer := Both FsCall.Answer (Raced.Ans DockerCall.Answer ClosureCall.Answer)

abbrev RunnerProg := Prog RunnerCall RunnerAnswer

abbrev RunnerEvent := Event RunnerCall RunnerAnswer

/-- An event of `with_container` around the closure. -/
abbrev ContainerEvent :=
  Event (Raced DockerCall ClosureCall) (Raced.Ans DockerCall.Answer ClosureCall.Answer)

/-- `Path::join`. -/
def joinPath (base path : String) : String :=
  if path.startsWith "/" then path
  else if base.isEmpty || base.endsWith "/" then base ++ path
  else base ++ "/" ++ path

/-- One call to the file system. -/
def fs (c : FsCall) : RunnerProg c.Answer :=
  Prog.perform (Sum.inl c)

/-- A workspace, with the path of its temporary directory. -/
structure Workspace where
  dir : String
  hostPath : String

namespace Workspace

/-- `Workspace::new`, once the worker has a directory.  The `TempDir` is dropped where
the host root is missing. -/
def newIn (workerId path : String) : RunnerProg (Except String Workspace) := do
  let dir : Except String String ← fs (.tempdirIn path)
  match dir with
  | .error err => pure (.error err)
  | .ok name =>
    let hostRoot : Except String String ← fs (.envVar "WORKSPACE_HOST_ROOT")
    match hostRoot with
    | .error err =>
      let _ ← fs (.removeDirAll (joinPath path name))
      pure (.error err)
    | .ok hostRoot =>
      pure (.ok ⟨joinPath path name, joinPath (joinPath hostRoot workerId) name⟩)

/-- `Workspace::new`. -/
def new (workerId : String) : RunnerProg (Except String Workspace) := do
  let path := "/workspaces/" ++ workerId
  let isDir : Bool ← fs (.isDir path)
  match isDir with
  | true => newIn workerId path
  | false =>
    let made : Except String Unit ← fs (.createDirAll path)
    match made with
    | .error err => pure (.error err)
    | .ok () => newIn workerId path

/-- `write`. -/
def write (w : Workspace) (filename code : String) : RunnerProg (Except String Unit) :=
  fs (.write (joinPath w.dir filename) code)

/-- `Drop for Workspace`, and then that of its `TempDir`. -/
def drop (w : Workspace) : RunnerProg Unit := do
  let _ ← fs (.removeDirAll w.dir)
  let _ ← fs (.removeDirAll w.dir)
  pure ()

end Workspace

namespace DockerRunner

/-- `run_rust` behind `Workspace::new`. -/
def runIn (r : DockerRunner) (jobId : Uuid) (code : String) (workspace : Workspace) :
    RunnerProg (Except RunError RunResponse) := do
  let written ← workspace.write "main.rs" code
  match written with
  | .error err => pure (.error (.other err))
  | .ok () =>
    (r.withContainer "rust:1.89" workspace.hostPath jobId workspace.dir (closure jobId)).onRight

/-- `run_rust`. -/
def runRust (r : DockerRunner) (jobId : Uuid) (code : String) :
    RunnerProg (Except RunError RunResponse) := do
  let workspace ← Workspace.new r.workerId
  match workspace with
  | .error err => pure (.error (.other err))
  | .ok workspace => (r.runIn jobId code workspace).ensuring workspace.drop

/-! ## What a run has done -/

/-- The temporary directory that has been made. -/
def dirMade : RunnerEvent → Option String
  | ⟨.inl (.tempdirIn path), .ok name⟩ => some (joinPath path name)
  | _ => none

/-- The directory whose removal is attempted. -/
def dirRemoved : RunnerEvent → Option String
  | ⟨.inl (.removeDirAll path), _⟩ => some path
  | _ => none

/-- The file that has been written, and what is in it. -/
def fileWritten : RunnerEvent → Option (String × String)
  | ⟨.inl (.write path contents), .ok ()⟩ => some (path, contents)
  | _ => none

/-- The host root that the environment has answered. -/
def hostRootRead : RunnerEvent → Option String
  | ⟨.inl (.envVar "WORKSPACE_HOST_ROOT"), .ok hostRoot⟩ => some hostRoot
  | _ => none

/-- What makes `Workspace::new` fail. -/
def workspaceError : RunnerEvent → Option String
  | ⟨.inl (.createDirAll _), .error err⟩ | ⟨.inl (.tempdirIn _), .error err⟩
  | ⟨.inl (.envVar _), .error err⟩ => some err
  | _ => none

/-- What makes `write` fail. -/
def writeError : RunnerEvent → Option String
  | ⟨.inl (.write _ _), .error err⟩ => some err
  | _ => none

/-- The event, as one of `with_container`. -/
def inContainer : RunnerEvent → Option ContainerEvent
  | ⟨.inr op, answer⟩ => some ⟨op, answer⟩
  | ⟨.inl _, _⟩ => none

/-- The answers that a log has on record. -/
def answersOf (log : List RunnerEvent) : RunCalls :=
  answersIn (firstFailure workspaceError log) (firstFailure writeError log)
    (log.filterMap inContainer)

/-- The container that is asked for. -/
def requested : RunnerEvent → Option ContainerConfig
  | ⟨.inr (.own (.createContainer config)), _⟩ => some config
  | _ => none

/-- The container that has been created. -/
def created : RunnerEvent → Option Uuid
  | ⟨.inr (.own (.createContainer _)), .ok id⟩ => some id
  | _ => none

/-- The container that has been started. -/
def started : RunnerEvent → Option Uuid
  | ⟨.inr (.own (.startContainer id)), .ok ()⟩ => some id
  | _ => none

/-- The compiler has exited in the container, and the exit code that `exec` reports, cut
down to 32 bits, is `0`. -/
def compiled : RunnerEvent → Option Uuid
  | ⟨.inr (.inner (.timedExec id ["rustc", "/workspaces/main.rs", "-o", "/workspaces/main"] _)),
      some (.completed (.ok out))⟩ => if out.result.exitCode = some 0 then some id else none
  | _ => none

/-- Nothing in the container has been killed for its memory. -/
def unkilled : RunnerEvent → Option Uuid
  | ⟨.inr (.inner (.inspect id)), some (.ok ⟨some oomKilled, _⟩)⟩ =>
      if oomKilled.getD false then none else some id
  | _ => none

/-- The program is executed in the container. -/
def executed : RunnerEvent → Option Uuid
  | ⟨.inr (.inner (.timedExec id ["/workspaces/main"] _)), _⟩ => some id
  | _ => none

/-- The removal of the directory is attempted, behind everything else. -/
def RemovedLast (log : List RunnerEvent) (dir : String) : Prop :=
  ∃ front cleaning, log = front ++ cleaning ∧ cleaning ≠ [] ∧
    (∀ e ∈ cleaning, dirRemoved e = some dir) ∧ front.filterMap dirRemoved = []

/-- What `run_rust` does with a workspace under the name `name`: the directory is made
once and removed last, nothing but the source is written, to a file in it, and each
container is asked for behind that and sees this directory, under the host root that
the environment has answered to this execution. -/
structure UsesWorkspace (r : DockerRunner) (jobId : Uuid) (code name : String)
    (log : List RunnerEvent) : Prop where
  made : log.filterMap dirMade = [joinPath ("/workspaces/" ++ r.workerId) name]
  removed : RemovedLast log (joinPath ("/workspaces/" ++ r.workerId) name)
  written : ∀ f ∈ log.filterMap fileWritten,
    f = (joinPath (joinPath ("/workspaces/" ++ r.workerId) name) "main.rs", code)
  source : Heralded (fun d => fileWritten d ≠ none) (fun e => requested e ≠ none) log
  mounted : ∀ config ∈ log.filterMap requested, ∃ hostRoot,
    log.filterMap hostRootRead = [hostRoot] ∧
      config = r.containerConfig "rust:1.89" (joinPath (joinPath hostRoot r.workerId) name) jobId
        (joinPath ("/workspaces/" ++ r.workerId) name)

/-- The program is executed in a container that has been created and started, in which
the compiler has exited, its narrowed exit code being `0`, and nothing was killed, behind
the write of its source. -/
structure Gated (id : Uuid) (code : String) (log : List RunnerEvent) : Prop where
  source : Heralded (fun d => ∃ path, fileWritten d = some (path, code))
    (fun e => executed e ≠ none) log
  passed : ∀ gate ∈ [created, started, compiled, unkilled],
    Heralded (fun d => gate d = some id) (fun e => executed e ≠ none) log

/-! ## The closure -/

/-- What the closure does, among the calls of `run_rust`. -/
def ofClosure (e : Event ClosureCall fun op => Option op.Answer) : RunnerEvent :=
  Event.right (Event.raced e)

/-- The second half of the closure begins with the program and does not execute it
again. -/
private theorem program_traced {jobId id : Uuid}
    {trace : List (Event ClosureCall fun op => Option op.Answer)}
    (h : Prog.Trace (program jobId id) trace) :
    (trace.map ofClosure).filterMap executed = [] ∨
      (trace.map ofClosure).filterMap executed = [id] := by
  rcases Prog.trace_perform_bind.mp h with rfl | rfl | ⟨res, rest, rfl, hres⟩
  · exact Or.inl rfl
  · exact Or.inr rfl
  · have hrest : (rest.map ofClosure).filterMap executed = [] := by
      rcases res with (err | out) | _
      · rw [Prog.trace_pure.mp hres]
        rfl
      · rcases Prog.trace_perform_bind.mp hres with rfl | rfl | ⟨container, rest, rfl, hend⟩
        · rfl
        · rfl
        · have hnil : rest = [] := by
            rcases container with err | ⟨_ | oomKilled, _⟩
            · exact Prog.trace_pure.mp hend
            · exact Prog.trace_pure.mp hend
            · dsimp only [ExecOutput.result] at hend
              split at hend <;> exact Prog.trace_pure.mp hend
          rw [hnil]
          rfl
      · rcases Prog.trace_perform_bind.mp hres with rfl | rfl | ⟨_, rest, rfl, hend⟩
        · rfl
        · rfl
        · rw [Prog.trace_pure.mp hend]
          rfl
    right
    rw [List.map_cons, List.filterMap_cons]
    exact congrArg (id :: ·) hrest

/-- The closure executes the program once, behind a compiler that has succeeded and
an inspection that has found nothing killed. -/
theorem closure_gated {jobId id : Uuid}
    {trace : List (Event ClosureCall fun op => Option op.Answer)}
    (h : Prog.Trace (closure jobId id) trace) :
    (trace.map ofClosure).filterMap executed = [] ∨
      ((trace.map ofClosure).filterMap executed = [id] ∧
        Heralded (fun d => compiled d = some id) (fun e => executed e ≠ none)
          (trace.map ofClosure) ∧
        Heralded (fun d => unkilled d = some id) (fun e => executed e ≠ none)
          (trace.map ofClosure)) := by
  rcases Prog.trace_perform_bind.mp h with rfl | rfl | ⟨compile, rest, rfl, hcompile⟩
  · exact Or.inl rfl
  · exact Or.inl rfl
  · rcases compile with (err | out) | _
    · rw [Prog.trace_pure.mp hcompile]
      exact Or.inl rfl
    · rcases Prog.trace_perform_bind.mp hcompile with
        rfl | rfl | ⟨container, rest, rfl, hcontainer⟩
      · exact Or.inl rfl
      · exact Or.inl rfl
      · rcases container with err | ⟨_ | oomKilled, config⟩
        · rw [Prog.trace_pure.mp hcontainer]
          exact Or.inl rfl
        · rw [Prog.trace_pure.mp hcontainer]
          exact Or.inl rfl
        · dsimp only [ExecOutput.result] at hcontainer
          split at hcontainer
          · rw [Prog.trace_pure.mp hcontainer]
            exact Or.inl rfl
          · next hoom =>
              split at hcontainer
              · rw [Prog.trace_pure.mp hcontainer]
                exact Or.inl rfl
              · next hzero =>
                  -- the two events in front of the program let it be executed
                  rcases program_traced hcontainer with hnone | hone
                  · exact Or.inl hnone
                  · have hcompiled : (out.inspectExitCode.getD (-1)).toInt32 = 0 :=
                      not_not.mp hzero
                    refine Or.inr ⟨hone, ?_, ?_⟩
                    · refine heralded_cons.mpr ⟨not_not.mpr rfl, Or.inl ?_⟩
                      exact if_pos (congrArg some hcompiled)
                    · refine heralded_cons.mpr ⟨not_not.mpr rfl, Or.inr ?_⟩
                      refine heralded_cons.mpr ⟨not_not.mpr rfl, Or.inl ?_⟩
                      exact if_neg hoom
    · rcases Prog.trace_perform_bind.mp hcompile with
        rfl | rfl | ⟨stopped, rest, rfl, hstopped⟩
      · exact Or.inl rfl
      · exact Or.inl rfl
      · have hnil : rest = [] := by
          cases stopped <;> exact Prog.trace_pure.mp hstopped
        rw [hnil]
        exact Or.inl rfl

/-! ## `with_container`, whether it returns or not -/

section Stages

variable {Op : Type} {Ans : Op → Type} {f : Uuid → Prog Op Ans (Except RunError RunResponse)}
  {log : ContainerLog Op Ans} {r : DockerRunner} {image workspace : String} {jobId : Uuid}
  {tempPath : String}

/-- How far a call of `with_container` has come. -/
inductive Stages (f : Uuid → Prog Op Ans (Except RunError RunResponse)) :
    ContainerLog Op Ans → Prop
  | notCreated {creating : ContainerLog Op Ans} {err : String}
      (hcreate : Creation creating (.error err)) : Stages f creating
  | notStarted {creating : ContainerLog Op Ans} {id : Uuid} {err : String}
      (hcreate : Creation creating (.ok id)) :
      Stages f (creating ++ [⟨.own (.startContainer id), (.error err : Except String Unit)⟩])
  | raced {creating ending : ContainerLog Op Ans} {id : Uuid} {lost : Bool}
      {trace : List (Event Op fun op => Option (Ans op))}
      (hcreate : Creation creating (.ok id)) (htrace : Prog.Trace (f id) trace)
      (hending : ∀ e ∈ ending, e.op = .drop ∨ e.op = .own (.stopContainer id 1) ∨
        e.op = .own (.removeContainer id true)) :
      Stages f (creating ++ ⟨.own (.startContainer id), (.ok () : Except String Unit)⟩ ::
        ⟨.enter, lost⟩ :: trace.map Event.raced ++ ending)

/-- `create` asks for one kind of container. -/
theorem config_of_create {out : Option (Except String Uuid)}
    (h : Prog.Run (r.create image workspace jobId tempPath) log out) :
    ∀ e ∈ log, ∀ config, e.op = .own (.createContainer config) →
      config = r.containerConfig image workspace jobId tempPath := by
  rcases Prog.run_bind.mp h with ⟨pulled, rest, answer, rfl, hpull, hrest⟩ | ⟨hpull, _⟩
  · have hpulled : ∀ e ∈ pulled, ∀ config, e.op = .own (.createContainer config) →
        config = r.containerConfig image workspace jobId tempPath := by
      intro e he config hop
      obtain ⟨_, _, hpulls, _⟩ := run_pullIfNeeded hpull
      have hpulls := hpulls e he
      rw [hop] at hpulls
      cases hpulls
    refine List.forall_mem_append.mpr ⟨hpulled, ?_⟩
    cases answer with
    | error err =>
        obtain ⟨rfl, _⟩ := Prog.run_pure.mp hrest
        simp
    | ok _ =>
        obtain ⟨response, rest, rfl, hinspect⟩ := run_docker_bind hrest
        cases response with
        | error err =>
            obtain ⟨rfl, _⟩ := Prog.run_pure.mp hinspect
            simp
        | ok id =>
            obtain ⟨inspect, rest, rfl, hlast⟩ := run_docker_bind hinspect
            have hnil : rest = [] := by
              cases inspect <;> exact (Prog.run_pure.mp hlast).1
            subst hnil
            simp
  · obtain ⟨_, hout, _⟩ := run_pullIfNeeded hpull
    cases hout

private theorem run_selectCancelled_traced {id : Uuid}
    {future : Prog Op Ans (Except RunError RunResponse)}
    {out : Option (Except RunError RunResponse)}
    (h : Prog.Run (selectCancelled id future) log out) :
    ∃ lost trace ending, log = ⟨.enter, lost⟩ :: trace.map Event.raced ++ ending ∧
      Prog.Trace future trace ∧ ∀ e ∈ ending, e.op = .drop ∨ e.op = .own (.stopContainer id 1) := by
  rcases Prog.run_bind.mp h with ⟨racing, after, raced, rfl, hrace, hafter⟩ | ⟨hrace, _⟩
  · obtain ⟨lost, trace, drops, rfl, htrace, hdrops⟩ := trace_of_race hrace
    have hafter : ∀ e ∈ after, e.op = .own (.stopContainer id 1) := by
      cases raced with
      | some res =>
          obtain ⟨rfl, _⟩ := Prog.run_pure.mp hafter
          simp
      | none =>
          obtain ⟨res, rest, rfl, hrest⟩ := run_docker_bind hafter
          obtain ⟨rfl, _⟩ := Prog.run_pure.mp hrest
          simp
    refine ⟨lost, trace, drops ++ after, by simp, htrace, ?_⟩
    exact List.forall_mem_append.mpr ⟨fun e he => Or.inl (hdrops e he),
      fun e he => Or.inr (hafter e he)⟩
  · obtain ⟨lost, trace, drops, rfl, htrace, hdrops⟩ := trace_of_race hrace
    exact ⟨lost, trace, drops, rfl, htrace, fun e he => Or.inl (hdrops e he)⟩

/-- **Every call of `with_container` goes through its stages**, and asks for no
container but its own. -/
theorem stages_of_run {out : Option (Except RunError RunResponse)}
    (h : Prog.Run (r.withContainer image workspace jobId tempPath f) log out) :
    Stages f log ∧ ∀ e ∈ log, ∀ config, e.op = .own (.createContainer config) →
      config = r.containerConfig image workspace jobId tempPath := by
  rcases Prog.run_bind.mp h with ⟨creating, after, result, rfl, hcreating, hafter⟩ | ⟨hcreating, _⟩
  · have hconfig := config_of_create hcreating
    obtain ⟨_, hout, hcreate⟩ := run_create hcreating
    cases hout
    cases result with
    | error err =>
        obtain ⟨rfl, _⟩ := Prog.run_pure.mp hafter
        rw [List.append_nil]
        exact ⟨.notCreated hcreate, hconfig⟩
    | ok id =>
        obtain ⟨answer, rest, rfl, hstarted⟩ := run_docker_bind hafter
        cases answer with
        | error err =>
            obtain ⟨rfl, _⟩ := Prog.run_pure.mp hstarted
            exact ⟨.notStarted hcreate, List.forall_mem_append.mpr ⟨hconfig, by simp⟩⟩
        | ok _ =>
            have hend : ∃ lost trace ending, rest =
                ⟨.enter, lost⟩ :: trace.map Event.raced ++ ending ∧ Prog.Trace (f id) trace ∧
                  ∀ e ∈ ending, e.op = .drop ∨ e.op = .own (.stopContainer id 1) ∨
                    e.op = .own (.removeContainer id true) := by
              rcases Prog.run_bind.mp hstarted with
                ⟨racing, cleaning, res, rfl, hselect, hcleaning⟩ | ⟨hselect, _⟩
              · obtain ⟨lost, trace, ending, rfl, htrace, hending⟩ :=
                  run_selectCancelled_traced hselect
                have hclean : ∀ e ∈ cleaning, e.op = .own (.stopContainer id 1) ∨
                    e.op = .own (.removeContainer id true) := by
                  rcases Prog.run_bind.mp hcleaning with
                    ⟨before, rest, _, rfl, hclean, hrest⟩ | ⟨hclean, _⟩
                  · obtain ⟨_, _, rfl, _⟩ := run_cleanUp hclean
                    obtain ⟨rfl, _⟩ := Prog.run_pure.mp hrest
                    simp
                  · obtain ⟨_, _, _, hsome⟩ := run_cleanUp hclean
                    cases hsome
                refine ⟨lost, trace, ending ++ cleaning, by simp, htrace, ?_⟩
                refine List.forall_mem_append.mpr ⟨?_, fun e he => Or.inr (hclean e he)⟩
                intro e he
                exact (hending e he).imp_right Or.inl
              · obtain ⟨lost, trace, ending, rfl, htrace, hending⟩ :=
                  run_selectCancelled_traced hselect
                exact ⟨lost, trace, ending, rfl, htrace,
                  fun e he => (hending e he).imp_right Or.inl⟩
            obtain ⟨lost, trace, ending, rfl, htrace, hending⟩ := hend
            refine ⟨by simpa using Stages.raced hcreate htrace hending, ?_⟩
            refine List.forall_mem_append.mpr ⟨hconfig, ?_⟩
            intro e he config hop
            simp only [List.cons_append, List.mem_cons, List.mem_append, List.mem_map] at he
            rcases he with rfl | rfl | ⟨e, _, rfl⟩ | he
            · cases hop
            · cases hop
            · cases hop
            · rcases hending e he with hdrop | hstop | hremove <;> simp_all
  · obtain ⟨_, hout, _⟩ := run_create hcreating
    cases hout

end Stages

/-! ## The stages of `run_rust` -/

section Parts

variable {r : DockerRunner} {jobId : Uuid} {code : String} {log : List RunnerEvent}

/-- The event sets up a workspace, and no directory is made. -/
def setsUp : RunnerEvent → Bool
  | ⟨.inl (.isDir _), _⟩ | ⟨.inl (.createDirAll _), _⟩ | ⟨.inl (.tempdirIn _), .error _⟩ => true
  | _ => false

/-- The ways of `Workspace::new`, with its result. -/
inductive Opening (workerId : String) : List RunnerEvent → Except String Workspace → Prop
  | notMade {setup : List RunnerEvent} {err : String} (hsetup : ∀ e ∈ setup, setsUp e = true)
      (hfailed : firstFailure workspaceError setup = .error err) :
      Opening workerId setup (.error err)
  | noHostRoot {setup : List RunnerEvent} {name err : String} {removed : Except String Unit}
      (hsetup : ∀ e ∈ setup, setsUp e = true)
      (hquiet : firstFailure workspaceError setup = .ok ()) :
      Opening workerId
        (setup ++ [⟨.inl (.tempdirIn ("/workspaces/" ++ workerId)),
            (.ok name : Except String String)⟩,
          ⟨.inl (.envVar "WORKSPACE_HOST_ROOT"), (.error err : Except String String)⟩,
          ⟨.inl (.removeDirAll (joinPath ("/workspaces/" ++ workerId) name)), removed⟩])
        (.error err)
  | made {setup : List RunnerEvent} {name hostRoot : String}
      (hsetup : ∀ e ∈ setup, setsUp e = true)
      (hquiet : firstFailure workspaceError setup = .ok ()) :
      Opening workerId
        (setup ++ [⟨.inl (.tempdirIn ("/workspaces/" ++ workerId)),
            (.ok name : Except String String)⟩,
          ⟨.inl (.envVar "WORKSPACE_HOST_ROOT"), (.ok hostRoot : Except String String)⟩])
        (.ok ⟨joinPath ("/workspaces/" ++ workerId) name,
          joinPath (joinPath hostRoot workerId) name⟩)

/-- A program that begins with a call to the file system. -/
private theorem run_fs_bind {β : Type} {c : FsCall} {g : c.Answer → RunnerProg β}
    {out : Option β} (h : Prog.Run (fs c >>= g) log out) :
    ∃ (answer : c.Answer) (rest : List RunnerEvent),
      log = ⟨.inl c, answer⟩ :: rest ∧ Prog.Run (g answer) rest out :=
  Prog.run_perform_bind.mp h

private theorem opening_of_newIn {workerId : String} (setup : List RunnerEvent)
    (hsetup : ∀ e ∈ setup, setsUp e = true) (hquiet : firstFailure workspaceError setup = .ok ())
    {out : Option (Except String Workspace)}
    (h : Prog.Run (Workspace.newIn workerId ("/workspaces/" ++ workerId)) log out) :
    ∃ result, out = some result ∧ Opening workerId (setup ++ log) result := by
  obtain ⟨dir, rest, rfl, hdir⟩ := run_fs_bind h
  cases dir with
  | error err =>
      obtain ⟨rfl, rfl⟩ := Prog.run_pure.mp hdir
      refine ⟨_, rfl, .notMade (List.forall_mem_append.mpr ⟨hsetup, by simp [setsUp]⟩) ?_⟩
      rw [firstFailure_append_of_ok hquiet]
      rfl
  | ok name =>
      obtain ⟨hostRoot, rest, rfl, hroot⟩ := run_fs_bind hdir
      cases hostRoot with
      | error err =>
          obtain ⟨removed, rest, rfl, hend⟩ := run_fs_bind hroot
          obtain ⟨rfl, rfl⟩ := Prog.run_pure.mp hend
          exact ⟨_, rfl, .noHostRoot hsetup hquiet⟩
      | ok hostRoot =>
          obtain ⟨rfl, rfl⟩ := Prog.run_pure.mp hroot
          exact ⟨_, rfl, .made hsetup hquiet⟩

/-- **Every call of `Workspace::new` goes one of its ways.** -/
theorem opening_of_run {workerId : String} {out : Option (Except String Workspace)}
    (h : Prog.Run (Workspace.new workerId) log out) :
    ∃ result, out = some result ∧ Opening workerId log result := by
  obtain ⟨isDir, rest, rfl, hdir⟩ := run_fs_bind h
  cases isDir with
  | true => exact opening_of_newIn [_] (by simp [setsUp]) rfl hdir
  | false =>
      obtain ⟨made, rest, rfl, hmade⟩ := run_fs_bind hdir
      cases made with
      | error err =>
          obtain ⟨rfl, rfl⟩ := Prog.run_pure.mp hmade
          exact ⟨_, rfl, .notMade (by simp [setsUp]) rfl⟩
      | ok _ => exact opening_of_newIn [_, _] (by simp [setsUp]) rfl hmade

theorem run_dropWorkspace {w : Workspace} {out : Option Unit} (h : Prog.Run w.drop log out) :
    ∃ removed again, log = [⟨.inl (.removeDirAll w.dir), removed⟩,
      ⟨.inl (.removeDirAll w.dir), again⟩] ∧ out = some () := by
  obtain ⟨removed, rest, rfl, hagain⟩ := run_fs_bind h
  obtain ⟨again, rest, rfl, hend⟩ := run_fs_bind hagain
  obtain ⟨rfl, rfl⟩ := Prog.run_pure.mp hend
  exact ⟨removed, again, rfl, rfl⟩

/-- Behind `Workspace::new` the source is written, and then the container is run. -/
theorem run_runIn {w : Workspace} {out : Option (Except RunError RunResponse)} :
    Prog.Run (r.runIn jobId code w) log out ↔
      (∃ err, log = [⟨.inl (.write (joinPath w.dir "main.rs") code),
          (.error err : Except String Unit)⟩] ∧ out = some (.error (.other err))) ∨
        ∃ inner, log = ⟨.inl (.write (joinPath w.dir "main.rs") code),
            (.ok () : Except String Unit)⟩ :: inner.map Event.right ∧
          Prog.Run (r.withContainer "rust:1.89" w.hostPath jobId w.dir (closure jobId)) inner
            out := by
  constructor
  · intro h
    obtain ⟨written, rest, rfl, hrest⟩ := run_fs_bind h
    cases written with
    | error err =>
        obtain ⟨rfl, rfl⟩ := Prog.run_pure.mp hrest
        exact Or.inl ⟨err, rfl, rfl⟩
    | ok _ =>
        obtain ⟨inner, rfl, hinner⟩ := Prog.run_onRight.mp hrest
        exact Or.inr ⟨inner, rfl, hinner⟩
  · rintro (⟨err, rfl, rfl⟩ | ⟨inner, rfl, hinner⟩)
    · exact Prog.run_perform_bind.mpr ⟨.error err, [], rfl, .ret _⟩
    · exact Prog.run_perform_bind.mpr ⟨.ok (), _, rfl, Prog.run_onRight.mpr ⟨inner, rfl, hinner⟩⟩

/-- The ways of `run_rust`, with its end. -/
inductive RustCourse (r : DockerRunner) (jobId : Uuid) (code : String) :
    List RunnerEvent → Option (Except RunError RunResponse) → Prop
  | notOpened {opening : List RunnerEvent} {err : String}
      (hopen : Opening r.workerId opening (.error err)) :
      RustCourse r jobId code opening (some (.error (.other err)))
  | notWritten {opening : List RunnerEvent} {w : Workspace} {err : String}
      {removed again : Except String Unit} (hopen : Opening r.workerId opening (.ok w)) :
      RustCourse r jobId code
        (opening ++ [⟨.inl (.write (joinPath w.dir "main.rs") code),
            (.error err : Except String Unit)⟩] ++
          [⟨.inl (.removeDirAll w.dir), removed⟩, ⟨.inl (.removeDirAll w.dir), again⟩])
        (some (.error (.other err)))
  | ran {opening : List RunnerEvent} {w : Workspace}
      {inner : ContainerLog ClosureCall ClosureCall.Answer}
      {out : Option (Except RunError RunResponse)} {removed again : Except String Unit}
      (hopen : Opening r.workerId opening (.ok w))
      (hinner : Prog.Run (r.withContainer "rust:1.89" w.hostPath jobId w.dir (closure jobId))
        inner out) :
      RustCourse r jobId code
        (opening ++ (⟨.inl (.write (joinPath w.dir "main.rs") code),
            (.ok () : Except String Unit)⟩ :: inner.map Event.right) ++
          [⟨.inl (.removeDirAll w.dir), removed⟩, ⟨.inl (.removeDirAll w.dir), again⟩])
        out

/-- **Every call of `run_rust` goes one of its ways.** -/
theorem course_of_runRust {out : Option (Except RunError RunResponse)}
    (h : Prog.Run (r.runRust jobId code) log out) : RustCourse r jobId code log out := by
  rcases Prog.run_bind.mp h with ⟨opening, rest, workspace, rfl, hnew, hrest⟩ | ⟨hnew, _⟩
  · obtain ⟨_, hout, hopen⟩ := opening_of_run hnew
    cases hout
    cases workspace with
    | error err =>
        obtain ⟨rfl, rfl⟩ := Prog.run_pure.mp hrest
        rw [List.append_nil]
        exact .notOpened hopen
    | ok w =>
        obtain ⟨before, after, out', rfl, hrun, hend⟩ := Prog.run_ensuring.mp hrest
        have hdrop : out = out' ∧ ∃ removed again, after = [⟨.inl (.removeDirAll w.dir), removed⟩,
            ⟨.inl (.removeDirAll w.dir), again⟩] := by
          rcases hend with ⟨hdrop, rfl⟩ | ⟨hdrop, _⟩
          · obtain ⟨removed, again, rfl, _⟩ := run_dropWorkspace hdrop
            exact ⟨rfl, removed, again, rfl⟩
          · obtain ⟨_, _, _, hnone⟩ := run_dropWorkspace hdrop
            cases hnone
        obtain ⟨rfl, removed, again, rfl⟩ := hdrop
        rw [← List.append_assoc]
        rcases run_runIn.mp hrun with ⟨err, rfl, rfl⟩ | ⟨inner, rfl, hinner⟩
        · exact .notWritten hopen
        · exact .ran hopen hinner
  · obtain ⟨_, hout, _⟩ := opening_of_run hnew
    cases hout

end Parts

/-! ## Its results -/

section Results

variable {r : DockerRunner} {jobId id : Uuid} {code : String}

private theorem closure_no_panic {log : List (Event ClosureCall ClosureCall.Answer)} :
    ¬ Prog.Run (closure jobId id) log none := by
  intro h
  let calls : RunCalls := ⟨.ok (), .ok (), .ok (), .ok (), false,
    (log.findSome? (execAnswer
      ["rustc", "/workspaces/main.rs", "-o", "/workspaces/main"])).getD .elapsed,
    (log.findSome? stopAnswer).getD (.ok ()), ((log.filterMap stateAnswer)[0]?).getD (.ok none),
    (log.findSome? (execAnswer ["/workspaces/main"])).getD .elapsed,
    ((log.filterMap stateAnswer)[1]?).getD (.ok none)⟩
  have hnone : runClosure jobId calls = none := runClosure_of_run h rfl rfl rfl rfl rfl
  obtain ⟨result, hsome, _⟩ := runClosure_verdict jobId calls
  rw [hnone] at hsome
  cases hsome

private theorem withContainer_no_panic {image workspace tempPath : String}
    {log : ContainerLog ClosureCall ClosureCall.Answer} :
    ¬ Prog.Run (r.withContainer image workspace jobId tempPath (closure jobId)) log none := by
  intro h
  rcases Prog.run_bind.mp h with ⟨creating, after, result, rfl, hcreating, hafter⟩ | ⟨hcreating, _⟩
  · cases result with
    | error err => cases (Prog.run_pure.mp hafter).2
    | ok id =>
        obtain ⟨answer, rest, rfl, hstarted⟩ := run_docker_bind hafter
        cases answer with
        | error err => cases (Prog.run_pure.mp hstarted).2
        | ok _ =>
            rcases Prog.run_bind.mp hstarted with
              ⟨racing, cleaning, res, rfl, hselect, hcleaning⟩ | ⟨hselect, _⟩
            · rcases Prog.run_bind.mp hcleaning with
                ⟨before, rest, _, rfl, hclean, hrest⟩ | ⟨hclean, _⟩
              · cases (Prog.run_pure.mp hrest).2
              · obtain ⟨_, _, _, hnone⟩ := run_cleanUp hclean
                cases hnone
            · rcases Prog.run_bind.mp hselect with
                ⟨before, rest, raced, rfl, hrace, hrest⟩ | ⟨hrace, _⟩
              · cases raced with
                | some res => cases (Prog.run_pure.mp hrest).2
                | none =>
                    obtain ⟨_, rest, rfl, hend⟩ := run_docker_bind hrest
                    cases (Prog.run_pure.mp hend).2
              · obtain ⟨log', hlog'⟩ := panic_of_race hrace
                exact closure_no_panic hlog'
  · obtain ⟨_, hout, _⟩ := run_create hcreating
    cases hout

/-- The second half of the closure, for any answers. -/
private theorem canEnd_program (jobId id : Uuid) (calls : RunCalls) :
    Prog.CanEnd (program jobId id) (runProgram jobId calls) := by
  unfold runProgram
  refine Prog.canEnd_perform_bind (ClosureCall.timedExec _ _ _) calls.run ?_
  rcases calls.run with (err | out) | _
  · exact Prog.canEnd_pure _
  · rcases calls.inspectRun with err | (_ | oomKilled)
    · exact Prog.canEnd_perform_bind (ClosureCall.inspect id) (.error err) (Prog.canEnd_pure _)
    · exact Prog.canEnd_perform_bind (ClosureCall.inspect id) (.ok ⟨none, none⟩) (Prog.canEnd_pure _)
    · refine Prog.canEnd_perform_bind (ClosureCall.inspect id) (.ok ⟨some oomKilled, none⟩) ?_
      dsimp only [ExecOutput.result]
      split <;> exact Prog.canEnd_pure _
  · exact Prog.canEnd_perform_bind (ClosureCall.stop id) (.ok ()) (Prog.canEnd_pure _)

/-- The closure, for any answers. -/
private theorem canEnd_closure (jobId id : Uuid) (calls : RunCalls) :
    Prog.CanEnd (closure jobId id) (runClosure jobId calls) := by
  unfold runClosure
  refine Prog.canEnd_perform_bind (ClosureCall.timedExec _ _ _) calls.compile ?_
  rcases calls.compile with (err | out) | _
  · exact Prog.canEnd_pure _
  · rcases calls.inspectCompile with err | (_ | oomKilled)
    · exact Prog.canEnd_perform_bind (ClosureCall.inspect id) (.error err) (Prog.canEnd_pure _)
    · exact Prog.canEnd_perform_bind (ClosureCall.inspect id) (.ok ⟨none, none⟩) (Prog.canEnd_pure _)
    · refine Prog.canEnd_perform_bind (ClosureCall.inspect id) (.ok ⟨some oomKilled, none⟩) ?_
      dsimp only [ExecOutput.result]
      split
      · exact Prog.canEnd_pure _
      · split
        · exact Prog.canEnd_pure _
        · exact canEnd_program jobId id calls
  · refine Prog.canEnd_perform_bind (ClosureCall.stop id) calls.stopCompile ?_
    cases calls.stopCompile <;> exact Prog.canEnd_pure _

theorem canEnd_docker {β : Type} (c : DockerCall) (answer : c.Answer)
    {g : c.Answer → ContainerProg ClosureCall ClosureCall.Answer β} {out : Option β}
    (h : Prog.CanEnd (g answer) out) : Prog.CanEnd (docker c >>= g) out :=
  Prog.canEnd_perform_bind (Raced.own c) answer h

theorem canEnd_fs {β : Type} (c : FsCall) (answer : c.Answer) {g : c.Answer → RunnerProg β}
    {out : Option β} (h : Prog.CanEnd (g answer) out) : Prog.CanEnd (fs c >>= g) out :=
  Prog.canEnd_perform_bind (Sum.inl c) answer h

/-- `create`, for any end of the call behind it. -/
private theorem canEnd_create (image workspace tempPath : String) (created : Except String Uuid) :
    Prog.CanEnd (r.create image workspace jobId tempPath :
      ContainerProg ClosureCall ClosureCall.Answer _) (some created) := by
  have hpull : Prog.CanEnd (pullIfNeeded image :
      ContainerProg ClosureCall ClosureCall.Answer _) (some (.ok ())) :=
    canEnd_docker (.inspectImage image) (.ok ()) (Prog.canEnd_pure _)
  refine hpull.bind (canEnd_docker (.createContainer _) created ?_)
  cases created with
  | error err => exact Prog.canEnd_pure _
  | ok id => exact canEnd_docker (.inspectContainer id) (.ok ⟨none, none⟩) (Prog.canEnd_pure _)

/-- `with_container` around the closure, for any answers. -/
private theorem canEnd_withContainer (image workspace tempPath : String) (calls : RunCalls)
    (hworkspace : calls.workspace = .ok ()) (hwrite : calls.writeMain = .ok ()) :
    Prog.CanEnd (r.withContainer image workspace jobId tempPath (closure jobId))
      (EditorBack.runRust jobId calls) := by
  unfold EditorBack.runRust
  rw [hworkspace, hwrite]
  cases calls.create with
  | error err => exact (canEnd_create image workspace tempPath (.error err)).bind (Prog.canEnd_pure _)
  | ok _ =>
      refine (canEnd_create image workspace tempPath (.ok 0)).bind ?_
      cases calls.start with
      | error err => exact canEnd_docker (.startContainer 0) (.error err) (Prog.canEnd_pure _)
      | ok _ =>
          refine canEnd_docker (.startContainer 0) (.ok ()) ?_
          have hclean : Prog.CanEnd (cleanUp 0 : ContainerProg ClosureCall ClosureCall.Answer _)
              (some ()) :=
            canEnd_docker (.stopContainer 0 1) (.ok ())
              (canEnd_docker (.removeContainer 0 true) (.ok ()) (Prog.canEnd_pure _))
          have hselect : ∃ result, (if calls.cancelled then some (.error .cancelled)
              else runClosure jobId calls) = some result ∧
              Prog.CanEnd (selectCancelled 0 (closure jobId 0)) (some result) := by
            cases calls.cancelled with
            | true =>
                exact ⟨_, rfl, (canEnd_race_lost _).bind
                  (canEnd_docker (.stopContainer 0 1) (.ok ()) (Prog.canEnd_pure _))⟩
            | false =>
                obtain ⟨result, hresult, _⟩ := runClosure_verdict jobId calls
                refine ⟨result, hresult, ?_⟩
                have hclosure := canEnd_closure jobId 0 calls
                rw [hresult] at hclosure
                exact (canEnd_race hclosure).bind (Prog.canEnd_pure _)
          obtain ⟨result, hresult, hend⟩ := hselect
          dsimp only
          rw [hresult]
          exact hend.bind (hclean.bind (Prog.canEnd_pure _))

/-- What `Workspace::new` has on record is its result. -/
private theorem Opening.recorded {log : List RunnerEvent} {result : Except String Workspace}
    (h : Opening r.workerId log result) :
    firstFailure workspaceError log = result.map (fun _ => ()) ∧
      firstFailure writeError log = .ok () ∧ log.filterMap inContainer = [] := by
  have hquiet : ∀ {setup : List RunnerEvent}, (∀ e ∈ setup, setsUp e = true) →
      firstFailure writeError setup = .ok () ∧ setup.filterMap inContainer = [] := by
    intro setup hsetup
    have heach : ∀ e ∈ setup, writeError e = none ∧ inContainer e = none := by
      intro e he
      have hop := hsetup e he
      unfold setsUp at hop
      split at hop
      · exact ⟨rfl, rfl⟩
      · exact ⟨rfl, rfl⟩
      · exact ⟨rfl, rfl⟩
      · cases hop
    exact ⟨firstFailure_eq_ok.mpr fun e he => (heach e he).1,
      List.filterMap_eq_nil_iff.mpr fun e he => (heach e he).2⟩
  cases h with
  | notMade hsetup hfailed => exact ⟨hfailed, hquiet hsetup⟩
  | noHostRoot hsetup hmade | made hsetup hmade =>
      obtain ⟨hwrite, hcontainer⟩ := hquiet hsetup
      rw [firstFailure_append_of_ok hmade, firstFailure_append_of_ok hwrite,
        List.filterMap_append, hcontainer]
      exact ⟨rfl, rfl, rfl⟩

/-- The events of a container are those of the container. -/
private theorem right_recorded (inner : ContainerLog ClosureCall ClosureCall.Answer) :
    firstFailure workspaceError (inner.map Event.right) = .ok () ∧
      firstFailure writeError (inner.map Event.right) = .ok () ∧
        (inner.map Event.right : List RunnerEvent).filterMap inContainer = inner := by
  refine ⟨firstFailure_eq_ok.mpr ?_, firstFailure_eq_ok.mpr ?_, ?_⟩
  · exact List.forall_mem_map.mpr fun _ _ => rfl
  · exact List.forall_mem_map.mpr fun _ _ => rfl
  · rw [List.filterMap_map]
    exact List.filterMap_some

/-- Behind a workspace that could be written, the answers on record are those of the
container. -/
private theorem answersOf_ran {opening : List RunnerEvent} {w : Workspace}
    {inner : ContainerLog ClosureCall ClosureCall.Answer} {removed again : Except String Unit}
    (hopen : Opening r.workerId opening (.ok w)) :
    answersOf (opening ++ (⟨.inl (.write (joinPath w.dir "main.rs") code),
        (.ok () : Except String Unit)⟩ :: inner.map Event.right) ++
          [⟨.inl (.removeDirAll w.dir), removed⟩, ⟨.inl (.removeDirAll w.dir), again⟩]) =
      answersIn (.ok ()) (.ok ()) inner := by
  obtain ⟨hnew, hwrite, hcontainer⟩ := hopen.recorded
  obtain ⟨hnew', hwrite', hinner⟩ := right_recorded inner
  have hquiet : ∀ f : RunnerEvent → Option String, firstFailure f opening = .ok () →
      firstFailure f (inner.map Event.right) = .ok () →
      (∀ path ans, f ⟨.inl (.write path code), .ok ans⟩ = none) →
      (∀ ans, f ⟨.inl (.removeDirAll w.dir), ans⟩ = none) →
      firstFailure f (opening ++ (⟨.inl (.write (joinPath w.dir "main.rs") code), .ok ()⟩ ::
        inner.map Event.right) ++ [⟨.inl (.removeDirAll w.dir), removed⟩,
          ⟨.inl (.removeDirAll w.dir), again⟩]) = .ok () := by
    intro f hopened hraced hwritten hremoved
    refine firstFailure_eq_ok.mpr ?_
    simp only [List.forall_mem_append, List.forall_mem_cons]
    exact ⟨⟨firstFailure_eq_ok.mp hopened, hwritten _ _, firstFailure_eq_ok.mp hraced⟩,
      hremoved _, hremoved _, by simp⟩
  unfold answersOf
  rw [hquiet _ hnew hnew' (fun _ _ => rfl) fun _ => rfl,
    hquiet _ hwrite hwrite' (fun _ _ => rfl) fun _ => rfl, List.filterMap_append,
    List.filterMap_append, List.filterMap_cons, hcontainer, hinner]
  exact congrArg (answersIn (.ok ()) (.ok ())) (List.append_nil inner)

/-- **`run_rust` ends as `runRust` says of the answers on record.** -/
theorem runRust_answers {log : List RunnerEvent} {out : Option (Except RunError RunResponse)}
    (h : Prog.Run (r.runRust jobId code) log out) :
    EditorBack.runRust jobId (answersOf log) = out := by
  cases course_of_runRust h with
  | notOpened hopen =>
      simp only [EditorBack.runRust, answersOf, answersIn, hopen.recorded.1]
      rfl
  | notWritten hopen =>
      obtain ⟨hnew, hwrite, _⟩ := hopen.recorded
      simp only [EditorBack.runRust, answersOf, answersIn]
      rw [List.append_assoc, firstFailure_append_of_ok hnew, firstFailure_append_of_ok hwrite]
      rfl
  | ran hopen hinner =>
      rw [answersOf_ran hopen]
      cases out with
      | none => exact absurd hinner withContainer_no_panic
      | some result => exact runRust_of_run hinner

/-- **`run_rust` gives what `runRust` computes.**  Whatever the file system, Docker and
the cancellation answer, the program ends with a result that `runRust` computes from the
answers of some calls, and so it does not panic; and each of these results is that of a
run of the program.  The answers are those that the run has on record. -/
theorem runRust_exact (r : DockerRunner) (jobId : Uuid) (code : String)
    (out : Option (Except RunError RunResponse)) :
    (Prog.CanEnd (r.runRust jobId code) out ↔ ∃ calls, EditorBack.runRust jobId calls = out) ∧
      ∀ log, Prog.Run (r.runRust jobId code) log out →
        EditorBack.runRust jobId (answersOf log) = out := by
  refine ⟨⟨?_, ?_⟩, fun log h => runRust_answers h⟩
  · rintro ⟨log, h⟩
    exact ⟨answersOf log, runRust_answers h⟩
  · rintro ⟨calls, rfl⟩
    have hdrop : ∀ w : Workspace, Prog.CanEnd w.drop (some ()) := fun w =>
      canEnd_fs (.removeDirAll w.dir) (.ok ())
        (canEnd_fs (.removeDirAll w.dir) (.ok ()) (Prog.canEnd_pure _))
    cases hworkspace : calls.workspace with
    | error err =>
        have hnew : Prog.CanEnd (Workspace.new r.workerId) (some (.error err)) :=
          canEnd_fs (.isDir _) false (canEnd_fs (.createDirAll _) (.error err) (Prog.canEnd_pure _))
        unfold EditorBack.runRust
        rw [hworkspace]
        exact hnew.bind (Prog.canEnd_pure _)
    | ok _ =>
        have hnew : ∃ w, Prog.CanEnd (Workspace.new r.workerId) (some (.ok w)) :=
          ⟨_, canEnd_fs (.isDir _) true (canEnd_fs (.tempdirIn _) (.ok "job")
            (canEnd_fs (.envVar _) (.ok "/srv") (Prog.canEnd_pure _)))⟩
        obtain ⟨w, hnew⟩ := hnew
        refine hnew.bind (Prog.CanEnd.ensuring ?_ (hdrop w))
        cases hwrite : calls.writeMain with
        | error err =>
            unfold EditorBack.runRust
            rw [hworkspace, hwrite]
            exact canEnd_fs (.write _ _) (.error err) (Prog.canEnd_pure _)
        | ok _ =>
            exact canEnd_fs (.write _ _) (.ok ())
              (canEnd_withContainer _ _ _ calls hworkspace hwrite).onRight

end Results

/-! ## A program that says hello -/

/-- Worker-1 runs job `7` in container `900`, and everything succeeds. -/
def greetingLog : List RunnerEvent :=
  [⟨.inl (.isDir "/workspaces/worker-1"), true⟩,
    ⟨.inl (.tempdirIn "/workspaces/worker-1"), .ok ".tmp7"⟩,
    ⟨.inl (.envVar "WORKSPACE_HOST_ROOT"), .ok "/srv"⟩,
    ⟨.inl (.write (joinPath (joinPath "/workspaces/worker-1" ".tmp7") "main.rs") "fn main() {}"),
      .ok ()⟩] ++
  (([⟨.own (.inspectImage "rust:1.89"), .ok ()⟩,
    ⟨.own (.createContainer (containerConfig ⟨"worker-1"⟩ "rust:1.89"
      (joinPath (joinPath "/srv" "worker-1") ".tmp7") 7
        (joinPath "/workspaces/worker-1" ".tmp7"))), .ok 900⟩,
    ⟨.own (.inspectContainer 900), .ok ⟨none, none⟩⟩,
    ⟨.own (.startContainer 900), .ok ()⟩, ⟨.enter, false⟩,
    ⟨.inner (.timedExec 900 ["rustc", "/workspaces/main.rs", "-o", "/workspaces/main"]
      (seconds 10)), some (.completed (.ok ⟨"", "", some 0⟩))⟩,
    ⟨.inner (.inspect 900), some (.ok ⟨some (some false), none⟩)⟩,
    ⟨.inner (.timedExec 900 ["/workspaces/main"] (seconds 20)),
      some (.completed (.ok ⟨"hello", "", some 0⟩))⟩,
    ⟨.inner (.inspect 900), some (.ok ⟨some (some false), none⟩)⟩, ⟨.drop, ()⟩,
    ⟨.own (.stopContainer 900 1), .ok ()⟩, ⟨.own (.removeContainer 900 true), .ok ()⟩] :
      List ContainerEvent).map Event.right) ++
  [⟨.inl (.removeDirAll (joinPath "/workspaces/worker-1" ".tmp7")), .ok ()⟩,
    ⟨.inl (.removeDirAll (joinPath "/workspaces/worker-1" ".tmp7")),
      .error "No such file or directory"⟩]

theorem run_greeting : Prog.Run (runRust ⟨"worker-1"⟩ 7 "fn main() {}") greetingLog
    (some (.ok ⟨"hello", .success, "", 0, 7⟩)) :=
  .call (.call (.call (.call (.call (.call (.call (.call (.call (.call (.call (.call (.call
    (.call (.call (.call (.call (.call (.ret _))))))))))))))))))

example : answersOf greetingLog = ⟨.ok (), .ok (), .ok (), .ok (), false,
    .completed (.ok ⟨"", "", some 0⟩), .ok (), .ok (some (some false)),
    .completed (.ok ⟨"hello", "", some 0⟩), .ok (some (some false))⟩ := rfl

/-! ## Its workspace and its program -/

section Traces

variable {r : DockerRunner} {jobId id : Uuid} {code : String} {log : List RunnerEvent}

/-- The events of a container have to do with no directory. -/
private theorem right_dirs (inner : ContainerLog ClosureCall ClosureCall.Answer) :
    (inner.map Event.right).filterMap dirMade = [] ∧
      (inner.map Event.right).filterMap dirRemoved = [] ∧
        (inner.map Event.right).filterMap fileWritten = [] ∧
          (inner.map Event.right).filterMap hostRootRead = [] := by
  simp only [List.filterMap_eq_nil_iff, List.mem_map]
  refine ⟨?_, ?_, ?_, ?_⟩ <;>
  · rintro _ ⟨e, _, rfl⟩
    rfl

private theorem right_requested {e : ContainerEvent} {config : ContainerConfig} :
    requested (Event.right e : RunnerEvent) = some config ↔
      e.op = .own (.createContainer config) := by
  rcases e with ⟨op, answer⟩
  cases op with
  | own c => cases c <;> simp [Event.right, requested]
  | _ => simp [Event.right, requested]

/-- Setting up a workspace makes no directory and does nothing else. -/
private theorem setsUp_silent {e : RunnerEvent} (he : setsUp e = true) :
    dirMade e = none ∧ dirRemoved e = none ∧ fileWritten e = none ∧ requested e = none ∧
      executed e = none ∧ hostRootRead e = none := by
  unfold setsUp at he
  split at he
  · exact ⟨rfl, rfl, rfl, rfl, rfl, rfl⟩
  · exact ⟨rfl, rfl, rfl, rfl, rfl, rfl⟩
  · exact ⟨rfl, rfl, rfl, rfl, rfl, rfl⟩
  · cases he

/-- What of `Workspace::new` is silent about files and containers. -/
private theorem Opening.silent {result : Except String Workspace}
    (h : Opening r.workerId log result) :
    log.filterMap fileWritten = [] ∧ log.filterMap requested = [] ∧
      log.filterMap executed = [] := by
  have hsilent : ∀ {setup : List RunnerEvent}, (∀ e ∈ setup, setsUp e = true) →
      setup.filterMap fileWritten = [] ∧ setup.filterMap requested = [] ∧
        setup.filterMap executed = [] := by
    intro setup hsetup
    simp only [List.filterMap_eq_nil_iff]
    exact ⟨fun e he => (setsUp_silent (hsetup e he)).2.2.1,
      fun e he => (setsUp_silent (hsetup e he)).2.2.2.1,
      fun e he => (setsUp_silent (hsetup e he)).2.2.2.2.1⟩
  cases h with
  | notMade hsetup => exact hsilent hsetup
  | noHostRoot hsetup | made hsetup =>
      obtain ⟨hwritten, hrequested, hexecuted⟩ := hsilent hsetup
      simp only [List.filterMap_append, hwritten, hrequested, hexecuted]
      exact ⟨rfl, rfl, rfl⟩

private theorem setup_dirs {setup : List RunnerEvent} (hsetup : ∀ e ∈ setup, setsUp e = true) :
    setup.filterMap dirMade = [] ∧ setup.filterMap dirRemoved = [] ∧
      setup.filterMap hostRootRead = [] := by
  simp only [List.filterMap_eq_nil_iff]
  exact ⟨fun e he => (setsUp_silent (hsetup e he)).1,
    fun e he => (setsUp_silent (hsetup e he)).2.1,
    fun e he => (setsUp_silent (hsetup e he)).2.2.2.2.2⟩

private theorem Opening.of_ok {w : Workspace} (h : Opening r.workerId log (.ok w)) :
    ∃ name hostRoot, w = ⟨joinPath ("/workspaces/" ++ r.workerId) name,
        joinPath (joinPath hostRoot r.workerId) name⟩ ∧
      log.filterMap dirMade = [w.dir] ∧ log.filterMap dirRemoved = [] ∧
        log.filterMap hostRootRead = [hostRoot] := by
  cases h with
  | @made setup name hostRoot hsetup =>
      obtain ⟨hmade, hremoved, hread⟩ := setup_dirs hsetup
      refine ⟨name, hostRoot, rfl, ?_, ?_, ?_⟩
      · rw [List.filterMap_append, hmade]
        rfl
      · rw [List.filterMap_append, hremoved]
        rfl
      · rw [List.filterMap_append, hread]
        rfl

/-- A directory that was made is removed last. -/
private theorem UsesWorkspace.of_removed {w : Workspace} {name hostRoot : String}
    {middle : List RunnerEvent} {removed again : Except String Unit}
    (hw : w = ⟨joinPath ("/workspaces/" ++ r.workerId) name,
      joinPath (joinPath hostRoot r.workerId) name⟩)
    (hmade : (log ++ middle).filterMap dirMade = [w.dir])
    (hremoved : (log ++ middle).filterMap dirRemoved = [])
    (hread : (log ++ middle).filterMap hostRootRead = [hostRoot])
    (hwritten : ∀ f ∈ (log ++ middle).filterMap fileWritten, f = (joinPath w.dir "main.rs", code))
    (hsource : Heralded (fun d => fileWritten d ≠ none) (fun e => requested e ≠ none)
      (log ++ middle))
    (hmounted : ∀ config ∈ (log ++ middle).filterMap requested,
      config = r.containerConfig "rust:1.89" w.hostPath jobId w.dir) :
    UsesWorkspace r jobId code name (log ++ middle ++
      [⟨.inl (.removeDirAll w.dir), removed⟩, ⟨.inl (.removeDirAll w.dir), again⟩]) := by
  subst hw
  refine ⟨?_, ⟨_, _, rfl, by simp, by simp [dirRemoved], hremoved⟩, ?_, ?_, ?_⟩
  · rw [List.filterMap_append, hmade]
    rfl
  · rw [List.filterMap_append]
    simpa [fileWritten] using hwritten
  · exact heralded_append.mpr ⟨hsource, Or.inr (heralded_of_not (by simp [requested]))⟩
  · rw [List.filterMap_append]
    intro config hconfig
    refine ⟨hostRoot, ?_, hmounted config ?_⟩
    · rw [List.filterMap_append, hread]
      rfl
    · simpa [requested] using hconfig

/-- **The workspace of an execution is reclaimed on every path.**  A run of `run_rust`
either makes no directory, removes none and asks for no container, or it uses one
workspace (`UsesWorkspace`). -/
theorem workspace_reclaimed {out : Option (Except RunError RunResponse)}
    (h : Prog.Run (r.runRust jobId code) log out) :
    (log.filterMap dirMade = [] ∧ log.filterMap dirRemoved = [] ∧
      log.filterMap fileWritten = [] ∧ log.filterMap requested = []) ∨
      ∃ name, UsesWorkspace r jobId code name log := by
  cases course_of_runRust h with
  | notOpened hopen =>
      obtain ⟨hwritten, hrequested, _⟩ := hopen.silent
      cases hopen with
      | notMade hsetup =>
          obtain ⟨hmade, hremoved, _⟩ := setup_dirs hsetup
          exact Or.inl ⟨hmade, hremoved, hwritten, hrequested⟩
      | @noHostRoot setup name _ removed hsetup =>
          obtain ⟨hmade, hremoved, _⟩ := setup_dirs hsetup
          refine Or.inr ⟨name, ?_, ?_, ?_, heralded_of_filterMap hrequested, ?_⟩
          · rw [List.filterMap_append, hmade]
            rfl
          · rw [List.append_cons, List.append_cons]
            refine ⟨_, _, rfl, by simp, by simp [dirRemoved], ?_⟩
            rw [List.filterMap_append, List.filterMap_append, hremoved]
            rfl
          · rw [hwritten]
            simp
          · rw [hrequested]
            simp
  | @notWritten opening w err removed again hopen =>
      obtain ⟨hwritten, hrequested, _⟩ := hopen.silent
      obtain ⟨name, hostRoot, hw, hmade, hremoved, hread⟩ := hopen.of_ok
      refine Or.inr ⟨name, .of_removed hw ?_ ?_ ?_ ?_ ?_ ?_⟩
      · rw [List.filterMap_append, hmade]
        rfl
      · rw [List.filterMap_append, hremoved]
        rfl
      · rw [List.filterMap_append, hread]
        rfl
      · rw [List.filterMap_append, hwritten]
        simp [fileWritten]
      · refine heralded_of_filterMap ?_
        rw [List.filterMap_append, hrequested]
        rfl
      · rw [List.filterMap_append, hrequested]
        simp [requested]
  | @ran opening w inner _ removed again hopen hinner =>
      obtain ⟨hwritten, hrequested, _⟩ := hopen.silent
      obtain ⟨name, hostRoot, hw, hmade, hremoved, hread⟩ := hopen.of_ok
      obtain ⟨hinnerMade, hinnerRemoved, hinnerWritten, hinnerRead⟩ := right_dirs inner
      refine Or.inr ⟨name, .of_removed hw ?_ ?_ ?_ ?_ ?_ ?_⟩
      · rw [List.filterMap_append, List.filterMap_cons, hmade, hinnerMade]
        rfl
      · rw [List.filterMap_append, List.filterMap_cons, hremoved, hinnerRemoved]
        rfl
      · rw [List.filterMap_append, List.filterMap_cons, hread, hinnerRead]
        rfl
      · rw [List.filterMap_append, List.filterMap_cons, hwritten, hinnerWritten]
        simp [fileWritten]
      · refine heralded_append.mpr ⟨heralded_of_filterMap hrequested, Or.inr ?_⟩
        exact heralded_cons.mpr ⟨by simp [requested], Or.inl (by simp [fileWritten])⟩
      · rw [List.filterMap_append, List.filterMap_cons, hrequested]
        intro config hconfig
        obtain ⟨_, hmem, he⟩ := List.mem_filterMap.mp hconfig
        obtain ⟨e, he', rfl⟩ := List.mem_map.mp hmem
        exact (stages_of_run hinner).2 e he' config (right_requested.mp he)

/-- The workspace of the greeting is reclaimed. -/
theorem greeting_reclaimed :
    ∃ name, UsesWorkspace ⟨"worker-1"⟩ 7 "fn main() {}" name greetingLog := by
  rcases workspace_reclaimed run_greeting with ⟨hmade, _⟩ | hused
  · cases hmade
  · exact hused

private theorem executed_right {e : ContainerEvent} (he : e.op.isInner = false) :
    executed (Event.right e : RunnerEvent) = none := by
  rcases e with ⟨op, answer⟩
  cases op with
  | inner op => cases he
  | _ => rfl

private theorem created_right (e : ContainerEvent) :
    created (Event.right e : RunnerEvent) = createdId e := by
  rcases e with ⟨op, answer⟩
  cases op with
  | own c =>
      cases c with
      | createContainer config => cases answer <;> rfl
      | _ => rfl
  | _ => rfl

private theorem Creation.not_inner {Op : Type} {Ans : Op → Type} {creating : ContainerLog Op Ans}
    {result : Except String Uuid} (h : Creation creating result) :
    ∀ e ∈ creating, e.op.isInner = false := by
  have hpulls : ∀ {pulled : ContainerLog Op Ans}, (∀ e ∈ pulled, pulls e.op = true) →
      ∀ e ∈ pulled, e.op.isInner = false := by
    rintro pulled hpulled ⟨op, answer⟩ he
    have hop := hpulled _ he
    cases op with
    | inner op => cases hop
    | _ => rfl
  cases h with
  | notPulled hpulled => exact hpulls hpulled
  | refused hpulled | notInspected hpulled | created hpulled =>
      exact List.forall_mem_append.mpr ⟨hpulls hpulled, by simp [Raced.isInner]⟩

/-- Nothing is executed among calls that are not the closure's. -/
private theorem unexecuted {inner : ContainerLog ClosureCall ClosureCall.Answer}
    (h : ∀ e ∈ inner, e.op.isInner = false) :
    (inner.map Event.right : List RunnerEvent).filterMap executed = [] := by
  simp only [List.filterMap_eq_nil_iff, List.mem_map]
  rintro _ ⟨e, he, rfl⟩
  exact executed_right (h e he)

/-- The container starts, and the closure is raced in it. -/
def raceStarts (id : Uuid) (lost : Bool) : List RunnerEvent :=
  [⟨.inr (.own (.startContainer id)), (.ok () : Except String Unit)⟩, ⟨.inr .enter, lost⟩]

/-- The calls of a container lead to one execution of the program, behind its gates. -/
private theorem gated_of_stages {inner : ContainerLog ClosureCall ClosureCall.Answer}
    (h : Stages (closure jobId) inner) :
    (inner.map Event.right : List RunnerEvent).filterMap executed = [] ∨
      ∃ id, (inner.map Event.right : List RunnerEvent).filterMap executed = [id] ∧
        ∀ gate ∈ [created, started, compiled, unkilled],
          Heralded (fun d => gate d = some id) (fun e => executed e ≠ none)
            (inner.map Event.right : List RunnerEvent) := by
  cases h with
  | notCreated hcreate => exact Or.inl (unexecuted hcreate.not_inner)
  | notStarted hcreate =>
      exact Or.inl (unexecuted (List.forall_mem_append.mpr
        ⟨hcreate.not_inner, by simp [Raced.isInner]⟩))
  | @raced creating ending id lost trace hcreate htrace hending =>
      have hsplit : (creating ++ (⟨.own (.startContainer id), .ok ()⟩ : ContainerEvent) ::
          ⟨.enter, lost⟩ :: trace.map Event.raced ++ ending).map Event.right =
          creating.map Event.right ++ raceStarts id lost ++ trace.map ofClosure ++
            ending.map Event.right := by
        simp [Event.right, ofClosure, raceStarts, Function.comp_def]
      have hstarting : (creating.map Event.right ++ raceStarts id lost).filterMap executed =
          [] := by
        rw [List.filterMap_append, unexecuted hcreate.not_inner]
        rfl
      have hending' : (ending.map Event.right : List RunnerEvent).filterMap executed = [] := by
        refine unexecuted ?_
        intro e he
        rcases hending e he with hop | hop | hop <;> rw [hop] <;> rfl
      rw [hsplit, List.filterMap_append, List.filterMap_append, hstarting, hending',
        List.nil_append, List.append_nil]
      rcases closure_gated htrace with hnone | ⟨hone, hcompiled, hunkilled⟩
      · exact Or.inl hnone
      · refine Or.inr ⟨id, hone, ?_⟩
        have hfront := fun e he => not_not.mpr (List.filterMap_eq_nil_iff.mp hstarting e he)
        have hback := fun e he => not_not.mpr (List.filterMap_eq_nil_iff.mp hending' e he)
        have hcreated : ∃ d ∈ creating, createdId d = some id := by
          rw [← List.mem_filterMap, hcreate.of_ok.1]
          exact List.mem_singleton_self id
        obtain ⟨d, hd, hid⟩ := hcreated
        simp only [List.forall_mem_cons]
        refine ⟨?_, ?_, hcompiled.framed hfront hback, hunkilled.framed hfront hback, by simp⟩
        · rw [List.append_assoc]
          refine heralded_of_first hfront ⟨Event.right d, ?_, ?_⟩
          · exact List.mem_append_left _ (List.mem_map_of_mem hd)
          · rw [created_right, hid]
        · rw [List.append_assoc]
          exact heralded_of_first hfront ⟨_, List.mem_append_right _ List.mem_cons_self, rfl⟩

/-- **A program is executed at most once, and only behind its gates.**  In every run of
`run_rust`, whatever the calls answer and wherever it is cancelled, nothing is executed
but the compiler, or the program is executed once, in the container that has been
created and started for it, after the compiler has exited there, `exec` reporting `0`
for it, and nothing was killed for its memory, and with the source of the job on the
disk (`Gated`). -/
theorem execution_gated {out : Option (Except RunError RunResponse)}
    (h : Prog.Run (r.runRust jobId code) log out) :
    log.filterMap executed = [] ∨ ∃ id, log.filterMap executed = [id] ∧ Gated id code log := by
  cases course_of_runRust h with
  | notOpened hopen => exact Or.inl hopen.silent.2.2
  | notWritten hopen =>
      left
      rw [List.filterMap_append, List.filterMap_append, hopen.silent.2.2]
      rfl
  | @ran opening w inner _ removed again hopen hinner =>
      have hfront : (opening ++ [(⟨.inl (.write (joinPath w.dir "main.rs") code), .ok ()⟩ :
          RunnerEvent)]).filterMap executed = [] := by
        rw [List.filterMap_append, hopen.silent.2.2]
        rfl
      have hback : [(⟨.inl (.removeDirAll w.dir), removed⟩ : RunnerEvent),
          ⟨.inl (.removeDirAll w.dir), again⟩].filterMap executed = [] := rfl
      rw [List.append_cons opening, List.filterMap_append, List.filterMap_append, hfront, hback,
        List.nil_append, List.append_nil]
      refine (gated_of_stages (stages_of_run hinner).1).imp_right ?_
      rintro ⟨id, hone, hpassed⟩
      have hfront' := fun e he => not_not.mpr (List.filterMap_eq_nil_iff.mp hfront e he)
      have hback' := fun e he => not_not.mpr (List.filterMap_eq_nil_iff.mp hback e he)
      refine ⟨id, hone, ?_, fun gate hgate => (hpassed gate hgate).framed hfront' hback'⟩
      rw [List.append_assoc]
      exact heralded_of_first hfront'
        ⟨_, List.mem_append_right _ (List.mem_singleton_self _), _, rfl⟩

/-- The container whose forced removal is attempted. -/
def removing : RunnerEvent → Option Uuid
  | ⟨.inr (.own (.removeContainer id _)), _⟩ => some id
  | _ => none

private theorem right_removing {e : ContainerEvent} :
    removing (Event.right e : RunnerEvent) = some id ↔
      ∃ force, e.op = .own (.removeContainer id force) := by
  rcases e with ⟨op, answer⟩
  cases op with
  | own c => cases c <;> simp [Event.right, removing]
  | _ => simp [Event.right, removing]

private theorem Opening.not_removing {result : Except String Workspace}
    (h : Opening r.workerId log result) : ∀ e ∈ log, removing e = none := by
  have hsilent : ∀ {setup : List RunnerEvent}, (∀ e ∈ setup, setsUp e = true) →
      ∀ e ∈ setup, removing e = none := by
    intro setup hsetup e he
    have hop := hsetup e he
    unfold setsUp at hop
    split at hop
    · rfl
    · rfl
    · rfl
    · cases hop
  cases h with
  | notMade hsetup => exact hsilent hsetup
  | noHostRoot hsetup | made hsetup =>
      exact List.forall_mem_append.mpr ⟨hsilent hsetup, by simp [removing]⟩

/-- A container is asked for once there is a directory. -/
theorem requested_behind_dir {out : Option (Except RunError RunResponse)}
    (h : Prog.Run (r.runRust jobId code) log out) :
    Heralded (fun d => dirMade d ≠ none) (fun e => requested e ≠ none) log := by
  cases course_of_runRust h with
  | notOpened hopen => exact heralded_of_filterMap hopen.silent.2.1
  | @notWritten opening w err removed again hopen =>
      refine heralded_of_filterMap ?_
      rw [List.filterMap_append, List.filterMap_append, hopen.silent.2.1]
      rfl
  | @ran opening w inner _ removed again hopen hinner =>
      obtain ⟨_, _, _, hmade, _⟩ := hopen.of_ok
      obtain ⟨d, hd, hdir⟩ : ∃ d ∈ opening, dirMade d = some w.dir := by
        rw [← List.mem_filterMap, hmade]
        exact List.mem_singleton_self _
      rw [List.append_assoc]
      refine heralded_of_first ?_ ⟨d, hd, by simp [hdir]⟩
      intro e he
      exact not_not.mpr (List.filterMap_eq_nil_iff.mp hopen.silent.2.1 e he)

/-- A container is removed by the execution that has created it. -/
theorem removing_behind_created {out : Option (Except RunError RunResponse)}
    (h : Prog.Run (r.runRust jobId code) log out) (id : Uuid) :
    Heralded (fun d => created d = some id) (fun e => removing e = some id) log := by
  cases course_of_runRust h with
  | notOpened hopen => exact heralded_of_not fun e he => by simp [hopen.not_removing e he]
  | @notWritten opening w err removed again hopen =>
      refine heralded_of_not (List.forall_mem_append.mpr ⟨List.forall_mem_append.mpr ⟨?_, ?_⟩, ?_⟩)
      · exact fun e he => by simp [hopen.not_removing e he]
      · simp [removing]
      · simp [removing]
  | @ran opening w inner _ removed again hopen hinner =>
      rw [List.append_cons opening]
      refine Heralded.framed ?_ ?_ (by simp [removing])
      · have hcreating : ∀ {creating : ContainerLog ClosureCall ClosureCall.Answer}
            {result : Except String Uuid}, Creation creating result →
              ∀ e ∈ creating, ¬ removing (Event.right e : RunnerEvent) = some id := by
          intro creating result hcreate e he hremoving
          obtain ⟨force, hop⟩ := right_removing.mp hremoving
          have hnot := hcreate.not_removes e he
          rw [hop] at hnot
          cases hnot
        refine heralded_map.mpr ?_
        cases (stages_of_run hinner).1 with
        | notCreated hcreate => exact heralded_of_not (hcreating hcreate)
        | notStarted hcreate =>
            exact heralded_of_not (List.forall_mem_append.mpr
              ⟨hcreating hcreate, by simp [removing, Event.right]⟩)
        | @raced creating ending id' lost trace hcreate htrace hending =>
            rw [List.append_assoc]
            refine heralded_append.mpr ⟨heralded_of_not (hcreating hcreate), ?_⟩
            by_cases hid : id' = id
            · subst hid
              left
              simp only [created_right]
              rw [← List.mem_filterMap, hcreate.of_ok.1]
              exact List.mem_singleton_self _
            · right
              refine heralded_of_not ?_
              intro e he hremoving
              obtain ⟨force, hop⟩ := right_removing.mp hremoving
              simp only [List.cons_append, List.mem_cons, List.mem_append, List.mem_map] at he
              rcases he with rfl | rfl | ⟨e, _, rfl⟩ | he
              · cases hop
              · cases hop
              · cases hop
              · rcases hending e he with hdrop | hstop | hremove
                · simp [hdrop] at hop
                · simp [hstop] at hop
                · rw [hremove] at hop
                  cases hop
                  exact hid rfl
      · refine List.forall_mem_append.mpr ⟨?_, by simp [removing]⟩
        exact fun e he => by simp [hopen.not_removing e he]

/-- The greeting is executed in its container. -/
theorem greeting_gated :
    greetingLog.filterMap executed = [900] ∧ Gated 900 "fn main() {}" greetingLog := by
  rcases execution_gated run_greeting with hnone | ⟨id, hone, hgated⟩
  · cases hnone
  · cases hone
    exact ⟨rfl, hgated⟩

end Traces

end DockerRunner

end EditorBack
