import EditorBack.CallTree
import EditorBack.DockerRun
import EditorBack.WireText

/-!
# The container of one execution

`with_container` creates a container, starts it, races a closure inside it
against a cancellation, and cleans up.  The closure is any program: what it does
is up to the caller, and it may be dropped at any of its calls.

`create` and the start that follows it give up on the first error, and so does
their caller.  Two of their calls come after the container exists.
`container_removed_iff` says that these two are the only way to leave a
container behind: from the race on, every path ends in a forced removal.
-/

namespace EditorBack

open CallTree

/-- The labels of a container, or of its summary in a list. -/
abbrev Labels := List (String × String)

/-- `HostConfig`, the limits a container runs under. -/
structure HostConfig where
  binds : List String
  memory : Nat
  memorySwap : Nat
  nanoCpus : Nat
  networkMode : String
  pidsLimit : Nat
  capDrop : List String
  readonlyRootfs : Bool
  tmpfs : List String

/-- `ContainerCreateBody`. -/
structure ContainerConfig where
  image : String
  cmd : List String
  tty : Bool
  attachStdout : Bool
  attachStderr : Bool
  openStdin : Bool
  hostConfig : HostConfig
  labels : Labels

/-- `ContainerInspectResponse`, as far as it is read: `state.oom_killed` and
`config.labels`. -/
structure ContainerInspect where
  state : Option (Option Bool)
  config : Option (Option Labels)

/-- One element of the answer to `list_containers`. -/
structure ContainerSummary where
  id : Option Uuid
  labels : Option Labels

/-- Errors of the Docker client, as far as they are told apart. -/
inductive DockerError
  | notFound
  | other (err : String)

/-- The calls to the Docker daemon. -/
inductive DockerCall
  | inspectImage (image : String)
  /-- `create_image`, read to the end of its progress messages -/
  | createImage (image : String)
  | createContainer (config : ContainerConfig)
  | inspectContainer (id : Uuid)
  | startContainer (id : Uuid)
  /-- `stop_container` with a grace period in seconds -/
  | stopContainer (id : Uuid) (t : Nat)
  | removeContainer (id : Uuid) (force : Bool)
  /-- `list_containers`, stopped ones included, under a label -/
  | listContainers (label : String)

@[reducible] def DockerCall.Answer : DockerCall → Type
  | .inspectImage _ => Except DockerError Unit
  | .createImage _ => Except String Unit
  | .createContainer _ => Except String Uuid
  | .inspectContainer _ => Except String ContainerInspect
  | .startContainer _ | .stopContainer _ _ | .removeContainer _ _ => Except String Unit
  | .listContainers _ => Except String (List ContainerSummary)

/-- A program that calls Docker and runs another program under `select!`. -/
abbrev ContainerProg (Op : Type) (Ans : Op → Type) :=
  Prog (Raced DockerCall Op) (Raced.Ans DockerCall.Answer Ans)

/-- What such a program has done. -/
abbrev ContainerLog (Op : Type) (Ans : Op → Type) :=
  List (Event (Raced DockerCall Op) (Raced.Ans DockerCall.Answer Ans))

structure DockerRunner where
  workerId : String

namespace DockerRunner

section Programs

variable {Op : Type} {Ans : Op → Type}

/-- One call to Docker. -/
def docker (c : DockerCall) : ContainerProg Op Ans c.Answer :=
  Prog.perform (Raced.own c)

/-- `pull_if_needed`. -/
def pullIfNeeded (image : String) : ContainerProg Op Ans (Except String Unit) := do
  let inspect : Except DockerError Unit ← docker (.inspectImage image)
  match inspect with
  | .ok () => pure (.ok ())
  | .error .notFound => docker (.createImage image)
  | .error (.other err) => pure (.error err)

/-- What `create` asks for. -/
def containerConfig (r : DockerRunner) (image workspace : String) (jobId : Uuid)
    (tempPath : String) : ContainerConfig where
  image := image
  cmd := ["sleep", "3600"]
  tty := false
  attachStdout := true
  attachStderr := true
  openStdin := false
  hostConfig :=
    { binds := [workspace ++ ":/workspaces"]
      memory := 128 * 1024 * 1024
      memorySwap := 128 * 1024 * 1024
      nanoCpus := 500000000
      networkMode := "none"
      pidsLimit := 64
      capDrop := ["ALL"]
      readonlyRootfs := true
      tmpfs := ["/tmp"] }
  labels :=
    [("app", "code-runner"), ("managed-by", "worker"), ("oj.worker_id", r.workerId),
      ("oj.job_id", jobId.hyphenated), ("oj.workspace", tempPath)]

/-- `create`. -/
def create (r : DockerRunner) (image workspace : String) (jobId : Uuid) (tempPath : String) :
    ContainerProg Op Ans (Except String Uuid) := do
  let pulled ← pullIfNeeded image
  match pulled with
  | .error err => pure (.error err)
  | .ok () =>
    let response : Except String Uuid ←
      docker (.createContainer (r.containerConfig image workspace jobId tempPath))
    match response with
    | .error err => pure (.error err)
    | .ok id =>
      let inspect : Except String ContainerInspect ← docker (.inspectContainer id)
      match inspect with
      | .error err => pure (.error err)
      | .ok _ => pure (.ok id)

/-- `start`. -/
def start (id : Uuid) : ContainerProg Op Ans (Except String Unit) :=
  docker (.startContainer id)

/-- `stop`. -/
def stop (id : Uuid) : ContainerProg Op Ans (Except String Unit) :=
  docker (.stopContainer id 1)

/-- `remove`, which `cleanup_container` hands on. -/
def remove (id : Uuid) : ContainerProg Op Ans (Except String Unit) :=
  docker (.removeContainer id true)

/-- `clean_up`: both errors are logged only. -/
def cleanUp (id : Uuid) : ContainerProg Op Ans Unit := do
  let _ ← stop id
  let _ ← remove id
  pure ()

/-- The `select!` of the closure's future against `cancel.cancelled()`. -/
def selectCancelled {α : Type} (id : Uuid) (future : Prog Op Ans (Except RunError α)) :
    ContainerProg Op Ans (Except RunError α) := do
  let raced ← race future
  match raced with
  | some res => pure res
  | none =>
    let _ ← stop id
    pure (.error .cancelled)

/-- `with_container`. -/
def withContainer (r : DockerRunner) (image workspace : String) (jobId : Uuid)
    (tempPath : String) (f : Uuid → Prog Op Ans (Except RunError RunResponse)) :
    ContainerProg Op Ans (Except RunError RunResponse) := do
  let created ← r.create image workspace jobId tempPath
  match created with
  | .error err => pure (.error (.other err))
  | .ok id =>
    let started ← start id
    match started with
    | .error err => pure (.error (.other err))
    | .ok () =>
      let result ← selectCancelled id (f id)
      cleanUp id
      pure result

end Programs

/-! ## What a call has left behind -/

section Claims

variable {Op : Type} {Ans : Op → Type}

/-- The id that `create_container` has returned. -/
def createdId : Event (Raced DockerCall Op) (Raced.Ans DockerCall.Answer Ans) → Option Uuid
  | ⟨.own (.createContainer _), .ok id⟩ => some id
  | _ => none

/-- The container is inspected after its creation, or started, and that fails. -/
def failsToStart : Event (Raced DockerCall Op) (Raced.Ans DockerCall.Answer Ans) → Bool
  | ⟨.own (.inspectContainer _), .error _⟩ | ⟨.own (.startContainer _), .error _⟩ => true
  | _ => false

/-- `create_container` returned the id. -/
def Created (log : ContainerLog Op Ans) (id : Uuid) : Prop :=
  id ∈ log.filterMap createdId

/-- A forced removal of the container has been attempted, and each such attempt
comes after the closure's future has been dropped, behind everything the closure
has done. -/
structure Removed (log : ContainerLog Op Ans) (id : Uuid) : Prop where
  attempted : ∃ e ∈ log, e.op = .own (.removeContainer id true)
  last : ∀ before e after, log = before ++ e :: after → e.op = .own (.removeContainer id true) →
    (∃ d ∈ before, d.op = .drop) ∧ ∀ e' ∈ after, e'.op.isInner = false

/-- **No container is left behind.** -/
def NothingLeft (log : ContainerLog Op Ans) : Prop :=
  ∀ id, Created log id → Removed log id

/-- Once there is a container, its inspection in `create` and its start both
succeed. -/
def Starts (log : ContainerLog Op Ans) : Prop :=
  ∀ e ∈ log, failsToStart e = false

/-- What makes `create` fail. -/
def creationError : Event (Raced DockerCall Op) (Raced.Ans DockerCall.Answer Ans) → Option String
  | ⟨.own (.inspectImage _), .error (.other err)⟩ | ⟨.own (.createImage _), .error err⟩
  | ⟨.own (.createContainer _), .error err⟩ | ⟨.own (.inspectContainer _), .error err⟩ => some err
  | _ => none

/-- What makes `start` fail. -/
def startError : Event (Raced DockerCall Op) (Raced.Ans DockerCall.Answer Ans) → Option String
  | ⟨.own (.startContainer _), .error err⟩ => some err
  | _ => none

end Claims

/-! ## How a call goes -/

section Courses

variable {Op : Type} {Ans : Op → Type} {f : Uuid → Prog Op Ans (Except RunError RunResponse)}

/-- The call looks for the image, or pulls it. -/
def pulls : Raced DockerCall Op → Bool
  | .own (.inspectImage _) | .own (.createImage _) => true
  | _ => false

/-- The call removes a container. -/
def removes : Raced DockerCall Op → Bool
  | .own (.removeContainer _ _) => true
  | _ => false

/-- The ways of `create`, with its result. -/
inductive Creation : ContainerLog Op Ans → Except String Uuid → Prop
  | notPulled {pulled : ContainerLog Op Ans} {err : String}
      (hpulled : ∀ e ∈ pulled, pulls e.op = true)
      (hfailed : firstFailure creationError pulled = .error err) : Creation pulled (.error err)
  | refused {pulled : ContainerLog Op Ans} {config : ContainerConfig} {err : String}
      (hpulled : ∀ e ∈ pulled, pulls e.op = true)
      (hquiet : firstFailure creationError pulled = .ok ()) :
      Creation (pulled ++ [⟨.own (.createContainer config), (.error err : Except String Uuid)⟩])
        (.error err)
  | notInspected {pulled : ContainerLog Op Ans} {config : ContainerConfig} {id : Uuid}
      {err : String} (hpulled : ∀ e ∈ pulled, pulls e.op = true)
      (hquiet : firstFailure creationError pulled = .ok ()) :
      Creation
        (pulled ++ [⟨.own (.createContainer config), (.ok id : Except String Uuid)⟩,
          ⟨.own (.inspectContainer id), (.error err : Except String ContainerInspect)⟩])
        (.error err)
  | created {pulled : ContainerLog Op Ans} {config : ContainerConfig} {id : Uuid}
      {inspect : ContainerInspect} (hpulled : ∀ e ∈ pulled, pulls e.op = true)
      (hquiet : firstFailure creationError pulled = .ok ()) :
      Creation
        (pulled ++ [⟨.own (.createContainer config), (.ok id : Except String Uuid)⟩,
          ⟨.own (.inspectContainer id), (.ok inspect : Except String ContainerInspect)⟩])
        (.ok id)

/-- The ways of `with_container`, with its result. -/
inductive Course (f : Uuid → Prog Op Ans (Except RunError RunResponse)) :
    ContainerLog Op Ans → Except RunError RunResponse → Prop
  | notCreated {creating : ContainerLog Op Ans} {err : String}
      (hcreate : Creation creating (.error err)) : Course f creating (.error (.other err))
  | notStarted {creating : ContainerLog Op Ans} {id : Uuid} {err : String}
      (hcreate : Creation creating (.ok id)) :
      Course f (creating ++ [⟨.own (.startContainer id), (.error err : Except String Unit)⟩])
        (.error (.other err))
  | raced {creating raced stops : ContainerLog Op Ans} {id : Uuid}
      {stopped removed : Except String Unit} {result : Except RunError RunResponse}
      (hcreate : Creation creating (.ok id))
      (hraced : ∀ e ∈ raced, e.op = .enter ∨ e.op.isInner = true)
      (hend : (stops = [] ∧ raced.any Event.isLost = false ∧
          Prog.Run (f id) (raced.filterMap Event.answered) (some result)) ∨
        ((∃ res, stops = [⟨.own (.stopContainer id 1), res⟩]) ∧ raced.any Event.isLost = true ∧
          result = .error .cancelled)) :
      Course f
        (creating ++ [⟨.own (.startContainer id), (.ok () : Except String Unit)⟩] ++
          raced ++ [⟨.drop, ()⟩] ++ stops ++
          [⟨.own (.stopContainer id 1), stopped⟩, ⟨.own (.removeContainer id true), removed⟩])
        result

variable {log : ContainerLog Op Ans}

/-- A program that begins with a call to Docker. -/
theorem run_docker_bind {β : Type} {c : DockerCall} {g : c.Answer → ContainerProg Op Ans β}
    {out : Option β} (h : Prog.Run (docker c >>= g) log out) :
    ∃ (answer : c.Answer) (rest : ContainerLog Op Ans),
      log = ⟨.own c, answer⟩ :: rest ∧ Prog.Run (g answer) rest out :=
  Prog.run_perform_bind.mp h

/-- One call to Docker. -/
theorem run_docker {c : DockerCall} {out : Option c.Answer}
    (h : Prog.Run (docker c : ContainerProg Op Ans c.Answer) log out) :
    ∃ answer, log = [⟨.own c, answer⟩] ∧ out = some answer := by
  obtain ⟨answer, rest, rfl, hrest⟩ := Prog.run_call.mp h
  cases hrest
  exact ⟨answer, rfl, rfl⟩

theorem run_pullIfNeeded {image : String} {out : Option (Except String Unit)}
    (h : Prog.Run (pullIfNeeded image) log out) :
    ∃ result, out = some result ∧ (∀ e ∈ log, pulls e.op = true) ∧
      firstFailure creationError log = result := by
  obtain ⟨inspect, rest, rfl, hrest⟩ := run_docker_bind h
  split at hrest
  · obtain ⟨rfl, rfl⟩ := Prog.run_pure.mp hrest
    exact ⟨_, rfl, by simp [pulls], rfl⟩
  · obtain ⟨answer, rfl, rfl⟩ := run_docker hrest
    exact ⟨_, rfl, by simp [pulls], by cases answer <;> rfl⟩
  · obtain ⟨rfl, rfl⟩ := Prog.run_pure.mp hrest
    exact ⟨_, rfl, by simp [pulls], rfl⟩

/-- `clean_up` attempts a stop and a forced removal. -/
theorem run_cleanUp {id : Uuid} {out : Option Unit} (h : Prog.Run (cleanUp id) log out) :
    ∃ stopped removed, log = [⟨.own (.stopContainer id 1), stopped⟩,
      ⟨.own (.removeContainer id true), removed⟩] ∧ out = some () := by
  obtain ⟨stopped, rest, rfl, hremove⟩ := run_docker_bind h
  obtain ⟨removed, rest, rfl, hend⟩ := run_docker_bind hremove
  obtain ⟨rfl, rfl⟩ := Prog.run_pure.mp hend
  exact ⟨stopped, removed, rfl, rfl⟩

theorem run_create {r : DockerRunner} {image workspace : String} {jobId : Uuid}
    {tempPath : String} {out : Option (Except String Uuid)}
    (h : Prog.Run (r.create image workspace jobId tempPath) log out) :
    ∃ result, out = some result ∧ Creation log result := by
  rcases Prog.run_bind.mp h with ⟨pulled, rest, answer, rfl, hpull, hrest⟩ | ⟨hpull, _⟩
  · obtain ⟨_, hout, hpulled, hanswer⟩ := run_pullIfNeeded hpull
    cases hout
    cases answer with
    | error err =>
        obtain ⟨rfl, rfl⟩ := Prog.run_pure.mp hrest
        exact ⟨_, rfl, by simpa using Creation.notPulled hpulled hanswer⟩
    | ok _ =>
        obtain ⟨response, rest, rfl, hinspect⟩ := run_docker_bind hrest
        cases response with
        | error err =>
            obtain ⟨rfl, rfl⟩ := Prog.run_pure.mp hinspect
            exact ⟨_, rfl, .refused hpulled hanswer⟩
        | ok id =>
            obtain ⟨inspect, rest, rfl, hlast⟩ := run_docker_bind hinspect
            cases inspect with
            | error err =>
                obtain ⟨rfl, rfl⟩ := Prog.run_pure.mp hlast
                exact ⟨_, rfl, .notInspected hpulled hanswer⟩
            | ok inspect =>
                obtain ⟨rfl, rfl⟩ := Prog.run_pure.mp hlast
                exact ⟨_, rfl, .created hpulled hanswer⟩
  · obtain ⟨_, hout, _⟩ := run_pullIfNeeded hpull
    cases hout

/-- The `select!` ends with the closure's result, or stops the container after it
has been cancelled; the future is dropped in any case. -/
theorem run_selectCancelled {id : Uuid} {future : Prog Op Ans (Except RunError RunResponse)}
    {result : Except RunError RunResponse}
    (h : Prog.Run (selectCancelled id future) log (some result)) :
    ∃ raced stops, log = raced ++ [⟨.drop, ()⟩] ++ stops ∧
      (∀ e ∈ raced, e.op = .enter ∨ e.op.isInner = true) ∧
      ((stops = [] ∧ raced.any Event.isLost = false ∧
          Prog.Run future (raced.filterMap Event.answered) (some result)) ∨
        ((∃ res, stops = [⟨.own (.stopContainer id 1), res⟩]) ∧ raced.any Event.isLost = true ∧
          result = .error .cancelled)) := by
  rcases Prog.run_bind.mp h with ⟨before, after, raced, rfl, hrace, hafter⟩ | ⟨_, hnone⟩
  · obtain ⟨inner, rfl, hraced, hlost, hresult⟩ := run_race hrace
    cases raced with
    | some res =>
        obtain ⟨rfl, hout⟩ := Prog.run_pure.mp hafter
        cases hout
        exact ⟨inner, [], by simp, hraced, Or.inl ⟨rfl, hlost, hresult _ rfl⟩⟩
    | none =>
        obtain ⟨res, rest, rfl, hrest⟩ := run_docker_bind hafter
        obtain ⟨rfl, hout⟩ := Prog.run_pure.mp hrest
        cases hout
        exact ⟨inner, [⟨.own (.stopContainer id 1), res⟩], rfl, hraced,
          Or.inr ⟨⟨res, rfl⟩, hlost, rfl⟩⟩
  · cases hnone

/-- **Every call of `with_container` that returns goes one of its ways.** -/
theorem course_of_run {r : DockerRunner} {image workspace : String} {jobId : Uuid}
    {tempPath : String} {result : Except RunError RunResponse}
    (h : Prog.Run (r.withContainer image workspace jobId tempPath f) log (some result)) :
    Course f log result := by
  rcases Prog.run_bind.mp h with ⟨creating, after, created, rfl, hcreating, hafter⟩ | ⟨_, hnone⟩
  · obtain ⟨_, hout, hcreate⟩ := run_create hcreating
    cases hout
    cases created with
    | error err =>
        obtain ⟨rfl, hout⟩ := Prog.run_pure.mp hafter
        cases hout
        simpa using Course.notCreated hcreate
    | ok id =>
        obtain ⟨started, rest, rfl, hstarted⟩ := run_docker_bind hafter
        cases started with
        | error err =>
            obtain ⟨rfl, hout⟩ := Prog.run_pure.mp hstarted
            cases hout
            exact .notStarted hcreate
        | ok _ =>
            rcases Prog.run_bind.mp hstarted with
              ⟨racing, ending, res, rfl, hselect, hcleaning⟩ | ⟨_, hnone⟩
            · obtain ⟨raced, stops, rfl, hraced, hend⟩ := run_selectCancelled hselect
              rcases Prog.run_bind.mp hcleaning with
                ⟨cleaning, rest, _, rfl, hclean, hrest⟩ | ⟨_, hnone⟩
              · obtain ⟨stopped, removed, rfl, _⟩ := run_cleanUp hclean
                obtain ⟨rfl, hout⟩ := Prog.run_pure.mp hrest
                cases hout
                simpa using Course.raced hcreate hraced hend
              · cases hnone
            · cases hnone
  · cases hnone

/-- Nothing is created or removed, and no start fails. -/
structure Neutral (log : ContainerLog Op Ans) : Prop where
  creates : log.filterMap createdId = []
  starts : Starts log
  removes : ∀ e ∈ log, removes e.op = false

theorem Neutral.of_each (h : ∀ e ∈ log, createdId e = none ∧ failsToStart e = false ∧
    DockerRunner.removes e.op = false) : Neutral log :=
  ⟨List.filterMap_eq_nil_iff.mpr fun e he => (h e he).1, fun e he => (h e he).2.1,
    fun e he => (h e he).2.2⟩

theorem Neutral.of_pulls (hpulled : ∀ e ∈ log, pulls e.op = true) : Neutral log := by
  refine .of_each ?_
  rintro ⟨op, answer⟩ he
  have hop := hpulled _ he
  cases op with
  | own c =>
      cases c with
      | inspectImage | createImage => exact ⟨rfl, rfl, rfl⟩
      | _ => cases hop
  | _ => cases hop

theorem Neutral.of_raced (hraced : ∀ e ∈ log, e.op = .enter ∨ e.op.isInner = true) :
    Neutral log := by
  refine .of_each ?_
  rintro ⟨op, answer⟩ he
  have hop := hraced _ he
  cases op with
  | enter | inner => exact ⟨rfl, rfl, rfl⟩
  | own | drop => simp [Raced.isInner] at hop

/-- Nothing is removed during the creation. -/
theorem Creation.not_removes {result : Except String Uuid} (h : Creation log result) :
    ∀ e ∈ log, removes e.op = false := by
  cases h with
  | notPulled hpulled => exact (Neutral.of_pulls hpulled).removes
  | refused hpulled | notInspected hpulled | created hpulled =>
      exact List.forall_mem_append.mpr ⟨(Neutral.of_pulls hpulled).removes, by simp [removes]⟩

/-- A creation that succeeds has created one container and inspected it. -/
theorem Creation.of_ok {id : Uuid} (h : Creation log (.ok id)) :
    log.filterMap createdId = [id] ∧ Starts log := by
  cases h with
  | created hpulled =>
      have hneutral := Neutral.of_pulls hpulled
      refine ⟨?_, List.forall_mem_append.mpr ⟨hneutral.starts, by simp [failsToStart]⟩⟩
      rw [List.filterMap_append, hneutral.creates]
      rfl

/-- A creation that fails leaves a container exactly if it is the inspection that
has failed. -/
theorem Creation.of_error {err : String} (h : Creation log (.error err)) :
    (∃ id, Created log id) ↔ ¬ Starts log := by
  cases h with
  | notPulled hpulled =>
      have hneutral := Neutral.of_pulls hpulled
      refine iff_of_false ?_ (fun hnot => hnot hneutral.starts)
      simp [Created, hneutral.creates]
  | refused hpulled =>
      have hneutral := Neutral.of_pulls hpulled
      refine iff_of_false ?_ (fun hnot => hnot (List.forall_mem_append.mpr
        ⟨hneutral.starts, by simp [failsToStart]⟩))
      simp [Created, List.filterMap_append, hneutral.creates, createdId]
  | @notInspected pulled config id err hpulled =>
      have hneutral := Neutral.of_pulls hpulled
      refine iff_of_true ⟨id, ?_⟩ ?_
      · rw [Created, List.filterMap_append, hneutral.creates]
        exact List.mem_singleton_self id
      · intro hstarts
        have hfails := hstarts ⟨.own (.inspectContainer id), .error err⟩ (by simp)
        cases hfails

/-- Without a removal, nothing is left exactly if nothing has been created. -/
theorem nothingLeft_iff_of_not_removes (hnot : ∀ e ∈ log, removes e.op = false) :
    NothingLeft log ↔ ¬ ∃ id, Created log id := by
  constructor
  · rintro hleft ⟨id, hid⟩
    obtain ⟨e, he, hop⟩ := (hleft id hid).attempted
    have hremoves := hnot e he
    rw [hop] at hremoves
    cases hremoves
  · exact fun hnone id hid => absurd ⟨id, hid⟩ hnone

/-- A removal that comes last, and only there, comes after the drop. -/
theorem removed_of_last {front : ContainerLog Op Ans} {id : Uuid} {res : Except String Unit}
    (hnot : ∀ e ∈ front, removes e.op = false) (hdrop : ∃ d ∈ front, d.op = .drop) :
    Removed (front ++ [⟨.own (.removeContainer id true), res⟩]) id := by
  refine ⟨⟨_, List.mem_append_right _ (List.mem_singleton_self _), rfl⟩, ?_⟩
  intro before e after hlog hop
  rcases List.eq_nil_or_concat after with rfl | ⟨rest, last, rfl⟩
  · obtain ⟨rfl, _⟩ := List.append_inj' hlog rfl
    exact ⟨hdrop, by simp⟩
  · -- with something behind it, the removal would be in front
    have hsplit : front ++ [⟨.own (.removeContainer id true), res⟩] =
        (before ++ e :: rest) ++ [last] := by simpa using hlog
    obtain ⟨rfl, _⟩ := List.append_inj' hsplit rfl
    have hremoves := hnot e (by simp)
    rw [hop] at hremoves
    cases hremoves

/-- **A container is removed exactly if it starts.**  Whatever the closure does,
however the calls to Docker are answered and whenever the cancellation comes: a
call of `with_container` that returns has attempted a forced removal of the
container it has created, after dropping the closure's future, if and only if
neither the inspection behind the creation nor the start has failed. -/
theorem container_removed_iff {r : DockerRunner} {image workspace : String} {jobId : Uuid}
    {tempPath : String} {result : Except RunError RunResponse}
    (h : Prog.Run (r.withContainer image workspace jobId tempPath f) log (some result)) :
    NothingLeft log ↔ Starts log := by
  cases course_of_run h with
  | notCreated hcreate =>
      rw [nothingLeft_iff_of_not_removes hcreate.not_removes, hcreate.of_error, not_not]
  | @notStarted creating id err hcreate =>
      obtain ⟨hid, _⟩ := hcreate.of_ok
      refine iff_of_false ?_ ?_
      · rw [nothingLeft_iff_of_not_removes, not_not]
        · refine ⟨id, ?_⟩
          rw [Created, List.filterMap_append, hid]
          exact List.mem_singleton_self id
        · exact List.forall_mem_append.mpr ⟨hcreate.not_removes, by simp [removes]⟩
      · intro hstarts
        have hfails := hstarts ⟨.own (.startContainer id), .error err⟩ (by simp)
        cases hfails
  | @raced creating raced stops id stopped removed _ hcreate hraced hend =>
      obtain ⟨hid, hstarts⟩ := hcreate.of_ok
      have hrace := Neutral.of_raced hraced
      have hstop : Neutral stops := by
        rcases hend with ⟨rfl, _⟩ | ⟨⟨res, rfl⟩, _⟩
        · exact .of_each (by simp)
        · exact .of_each (by simp [createdId, failsToStart, removes])
      refine iff_of_true ?_ ?_
      · intro id' hid'
        simp only [Created, List.filterMap_append, hid, hrace.creates, hstop.creates] at hid'
        obtain rfl : id' = id := List.mem_singleton.mp hid'
        rw [List.append_cons]
        refine removed_of_last ?_ ⟨⟨.drop, ()⟩, by simp, rfl⟩
        simp only [List.forall_mem_append]
        exact ⟨⟨⟨⟨⟨hcreate.not_removes, by simp [removes]⟩, hrace.removes⟩,
          by simp [removes]⟩, hstop.removes⟩, by simp [removes]⟩
      · simp only [Starts, List.forall_mem_append]
        exact ⟨⟨⟨⟨⟨hstarts, by simp [failsToStart]⟩, hrace.starts⟩,
          by simp [failsToStart]⟩, hstop.starts⟩, by simp [failsToStart]⟩

end Courses

/-! ## The closure of `run_rust` -/

/-- The calls of the closure `run_rust` passes: an `exec` under its time limit,
`stop` and `inspect_container`. -/
inductive ClosureCall
  | timedExec (id : Uuid) (cmd : List String) (limit : Time)
  | stop (id : Uuid)
  | inspect (id : Uuid)

@[reducible] def ClosureCall.Answer : ClosureCall → Type
  | .timedExec _ _ _ => TimedExec
  | .stop _ => Except String Unit
  | .inspect _ => Except String ContainerInspect

/-- One call of the closure. -/
def ask (c : ClosureCall) : Prog ClosureCall ClosureCall.Answer c.Answer :=
  Prog.perform c

/-- The second half of the closure. -/
def program (jobId id : Uuid) :
    Prog ClosureCall ClosureCall.Answer (Except RunError RunResponse) := do
  let res : TimedExec ← ask (.timedExec id ["/workspaces/main"] (seconds 20))
  match res with
  | .elapsed =>
    let _ ← ask (.stop id)
    pure (.ok ⟨"", .timeLimitExceeded, "", -1, jobId⟩)
  | .completed (.error err) => pure (.error (.other err))
  | .completed (.ok out) =>
    let container : Except String ContainerInspect ← ask (.inspect id)
    match container with
    | .error err => pure (.error (.other err))
    | .ok ⟨none, _⟩ => pure (.error (.other "container state is missing"))
    | .ok ⟨some oomKilled, _⟩ =>
      let result := out.result
      if oomKilled.getD false then
        pure (.ok ⟨result.stdout, .memoryLimitExceeded, result.stderr,
          result.exitCode.getD (-1), jobId⟩)
      else
        match result.exitCode with
        | none => .panic
        | some code =>
          pure (.ok ⟨result.stdout, if code = 0 then .success else .runtimeError,
            result.stderr, code, jobId⟩)

/-- The closure. -/
def closure (jobId id : Uuid) :
    Prog ClosureCall ClosureCall.Answer (Except RunError RunResponse) := do
  let compile : TimedExec ← ask
    (.timedExec id ["rustc", "/workspaces/main.rs", "-o", "/workspaces/main"] (seconds 10))
  match compile with
  | .elapsed =>
    let stopped : Except String Unit ← ask (.stop id)
    match stopped with
    | .error err => pure (.error (.other err))
    | .ok () => pure (.ok ⟨"", .timeLimitExceeded, "compilation timed out", -1, jobId⟩)
  | .completed (.error err) => pure (.error (.other err))
  | .completed (.ok out) =>
    let container : Except String ContainerInspect ← ask (.inspect id)
    match container with
    | .error err => pure (.error (.other err))
    | .ok ⟨none, _⟩ => pure (.error (.other "container state is missing"))
    | .ok ⟨some oomKilled, _⟩ =>
      let compile := out.result
      if oomKilled.getD false then
        pure (.ok ⟨compile.stdout, .memoryLimitExceeded, compile.stderr,
          compile.exitCode.getD (-1), jobId⟩)
      else
        match compile.exitCode with
        | none => .panic
        | some code =>
          if code ≠ 0 then pure (.ok ⟨"", .compileError, compile.stderr, code, jobId⟩)
          else program jobId id

/-! ## The answers on record -/

/-- The answer to the `exec` of a command. -/
def execAnswer (cmd : List String) : Event ClosureCall ClosureCall.Answer → Option TimedExec
  | ⟨.timedExec _ cmd' _, answer⟩ => if cmd' = cmd then some answer else none
  | _ => none

/-- The answer to `stop`. -/
def stopAnswer : Event ClosureCall ClosureCall.Answer → Option (Except String Unit)
  | ⟨.stop _, answer⟩ => some answer
  | _ => none

/-- The state that `inspect_container` answers. -/
def stateAnswer :
    Event ClosureCall ClosureCall.Answer → Option (Except String (Option (Option Bool)))
  | ⟨.inspect _, answer⟩ => some (answer.map ContainerInspect.state)
  | _ => none

/-- The answers that the log of a container has on record, behind those of the workspace.
The second inspection is that of the program.  What was not asked is not read. -/
def answersIn (workspace writeMain : Except String Unit)
    (log : ContainerLog ClosureCall ClosureCall.Answer) : RunCalls where
  workspace := workspace
  writeMain := writeMain
  create := firstFailure creationError log
  start := firstFailure startError log
  cancelled := log.any Event.isLost
  compile := ((log.filterMap Event.answered).findSome? (execAnswer
    ["rustc", "/workspaces/main.rs", "-o", "/workspaces/main"])).getD .elapsed
  stopCompile := ((log.filterMap Event.answered).findSome? stopAnswer).getD (.ok ())
  inspectCompile := (((log.filterMap Event.answered).filterMap stateAnswer)[0]?).getD (.ok none)
  run := ((log.filterMap Event.answered).findSome? (execAnswer ["/workspaces/main"])).getD .elapsed
  inspectRun := (((log.filterMap Event.answered).filterMap stateAnswer)[1]?).getD (.ok none)

section Refinement

variable {jobId id : Uuid} {log : List (Event ClosureCall ClosureCall.Answer)}
  {out : Option (Except RunError RunResponse)} {calls : RunCalls}

/-- The second half of the closure ends as `runProgram` says of its answers. -/
theorem runProgram_of_run (h : Prog.Run (program jobId id) log out)
    (hrun : calls.run = (log.findSome? (execAnswer ["/workspaces/main"])).getD .elapsed)
    (hinspect : calls.inspectRun = ((log.filterMap stateAnswer)[0]?).getD (.ok none)) :
    runProgram jobId calls = out := by
  obtain ⟨res, rest, rfl, hres⟩ := Prog.run_perform_bind.mp h
  have hrun' : calls.run = res := hrun
  cases res with
  | elapsed =>
      obtain ⟨_, rest, rfl, hstop⟩ := Prog.run_perform_bind.mp hres
      obtain ⟨rfl, rfl⟩ := Prog.run_pure.mp hstop
      simp only [runProgram, hrun']
  | completed res =>
      cases res with
      | error err =>
          obtain ⟨rfl, rfl⟩ := Prog.run_pure.mp hres
          simp only [runProgram, hrun']
      | ok output =>
          obtain ⟨container, rest, rfl, hcontainer⟩ := Prog.run_perform_bind.mp hres
          have hinspect' : calls.inspectRun = container.map ContainerInspect.state := hinspect
          rcases container with err | ⟨_ | oomKilled, config⟩
          · obtain ⟨rfl, rfl⟩ := Prog.run_pure.mp hcontainer
            simp only [runProgram, hrun', hinspect', Except.map]
          · obtain ⟨rfl, rfl⟩ := Prog.run_pure.mp hcontainer
            simp only [runProgram, hrun', hinspect', Except.map]
          · simp only [runProgram, hrun', hinspect', Except.map]
            dsimp only at hcontainer
            split at hcontainer
            · next hoom =>
                obtain ⟨rfl, rfl⟩ := Prog.run_pure.mp hcontainer
                rw [if_pos hoom]
            · next hoom =>
                obtain ⟨rfl, rfl⟩ := Prog.run_pure.mp hcontainer
                rw [if_neg hoom]
                rfl

/-- The closure ends as `runClosure` says of its answers. -/
theorem runClosure_of_run (h : Prog.Run (closure jobId id) log out)
    (hcompile : calls.compile = (log.findSome? (execAnswer
      ["rustc", "/workspaces/main.rs", "-o", "/workspaces/main"])).getD .elapsed)
    (hstop : calls.stopCompile = (log.findSome? stopAnswer).getD (.ok ()))
    (hinspect : calls.inspectCompile = ((log.filterMap stateAnswer)[0]?).getD (.ok none))
    (hrun : calls.run = (log.findSome? (execAnswer ["/workspaces/main"])).getD .elapsed)
    (hinspectRun : calls.inspectRun = ((log.filterMap stateAnswer)[1]?).getD (.ok none)) :
    runClosure jobId calls = out := by
  obtain ⟨compile, rest, rfl, hrest⟩ := Prog.run_perform_bind.mp h
  have hcompile' : calls.compile = compile := hcompile
  cases compile with
  | elapsed =>
      obtain ⟨stopped, rest, rfl, hstopped⟩ := Prog.run_perform_bind.mp hrest
      have hstop' : calls.stopCompile = stopped := hstop
      simp only [runClosure, hcompile', hstop']
      cases stopped with
      | error err => exact (Prog.run_pure.mp hstopped).2.symm
      | ok _ => exact (Prog.run_pure.mp hstopped).2.symm
  | completed res =>
      cases res with
      | error err =>
          simp only [runClosure, hcompile']
          exact (Prog.run_pure.mp hrest).2.symm
      | ok output =>
          obtain ⟨container, rest, rfl, hcontainer⟩ := Prog.run_perform_bind.mp hrest
          have hinspect' : calls.inspectCompile = container.map ContainerInspect.state := hinspect
          rcases container with err | ⟨_ | oomKilled, config⟩
          · simp only [runClosure, hcompile', hinspect', Except.map]
            exact (Prog.run_pure.mp hcontainer).2.symm
          · simp only [runClosure, hcompile', hinspect', Except.map]
            exact (Prog.run_pure.mp hcontainer).2.symm
          · simp only [runClosure, hcompile', hinspect', Except.map]
            dsimp only at hcontainer
            split at hcontainer
            · next hoom =>
                rw [if_pos hoom]
                exact (Prog.run_pure.mp hcontainer).2.symm
            · next hoom =>
                rw [if_neg hoom]
                dsimp only [ExecOutput.result] at hcontainer ⊢
                split at hcontainer
                · next hfailed =>
                    rw [if_pos hfailed]
                    exact (Prog.run_pure.mp hcontainer).2.symm
                · next hzero =>
                    -- the program is run if the compiler was neither killed nor failed
                    rw [if_neg hzero]
                    exact runProgram_of_run hcontainer hrun hinspectRun

end Refinement

section Records

variable {Op : Type} {Ans : Op → Type} {log : ContainerLog Op Ans}

/-- The events of `create`. -/
def prepares : Raced DockerCall Op → Bool
  | .own (.createContainer _) | .own (.inspectContainer _) => true
  | op => pulls op

/-- What the creation has on record is its result. -/
theorem Creation.recorded {result : Except String Uuid} (h : Creation log result) :
    (∀ e ∈ log, prepares e.op = true) ∧
      firstFailure creationError log = result.map fun _ => () := by
  have hprepares : ∀ {pulled : ContainerLog Op Ans}, (∀ e ∈ pulled, pulls e.op = true) →
      ∀ e ∈ pulled, prepares e.op = true := by
    intro pulled hpulled e he
    have hop := hpulled e he
    unfold prepares
    split
    · rfl
    · rfl
    · exact hop
  cases h with
  | notPulled hpulled hfailed => exact ⟨hprepares hpulled, hfailed⟩
  | refused hpulled hquiet | notInspected hpulled hquiet | created hpulled hquiet =>
      refine ⟨List.forall_mem_append.mpr ⟨hprepares hpulled, by simp [prepares]⟩, ?_⟩
      rw [firstFailure_append_of_ok hquiet]
      rfl

/-- While a container is prepared, nothing is started and nothing is raced. -/
theorem quiet_of_prepares (h : ∀ e ∈ log, prepares e.op = true) :
    firstFailure startError log = .ok () ∧ log.any Event.isLost = false ∧
      log.filterMap Event.answered = [] := by
  have heach : ∀ e ∈ log, startError e = none ∧ e.isLost = false ∧ e.answered = none := by
    rintro ⟨op, answer⟩ he
    have hop := h _ he
    cases op with
    | own c => cases c <;> first | exact ⟨rfl, rfl, rfl⟩ | cases hop
    | _ => cases hop
  refine ⟨firstFailure_eq_ok.mpr fun e he => (heach e he).1, ?_,
    List.filterMap_eq_nil_iff.mpr fun e he => (heach e he).2.2⟩
  exact List.any_eq_false.mpr fun e he => by simp [(heach e he).2.1]

/-- While a closure is raced, nothing is created or started. -/
theorem quiet_of_raced (h : ∀ e ∈ log, e.op = .enter ∨ e.op.isInner = true) :
    ∀ e ∈ log, creationError e = none ∧ startError e = none := by
  rintro ⟨op, answer⟩ he
  have hop := h _ he
  cases op with
  | enter | inner => exact ⟨rfl, rfl⟩
  | own | drop => simp [Raced.isInner] at hop

/-- The events behind a race. -/
def cleansUp : Raced DockerCall Op → Bool
  | .drop | .own (.stopContainer _ _) | .own (.removeContainer _ _) => true
  | _ => false

/-- Behind the race nothing is created, started or raced. -/
theorem quiet_of_cleansUp (h : ∀ e ∈ log, cleansUp e.op = true) :
    (∀ e ∈ log, creationError e = none ∧ startError e = none) ∧ log.any Event.isLost = false ∧
      log.filterMap Event.answered = [] := by
  have heach : ∀ e ∈ log, (creationError e = none ∧ startError e = none) ∧ e.isLost = false ∧
      e.answered = none := by
    rintro ⟨op, answer⟩ he
    have hop := h _ he
    cases op with
    | own c => cases c <;> first | exact ⟨⟨rfl, rfl⟩, rfl, rfl⟩ | cases hop
    | drop => exact ⟨⟨rfl, rfl⟩, rfl, rfl⟩
    | _ => cases hop
  refine ⟨fun e he => (heach e he).1, ?_, List.filterMap_eq_nil_iff.mpr fun e he => (heach e he).2.2⟩
  exact List.any_eq_false.mpr fun e he => by simp [(heach e he).2.1]

/-- A container that has been started records what its race records. -/
theorem recorded_of_started {creating raced cleaning : ContainerLog Op Ans} {id : Uuid}
    (hcreate : Creation creating (.ok id))
    (hraced : ∀ e ∈ raced, e.op = .enter ∨ e.op.isInner = true)
    (hcleaning : ∀ e ∈ cleaning, cleansUp e.op = true) :
    let log := creating ++ ⟨.own (.startContainer id), (.ok () : Except String Unit)⟩ ::
      raced ++ cleaning
    firstFailure creationError log = .ok () ∧ firstFailure startError log = .ok () ∧
      log.any Event.isLost = raced.any Event.isLost ∧
        log.filterMap Event.answered = raced.filterMap Event.answered := by
  intro log
  obtain ⟨hprepares, hrecorded⟩ := hcreate.recorded
  obtain ⟨hstart, hlost, hanswered⟩ := quiet_of_prepares hprepares
  obtain ⟨hquiet, hlost', hanswered'⟩ := quiet_of_cleansUp hcleaning
  have hsilent := quiet_of_raced hraced
  refine ⟨?_, ?_, ?_, ?_⟩
  · rw [firstFailure_append_left fun e he => (hquiet e he).1, firstFailure_append_of_ok hrecorded]
    exact firstFailure_eq_ok.mpr (List.forall_mem_cons.mpr ⟨rfl, fun e he => (hsilent e he).1⟩)
  · rw [firstFailure_append_left fun e he => (hquiet e he).2, firstFailure_append_of_ok hstart]
    exact firstFailure_eq_ok.mpr (List.forall_mem_cons.mpr ⟨rfl, fun e he => (hsilent e he).2⟩)
  · rw [List.any_append, List.any_append, hlost, hlost', Bool.or_false, Bool.false_or]
    rfl
  · rw [List.filterMap_append, List.filterMap_append, hanswered, hanswered', List.append_nil]
    rfl

end Records

/-- **`with_container` around the closure of `run_rust` ends as `runRust` says of its
answers**, behind a workspace that has been set up. -/
theorem runRust_of_run {r : DockerRunner} {image workspace : String} {jobId : Uuid}
    {tempPath : String} {log : ContainerLog ClosureCall ClosureCall.Answer}
    {result : Except RunError RunResponse}
    (h : Prog.Run (r.withContainer image workspace jobId tempPath (closure jobId)) log
      (some result)) :
    runRust jobId (answersIn (.ok ()) (.ok ()) log) = some result := by
  cases course_of_run h with
  | notCreated hcreate =>
      simp only [runRust, answersIn, hcreate.recorded.2]
      rfl
  | @notStarted creating id err hcreate =>
      obtain ⟨hprepares, hrecorded⟩ := hcreate.recorded
      have hstart := (quiet_of_prepares hprepares).1
      simp only [runRust, answersIn]
      rw [firstFailure_append_of_ok hrecorded, firstFailure_append_of_ok hstart]
      rfl
  | @raced creating raced stops id stopped removed _ hcreate hraced hend =>
      have hcleaning : ∀ e ∈ ⟨.drop, ()⟩ :: stops ++ [⟨.own (.stopContainer id 1), stopped⟩,
          ⟨.own (.removeContainer id true), removed⟩], cleansUp e.op = true := by
        rcases hend with ⟨rfl, _⟩ | ⟨⟨res, rfl⟩, _⟩ <;> simp [cleansUp]
      have hrecorded := recorded_of_started hcreate hraced hcleaning
      simp only [List.append_assoc, List.cons_append, List.nil_append] at hrecorded ⊢
      obtain ⟨hcreation, hstart, hlost, hanswered⟩ := hrecorded
      simp only [runRust, answersIn, hcreation, hstart, hlost, hanswered]
      rcases hend with ⟨_, hkept, hrun⟩ | ⟨_, hlost, rfl⟩
      · rw [hkept]
        exact runClosure_of_run hrun rfl rfl rfl rfl rfl
      · rw [hlost]
        rfl

/-! ## Two executions of job `7` -/

/-- Job `7` in a container of worker-1. -/
def runJob : ContainerProg ClosureCall ClosureCall.Answer (Except RunError RunResponse) :=
  withContainer ⟨"worker-1"⟩ "rust:1.89" "/srv/worker-1/job" 7 "/workspaces/worker-1/job"
    (closure 7)

/-- The image is there, and container `900` is created and inspected. -/
def createdLog : ContainerLog ClosureCall ClosureCall.Answer :=
  [⟨.own (.inspectImage "rust:1.89"), .ok ()⟩,
    ⟨.own (.createContainer (containerConfig ⟨"worker-1"⟩ "rust:1.89" "/srv/worker-1/job" 7
      "/workspaces/worker-1/job")), .ok 900⟩,
    ⟨.own (.inspectContainer 900), .ok ⟨none, none⟩⟩]

/-- The container starts, and the execution is cancelled while `rustc` runs. -/
def cancelledLog : ContainerLog ClosureCall ClosureCall.Answer :=
  createdLog ++ [⟨.own (.startContainer 900), .ok ()⟩, ⟨.enter, false⟩,
    ⟨.inner (.timedExec 900 ["rustc", "/workspaces/main.rs", "-o", "/workspaces/main"]
      (seconds 10)), none⟩,
    ⟨.drop, ()⟩, ⟨.own (.stopContainer 900 1), .ok ()⟩,
    ⟨.own (.stopContainer 900 1), .error "container already stopped"⟩,
    ⟨.own (.removeContainer 900 true), .ok ()⟩]

/-- The container does not start. -/
def notStartedLog : ContainerLog ClosureCall ClosureCall.Answer :=
  createdLog ++ [⟨.own (.startContainer 900), .error "bind source path does not exist"⟩]

theorem run_cancelled : Prog.Run runJob cancelledLog (some (.error .cancelled)) :=
  .call (.call (.call (.call (.call (.call (.call (.call (.call (.call (.ret _))))))))))

theorem run_notStarted : Prog.Run runJob notStartedLog
    (some (.error (.other "bind source path does not exist"))) :=
  .call (.call (.call (.call (.ret _))))

/-- The container of a cancelled execution is removed. -/
theorem cancelled_container_removed : Starts cancelledLog ∧ NothingLeft cancelledLog := by
  have hstarts : Starts cancelledLog := by
    simp [Starts, cancelledLog, createdLog, failsToStart]
  exact ⟨hstarts, (container_removed_iff run_cancelled).mpr hstarts⟩

/-- A container that does not start is left behind. -/
theorem unstarted_container_left :
    ¬ ∀ log result, Prog.Run runJob log (some result) → NothingLeft log := by
  intro h
  have hleft := h notStartedLog _ run_notStarted 900 (List.mem_singleton_self 900)
  obtain ⟨e, he, hop⟩ := hleft.attempted
  simp only [notStartedLog, createdLog, List.cons_append, List.nil_append, List.mem_cons,
    List.not_mem_nil, or_false] at he
  rcases he with rfl | rfl | rfl | rfl <;> cases hop

end DockerRunner

end EditorBack
