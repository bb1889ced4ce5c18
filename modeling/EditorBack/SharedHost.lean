import EditorBack.Runs
import EditorBack.StoppedTasks

/-!
# The host that the workers share

All workers have one Docker daemon and one directory `/workspaces`.  `Machine` is what
there is: the containers and the temporary directories.  Executions (`run_rust`) and
clean-ups (`clean_orphan_containers`) run on it at the same time, the calls of one
between the calls of the others, and each of them may stop anywhere.

A `History` is a list of such calls with their answers: the machine gives these answers,
and what one task has done is the beginning of its program.  `Accounts` is what a history
says about the machine it leads to, whatever the programs are.
-/

namespace EditorBack

open CallTree
open DockerRunner (created requested removing dirMade dirRemoved)
open OrphanCleanup (foundWorkspace deletedPath workspaceLabel cleanOrphanContainers)

/-- A call of execution `i`, or of clean-up `k`, with its answer. -/
inductive Deed
  | run (i : Nat) (e : RunnerEvent)
  | cleanUp (k : Nat) (e : OrphanEvent)

/-- One call on the machine.  An error of Docker may come behind the effect: the
container is created under the id `lost`, or it is removed. -/
structure MachineAction where
  deed : Deed
  lost : Option Uuid

/-- What a call changes. -/
inductive Effect
  | created (id : Uuid) (config : ContainerConfig)
  | removed (id : Uuid)
  | made (dir : String)
  | deleted (dir : String)
  | quiet

def DockerCall.effect (lost : Option Uuid) : (c : DockerCall) → c.Answer → Effect
  | .createContainer config, .ok id => .created id config
  | .createContainer config, .error _ =>
      match lost with
      | some id => .created id config
      | none => .quiet
  | .removeContainer id _, .ok () => .removed id
  | .removeContainer id _, .error _ => if lost.isSome then .removed id else .quiet
  | _, _ => .quiet

def Deed.effect (lost : Option Uuid) : Deed → Effect
  | .run _ ⟨.inl (.tempdirIn path), .ok name⟩ => .made (joinPath path name)
  | .run _ ⟨.inl (.removeDirAll path), .ok ()⟩ => .deleted path
  | .run _ ⟨.inr (.own c), answer⟩ => c.effect lost answer
  | .cleanUp _ ⟨.docker c, answer⟩ => c.effect lost answer
  | .cleanUp _ ⟨.removeDirAll path, .ok ()⟩ => .deleted path
  | _ => .quiet

def MachineAction.effect (a : MachineAction) : Effect :=
  a.deed.effect a.lost

/-- The deletion of the directory is attempted. -/
def Deed.deletes : Deed → Option String
  | .run _ e => dirRemoved e
  | .cleanUp _ e => deletedPath e

/-- The deletion of the directory is attempted, and fails. -/
def Deed.failsToDelete : Deed → Option String
  | .run _ ⟨.inl (.removeDirAll path), .error _⟩ => some path
  | .cleanUp _ ⟨.removeDirAll path, .error _⟩ => some path
  | _ => none

/-- The containers and directories on the host. -/
structure Machine where
  containers : List (Uuid × ContainerConfig)
  /-- all containers there have been -/
  issued : List (Uuid × ContainerConfig)
  dirs : List String
  /-- all directories there have been -/
  made : List String

/-- A filter `label=...` of Docker, on the labels of one container. -/
def hasLabel (label : String) (labels : Labels) : Bool :=
  labels.any fun l => decide (l.1 ++ "=" ++ l.2 = label)

namespace Machine

def empty : Machine where
  containers := []
  issued := []
  dirs := []
  made := []

def apply (m : Machine) : Effect → Machine
  | .created id config =>
      { m with containers := (id, config) :: m.containers, issued := (id, config) :: m.issued }
  | .removed id => { m with containers := m.containers.filter fun c => decide (c.1 ≠ id) }
  | .made dir => { m with dirs := dir :: m.dirs, made := dir :: m.made }
  | .deleted dir => { m with dirs := m.dirs.filter fun d => decide (d ≠ dir) }
  | .quiet => m

/-- Ids and names are new, and what is deleted was there. -/
def allows (m : Machine) : Effect → Bool
  | .created id _ => decide (id ∉ m.issued.map Prod.fst)
  | .made dir => decide (dir ∉ m.made)
  | .deleted dir => decide (dir ∈ m.dirs)
  | .removed _ | .quiet => true

/-- What the daemon says is so: the labels of a container, and the list of those with a
label, in any order. -/
def tells (m : Machine) : (c : DockerCall) → c.Answer → Bool
  | .inspectContainer id, .ok inspect =>
      m.containers.any fun c => decide (c.1 = id ∧ inspect.config = some (some c.2.labels))
  | .listContainers label, .ok summaries =>
      (m.containers.all fun c => !hasLabel label c.2.labels ||
        summaries.any fun s => decide (s.id = some c.1 ∧ s.labels = some c.2.labels)) &&
      summaries.all fun s => m.containers.any fun c =>
        hasLabel label c.2.labels && decide (s.id = some c.1 ∧ s.labels = some c.2.labels)
  | _, _ => true

def answers (m : Machine) : Deed → Bool
  | .run _ ⟨.inr (.own c), answer⟩ => m.tells c answer
  | .cleanUp _ ⟨.docker c, answer⟩ => m.tells c answer
  | _ => true

def step (m : Machine) (a : MachineAction) : Option Machine :=
  if m.allows a.effect && m.answers a.deed then some (m.apply a.effect) else none

end Machine

def Deed.ofRun (i : Nat) : Deed → Option RunnerEvent
  | .run j e => if j = i then some e else none
  | .cleanUp _ _ => none

def Deed.ofCleanUp (k : Nat) : Deed → Option OrphanEvent
  | .run _ _ => none
  | .cleanUp j e => if j = k then some e else none

/-- What execution `i` has done. -/
def runLog (i : Nat) (as : List MachineAction) : List RunnerEvent :=
  as.filterMap fun a => a.deed.ofRun i

/-- What clean-up `k` has done. -/
def cleanUpLog (k : Nat) (as : List MachineAction) : List OrphanEvent :=
  as.filterMap fun a => a.deed.ofCleanUp k

/-- Executions and clean-ups side by side on an empty machine, each of them somewhere in
its program. -/
structure History (runs : Nat → Execution) (parseStr : String → Option Uuid)
    (as : List MachineAction) (m : Machine) : Prop where
  accepted : Runs.exec Machine.step .empty as = some m
  executions : ∀ i, ∃ q, Prog.Reaches (runs i).program (runLog i as) q
  cleanUps : ∀ k, ∃ q, Prog.Reaches (cleanOrphanContainers parseStr) (cleanUpLog k as) q

/-! ## Logs -/

section Logs

variable {i k : Nat} {as bs : List MachineAction} {a : MachineAction}

theorem mem_runLog {e : RunnerEvent} :
    e ∈ runLog i as ↔ ∃ a ∈ as, a.deed = .run i e := by
  simp only [runLog, List.mem_filterMap]
  constructor
  · rintro ⟨a, ha, hof⟩
    refine ⟨a, ha, ?_⟩
    unfold Deed.ofRun at hof
    split at hof
    · split at hof
      · next hdeed hji =>
          cases hof
          rw [hdeed, hji]
      · cases hof
    · cases hof
  · rintro ⟨a, ha, hdeed⟩
    exact ⟨a, ha, by simp [hdeed, Deed.ofRun]⟩

theorem mem_cleanUpLog {e : OrphanEvent} :
    e ∈ cleanUpLog k as ↔ ∃ a ∈ as, a.deed = .cleanUp k e := by
  simp only [cleanUpLog, List.mem_filterMap]
  constructor
  · rintro ⟨a, ha, hof⟩
    refine ⟨a, ha, ?_⟩
    unfold Deed.ofCleanUp at hof
    split at hof
    · cases hof
    · split at hof
      · next hdeed hjk =>
          cases hof
          rw [hdeed, hjk]
      · cases hof
  · rintro ⟨a, ha, hdeed⟩
    exact ⟨a, ha, by simp [hdeed, Deed.ofCleanUp]⟩

/-- One more call is one more event of the task that makes it. -/
theorem mem_runLog_snoc {e : RunnerEvent} :
    e ∈ runLog i (as ++ [a]) ↔ e ∈ runLog i as ∨ a.deed = .run i e := by
  simp [mem_runLog, or_and_right, exists_or]

theorem mem_cleanUpLog_snoc {e : OrphanEvent} :
    e ∈ cleanUpLog k (as ++ [a]) ↔ e ∈ cleanUpLog k as ∨ a.deed = .cleanUp k e := by
  simp [mem_cleanUpLog, or_and_right, exists_or]

theorem cleanUpLog_append : cleanUpLog k (as ++ bs) = cleanUpLog k as ++ cleanUpLog k bs :=
  List.filterMap_append

end Logs

/-! ## Where effects come from -/

section Effects

variable {a : MachineAction} {id : Uuid} {config : ContainerConfig} {dir : String}

theorem DockerCall.effect_created {lost : Option Uuid} {c : DockerCall} {answer : c.Answer}
    (h : c.effect lost answer = .created id config) : c = .createContainer config := by
  unfold DockerCall.effect at h
  split at h
  · cases h
    rfl
  · split at h <;> cases h
    rfl
  · cases h
  · split at h <;> cases h
  · cases h

theorem DockerCall.effect_removed {lost : Option Uuid} {c : DockerCall} {answer : c.Answer}
    (h : c.effect lost answer = .removed id) : ∃ force, c = .removeContainer id force := by
  unfold DockerCall.effect at h
  split at h
  · cases h
  · split at h <;> cases h
  · cases h
    exact ⟨_, rfl⟩
  · split at h <;> cases h
    exact ⟨_, rfl⟩
  · cases h

theorem DockerCall.effect_files {lost : Option Uuid} {c : DockerCall} {answer : c.Answer} :
    c.effect lost answer ≠ .made dir ∧ c.effect lost answer ≠ .deleted dir := by
  unfold DockerCall.effect
  split
  · simp
  · split <;> simp
  · simp
  · split <;> simp
  · simp

/-- A container is created by a call that asks for it. -/
theorem MachineAction.effect_created (h : a.effect = .created id config) :
    (∃ i e, a.deed = .run i e ∧ requested e = some config) ∨
      ∃ k e, a.deed = .cleanUp k e ∧ e.op = .docker (.createContainer config) := by
  rcases a with ⟨deed, lost⟩
  simp only [MachineAction.effect] at h
  unfold Deed.effect at h
  split at h
  · cases h
  · cases h
  · have hcall := DockerCall.effect_created h
    subst hcall
    exact Or.inl ⟨_, _, rfl, rfl⟩
  · have hcall := DockerCall.effect_created h
    subst hcall
    exact Or.inr ⟨_, _, rfl, rfl⟩
  · cases h
  · cases h

/-- A container goes by a call that removes it. -/
theorem MachineAction.effect_removed (h : a.effect = .removed id) :
    (∃ i e, a.deed = .run i e ∧ removing e = some id) ∨
      ∃ k e force, a.deed = .cleanUp k e ∧ e.op = .docker (.removeContainer id force) := by
  rcases a with ⟨deed, lost⟩
  simp only [MachineAction.effect] at h
  unfold Deed.effect at h
  split at h
  · cases h
  · cases h
  · obtain ⟨force, hcall⟩ := DockerCall.effect_removed h
    subst hcall
    exact Or.inl ⟨_, _, rfl, rfl⟩
  · obtain ⟨force, hcall⟩ := DockerCall.effect_removed h
    subst hcall
    exact Or.inr ⟨_, _, _, rfl, rfl⟩
  · cases h
  · cases h

/-- A directory is made by an execution. -/
theorem MachineAction.effect_made (h : a.effect = .made dir) :
    ∃ i e, a.deed = .run i e ∧ dirMade e = some dir := by
  rcases a with ⟨deed, lost⟩
  simp only [MachineAction.effect] at h
  unfold Deed.effect at h
  split at h
  · cases h
    exact ⟨_, _, rfl, rfl⟩
  · cases h
  · exact absurd h DockerCall.effect_files.1
  · exact absurd h DockerCall.effect_files.1
  · cases h
  · cases h

/-- What an execution knows as created is created. -/
theorem MachineAction.effect_of_created {i : Nat} {e : RunnerEvent} (hdeed : a.deed = .run i e)
    (h : created e = some id) :
    ∃ config, a.effect = .created id config ∧ requested e = some config := by
  rcases a with ⟨deed, lost⟩
  cases hdeed
  unfold DockerRunner.created at h
  split at h
  · cases h
    exact ⟨_, rfl, rfl⟩
  · cases h

/-- The deletion of a directory succeeds or fails. -/
theorem MachineAction.effect_of_deletes (h : a.deed.deletes = some dir) :
    a.effect = .deleted dir ∨ a.deed.failsToDelete = some dir := by
  rcases a with ⟨deed, lost⟩
  cases deed with
  | run i e =>
      simp only [Deed.deletes] at h
      unfold DockerRunner.dirRemoved at h
      split at h
      · next path answer =>
          cases h
          cases answer with
          | ok _ => exact Or.inl rfl
          | error err => exact Or.inr rfl
      · cases h
  | cleanUp k e =>
      simp only [Deed.deletes] at h
      unfold OrphanCleanup.deletedPath at h
      split at h
      · next path answer =>
          cases h
          cases answer with
          | ok _ => exact Or.inl rfl
          | error err => exact Or.inr rfl
      · cases h

end Effects

/-! ## What a history says about the machine -/

/-- What is on the machine, and what there has been, by what the tasks have done. -/
structure Accounts (as : List MachineAction) (m : Machine) : Prop where
  present : ∀ c ∈ m.containers, c ∈ m.issued
  distinct : ∀ c ∈ m.issued, ∀ c' ∈ m.issued, c.1 = c'.1 → c = c'
  /-- each container was asked for -/
  asked : ∀ c ∈ m.issued, (∃ i, ∃ e ∈ runLog i as, requested e = some c.2) ∨
    ∃ k, ∃ e ∈ cleanUpLog k as, e.op = .docker (.createContainer c.2)
  known : ∀ i, ∀ e ∈ runLog i as, ∀ id, created e = some id →
    ∃ config, requested e = some config ∧ (id, config) ∈ m.issued
  /-- an id is answered once -/
  sole : ∀ i j, ∀ e ∈ runLog i as, ∀ e' ∈ runLog j as, ∀ id, created e = some id →
    created e' = some id → i = j
  /-- a container that is gone was removed -/
  gone : ∀ c ∈ m.issued, c ∈ m.containers ∨ (∃ i, ∃ e ∈ runLog i as, removing e = some c.1) ∨
    ∃ k, ∃ e ∈ cleanUpLog k as, ∃ force, e.op = .docker (.removeContainer c.1 force)
  made : ∀ d ∈ m.dirs, d ∈ m.made ∧ ∃ i, ∃ e ∈ runLog i as, dirMade e = some d
  deleted : ∀ a ∈ as, ∀ d, a.effect = .deleted d → d ∈ m.made ∧ d ∉ m.dirs
  /-- an inspection shows the labels of the container -/
  seen : ∀ k, ∀ e ∈ cleanUpLog k as, ∀ id path, foundWorkspace e = some (id, some path) →
    ∃ config, (id, config) ∈ m.issued ∧ config.labels.lookup "oj.workspace" = some path
  /-- a list shows containers with their labels -/
  listed : ∀ k label summaries, (⟨.docker (.listContainers label), .ok summaries⟩ : OrphanEvent) ∈
    cleanUpLog k as → ∀ s ∈ summaries, ∃ c ∈ m.issued, s.id = some c.1 ∧ s.labels = some c.2.labels

namespace Machine

section Steps

variable {m m' : Machine} {as : List MachineAction} {a : MachineAction}

theorem step_eq_some (h : m.step a = some m') :
    m' = m.apply a.effect ∧ m.allows a.effect = true ∧ m.answers a.deed = true := by
  unfold step at h
  split at h
  · next hand =>
      cases h
      simpa using hand
  · cases h

theorem issued_mono (h : m.step a = some m') : ∀ c ∈ m.issued, c ∈ m'.issued := by
  obtain ⟨rfl, _, _⟩ := step_eq_some h
  intro c hc
  cases a.effect with
  | created id config => exact List.mem_cons_of_mem _ hc
  | _ => exact hc

/-- A new container has a new id. -/
theorem fresh_of_created {id : Uuid} {config : ContainerConfig} (h : m.step a = some m')
    (heff : a.effect = .created id config) : ∀ c ∈ m.issued, c.1 ≠ id := by
  obtain ⟨_, hallows, _⟩ := step_eq_some h
  rw [heff] at hallows
  intro c hc hid
  exact of_decide_eq_true hallows (List.mem_map.mpr ⟨c, hc, hid⟩)

theorem mem_issued_of_step (h : m.step a = some m') {c : Uuid × ContainerConfig}
    (hc : c ∈ m'.issued) : c ∈ m.issued ∨ a.effect = .created c.1 c.2 := by
  obtain ⟨rfl, _, _⟩ := step_eq_some h
  cases heff : a.effect with
  | created id config =>
      rw [heff] at hc
      rcases List.mem_cons.mp hc with rfl | hc
      · exact Or.inr rfl
      · exact Or.inl hc
  | _ =>
      rw [heff] at hc
      exact Or.inl hc

theorem mem_containers_of_step (h : m.step a = some m') {c : Uuid × ContainerConfig}
    (hc : c ∈ m'.containers) : c ∈ m.containers ∨ a.effect = .created c.1 c.2 := by
  obtain ⟨rfl, _, _⟩ := step_eq_some h
  cases heff : a.effect with
  | created id config =>
      rw [heff] at hc
      rcases List.mem_cons.mp hc with rfl | hc
      · exact Or.inr rfl
      · exact Or.inl hc
  | removed id =>
      rw [heff] at hc
      exact Or.inl (List.mem_filter.mp hc).1
  | _ =>
      rw [heff] at hc
      exact Or.inl hc

theorem mem_dirs_of_step (h : m.step a = some m') {d : String} (hd : d ∈ m'.dirs) :
    d ∈ m.dirs ∨ a.effect = .made d := by
  obtain ⟨rfl, _, _⟩ := step_eq_some h
  cases heff : a.effect with
  | made dir =>
      rw [heff] at hd
      rcases List.mem_cons.mp hd with rfl | hd
      · exact Or.inr rfl
      · exact Or.inl hd
  | deleted dir =>
      rw [heff] at hd
      exact Or.inl (List.mem_filter.mp hd).1
  | _ =>
      rw [heff] at hd
      exact Or.inl hd

theorem made_mono (h : m.step a = some m') : ∀ d ∈ m.made, d ∈ m'.made := by
  obtain ⟨rfl, _, _⟩ := step_eq_some h
  intro d hd
  cases a.effect with
  | made dir => exact List.mem_cons_of_mem _ hd
  | _ => exact hd

/-- A created container is on the machine. -/
theorem mem_of_created {c : Uuid × ContainerConfig} (h : m.step a = some m')
    (heff : a.effect = .created c.1 c.2) : c ∈ m'.containers ∧ c ∈ m'.issued := by
  obtain ⟨rfl, _, _⟩ := step_eq_some h
  rw [heff]
  exact ⟨List.mem_cons_self, List.mem_cons_self⟩

/-- A container stays unless it is removed. -/
theorem stays_or_removed {c : Uuid × ContainerConfig} (h : m.step a = some m')
    (hc : c ∈ m.containers) : c ∈ m'.containers ∨ a.effect = .removed c.1 := by
  obtain ⟨rfl, _, _⟩ := step_eq_some h
  cases heff : a.effect with
  | created id config => exact Or.inl (List.mem_cons_of_mem _ hc)
  | removed id =>
      by_cases hid : c.1 = id
      · exact Or.inr (by rw [hid])
      · exact Or.inl (List.mem_filter.mpr ⟨hc, decide_eq_true hid⟩)
  | _ => exact Or.inl hc

/-- There was a container with this id, and it is gone. -/
structure Gone (id : Uuid) (m : Machine) : Prop where
  issued : ∃ c ∈ m.issued, c.1 = id
  absent : ∀ c ∈ m.containers, c.1 ≠ id

/-- It does not come back. -/
theorem gone_step {id : Uuid} (hs : Gone id m) (h : m.step a = some m') : Gone id m' := by
  obtain ⟨c, hc, hid⟩ := hs.issued
  refine ⟨⟨c, issued_mono h c hc, hid⟩, ?_⟩
  intro c' hc' hid'
  rcases mem_containers_of_step h hc' with hold | hnew
  · exact hs.absent c' hold hid'
  · exact fresh_of_created h hnew c hc (hid.trans hid'.symm)

theorem gone_of_removed {c : Uuid × ContainerConfig} (h : m.step a = some m')
    (hc : c ∈ m.issued) (heff : a.effect = .removed c.1) : Gone c.1 m' := by
  refine ⟨⟨c, issued_mono h c hc, rfl⟩, ?_⟩
  intro c' hc'
  obtain ⟨rfl, _, _⟩ := step_eq_some h
  rw [heff] at hc'
  exact of_decide_eq_true (List.mem_filter.mp hc').2

/-- An inspection is answered from the machine. -/
theorem seen_of_answers {k : Nat} {e : OrphanEvent} (hanswers : m.answers (.cleanUp k e) = true)
    {id : Uuid} {path : String} (h : foundWorkspace e = some (id, some path)) :
    ∃ config, (id, config) ∈ m.containers ∧ config.labels.lookup "oj.workspace" = some path := by
  unfold OrphanCleanup.foundWorkspace at h
  split at h
  · next id' container =>
      obtain ⟨rfl, hlabel⟩ := Prod.mk.inj (Option.some.inj h)
      simp only [answers, tells, List.any_eq_true, decide_eq_true_eq] at hanswers
      obtain ⟨c, hc, rfl, hconfig⟩ := hanswers
      refine ⟨c.2, hc, ?_⟩
      simpa [workspaceLabel, hconfig] using hlabel
  · cases h
  · cases h

theorem listed_of_answers {k : Nat} {label : String} {summaries : List ContainerSummary}
    (hanswers : m.answers (.cleanUp k ⟨.docker (.listContainers label), .ok summaries⟩) = true) :
    ∀ s ∈ summaries, ∃ c ∈ m.containers, s.id = some c.1 ∧ s.labels = some c.2.labels := by
  intro s hs
  simp only [answers, tells, Bool.and_eq_true, List.all_eq_true, List.any_eq_true,
    decide_eq_true_eq] at hanswers
  obtain ⟨c, hc, _, hshows⟩ := hanswers.2 s hs
  exact ⟨c, hc, hshows⟩

/-- One more call keeps what the tasks have done. -/
private theorem kept_runLog {P : RunnerEvent → Prop} (h : ∃ i, ∃ e ∈ runLog i as, P e) :
    ∃ i, ∃ e ∈ runLog i (as ++ [a]), P e := by
  obtain ⟨i, e, he, hP⟩ := h
  exact ⟨i, e, mem_runLog_snoc.mpr (Or.inl he), hP⟩

private theorem kept_cleanUpLog {P : OrphanEvent → Prop} (h : ∃ k, ∃ e ∈ cleanUpLog k as, P e) :
    ∃ k, ∃ e ∈ cleanUpLog k (as ++ [a]), P e := by
  obtain ⟨k, e, he, hP⟩ := h
  exact ⟨k, e, mem_cleanUpLog_snoc.mpr (Or.inl he), hP⟩

private theorem distinct_step (hs : Accounts as m) (h : m.step a = some m') :
    ∀ c ∈ m'.issued, ∀ c' ∈ m'.issued, c.1 = c'.1 → c = c' := by
  intro c hc c' hc' hid
  rcases mem_issued_of_step h hc with hold | hnew
  · rcases mem_issued_of_step h hc' with hold' | hnew'
    · exact hs.distinct c hold c' hold' hid
    · exact absurd hid (fresh_of_created h hnew' c hold)
  · rcases mem_issued_of_step h hc' with hold' | hnew'
    · exact absurd hid.symm (fresh_of_created h hnew c' hold')
    · rw [hnew] at hnew'
      injection hnew' with hfst hsnd
      exact Prod.ext hfst hsnd

private theorem asked_step (hs : Accounts as m) (h : m.step a = some m') :
    ∀ c ∈ m'.issued, (∃ i, ∃ e ∈ runLog i (as ++ [a]), requested e = some c.2) ∨
      ∃ k, ∃ e ∈ cleanUpLog k (as ++ [a]), e.op = .docker (.createContainer c.2) := by
  intro c hc
  rcases mem_issued_of_step h hc with hold | hnew
  · exact (hs.asked c hold).imp kept_runLog kept_cleanUpLog
  · rcases MachineAction.effect_created hnew with ⟨i, e, hdeed, hreq⟩ | ⟨k, e, hdeed, hop⟩
    · exact Or.inl ⟨i, e, mem_runLog_snoc.mpr (Or.inr hdeed), hreq⟩
    · exact Or.inr ⟨k, e, mem_cleanUpLog_snoc.mpr (Or.inr hdeed), hop⟩

private theorem known_step (hs : Accounts as m) (h : m.step a = some m') :
    ∀ i, ∀ e ∈ runLog i (as ++ [a]), ∀ id, created e = some id →
      ∃ config, requested e = some config ∧ (id, config) ∈ m'.issued := by
  intro i e he id hid
  rcases mem_runLog_snoc.mp he with he | hdeed
  · obtain ⟨config, hreq, hc⟩ := hs.known i e he id hid
    exact ⟨config, hreq, issued_mono h _ hc⟩
  · obtain ⟨config, heff, hreq⟩ := MachineAction.effect_of_created hdeed hid
    exact ⟨config, hreq, (mem_of_created (c := (id, config)) h heff).2⟩

private theorem sole_step (hs : Accounts as m) (h : m.step a = some m') :
    ∀ i j, ∀ e ∈ runLog i (as ++ [a]), ∀ e' ∈ runLog j (as ++ [a]), ∀ id,
      created e = some id → created e' = some id → i = j := by
  -- an id that is answered now was not answered before
  have hnew : ∀ i, ∀ e ∈ runLog i as, ∀ id, created e = some id → ∀ j e', a.deed = .run j e' →
      created e' ≠ some id := by
    intro i e he id hid j e' hdeed hid'
    obtain ⟨config, _, hc⟩ := hs.known i e he id hid
    obtain ⟨_, heff, _⟩ := MachineAction.effect_of_created hdeed hid'
    exact fresh_of_created h heff _ hc rfl
  intro i j e he e' he' id hid hid'
  rcases mem_runLog_snoc.mp he with he | hdeed
  · rcases mem_runLog_snoc.mp he' with he' | hdeed'
    · exact hs.sole i j e he e' he' id hid hid'
    · exact absurd hid' (hnew i e he id hid j e' hdeed')
  · rcases mem_runLog_snoc.mp he' with he' | hdeed'
    · exact absurd hid (hnew j e' he' id hid' i e hdeed)
    · rw [hdeed] at hdeed'
      injection hdeed'

private theorem goes_step (hs : Accounts as m) (h : m.step a = some m') :
    ∀ c ∈ m'.issued, c ∈ m'.containers ∨
      (∃ i, ∃ e ∈ runLog i (as ++ [a]), removing e = some c.1) ∨
        ∃ k, ∃ e ∈ cleanUpLog k (as ++ [a]), ∃ force,
          e.op = .docker (.removeContainer c.1 force) := by
  intro c hc
  rcases mem_issued_of_step h hc with hold | hnew
  · rcases hs.gone c hold with hthere | hgone
    · refine (stays_or_removed h hthere).imp_right ?_
      intro heff
      rcases MachineAction.effect_removed heff with ⟨i, e, hdeed, hrem⟩ | ⟨k, e, force, hdeed, hop⟩
      · exact Or.inl ⟨i, e, mem_runLog_snoc.mpr (Or.inr hdeed), hrem⟩
      · exact Or.inr ⟨k, e, mem_cleanUpLog_snoc.mpr (Or.inr hdeed), force, hop⟩
    · exact Or.inr (hgone.imp kept_runLog kept_cleanUpLog)
  · exact Or.inl (mem_of_created h hnew).1

private theorem made_step (hs : Accounts as m) (h : m.step a = some m') :
    ∀ d ∈ m'.dirs, d ∈ m'.made ∧ ∃ i, ∃ e ∈ runLog i (as ++ [a]), dirMade e = some d := by
  intro d hd
  rcases mem_dirs_of_step h hd with hold | hnew
  · obtain ⟨hmade, hdir⟩ := hs.made d hold
    exact ⟨made_mono h d hmade, kept_runLog hdir⟩
  · obtain ⟨i, e, hdeed, hdir⟩ := MachineAction.effect_made hnew
    obtain ⟨rfl, _, _⟩ := step_eq_some h
    rw [hnew]
    exact ⟨List.mem_cons_self, i, e, mem_runLog_snoc.mpr (Or.inr hdeed), hdir⟩

/-- A directory that is deleted does not come back under its name. -/
private theorem deleted_step (hs : Accounts as m) (h : m.step a = some m') :
    ∀ b ∈ as ++ [a], ∀ d, b.effect = .deleted d → d ∈ m'.made ∧ d ∉ m'.dirs := by
  obtain ⟨hm', hallows, _⟩ := step_eq_some h
  intro b hb d hdel
  rcases List.mem_append.mp hb with hb | hb
  · obtain ⟨hmade, hnot⟩ := hs.deleted b hb d hdel
    refine ⟨made_mono h d hmade, ?_⟩
    intro hd
    rcases mem_dirs_of_step h hd with hold | hnew
    · exact hnot hold
    · rw [hnew] at hallows
      exact of_decide_eq_true hallows hmade
  · rw [List.mem_singleton.mp hb] at hdel
    rw [hdel] at hallows hm'
    have hd : d ∈ m.dirs := of_decide_eq_true hallows
    refine ⟨made_mono h d (hs.made d hd).1, ?_⟩
    simp [hm', apply]

private theorem seen_step (hs : Accounts as m) (h : m.step a = some m') :
    ∀ k, ∀ e ∈ cleanUpLog k (as ++ [a]), ∀ id path, foundWorkspace e = some (id, some path) →
      ∃ config, (id, config) ∈ m'.issued ∧ config.labels.lookup "oj.workspace" = some path := by
  obtain ⟨_, _, hanswers⟩ := step_eq_some h
  intro k e he id path hfound
  rcases mem_cleanUpLog_snoc.mp he with he | hdeed
  · obtain ⟨config, hc, hlabel⟩ := hs.seen k e he id path hfound
    exact ⟨config, issued_mono h _ hc, hlabel⟩
  · rw [hdeed] at hanswers
    obtain ⟨config, hc, hlabel⟩ := seen_of_answers hanswers hfound
    exact ⟨config, issued_mono h _ (hs.present _ hc), hlabel⟩

private theorem listed_step (hs : Accounts as m) (h : m.step a = some m') :
    ∀ k label summaries, (⟨.docker (.listContainers label), .ok summaries⟩ : OrphanEvent) ∈
      cleanUpLog k (as ++ [a]) →
        ∀ s ∈ summaries, ∃ c ∈ m'.issued, s.id = some c.1 ∧ s.labels = some c.2.labels := by
  obtain ⟨_, _, hanswers⟩ := step_eq_some h
  intro k label summaries he s hmem
  rcases mem_cleanUpLog_snoc.mp he with he | hdeed
  · obtain ⟨c, hc, hshows⟩ := hs.listed k label summaries he s hmem
    exact ⟨c, issued_mono h _ hc, hshows⟩
  · rw [hdeed] at hanswers
    obtain ⟨c, hc, hshows⟩ := listed_of_answers hanswers s hmem
    exact ⟨c, issued_mono h _ (hs.present _ hc), hshows⟩

theorem accounts_step (hs : Accounts as m) (h : m.step a = some m') : Accounts (as ++ [a]) m' where
  present := by
    intro c hc
    rcases mem_containers_of_step h hc with hold | hnew
    · exact issued_mono h c (hs.present c hold)
    · exact (mem_of_created h hnew).2
  distinct := distinct_step hs h
  asked := asked_step hs h
  known := known_step hs h
  sole := sole_step hs h
  gone := goes_step hs h
  made := made_step hs h
  deleted := deleted_step hs h
  seen := seen_step hs h
  listed := listed_step hs h

end Steps

end Machine

/-- **What a history says about its machine.** -/
theorem History.accounts {runs : Nat → Execution} {parseStr : String → Option Uuid}
    {as : List MachineAction} {m : Machine} (h : History runs parseStr as m) : Accounts as m := by
  have hempty : Accounts [] .empty := by
    refine ⟨?_, ?_, ?_, ?_, ?_, ?_, ?_, ?_, ?_, ?_⟩ <;> simp [Machine.empty, runLog, cleanUpLog]
  have hrun : Accounts ([] ++ as) m :=
    Runs.exec_invariant (fun _ _ _ _ hs hstep => Machine.accounts_step hs hstep) hempty h.accepted
  exact hrun

/-- A container that is removed on the way is gone in the end. -/
theorem Machine.gone_of_exec {m m' : Machine} {as : List MachineAction}
    {c : Uuid × ContainerConfig} {a : MachineAction} (h : Runs.exec Machine.step m as = some m')
    (hc : c ∈ m.issued) (ha : a ∈ as) (heff : a.effect = .removed c.1) : Machine.Gone c.1 m' := by
  obtain ⟨front, back, rfl⟩ := List.append_of_mem ha
  obtain ⟨m₁, hfront, hrest⟩ := Runs.exec_split h
  obtain ⟨m₂, hstep, hback⟩ := Option.bind_eq_some_iff.mp hrest
  have hissued : c ∈ m₁.issued :=
    (Runs.holdsAlong_of_invariant (fun _ _ _ hs hstep => Machine.issued_mono hstep _ hs) hc
      front).final hfront
  have hgone := Machine.gone_of_removed hstep hissued heff
  exact (Runs.holdsAlong_of_invariant (fun _ _ _ hs hstep => Machine.gone_step hs hstep) hgone
    back).final hback

end EditorBack
