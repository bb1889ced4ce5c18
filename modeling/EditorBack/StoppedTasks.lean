import EditorBack.OrphanCleanup
import EditorBack.RunRust

/-!
# Tasks that stop anywhere

What an execution (`run_rust`) or a clean-up (`clean_orphan_containers`) has done when it
stops is the beginning of a run of its program.  `Execution.Begun` and
`OrphanCleanup.Begun` are what is known of such a beginning: which containers carry which
labels, what is removed behind what, and what always comes next.
-/

namespace EditorBack

open CallTree EventOrder
open CallTree.Prog (Run Reaches)
open DockerRunner (created requested removing dirMade dirRemoved)
open OrphanCleanup (answered foundWorkspace deletedPath removedId codeContainer
  cleanOrphanContainers)

/-- The arguments of one `run_rust`. -/
structure Execution where
  runner : DockerRunner
  jobId : Uuid
  code : String

def Execution.program (x : Execution) : RunnerProg (Except RunError RunResponse) :=
  x.runner.runRust x.jobId x.code

/-! ## Answers -/

instance (c : DockerCall) : Nonempty c.Answer := by
  cases c with
  | inspectImage image => exact ⟨.error .notFound⟩
  | _ => exact ⟨.error ""⟩

instance (c : RunnerCall) : Nonempty (RunnerAnswer c) := by
  rcases c with c | c
  · cases c with
    | isDir path => exact ⟨true⟩
    | _ => exact ⟨.error ""⟩
  · cases c with
    | own c => exact inferInstanceAs (Nonempty c.Answer)
    | enter => exact ⟨true⟩
    | inner op => exact ⟨none⟩
    | drop => exact ⟨()⟩

instance (c : OrphanCall) : Nonempty c.Answer := by
  cases c with
  | docker c => exact inferInstanceAs (Nonempty c.Answer)
  | isJobExecutionAlive jobId => exact ⟨.ok true⟩
  | removeDirAll path => exact ⟨.ok ()⟩
  | sleep d => exact ⟨()⟩

/-! ## Executions -/

/-- What is known of an execution wherever it has stopped. -/
structure Execution.Begun (x : Execution) (log : List RunnerEvent) : Prop where
  /-- there is one directory -/
  made : ∀ d ∈ log.filterMap dirMade, ∀ d' ∈ log.filterMap dirMade, d' = d
  deleted : ∀ d ∈ log.filterMap dirMade, ∀ d' ∈ log.filterMap dirRemoved, d' = d
  labelled : ∀ config ∈ log.filterMap requested, ∃ d ∈ log.filterMap dirMade, ∃ hostPath,
    config = x.runner.containerConfig "rust:1.89" hostPath x.jobId d
  removed : ∀ id ∈ log.filterMap removing, id ∈ log.filterMap created

section Executions

variable {x : Execution} {log : List RunnerEvent}

theorem Execution.begun {q : RunnerProg (Except RunError RunResponse)}
    (h : Reaches x.program log q) : x.Begun log := by
  obtain ⟨log', out, hrun⟩ := h.exists_run
  have hmem : ∀ {β : Type} (f : RunnerEvent → Option β), ∀ b ∈ log.filterMap f,
      b ∈ (log ++ log').filterMap f := by
    intro β f b hb
    rw [List.filterMap_append]
    exact List.mem_append_left _ hb
  have hremoved : ∀ id ∈ log.filterMap removing, id ∈ log.filterMap created := by
    intro id hid
    obtain ⟨e, he, hremoving⟩ := List.mem_filterMap.mp hid
    have hheralded := (heralded_append.mp (DockerRunner.removing_behind_created hrun id)).1
    obtain ⟨before, after, rfl⟩ := List.append_of_mem he
    obtain ⟨d, hd, hcreated⟩ := hheralded before e after rfl hremoving
    exact List.mem_filterMap.mpr ⟨d, List.mem_append_left _ hd, hcreated⟩
  rcases DockerRunner.workspace_reclaimed hrun with ⟨hmade, hdeleted, _, hrequested⟩ | ⟨name, huses⟩
  · refine ⟨?_, ?_, ?_, hremoved⟩
    · intro d hd
      have hnone := hmem dirMade d hd
      rw [hmade] at hnone
      cases hnone
    · intro d hd
      have hnone := hmem dirMade d hd
      rw [hmade] at hnone
      cases hnone
    · intro config hconfig
      have hnone := hmem requested config hconfig
      rw [hrequested] at hnone
      cases hnone
  · have hone : ∀ d ∈ log.filterMap dirMade,
        d = joinPath ("/workspaces/" ++ x.runner.workerId) name := by
      intro d hd
      have hd' := hmem dirMade d hd
      rw [huses.made] at hd'
      exact List.mem_singleton.mp hd'
    refine ⟨?_, ?_, ?_, hremoved⟩
    · intro d hd d' hd'
      rw [hone d hd, hone d' hd']
    · intro d hd d' hd'
      obtain ⟨front, cleaning, hlog, _, hcleaning, hfront⟩ := huses.removed
      have hd'' := hmem dirRemoved d' hd'
      rw [hlog, List.filterMap_append, hfront, List.nil_append] at hd''
      obtain ⟨e, he, hdir⟩ := List.mem_filterMap.mp hd''
      rw [hcleaning e he] at hdir
      rw [hone d hd]
      exact (Option.some.inj hdir).symm
    · intro config hconfig
      obtain ⟨hostRoot, _, rfl⟩ := huses.mounted config (hmem requested config hconfig)
      obtain ⟨e, he, hreq⟩ := List.mem_filterMap.mp hconfig
      have hheralded := (heralded_append.mp (DockerRunner.requested_behind_dir hrun)).1
      obtain ⟨before, after, rfl⟩ := List.append_of_mem he
      obtain ⟨d, hd, hdir⟩ := hheralded before e after rfl (by simp [hreq])
      obtain ⟨dir, hdir⟩ := Option.ne_none_iff_exists'.mp hdir
      have hmade : dir ∈ (before ++ e :: after).filterMap dirMade :=
        List.mem_filterMap.mpr ⟨d, List.mem_append_left _ hd, hdir⟩
      refine ⟨dir, hmade, joinPath (joinPath hostRoot x.runner.workerId) name, ?_⟩
      rw [hone dir hmade]

/-- An execution that has ended has begun to delete its directory. -/
theorem Execution.deletes_of_run {out : Option (Except RunError RunResponse)}
    (h : Run x.program log out) {d : String} (hd : d ∈ log.filterMap dirMade) :
    d ∈ log.filterMap dirRemoved := by
  rcases DockerRunner.workspace_reclaimed h with ⟨hmade, _, _, _⟩ | ⟨name, huses⟩
  · rw [hmade] at hd
    cases hd
  · rw [huses.made] at hd
    obtain ⟨front, cleaning, hlog, hne, hcleaning, _⟩ := huses.removed
    obtain ⟨e, he⟩ := List.exists_mem_of_ne_nil cleaning hne
    rw [List.mem_singleton.mp hd]
    refine List.mem_filterMap.mpr ⟨e, ?_, hcleaning e he⟩
    rw [hlog]
    exact List.mem_append_right _ he

end Executions

/-! ## Clean-ups -/

namespace OrphanCleanup

/-- What a clean-up has learned of a container before it removes it: it is on the list, its
job is not alive, and its directory is found. -/
structure Condemned (containers : List Container) (c : Container) (path : String)
    (before : List OrphanEvent) : Prop where
  listed : c ∈ containers
  asked : (c.jobId, .ok false) ∈ before.filterMap answered
  found : (c.id, some path) ∈ before.filterMap foundWorkspace

/-- Each container that is removed was condemned, and the deletion of its directory follows
at once; each directory that is deleted is that of a container removed before. -/
structure Paired (containers : List Container) (log : List OrphanEvent) : Prop where
  removes : ∀ before id force answer after,
    log = before ++ ⟨.docker (.removeContainer id force), answer⟩ :: after →
      ∃ jobId path, Condemned containers ⟨id, jobId⟩ path before ∧
        ∃ result rest, after = ⟨.removeDirAll path, result⟩ :: rest
  deletes : ∀ before path result after, log = before ++ ⟨.removeDirAll path, result⟩ :: after →
    ∃ c, Condemned containers c path before ∧ c.id ∈ before.filterMap removedId

/-- The call changes nothing. -/
def reads : OrphanCall → Bool
  | .docker (.inspectContainer _) | .docker (.listContainers _) => true
  | .isJobExecutionAlive _ | .sleep _ => true
  | .docker _ | .removeDirAll _ => false

/-- The call creates no container. -/
def createsNothing : OrphanCall → Bool
  | .docker (.createContainer _) => false
  | _ => true

section Pairs

variable {log log' : List OrphanEvent} {c : Container} {containers containers' : List Container}

theorem Condemned.mono {path : String} (h : Condemned containers c path log)
    (hsub : ∀ c ∈ containers, c ∈ containers') : Condemned containers' c path log :=
  ⟨hsub c h.listed, h.asked, h.found⟩

theorem Condemned.append_left {path : String} (h : Condemned containers c path log) :
    Condemned containers c path (log' ++ log) := by
  refine ⟨h.listed, ?_, ?_⟩
  · rw [List.filterMap_append]
    exact List.mem_append_right _ h.asked
  · rw [List.filterMap_append]
    exact List.mem_append_right _ h.found

theorem paired_of_reads (h : ∀ e ∈ log, reads e.op = true) : Paired containers log := by
  refine ⟨?_, ?_⟩
  · rintro before id force answer after rfl
    cases h ⟨.docker (.removeContainer id force), answer⟩ (by simp)
  · rintro before path result after rfl
    cases h ⟨.removeDirAll path, result⟩ (by simp)

theorem Paired.append (h : Paired containers log) (h' : Paired containers log') :
    Paired containers (log ++ log') := by
  -- an event of the second part keeps its place, and what is before it grows
  have hsplit : ∀ {before after : List OrphanEvent} {e : OrphanEvent},
      log ++ log' = before ++ e :: after →
        (∃ middle, before = log ++ middle ∧ log' = middle ++ e :: after) ∨
          ∃ middle, log = before ++ e :: middle ∧ after = middle ++ log' := by
    intro before after e hlog
    rcases List.append_eq_append_iff.mp hlog with ⟨middle, rfl, hrest⟩ | ⟨middle, rfl, hrest⟩
    · exact Or.inl ⟨middle, rfl, hrest⟩
    · cases middle with
      | nil => exact Or.inl ⟨[], by simp, hrest.symm⟩
      | cons e' middle =>
          obtain ⟨rfl, rfl⟩ := List.cons.inj hrest
          exact Or.inr ⟨middle, rfl, rfl⟩
  refine ⟨?_, ?_⟩
  · intro before id force answer after hlog
    rcases hsplit hlog with ⟨middle, rfl, hlog'⟩ | ⟨middle, rfl, rfl⟩
    · obtain ⟨jobId, path, hcondemned, hafter⟩ := h'.removes middle id force answer after hlog'
      exact ⟨jobId, path, hcondemned.append_left, hafter⟩
    · obtain ⟨jobId, path, hcondemned, result, rest, rfl⟩ :=
        h.removes before id force answer middle rfl
      exact ⟨jobId, path, hcondemned, result, rest ++ log', rfl⟩
  · intro before path result after hlog
    rcases hsplit hlog with ⟨middle, rfl, hlog'⟩ | ⟨middle, rfl, rfl⟩
    · obtain ⟨c, hcondemned, hremoved⟩ := h'.deletes middle path result after hlog'
      refine ⟨c, hcondemned.append_left, ?_⟩
      rw [List.filterMap_append]
      exact List.mem_append_right _ hremoved
    · exact h.deletes before path result middle rfl

theorem Paired.cons {e : OrphanEvent} (he : reads e.op = true) (h : Paired containers log) :
    Paired containers (e :: log) := by
  have hread : Paired containers [e] := paired_of_reads (by simp [he])
  exact hread.append h

theorem Paired.mono (h : Paired containers log) (hsub : ∀ c ∈ containers, c ∈ containers') :
    Paired containers' log := by
  refine ⟨?_, ?_⟩
  · intro before id force answer after hlog
    obtain ⟨jobId, path, hcondemned, hafter⟩ := h.removes before id force answer after hlog
    exact ⟨jobId, path, hcondemned.mono hsub, hafter⟩
  · intro before path result after hlog
    obtain ⟨c, hcondemned, hremoved⟩ := h.deletes before path result after hlog
    exact ⟨c, hcondemned.mono hsub, hremoved⟩

/-- The attempts to delete one directory. -/
structure Deleting (path : String) (log : List OrphanEvent) : Prop where
  first : ∃ result rest, log = ⟨.removeDirAll path, result⟩ :: rest
  only : ∀ e ∈ log, e.op = .removeDirAll path ∨ ∃ d, e.op = .sleep d

theorem run_removeWorkspace {path : String} {out : Option Unit}
    (h : Run (removeWorkspace path) log out) : out = some () ∧ Deleting path log := by
  have honly : ∀ {attempts : Nat} {log : List OrphanEvent} {out : Option Unit},
      Run (tryRemoveWorkspace path attempts) log out →
        ∀ e ∈ log, e.op = .removeDirAll path ∨ ∃ d, e.op = .sleep d := by
    intro attempts
    induction attempts with
    | zero =>
        intro log out h
        obtain ⟨rfl, _⟩ := Prog.run_pure.mp h
        simp
    | succ attempts ih =>
        intro log out h
        obtain ⟨result, after, rfl, hafter⟩ := run_ask_bind h
        refine List.forall_mem_cons.mpr ⟨Or.inl rfl, ?_⟩
        cases result with
        | ok _ =>
            obtain ⟨rfl, _⟩ := Prog.run_pure.mp hafter
            simp
        | error error =>
            dsimp only at hafter
            split at hafter
            · obtain ⟨slept, after, rfl, hretry⟩ := run_ask_bind hafter
              exact List.forall_mem_cons.mpr ⟨Or.inr ⟨_, rfl⟩, ih hretry⟩
            · obtain ⟨rfl, _⟩ := Prog.run_pure.mp hafter
              simp
  obtain ⟨result, rest, hlog, _⟩ := run_ask_bind h
  exact ⟨(run_tryRemoveWorkspace h).1, ⟨result, rest, hlog⟩, honly h⟩

/-- One container is removed, and its directory is deleted. -/
theorem paired_removal {inspected : Except String ContainerInspect} {path : String}
    {removed : Except String Unit} {deleting : List OrphanEvent} (hc : c ∈ containers)
    (hfound : foundWorkspace ⟨.docker (.inspectContainer c.id), inspected⟩ =
      some (c.id, some path)) (hdeleting : Deleting path deleting) :
    Paired containers (removal c inspected removed deleting) := by
  have hcondemned : ∀ before, Condemned containers c path (⟨.isJobExecutionAlive c.jobId, .ok false⟩ ::
      ⟨.docker (.inspectContainer c.id), inspected⟩ :: before) := by
    intro before
    refine ⟨hc, List.mem_filterMap.mpr ⟨_, List.mem_cons_self, rfl⟩, ?_⟩
    exact List.mem_filterMap.mpr ⟨_, List.mem_cons_of_mem _ List.mem_cons_self, hfound⟩
  refine ⟨?_, ?_⟩
  · intro before id force answer after hsplit
    rcases before with _ | ⟨_, _ | ⟨_, _ | ⟨_, before⟩⟩⟩
    · cases hsplit
    · cases hsplit
    · cases hsplit
      exact ⟨c.jobId, path, hcondemned [], hdeleting.first⟩
    · obtain ⟨_, hsplit⟩ := List.cons.inj hsplit
      obtain ⟨_, hsplit⟩ := List.cons.inj hsplit
      obtain ⟨_, rfl⟩ := List.cons.inj hsplit
      rcases hdeleting.only ⟨.docker (.removeContainer id force), answer⟩ (by simp) with
        hop | ⟨d, hop⟩ <;> cases hop
  · intro before path' result after hsplit
    rcases before with _ | ⟨_, _ | ⟨_, _ | ⟨_, before⟩⟩⟩
    · cases hsplit
    · cases hsplit
    · cases hsplit
    · cases hsplit
      rcases hdeleting.only ⟨.removeDirAll path', result⟩ (by simp) with hop | ⟨d, hop⟩
      · cases hop
        refine ⟨c, hcondemned _, ?_⟩
        refine List.mem_filterMap.mpr ⟨_, List.mem_cons_of_mem _ (List.mem_cons_of_mem _
          List.mem_cons_self), rfl⟩
      · cases hop

/-- The loop removes container by container, and creates none. -/
theorem paired_of_run {out : Option (Except String Unit)}
    (h : Run (cleanAll containers) log out) :
    Paired containers log ∧ ∀ e ∈ log, createsNothing e.op = true := by
  induction containers generalizing log with
  | nil =>
      obtain ⟨rfl, _⟩ := Prog.run_pure.mp h
      exact ⟨paired_of_reads (by simp), by simp⟩
  | cons c rest ih =>
      have hsub : ∀ c' ∈ rest, c' ∈ c :: rest := fun _ hc' => List.mem_cons_of_mem _ hc'
      obtain ⟨alive, after, rfl, hafter⟩ := run_ask_bind h
      rcases alive with err | _ | _
      · obtain ⟨rfl, _⟩ := Prog.run_pure.mp hafter
        exact ⟨paired_of_reads (by simp [reads]), by simp [createsNothing]⟩
      · rcases Prog.run_bind.mp hafter with ⟨_, after, found, rfl, hget, hfound⟩ | ⟨hget, _⟩
        · obtain ⟨inspected, _, rfl, hout, hlabel⟩ := run_getWorkspaceFromContainer hget
          cases hout
          cases hnone : orNone found with
          | none =>
              rw [hnone] at hfound
              obtain ⟨rfl, _⟩ := Prog.run_panic.mp hfound
              exact ⟨paired_of_reads (by simp [reads]), by simp [createsNothing]⟩
          | some path =>
              rw [hnone] at hlabel hfound
              obtain ⟨removed, after, rfl, hremoved⟩ := run_ask_bind hfound
              rcases Prog.run_bind.mp hremoved with ⟨deleting, after, _, rfl, hdelete, hrest⟩ | ⟨hdelete, _⟩
              · obtain ⟨_, hdeleting⟩ := run_removeWorkspace hdelete
                obtain ⟨hpaired, hcreates⟩ := ih hrest
                change Paired _ (removal c inspected removed deleting ++ after) ∧
                  ∀ e ∈ removal c inspected removed deleting ++ after, createsNothing e.op = true
                refine ⟨(paired_removal List.mem_cons_self hlabel hdeleting).append
                  (hpaired.mono hsub), ?_⟩
                refine List.forall_mem_append.mpr ⟨?_, hcreates⟩
                simp only [removal, List.forall_mem_cons]
                refine ⟨rfl, rfl, rfl, ?_⟩
                intro e he
                rcases hdeleting.only e he with hop | ⟨d, hop⟩ <;> rw [hop] <;> rfl
              · cases (run_removeWorkspace hdelete).1
        · obtain ⟨_, _, _, hout, _⟩ := run_getWorkspaceFromContainer hget
          cases hout
      · obtain ⟨hpaired, hcreates⟩ := ih hafter
        exact ⟨(hpaired.mono hsub).cons rfl, List.forall_mem_cons.mpr ⟨rfl, hcreates⟩⟩

/-- The containers a call lists. -/
def listedBy (parseStr : String → Option Uuid) : OrphanEvent → List Container
  | ⟨.docker (.listContainers _), .ok summaries⟩ => summaries.filterMap (codeContainer parseStr)
  | _ => []

/-- A clean-up lists the containers, and goes through them. -/
theorem run_cleanOrphanContainers {parseStr : String → Option Uuid}
    {out : Option (Except String Unit)} (h : Run (cleanOrphanContainers parseStr) log out) :
    ∃ listed rest, log = ⟨.docker (.listContainers "managed-by=worker"), listed⟩ :: rest ∧
      ((∃ err, listed = .error err ∧ rest = [] ∧ out = some (.error err)) ∨ ∃ summaries, listed = .ok summaries ∧
        Run (cleanAll (summaries.filterMap (codeContainer parseStr))) rest out) := by
  cases h with
  | @call _ _ listed rest _ h =>
      refine ⟨listed, rest, rfl, ?_⟩
      cases listed with
      | error err =>
          obtain ⟨rfl, rfl⟩ := Prog.run_pure.mp h
          exact Or.inl ⟨err, rfl, rfl, rfl⟩
      | ok summaries => exact Or.inr ⟨summaries, rfl, h⟩

theorem paired_of_cleanUp {parseStr : String → Option Uuid} {out : Option (Except String Unit)}
    (h : Run (cleanOrphanContainers parseStr) log out) :
    ∃ e rest, log = e :: rest ∧ Paired (listedBy parseStr e) log ∧
      ∀ e ∈ log, createsNothing e.op = true := by
  obtain ⟨listed, rest, rfl, hrest⟩ := run_cleanOrphanContainers h
  have hpaired : Paired (listedBy parseStr ⟨.docker (.listContainers "managed-by=worker"), listed⟩)
      rest ∧ ∀ e ∈ rest, createsNothing e.op = true := by
    rcases hrest with ⟨_, _, rfl, _⟩ | ⟨summaries, rfl, hrun⟩
    · exact ⟨paired_of_reads (by simp), by simp⟩
    · exact paired_of_run hrun
  refine ⟨_, rest, rfl, ?_, List.forall_mem_cons.mpr ⟨rfl, hpaired.2⟩⟩
  exact hpaired.1.cons rfl

/-- What is known of a clean-up wherever it has stopped. -/
structure Begun (parseStr : String → Option Uuid) (log : List OrphanEvent) : Prop where
  creates : ∀ e ∈ log, createsNothing e.op = true
  removes : ∀ before id force answer after,
    log = before ++ ⟨.docker (.removeContainer id force), answer⟩ :: after →
      ∃ jobId path, Condemned (log.flatMap (listedBy parseStr)) ⟨id, jobId⟩ path before ∧
        (after = [] ∨ path ∈ after.filterMap deletedPath)
  deletes : ∀ before path result after, log = before ++ ⟨.removeDirAll path, result⟩ :: after →
    ∃ c, Condemned (log.flatMap (listedBy parseStr)) c path before ∧
      c.id ∈ before.filterMap removedId

theorem begun {parseStr : String → Option Uuid} {q : OrphanProg (Except String Unit)}
    (h : Reaches (cleanOrphanContainers parseStr) log q) : Begun parseStr log := by
  obtain ⟨log', out, hrun⟩ := h.exists_run
  obtain ⟨e₀, rest, hlog, hpaired, hcreates⟩ := paired_of_cleanUp hrun
  -- the list is the first call
  have hlist : ∀ e ∈ log, ∀ c ∈ listedBy parseStr e₀, c ∈ log.flatMap (listedBy parseStr) := by
    intro e he c hc
    cases log with
    | nil => cases he
    | cons e log =>
        obtain ⟨rfl, _⟩ := List.cons.inj hlog
        exact List.mem_flatMap.mpr ⟨e, List.mem_cons_self, hc⟩
  refine ⟨fun e he => hcreates e (List.mem_append_left _ he), ?_, ?_⟩
  · intro before id force answer after hsplit
    obtain ⟨jobId, path, hcondemned, result, rest, hafter⟩ :=
      hpaired.removes before id force answer (after ++ log') (by rw [hsplit]; simp)
    have hsub := hlist ⟨.docker (.removeContainer id force), answer⟩ (by simp [hsplit])
    refine ⟨jobId, path, hcondemned.mono hsub, ?_⟩
    cases after with
    | nil => exact Or.inl rfl
    | cons e after =>
        obtain ⟨rfl, _⟩ := List.cons.inj hafter
        exact Or.inr (List.mem_filterMap.mpr ⟨_, List.mem_cons_self, rfl⟩)
  · intro before path result after hsplit
    obtain ⟨c, hcondemned, hremoved⟩ :=
      hpaired.deletes before path result (after ++ log') (by rw [hsplit]; simp)
    have hsub := hlist ⟨.removeDirAll path, result⟩ (by simp [hsplit])
    exact ⟨c, hcondemned.mono hsub, hremoved⟩

end Pairs

end OrphanCleanup

end EditorBack
