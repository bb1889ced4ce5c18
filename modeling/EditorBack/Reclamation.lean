import EditorBack.SharedHost

/-!
# What stays behind on the host

An execution removes its directory when it ends, but it may be stopped before that, and
then the directory is up to a clean-up, which finds it by the label of its container.
`directories_accounted` says what this comes to, in every history of executions and
clean-ups: a directory on the host is named by a container that is there, or its deletion
has failed, or a task stands, or has stopped, in one of two gaps, where the directory is
there and no container names it.

`clean_up_reclaims` is the other half: what a clean-up leaves of the containers that were
there when it began.
-/

namespace EditorBack

open CallTree
open CallTree.Prog (Run Reaches)
open DockerRunner (created requested removing dirMade dirRemoved)
open OrphanCleanup (answered foundWorkspace deletedPath removedId workspaceLabel codeContainer
  cleanOrphanContainers)

/-! ## Directories -/

/-- A container with the labels of the job and of the directory, by which it is found. -/
structure ContainerConfig.Names (config : ContainerConfig) (jobId : Uuid) (dir : String) :
    Prop where
  managed : hasLabel "managed-by=worker" config.labels = true
  job : config.labels.lookup "oj.job_id" = some jobId.hyphenated
  workspace : config.labels.lookup "oj.workspace" = some dir

theorem DockerRunner.names_containerConfig (r : DockerRunner) (image hostPath : String)
    (jobId : Uuid) (dir : String) : (r.containerConfig image hostPath jobId dir).Names jobId dir :=
  ⟨by simp [hasLabel, DockerRunner.containerConfig],
    by simp [DockerRunner.containerConfig, List.lookup_cons],
    by simp [DockerRunner.containerConfig, List.lookup_cons]⟩

/-- The execution has no container with its directory, yet or any more, and has not begun
to delete it. -/
structure DockerRunner.Exposed (log : List RunnerEvent) : Prop where
  undeleted : log.filterMap dirRemoved = []
  alone : ∀ id ∈ log.filterMap created, id ∈ log.filterMap removing

/-- The clean-up has just removed the container. -/
def OrphanCleanup.Exposed (id : Uuid) (log : List OrphanEvent) : Prop :=
  ∃ front force answer, log = front ++ [⟨.docker (.removeContainer id force), answer⟩]

section Histories

variable {runs : Nat → Execution} {parseStr : String → Option Uuid} {as : List MachineAction}
  {m : Machine}

/-- How it stands with the directory `dir` of execution `i`. -/
inductive Standing (runs : Nat → Execution) (parseStr : String → Option Uuid)
    (as : List MachineAction) (m : Machine) (i : Nat) (dir : String) : Prop
  /-- its container is there -/
  | named {c : Uuid × ContainerConfig} (hc : c ∈ m.containers)
      (hnames : c.2.Names (runs i).jobId dir)
  | undeletable {a : MachineAction} (ha : a ∈ as) (hfails : a.deed.failsToDelete = some dir)
  /-- the execution has not ended -/
  | exposed (hopen : ∀ out, ¬ Run (runs i).program (runLog i as) out)
      (h : DockerRunner.Exposed (runLog i as))
  /-- a clean-up that has removed its container has not ended -/
  | cleaning {k : Nat} {id : Uuid} (hid : id ∈ (runLog i as).filterMap created)
      (hopen : ∀ out, ¬ Run (cleanOrphanContainers parseStr) (cleanUpLog k as) out)
      (h : OrphanCleanup.Exposed id (cleanUpLog k as))

/-- A clean-up does not end with the removal of a container. -/
theorem OrphanCleanup.Exposed.open {id : Uuid} {log : List OrphanEvent}
    (h : OrphanCleanup.Exposed id log) (out : Option (Except String Unit)) :
    ¬ Run (cleanOrphanContainers parseStr) log out := by
  intro hrun
  obtain ⟨front, force, answer, rfl⟩ := h
  obtain ⟨_, _, _, hpaired, _⟩ := OrphanCleanup.paired_of_cleanUp hrun
  obtain ⟨_, _, _, _, _, hafter⟩ := hpaired.removes front id force answer [] rfl
  cases hafter

/-- A deletion of a directory that is still there has failed. -/
theorem History.fails_of_deletes (h : History runs parseStr as m) {d : String} (hd : d ∈ m.dirs)
    {a : MachineAction} (ha : a ∈ as) (hdeletes : a.deed.deletes = some d) :
    a.deed.failsToDelete = some d := by
  rcases MachineAction.effect_of_deletes hdeletes with heff | hfails
  · exact absurd hd (h.accounts.deleted a ha d heff).2
  · exact hfails

/-- An execution deletes no directory but its own. -/
theorem History.undeleted {i : Nat} {d : String} (h : History runs parseStr as m)
    (hmade : d ∈ (runLog i as).filterMap dirMade)
    (hnot : ¬ ∃ a ∈ as, a.deed.deletes = some d) : (runLog i as).filterMap dirRemoved = [] := by
  obtain ⟨q, hq⟩ := h.executions i
  refine List.eq_nil_iff_forall_not_mem.mpr ?_
  intro d' hd'
  rw [(Execution.begun hq).deleted d hmade d' hd'] at hd'
  obtain ⟨e, he, hremoved⟩ := List.mem_filterMap.mp hd'
  obtain ⟨a, ha, hdeed⟩ := mem_runLog.mp he
  exact hnot ⟨a, ha, by rw [hdeed]; exact hremoved⟩

/-- The container of an execution is labelled with its directory. -/
theorem History.names_of_created {i : Nat} {d : String} {id : Uuid}
    (h : History runs parseStr as m) (hmade : d ∈ (runLog i as).filterMap dirMade)
    (hid : id ∈ (runLog i as).filterMap created) :
    ∃ config, (id, config) ∈ m.issued ∧ config.Names (runs i).jobId d := by
  obtain ⟨q, hq⟩ := h.executions i
  have hbegun := Execution.begun hq
  obtain ⟨e, he, hcreated⟩ := List.mem_filterMap.mp hid
  obtain ⟨config, hreq, hissued⟩ := h.accounts.known i e he id hcreated
  obtain ⟨d', hd', hostPath, rfl⟩ :=
    hbegun.labelled config (List.mem_filterMap.mpr ⟨e, he, hreq⟩)
  rw [hbegun.made d hmade d' hd'] at hissued
  exact ⟨_, hissued, (runs i).runner.names_containerConfig "rust:1.89" hostPath (runs i).jobId d⟩

/-- A container that an execution has removed is its own. -/
theorem History.removed_own {i j : Nat} {id : Uuid} (h : History runs parseStr as m)
    (hid : id ∈ (runLog i as).filterMap created) (hremoved : id ∈ (runLog j as).filterMap removing) :
    j = i := by
  obtain ⟨q, hq⟩ := h.executions j
  obtain ⟨e', he', hcreated'⟩ := List.mem_filterMap.mp ((Execution.begun hq).removed id hremoved)
  obtain ⟨e, he, hcreated⟩ := List.mem_filterMap.mp hid
  exact h.accounts.sole j i e' he' e he id hcreated' hcreated

/-- What a clean-up has found is on the label of the container. -/
theorem History.label_of_found {k : Nat} {id : Uuid} {path : String}
    {before after : List OrphanEvent} (h : History runs parseStr as m)
    (hsplit : cleanUpLog k as = before ++ after)
    (hfound : (id, some path) ∈ before.filterMap foundWorkspace) :
    ∃ config, (id, config) ∈ m.issued ∧ config.labels.lookup "oj.workspace" = some path := by
  obtain ⟨e, he, hfound⟩ := List.mem_filterMap.mp hfound
  refine h.accounts.seen k e ?_ id path hfound
  rw [hsplit]
  exact List.mem_append_left _ he

/-- A clean-up that has removed the container goes on with the directory. -/
theorem History.exposed_of_cleaned {k : Nat} {jobId id : Uuid} {d : String} {force : Bool}
    {config : ContainerConfig} {answer : Except String Unit} (h : History runs parseStr as m)
    (hissued : (id, config) ∈ m.issued) (hnames : config.Names jobId d)
    (hcleaned : (⟨.docker (.removeContainer id force), answer⟩ : OrphanEvent) ∈ cleanUpLog k as)
    (hnot : ¬ ∃ a ∈ as, a.deed.deletes = some d) : OrphanCleanup.Exposed id (cleanUpLog k as) := by
  obtain ⟨before, after, hsplit⟩ := List.append_of_mem hcleaned
  obtain ⟨q, hq⟩ := h.cleanUps k
  obtain ⟨_, path, hcondemned, hafter⟩ :=
    (OrphanCleanup.begun hq).removes before id force answer after hsplit
  have hpath : path = d := by
    obtain ⟨config', hissued', hlabel⟩ := h.label_of_found hsplit hcondemned.found
    cases h.accounts.distinct _ hissued' _ hissued rfl
    rw [hnames.workspace] at hlabel
    exact (Option.some.inj hlabel).symm
  rcases hafter with rfl | hdeleting
  · exact ⟨before, force, answer, hsplit⟩
  · obtain ⟨e, he, hdeleted⟩ := List.mem_filterMap.mp hdeleting
    have hmem : e ∈ cleanUpLog k as := by
      rw [hsplit]
      exact List.mem_append_right _ (List.mem_cons_of_mem _ he)
    obtain ⟨a, ha, hdeed⟩ := mem_cleanUpLog.mp hmem
    exact absurd ⟨a, ha, by rw [hdeed, ← hpath]; exact hdeleted⟩ hnot

/-- **No directory is lost but in the gaps.**  Whatever executions and clean-ups do side
by side, however their calls are answered and wherever they stop: each directory on the
host was made by an execution; its container is there, with the labels by which it is
found, or an attempt to delete it has failed, or the execution, or a clean-up that has
removed its container, stands in a gap. -/
theorem directories_accounted (h : History runs parseStr as m) :
    ∀ d ∈ m.dirs, ∃ i, d ∈ (runLog i as).filterMap dirMade ∧ Standing runs parseStr as m i d := by
  intro d hd
  obtain ⟨_, i, e, he, hdir⟩ := h.accounts.made d hd
  have hmade : d ∈ (runLog i as).filterMap dirMade := List.mem_filterMap.mpr ⟨e, he, hdir⟩
  refine ⟨i, hmade, ?_⟩
  by_cases hattempt : ∃ a ∈ as, a.deed.deletes = some d
  · obtain ⟨a, ha, hdeletes⟩ := hattempt
    exact .undeletable ha (h.fails_of_deletes hd ha hdeletes)
  · have hundeleted := h.undeleted hmade hattempt
    by_cases halone : ∀ id ∈ (runLog i as).filterMap created, id ∈ (runLog i as).filterMap removing
    · refine .exposed ?_ ⟨hundeleted, halone⟩
      intro out hrun
      have hdeletes := Execution.deletes_of_run hrun hmade
      rw [hundeleted] at hdeletes
      cases hdeletes
    · -- its container was there, and has not been removed by the execution
      push Not at halone
      obtain ⟨id, hid, hnot⟩ := halone
      obtain ⟨config, hissued, hnames⟩ := h.names_of_created hmade hid
      rcases h.accounts.gone _ hissued with
        hthere | ⟨j, e', he', hremoving⟩ | ⟨k, ⟨op, answer⟩, he', force, hop⟩
      · exact .named hthere hnames
      · have hremoved : id ∈ (runLog j as).filterMap removing :=
          List.mem_filterMap.mpr ⟨e', he', hremoving⟩
        have hown := h.removed_own hid hremoved
        subst hown
        exact absurd hremoved hnot
      · cases hop
        have hexposed := h.exposed_of_cleaned hissued hnames he' hattempt
        exact .cleaning hid hexposed.open hexposed

/-! ## Containers -/

/-- Why a container is still there behind a clean-up that has seen it. -/
inductive Spared (runs : Nat → Execution) (log : List OrphanEvent) (c : Uuid × ContainerConfig) :
    Prop
  | alive {i : Nat} {dir : String} (hnames : c.2.Names (runs i).jobId dir)
      (hasked : ((runs i).jobId, .ok true) ∈ log.filterMap answered)
  | refused {err : String} (hrefused : (⟨.docker (.removeContainer c.1 true),
      (.error err : Except String Unit)⟩ : OrphanEvent) ∈ log)

/-- Each container is one of an execution, with its labels. -/
theorem History.names_of_issued (h : History runs parseStr as m) {c : Uuid × ContainerConfig}
    (hc : c ∈ m.issued) :
    ∃ i dir, dir ∈ (runLog i as).filterMap dirMade ∧ c.2.Names (runs i).jobId dir := by
  rcases h.accounts.asked c hc with ⟨i, e, he, hreq⟩ | ⟨k, ⟨op, answer⟩, he, hop⟩
  · obtain ⟨q, hq⟩ := h.executions i
    obtain ⟨dir, hdir, hostPath, hconfig⟩ :=
      (Execution.begun hq).labelled c.2 (List.mem_filterMap.mpr ⟨e, he, hreq⟩)
    rw [hconfig]
    exact ⟨i, dir, hdir, (runs i).runner.names_containerConfig "rust:1.89" hostPath _ dir⟩
  · obtain ⟨q, hq⟩ := h.cleanUps k
    have hcreates := (OrphanCleanup.begun hq).creates _ he
    cases hop
    cases hcreates

/-- The list has every container of the workers. -/
theorem OrphanCleanup.listed_of_tells {summaries : List ContainerSummary}
    (h : m.tells (.listContainers "managed-by=worker") (.ok summaries) = true)
    {c : Uuid × ContainerConfig} (hc : c ∈ m.containers) {jobId : Uuid} {dir : String}
    (hnames : c.2.Names jobId dir) (hparse : parseStr jobId.hyphenated = some jobId) :
    ⟨c.1, jobId⟩ ∈ summaries.filterMap (codeContainer parseStr) := by
  simp only [Machine.tells, Bool.and_eq_true, List.all_eq_true, Bool.or_eq_true, List.any_eq_true,
    Bool.not_eq_true', decide_eq_true_eq] at h
  rcases h.1 c hc with hnot | ⟨s, hs, hid, hlabels⟩
  · rw [hnames.managed] at hnot
    cases hnot
  · refine List.mem_filterMap.mpr ⟨s, hs, ?_⟩
    simp only [codeContainer, hid, hlabels, hnames.job, hparse, Option.bind_eq_bind,
      Option.bind_some]
    rfl

/-- A container on the list has its piece of the clean-up. -/
theorem OrphanCleanup.handled_of_mem {containers : List Container}
    {pieces : List (List OrphanEvent)} (h : List.Forall₂ OrphanCleanup.Handled containers pieces)
    {c : Container} (hc : c ∈ containers) : ∃ piece ∈ pieces, OrphanCleanup.Handled c piece := by
  induction h with
  | nil => cases hc
  | cons hhead _ ih =>
      rcases List.mem_cons.mp hc with rfl | hc
      · exact ⟨_, List.mem_cons_self, hhead⟩
      · obtain ⟨piece, hpiece, hhandled⟩ := ih hc
        exact ⟨piece, List.mem_cons_of_mem _ hpiece, hhandled⟩

/-- What a clean-up has done from its first call on. -/
theorem cleanUpLog_of_first {k : Nat} {a : MachineAction} {e : OrphanEvent}
    {back : List MachineAction} (hfirst : cleanUpLog k as = []) (hdeed : a.deed = .cleanUp k e) :
    cleanUpLog k (as ++ a :: back) = e :: cleanUpLog k back := by
  rw [cleanUpLog_append, hfirst, List.nil_append, cleanUpLog,
    List.filterMap_cons_some (by rw [hdeed, Deed.ofCleanUp, if_pos rfl])]
  rfl

/-- A container that has its piece of a clean-up is gone behind it, or is spared. -/
theorem spared_of_handled {k i : Nat} {dir : String} {c : Uuid × ContainerConfig}
    {piece : List OrphanEvent} {m' : Machine} (hexec : Runs.exec Machine.step m as = some m')
    (hissued : c ∈ m.issued) (hnames : c.2.Names (runs i).jobId dir)
    (hhandled : OrphanCleanup.Handled ⟨c.1, (runs i).jobId⟩ piece)
    (hpiece : ∀ e ∈ piece, e ∈ cleanUpLog k as) (hstill : c ∈ m'.containers) :
    Spared runs (cleanUpLog k as) c := by
  cases hhandled with
  | spared hasked _ _ =>
      have hanswered : ((runs i).jobId, .ok true) ∈ piece.filterMap answered := by
        rw [hasked]
        exact List.mem_singleton_self _
      obtain ⟨e, he, hans⟩ := List.mem_filterMap.mp hanswered
      exact .alive hnames (List.mem_filterMap.mpr ⟨e, hpiece e he, hans⟩)
  | removed _ hremoved _ =>
      have hid : c.1 ∈ piece.filterMap removedId := by
        rw [hremoved]
        exact List.mem_singleton_self _
      obtain ⟨e, he, hrem⟩ := List.mem_filterMap.mp hid
      unfold OrphanCleanup.removedId at hrem
      split at hrem
      · next id answer =>
          cases hrem
          cases answer with
          | error err => exact .refused (hpiece _ he)
          | ok _ =>
              obtain ⟨a, ha, hdeed⟩ := mem_cleanUpLog.mp (hpiece _ he)
              have heff : a.effect = .removed c.1 := by
                rw [MachineAction.effect, hdeed]
                rfl
              have hgone := Machine.gone_of_exec hexec hissued ha heff
              exact absurd rfl (hgone.absent c hstill)
      · cases hrem

/-- **A clean-up leaves no container of the past without a reason.**  Whatever else goes on
while it runs: once a clean-up has returned `Ok`, each container that was on the host when
it made its first call is gone, or its job was answered to be alive, or Docker has
refused to remove it. -/
theorem clean_up_reclaims {k : Nat} {back : List MachineAction} {a : MachineAction}
    {e : OrphanEvent} {m₀ : Machine}
    (h : History runs parseStr (as ++ a :: back) m) (hbefore : History runs parseStr as m₀)
    (hfirst : cleanUpLog k as = []) (hdeed : a.deed = .cleanUp k e)
    (hreturned : Run (cleanOrphanContainers parseStr) (cleanUpLog k (as ++ a :: back))
      (some (.ok ())))
    (hparse : ∀ i, parseStr (runs i).jobId.hyphenated = some (runs i).jobId) :
    ∀ c ∈ m₀.containers, c ∈ m.containers → Spared runs (cleanUpLog k back) c := by
  intro c hc hstill
  obtain ⟨m₁, hfront, hrest⟩ := Runs.exec_split h.accepted
  rw [hbefore.accepted] at hfront
  cases hfront
  obtain ⟨m₁, hstep, hback⟩ := Option.bind_eq_some_iff.mp hrest
  rw [cleanUpLog_of_first hfirst hdeed] at hreturned
  obtain ⟨listed, rest, hlist, hruns⟩ := OrphanCleanup.run_cleanOrphanContainers hreturned
  obtain ⟨rfl, rfl⟩ := List.cons.inj hlist
  rcases hruns with ⟨_, _, _, hout⟩ | ⟨summaries, rfl, hall⟩
  · cases hout
  · obtain ⟨_, _, hanswers⟩ := Machine.step_eq_some hstep
    rw [hdeed] at hanswers
    have hissued := hbefore.accounts.present c hc
    obtain ⟨i, dir, _, hnames⟩ := hbefore.names_of_issued hissued
    have hmem := OrphanCleanup.listed_of_tells hanswers hc hnames (hparse i)
    obtain ⟨pieces, hpieces, hhandled⟩ := OrphanCleanup.pieces_of_run hall rfl
    obtain ⟨piece, hpiece, hdone⟩ := OrphanCleanup.handled_of_mem hhandled hmem
    refine spared_of_handled hback (Machine.issued_mono hstep c hissued) hnames hdone ?_ hstill
    intro e he
    rw [hpieces]
    exact List.mem_flatten.mpr ⟨piece, hpiece, he⟩

/-! ## What a clean-up touches -/

/-- What a clean-up has learned of a container is true of one execution. -/
theorem OrphanCleanup.Condemned.of_history {k : Nat} {c : Container} {path : String}
    {before after : List OrphanEvent} (h : History runs parseStr as m)
    (hsplit : cleanUpLog k as = before ++ after)
    (hc : OrphanCleanup.Condemned ((cleanUpLog k as).flatMap (OrphanCleanup.listedBy parseStr)) c
      path before)
    (hparse : ∀ i, parseStr (runs i).jobId.hyphenated = some (runs i).jobId) :
    ∃ i config, path ∈ (runLog i as).filterMap dirMade ∧ (c.id, config) ∈ m.issued ∧
      config.Names (runs i).jobId path ∧ c.jobId = (runs i).jobId := by
  obtain ⟨config, hissued, hlabel⟩ := h.label_of_found hsplit hc.found
  obtain ⟨i, dir, hdir, hnames⟩ := h.names_of_issued hissued
  have hpath : dir = path := by
    have hworkspace := hnames.workspace
    rw [hlabel] at hworkspace
    exact (Option.some.inj hworkspace).symm
  subst hpath
  refine ⟨i, config, hdir, hissued, hnames, ?_⟩
  -- the job of the list is read off the same labels
  obtain ⟨e', he', hlisted⟩ := List.mem_flatMap.mp hc.listed
  unfold OrphanCleanup.listedBy at hlisted
  split at hlisted
  · next label summaries =>
      obtain ⟨s, hs, hcode⟩ := List.mem_filterMap.mp hlisted
      obtain ⟨c', hc', hid, hlabels⟩ := h.accounts.listed k label summaries he' s hs
      simp only [codeContainer, hid, hlabels, Option.bind_eq_bind, Option.bind_some,
        Option.bind_eq_some_iff] at hcode
      obtain ⟨jobId, ⟨text, htext, hjob⟩, hcontainer⟩ := hcode
      obtain rfl := Option.some.inj hcontainer
      have hsame : config = c'.2 := congrArg Prod.snd (h.accounts.distinct _ hissued _ hc' rfl)
      rw [← hsame, hnames.job] at htext
      cases htext
      rw [hparse i] at hjob
      exact (Option.some.inj hjob).symm
  · cases hlisted

/-- **A clean-up touches nothing of an execution whose job it has not been told is not
alive.**  In every history: a container that a clean-up removes is one of an execution,
labelled with a directory that this execution has made, and a directory that it deletes
was made by an execution whose container, labelled with this directory, it has removed
before; and in both cases the database had answered to this clean-up that the job of this
execution is not alive. -/
theorem clean_up_spares (h : History runs parseStr as m)
    (hparse : ∀ i, parseStr (runs i).jobId.hyphenated = some (runs i).jobId) (k : Nat) :
    (∀ before id force answer after, cleanUpLog k as =
        before ++ ⟨.docker (.removeContainer id force), answer⟩ :: after →
      ∃ i dir config, dir ∈ (runLog i as).filterMap dirMade ∧ (id, config) ∈ m.issued ∧
        config.Names (runs i).jobId dir ∧
        ((runs i).jobId, .ok false) ∈ before.filterMap answered) ∧
    ∀ before dir result after, cleanUpLog k as = before ++ ⟨.removeDirAll dir, result⟩ :: after →
      ∃ i id config, dir ∈ (runLog i as).filterMap dirMade ∧ (id, config) ∈ m.issued ∧
        config.Names (runs i).jobId dir ∧ id ∈ before.filterMap removedId ∧
        ((runs i).jobId, .ok false) ∈ before.filterMap answered := by
  obtain ⟨q, hq⟩ := h.cleanUps k
  have hbegun := OrphanCleanup.begun hq
  refine ⟨?_, ?_⟩
  · intro before id force answer after hsplit
    obtain ⟨jobId, path, hcondemned, _⟩ := hbegun.removes before id force answer after hsplit
    obtain ⟨i, config, hdir, hissued, hnames, hjob⟩ := hcondemned.of_history h hsplit hparse
    have hasked := hcondemned.asked
    rw [hjob] at hasked
    exact ⟨i, path, config, hdir, hissued, hnames, hasked⟩
  · intro before dir result after hsplit
    obtain ⟨c, hcondemned, hremoved⟩ := hbegun.deletes before dir result after hsplit
    obtain ⟨i, config, hdir, hissued, hnames, hjob⟩ := hcondemned.of_history h hsplit hparse
    have hasked := hcondemned.asked
    rw [hjob] at hasked
    exact ⟨i, c.id, config, hdir, hissued, hnames, hremoved, hasked⟩

end Histories

/-! ## A worker that dies -/

/-- Each execution is worker-1's, of job `7`. -/
def greetings (_ : Nat) : Execution :=
  ⟨⟨"worker-1"⟩, 7, "fn main() {}"⟩

def greetingDir : String :=
  joinPath "/workspaces/worker-1" ".tmp7"

def greetingConfig : ContainerConfig :=
  DockerRunner.containerConfig ⟨"worker-1"⟩ "rust:1.89"
    (joinPath (joinPath "/srv" "worker-1") ".tmp7") 7 greetingDir

/-- Worker-1 creates container `900` for job `7`, and dies. -/
def diedLog : List RunnerEvent :=
  [⟨.inl (.isDir "/workspaces/worker-1"), true⟩,
    ⟨.inl (.tempdirIn "/workspaces/worker-1"), .ok ".tmp7"⟩,
    ⟨.inl (.envVar "WORKSPACE_HOST_ROOT"), .ok "/srv"⟩,
    ⟨.inl (.write (joinPath greetingDir "main.rs") "fn main() {}"), .ok ()⟩,
    ⟨.inr (.own (.inspectImage "rust:1.89")), .ok ()⟩,
    ⟨.inr (.own (.createContainer greetingConfig)), .ok 900⟩]

def died : List MachineAction :=
  diedLog.map fun e => ⟨.run 0 e, none⟩

def listing : OrphanEvent :=
  ⟨.docker (.listContainers "managed-by=worker"), .ok [⟨some 900, some greetingConfig.labels⟩]⟩

/-- Worker-2 starts while the row of job `7` still looks alive. -/
def earlyLog : List OrphanEvent :=
  [listing, ⟨.isJobExecutionAlive 7, .ok true⟩]

/-- Worker-2 starts later, and cleans up. -/
def lateLog : List OrphanEvent :=
  [listing, ⟨.isJobExecutionAlive 7, .ok false⟩,
    ⟨.docker (.inspectContainer 900), .ok ⟨none, some (some greetingConfig.labels)⟩⟩,
    ⟨.docker (.removeContainer 900 true), .ok ()⟩, ⟨.removeDirAll greetingDir, .ok ()⟩]

def cleanedBy (log : List OrphanEvent) : List MachineAction :=
  log.map fun e => ⟨.cleanUp 0 e, none⟩

def diedMachine : Machine where
  containers := [(900, greetingConfig)]
  issued := [(900, greetingConfig)]
  dirs := [greetingDir]
  made := [greetingDir]

theorem exec_died : Runs.exec Machine.step .empty died = some diedMachine := rfl

theorem step_listing : diedMachine.step ⟨.cleanUp 0 listing, none⟩ = some diedMachine := by
  have hlabel : hasLabel "managed-by=worker" greetingConfig.labels = true :=
    (DockerRunner.names_containerConfig ⟨"worker-1"⟩ _ _ 7 _).managed
  simp [Machine.step, listing, Machine.allows, Machine.answers, Machine.tells, diedMachine, hlabel,
    MachineAction.effect, Deed.effect, DockerCall.effect, Machine.apply]

theorem history_died {log : List OrphanEvent} {m : Machine} {q : OrphanProg (Except String Unit)}
    (haccepted : Runs.exec Machine.step .empty (died ++ cleanedBy log) = some m)
    (hreaches : Reaches (cleanOrphanContainers Uuid.parseStr) log q) :
    History greetings Uuid.parseStr (died ++ cleanedBy log) m := by
  refine ⟨haccepted, ?_, ?_⟩
  · intro i
    cases i with
    | zero =>
        have hlog : runLog 0 (died ++ cleanedBy log) = diedLog := by
          simp [runLog, died, cleanedBy, Deed.ofRun]
        rw [hlog]
        exact ⟨_, .call (.call (.call (.call (.call (.call (.nil _))))))⟩
    | succ i =>
        have hlog : runLog (i + 1) (died ++ cleanedBy log) = [] := by
          simp [runLog, died, cleanedBy, Deed.ofRun]
        rw [hlog]
        exact ⟨_, .nil _⟩
  · intro k
    cases k with
    | zero =>
        have hlog : cleanUpLog 0 (died ++ cleanedBy log) = log := by
          simp [cleanUpLog, died, cleanedBy, Deed.ofCleanUp]
        rw [hlog]
        exact ⟨q, hreaches⟩
    | succ k =>
        have hlog : cleanUpLog (k + 1) (died ++ cleanedBy log) = [] := by
          simp [cleanUpLog, died, cleanedBy, Deed.ofCleanUp]
        rw [hlog]
        exact ⟨_, .nil _⟩

theorem history_before : History greetings Uuid.parseStr died diedMachine := by
  have haccepted : Runs.exec Machine.step .empty (died ++ cleanedBy []) = some diedMachine :=
    exec_died
  exact history_died haccepted (.nil _)

/-- The directory of the worker that has died is accounted for. -/
theorem died_directory_accounted : ∃ i, greetingDir ∈ (runLog i died).filterMap dirMade ∧
    Standing greetings Uuid.parseStr died diedMachine i greetingDir :=
  directories_accounted history_before greetingDir List.mem_cons_self

theorem exec_early : Runs.exec Machine.step .empty (died ++ cleanedBy earlyLog) =
    some diedMachine := by
  refine Runs.exec_append exec_died ?_
  exact Option.bind_eq_some_iff.mpr ⟨diedMachine, step_listing, rfl⟩

/-- The early clean-up leaves the container, with a reason. -/
theorem early_clean_up_spares_container :
    Spared greetings [⟨.isJobExecutionAlive 7, .ok true⟩] (900, greetingConfig) := by
  have hreaches : Reaches (cleanOrphanContainers Uuid.parseStr) earlyLog (pure (.ok ())) :=
    .call (.call (.nil _))
  have hlog : cleanUpLog 0 (died ++ cleanedBy earlyLog) = earlyLog := rfl
  refine clean_up_reclaims (k := 0) (history_died exec_early hreaches) history_before rfl rfl ?_
    (fun i => Uuid.parseStr_hyphenated (greetings i).jobId) _ List.mem_cons_self List.mem_cons_self
  exact hreaches.returned

theorem exec_late : Runs.exec Machine.step .empty (died ++ cleanedBy lateLog) =
    some { diedMachine with containers := [], dirs := [] } := by
  refine Runs.exec_append exec_died ?_
  refine Option.bind_eq_some_iff.mpr ⟨diedMachine, step_listing, ?_⟩
  simp [Runs.exec, Machine.step, Machine.allows, Machine.answers, Machine.tells, diedMachine,
    MachineAction.effect, Deed.effect, DockerCall.effect, Machine.apply]

/-- The late clean-up deletes the directory of the worker that has died. -/
theorem late_clean_up_deletes : ∃ i id config,
    greetingDir ∈ (runLog i (died ++ cleanedBy lateLog)).filterMap dirMade ∧
      (id, config) ∈ [(900, greetingConfig)] ∧ config.Names (greetings i).jobId greetingDir ∧
        id ∈ (lateLog.take 4).filterMap removedId ∧
          ((greetings i).jobId, .ok false) ∈ (lateLog.take 4).filterMap answered := by
  have hreaches : Reaches (cleanOrphanContainers Uuid.parseStr) lateLog (pure (.ok ())) :=
    .call (.call (.call (.call (.call (.nil _)))))
  exact (clean_up_spares (history_died exec_late hreaches) (fun i => Uuid.parseStr_hyphenated (greetings i).jobId) 0).2
    (lateLog.take 4) greetingDir (.ok ()) [] rfl

end EditorBack
