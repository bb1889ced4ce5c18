import EditorBack.Fidelity
import EditorBack.HandlePanics
import EditorBack.StoredOutputs

/-!
# A call that is let go on

`Handler.next` is the step a call takes next if nothing goes wrong: its statement is
executed, its execution comes to an end, its heartbeat loop sees that it is to stop.
A call at work always has this step ahead (`step_next`), and the step brings it
nearer to its end (`rank_next`).

`OnCourse` says of a call that it will store the result of its execution: it has the
row to itself.  What the row is for a call in each phase is in its definition, and
`OnCourse.next` goes through the phases one by one.
-/

namespace EditorBack

/-- An execution nobody cancels, with a result its columns take. -/
structure RunCalls.Storable (jobId : Uuid) (calls : RunCalls) (args : FinishArgs) : Prop where
  uncancelled : calls.cancelled = false
  answered : ∃ result, runRust jobId calls = some result ∧ storedArgs result = some args
  storable : args.storable = true

example (j : Uuid) :
    Action.helloCalls.Storable j ⟨.success, some "hello", some "", some 0⟩ :=
  ⟨rfl, ⟨_, rfl, rfl⟩, by decide⟩

namespace Handler

/-- A call past its `try_start` has a lease, and one that waits for its heartbeat task
has cancelled it. -/
structure Leased (h : Handler) : Prop where
  leased : h.phase.jobId.isSome = true → h.phase.beforeStart = false → h.lease.isSome = true
  cancelled : ∀ job result lease, h.phase = .joining job result → h.lease = some lease →
    lease.heartbeatCancel = true

theorem receive_leased (workerId : String) (payload : Payload) :
    (receive workerId payload).Leased := by
  cases payload <;> refine ⟨?_, ?_⟩ <;> simp [receive, Phase.jobId, Phase.beforeStart]

/-- Going on under the same lease, anywhere but to wait for the heartbeat task. -/
theorem Leased.goto {h : Handler} {phase : Phase}
    (hleased : phase.jobId.isSome = true → phase.beforeStart = false → h.lease.isSome = true)
    (hjoining : ∀ job result, phase ≠ .joining job result) : (h.goto phase).Leased :=
  ⟨hleased, fun job result _ hp => absurd hp (hjoining job result)⟩

/-- A heartbeat step does not undo a cancellation. -/
theorem Leased.withLease {h : Handler} (hs : h.Leased) {l l' : Lease} (hl : h.lease = some l)
    (hcancel : l.heartbeatCancel = true → l'.heartbeatCancel = true) : (h.withLease l').Leased := by
  refine ⟨fun _ _ => rfl, ?_⟩
  intro job result lease hp hl'
  cases hl'
  exact hcancel (hs.cancelled job result l hp hl)

theorem Move.leased {db : Db} {input : HandlerInput} {h h' : Handler}
    (hm : Move db input h h') (hs : h.Leased) : h'.Leased := by
  cases hm with
  | selected _ _ | notFound _ _ | selectFailed _ | queued _ _ | queueFailed _ | observed _
  | panicked _ | busy _ _ | startFailed _ | markFailed _ _ _ | cancelled _ _ _ | stored _ _ _
  | storeFailed _ _ => exact .goto (by simp [Phase.jobId, Phase.beforeStart]) (by simp)
  | marked _ hl | ran _ hl _ | joined _ hl _ _ => exact .goto (fun _ _ => by rw [hl]; rfl) (by simp)
  | granted _ _ | unsupported _ _ | beatFailed _ _ _ =>
      exact ⟨fun _ _ => rfl, fun job result _ hp => by cases hp⟩
  | collected _ _ =>
      refine ⟨fun _ _ => rfl, ?_⟩
      intro job result lease _ hl
      cases hl
      rfl
  | beat hl _ | beatRenewed hl _ | beatLost hl _ | beatStopped hl _ _ =>
      exact hs.withLease hl (fun h => h)
  | beatError hl _ => exact hs.withLease hl (fun _ => rfl)
  | crashed h =>
      -- nothing is left of a call that was at work
      have hwork : ∀ phase : Phase,
          (if h.phase.jobId.isSome = true then Phase.crashed else h.phase) = phase →
            phase.jobId.isSome = false := by
        rintro phase rfl
        split
        · rfl
        · next hidle => simpa using hidle
      refine ⟨?_, ?_⟩
      · intro hjob
        rw [hwork _ rfl] at hjob
        cases hjob
      · intro job result lease hp
        have hidle := hwork _ hp
        cases hidle

/-- The step of a call with which nothing goes wrong. -/
def next (calls : RunCalls) (token : Uuid) (h : Handler) : HandlerInput :=
  match h.phase with
  | .selecting _ => .select .ok
  | .queuing _ => .queue .ok
  | .observing job => .observe (job.createdAt.getD 0)
  | .starting _ => .tryStart .ok token
  | .marking _ => .mark .ok
  | .running _ => .runRust calls
  | .collecting _ _ => .collect
  | .joining _ _ =>
      match h.lease.map Lease.loop with
      | some .waiting => .beatCancelled
      | some (.answered _) => .beatAnswer
      | some .ended | none => .join
  | .finishing _ args _ => .finish args.reply
  | .returned _ | .panicked | .crashed => .crash

/-- How far a call is from its end. -/
def rank (h : Handler) : Nat :=
  match h.phase with
  | .selecting _ => 11
  | .queuing _ => 10
  | .observing _ => 9
  | .starting _ => 8
  | .marking _ => 7
  | .running _ => 6
  | .collecting _ _ => 5
  | .joining _ _ =>
      match h.lease.map Lease.loop with
      | some (.answered _) => 4
      | some .waiting => 3
      | some .ended | none => 2
  | .finishing _ _ _ => 1
  | .returned _ | .panicked | .crashed => 0

section Progress

variable {calls : RunCalls} {token : Uuid} {db : Db} {h : Handler}

/-- **A call at work can go on.** -/
theorem step_next (token : Uuid) (db : Db) (hs : h.Leased) (hjob : h.phase.jobId.isSome = true)
    (hcalls : calls.cancelled = false) : (h.step (h.next calls token) db).isSome = true := by
  have hlease : h.phase.beforeStart = false → ∃ lease, h.lease = some lease :=
    fun hbefore => Option.isSome_iff_exists.mp (hs.leased hjob hbefore)
  cases hp : h.phase with
  | selecting _ | queuing _ | observing _ | starting _ =>
      simp [next, hp, step, select, queue, observe, tryStart]
  | marking _ | running _ | collecting _ _ | finishing _ _ _ =>
      obtain ⟨lease, hl⟩ := hlease (by rw [hp]; rfl)
      simp [next, hp, hl, step, mark, runRust, collect, finish, hcalls]
  | joining job result =>
      obtain ⟨lease, hl⟩ := hlease (by rw [hp]; rfl)
      have hcancel := hs.cancelled job result lease hp hl
      cases hloop : lease.loop <;>
        simp [next, hp, hl, hloop, step, join, beatCancelled, beatAnswer, hcancel]
  | returned _ | panicked | crashed =>
      rw [hp] at hjob
      cases hjob

/-- A transition brings a call nearer to its end, if the heartbeat moves only while
the call waits for it and sends nothing. -/
theorem Move.rank_lt {input : HandlerInput} {h' : Handler} (hm : Move db input h h')
    (hjob : h.phase.jobId.isSome = true) (hbeat : ∀ reply, input ≠ .beat reply)
    (hjoining : input = .beatAnswer ∨ input = .beatCancelled →
      ∃ job result, h.phase = .joining job result) : h'.rank < h.rank := by
  cases hm with
  | selected hp _ | notFound hp _ | selectFailed hp | queued hp _ | queueFailed hp | observed hp
  | panicked hp | granted hp _ | busy hp _ | startFailed hp | marked hp _ | unsupported hp _
  | markFailed hp _ _ | ran hp _ _ | beatFailed hp _ _ | stored hp _ _ | storeFailed hp _ =>
      simp [rank, hp, goto, retry, withLease]
  | @collected _ _ _ lease hp _ =>
      cases lease.loop <;> simp [rank, hp, goto, withLease]
  | joined hp hl hloop _ | cancelled hp hl hloop =>
      simp [rank, hp, hl, hloop, goto, retry]
  | beat _ _ => exact absurd rfl (hbeat _)
  | beatRenewed hl hloop | beatLost hl hloop | beatError hl hloop =>
      obtain ⟨job, result, hp⟩ := hjoining (Or.inl rfl)
      simp [rank, hp, hl, hloop, withLease]
  | beatStopped hl hloop _ =>
      obtain ⟨job, result, hp⟩ := hjoining (Or.inr rfl)
      simp [rank, hp, hl, hloop, withLease]
  | crashed h =>
      have hpos : 0 < h.rank := by
        cases hp : h.phase <;> simp_all [rank, Phase.jobId]
        split <;> omega
      simpa [rank, hjob] using hpos

/-- **Going on brings a call nearer to its end.** -/
theorem rank_next {eff : HandlerEffect} (hjob : h.phase.jobId.isSome = true)
    (he : h.step (h.next calls token) db = some eff) : eff.handler.rank < h.rank := by
  refine (step_move he).rank_lt hjob ?_ ?_
  · intro reply
    unfold next
    split
    case h_8 => split <;> simp
    all_goals simp
  · unfold next
    split <;> simp_all

end Progress

/-! ## A call that has its row to itself -/

/-- The call has a lease in force, and its heartbeat task has no bad news. -/
def Holds (j : Uuid) (db : Db) (h : Handler) : Prop :=
  ∃ lease r, h.lease = some lease ∧ lease.heartbeatErr = none ∧
    (∀ answer, lease.loop ≠ .answered answer) ∧
    db.row j = some r ∧ r.heldBy lease.lockToken = true

/-- The call is going to store `args` for job `j`. -/
def OnCourse (j : Uuid) (args : FinishArgs) (db : Db) (h : Handler) : Prop :=
  match h.phase with
  | .selecting id => id = j ∧ (db.row j).isSome = true
  | .queuing job => job.id = j ∧ (db.row j).isSome = true
  | .observing job | .starting job =>
      job.id = j ∧ ∃ r, db.row j = some r ∧ r.status = .queued
  | .marking job | .running job => job.id = j ∧ h.Holds j db
  | .collecting job result | .joining job result =>
      job.id = j ∧ storedArgs result = some args ∧ h.Holds j db
  | .finishing job args' _ => job.id = j ∧ args' = args ∧ h.Holds j db
  | .returned _ | .panicked | .crashed => False

/-- The row of job `j` shows `args`. -/
def ShowsResult (j : Uuid) (args : FinishArgs) (db : Db) : Prop :=
  ∃ r, db.row j = some r ∧ r.result = args

section OnCourse

variable {j : Uuid} {args : FinishArgs} {calls : RunCalls} {token : Uuid} {db : Db} {h : Handler}
  {eff : HandlerEffect} {job : Job}

theorem OnCourse.jobId (hc : h.OnCourse j args db) : h.phase.jobId = some j := by
  unfold OnCourse at hc
  split at hc <;> simp_all [Phase.jobId]

private theorem onCourse_selecting {id : Uuid} (hp : h.phase = .selecting id)
    (hc : h.OnCourse j args db) (he : h.step (.select .ok) db = some eff) :
    eff.handler.OnCourse j args eff.db := by
  simp only [OnCourse, hp] at hc
  obtain ⟨rfl, hrow⟩ := hc
  obtain ⟨r, hr⟩ := Option.isSome_iff_exists.mp hrow
  simp only [step, select, hp, Reply.call, JobStore.get, hr, Option.map_some] at he
  cases he
  have hid : r.id = id := KeyedTable.key_of_lookup hr
  exact ⟨hid, hrow⟩

private theorem onCourse_queuing (hp : h.phase = .queuing job) (hc : h.OnCourse j args db)
    (he : h.step (.queue .ok) db = some eff) : eff.handler.OnCourse j args eff.db := by
  simp only [OnCourse, hp] at hc
  obtain ⟨rfl, hrow⟩ := hc
  obtain ⟨r, hr⟩ := Option.isSome_iff_exists.mp hrow
  simp only [step, queue, hp, Reply.call, JobStore.answer_updateStatus, hrow, if_true] at he
  cases he
  refine ⟨rfl, r.withStatus .queued, ?_, rfl⟩
  dsimp only
  rw [JobStore.row_updateStatus, if_pos rfl, hr]
  rfl

private theorem onCourse_observing (hp : h.phase = .observing job) (hc : h.OnCourse j args db)
    (hdated : job.createdAt.isSome = true)
    (he : h.step (.observe (job.createdAt.getD 0)) db = some eff) :
    eff.handler.OnCourse j args eff.db := by
  simp only [OnCourse, hp] at hc
  obtain ⟨createdAt, hcreated⟩ := Option.isSome_iff_exists.mp hdated
  simp only [step, observe, hp, hcreated, Option.getD_some, lt_irrefl, if_false] at he
  cases he
  exact hc

private theorem onCourse_starting (hp : h.phase = .starting job) (hc : h.OnCourse j args db)
    (he : h.step (.tryStart .ok token) db = some eff) : eff.handler.OnCourse j args eff.db := by
  simp only [OnCourse, hp] at hc
  obtain ⟨rfl, r, hr, hqueued⟩ := hc
  have hstart : r.startable db.now = true := JobRow.startable_iff.mpr (Or.inl hqueued)
  simp only [step, tryStart, hp, Reply.call, JobStore.answer_tryStart, hr, Option.any_some,
    hstart, if_true] at he
  cases he
  refine ⟨rfl, .spawn job.id token, r.start db.now token h.workerId, rfl, rfl, by simp [Lease.spawn],
    ?_, ?_⟩
  · dsimp only
    rw [JobStore.row_tryStart, if_pos rfl, hr, Option.map_some, if_pos hstart]
  · exact JobRow.heldBy_iff.mpr ⟨rfl, rfl⟩

private theorem onCourse_marking (hp : h.phase = .marking job) (hc : h.OnCourse j args db)
    (hrust : job.language = "rust") (he : h.step (.mark .ok) db = some eff) :
    eff.handler.OnCourse j args eff.db := by
  simp only [OnCourse, hp] at hc
  obtain ⟨rfl, lease, r, hl, herr, hloop, hr, hheld⟩ := hc
  have hrow : (db.row job.id).isSome = true := by rw [hr]; rfl
  simp only [step, mark, hp, hl, Reply.call, JobStore.answer_updateStatus, hrow, if_true,
    hrust] at he
  cases he
  refine ⟨rfl, lease, r.withStatus .running, hl, herr, hloop, ?_, ?_⟩
  · dsimp only
    rw [JobStore.row_updateStatus, if_pos rfl, hr]
    rfl
  · exact JobRow.heldBy_iff.mpr ⟨rfl, (JobRow.heldBy_iff.mp hheld).2⟩

private theorem onCourse_running (hcalls : calls.Storable j args) (hp : h.phase = .running job)
    (hc : h.OnCourse j args db) (he : h.step (.runRust calls) db = some eff) :
    eff.handler.OnCourse j args eff.db := by
  simp only [OnCourse, hp] at hc
  obtain ⟨rfl, hholds⟩ := hc
  obtain ⟨lease, r, hl, hrest⟩ := hholds
  obtain ⟨result, hrun, hargs⟩ := hcalls.answered
  simp only [step, runRust, hp, hl, hcalls.uncancelled, Bool.false_and, Bool.false_eq_true,
    if_false, hrun] at he
  cases he
  exact ⟨rfl, hargs, lease, r, hl, hrest⟩

private theorem onCourse_collecting {result : Except RunError RunResponse}
    (hp : h.phase = .collecting job result) (hc : h.OnCourse j args db)
    (he : h.step .collect db = some eff) : eff.handler.OnCourse j args eff.db := by
  simp only [OnCourse, hp] at hc
  obtain ⟨rfl, hargs, lease, r, hl, herr, hloop, hrest⟩ := hc
  simp only [step, collect, hp, hl, herr] at he
  cases he
  exact ⟨rfl, hargs, _, r, rfl, rfl, hloop, hrest⟩

private theorem onCourse_joining {result : Except RunError RunResponse}
    (hp : h.phase = .joining job result) (hc : h.OnCourse j args db)
    (he : h.step (h.next calls token) db = some eff) : eff.handler.OnCourse j args eff.db := by
  simp only [OnCourse, hp] at hc
  obtain ⟨rfl, hargs, lease, r, hl, herr, hloop, hrest⟩ := hc
  cases hbeat : lease.loop with
  | answered answer => exact absurd hbeat (hloop answer)
  | waiting =>
      simp only [next, hp, hl, Option.map_some, hbeat, step, beatCancelled] at he
      split at he
      · cases he
        have hphase : (h.withLease { lease with loop := .ended }).phase = .joining job result := hp
        simp only [OnCourse, hphase]
        exact ⟨trivial, hargs, _, r, rfl, herr, by simp, hrest⟩
      · cases he
  | ended =>
      simp only [next, hp, hl, Option.map_some, hbeat, step, join] at he
      cases result with
      | ok res =>
          cases he
          cases hargs
          exact ⟨rfl, rfl, lease, r, hl, herr, hloop, hrest⟩
      | error err =>
          cases err with
          | cancelled => cases hargs
          | other err =>
              cases he
              cases hargs
              exact ⟨rfl, rfl, lease, r, hl, herr, hloop, hrest⟩

private theorem showsResult_of_finishing {args' : FinishArgs} {answer : Except ProcessError Unit}
    (hp : h.phase = .finishing job args' answer) (hc : h.OnCourse j args db)
    (hstorable : args.storable = true) (he : h.step (.finish args'.reply) db = some eff) :
    ShowsResult j args eff.db := by
  simp only [OnCourse, hp] at hc
  obtain ⟨rfl, rfl, lease, r, hl, _, _, hr, hheld⟩ := hc
  simp only [step, finish, hp, hl, FinishArgs.reply, hstorable, if_true, Reply.call] at he
  cases he
  refine ⟨r.store db.now args', ?_, rfl⟩
  dsimp only
  rw [JobStore.row_finish, if_pos rfl, hr, Option.map_some, if_pos hheld]

/-- **A call on its course stays on it until its result is stored.** -/
theorem OnCourse.next (hcalls : calls.Storable j args) (hc : h.OnCourse j args db)
    (hdated : h.Dated) (hordinary : h.Ordinary)
    (he : h.step (h.next calls token) db = some eff) :
    eff.handler.OnCourse j args eff.db ∨ ShowsResult j args eff.db := by
  cases hp : h.phase with
  | joining job result => exact Or.inl (onCourse_joining hp hc he)
  | selecting id =>
      simp only [Handler.next, hp] at he
      exact Or.inl (onCourse_selecting hp hc he)
  | queuing job =>
      simp only [Handler.next, hp] at he
      exact Or.inl (onCourse_queuing hp hc he)
  | observing job =>
      simp only [Handler.next, hp] at he
      exact Or.inl (onCourse_observing hp hc (hdated job (Or.inr hp)) he)
  | starting job =>
      simp only [Handler.next, hp] at he
      exact Or.inl (onCourse_starting hp hc he)
  | marking job =>
      simp only [Handler.next, hp] at he
      exact Or.inl (onCourse_marking hp hc (hordinary.language job (by rw [hp]; rfl)) he)
  | running job =>
      simp only [Handler.next, hp] at he
      exact Or.inl (onCourse_running hcalls hp hc he)
  | collecting job result =>
      simp only [Handler.next, hp] at he
      exact Or.inl (onCourse_collecting hp hc he)
  | finishing job args' answer =>
      simp only [Handler.next, hp] at he
      exact Or.inr (showsResult_of_finishing hp hc hcalls.storable he)
  | returned _ | panicked | crashed => simp only [OnCourse, hp] at hc

end OnCourse

end Handler

end EditorBack
