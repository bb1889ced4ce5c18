import EditorBack.StepStatements

/-!
# The panics of `handle_message`

A call unwraps `created_at`, expects the time since then to be positive, decodes
the status column and unwraps the exit codes of two execs.  `StoredWorld` runs the
system on the columns of `jobs`, as its statements write them, and takes records
with any payload; `panicSite` is where a step panics.

Three of the sites are never reached, each for its own reason: `created_at` is
written at the insertion and never again, a status is only written through
`Display` or as one of its literals, and `exec` fills in an exit code.  The
latency is the difference of two clocks, and `no_panic_iff` says that a run goes
without a panic exactly if no worker's clock is behind the `created_at` of the job
it observes.
-/

namespace EditorBack

/-! ## The system on its columns -/

/-- The system with the table `jobs` as it is stored. -/
structure StoredWorld where
  world : World
  columns : Columns

inductive StoredAction
  | system (a : Action)
  /-- a record of any origin is handed to a worker -/
  | record (workerId : String) (payload : Payload)

/-- Where `handle_message` can panic. -/
inductive PanicSite
  /-- `RunStatus::from` in `get_and_queued` -/
  | statusColumn
  /-- `job.created_at.unwrap()` -/
  | createdAt
  /-- `.to_std().expect("metric time to_std error")` -/
  | queueLatency
  /-- `exit_code.unwrap()` in `run_rust` -/
  | exitCode
  deriving DecidableEq

/-- The panic a step of a call runs into. -/
def Handler.panicSite (h : Handler) (columns : Columns) : HandlerInput → Option PanicSite
  | .select .ok =>
      match h.phase with
      | .selecting id =>
          if (columns.lookup id).any (·.toJob.isNone) then some .statusColumn else none
      | _ => none
  | .observe utcNow =>
      match h.phase with
      | .observing job =>
          match job.createdAt with
          | none => some .createdAt
          | some createdAt => if utcNow < createdAt then some .queueLatency else none
      | _ => none
  | .runRust calls =>
      match h.phase with
      | .running job => if (EditorBack.runRust job.id calls).isNone then some .exitCode else none
      | _ => none
  | _ => none

/-- Where a call of the model ends in a panic, its step has run into one. -/
theorem Handler.panicked_of_step {db : Db} {h : Handler} {input : HandlerInput}
    {eff : HandlerEffect} (columns : Columns) (he : h.step input db = some eff)
    (hnot : h.phase ≠ .panicked) (hpanicked : eff.handler.phase = .panicked) :
    (h.panicSite columns input).isSome = true := by
  generalize hh : eff.handler = h' at hpanicked
  cases hh ▸ step_move he with
  | @panicked _ utcNow job hp =>
      simp only [step, observe, hp] at he
      cases he
      simp only [panicSite, hp]
      cases hcreated : job.createdAt with
      | none => rfl
      | some createdAt =>
          by_cases hbehind : utcNow < createdAt
          · simp [hbehind]
          · simp [hcreated, hbehind, goto] at hh
  | beat _ _ | beatRenewed _ _ | beatLost _ _ | beatError _ _ | beatStopped _ _ _ =>
      exact absurd hpanicked hnot
  | crashed h =>
      dsimp only at hpanicked
      split at hpanicked
      · cases hpanicked
      · exact absurd hpanicked hnot
  | _ => cases hpanicked

namespace StoredWorld

def empty (now : Time) : StoredWorld :=
  ⟨.empty now, .empty⟩

/-- A step of the system, whose statement is executed on the columns. -/
def step (s : StoredWorld) : StoredAction → Option StoredWorld
  | .system a => (s.world.step a).map fun world =>
      { world := world
        columns := (s.world.statement a).elim s.columns
          (·.execColumns s.world.db.now s.world.db.outbox s.columns) }
  | .record workerId payload =>
      let hd := Handler.receive workerId payload
      some { s with world := { s.world with handlers := s.world.handlers ++ [hd] } }

/-- The panic a step runs into. -/
def panicSite (s : StoredWorld) : StoredAction → Option PanicSite
  | .system (.handler i input) => (s.world.handlers[i]?).bind (·.panicSite s.columns input)
  | .system _ | .record _ _ => none

/-- The step does not panic. -/
def NoPanic (s : StoredWorld) (a : StoredAction) (_ : StoredWorld) : Prop :=
  s.panicSite a = none

instance (s : StoredWorld) (a : StoredAction) (s' : StoredWorld) : Decidable (NoPanic s a s') :=
  inferInstanceAs (Decidable (s.panicSite a = none))

/-- Where the step computes a queue latency, the worker's clock is not behind the
`created_at` of the job. -/
def ClockNotBehind (s : StoredWorld) (a : StoredAction) (_ : StoredWorld) : Prop :=
  ∀ i utcNow hd job createdAt, a = .system (.handler i (.observe utcNow)) →
    s.world.handlers[i]? = some hd → hd.phase = .observing job →
      job.createdAt = some createdAt → createdAt ≤ utcNow

end StoredWorld

/-! ## What every run keeps -/

/-- The job a call has read has its `created_at`. -/
def Handler.Dated (h : Handler) : Prop :=
  ∀ job, h.phase = .queuing job ∨ h.phase = .observing job → job.createdAt.isSome = true

theorem Handler.dated_receive (workerId : String) (payload : Payload) :
    (Handler.receive workerId payload).Dated := by
  intro job hphase
  cases payload <;> rcases hphase with h | h <;> cases h

theorem Handler.Move.dated {db : Db} {input : HandlerInput} {h h' : Handler}
    (hm : Handler.Move db input h h') (hd : h.Dated) : h'.Dated := by
  intro job hphase
  cases hm with
  | selected hp hget =>
      rcases hphase with h | h
      · cases h
        obtain ⟨_, r, _, rfl⟩ := JobStore.id_of_get hget
        rfl
      · cases h
  | queued hp hexec =>
      rcases hphase with h | h
      · cases h
      · cases h
        exact hd _ (Or.inl hp)
  | beat _ _ | beatRenewed _ _ | beatLost _ _ | beatError _ _ | beatStopped _ _ _ =>
      exact hd job hphase
  | crashed h =>
      dsimp only at hphase
      split at hphase
      · rcases hphase with h | h <;> cases h
      · exact hd job hphase
  | _ => rcases hphase with h | h <;> cases h

namespace StoredWorld

/-- **What every state of a run has**: the columns are those of the rows, and
every call has the `created_at` of its job. -/
structure Inv (s : StoredWorld) : Prop where
  stored : s.columns = s.world.db.jobs.columns
  dated : ∀ hd ∈ s.world.handlers, hd.Dated

theorem inv_empty (now : Time) : Inv (empty now) :=
  ⟨rfl, fun _ hd => nomatch hd⟩

/-- A call was there before, has just been given a message or a record, or has
just taken a step. -/
theorem handler_origin {s s' : StoredWorld} {a : StoredAction} (h : s.step a = some s')
    {hd' : Handler} (hmem : hd' ∈ s'.world.handlers) :
    hd' ∈ s.world.handlers ∨ (∃ workerId payload, hd' = .receive workerId payload) ∨
      ∃ i input hd eff, a = .system (.handler i input) ∧ s.world.handlers[i]? = some hd ∧
        hd.step input s.world.db = some eff ∧ hd' = eff.handler := by
  cases a with
  | system a =>
      obtain ⟨world, hworld, rfl⟩ := Option.map_eq_some_iff.mp h
      rcases World.handler_origin hworld hmem with
        hold | ⟨payload, _, workerId, hnew⟩ | ⟨i, input, hd, eff, rfl, hstepped⟩
      · exact Or.inl hold
      · exact Or.inr (Or.inl ⟨workerId, payload, hnew⟩)
      · exact Or.inr (Or.inr ⟨i, input, hd, eff, rfl, hstepped⟩)
  | record workerId payload =>
      cases h
      rcases List.mem_append.mp hmem with hold | hnew
      · exact Or.inl hold
      · exact Or.inr (Or.inl ⟨workerId, payload, List.mem_singleton.mp hnew⟩)

theorem dated_of_step {s s' : StoredWorld} {a : StoredAction} (h : s.step a = some s')
    (hdated : ∀ hd ∈ s.world.handlers, hd.Dated) : ∀ hd ∈ s'.world.handlers, hd.Dated := by
  intro hd' hmem
  rcases handler_origin h hmem with
    hold | ⟨workerId, payload, rfl⟩ | ⟨i, input, hd, eff, rfl, hhd, heff, rfl⟩
  · exact hdated hd' hold
  · exact Handler.dated_receive workerId payload
  · exact (Handler.step_move heff).dated (hdated hd (List.mem_of_getElem? hhd))

theorem stored_of_step {s s' : StoredWorld} {a : StoredAction} (h : s.step a = some s')
    (hstored : s.columns = s.world.db.jobs.columns) :
    s'.columns = s'.world.db.jobs.columns := by
  cases a with
  | system a =>
      obtain ⟨world, hworld, rfl⟩ := Option.map_eq_some_iff.mp h
      rw [World.jobs_of_step hworld, Db.jobsAfter]
      cases s.world.statement a with
      | none => exact hstored
      | some st => rw [Option.elim_some, Option.elim_some, Statement.columns_exec, hstored]
  | record workerId payload =>
      cases h
      exact hstored

/-- **One step keeps the invariant.** -/
theorem inv_step {s s' : StoredWorld} {a : StoredAction} (hinv : Inv s)
    (h : s.step a = some s') : Inv s' :=
  ⟨stored_of_step h hinv.stored, dated_of_step h hinv.dated⟩

/-! ## Where a step panics -/

/-- What `get_and_queued` reads from the columns is the job of the row. -/
theorem toJob_lookup {s : StoredWorld} (hinv : Inv s) (id : Uuid) :
    (s.columns.lookup id).map JobColumns.toJob =
      (JobStore.get id s.world.db).map some := by
  rw [hinv.stored, Jobs.columns, KeyedTable.lookup_map, JobStore.get, Db.row, Option.map_map,
    Option.map_map]
  congr 1
  funext r
  exact toJob_columns r

theorem status_decodes {s : StoredWorld} (hinv : Inv s) (id : Uuid) :
    (s.columns.lookup id).any (·.toJob.isNone) = false := by
  have hread := toJob_lookup hinv id
  cases hcolumns : s.columns.lookup id with
  | none => rfl
  | some c =>
      rw [hcolumns, Option.map_some] at hread
      obtain ⟨job, _, hjob⟩ := Option.map_eq_some_iff.mp hread.symm
      rw [Option.any_some, ← hjob]
      rfl

/-- **A call panics exactly where a clock is behind.** -/
theorem panicSite_eq_none_iff {s : StoredWorld} (hinv : Inv s) {hd : Handler}
    (hmem : hd ∈ s.world.handlers) (input : HandlerInput) :
    hd.panicSite s.columns input = none ↔
      ∀ utcNow job createdAt, input = .observe utcNow → hd.phase = .observing job →
        job.createdAt = some createdAt → createdAt ≤ utcNow := by
  cases input with
  | select reply =>
      refine iff_of_true ?_ (fun _ _ _ h => nomatch h)
      cases reply with
      | ok =>
          unfold Handler.panicSite
          dsimp only
          split
          · next id hp => rw [status_decodes hinv id, if_neg Bool.false_ne_true]
          · rfl
      | failed err => rfl
      | lost err => rfl
  | observe utcNow =>
      unfold Handler.panicSite
      dsimp only
      split
      · next job hp =>
          have hdated := hinv.dated hd hmem job (Or.inr hp)
          obtain ⟨createdAt, hcreated⟩ := Option.isSome_iff_exists.mp hdated
          rw [hcreated]
          dsimp only
          split
          · next hbehind =>
              refine iff_of_false nofun ?_
              intro hclock
              have hle := hclock utcNow job createdAt rfl hp hcreated
              exact absurd hbehind (Nat.not_lt_of_ge hle)
          · next hnot =>
              refine iff_of_true rfl ?_
              intro utcNow' job' createdAt' hinput hp' hcreated'
              cases hinput
              rw [hp] at hp'
              cases hp'
              rw [hcreated] at hcreated'
              cases hcreated'
              exact Nat.le_of_not_lt hnot
      · next hphase =>
          refine iff_of_true rfl ?_
          intro _ job _ _ hp _
          exact absurd hp (hphase job)
  | runRust calls =>
      refine iff_of_true ?_ (fun _ _ _ h => nomatch h)
      unfold Handler.panicSite
      dsimp only
      split
      · next job hp =>
          obtain ⟨result, hrun, _⟩ := runRust_verdict job.id calls
          rw [hrun]
          rfl
      · rfl
  | queue _ | tryStart _ _ | mark _ | collect | join | finish _ | beat _ | beatAnswer
  | beatCancelled | crash => exact iff_of_true rfl (fun _ _ _ h => nomatch h)

theorem noPanic_iff_clockNotBehind {s : StoredWorld} {a : StoredAction} {s' : StoredWorld}
    (hinv : Inv s) : NoPanic s a s' ↔ ClockNotBehind s a s' := by
  unfold NoPanic ClockNotBehind panicSite
  split
  · next i input =>
      cases hhd : s.world.handlers[i]? with
      | none =>
          refine iff_of_true rfl ?_
          intro i' utcNow hd' job createdAt ha hhd'
          cases ha
          rw [hhd] at hhd'
          cases hhd'
      | some hd =>
          rw [Option.bind_some, panicSite_eq_none_iff hinv (List.mem_of_getElem? hhd) input]
          constructor
          · intro h i' utcNow hd' job createdAt ha hhd' hp hcreated
            cases ha
            rw [hhd] at hhd'
            cases hhd'
            exact h utcNow job createdAt rfl hp hcreated
          · intro h utcNow job createdAt hinput hp hcreated
            exact h i utcNow hd job createdAt (by rw [hinput]) hhd hp hcreated
  · next a hother =>
      refine iff_of_true rfl ?_
      intro i utcNow _ _ _ ha
      cases ha
      exact absurd rfl (hother i (.observe utcNow))
  · exact iff_of_true rfl (fun _ _ _ _ _ h => nomatch h)

/-- **Handling a message panics exactly if a worker's clock is behind.**  Whatever
records there are, whatever the statements have written and however Docker and the
database answer: no step of a run panics if and only if every queue latency is
computed at a worker's clock that is not behind the job's `created_at`. -/
theorem no_panic_iff (now : Time) (as : List StoredAction) :
    Runs.StepsMeet step NoPanic (empty now) as ↔
      Runs.StepsMeet step ClockNotBehind (empty now) as :=
  Runs.stepsMeet_iff (fun _ _ _ => inv_step) (fun _ _ _ hinv _ => noPanic_iff_clockNotBehind hinv)
    (inv_empty now) as

/-- No call of the model is in a panic. -/
def Unpanicked (s : StoredWorld) : Prop :=
  ∀ hd ∈ s.world.handlers, hd.phase ≠ .panicked

theorem receive_unpanicked (workerId : String) (payload : Payload) :
    (Handler.receive workerId payload).phase ≠ .panicked := by
  cases payload <;> nofun

theorem unpanicked_step {s s' : StoredWorld} {a : StoredAction} (hs : Unpanicked s)
    (h : s.step a = some s') (hno : NoPanic s a s') : Unpanicked s' := by
  intro hd' hmem
  rcases handler_origin h hmem with
    hold | ⟨workerId, payload, rfl⟩ | ⟨i, input, hd, eff, rfl, hhd, heff, rfl⟩
  · exact hs hd' hold
  · exact receive_unpanicked workerId payload
  · intro hpanicked
    have hsite := Handler.panicked_of_step s.columns heff
      (hs hd (List.mem_of_getElem? hhd)) hpanicked
    have hnone : hd.panicSite s.columns input = none := by
      simpa [NoPanic, panicSite, hhd] using hno
    rw [hnone] at hsite
    cases hsite

/-- With the workers' clocks not behind, no call ever is. -/
theorem unpanicked_of_clocks {now : Time} {as : List StoredAction}
    (hclocks : Runs.StepsMeet step ClockNotBehind (empty now) as) :
    Runs.HoldsAlong step Unpanicked (empty now) as := by
  have hno := (Runs.stepsMeet_iff (fun _ _ _ => inv_step)
    (fun _ _ _ hinv _ => noPanic_iff_clockNotBehind hinv) (inv_empty now) as).mpr hclocks
  have hempty : Unpanicked (empty now) := by
    intro hd hmem
    cases hmem
  exact Runs.holdsAlong_of_stepsMeet (fun _ _ _ => unpanicked_step) hempty hno

/-! ## A worker one second behind -/

/-- Job `7` is inserted at second 100, and the worker it is handed to computes its
latency with a clock that shows second 99. -/
def observedBehind : List Action :=
  Action.submit 0 7 ++ [.deliver 0 "worker-1" false, .handler 0 (.select .ok),
    .handler 0 (.queue .ok), .handler 0 (.observe (seconds 99))]

/-- The worker whose clock is behind panics. -/
theorem clock_behind_panics :
    ¬ ∀ now as, Runs.StepsMeet step NoPanic (empty now) as := by
  intro h
  have hpanics : ¬ Runs.StepsMeet step NoPanic (empty (seconds 100))
      (observedBehind.map .system) := by decide
  exact hpanics (h (seconds 100) (observedBehind.map .system))

end StoredWorld

end EditorBack
