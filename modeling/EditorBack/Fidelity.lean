import EditorBack.OwnMessages
import EditorBack.TerminalRows

/-!
# From the request to the verdict

Between the body of a `POST /run` and the row a client reads in the end lie two
tables, a topic, a container and any number of workers.  Two theorems say that
nothing is mixed up on the way.

`submitted_code_executed`: the source a worker hands to `run_rust` is the one that
was posted under the id of its job.  `verdicts_answered`: what a finished row says
was answered by an execution of this very job that the run has seen, and its output
columns fit its status (`FinishArgs.Fits`).
-/

namespace EditorBack

/-! ## What an execution can answer -/

/-- A call of `run_rust` in a run: its arguments, and what its own calls answered. -/
structure Executed where
  jobId : Uuid
  code : String
  calls : RunCalls

/-- One of the executions was of job `j`, and has ended with `result`. -/
def EndedWith (executions : List Executed) (j : Uuid) (result : Except RunError RunResponse) :
    Prop :=
  ∃ e ∈ executions, e.jobId = j ∧ runRust j e.calls = some result

/-- `handle_message` stores this about one of the executions, which was of job `j`. -/
def AnsweredBy (executions : List Executed) (j : Uuid) (args : FinishArgs) : Prop :=
  ∃ result, EndedWith executions j result ∧ storedArgs result = some args

theorem EndedWith.mono {executions executions' : List Executed} {j : Uuid}
    {result : Except RunError RunResponse} (h : EndedWith executions j result)
    (hsub : ∀ e ∈ executions, e ∈ executions') : EndedWith executions' j result := by
  obtain ⟨e, he, hjob, hrun⟩ := h
  exact ⟨e, hsub e he, hjob, hrun⟩

theorem AnsweredBy.mono {executions executions' : List Executed} {j : Uuid} {args : FinishArgs}
    (h : AnsweredBy executions j args) (hsub : ∀ e ∈ executions, e ∈ executions') :
    AnsweredBy executions' j args := by
  obtain ⟨result, hended, hargs⟩ := h
  exact ⟨result, hended.mono hsub, hargs⟩

/-- The output columns that go with each verdict. -/
inductive FinishArgs.Fits : FinishArgs → Prop
  | success (stdout stderr : String) : Fits ⟨.success, some stdout, some stderr, some 0⟩
  | compileError (stderr : String) {code : Int32} (hcode : code ≠ 0) :
      Fits ⟨.compileError, some "", some stderr, some code⟩
  | compilerTimedOut :
      Fits ⟨.timeLimitExceeded, some "", some "compilation timed out", some (-1)⟩
  | programTimedOut : Fits ⟨.timeLimitExceeded, some "", some "", some (-1)⟩
  | outOfMemory (stdout stderr : String) (code : Int32) :
      Fits ⟨.memoryLimitExceeded, some stdout, some stderr, some code⟩
  | runtimeError (stdout stderr : String) {code : Int32} (hcode : code ≠ 0) :
      Fits ⟨.runtimeError, some stdout, some stderr, some code⟩
  /-- no verdict on the program: the execution itself has failed -/
  | failed (err : String) : Fits ⟨.runtimeError, none, some err, none⟩

section Answers

variable {jobId : Uuid} {calls : RunCalls} {result : Except RunError RunResponse}
  {args : FinishArgs}

private theorem fits_of_error {err : String}
    (hargs : storedArgs (.error (.other err)) = some args) : args.Fits := by
  cases hargs
  exact .failed err

private theorem fits_of_program (h : runProgram jobId calls = some result)
    (hargs : storedArgs result = some args) : args.Fits := by
  unfold runProgram at h
  split at h
  · cases h
    cases hargs
    exact .programTimedOut
  · cases h
    exact fits_of_error hargs
  · next out _ =>
      split at h
      · cases h
        exact fits_of_error hargs
      · cases h
        exact fits_of_error hargs
      · dsimp only [ExecOutput.result] at h
        split at h
        · cases h
          cases hargs
          exact .outOfMemory _ _ _
        · cases h
          cases hargs
          by_cases hcode : (out.inspectExitCode.getD (-1)).toInt32 = 0
          · rw [if_pos hcode, hcode]
            exact .success _ _
          · rw [if_neg hcode]
            exact .runtimeError _ _ hcode

private theorem fits_of_closure (h : runClosure jobId calls = some result)
    (hargs : storedArgs result = some args) : args.Fits := by
  unfold runClosure at h
  split at h
  · split at h
    · cases h
      exact fits_of_error hargs
    · cases h
      cases hargs
      exact .compilerTimedOut
  · cases h
    exact fits_of_error hargs
  · split at h
    · cases h
      exact fits_of_error hargs
    · cases h
      exact fits_of_error hargs
    · dsimp only [ExecOutput.result] at h
      split at h
      · cases h
        cases hargs
        exact .outOfMemory _ _ _
      · split at h
        · next hcode =>
            cases h
            cases hargs
            exact .compileError _ hcode
        · exact fits_of_program h hargs

/-- **What is stored of an execution fits its verdict.** -/
theorem AnsweredBy.fits {executions : List Executed} {j : Uuid}
    (h : AnsweredBy executions j args) : args.Fits := by
  obtain ⟨result, ⟨e, _, _, hrun⟩, hargs⟩ := h
  unfold runRust at hrun
  split at hrun
  · cases hrun
    exact fits_of_error hargs
  · cases hrun
    exact fits_of_error hargs
  · cases hrun
    exact fits_of_error hargs
  · cases hrun
    exact fits_of_error hargs
  · split at hrun
    · cases hrun
      cases hargs
    · exact fits_of_closure hrun hargs

end Answers

/-! ## The answer on its way to the row -/

namespace Handler

/-- The execution a step of a call makes. -/
def executions (h : Handler) : HandlerInput → List Executed
  | .runRust calls =>
      match h.phase with
      | .running job => [⟨job.id, job.code, calls⟩]
      | _ => []
  | _ => []

/-- The result a call carries is that of an execution of its job. -/
def CarriesAnswer (log : List Executed) (h : Handler) : Prop :=
  (∀ job result, h.phase = .collecting job result ∨ h.phase = .joining job result →
    EndedWith log job.id result) ∧
  ∀ job args answer, h.phase = .finishing job args answer → AnsweredBy log job.id args

theorem receive_carriesAnswer (log : List Executed) (workerId : String) (payload : Payload) :
    (receive workerId payload).CarriesAnswer log := by
  cases payload <;> simp [CarriesAnswer, receive]

theorem CarriesAnswer.mono {log log' : List Executed} {h : Handler} (hc : h.CarriesAnswer log)
    (hsub : ∀ e ∈ log, e ∈ log') : h.CarriesAnswer log' :=
  ⟨fun job result hp => (hc.1 job result hp).mono hsub,
    fun job args answer hp => (hc.2 job args answer hp).mono hsub⟩

/-- A call that goes on without a result carries none. -/
theorem CarriesAnswer.of_none {log : List Executed} {h : Handler}
    (hresult : ∀ job result, h.phase ≠ .collecting job result ∧ h.phase ≠ .joining job result)
    (hargs : ∀ job args answer, h.phase ≠ .finishing job args answer) : h.CarriesAnswer log := by
  refine ⟨?_, fun job args answer hp => absurd hp (hargs job args answer)⟩
  rintro job result (hp | hp)
  · exact absurd hp (hresult job result).1
  · exact absurd hp (hresult job result).2

/-- **A step hands the answer on as it is.**  A job in Rust stores nothing but what its
execution has answered. -/
theorem Move.carriesAnswer {log : List Executed} {db : Db} {input : HandlerInput}
    {h h' : Handler} (hm : Move db input h h') (ho : h'.Ordinary) (hc : h.CarriesAnswer log) :
    h'.CarriesAnswer (h.executions input ++ log) := by
  have hkept : h.CarriesAnswer (h.executions input ++ log) :=
    hc.mono fun _ he => List.mem_append_right _ he
  cases hm with
  | @ran _ calls job _ _ hp hl hrun =>
      refine ⟨?_, by simp [goto]⟩
      have hmade : h.executions (.runRust calls) = [⟨job.id, job.code, calls⟩] := by
        simp [executions, hp]
      rintro job' result (heq | heq) <;> cases heq
      rw [hmade]
      exact ⟨_, List.mem_cons_self, rfl, hrun⟩
  | collected hp hl =>
      refine ⟨?_, by simp [goto, withLease]⟩
      rintro job result (heq | heq) <;> cases heq
      exact hkept.1 _ _ (Or.inl hp)
  | joined hp hl hloop hargs =>
      refine ⟨by simp [goto], ?_⟩
      intro job args answer heq
      cases heq
      exact ⟨_, hkept.1 _ _ (Or.inr hp), hargs⟩
  | @unsupported _ job lease err hp hl =>
      -- the job would not be in Rust
      have hanswer := ho.answer job _ _ rfl
      cases hanswer
  | beat _ _ | beatRenewed _ _ | beatLost _ _ | beatError _ _ | beatStopped _ _ _ => exact hkept
  | crashed h =>
      by_cases hjob : h.phase.jobId.isSome
      · refine .of_none ?_ ?_ <;> simp [hjob]
      · simpa [CarriesAnswer, hjob] using hkept
  | _ => exact .of_none (by simp [goto, retry, withLease]) (by simp [goto, retry, withLease])

end Handler

namespace World

/-- The execution a step makes. -/
def executions (s : World) : Action → List Executed
  | .handler i input =>
      match s.handlers[i]? with
      | some h => h.executions input
      | none => []
  | _ => []

/-- Calls carry answers of their executions, and nothing else was ever stored. -/
structure Faithful (s : World) (log : List Executed) : Prop where
  ordinary : s.Ordinary
  carried : ∀ hd ∈ s.handlers, hd.CarriesAnswer log
  stored : ∀ j token args, .finished token args ∈ s.history j → AnsweredBy log j args

section Steps

variable {s s' : World} {a : Action}

/-- A result in a history was there before, or a call has just stored it. -/
theorem finished_origin (h : s.step a = some s') {j token : Uuid} {args : FinishArgs}
    (hmem : .finished token args ∈ s'.history j) :
    .finished token args ∈ s.history j ∨
      ∃ hd ∈ s.handlers, ∃ job answer, hd.phase = .finishing job args answer ∧ job.id = j := by
  cases step_move h with
  | submission _ hm =>
      rcases List.mem_append.mp hmem with hnew | hold
      · have hevent := mem_eventsAt.mp hnew
        cases hm <;> cases hevent
      · exact Or.inl hold
  | @handler _ _ hd _ _ _ hhd _ hw _ =>
      rcases List.mem_append.mp hmem with hnew | hold
      · have hevent := mem_eventsAt.mp hnew
        refine Or.inr ⟨hd, List.mem_of_getElem? hhd, ?_⟩
        cases hw with
        | @finish reply job args' answer lease hp hl hexec =>
            split at hevent
            · cases hevent
              exact ⟨job, answer, hp, rfl⟩
            · split at hevent <;> cases hevent
        | none _ => cases hevent
        | queue _ _ | tryStart _ _ | mark _ _ _ => split at hevent <;> cases hevent
        | beat _ _ =>
            split at hevent
            · cases hevent
            · split at hevent <;> cases hevent
      · exact Or.inl hold
  | reaped _ =>
      rcases List.mem_append.mp hmem with hnew | hold
      · split at hnew <;> simp at hnew
      · exact Or.inl hold
  | _ => exact Or.inl hmem

end Steps

theorem faithful_empty (now : Time) : (empty now).Faithful [] := by
  refine ⟨ordinary_empty now, ?_, ?_⟩ <;> simp [empty]

/-- **Every step is faithful.** -/
theorem faithful_step (s : World) (log : List Executed) (a : Action) (s' : World)
    (hs : s.Faithful log) (h : s.step a = some s') : s'.Faithful (s.executions a ++ log) := by
  have hordinary : s'.Ordinary := ordinary_step s a s' hs.ordinary h
  have hkept : ∀ e ∈ log, e ∈ s.executions a ++ log := fun _ he => List.mem_append_right _ he
  refine ⟨hordinary, ?_, ?_⟩
  · intro hd' hmem
    have ho := hordinary.handlers hd' hmem
    rcases handler_origin h hmem with
      hold | ⟨payload, _, workerId, rfl⟩ | ⟨i, input, hd, eff, rfl, hhd, heff, rfl⟩
    · exact (hs.carried hd' hold).mono hkept
    · exact Handler.receive_carriesAnswer _ workerId payload
    · have hmade : s.executions (.handler i input) = hd.executions input := by
        simp [executions, hhd]
      rw [hmade]
      exact (Handler.step_move heff).carriesAnswer ho (hs.carried hd (List.mem_of_getElem? hhd))
  · intro j token args hmem
    rcases finished_origin h hmem with hold | ⟨hd, hhd, job, answer, hp, rfl⟩
    · exact (hs.stored j token args hold).mono hkept
    · exact ((hs.carried hd hhd).2 job args answer hp).mono hkept

section Stored

variable {s : World} {log : List Executed} {j : Uuid}

theorem Faithful.mono (hs : s.Faithful log) {log' : List Executed}
    (hsub : ∀ e ∈ log, e ∈ log') : s.Faithful log' where
  ordinary := hs.ordinary
  carried := fun hd hmem => (hs.carried hd hmem).mono hsub
  stored := fun j token args hmem => (hs.stored j token args hmem).mono hsub

/-- Whatever was stored for a job was answered by an execution of it. -/
theorem Faithful.answered (hs : s.Faithful log) {args : FinishArgs}
    (hargs : args ∈ storedResults (s.history j)) : AnsweredBy log j args := by
  obtain ⟨token, hmem⟩ := mem_storedResults.mp hargs
  exact hs.stored j token args hmem

/-- A verdict is what was stored last. -/
theorem Faithful.verdict (hs : s.Faithful log) (hcoherent : s.Coherent) {r : JobRow}
    (hr : s.row j = some r) (hterm : r.status.isTerminal = true) : AnsweredBy log j r.result := by
  have hrow : RowCoherent (s.row j) (s.history j) := hcoherent.rows j
  rw [hr] at hrow
  exact hs.answered (hrow.result hterm).mem_storedResults

end Stored

/-- **What a finished row says was answered by an execution of its job.**  In every
state of every run, whatever has ever been stored for a job, and so what a row with
a verdict shows, is the answer of an execution of that job in this run, with the output
columns that go with its status. -/
theorem verdicts_answered (now : Time) (as : List Action) :
    Runs.HoldsAlong (Runs.logged step executions)
      (fun p => (∀ j, ∀ args ∈ storedResults (p.1.history j), AnsweredBy p.2 j args) ∧
        ∀ j r, p.1.row j = some r → r.status.isTerminal = true →
          AnsweredBy p.2 j r.result ∧ r.result.Fits) (empty now, []) as := by
  have hstep : ∀ s log a s', s.Faithful log ∧ s.Coherent → step s a = some s' →
      s'.Faithful (s.executions a ++ log) ∧ s'.Coherent := by
    intro s log a s' hs h
    exact ⟨faithful_step s log a s' hs.1 h, Coherent.step s a s' hs.2 h⟩
  have hinv : Runs.HoldsAlong (Runs.logged step executions)
      (fun p => p.1.Faithful p.2 ∧ p.1.Coherent) (empty now, []) as :=
    Runs.logged_holdsAlong hstep ⟨faithful_empty now, Coherent.empty now⟩ as
  refine hinv.mono ?_
  rintro ⟨s, log⟩ ⟨hfaithful, hcoherent⟩
  refine ⟨fun j args hargs => hfaithful.answered hargs, ?_⟩
  intro j r hr hterm
  have hanswered := hfaithful.verdict hcoherent hr hterm
  exact ⟨hanswered, hanswered.fits⟩

end World

/-! ## The source on its way to the container -/

/-- No statement changes the code of a row. -/
theorem RowStep.code {now : Time} {before after : List Uuid} {r? r?' : Option JobRow}
    {events : List JobEvent} (h : RowStep now before after r? r?' events) {r : JobRow}
    (hr : r? = some r) : ∃ r', r?' = some r' ∧ r'.code = r.code := by
  cases h with
  | idle | refuse => exact ⟨r, hr, rfl⟩
  | insert job _ => cases hr
  | queue _ | start _ _ _ _ _ _ | mark _ | renew _ _ _ | finish _ _ _ _ _ | reset _ _ =>
      cases hr
      exact ⟨_, rfl, rfl⟩

/-- The job a call works on is the one it had, or one it has just read. -/
theorem Handler.Move.job {db : Db} {input : HandlerInput} {h h' : Handler}
    (hm : Handler.Move db input h h') {job : Job} (hjob : h'.phase.job = some job) :
    h.phase.job = some job ∨ ∃ id, h.phase = .selecting id ∧ JobStore.get id db = some job := by
  cases hm with
  | selected hp hget =>
      cases hjob
      exact Or.inr ⟨_, hp, hget⟩
  | queued hp _ | observed hp | granted hp _ | marked hp _ | unsupported hp _ | ran hp _ _
  | collected hp _ | joined hp _ _ _ =>
      cases hjob
      exact Or.inl (by rw [hp]; rfl)
  | beat _ _ | beatRenewed _ _ | beatLost _ _ | beatError _ _ | beatStopped _ _ _ =>
      exact Or.inl hjob
  | crashed h =>
      dsimp only at hjob
      split at hjob
      · cases hjob
      · exact Or.inl hjob
  | _ => cases hjob

namespace World

/-- The code a request posts under the id it draws. -/
def posted (_ : World) : Action → List (Uuid × String)
  | .post (.ok request) id => [(id, request.code)]
  | _ => []

/-- Every copy of a job's code is the one that was posted. -/
structure CodeKept (s : World) (log : List (Uuid × String)) : Prop where
  coherent : s.Coherent
  inserting : ∀ sub ∈ s.submissions, ∀ job, sub.phase = .inserting job →
    (job.id, job.code) ∈ log ∧ job = .submit job.id ⟨job.code⟩
  inserted : ∀ j r, .inserted r ∈ s.history j →
    (j, r.code) ∈ log ∧ ∃ time, r = .new time (.submit j ⟨r.code⟩)
  loaded : ∀ hd ∈ s.handlers, ∀ job, hd.phase.job = some job →
    ∃ r, s.row job.id = some r ∧ job.code = r.code

section Steps

variable {s s' : World} {a : Action} {j : Uuid}

/-- A row in a history was there before, or a request has just inserted it. -/
theorem inserted_origin (h : s.step a = some s') {r : JobRow}
    (hmem : .inserted r ∈ s'.history j) :
    .inserted r ∈ s.history j ∨
      ∃ sub ∈ s.submissions, ∃ job, sub.phase = .inserting job ∧ job.id = j ∧
        r = .new s.db.now job := by
  cases step_move h with
  | @submission _ _ sub _ hsub hm =>
      rcases List.mem_append.mp hmem with hnew | hold
      · have hevent := mem_eventsAt.mp hnew
        refine Or.inr ⟨sub, List.mem_of_getElem? hsub, ?_⟩
        cases hm with
        | inserted hp _ | insertLost hp _ =>
            cases hevent
            exact ⟨_, hp, rfl, rfl⟩
        | _ => cases hevent
      · exact Or.inl hold
  | handler _ _ hw _ =>
      rcases List.mem_append.mp hmem with hnew | hold
      · have hevent := mem_eventsAt.mp hnew
        cases hw with
        | none _ => cases hevent
        | queue _ _ | tryStart _ _ | mark _ _ _ => split at hevent <;> cases hevent
        | finish _ _ _ | beat _ _ =>
            split at hevent
            · cases hevent
            · split at hevent <;> cases hevent
      · exact Or.inl hold
  | reaped _ =>
      rcases List.mem_append.mp hmem with hnew | hold
      · split at hnew <;> simp at hnew
      · exact Or.inl hold
  | _ => exact Or.inl hmem

/-- The code of a row is the code it was inserted with. -/
theorem Coherent.code_inserted (hs : s.Coherent) {r : JobRow} (hr : s.row j = some r) :
    ∃ r₀, .inserted r₀ ∈ s.history j ∧ r.code = r₀.code := by
  have hrow : RowCoherent (s.row j) (s.history j) := hs.rows j
  rw [hr] at hrow
  obtain ⟨r₀, honly, hidentity⟩ := hrow.inserted
  simp only [JobRow.identity, Prod.mk.injEq] at hidentity
  exact ⟨r₀, (honly r₀).mpr rfl, hidentity.2.1⟩

private theorem inserting_step {log : List (Uuid × String)} (hs : s.CodeKept log)
    (h : s.step a = some s') {sub' : Submission} (hsub' : sub' ∈ s'.submissions) {job : Job}
    (hp : sub'.phase = .inserting job) :
    (job.id, job.code) ∈ s.posted a ++ log ∧ job = .submit job.id ⟨job.code⟩ := by
  have hkept : ∀ sub ∈ s.submissions, sub.phase = .inserting job →
      (job.id, job.code) ∈ s.posted a ++ log ∧ job = .submit job.id ⟨job.code⟩ := by
    intro sub hsub hphase
    obtain ⟨hposted, hsubmit⟩ := hs.inserting sub hsub job hphase
    exact ⟨List.mem_append_right _ hposted, hsubmit⟩
  cases step_move h with
  | posted results id =>
      rcases List.mem_append.mp hsub' with hold | hnew
      · exact hkept sub' hold hp
      · cases List.mem_singleton.mp hnew
        cases results with
        | error status => cases hp
        | ok request =>
            cases hp
            exact ⟨List.mem_append_left _ (List.mem_singleton_self _), rfl⟩
  | @submission _ _ sub _ hsub hm =>
      rcases List.mem_or_eq_of_mem_set hsub' with hold | rfl
      · exact hkept sub' hold hp
      · exact hkept sub (List.mem_of_getElem? hsub) (submission_inserting hm hp)
  | _ => exact hkept sub' hsub' hp

private theorem loaded_step {log : List (Uuid × String)} (hs : s.CodeKept log)
    (h : s.step a = some s') {hd' : Handler} (hmem : hd' ∈ s'.handlers) {job : Job}
    (hjob : hd'.phase.job = some job) : ∃ r, s'.row job.id = some r ∧ job.code = r.code := by
  have hkept : ∀ r, s.row job.id = some r → job.code = r.code →
      ∃ r', s'.row job.id = some r' ∧ job.code = r'.code := by
    intro r hr hcode
    obtain ⟨_, _, hrow⟩ := step_row h hs.coherent.sound job.id
    obtain ⟨r', hr', hsame⟩ := hrow.code hr
    exact ⟨r', hr', hcode.trans hsame.symm⟩
  rcases handler_origin h hmem with
    hold | ⟨payload, _, workerId, rfl⟩ | ⟨_, _, hd, eff, _, hhd, heff, rfl⟩
  · obtain ⟨r, hr, hcode⟩ := hs.loaded hd' hold job hjob
    exact hkept r hr hcode
  · cases payload <;> cases hjob
  · rcases (Handler.step_move heff).job hjob with hbefore | ⟨id, _, hget⟩
    · obtain ⟨r, hr, hcode⟩ := hs.loaded hd (List.mem_of_getElem? hhd) job hbefore
      exact hkept r hr hcode
    · obtain ⟨hid, r, hr, rfl⟩ := JobStore.id_of_get hget
      exact hkept r (by rw [hid]; exact hr) rfl

end Steps

theorem codeKept_empty (now : Time) : (empty now).CodeKept [] := by
  refine ⟨Coherent.empty now, ?_, ?_, ?_⟩ <;> simp [empty]

theorem codeKept_step (s : World) (log : List (Uuid × String)) (a : Action) (s' : World)
    (hs : s.CodeKept log) (h : s.step a = some s') : s'.CodeKept (s.posted a ++ log) where
  coherent := Coherent.step s a s' hs.coherent h
  inserting := fun _ hsub _ hp => inserting_step hs h hsub hp
  inserted := by
    intro j r hmem
    rcases inserted_origin h hmem with hold | ⟨sub, hsub, job, hp, rfl, rfl⟩
    · obtain ⟨hposted, hnew⟩ := hs.inserted j r hold
      exact ⟨List.mem_append_right _ hposted, hnew⟩
    · obtain ⟨hposted, hsubmit⟩ := hs.inserting sub hsub job hp
      exact ⟨List.mem_append_right _ hposted, s.db.now, congrArg (JobRow.new s.db.now) hsubmit⟩
  loaded := fun _ hmem _ hjob => loaded_step hs h hmem hjob

/-- **Workers execute what was submitted.**  In every state of every run, the code of
the job a call has loaded, which is what it hands to `run_rust`, is the code of the
job's row, and that code was posted under the job's id. -/
theorem submitted_code_executed (now : Time) (as : List Action) :
    Runs.HoldsAlong (Runs.logged step posted)
      (fun p => ∀ hd ∈ p.1.handlers, ∀ job, hd.phase.job = some job →
        (∃ r, p.1.row job.id = some r ∧ r.code = job.code) ∧ (job.id, job.code) ∈ p.2)
      (empty now, []) as := by
  have hinv := Runs.logged_holdsAlong codeKept_step (codeKept_empty now) as
  refine hinv.mono ?_
  rintro ⟨s, log⟩ hs hd hmem job hjob
  obtain ⟨r, hr, hcode⟩ := hs.loaded hd hmem job hjob
  obtain ⟨r₀, hinserted, hcode₀⟩ := hs.coherent.code_inserted hr
  refine ⟨⟨r, hr, hcode.symm⟩, ?_⟩
  rw [hcode, hcode₀]
  exact (hs.inserted job.id r₀ hinserted).1

end World

end EditorBack
