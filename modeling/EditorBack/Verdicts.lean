import EditorBack.DockerRun

/-!
# The verdict of an execution

An `Outcome` is how the two phases of an execution ended when every call to
Docker but `stop_container` succeeds: each phase with an exit code or over its
time limit, and `oom_killed` as it reads after each of them.

`Classifies` says which status an outcome deserves.  `run_rust` gives it except
where a time-out of the compiler cannot be followed by a stop of its container,
and where a 64-bit exit code other than `0` is cut down to `0`;
`verdict_correct_iff` shows that these are the only exceptions.
-/

namespace EditorBack

/-- How a phase ended: with the exit code Docker reports, or over its timeout. -/
inductive PhaseEnd
  | completed (stdout stderr : String) (exitCode : Int64)
  | timedOut

/-- What `exec` under its timeout answers. -/
def PhaseEnd.exec : PhaseEnd → TimedExec
  | .completed stdout stderr exitCode => .completed (.ok ⟨stdout, stderr, some exitCode⟩)
  | .timedOut => .elapsed

def PhaseEnd.isTimedOut : PhaseEnd → Bool
  | .timedOut => true
  | .completed _ _ _ => false

/-- The phase ended with an exit code other than `0`. -/
def PhaseEnd.failed : PhaseEnd → Bool
  | .timedOut => false
  | .completed _ _ exitCode => exitCode != 0

/-- The phase ended with an exit code that `exec` reports as `0`. -/
def PhaseEnd.reportsZero : PhaseEnd → Bool
  | .timedOut => false
  | .completed _ _ exitCode => exitCode.toInt32 == 0

theorem PhaseEnd.not_timedOut_of_reportsZero {e : PhaseEnd} (h : e.reportsZero = true) :
    e.isTimedOut = false := by
  cases e with
  | completed stdout stderr exitCode => rfl
  | timedOut => cases h

/-- An exit code that is not reported as `0` is not `0`. -/
theorem PhaseEnd.failed_of_not_reportsZero {e : PhaseEnd} (hended : e.isTimedOut = false)
    (h : e.reportsZero = false) : e.failed = true := by
  cases e with
  | completed stdout stderr exitCode =>
      have hne : exitCode ≠ 0 := by
        intro heq
        subst heq
        cases h
      simp [failed, hne]
  | timedOut => cases hended

/-- The ends of the two phases, with the container's `oom_killed` after each and
the result of the `stop_container` that follows a time-out of the compiler. -/
structure Outcome where
  compile : PhaseEnd
  stopCompile : Except String Unit
  oomAfterCompile : Option Bool
  run : PhaseEnd
  oomAfterRun : Option Bool

namespace Outcome

/-- The answers `run_rust` gets. -/
def calls (o : Outcome) : RunCalls where
  workspace := .ok ()
  writeMain := .ok ()
  create := .ok ()
  start := .ok ()
  cancelled := false
  compile := o.compile.exec
  stopCompile := o.stopCompile
  inspectCompile := .ok (some o.oomAfterCompile)
  run := o.run.exec
  inspectRun := .ok (some o.oomAfterRun)

/-- The compiler ended in time and its container was killed for memory. -/
def compileKilled (o : Outcome) : Bool :=
  !o.compile.isTimedOut && o.oomAfterCompile.getD false

/-- The program is run. -/
def runReached (o : Outcome) : Bool :=
  o.compile.reportsZero && !o.oomAfterCompile.getD false

/-- A phase that was reached exceeded its timeout. -/
def timedOut (o : Outcome) : Bool :=
  o.compile.isTimedOut || (o.runReached && o.run.isTimedOut)

/-- `oom_killed` was set after a phase that was reached. -/
def outOfMemory (o : Outcome) : Bool :=
  o.compileKilled || (o.runReached && o.oomAfterRun.getD false)

/-- **The status an outcome deserves.**  A time-out comes first, then the memory
limit, then a failure of the compiler, then the exit code of the program. -/
structure Classifies (o : Outcome) (status : RunStatus) : Prop where
  timeLimit : status = .timeLimitExceeded ↔ o.timedOut = true
  memoryLimit : o.timedOut = false →
    (status = .memoryLimitExceeded ↔ o.outOfMemory = true)
  compileError : o.timedOut = false → o.outOfMemory = false →
    (status = .compileError ↔ o.compile.failed = true)
  success : o.timedOut = false → o.outOfMemory = false → o.compile.failed = false →
    (status = .success ↔ o.run.failed = false)
  runtimeError : o.timedOut = false → o.outOfMemory = false → o.compile.failed = false →
    (status = .runtimeError ↔ o.run.failed = true)

/-- `run_rust` answers with the status the outcome deserves. -/
def VerdictCorrect (o : Outcome) (jobId : Uuid) : Prop :=
  ∃ res, runRust jobId o.calls = some (.ok res) ∧ o.Classifies res.status

/-- The container of a timed-out compiler can be stopped, and an exit code that
decides the verdict is not a multiple of `2 ^ 32` other than `0`. -/
structure Plain (o : Outcome) : Prop where
  stopped : o.compile.isTimedOut = true → o.stopCompile = .ok ()
  compiler : o.timedOut = false → o.outOfMemory = false →
    o.compile.reportsZero = true → o.compile.failed = false
  program : o.timedOut = false → o.outOfMemory = false → o.compile.failed = false →
    o.run.reportsZero = true → o.run.failed = false

/-! ## The answers of `run_rust` -/

section Answers

variable {o : Outcome} (jobId : Uuid)

/-- `run_rust` answers with a response of the given status. -/
def Answers (o : Outcome) (jobId : Uuid) (status : RunStatus) : Prop :=
  ∃ res, runRust jobId o.calls = some (.ok res) ∧ res.status = status

/-- An answer is correct if its status is deserved. -/
theorem Answers.verdictCorrect_iff {jobId : Uuid} {status : RunStatus}
    (h : o.Answers jobId status) : o.VerdictCorrect jobId ↔ o.Classifies status := by
  obtain ⟨res, hrun, rfl⟩ := h
  constructor
  · intro hcorrect
    obtain ⟨res', hrun', hclass⟩ := hcorrect
    rw [hrun] at hrun'
    cases hrun'
    exact hclass
  · intro hclass
    exact ⟨res, hrun, hclass⟩

theorem answers_of_compiler_stopped (hcompile : o.compile = .timedOut)
    (hstop : o.stopCompile = .ok ()) : o.Answers jobId .timeLimitExceeded := by
  simp [Answers, runRust, runClosure, calls, hcompile, hstop, PhaseEnd.exec]

theorem error_of_compiler_not_stopped {err : String} (hcompile : o.compile = .timedOut)
    (hstop : o.stopCompile = .error err) :
    runRust jobId o.calls = some (.error (.other err)) := by
  simp [runRust, runClosure, calls, hcompile, hstop, PhaseEnd.exec]

theorem answers_of_compiler_killed {stdout stderr : String} {code : Int64}
    (hcompile : o.compile = .completed stdout stderr code)
    (hoom : o.oomAfterCompile.getD false = true) : o.Answers jobId .memoryLimitExceeded := by
  simp [Answers, runRust, runClosure, calls, hcompile, hoom, PhaseEnd.exec]

theorem answers_of_compiler_failed {stdout stderr : String} {code : Int64}
    (hcompile : o.compile = .completed stdout stderr code)
    (hoom : o.oomAfterCompile.getD false = false) (hcode : code.toInt32 ≠ 0) :
    o.Answers jobId .compileError := by
  simp [Answers, runRust, runClosure, calls, hcompile, hoom, hcode, PhaseEnd.exec,
    ExecOutput.result]

/-- Past the compiler, the program's own run decides. -/
theorem runRust_of_reached (hreached : o.runReached = true) :
    runRust jobId o.calls = runProgram jobId o.calls := by
  obtain ⟨hzero, hoom⟩ := Bool.and_eq_true_iff.mp hreached
  cases hcompile : o.compile with
  | timedOut => simp [hcompile, PhaseEnd.reportsZero] at hzero
  | completed stdout stderr code =>
      have hcode : code.toInt32 = 0 := by simpa [hcompile, PhaseEnd.reportsZero] using hzero
      have hflag : o.oomAfterCompile.getD false = false := by simpa using hoom
      simp [runRust, runClosure, calls, hcompile, hflag, hcode, PhaseEnd.exec, ExecOutput.result]

theorem answers_of_program_timedOut (hreached : o.runReached = true)
    (hrun : o.run = .timedOut) : o.Answers jobId .timeLimitExceeded := by
  rw [Answers, runRust_of_reached jobId hreached]
  simp [runProgram, calls, hrun, PhaseEnd.exec]

theorem answers_of_program_killed {stdout stderr : String} {code : Int64}
    (hreached : o.runReached = true) (hrun : o.run = .completed stdout stderr code)
    (hoom : o.oomAfterRun.getD false = true) : o.Answers jobId .memoryLimitExceeded := by
  rw [Answers, runRust_of_reached jobId hreached]
  simp [runProgram, calls, hrun, hoom, PhaseEnd.exec]

theorem answers_of_program_ended {stdout stderr : String} {code : Int64}
    (hreached : o.runReached = true) (hrun : o.run = .completed stdout stderr code)
    (hoom : o.oomAfterRun.getD false = false) :
    o.Answers jobId (if code.toInt32 = 0 then .success else .runtimeError) := by
  rw [Answers, runRust_of_reached jobId hreached]
  simp [runProgram, calls, hrun, hoom, PhaseEnd.exec,
    ExecOutput.result]

end Answers

/-! ## Where the answer is right -/

section Exceptions

variable {o : Outcome}

/-- A deserved time-out. -/
theorem classifies_timeLimit (h : o.timedOut = true) :
    o.Classifies .timeLimitExceeded := by
  constructor <;> simp [h]

/-- A deserved memory limit. -/
theorem classifies_memoryLimit (htime : o.timedOut = false) (h : o.outOfMemory = true) :
    o.Classifies .memoryLimitExceeded := by
  constructor <;> simp [htime, h]

/-- A deserved compile error. -/
theorem classifies_compileError (htime : o.timedOut = false) (hmem : o.outOfMemory = false)
    (h : o.compile.failed = true) : o.Classifies .compileError := by
  constructor <;> simp [htime, hmem, h]

/-- The exit code of the program decides if the compiler's is `0`. -/
theorem classifies_exit_iff (htime : o.timedOut = false) (hmem : o.outOfMemory = false)
    (zero : Bool) :
    o.Classifies (if zero then .success else .runtimeError) ↔
      o.compile.failed = false ∧ o.run.failed = !zero := by
  constructor
  · intro h
    have hcompile : o.compile.failed = false := by
      have hnot := h.compileError htime hmem
      cases zero <;> simpa using hnot
    refine ⟨hcompile, ?_⟩
    cases zero with
    | true => exact (h.success htime hmem hcompile).mp rfl
    | false => exact (h.runtimeError htime hmem hcompile).mp rfl
  · intro h
    obtain ⟨hcompile, hrun⟩ := h
    cases zero <;> constructor <;> simp [htime, hmem, hcompile, hrun]

/-- An outcome whose program is run. -/
private theorem verdictCorrect_iff_of_reached (hreached : o.runReached = true) (jobId : Uuid) :
    o.VerdictCorrect jobId ↔ o.Plain := by
  obtain ⟨hzero, hnot⟩ := Bool.and_eq_true_iff.mp hreached
  have hflag : o.oomAfterCompile.getD false = false := by simpa using hnot
  have hended : o.compile.isTimedOut = false := PhaseEnd.not_timedOut_of_reportsZero hzero
  cases hrun : o.run with
  | timedOut =>
      have htime : o.timedOut = true := by simp [timedOut, hreached, hrun, PhaseEnd.isTimedOut]
      refine iff_of_true ?_ ⟨by simp [hended], by simp [htime], by simp [htime]⟩
      rw [(answers_of_program_timedOut jobId hreached hrun).verdictCorrect_iff]
      exact classifies_timeLimit htime
  | completed stdout stderr code =>
      have hrunEnded : o.run.isTimedOut = false := by simp [hrun, PhaseEnd.isTimedOut]
      have htime : o.timedOut = false := by simp [timedOut, hended, hrunEnded]
      cases hoom : o.oomAfterRun.getD false with
      | true =>
          have hmem : o.outOfMemory = true := by simp [outOfMemory, hreached, hoom]
          refine iff_of_true ?_ ⟨by simp [hended], by simp [hmem], by simp [hmem]⟩
          rw [(answers_of_program_killed jobId hreached hrun hoom).verdictCorrect_iff]
          exact classifies_memoryLimit htime hmem
      | false =>
          have hmem : o.outOfMemory = false := by
            simp [outOfMemory, compileKilled, hoom, hflag]
          have hanswer := answers_of_program_ended jobId hreached hrun hoom
          have hif : (if code.toInt32 = 0 then RunStatus.success else .runtimeError) =
              if o.run.reportsZero then .success else .runtimeError := by
            simp [hrun, PhaseEnd.reportsZero]
          rw [hif] at hanswer
          rw [hanswer.verdictCorrect_iff, classifies_exit_iff htime hmem]
          constructor
          · intro h
            obtain ⟨hcompiler, hprogram⟩ := h
            refine ⟨by simp [hended], fun _ _ _ => hcompiler, ?_⟩
            intro _ _ _ hreports
            rw [hprogram, hreports]
            rfl
          · intro hplain
            have hcompiler := hplain.compiler htime hmem hzero
            refine ⟨hcompiler, ?_⟩
            cases hreports : o.run.reportsZero with
            | true => exact hplain.program htime hmem hcompiler hreports
            | false => exact PhaseEnd.failed_of_not_reportsZero hrunEnded hreports

/-- **Verdicts are right exactly on plain outcomes.**  `run_rust` answers with
the status an outcome deserves if and only if the container of a timed-out
compiler can be stopped and no exit code that decides the verdict is a
multiple of `2 ^ 32` other than `0`. -/
theorem verdict_correct_iff (o : Outcome) (jobId : Uuid) :
    o.VerdictCorrect jobId ↔ o.Plain := by
  cases hcompile : o.compile with
  | timedOut =>
      have htime : o.timedOut = true := by simp [timedOut, hcompile, PhaseEnd.isTimedOut]
      cases hstop : o.stopCompile with
      | ok _ =>
          refine iff_of_true ?_ ⟨fun _ => hstop, by simp [htime], by simp [htime]⟩
          rw [(answers_of_compiler_stopped jobId hcompile hstop).verdictCorrect_iff]
          exact classifies_timeLimit htime
      | error err =>
          refine iff_of_false ?_ ?_
          · intro hcorrect
            obtain ⟨res, hrun, _⟩ := hcorrect
            rw [error_of_compiler_not_stopped jobId hcompile hstop] at hrun
            cases hrun
          · intro hplain
            have hok := hplain.stopped (by simp [hcompile, PhaseEnd.isTimedOut])
            rw [hstop] at hok
            cases hok
  | completed stdout stderr code =>
      have hended : o.compile.isTimedOut = false := by simp [hcompile, PhaseEnd.isTimedOut]
      cases hoom : o.oomAfterCompile.getD false with
      | true =>
          have htime : o.timedOut = false := by simp [timedOut, runReached, hended, hoom]
          have hmem : o.outOfMemory = true := by
            simp [outOfMemory, compileKilled, hended, hoom]
          refine iff_of_true ?_ ⟨by simp [hended], by simp [hmem], by simp [hmem]⟩
          rw [(answers_of_compiler_killed jobId hcompile hoom).verdictCorrect_iff]
          exact classifies_memoryLimit htime hmem
      | false =>
          by_cases hcode : code.toInt32 = 0
          · have hzero : o.compile.reportsZero = true := by
              simp [hcompile, PhaseEnd.reportsZero, hcode]
            exact verdictCorrect_iff_of_reached (by simp [runReached, hzero, hoom]) jobId
          · have hzero : o.compile.reportsZero = false := by
              simp [hcompile, PhaseEnd.reportsZero, hcode]
            have hfailed : o.compile.failed = true :=
              PhaseEnd.failed_of_not_reportsZero hended hzero
            have htime : o.timedOut = false := by simp [timedOut, runReached, hended, hzero]
            have hmem : o.outOfMemory = false := by
              simp [outOfMemory, compileKilled, runReached, hoom, hzero]
            refine iff_of_true ?_ ⟨by simp [hended], by simp [hzero], by simp [hfailed]⟩
            rw [(answers_of_compiler_failed jobId hcompile hoom hcode).verdictCorrect_iff]
            exact classifies_compileError htime hmem hfailed

end Exceptions

/-- The compiler is over its time limit and Docker cannot stop its container. -/
def unstoppedCompiler : Outcome where
  compile := .timedOut
  stopCompile := .error "container is not running"
  oomAfterCompile := some false
  run := .timedOut
  oomAfterRun := some false

/-- `run_rust` fails instead of answering `TimeLimitExceeded`. -/
theorem unstopped_compiler_fails : ¬ unstoppedCompiler.VerdictCorrect 7 := by
  intro h
  obtain ⟨res, hrun, _⟩ := h
  cases hrun

/-- An exit code of `2 ^ 32` reads as success. -/
example :
    (runRust 7 (calls ⟨.completed "" "" 0, .ok (), some false,
      .completed "" "" 4294967296, some false⟩)).map
        (fun result => result.toOption.map RunResponse.status) = some (some .success) := by
  decide

end Outcome

end EditorBack
