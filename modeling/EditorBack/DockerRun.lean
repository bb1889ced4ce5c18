import EditorBack.Models

/-!
# One execution in a container

`run_rust` and `exec` as functions of what the calls they make return: the
workspace, the container's creation and start, the compiler and the program
each run under a timeout, and the container's state after each of them.
`RunCalls` is one such record of answers; the clean-up that follows the
closure has no influence on the result and is not part of it.

A panic is a result of its own (`none`), and `runRust_verdict` says that it does
not happen: `exec` always reports an exit code.
-/

namespace EditorBack

/-- What `exec` collects: the decoded output and the exit code Docker reports. -/
structure ExecOutput where
  stdout : String
  stderr : String
  inspectExitCode : Option Int64

/-- The end of `exec`: a missing exit code becomes `-1`, and the code is cut
down to 32 bits. -/
def ExecOutput.result (out : ExecOutput) : ExecResult :=
  ⟨out.stdout, out.stderr, some (out.inspectExitCode.getD (-1)).toInt32⟩

/-- `tokio::time::timeout(d, self.exec(..)).await`. -/
inductive TimedExec
  | completed (res : Except String ExecOutput)
  | elapsed

/-- The answers of the calls one `run_rust` makes, in their order.  The
container state is `state.oom_killed` of an `inspect_container`, the outer
`Option` being the state itself. -/
structure RunCalls where
  workspace : Except String Unit
  writeMain : Except String Unit
  create : Except String Unit
  start : Except String Unit
  /-- `with_container` saw `cancel.cancelled()` before the closure was done. -/
  cancelled : Bool
  compile : TimedExec
  stopCompile : Except String Unit
  inspectCompile : Except String (Option (Option Bool))
  run : TimedExec
  inspectRun : Except String (Option (Option Bool))

/-- The second half of the closure: run the program and classify its end. -/
def runProgram (jobId : Uuid) (calls : RunCalls) : Option (Except RunError RunResponse) :=
  match calls.run with
  | .elapsed => some (.ok ⟨"", .timeLimitExceeded, "", -1, jobId⟩)
  | .completed (.error err) => some (.error (.other err))
  | .completed (.ok out) =>
      match calls.inspectRun with
      | .error err => some (.error (.other err))
      | .ok none => some (.error (.other "container state is missing"))
      | .ok (some oomKilled) =>
          let result := out.result
          if oomKilled.getD false then
            some (.ok ⟨result.stdout, .memoryLimitExceeded, result.stderr,
              result.exitCode.getD (-1), jobId⟩)
          else result.exitCode.map (fun code =>
            .ok ⟨result.stdout, if code = 0 then .success else .runtimeError,
              result.stderr, code, jobId⟩)

/-- The closure `run_rust` passes to `with_container`. -/
def runClosure (jobId : Uuid) (calls : RunCalls) : Option (Except RunError RunResponse) :=
  match calls.compile with
  | .elapsed =>
      match calls.stopCompile with
      | .error err => some (.error (.other err))
      | .ok () => some (.ok ⟨"", .timeLimitExceeded, "compilation timed out", -1, jobId⟩)
  | .completed (.error err) => some (.error (.other err))
  | .completed (.ok out) =>
      match calls.inspectCompile with
      | .error err => some (.error (.other err))
      | .ok none => some (.error (.other "container state is missing"))
      | .ok (some oomKilled) =>
          let compile := out.result
          if oomKilled.getD false then
            some (.ok ⟨compile.stdout, .memoryLimitExceeded, compile.stderr,
              compile.exitCode.getD (-1), jobId⟩)
          else
            match compile.exitCode with
            | none => none
            | some code =>
                if code ≠ 0 then some (.ok ⟨"", .compileError, compile.stderr, code, jobId⟩)
                else runProgram jobId calls

/-- `run_rust`; `none` is a panic. -/
def runRust (jobId : Uuid) (calls : RunCalls) : Option (Except RunError RunResponse) :=
  match calls.workspace, calls.writeMain, calls.create, calls.start with
  | .error err, _, _, _ => some (.error (.other err))
  | .ok (), .error err, _, _ => some (.error (.other err))
  | .ok (), .ok (), .error err, _ => some (.error (.other err))
  | .ok (), .ok (), .ok (), .error err => some (.error (.other err))
  | .ok (), .ok (), .ok (), .ok () =>
      if calls.cancelled then some (.error .cancelled) else runClosure jobId calls

/-- If the result is an answer, the answer is a verdict. -/
def GivesVerdict : Except RunError RunResponse → Prop
  | .ok res => res.status.isTerminal = true
  | .error _ => True

section Verdicts

variable (jobId : Uuid) (calls : RunCalls)

/-- The program's own run does not panic and gives a verdict. -/
theorem runProgram_verdict :
    ∃ result, runProgram jobId calls = some result ∧ GivesVerdict result := by
  unfold runProgram
  split
  · exact ⟨_, rfl, rfl⟩
  · exact ⟨_, rfl, trivial⟩
  · split
    · exact ⟨_, rfl, trivial⟩
    · exact ⟨_, rfl, trivial⟩
    · dsimp only [ExecOutput.result]
      split
      · exact ⟨_, rfl, rfl⟩
      · refine ⟨_, rfl, ?_⟩
        dsimp only [GivesVerdict]
        split <;> rfl

/-- The closure does not panic: the exit codes it unwraps are the ones `exec`
has filled in. -/
theorem runClosure_verdict :
    ∃ result, runClosure jobId calls = some result ∧ GivesVerdict result := by
  unfold runClosure
  split
  · split
    · exact ⟨_, rfl, trivial⟩
    · exact ⟨_, rfl, rfl⟩
  · exact ⟨_, rfl, trivial⟩
  · split
    · exact ⟨_, rfl, trivial⟩
    · exact ⟨_, rfl, trivial⟩
    · dsimp only [ExecOutput.result]
      split
      · exact ⟨_, rfl, rfl⟩
      · split
        · exact ⟨_, rfl, rfl⟩
        · exact runProgram_verdict jobId calls

/-- **An execution does not panic, and what it answers is a verdict.** -/
theorem runRust_verdict : ∃ result, runRust jobId calls = some result ∧ GivesVerdict result := by
  unfold runRust
  split
  · exact ⟨_, rfl, trivial⟩
  · exact ⟨_, rfl, trivial⟩
  · exact ⟨_, rfl, trivial⟩
  · exact ⟨_, rfl, trivial⟩
  · split
    · exact ⟨_, rfl, trivial⟩
    · exact runClosure_verdict jobId calls

end Verdicts

end EditorBack
