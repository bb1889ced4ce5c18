import EditorBack.HandlerMoves
import EditorBack.Runs
import EditorBack.Utf8Lossy

/-!
# Outputs and the columns they are stored in

`exec` collects the bytes a command writes and decodes them lossily, `run_rust`
picks what goes into its response, and `finish` binds that to the `TEXT` columns
`stdout` and `stderr`.  `RawCalls` is an execution down to the bytes.

Lossy decoding makes any bytes into text, but PostgreSQL takes no text with a
U+0000, which the decoding lets through wherever a zero byte stands.  So a
response is stored exactly if the output it carries has no zero byte
(`output_stored_iff`); otherwise the call ends `Retryable`, the row stays as it
is, and the message is owed again (`refused_output_requeued`).
-/

namespace EditorBack

/-! ## The bytes of an execution -/

/-- `LogOutput`, a frame of an attached exec. -/
inductive LogOutput
  | stdErr (message : List UInt8)
  | stdOut (message : List UInt8)
  | stdIn (message : List UInt8)
  | console (message : List UInt8)

/-- The answers of the calls one `exec` makes.  `none` is a detached start. -/
structure ExecCalls where
  createExec : Except String Unit
  startExec : Except String (Option (List (Except String LogOutput)))
  inspectExec : Except String (Option Int64)

namespace ExecCalls

/-- The loop over the frames. -/
def collect : List (Except String LogOutput) → List UInt8 × List UInt8 →
    Except String (List UInt8 × List UInt8)
  | [], bytes => .ok bytes
  | .error err :: _, _ => .error err
  | .ok (.stdOut message) :: items, (stdout, stderr) => collect items (stdout ++ message, stderr)
  | .ok (.stdErr message) :: items, (stdout, stderr) => collect items (stdout, stderr ++ message)
  | .ok (.stdIn _) :: items, bytes | .ok (.console _) :: items, bytes => collect items bytes

/-- What `exec` has in its buffers when the stream ends. -/
def collected (calls : ExecCalls) : Except String (List UInt8 × List UInt8) :=
  match calls.createExec, calls.startExec with
  | .error err, _ => .error err
  | .ok (), .error err => .error err
  | .ok (), .ok none => .ok ([], [])
  | .ok (), .ok (some items) => collect items ([], [])

/-- `exec`. -/
def exec (calls : ExecCalls) : Except String ExecOutput :=
  match calls.collected, calls.inspectExec with
  | .error err, _ => .error err
  | .ok _, .error err => .error err
  | .ok (stdout, stderr), .ok exitCode =>
      .ok ⟨Utf8Lossy.fromUtf8Lossy stdout, Utf8Lossy.fromUtf8Lossy stderr, exitCode⟩

/-- The bytes written to stdout. -/
def stdout (calls : ExecCalls) : List UInt8 :=
  match calls.collected with
  | .ok bytes => bytes.1
  | .error _ => []

/-- The bytes written to stderr. -/
def stderr (calls : ExecCalls) : List UInt8 :=
  match calls.collected with
  | .ok bytes => bytes.2
  | .error _ => []

/-- The exit code, as `exec` reports it. -/
def exitCode (calls : ExecCalls) : Int32 :=
  match calls.inspectExec with
  | .ok code => (code.getD (-1)).toInt32
  | .error _ => (-1 : Int64).toInt32

end ExecCalls

/-- The answers of the calls one `run_rust` makes, an exec over its time limit
being `none`. -/
structure RawCalls where
  workspace : Except String Unit
  writeMain : Except String Unit
  create : Except String Unit
  start : Except String Unit
  cancelled : Bool
  compile : Option ExecCalls
  stopCompile : Except String Unit
  inspectCompile : Except String (Option (Option Bool))
  run : Option ExecCalls
  inspectRun : Except String (Option (Option Bool))

/-- `tokio::time::timeout(d, self.exec(..)).await`. -/
def timed : Option ExecCalls → TimedExec
  | some calls => .completed calls.exec
  | none => .elapsed

namespace RawCalls

/-- The execution after its bytes have been decoded. -/
def calls (raw : RawCalls) : RunCalls where
  workspace := raw.workspace
  writeMain := raw.writeMain
  create := raw.create
  start := raw.start
  cancelled := raw.cancelled
  compile := timed raw.compile
  stopCompile := raw.stopCompile
  inspectCompile := raw.inspectCompile
  run := timed raw.run
  inspectRun := raw.inspectRun

/-- The container was killed for memory during the compilation. -/
def compileKilled (raw : RawCalls) : Bool :=
  match raw.inspectCompile with
  | .ok (some oomKilled) => oomKilled.getD false
  | _ => false

/-- The output that goes into the response: nothing after a time-out, all that
`rustc` wrote if it was killed for memory, what it wrote to stderr if it failed,
and otherwise all that the program wrote. -/
def carried (raw : RawCalls) : List UInt8 :=
  match raw.compile with
  | none => []
  | some compile =>
      if raw.compileKilled then compile.stdout ++ compile.stderr
      else if compile.exitCode ≠ 0 then compile.stderr
      else
        match raw.run with
        | none => []
        | some run => run.stdout ++ run.stderr

end RawCalls

/-! ## The columns -/

/-- PostgreSQL takes a `TEXT` parameter exactly if there is no U+0000 in it; a
`String` is UTF-8 as it is. -/
def isText (s : String) : Bool :=
  '\x00' ∉ s.toList

/-- Both outputs fit their columns. -/
def FinishArgs.storable (args : FinishArgs) : Bool :=
  args.stdout.all isText && args.stderr.all isText

/-- How an available database takes the parameters of a `finish`. -/
def FinishArgs.reply (args : FinishArgs) : Reply :=
  if args.storable then .ok
  else .failed "invalid byte sequence for encoding \"UTF8\": 0x00"

/-- What `handle_message` stores of a response. -/
def RunResponse.args (res : RunResponse) : FinishArgs :=
  ⟨res.status, some res.stdout, some res.stderr, some res.exitCode⟩

/-! ## What a response carries -/

/-- The decoded output of a successful `exec`. -/
theorem ExecCalls.output_of_exec {calls : ExecCalls} {out : ExecOutput}
    (h : calls.exec = .ok out) :
    out.stdout = Utf8Lossy.fromUtf8Lossy calls.stdout ∧
      out.stderr = Utf8Lossy.fromUtf8Lossy calls.stderr ∧
      out.result.exitCode = some calls.exitCode := by
  unfold exec at h
  split at h
  · cases h
  · cases h
  · next stdout stderr exitCode hcollected hinspect =>
      cases h
      simp [ExecCalls.stdout, ExecCalls.stderr, ExecCalls.exitCode, hcollected, hinspect,
        ExecOutput.result]

/-- **What is UTF-8 passes `exec` unchanged.** -/
theorem ExecCalls.text_of_exec {calls : ExecCalls} {out : ExecOutput} {s t : String}
    (h : calls.exec = .ok out)
    (hstdout : calls.stdout = s.toList.flatMap String.utf8EncodeChar)
    (hstderr : calls.stderr = t.toList.flatMap String.utf8EncodeChar) :
    out.stdout = s ∧ out.stderr = t := by
  obtain ⟨hout, herr, _⟩ := output_of_exec h
  rw [hout, herr, hstdout, hstderr]
  exact ⟨Utf8Lossy.fromUtf8Lossy_encode s, Utf8Lossy.fromUtf8Lossy_encode t⟩

/-- A response fits the columns exactly if both of its outputs do. -/
theorem RunResponse.storable_args (res : RunResponse) :
    res.args.storable = (isText res.stdout && isText res.stderr) := rfl

theorem isText_empty : isText "" = true := by decide

theorem isText_timedOut : isText "compilation timed out" = true := by decide

theorem isText_fromUtf8Lossy (bytes : List UInt8) :
    isText (Utf8Lossy.fromUtf8Lossy bytes) = true ↔ 0 ∉ bytes := by
  simp only [isText, decide_eq_true_eq, Utf8Lossy.nul_mem_fromUtf8Lossy]

theorem storable_of_exec {calls : ExecCalls} {out : ExecOutput} (h : calls.exec = .ok out) :
    (isText out.stdout && isText out.stderr) = true ↔ 0 ∉ calls.stdout ++ calls.stderr := by
  obtain ⟨hstdout, hstderr, _⟩ := ExecCalls.output_of_exec h
  rw [hstdout, hstderr, Bool.and_eq_true_iff, isText_fromUtf8Lossy, isText_fromUtf8Lossy,
    List.mem_append, not_or]

/-- An answer of `run_rust` is one of its closure. -/
theorem runClosure_of_answer {jobId : Uuid} {calls : RunCalls} {res : RunResponse}
    (h : runRust jobId calls = some (.ok res)) : runClosure jobId calls = some (.ok res) := by
  unfold runRust at h
  split at h
  · cases h
  · cases h
  · cases h
  · cases h
  · split at h
    · cases h
    · exact h

/-- A response made of nothing but fixed texts. -/
private theorem storable_of_texts {res : RunResponse} (hstdout : isText res.stdout = true)
    (hstderr : isText res.stderr = true) : res.args.storable = true ↔ 0 ∉ ([] : List UInt8) := by
  simp [RunResponse.storable_args, hstdout, hstderr]

/-- The program's run: its response carries what it wrote. -/
private theorem storable_of_program {raw : RawCalls} {jobId : Uuid} {res : RunResponse}
    (h : runProgram jobId raw.calls = some (.ok res)) :
    res.args.storable = true ↔ 0 ∉ (match raw.run with
      | none => []
      | some run => run.stdout ++ run.stderr) := by
  cases hrun : raw.run with
  | none =>
      simp only [runProgram, RawCalls.calls, hrun, timed] at h
      cases h
      exact storable_of_texts isText_empty isText_empty
  | some run =>
      simp only [runProgram, RawCalls.calls, hrun, timed] at h
      cases hexec : run.exec with
      | error err =>
          rw [hexec] at h
          cases h
      | ok out =>
          rw [hexec] at h
          dsimp only at h ⊢
          rw [← storable_of_exec hexec, RunResponse.storable_args]
          obtain ⟨_, _, hcode⟩ := ExecCalls.output_of_exec hexec
          split at h
          · cases h
          · cases h
          · split at h
            · cases h
              rfl
            · rw [hcode] at h
              cases h
              rfl

/-- **A response fits its columns exactly if it carries no zero byte.** -/
theorem storable_iff {raw : RawCalls} {jobId : Uuid} {res : RunResponse}
    (h : runRust jobId raw.calls = some (.ok res)) :
    res.args.storable = true ↔ 0 ∉ raw.carried := by
  have hclosure := runClosure_of_answer h
  unfold RawCalls.carried
  cases hcompile : raw.compile with
  | none =>
      simp only [runClosure, RawCalls.calls, hcompile, timed] at hclosure
      split at hclosure
      · cases hclosure
      · cases hclosure
        exact storable_of_texts isText_empty isText_timedOut
  | some compile =>
      have hcalls : raw.calls.compile = .completed compile.exec := by
        simp only [RawCalls.calls, hcompile, timed]
      simp only [runClosure, hcalls] at hclosure
      cases hexec : compile.exec with
      | error err =>
          rw [hexec] at hclosure
          cases hclosure
      | ok out =>
          rw [hexec] at hclosure
          obtain ⟨hstdout, hstderr, hcode⟩ := ExecCalls.output_of_exec hexec
          dsimp only at hclosure ⊢
          split at hclosure
          · cases hclosure
          · cases hclosure
          · next oomKilled hinspect =>
              have hkilled : raw.compileKilled = oomKilled.getD false := by
                have hraw : raw.inspectCompile = .ok (some oomKilled) := hinspect
                simp only [RawCalls.compileKilled, hraw]
              rw [hkilled]
              split at hclosure
              · next hoom =>
                  cases hclosure
                  rw [if_pos hoom, ← storable_of_exec hexec, RunResponse.storable_args]
                  rfl
              · next hoom =>
                  rw [if_neg hoom]
                  rw [hcode] at hclosure
                  dsimp only at hclosure
                  split at hclosure
                  · next hfailed =>
                      -- a failed compilation leaves the response's stdout empty
                      cases hclosure
                      rw [if_pos hfailed, RunResponse.storable_args]
                      have hresult : out.result.stderr = out.stderr := rfl
                      rw [hresult, hstderr, Bool.and_eq_true_iff, isText_fromUtf8Lossy]
                      exact and_iff_right isText_empty
                  · next hzero =>
                      rw [if_neg hzero]
                      exact storable_of_program hclosure

/-! ## From the execution to the row -/

namespace Handler

/-- A call at work while others change the database. -/
def advance (h : Handler) (x : Db × HandlerInput) : Option Handler :=
  (h.step x.2 x.1).map HandlerEffect.handler

/-- How an available database takes the `finish` of a call. -/
def storeReply (h : Handler) : Reply :=
  match h.phase with
  | .finishing _ args _ => args.reply
  | _ => .ok

/-- The call has a response for its job and has not stored it yet, or is
over. -/
def Carries (job : Job) (res : RunResponse) (h : Handler) : Prop :=
  match h.phase with
  | .collecting job' result | .joining job' result => job' = job ∧ result = .ok res
  | .finishing job' args answer => job' = job ∧ args = res.args ∧ answer = .ok ()
  | .returned _ | .panicked | .crashed => True
  | _ => False

/-- `finish` succeeds, the call returns `Ok`, and the row is terminal with the
given status. -/
def Stores (h : Handler) (db : Db) (jobId : Uuid) (status : RunStatus) : Prop :=
  ∃ eff, h.step (.finish h.storeReply) db = some eff ∧
    eff.handler.phase = .returned (.ok ()) ∧
    ∃ r, eff.db.row jobId = some r ∧ r.status = status ∧ status.isTerminal = true

/-- `finish` fails, the call returns `Retryable`, and nothing is stored. -/
def Requeues (h : Handler) (db : Db) : Prop :=
  ∃ eff, h.step (.finish h.storeReply) db = some eff ∧ eff.db = db ∧
    eff.handler.owesRedelivery = true

section Steps

variable {db : Db} {input : HandlerInput} {h h' : Handler} {job : Job} {res : RunResponse}

/-- A response stays with its call until it is stored. -/
theorem Move.carries (hm : Move db input h h') (hc : h.Carries job res) :
    h'.Carries job res := by
  unfold Carries at hc
  cases hm with
  | selected hp _ | notFound hp _ | selectFailed hp | queued hp _ | queueFailed hp | observed hp
  | panicked hp | granted hp _ | busy hp _ | startFailed hp | marked hp _ | unsupported hp _
  | markFailed hp _ _ | ran hp _ _ =>
      rw [hp] at hc
      cases hc
  | beatFailed hp _ _ | cancelled hp _ _ | storeFailed hp _ | stored hp _ _ => trivial
  | collected hp _ =>
      rw [hp] at hc
      exact hc
  | joined hp _ _ hargs =>
      rw [hp] at hc
      obtain ⟨rfl, rfl⟩ := hc
      cases hargs
      exact ⟨rfl, rfl, rfl⟩
  | beat _ _ | beatRenewed _ _ | beatLost _ _ | beatError _ _ | beatStopped _ _ _ => exact hc
  | crashed h =>
      cases hphase : h.phase <;> simp_all [Carries, Phase.jobId]

/-- Whatever happens in between, what a call finally stores is the response of
its `run_rust`. -/
theorem finishing_of_ran {calls : RunCalls} {steps : List (Db × HandlerInput)} {job' : Job}
    {args : FinishArgs} {answer : Except ProcessError Unit}
    (hrunning : h.phase = .running job) (hrun : EditorBack.runRust job.id calls = some (.ok res))
    (hexec : Runs.exec advance h ((db, .runRust calls) :: steps) = some h')
    (hfinishing : h'.phase = .finishing job' args answer) :
    job' = job ∧ args = res.args ∧ answer = .ok () := by
  have hadvance : ∀ (h₁ : Handler) (x : Db × HandlerInput) (h₂ : Handler),
      h₁.Carries job res → advance h₁ x = some h₂ → h₂.Carries job res := by
    intro h₁ x h₂ hc hx
    obtain ⟨eff, heff, rfl⟩ := Option.map_eq_some_iff.mp hx
    exact (step_move heff).carries hc
  -- the first step puts the response into the call, the others keep it there
  obtain ⟨h₁, hfirst, hrest⟩ := Option.bind_eq_some_iff.mp hexec
  have hcollecting : h₁.Carries job res := by
    obtain ⟨eff, heff, rfl⟩ := Option.map_eq_some_iff.mp hfirst
    have hm := step_move heff
    generalize eff.handler = h₁ at hm
    cases hm with
    | ran hp _ hran =>
        rw [hrunning] at hp
        cases hp
        rw [hrun] at hran
        cases hran
        exact ⟨rfl, rfl⟩
  have hend := (Runs.holdsAlong_of_invariant hadvance hcollecting steps).final hrest
  rw [Carries, hfinishing] at hend
  exact hend

/-- The `finish` of a call whose row is still its own: an available database
stores what fits and refuses the rest. -/
private theorem finish_of_held {job : Job} {args : FinishArgs}
    {answer : Except ProcessError Unit} {lease : Lease} {r : JobRow}
    (hphase : h.phase = .finishing job args answer) (hlease : h.lease = some lease)
    (hr : db.row job.id = some r) (hheld : r.heldBy lease.lockToken = true) :
    ∃ eff, h.step (.finish h.storeReply) db = some eff ∧
      if args.storable then eff.handler.phase = .returned answer ∧
        eff.db.row job.id = some (r.store db.now args)
      else eff.db = db ∧ eff.handler.owesRedelivery = true := by
  have hreply : h.storeReply = args.reply := by simp only [storeReply, hphase]
  simp only [step, finish, hphase, hlease, hreply]
  refine ⟨_, rfl, ?_⟩
  cases hfits : args.storable with
  | true =>
      have hanswer : (JobStore.finish job.id args lease.lockToken db).2 = .ok true := by
        rw [JobStore.answer_finish, hr]
        simp [hheld]
      have hrow := JobStore.row_finish job.id db job.id args lease.lockToken
      simp only [FinishArgs.reply, hfits, if_true, Reply.call, hanswer]
      refine ⟨rfl, ?_⟩
      rw [hrow, if_pos rfl, hr, Option.map_some, if_pos hheld]
  | false =>
      simp only [FinishArgs.reply, hfits, Bool.false_eq_true, if_false, Reply.call]
      exact ⟨trivial, rfl⟩

/-- A result that carries a zero byte is not stored, and the job comes again. -/
theorem refused_output_requeued {raw : RawCalls} {steps : List (Db × HandlerInput)} {db₀ : Db}
    {job' : Job} {args : FinishArgs} {answer : Except ProcessError Unit} {lease : Lease}
    {r : JobRow} (hrunning : h.phase = .running job)
    (hrun : EditorBack.runRust job.id raw.calls = some (.ok res))
    (hexec : Runs.exec advance h ((db₀, .runRust raw.calls) :: steps) = some h')
    (hfinishing : h'.phase = .finishing job' args answer) (hlease : h'.lease = some lease)
    (hr : db.row job.id = some r) (hheld : r.heldBy lease.lockToken = true)
    (hzero : 0 ∈ raw.carried) : h'.Requeues db := by
  obtain ⟨rfl, rfl, rfl⟩ := finishing_of_ran hrunning hrun hexec hfinishing
  obtain ⟨eff, heff, hdone⟩ := finish_of_held hfinishing hlease hr hheld
  have hfits : ¬ res.args.storable = true := by
    rw [storable_iff hrun]
    exact fun hnot => hnot hzero
  rw [if_neg hfits] at hdone
  exact ⟨eff, heff, hdone⟩

/-- **A result is stored exactly if the output it carries has no zero byte.**
For a call that has run its job with the answers `raw`, and whose row is still
its own when it comes to its `finish`: on an available database the `finish`
succeeds and the row becomes terminal with the status of the response, if and
only if no zero byte is in the output that goes into the response. -/
theorem output_stored_iff {raw : RawCalls} {steps : List (Db × HandlerInput)} {db₀ : Db}
    {job' : Job} {args : FinishArgs} {answer : Except ProcessError Unit} {lease : Lease}
    {r : JobRow} (hrunning : h.phase = .running job)
    (hrun : EditorBack.runRust job.id raw.calls = some (.ok res))
    (hexec : Runs.exec advance h ((db₀, .runRust raw.calls) :: steps) = some h')
    (hfinishing : h'.phase = .finishing job' args answer) (hlease : h'.lease = some lease)
    (hr : db.row job.id = some r) (hheld : r.heldBy lease.lockToken = true) :
    h'.Stores db job.id res.status ↔ 0 ∉ raw.carried := by
  obtain ⟨rfl, rfl, rfl⟩ := finishing_of_ran hrunning hrun hexec hfinishing
  obtain ⟨eff, heff, hdone⟩ := finish_of_held hfinishing hlease hr hheld
  rw [← storable_iff hrun]
  constructor
  · intro hstores
    obtain ⟨eff', heff', hreturned, _⟩ := hstores
    rw [heff] at heff'
    cases heff'
    by_contra hfits
    rw [if_neg hfits] at hdone
    simp [owesRedelivery, hreturned] at hdone
  · intro hfits
    rw [if_pos hfits] at hdone
    obtain ⟨hreturned, hrow⟩ := hdone
    obtain ⟨result, hresult, hverdict⟩ := runRust_verdict job'.id raw.calls
    rw [hrun] at hresult
    cases hresult
    exact ⟨eff, heff, hreturned, _, hrow, rfl, hverdict⟩

end Steps

/-! ## A program that prints -/

/-- Job `7` while worker-1 is running it under token `100`. -/
def printingJob : Job where
  id := 7
  language := "rust"
  code := "fn main() {}"
  status := .running
  stdout := none
  stderr := none
  exitCode := none
  createdAt := some 0
  heartbeatAt := some 0
  workerId := some "worker-1"

def printingRow : JobRow :=
  (JobRow.new 0 printingJob).start 0 100 "worker-1"

def printingDb : Db :=
  ⟨0, ⟨[printingRow], List.nodup_singleton _⟩, .empty⟩

theorem row_printing : printingDb.row printingJob.id = some printingRow := rfl

def printingCall : Handler :=
  ⟨"worker-1", .message ⟨7⟩, .running printingJob, some (.spawn 7 100)⟩

/-- The program prints some bytes and exits with `0`. -/
def printing (bytes : List UInt8) : RawCalls where
  workspace := .ok ()
  writeMain := .ok ()
  create := .ok ()
  start := .ok ()
  cancelled := false
  compile := some ⟨.ok (), .ok (some []), .ok (some 0)⟩
  stopCompile := .ok ()
  inspectCompile := .ok (some (some false))
  run := some ⟨.ok (), .ok (some [.ok (.stdOut bytes)]), .ok (some 0)⟩
  inspectRun := .ok (some (some false))

/-- The response to what it prints. -/
def printed (bytes : List UInt8) : RunResponse where
  stdout := Utf8Lossy.fromUtf8Lossy bytes
  status := .success
  stderr := Utf8Lossy.fromUtf8Lossy []
  exitCode := 0
  jobId := 7

/-- The steps of the call up to its `finish`. -/
def printingSteps (bytes : List UInt8) : List (Db × HandlerInput) :=
  [(printingDb, .runRust (printing bytes).calls), (printingDb, .collect),
    (printingDb, .beatCancelled), (printingDb, .join)]

/-- The call before its `finish`. -/
def printedCall (bytes : List UInt8) : Handler :=
  ⟨"worker-1", .message ⟨7⟩, .finishing printingJob (printed bytes).args (.ok ()),
    some ⟨7, 100, .ended, false, true, none⟩⟩

theorem runRust_printing (bytes : List UInt8) :
    EditorBack.runRust printingJob.id (printing bytes).calls = some (.ok (printed bytes)) := rfl

theorem exec_printing (bytes : List UInt8) :
    Runs.exec advance printingCall (printingSteps bytes) = some (printedCall bytes) := rfl

/-- A greeting is stored. -/
theorem greeting_stored : (printedCall [104, 105]).Stores printingDb 7 .success :=
  (output_stored_iff rfl (runRust_printing [104, 105]) (exec_printing [104, 105]) rfl rfl
    row_printing (by decide)).mpr (by decide)

/-- A zero byte is not: the call ends `Retryable`. -/
theorem zero_byte_not_stored :
    ¬ ∀ h', Runs.exec advance printingCall (printingSteps [0]) = some h' →
      h'.Stores printingDb 7 .success := by
  intro h
  obtain ⟨eff, heff, hreturned, _⟩ := h _ (exec_printing [0])
  obtain ⟨eff', heff', _, howes⟩ := refused_output_requeued rfl (runRust_printing [0])
    (exec_printing [0]) rfl rfl row_printing (by decide) (by decide)
  rw [heff] at heff'
  cases heff'
  simp [owesRedelivery, hreturned] at howes

end Handler

end EditorBack
