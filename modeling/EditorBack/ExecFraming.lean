import EditorBack.StoredOutputs

/-!
# The frames of an attached exec

Docker cuts the output of a command into frames, as it happens to read it, and
mixes the two streams.  `exec` appends each frame to the buffer of its stream and
decodes the buffers at the end, so only the bytes of each stream matter.

The loop is the two concatenations (`collect_frames`); from that, `exec` does not
depend on the framing (`exec_framing_independent`), and neither does `run_rust`
(`runRust_reframed`).
-/

namespace EditorBack

namespace LogOutput

/-- What a frame adds to stdout. -/
def outBytes : LogOutput → List UInt8
  | .stdOut message => message
  | .stdErr _ | .stdIn _ | .console _ => []

/-- What a frame adds to stderr. -/
def errBytes : LogOutput → List UInt8
  | .stdErr message => message
  | .stdOut _ | .stdIn _ | .console _ => []

end LogOutput

/-- Two framings of the same streams. -/
structure SameStreams (frames frames' : List LogOutput) : Prop where
  stdout : frames.flatMap LogOutput.outBytes = frames'.flatMap LogOutput.outBytes
  stderr : frames.flatMap LogOutput.errBytes = frames'.flatMap LogOutput.errBytes

namespace ExecCalls

/-- An attached exec whose frames can all be read. -/
def attached (frames : List LogOutput) (inspect : Except String (Option Int64)) : ExecCalls where
  createExec := .ok ()
  startExec := .ok (some (frames.map .ok))
  inspectExec := inspect

section Framing

variable {frames frames' : List LogOutput} {inspect : Except String (Option Int64)}

/-- The loop appends each stream's frames to its buffer, whatever is between them. -/
theorem collect_frames (frames : List LogOutput) (stdout stderr : List UInt8) :
    collect (frames.map .ok) (stdout, stderr) =
      .ok (stdout ++ frames.flatMap LogOutput.outBytes,
        stderr ++ frames.flatMap LogOutput.errBytes) := by
  induction frames generalizing stdout stderr with
  | nil => simp [collect]
  | cons frame frames ih =>
      rw [List.flatMap_cons, List.flatMap_cons, ← List.append_assoc, ← List.append_assoc]
      cases frame with
      | stdOut message =>
          rw [LogOutput.errBytes, List.append_nil]
          exact ih (stdout ++ message) stderr
      | stdErr message =>
          rw [LogOutput.outBytes, List.append_nil]
          exact ih stdout (stderr ++ message)
      | stdIn message | console message =>
          rw [LogOutput.outBytes, LogOutput.errBytes, List.append_nil, List.append_nil]
          exact ih stdout stderr

theorem collected_attached :
    (attached frames inspect).collected =
      .ok (frames.flatMap LogOutput.outBytes, frames.flatMap LogOutput.errBytes) :=
  collect_frames frames [] []

/-- `exec` decodes each stream as a whole. -/
theorem exec_attached :
    (attached frames inspect).exec = inspect.map fun exitCode =>
      ⟨Utf8Lossy.fromUtf8Lossy (frames.flatMap LogOutput.outBytes),
        Utf8Lossy.fromUtf8Lossy (frames.flatMap LogOutput.errBytes), exitCode⟩ := by
  rw [exec, collected_attached]
  cases inspect <;> rfl

/-- Reframing the streams changes nothing. -/
theorem exec_reframed (h : SameStreams frames frames') :
    (attached frames inspect).exec = (attached frames' inspect).exec := by
  rw [exec_attached, exec_attached, h.stdout, h.stderr]

/-- **Captured output does not depend on framing.**  Any two framings of the same
two streams give the same result under the same exit code, and a stream that is
valid UTF-8 is captured as its text, wherever the frames cut its characters. -/
theorem exec_framing_independent {exitCode : Option Int64} (h : SameStreams frames frames') :
    ∃ result : ExecResult,
      (attached frames (.ok exitCode)).exec.map ExecOutput.result = .ok result ∧
      (attached frames' (.ok exitCode)).exec.map ExecOutput.result = .ok result ∧
      result.exitCode = some (exitCode.getD (-1)).toInt32 ∧
      (∀ hvalid : (frames.flatMap LogOutput.outBytes).toByteArray.IsValidUTF8,
        result.stdout = String.fromUTF8 _ hvalid) ∧
      (∀ hvalid : (frames.flatMap LogOutput.errBytes).toByteArray.IsValidUTF8,
        result.stderr = String.fromUTF8 _ hvalid) := by
  have hexec : (attached frames (.ok exitCode)).exec.map ExecOutput.result =
      .ok (ExecOutput.result ⟨Utf8Lossy.fromUtf8Lossy (frames.flatMap LogOutput.outBytes),
        Utf8Lossy.fromUtf8Lossy (frames.flatMap LogOutput.errBytes), exitCode⟩) := by
    rw [exec_attached]
    rfl
  have hexec' := hexec
  rw [exec_reframed h] at hexec'
  exact ⟨_, hexec, hexec', rfl, Utf8Lossy.fromUtf8Lossy_eq_fromUTF8,
    Utf8Lossy.fromUtf8Lossy_eq_fromUTF8⟩

end Framing

/-! ## A character across two frames -/

/-- `é!` on stdout and `ok` on stderr, the `é` cut in two. -/
def splitFrames : List LogOutput :=
  [.stdOut [0xC3], .stdErr [0x6F, 0x6B], .stdOut [0xA9, 0x21]]

/-- The same output, each stream in one frame. -/
def wholeFrames : List LogOutput :=
  [.stdErr [0x6F, 0x6B], .console [0x0A], .stdOut [0xC3, 0xA9, 0x21]]

/-- The cut character is captured as it is. -/
theorem split_character_captured : ∃ result : ExecResult,
    (attached splitFrames (.ok (some 0))).exec.map ExecOutput.result = .ok result ∧
      (attached wholeFrames (.ok (some 0))).exec.map ExecOutput.result = .ok result ∧
      result.stdout = "é!" := by
  have hsame : SameStreams splitFrames wholeFrames := ⟨rfl, rfl⟩
  have hvalid : (splitFrames.flatMap LogOutput.outBytes).toByteArray.IsValidUTF8 :=
    ⟨['é', '!'], rfl⟩
  obtain ⟨result, hsplit, hwhole, _, htext, _⟩ := exec_framing_independent hsame
  exact ⟨result, hsplit, hwhole, htext hvalid⟩

end ExecCalls

/-- What `run_rust` returns does not depend on the framing of its two execs. -/
theorem runRust_reframed {jobId : Uuid} {raw : RawCalls}
    {compiled compiled' ran ran' : List LogOutput}
    {inspect inspect' : Except String (Option Int64)} (hcompile : SameStreams compiled compiled')
    (hrun : SameStreams ran ran') :
    runRust jobId { raw with
      compile := some (.attached compiled inspect), run := some (.attached ran inspect') }.calls =
    runRust jobId { raw with
      compile := some (.attached compiled' inspect),
      run := some (.attached ran' inspect') }.calls := by
  simp only [RawCalls.calls, timed, ExecCalls.exec_reframed hcompile, ExecCalls.exec_reframed hrun]

end EditorBack
