import EditorBack.Fidelity

/-!
# What a client sees

`GET /run/{job_id}` reads one row, at any moment between the statements of the
workers, reapers and publishers.  A client that polls sees the row as it comes and
goes: `Queued` again behind a verdict, outputs of one execution under the status of
the next.

`polls_consistent` says what a sequence of polls can rely on.  An acknowledged job
is never answered with 404.  What is shown is about the job asked for, its outputs
are none or those of one earlier execution of the job, and a verdict is shown together
with its own outputs.  A job that has left `Accepted` is not shown as `Accepted` again,
and a result is replaced by a later one but never withdrawn.

Outputs are followed through `replay`, which rebuilds a row from its history.
-/

namespace EditorBack

/-! ## `get_job` -/

/-- `JobResponse` -/
structure JobResponse where
  id : Uuid
  language : String
  status : RunStatus
  stdout : Option String
  stderr : Option String
  exitCode : Option Int32

/-- `From<Job> for JobResponse` -/
def Job.toResponse (job : Job) : JobResponse where
  id := job.id
  language := job.language
  status := job.status
  stdout := job.stdout
  stderr := job.stderr
  exitCode := job.exitCode

/-- The `ApiError`s `get_job` answers with. -/
inductive PollError
  | internal (err : String)
  | jobNotFound

/-- `ApiError::into_response`: the status and the `error` of the body. -/
def PollError.intoResponse : PollError → Nat × String
  | .internal _ => (500, "internal server error")
  | .jobNotFound => (404, "JobNotFound")

/-- `get_job`, behind its extractor. -/
def getJob (reply : Reply) (jobId : Uuid) (db : Db) : Except PollError JobResponse :=
  match (reply.call db (db, .ok (JobStore.get jobId db))).2 with
  | .ok (some job) => .ok job.toResponse
  | .ok none => .error .jobNotFound
  | .error err => .error (.internal err)

/-- What a poll shows of a row. -/
def JobRow.response (r : JobRow) : JobResponse :=
  r.toJob.toResponse

/-- A poll shows the row, if the database answers. -/
theorem getJob_of_ok {reply : Reply} {jobId : Uuid} {db : Db} {v : JobResponse}
    (h : getJob reply jobId db = .ok v) : ∃ r, db.row jobId = some r ∧ v = r.response := by
  cases reply with
  | ok =>
      simp only [getJob, Reply.call, JobStore.get] at h
      cases hr : db.row jobId with
      | none =>
          rw [hr] at h
          cases h
      | some r =>
          rw [hr] at h
          cases h
          exact ⟨r, rfl, rfl⟩
  | failed err => cases h
  | lost err => cases h

/-- 404 says that there is no row. -/
theorem row_none_of_getJob {reply : Reply} {jobId : Uuid} {db : Db}
    (h : getJob reply jobId db = .error .jobNotFound) : db.row jobId = none := by
  cases reply with
  | ok =>
      simp only [getJob, Reply.call, JobStore.get] at h
      cases hr : db.row jobId with
      | none => rfl
      | some r =>
          rw [hr] at h
          cases h
  | failed err => cases h
  | lost err => cases h

/-! ## Rows from their histories -/

/-- A row without its `updated_at`, which the event of a `finish` does not tell. -/
def JobRow.undated (r : JobRow) : JobRow :=
  { r with updatedAt := none }

/-- What an event has done to a row. -/
def JobEvent.apply : JobEvent → Option JobRow → Option JobRow
  | .inserted r, _ => some r
  | .queued, r? => r?.map (·.withStatus .queued)
  | .started token workerId time, r? => r?.map (·.start time token workerId)
  | .marked, r? => r?.map (·.withStatus .running)
  | .renewed _ time, r? => r?.map (·.renew time)
  | .finished _ args, r? => r?.map (·.store 0 args)
  | .reset, r? => r?.map (·.reset)
  | .refused _, r? => r?

/-- The row a history tells of. -/
def replay : List JobEvent → Option JobRow
  | [] => none
  | e :: es => e.apply (replay es)

/-- The row is the one its history tells of. -/
def Replays (r? : Option JobRow) (es : List JobEvent) : Prop :=
  r?.map JobRow.undated = (replay es).map JobRow.undated

private theorem replays_map {r : JobRow} {f : JobRow → JobRow} {g : JobRow → JobRow}
    {es : List JobEvent} {e : JobEvent} (h : Replays (some r) es)
    (hfg : ∀ r r', r.undated = r'.undated → (f r).undated = (g r').undated)
    (he : e.apply (replay es) = (replay es).map g) : Replays (some (f r)) (e :: es) := by
  unfold Replays at h ⊢
  rw [replay, he]
  cases hes : replay es with
  | none =>
      rw [hes] at h
      cases h
  | some r' =>
      rw [hes] at h
      exact congrArg some (hfg r r' (Option.some_inj.mp h))

/-- **A history tells its row.**  No statement changes a row in any way its event does
not tell, up to the time stamp. -/
theorem RowStep.replays {now : Time} {before after : List Uuid} {r? r?' : Option JobRow}
    {events es : List JobEvent} (h : RowStep now before after r? r?' events)
    (hr : Replays r? es) : Replays r?' (events ++ es) := by
  have hundated : ∀ r r' : JobRow, r.undated = r'.undated →
      ∃ time, r = { r' with updatedAt := time } := by
    intro r r' heq
    refine ⟨r.updatedAt, ?_⟩
    cases r
    cases r'
    simp only [JobRow.undated, JobRow.mk.injEq] at heq ⊢
    simpa using heq
  cases h with
  | idle | refuse => exact hr
  | insert job _ => rfl
  | queue r | start r token workerId _ _ _ | mark r | renew r token _ | finish r token args _ _
  | reset r _ =>
      refine replays_map hr ?_ rfl
      intro r r' heq
      obtain ⟨time, rfl⟩ := hundated r r' heq
      rfl

/-! ## Outputs -/

/-- The output columns. -/
abbrev Outputs := Option String × Option String × Option Int32

def JobRow.outputs (r : JobRow) : Outputs :=
  (r.stdout, r.stderr, r.exitCode)

def FinishArgs.outputs (args : FinishArgs) : Outputs :=
  (args.stdout, args.stderr, args.exitCode)

def JobResponse.outputs (v : JobResponse) : Outputs :=
  (v.stdout, v.stderr, v.exitCode)

/-- A row that came without outputs has none, or those of a stored result. -/
theorem outputs_of_replay {es : List JobEvent} {r : JobRow}
    (hinserted : ∀ r₀, .inserted r₀ ∈ es → r₀.outputs = (none, none, none))
    (h : replay es = some r) :
    r.outputs = (none, none, none) ∨ ∃ args ∈ storedResults es, r.outputs = args.outputs := by
  induction es generalizing r with
  | nil => cases h
  | cons e es ih =>
      have hrest : ∀ r₀, .inserted r₀ ∈ es → r₀.outputs = (none, none, none) :=
        fun r₀ hmem => hinserted r₀ (List.mem_cons_of_mem _ hmem)
      have hkept : ∀ f : JobRow → JobRow, (∀ r, (f r).outputs = r.outputs) →
          (replay es).map f = some r → storedResults (e :: es) = storedResults es →
          r.outputs = (none, none, none) ∨
            ∃ args ∈ storedResults (e :: es), r.outputs = args.outputs := by
        intro f hf hmap hstored
        obtain ⟨r₀, hr₀, rfl⟩ := Option.map_eq_some_iff.mp hmap
        rw [hstored, hf]
        exact ih hrest hr₀
      cases e with
      | inserted r₀ =>
          cases h
          exact Or.inl (hinserted r (List.mem_cons_self))
      | finished token args =>
          obtain ⟨r₀, _, rfl⟩ := Option.map_eq_some_iff.mp h
          exact Or.inr ⟨args, List.mem_cons_self, rfl⟩
      | refused token => exact ih hrest h
      | queued => exact hkept (·.withStatus .queued) (fun _ => rfl) h rfl
      | marked => exact hkept (·.withStatus .running) (fun _ => rfl) h rfl
      | reset => exact hkept (·.reset) (fun _ => rfl) h rfl
      | renewed token time => exact hkept (·.renew time) (fun _ => rfl) h rfl
      | started token workerId time =>
          exact hkept (·.start time token workerId) (fun _ => rfl) h rfl

namespace World

/-- Every row is the one its history tells of. -/
def Replayed (s : World) : Prop :=
  s.RowsSatisfy fun _ => Replays

theorem replayed_empty (now : Time) : (empty now).Replayed :=
  RowsSatisfy.empty rfl now

theorem replayed_step (s : World) (a : Action) (s' : World) (hs : s.Replayed)
    (h : s.step a = some s') : s'.Replayed :=
  RowsSatisfy.step (fun _ _ _ _ _ _ _ _ hr hrow => hrow.replays hr) s a s' hs h

end World

/-! ## What a poll can rely on -/

/-- What is shown is about the job asked for and comes from one of the executions. -/
structure JobResponse.Truthful (executions : List Executed) (jobId : Uuid) (v : JobResponse) :
    Prop where
  id : v.id = jobId
  language : v.language = "rust"
  outputs : v.outputs = (none, none, none) ∨
    ∃ args, AnsweredBy executions jobId args ∧ v.outputs = args.outputs
  verdict : v.status.isTerminal = true →
    AnsweredBy executions jobId ⟨v.status, v.stdout, v.stderr, v.exitCode⟩

/-- What an earlier poll leaves to a later one. -/
structure JobResponse.Precedes (v v' : JobResponse) : Prop where
  accepted : v'.status = .accepted → v.status = .accepted
  result : v.outputs ≠ (none, none, none) → v'.outputs ≠ (none, none, none)

theorem JobResponse.Precedes.refl (v : JobResponse) : v.Precedes v :=
  ⟨fun haccepted => haccepted, fun hresult => hresult⟩

theorem JobResponse.Precedes.trans {v v' v'' : JobResponse} (h : v.Precedes v')
    (h' : v'.Precedes v'') : v.Precedes v'' :=
  ⟨fun haccepted => h.accepted (h'.accepted haccepted),
    fun hresult => h'.result (h.result hresult)⟩

/-- A stored result has outputs. -/
theorem AnsweredBy.outputs_ne {executions : List Executed} {j : Uuid} {args : FinishArgs}
    (h : AnsweredBy executions j args) : args.outputs ≠ (none, none, none) := by
  cases h.fits <;> simp [FinishArgs.outputs]

namespace World

/-- What polls rest on. -/
structure Shows (s : World) (log : List Executed) : Prop where
  faithful : s.Faithful log
  replayed : s.Replayed
  code : ∃ posts, s.CodeKept posts

theorem shows_empty (now : Time) : (empty now).Shows [] :=
  ⟨faithful_empty now, replayed_empty now, [], codeKept_empty now⟩

theorem shows_step (s : World) (log : List Executed) (a : Action) (s' : World)
    (hs : s.Shows log) (h : s.step a = some s') : s'.Shows (s.executions a ++ log) := by
  obtain ⟨posts, hcode⟩ := hs.code
  exact ⟨faithful_step s log a s' hs.faithful h, replayed_step s a s' hs.replayed h,
    _, codeKept_step s posts a s' hcode h⟩

theorem Shows.mono {s : World} {log log' : List Executed} (hs : s.Shows log)
    (hsub : ∀ e ∈ log, e ∈ log') : s.Shows log' :=
  ⟨hs.faithful.mono hsub, hs.replayed, hs.code⟩

section Polls

variable {s s' : World} {log : List Executed} {j : Uuid} {r : JobRow}

/-- **A poll is truthful.** -/
theorem Shows.truthful (hs : s.Shows log) (hr : s.row j = some r) :
    r.response.Truthful log j := by
  obtain ⟨posts, hcode⟩ := hs.code
  have hid : r.id = j := KeyedTable.key_of_lookup hr
  refine ⟨hid, hs.faithful.ordinary.rust j r hr, ?_, ?_⟩
  · have hreplays : Replays (s.row j) (s.history j) := hs.replayed.rows j
    rw [hr] at hreplays
    obtain ⟨r', hr', hsame⟩ := Option.map_eq_some_iff.mp hreplays.symm
    have hinserted : ∀ r₀, .inserted r₀ ∈ s.history j → r₀.outputs = (none, none, none) := by
      intro r₀ hmem
      obtain ⟨_, time, hnew⟩ := hcode.inserted j r₀ hmem
      rw [hnew]
      rfl
    have hout : r.outputs = r'.outputs := by
      change r.undated.outputs = r'.undated.outputs
      rw [hsame]
    change r.outputs = _ ∨ ∃ args, _ ∧ r.outputs = _
    rw [hout]
    rcases outputs_of_replay hinserted hr' with hnone | ⟨args, hargs, hstored⟩
    · exact Or.inl hnone
    · exact Or.inr ⟨args, hs.faithful.answered hargs, hstored⟩
  · intro hterm
    exact hs.faithful.verdict hcode.coherent hr hterm

/-- **A step takes nothing back that a poll has shown.** -/
theorem Shows.precedes_step (hs : s.Shows log) {a : Action} (h : s.step a = some s')
    (hr : s.row j = some r) : ∃ r', s'.row j = some r' ∧ r.response.Precedes r'.response := by
  have hs' := shows_step s log a s' hs h
  obtain ⟨events, hhist, hrow⟩ := step_row h hs.faithful.ordinary.provenance.sound j
  obtain ⟨r', hr'⟩ := Option.isSome_iff_exists.mp (hrow.isSome (by rw [hr]; rfl))
  refine ⟨r', hr', ?_, ?_⟩
  · intro haccepted
    by_contra hleft
    obtain ⟨r'', hr'', hstatus⟩ := hrow.not_accepted hr hleft
    rw [hr'] at hr''
    cases hr''
    exact hstatus haccepted
  · intro hresult
    rw [hr, hr'] at hrow
    cases hrow with
    | finish _ token args _ _ =>
        have hmem : .finished token args ∈ s'.history j := by
          rw [hhist]
          exact List.mem_cons_self
        exact (hs'.faithful.stored j token args hmem).outputs_ne
    | idle | queue _ | start _ _ _ _ _ _ | mark _ | renew _ _ _ | reset _ _ | refuse =>
        exact hresult

end Polls

end World

/-! ## Sessions -/

/-- A step of the system, or a poll. -/
inductive ClientAction
  | system (a : Action)
  | poll (jobId : Uuid) (reply : Reply)

/-- What the API tells its clients, and the executions that go on behind it. -/
inductive SessionEvent
  /-- a `POST /run` is answered with the id -/
  | acknowledged (jobId : Uuid)
  | polled (jobId : Uuid) (answer : Except PollError JobResponse)
  | executed (e : Executed)

def SessionEvent.execution : SessionEvent → Option Executed
  | .executed e => some e
  | .acknowledged _ | .polled _ _ => none

/-- The executions of a session. -/
def executionsIn (log : List SessionEvent) : List Executed :=
  log.filterMap SessionEvent.execution

namespace World

def stepClient (s : World) : ClientAction → Option World
  | .system a => s.step a
  | .poll _ _ => some s

/-- What a step tells a client, or executes. -/
def told (s : World) : ClientAction → List SessionEvent
  | .system (.submission i (.send .acked)) =>
      match (s.submissions[i]?).map Submission.phase with
      | some (.sending msg) => [.acknowledged msg.jobId]
      | _ => []
  | .system a => (s.executions a).map .executed
  | .poll jobId reply => [.polled jobId (getJob reply jobId s.db)]

end World

/-- The poll shows what is true of its job after the `older` events. -/
def SessionEvent.Truthful (older : List SessionEvent) : SessionEvent → Prop
  | .polled jobId (.ok v) => v.Truthful (executionsIn older) jobId
  | .polled _ (.error _) | .acknowledged _ | .executed _ => True

/-- What an earlier event lets a later one be: the job that was acknowledged or
shown is still there, and what was shown is not taken back. -/
def SessionEvent.Before : SessionEvent → SessionEvent → Prop
  | .acknowledged jobId, .polled jobId' answer => jobId' = jobId → answer ≠ .error .jobNotFound
  | .polled jobId (.ok v), .polled jobId' answer => jobId' = jobId →
      answer ≠ .error .jobNotFound ∧ ∀ v', answer = .ok v' → v.Precedes v'
  | _, _ => True

namespace World

/-- What an event goes on to say about the system. -/
def StillShows (s : World) : SessionEvent → Prop
  | .acknowledged jobId => ∃ r, s.row jobId = some r
  | .polled jobId (.ok v) => ∃ r, s.row jobId = some r ∧ v.Precedes r.response
  | .polled _ (.error _) | .executed _ => True

/-- The events told so far are truthful, each after those before it, in order, and still
stand. -/
structure Session (s : World) (log : List SessionEvent) : Prop where
  shows : s.Shows (executionsIn log)
  stands : ∀ e ∈ log, s.StillShows e
  truthful : ∀ e older, e :: older <:+ log → e.Truthful older
  ordered : log.Pairwise fun later earlier => earlier.Before later

section Steps

variable {s s' : World}

/-- What an event says stands as long as the system steps. -/
theorem StillShows.step {e : SessionEvent} (he : s.StillShows e) {log : List Executed}
    (hs : s.Shows log) {a : Action} (h : s.step a = some s') : s'.StillShows e := by
  cases e with
  | executed e => trivial
  | acknowledged jobId =>
      obtain ⟨r, hr⟩ := he
      obtain ⟨r', hr', _⟩ := hs.precedes_step h hr
      exact ⟨r', hr'⟩
  | polled jobId answer =>
      cases answer with
      | error err => trivial
      | ok v =>
          obtain ⟨r, hr, hbefore⟩ := he
          obtain ⟨r', hr', hstep⟩ := hs.precedes_step h hr
          exact ⟨r', hr', hbefore.trans hstep⟩

/-- A poll fits to every event that still stands. -/
theorem StillShows.before {e : SessionEvent} (he : s.StillShows e) (jobId : Uuid) (reply : Reply) :
    e.Before (.polled jobId (getJob reply jobId s.db)) := by
  have hfound : ∀ r, s.row jobId = some r → getJob reply jobId s.db ≠ .error .jobNotFound := by
    intro r hr heq
    have hnone := row_none_of_getJob heq
    rw [row, hnone] at hr
    cases hr
  cases e with
  | executed e => trivial
  | acknowledged id =>
      rintro rfl
      obtain ⟨r, hr⟩ := he
      exact hfound r hr
  | polled id answer =>
      cases answer with
      | error err => trivial
      | ok v =>
          rintro rfl
          obtain ⟨r, hr, hbefore⟩ := he
          refine ⟨hfound r hr, ?_⟩
          intro v' heq
          obtain ⟨r', hr', rfl⟩ := getJob_of_ok heq
          have hsame : s.row jobId = some r' := hr'
          rw [hr] at hsame
          cases hsame
          exact hbefore

/-- A call that is acknowledged has inserted its row. -/
theorem acknowledged_row (hs : s.Provenance) {a : Action} {j : Uuid}
    (hmem : .acknowledged j ∈ s.told (.system a)) : ∃ r, s.row j = some r := by
  cases a with
  | submission i input =>
      cases input with
      | send reply =>
          cases reply with
          | acked =>
              cases hsub : s.submissions[i]? with
              | none => simp [told, hsub] at hmem
              | some sub =>
                  cases hphase : sub.phase with
                  | sending msg =>
                      have hj : j = msg.jobId := by simpa [told, hsub, hphase] using hmem
                      have hsub' := List.mem_of_getElem? hsub
                      rw [hj]
                      exact Option.isSome_iff_exists.mp
                        (hs.inserted sub hsub' _ (hs.sending sub hsub' msg hphase))
                  | inserting _ | returned _ | crashed => simp [told, hsub, hphase] at hmem
          | _ => simp [told] at hmem
      | _ => simp [told] at hmem
  | _ => simp [told] at hmem

/-- A step of the system acknowledges a job, or tells its executions. -/
theorem told_system (s : World) (a : Action) :
    (s.executions a = [] ∧ ∃ j, s.told (.system a) = [.acknowledged j]) ∨
      s.told (.system a) = (s.executions a).map .executed := by
  unfold told
  split
  · next heq =>
      cases heq
      split
      · exact Or.inl ⟨rfl, _, rfl⟩
      · exact Or.inr rfl
  · next heq =>
      cases heq
      exact Or.inr rfl
  · next heq => cases heq

end Steps

theorem session_empty (now : Time) : (empty now).Session [] :=
  ⟨shows_empty now, by simp, by simp, .nil⟩

section Sessions

variable {s s' : World} {log : List SessionEvent}

/-- A session to which one event is added. -/
theorem Session.cons (hs : s.Session log) {e : SessionEvent} (hstands : s.StillShows e)
    (htruthful : e.Truthful log) (hbefore : ∀ earlier ∈ log, earlier.Before e) :
    s.Session (e :: log) where
  shows := by
    refine hs.shows.mono ?_
    intro x hx
    obtain ⟨e', he', hexecution⟩ := List.mem_filterMap.mp hx
    exact List.mem_filterMap.mpr ⟨e', List.mem_cons_of_mem _ he', hexecution⟩
  stands := List.forall_mem_cons.mpr ⟨hstands, hs.stands⟩
  truthful := by
    intro e' older hsuffix
    rcases List.suffix_cons_iff.mp hsuffix with heq | hold
    · obtain ⟨rfl, rfl⟩ := List.cons.inj heq
      exact htruthful
    · exact hs.truthful e' older hold
  ordered := List.pairwise_cons.mpr ⟨hbefore, hs.ordered⟩

/-- A session goes on with a step whose executions it has. -/
theorem Session.step (hs : s.Session log) {a : Action} (h : s.step a = some s')
    (hexecutions : ∀ e ∈ s.executions a, e ∈ executionsIn log) : s'.Session log where
  shows := by
    refine (shows_step s _ a s' hs.shows h).mono ?_
    intro e he
    rcases List.mem_append.mp he with hnew | hold
    · exact hexecutions e hnew
    · exact hold
  stands := fun e he => (hs.stands e he).step hs.shows h
  truthful := hs.truthful
  ordered := hs.ordered

/-- Executions are added to a session as they are. -/
theorem Session.executed (hs : s.Session log) (executions : List Executed) :
    s.Session (executions.map .executed ++ log) := by
  induction executions with
  | nil => exact hs
  | cons e executions ih =>
      refine ih.cons (e := .executed e) trivial trivial ?_
      rintro (_ | ⟨_, _ | _⟩ | _) _ <;> trivial

end Sessions

/-- **A session goes on.** -/
theorem session_step (s : World) (log : List SessionEvent) (a : ClientAction) (s' : World)
    (hs : s.Session log) (h : s.stepClient a = some s') : s'.Session (s.told a ++ log) := by
  cases a with
  | system a =>
      rcases told_system s a with ⟨hnone, j, htold⟩ | htold
      · have hmem : .acknowledged j ∈ s.told (.system a) := by
          rw [htold]
          exact List.mem_singleton_self _
        have hrow := acknowledged_row hs.shows.faithful.ordinary.provenance hmem
        rw [htold]
        refine (hs.cons (e := .acknowledged j) hrow trivial ?_).step h (by simp [hnone])
        rintro (_ | ⟨_, _ | _⟩ | _) _ <;> trivial
      · rw [htold]
        refine (hs.executed (s.executions a)).step h ?_
        intro e he
        refine List.mem_filterMap.mpr ⟨.executed e, ?_, rfl⟩
        exact List.mem_append_left _ (List.mem_map_of_mem he)
  | poll jobId reply =>
      cases h
      refine hs.cons ?_ ?_ (fun e he => (hs.stands e he).before jobId reply)
      · cases hv : getJob reply jobId s.db with
        | error err => trivial
        | ok v =>
            obtain ⟨r, hr, rfl⟩ := getJob_of_ok hv
            exact ⟨r, hr, .refl _⟩
      · cases hv : getJob reply jobId s.db with
        | error err => trivial
        | ok v =>
            obtain ⟨r, hr, rfl⟩ := getJob_of_ok hv
            exact hs.shows.truthful hr

/-- **What a client can rely on.**  In every run with any number of clients that poll
at any moment, every poll that is answered shows its own job, with outputs that are
none or those of one execution of it before the poll, and with a verdict only beside its
own outputs.  A job that was acknowledged or shown before is never answered with 404, is
not shown as `Accepted` again once it was shown past it, and keeps a result once it has
one. -/
theorem polls_consistent (now : Time) (as : List ClientAction) :
    Runs.HoldsAlong (Runs.logged stepClient told)
      (fun p => (∀ e older, e :: older <:+ p.2 → e.Truthful older) ∧
        p.2.Pairwise fun later earlier => earlier.Before later) (empty now, []) as := by
  have hsession : Runs.HoldsAlong (Runs.logged stepClient told)
      (fun p => p.1.Session p.2) (empty now, []) as :=
    Runs.logged_holdsAlong session_step (session_empty now) as
  exact hsession.mono fun _ hs => ⟨hs.truthful, hs.ordered⟩

end World

end EditorBack
