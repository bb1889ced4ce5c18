import EditorBack.SystemMoves

/-!
# What one step of the system does to one row

`RowStep` lists the eight things that can happen to a job's row in one step,
each with its guard and with the event it leaves in the job's history, next to
nothing happening at all.  `World.step_row` shows that every step of the whole
system is one of them on every row; the theorems about rows are proved by
cases on `RowStep` and do not look at the system again.
-/

namespace EditorBack

/-- One step on one row, at database time `now`, with the tokens issued before
and after the step: the row before, the row after, and the events this adds to
the job's history. -/
inductive RowStep (now : Time) (before after : List Uuid) :
    Option JobRow → Option JobRow → List JobEvent → Prop
  | idle (r? : Option JobRow) : RowStep now before after r? r? []
  | insert (job : Job) (haccepted : job.status = .accepted) :
      RowStep now before after none (some (.new now job)) [.inserted (.new now job)]
  | queue (r : JobRow) :
      RowStep now before after (some r) (some (r.withStatus .queued)) [.queued]
  | start (r : JobRow) (token : Uuid) (workerId : String)
      (hguard : r.startable now = true) (hfresh : token ∉ before) (hissued : token ∈ after) :
      RowStep now before after (some r) (some (r.start now token workerId))
        [.started token workerId now]
  | mark (r : JobRow) :
      RowStep now before after (some r) (some (r.withStatus .running)) [.marked]
  | renew (r : JobRow) (token : Uuid) (hheld : r.heldBy token = true) :
      RowStep now before after (some r) (some (r.renew now)) [.renewed token now]
  | finish (r : JobRow) (token : Uuid) (args : FinishArgs) (hheld : r.heldBy token = true)
      (hterminal : args.status.isTerminal = true) :
      RowStep now before after (some r) (some (r.store now args)) [.finished token args]
  | reset (r : JobRow) (hstale : r.stale (seconds 30) now = true) :
      RowStep now before after (some r) (some r.reset) [.reset]
  | refuse (r? : Option JobRow) (token : Uuid)
      (hlost : ∀ r, r? = some r → r.heldBy token = false) (hissued : token ∈ before) :
      RowStep now before after r? r? [.refused token]

section RowFacts

variable {now : Time} {before after : List Uuid} {r? r?' : Option JobRow}
  {events : List JobEvent}

/-- No statement deletes a row. -/
theorem RowStep.isSome (h : RowStep now before after r? r?' events)
    (hrow : r?.isSome = true) : r?'.isSome = true := by
  cases h with
  | idle => exact hrow
  | refuse => exact hrow
  | _ => rfl

/-- No statement makes a row `Accepted` again. -/
theorem RowStep.not_accepted (h : RowStep now before after r? r?' events) {r : JobRow}
    (hr : r? = some r) (hstatus : r.status ≠ .accepted) :
    ∃ r', r?' = some r' ∧ r'.status ≠ .accepted := by
  cases h with
  | idle => exact ⟨r, hr, hstatus⟩
  | insert job _ => cases hr
  | queue _ => exact ⟨_, rfl, by simp [JobRow.withStatus]⟩
  | start _ t w _ _ _ => exact ⟨_, rfl, by simp [JobRow.start]⟩
  | mark _ => exact ⟨_, rfl, by simp [JobRow.withStatus]⟩
  | renew r₀ t _ =>
      cases hr
      exact ⟨_, rfl, hstatus⟩
  | finish _ t args _ hterminal =>
      refine ⟨_, rfl, ?_⟩
      intro heq
      have hargs : args.status = .accepted := heq
      rw [hargs] at hterminal
      cases hterminal
  | reset _ _ => exact ⟨_, rfl, by simp [JobRow.reset]⟩
  | refuse => exact ⟨r, hr, hstatus⟩

/-- Only the unguarded status writes move a row out of `Accepted`. -/
theorem RowStep.leaves_accepted (h : RowStep now before after r? r?' events) {r' : JobRow}
    (hr' : r?' = some r') (hstatus : r'.status ≠ .accepted) :
    (∃ r, r? = some r ∧ r.status ≠ .accepted) ∨ events = [.queued] ∨ events = [.marked] := by
  have hbusy : ∀ {r : JobRow}, r.status = .running → r.status ≠ .accepted := by
    intro r hr heq
    rw [hr] at heq
    cases heq
  cases h with
  | idle => exact Or.inl ⟨r', hr', hstatus⟩
  | insert job haccepted =>
      cases hr'
      exact absurd haccepted hstatus
  | queue _ => exact Or.inr (Or.inl rfl)
  | start r t w hguard _ _ =>
      refine Or.inl ⟨r, rfl, ?_⟩
      rcases JobRow.startable_iff.mp hguard with hs | ⟨hs, _⟩
      · rw [hs]
        exact nofun
      · exact hbusy hs
  | mark _ => exact Or.inr (Or.inr rfl)
  | renew r t hheld => exact Or.inl ⟨r, rfl, hbusy (JobRow.heldBy_iff.mp hheld).1⟩
  | finish r t args hheld _ => exact Or.inl ⟨r, rfl, hbusy (JobRow.heldBy_iff.mp hheld).1⟩
  | reset r hstale => exact Or.inl ⟨r, rfl, hbusy (JobRow.stale_iff.mp hstale).1⟩
  | refuse => exact Or.inl ⟨r', hr', hstatus⟩

end RowFacts

/-! ## Statements of a call -/

section Statements

variable {now : Time} {before after : List Uuid} {db db' : Db} {id : Uuid}

/-- A keyed statement that rewrites the row behind `id` under a guard is one
row step on every row. -/
private theorem rowStep_keyed {p : JobRow → Bool} {f : JobRow → JobRow} {e : JobEvent}
    (hrow : ∀ j, db'.row j =
      if j = id then (db.row j).map (fun r => if p r then f r else r) else db.row j)
    (hstep : ∀ r, db.row id = some r → p r = true →
      RowStep now before after (some r) (some (f r)) [e]) (j : Uuid) :
    RowStep now before after (db.row j) (db'.row j)
      (eventsAt (if (db.row id).any p then some (id, e) else none) j) := by
  rw [hrow j]
  by_cases hj : j = id
  · subst hj
    cases hr : db.row j with
    | none => simpa [eventsAt] using RowStep.idle none
    | some r =>
        cases hp : p r with
        | true => simpa [eventsAt, hp] using hstep r hr hp
        | false => simpa [eventsAt, hp] using RowStep.idle (some r)
  · have hnone : eventsAt (if (db.row id).any p then some (id, e) else none) j = [] := by
      split <;> simp [eventsAt, hj]
    rw [if_neg hj, hnone]
    exact .idle _

/-- A keyed statement without a guard is one row step on every row. -/
private theorem rowStep_status {status : RunStatus} {e : JobEvent}
    (hstep : ∀ r, RowStep now before after (some r) (some (r.withStatus status)) [e]) (j : Uuid) :
    RowStep now before after (db.row j) ((JobStore.updateStatus id status db).1.row j)
      (eventsAt (if (db.row id).isSome then some (id, e) else none) j) := by
  have hany : (db.row id).isSome = (db.row id).any (fun _ => true) := by
    cases db.row id <;> rfl
  rw [hany]
  exact rowStep_keyed (by simpa using fun j => JobStore.row_updateStatus id db j status)
    (fun r _ _ => hstep r) j

/-- A statement that presents a lease is one row step on every row. -/
private theorem rowStep_lease {token : Uuid} {f : JobRow → JobRow} {e : JobEvent}
    {reply : Reply}
    (hrow : ∀ j, db'.row j =
      if j = id then (db.row j).map (fun r => if r.heldBy token then f r else r) else db.row j)
    (hstep : ∀ r, r.heldBy token = true → RowStep now before after (some r) (some (f r)) [e])
    (hissued : token ∈ before) (j : Uuid) :
    RowStep now before after (db.row j) (db'.row j)
      (eventsAt (if (db.row id).any (·.heldBy token) then some (id, e)
        else if reply = .ok then some (id, .refused token) else none) j) := by
  have hrewrite := rowStep_keyed hrow (fun r _ hp => hstep r hp) j
  cases hheld : (db.row id).any (·.heldBy token) with
  | true => simpa [hheld] using hrewrite
  | false =>
      -- the guard refuses the row, so the statement changes nothing
      have hlost : ∀ r, db.row id = some r → r.heldBy token = false := by
        intro r hr
        simpa [hr] using hheld
      have hsame : db'.row j = db.row j := by
        rw [hrow j]
        by_cases hj : j = id
        · subst hj
          cases hr : db.row j with
          | none => simp
          | some r => simp [hlost r hr]
        · simp [hj]
      rw [hsame]
      by_cases hok : reply = .ok
      · by_cases hj : j = id
        · subst hj
          simpa [hok, eventsAt] using RowStep.refuse (db.row j) token hlost hissued
        · simpa [hok, hj, eventsAt] using RowStep.idle (db.row j)
      · simpa [hok, eventsAt] using RowStep.idle (db.row j)

end Statements

/-- **A statement of a call is one row step on every row.** -/
theorem Handler.Write.row {input : HandlerInput} {db db' : Db} {h : Handler}
    {event : Option (Uuid × JobEvent)} {tokens : List Uuid} (hw : h.Write db input db' event)
    (hs : h.Sound tokens) (hfresh : ∀ t ∈ input.tokens, t ∉ tokens) (j : Uuid) :
    RowStep db.now tokens (input.tokens ++ tokens) (db.row j) (db'.row j) (eventsAt event j) := by
  cases hw with
  | none _ => exact .idle _
  | queue _ _ => exact rowStep_status (fun r => .queue r) j
  | @tryStart reply token job _ _ =>
      have hissued : token ∈ HandlerInput.tokens (.tryStart reply token) ++ tokens :=
        List.mem_append_left _ (List.mem_singleton_self _)
      exact rowStep_keyed (fun j => JobStore.row_tryStart job.id db j h.workerId token)
        (fun r _ hp => .start r token h.workerId hp
          (hfresh token (List.mem_singleton_self _)) hissued) j
  | mark _ _ _ => exact rowStep_status (fun r => .mark r) j
  | @finish reply job args answer lease hp hl _ =>
      have hterminal : args.status.isTerminal = true := by
        have hv := hs.verdict
        rwa [hp] at hv
      exact rowStep_lease (fun j => JobStore.row_finish job.id db j args lease.lockToken)
        (fun r hheld => .finish r lease.lockToken args hheld hterminal) (hs.issued lease hl) j
  | @beat reply lease hl _ =>
      exact rowStep_lease (fun j => JobStore.row_heartbeat lease.jobId db j lease.lockToken)
        (fun r hheld => .renew r lease.lockToken hheld) (hs.issued lease hl) j

/-! ## Steps of the system -/

/-- An API call inserts one accepted row or touches none. -/
theorem Submission.Move.row {input : SubmissionInput} {db : Db} {sub : Submission}
    {eff : SubmissionEffect} {tokens : List Uuid} (hm : sub.Move db input eff)
    (haccepted : ∀ job, sub.phase = .inserting job → job.status = .accepted) (j : Uuid) :
    RowStep db.now tokens tokens (db.row j) (eff.db.row j) (eventsAt eff.event j) := by
  have hinsert : ∀ {job : Job} {db' : Db}, sub.phase = .inserting job →
      JobStore.create job db = some db' →
      RowStep db.now tokens tokens (db.row j) (db'.row j)
        (eventsAt (some (job.id, .inserted (JobRow.new db.now job))) j) := by
    intro job db' hp hcreate
    rw [JobStore.row_create hcreate]
    by_cases hj : j = job.id
    · subst hj
      simpa [eventsAt, JobStore.row_none_of_create hcreate] using
        RowStep.insert job (haccepted job hp)
    · simpa [eventsAt, hj, Ne.symm hj] using RowStep.idle (db.row j)
  cases hm with
  | inserted hp hcreate => exact hinsert hp hcreate
  | insertLost hp hcreate => exact hinsert hp hcreate
  | _ => exact .idle _

namespace World

/-- **Every step of the system is one row step on every row.** -/
theorem step_row {s s' : World} {a : Action} (h : s.step a = some s') (hs : s.Sound) (j : Uuid) :
    ∃ events, s'.history j = events ++ s.history j ∧
      RowStep s.db.now s.tokens s'.tokens (s.row j) (s'.row j) events := by
  cases step_move h with
  | @submission _ _ sub _ hsub hm =>
      exact ⟨_, rfl, hm.row (hs.submissions sub (List.mem_of_getElem? hsub)) j⟩
  | @handler _ _ hd _ _ _ hhd _ hw hfresh =>
      exact ⟨_, rfl, hw.row (hs.handlers hd (List.mem_of_getElem? hhd)) hfresh j⟩
  | @reaped _ _ db _ hreap =>
      refine ⟨_, rfl, ?_⟩
      change RowStep _ _ _ (s.db.row j) (db.row j) _
      rw [JobStore.row_reapStaleJob hreap]
      change RowStep _ _ _ (s.row j) ((s.row j).map _) _
      cases hr : s.row j with
      | none => exact .idle none
      | some r =>
          cases hstale : r.stale (seconds 30) s.db.now with
          | true => simpa [hstale] using RowStep.reset r hstale
          | false => simpa [hstale] using RowStep.idle (some r)
  | @publisher _ _ _ eff _ hm =>
      refine ⟨[], rfl, ?_⟩
      have hrow : eff.db.row j = s.db.row j := by simp only [Db.row, hm.frame.2]
      change RowStep _ _ _ (s.db.row j) (eff.db.row j) _
      rw [hrow]
      exact .idle _
  | _ => exact ⟨[], rfl, .idle _⟩

/-! ## Row invariants -/

/-- Every row satisfies `I`, together with the tokens issued and its history. -/
structure RowsSatisfy (I : List Uuid → Option JobRow → List JobEvent → Prop) (s : World) :
    Prop where
  sound : s.Sound
  rows : ∀ j, I s.tokens (s.row j) (s.history j)

section RowInvariant

variable {I : List Uuid → Option JobRow → List JobEvent → Prop}

theorem RowsSatisfy.empty (hinit : I [] none []) (now : Time) : (empty now).RowsSatisfy I :=
  ⟨empty_sound now, fun _ => hinit⟩

/-- **Row invariants are invariants of the system.** -/
theorem RowsSatisfy.step
    (hstep : ∀ now before after r? r?' events es, (∀ t ∈ before, t ∈ after) →
      I before r? es → RowStep now before after r? r?' events → I after r?' (events ++ es))
    (s : World) (a : Action) (s' : World) (hs : s.RowsSatisfy I) (h : s.step a = some s') :
    s'.RowsSatisfy I := by
  refine ⟨step_sound s a s' hs.sound h, fun j => ?_⟩
  obtain ⟨events, hhist, hrow⟩ := step_row h hs.sound j
  rw [hhist]
  exact hstep _ _ _ _ _ _ _ (step_tokens h) (hs.rows j) hrow

end RowInvariant

end World

end EditorBack
