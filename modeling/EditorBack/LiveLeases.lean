import EditorBack.RowSteps

/-!
# Live leases and lost leases

A lease is live from its `try_start` for as long as it is renewed at least
every 30 seconds, unless it is finished or reset.  The guard of `try_start`
respects live leases, but `get_and_queued` runs before it and rewrites the
status of whatever row the message names; `update_status(Running)` does the
same after it.  Three questions follow, each answered for runs in which these
two unguarded writes behave:

* a live lease excludes further grants, if `get_and_queued` leaves rows under
  a fresh lease alone (`live_leases_exclusive`);
* a call that has lost its lease leaves the row alone, exactly if its
  `update_status(Running)` does (`lost_calls_harmless_iff`);
* a lease reported lost is lost for good, exactly if `update_status(Running)`
  never revives it (`lease_loss_permanent_iff`).
-/

namespace EditorBack

/-! ## Live leases -/

/-- When `token` was last granted or renewed. -/
def lastRenewal (token : Uuid) : List JobEvent → Option Time
  | [] => none
  | .started t _ time :: es => if t = token then some time else lastRenewal token es
  | .renewed t time :: es => if t = token then some time else lastRenewal token es
  | _ :: es => lastRenewal token es

/-- A reset came after the grant of `token`. -/
def resetSince (token : Uuid) : List JobEvent → Bool
  | [] => false
  | .reset :: _ => true
  | .started t _ _ :: es => if t = token then false else resetSince token es
  | _ :: es => resetSince token es

/-- A `finish` with `token` has stored a result. -/
def finishedWith (token : Uuid) : List JobEvent → Bool
  | [] => false
  | .finished t _ :: es => t == token || finishedWith token es
  | _ :: es => finishedWith token es

/-- The lease under `token` is neither finished nor reset, and its last grant
or renewal is at most 30 seconds old. -/
structure Live (now : Time) (token : Uuid) (es : List JobEvent) : Prop where
  recent : ∃ time, lastRenewal token es = some time ∧ now ≤ time + seconds 30
  unreset : resetSince token es = false
  unfinished : finishedWith token es = false

/-- The row is running under some token, with a heartbeat at most 30 seconds
old. -/
def JobRow.leased (now : Time) (r : JobRow) : Bool :=
  r.status == .running && r.lockToken.isSome &&
    r.heartbeatAt.any (fun beat => decide (now ≤ beat + seconds 30))

/-- The row of a live lease: running under its token, last renewed when the
lease was. -/
structure JobRow.Guards (token : Uuid) (es : List JobEvent) (r : JobRow) : Prop where
  running : r.status = .running
  held : r.lockToken = some token
  beat : r.heartbeatAt = lastRenewal token es

/-- A lease that is live now was live earlier. -/
theorem Live.mono {now now' : Time} {token : Uuid} {es : List JobEvent} (hle : now ≤ now')
    (h : Live now' token es) : Live now token es := by
  obtain ⟨time, hlast, hage⟩ := h.recent
  exact ⟨⟨time, hlast, Nat.le_trans hle hage⟩, h.unreset, h.unfinished⟩

theorem JobRow.leased_iff {now : Time} {r : JobRow} :
    r.leased now = true ↔ r.status = .running ∧ (∃ token, r.lockToken = some token) ∧
      ∃ beat, r.heartbeatAt = some beat ∧ now ≤ beat + seconds 30 := by
  unfold JobRow.leased
  cases r.lockToken <;> cases r.heartbeatAt <;> simp

/-- The row of a live lease is leased. -/
theorem JobRow.Guards.leased {now : Time} {token : Uuid} {es : List JobEvent} {r : JobRow}
    (h : r.Guards token es) (hlive : Live now token es) : r.leased now = true := by
  obtain ⟨time, hlast, hage⟩ := hlive.recent
  exact JobRow.leased_iff.mpr ⟨h.running, ⟨token, h.held⟩, time, h.beat.trans hlast, hage⟩

/-- `try_start` refuses a leased row. -/
theorem JobRow.startable_of_leased {now : Time} {r : JobRow} (h : r.leased now = true) :
    r.startable now = false := by
  obtain ⟨hrunning, _, beat, hbeat, hage⟩ := JobRow.leased_iff.mp h
  by_contra hne
  have hstart : r.startable now = true := by simpa using hne
  rcases JobRow.startable_iff.mp hstart with hqueued | ⟨_, hnull | hold⟩
  · rw [hrunning] at hqueued
    cases hqueued
  · rw [hbeat] at hnull
    cases hnull
  · obtain ⟨beat', hbeat', hlt⟩ := JobRow.beatBefore_iff.mp hold
    rw [hbeat] at hbeat'
    cases hbeat'
    exact absurd hage (Nat.not_le.mpr hlt)

/-- Every live lease on a row guards it. -/
def RowGuarded (now : Time) (r? : Option JobRow) (es : List JobEvent) : Prop :=
  ∀ token, Live now token es → ∃ r, r? = some r ∧ r.Guards token es

/-- What stays live over an event that is not about its token was live before. -/
private theorem Live.of_cons {now : Time} {token : Uuid} {e : JobEvent} {es : List JobEvent}
    (h : Live now token (e :: es)) (hstarted : ∀ w time, e ≠ .started token w time)
    (hrenewed : ∀ time, e ≠ .renewed token time) : Live now token es := by
  obtain ⟨time, hlast, hage⟩ := h.recent
  have hunreset := h.unreset
  have hunfinished := h.unfinished
  cases e with
  | started t w time' =>
      have hne : t ≠ token := fun heq => hstarted w time' (by rw [heq])
      simp only [lastRenewal, resetSince, if_neg hne] at hlast hunreset
      exact ⟨⟨time, hlast, hage⟩, hunreset, hunfinished⟩
  | renewed t time' =>
      have hne : t ≠ token := fun heq => hrenewed time' (by rw [heq])
      simp only [lastRenewal, if_neg hne] at hlast
      exact ⟨⟨time, hlast, hage⟩, hunreset, hunfinished⟩
  | finished t args =>
      simp only [finishedWith, Bool.or_eq_false_iff] at hunfinished
      exact ⟨⟨time, hlast, hage⟩, hunreset, hunfinished.2⟩
  | reset => cases hunreset
  | inserted r => exact ⟨⟨time, hlast, hage⟩, hunreset, hunfinished⟩
  | queued => exact ⟨⟨time, hlast, hage⟩, hunreset, hunfinished⟩
  | marked => exact ⟨⟨time, hlast, hage⟩, hunreset, hunfinished⟩
  | refused t => exact ⟨⟨time, hlast, hage⟩, hunreset, hunfinished⟩

/-- **A step keeps live leases guarded**, unless it is the status write of
`get_and_queued` to a leased row. -/
theorem RowStep.guarded {now : Time} {before after : List Uuid} {r? r?' : Option JobRow}
    {events es : List JobEvent} (h : RowStep now before after r? r?' events)
    (hg : RowGuarded now r? es)
    (hspare : ∀ r, r? = some r → events = [.queued] → r.leased now = false) :
    RowGuarded now r?' (events ++ es) := by
  intro token hlive
  cases h with
  | idle => exact hg token hlive
  | insert job _ =>
      obtain ⟨r, hr, _⟩ := hg token (hlive.of_cons (by simp) (by simp))
      cases hr
  | queue r =>
      have hold : Live now token es := hlive.of_cons (by simp) (by simp)
      obtain ⟨r, hr, hguards⟩ := hg token hold
      cases hr
      have hfree := hspare r rfl rfl
      rw [hguards.leased hold] at hfree
      cases hfree
  | start r t workerId hguard _ _ =>
      by_cases ht : t = token
      · subst ht
        exact ⟨_, rfl, rfl, rfl, by simp [JobRow.start, lastRenewal]⟩
      · -- a live lease would have made the guard of `try_start` fail
        have hold : Live now token es := hlive.of_cons (by simp [ht]) (by simp)
        obtain ⟨r, hr, hguards⟩ := hg token hold
        cases hr
        rw [JobRow.startable_of_leased (hguards.leased hold)] at hguard
        cases hguard
  | mark r =>
      obtain ⟨r, hr, hguards⟩ := hg token (hlive.of_cons (by simp) (by simp))
      cases hr
      exact ⟨_, rfl, rfl, hguards.held, hguards.beat⟩
  | renew r t hheld =>
      obtain ⟨hrunning, htoken⟩ := JobRow.heldBy_iff.mp hheld
      by_cases ht : t = token
      · subst ht
        exact ⟨_, rfl, hrunning, htoken, by simp [JobRow.renew, lastRenewal]⟩
      · obtain ⟨r, hr, hguards⟩ := hg token (hlive.of_cons (by simp) (by simp [ht]))
        cases hr
        rw [hguards.held] at htoken
        cases htoken
        exact absurd rfl ht
  | finish r t args hheld _ =>
      obtain ⟨r, hr, hguards⟩ := hg token (hlive.of_cons (by simp) (by simp))
      cases hr
      have htoken := (JobRow.heldBy_iff.mp hheld).2
      rw [hguards.held] at htoken
      cases htoken
      have hunfinished := hlive.unfinished
      simp [finishedWith] at hunfinished
  | reset r _ => cases hlive.unreset
  | refuse r? t _ _ =>
      obtain ⟨r, hr, hguards⟩ := hg token (hlive.of_cons (by simp) (by simp))
      exact ⟨r, hr, hguards.running, hguards.held, hguards.beat⟩

namespace World

/-- The lease on job `j` that `try_start` returned as `token` is live. -/
structure LiveLease (s : World) (j token : Uuid) : Prop where
  returned : ∃ h ∈ s.handlers, ∃ l, h.lease = some l ∧ l.jobId = j ∧ l.lockToken = token
  live : Live s.db.now token (s.history j)

/-- The step is no `try_start` that returns a token for a job with a live
lease. -/
def Exclusive (s : World) (a : Action) (s' : World) : Prop :=
  ∀ i reply token h l, a = .handler i (.tryStart reply token) → s'.handlers[i]? = some h →
    h.lease = some l → l.lockToken = token → ∀ t, ¬ s.LiveLease l.jobId t

/-- The step is no status write of `get_and_queued` to a leased row. -/
def SparesLeasedRows (s : World) (a : Action) (_ : World) : Prop :=
  ∀ w ∈ s.statusWrite a, w.2 = .queued → (s.row w.1).any (·.leased s.db.now) = false

instance (s : World) (a : Action) (s' : World) : Decidable (SparesLeasedRows s a s') :=
  inferInstanceAs (Decidable (∀ w ∈ s.statusWrite a, w.2 = .queued → _))

/-- Every live lease guards its row. -/
structure Guarded (s : World) : Prop where
  sound : s.Sound
  rows : ∀ j, RowGuarded s.db.now (s.row j) (s.history j)

theorem guarded_empty (now : Time) : (empty now).Guarded := by
  refine ⟨empty_sound now, ?_⟩
  intro j token hlive
  obtain ⟨time, hlast, _⟩ := hlive.recent
  cases hlast

theorem guarded_step (s : World) (a : Action) (s' : World) (hs : s.Guarded)
    (h : s.step a = some s') (hspare : SparesLeasedRows s a s') : s'.Guarded := by
  refine ⟨step_sound s a s' hs.sound h, ?_⟩
  intro j token hlive
  obtain ⟨events, hhist, hrow⟩ := step_row h hs.sound j
  have hfree : ∀ r, s.row j = some r → events = [.queued] → r.leased s.db.now = false := by
    intro r hr hqueued
    rw [hqueued] at hhist
    obtain ⟨hw, _⟩ := (history_status_iff h rfl).mp hhist
    simpa [hr] using hspare _ hw rfl
  have hguarded := hrow.guarded (hs.rows j) hfree
  rw [← hhist] at hguarded
  exact hguarded token (hlive.mono (step_now h))

/-- A `try_start` that returns its token has found the row startable. -/
theorem startable_of_returned {s s' : World} (hs : s.Sound) {i : Nat} {reply : Reply}
    {token : Uuid} (h : s.step (.handler i (.tryStart reply token)) = some s') {hd : Handler}
    {l : Lease} (hhd : s'.handlers[i]? = some hd) (hl : hd.lease = some l)
    (htoken : l.lockToken = token) : (s.row l.jobId).any (·.startable s.db.now) = true := by
  cases step_move h with
  | @handler _ _ hd₀ hd' _ _ hhd₀ hm _ hfresh =>
      have hlt : i < s.handlers.length := (List.getElem?_eq_some_iff.mp hhd₀).1
      have hhd' : hd' = hd := by simpa [List.getElem?_set_self hlt] using hhd
      subst hhd'
      have hkept : hd₀.lease ≠ some l := by
        intro hl₀
        have hissued := (hs.handlers hd₀ (List.mem_of_getElem? hhd₀)).issued l hl₀
        rw [htoken] at hissued
        exact hfresh token (List.mem_singleton_self token) hissued
      cases hm with
      | granted hp hrow =>
          cases hl
          exact hrow
      | busy hp _ => exact absurd hl hkept
      | startFailed hp => exact absurd hl hkept

/-- **Live leases are exclusive.**  In a run in which `get_and_queued` never
writes to a leased row, no `try_start` returns a token for a job on which an
earlier token is live. -/
theorem live_leases_exclusive (now : Time) (as : List Action)
    (hspare : Runs.StepsMeet step SparesLeasedRows (empty now) as) :
    Runs.StepsMeet step Exclusive (empty now) as := by
  have hinv := Runs.holdsAlong_of_stepsMeet guarded_step (guarded_empty now) hspare
  refine Runs.StepsMeet.of_holdsAlong ?_ hinv hspare
  intro s a s' hs h _ i reply token hd l ha hhd hl htoken t hlease
  subst ha
  have hstart := startable_of_returned hs.sound h hhd hl htoken
  obtain ⟨r, hr, hguards⟩ := hs.rows l.jobId t hlease.live
  rw [hr, Option.any_some, JobRow.startable_of_leased (hguards.leased hlease.live)] at hstart
  cases hstart

/-- The message of job `7` is delivered twice, and both workers are past their
`get_and_queued` when the first one takes the lease: the `try_start` of the second one
comes while that lease is live. -/
def contended : List Action :=
  Action.submit 0 7 ++ [.deliver 0 "worker-1" true, .deliver 0 "worker-2" false,
    .handler 1 (.select .ok), .handler 1 (.queue .ok), .handler 1 (.observe 0)] ++
    Action.start 0 100 ++ [.handler 0 (.mark .ok), .handler 1 (.tryStart .ok 101)]

/-- The second worker is sent away without a token. -/
theorem live_leases_exclusive_contended :
    Runs.StepsMeet step SparesLeasedRows (empty 0) contended ∧
      Runs.StepsMeet step Exclusive (empty 0) contended ∧
      (Runs.exec step (empty 0) contended).map (fun s => (lastRenewal 100 (s.history 7),
        s.handlers.map fun h => (h.phase.jobId, h.lease.map Lease.lockToken))) =
        some (some 0, [(some 7, some 100), (none, none)]) :=
  have hspare : Runs.StepsMeet step SparesLeasedRows (empty 0) contended := by decide
  ⟨hspare, live_leases_exclusive 0 contended hspare, by rfl⟩

/-- While the first worker executes job `7`, the message is delivered again
and a second worker goes as far as its `try_start`. -/
def secondDelivery : List Action :=
  Action.submit 0 7 ++ [.deliver 0 "worker-1" true] ++ Action.start 0 100 ++
    [.handler 0 (.mark .ok), .deliver 0 "worker-2" false, .handler 1 (.select .ok),
      .handler 1 (.queue .ok), .handler 1 (.observe 0)]

/-- The second `try_start` returns a token within the same second in which the
first lease was granted. -/
theorem second_delivery_takes_live_lease :
    ¬ Runs.StepsMeet step Exclusive (empty 0)
      (secondDelivery ++ [.handler 1 (.tryStart .ok 101)]) := by
  intro h
  have hbefore : (Runs.exec step (empty 0) secondDelivery).map
      (fun s => (s.db.now, lastRenewal 100 (s.history 7), resetSince 100 (s.history 7),
        finishedWith 100 (s.history 7),
        (s.handlers[0]?.bind Handler.lease).map (fun l => (l.jobId, l.lockToken)),
        ((s.step (.handler 1 (.tryStart .ok 101))).bind fun s' =>
          s'.handlers[1]?.bind Handler.lease).map (fun l => (l.jobId, l.lockToken)))) =
      some (0, some 0, false, false, some (7, 100), some (7, 101)) := by rfl
  obtain ⟨s, hrun, hs⟩ := Option.map_eq_some_iff.mp hbefore
  simp only [Prod.mk.injEq, Option.map_eq_some_iff, Option.bind_eq_some_iff] at hs
  obtain ⟨hnow, hlast, hreset, hfinished, ⟨l, ⟨hd, hhd, hl⟩, hjob, htoken⟩,
    ⟨l', ⟨s', hstep, hd', hhd', hl'⟩, hjob', htoken'⟩⟩ := hs
  refine h.last hrun hstep 1 .ok 101 hd' l' rfl hhd' hl' htoken' 100 ?_
  rw [hjob']
  exact ⟨⟨hd, List.mem_of_getElem? hhd, l, hl, hjob, htoken⟩,
    ⟨0, hlast, by rw [hnow]; exact Nat.zero_le _⟩, hreset, hfinished⟩

end World

/-! ## Leases reported lost -/

/-- A token somebody was refused does not hold the row. -/
def RowLossPermanent (r? : Option JobRow) (es : List JobEvent) : Prop :=
  ∀ token, .refused token ∈ es → ∀ r, r? = some r → r.heldBy token = false

/-- Refused tokens were issued. -/
def RefusedIssued (tokens : List Uuid) (_ : Option JobRow) (es : List JobEvent) : Prop :=
  ∀ token, .refused token ∈ es → token ∈ tokens

theorem RowStep.refusedIssued {now : Time} {before after : List Uuid} {r? r?' : Option JobRow}
    {events es : List JobEvent} (h : RowStep now before after r? r?' events)
    (hsub : ∀ t ∈ before, t ∈ after) (hi : RefusedIssued before r? es) :
    RefusedIssued after r?' (events ++ es) := by
  intro token hmem
  rcases List.mem_append.mp hmem with hnew | hold
  · cases h with
    | refuse r? t _ hissued =>
        cases List.mem_singleton.mp hnew
        exact hsub _ hissued
    | _ => simp at hnew
  · exact hsub token (hi token hold)

section LossPermanent

variable {now : Time} {before after : List Uuid} {r? r?' : Option JobRow}
  {events es : List JobEvent}

/-- **A statement other than `update_status(Running)` brings no lost lease
back.** -/
theorem RowStep.lossPermanent (h : RowStep now before after r? r?' events)
    (hi : RefusedIssued before r? es) (hp : RowLossPermanent r? es)
    (hmark : events ≠ [.marked]) : RowLossPermanent r?' (events ++ es) := by
  -- a row that is not running is held by nobody
  have hidle : ∀ {r : JobRow} {token : Uuid}, r.status ≠ .running → r.heldBy token = false := by
    intro r token hne
    simp [JobRow.heldBy, hne]
  intro token hmem r' hr'
  cases h with
  | idle => exact hp token hmem r' hr'
  | insert job haccepted =>
      cases hr'
      exact hidle (by simp [JobRow.new, haccepted])
  | queue r =>
      cases hr'
      exact hidle (by simp [JobRow.withStatus])
  | start r t workerId _ hfresh _ =>
      cases hr'
      have hold : .refused token ∈ es := by simpa using hmem
      have hne : t ≠ token := by
        intro heq
        rw [heq] at hfresh
        exact hfresh (hi token hold)
      simp [JobRow.heldBy, JobRow.start, hne]
  | mark r => exact absurd rfl hmark
  | renew r t _ =>
      cases hr'
      exact hp token (by simpa using hmem) r rfl
  | finish r t args _ _ =>
      cases hr'
      simp [JobRow.heldBy, JobRow.store]
  | reset r _ =>
      cases hr'
      exact hidle (by simp [JobRow.reset])
  | refuse r? t hlost _ =>
      rcases List.mem_cons.mp hmem with heq | hold
      · cases heq
        exact hlost r' hr'
      · exact hp token hold r' hr'

/-- **One step brings a lost lease back exactly if it is an
`update_status(Running)` to a row that still carries the token.** -/
theorem RowStep.lossPermanent_iff (h : RowStep now before after r? r?' events)
    (hi : RefusedIssued before r? es) (hp : RowLossPermanent r? es) :
    RowLossPermanent r?' (events ++ es) ↔
      (events = [.marked] → ∀ r, r? = some r → ∀ token, .refused token ∈ es →
        r.lockToken ≠ some token) := by
  by_cases hmark : events = [.marked]
  · subst hmark
    cases h with
    | mark r =>
        constructor
        · intro hlost _ r' hr' token hmem htoken
          cases hr'
          have hfree := hlost token (List.mem_append_right _ hmem) _ rfl
          simp [JobRow.heldBy, JobRow.withStatus, htoken] at hfree
        · intro hcond token hmem r' hr'
          cases hr'
          have hold : .refused token ∈ es := by simpa using hmem
          have hne := hcond rfl r rfl token hold
          simp [JobRow.heldBy, JobRow.withStatus, hne]
  · exact iff_of_true (h.lossPermanent hi hp hmark) (fun heq => absurd heq hmark)

end LossPermanent

namespace World

/-- No row is running under a token that somebody was refused. -/
def LeaseLossPermanent (s : World) : Prop :=
  ∀ j, RowLossPermanent (s.row j) (s.history j)

/-- The step is no `update_status(Running)` to a row that carries a refused
token. -/
def SparesLostTokens (s : World) (a : Action) (_ : World) : Prop :=
  ∀ j, s.statusWrite a = some (j, .running) → ∀ r, s.row j = some r →
    ∀ token, .refused token ∈ s.history j → r.lockToken ≠ some token

/-- **Lease loss is permanent exactly as long as nobody marks over it.**  Along
any run, a token that `heartbeat` or `finish` has reported lost never holds its
row again if and only if no `update_status(Running)` of the run hits a row that
still carries such a token. -/
theorem lease_loss_permanent_iff (now : Time) (as : List Action) :
    Runs.HoldsAlong step LeaseLossPermanent (empty now) as ↔
      Runs.StepsMeet step SparesLostTokens (empty now) as := by
  have hinit : (empty now).RowsSatisfy RefusedIssued :=
    RowsSatisfy.empty (by intro t ht; cases ht) now
  have hinv : ∀ s a s', s.RowsSatisfy RefusedIssued → step s a = some s' →
      s'.RowsSatisfy RefusedIssued :=
    RowsSatisfy.step fun _ _ _ _ _ _ _ hsub hi hrow => hrow.refusedIssued hsub hi
  refine Runs.holdsAlong_iff_stepsMeet hinv ?_ hinit ?_ as
  · intro s a s' hs hp h
    refine forall_congr' fun j => ?_
    obtain ⟨events, hhist, hrow⟩ := step_row h hs.sound j
    have hmarked : events = [.marked] ↔
        s.statusWrite a = some (j, .running) ∧ (s.row j).isSome = true := by
      have hiff : s'.history j = .marked :: s.history j ↔ _ := history_status_iff h rfl
      rw [← hiff, hhist, append_eq_cons]
    rw [hhist, hrow.lossPermanent_iff (hs.rows j) (hp j), hmarked]
    constructor
    · intro hcond hw r hr
      exact hcond ⟨hw, by rw [hr]; rfl⟩ r hr
    · intro hcond hw
      exact hcond hw.1
  · intro j token hmem
    cases hmem

/-- Before the first worker's `update_status(Running)`, a second call sets the
row to `Queued` and the first heartbeat is told that the lease is lost. -/
def lateMark : List Action :=
  Action.submit 0 7 ++ [.deliver 0 "worker-1" true] ++ Action.start 0 100 ++
    [.deliver 0 "worker-2" false, .handler 1 (.select .ok), .handler 1 (.queue .ok),
      .handler 0 (.beat .ok), .handler 0 (.mark .ok)]

/-- The token that was refused holds the row again. -/
theorem late_mark_revives_lease :
    ¬ Runs.HoldsAlong step LeaseLossPermanent (empty 0) lateMark := by
  intro h
  have hend : (Runs.exec step (empty 0) lateMark).map
      (fun s => (s.history 7).any (fun e => match e with | .refused t => t == 100 | _ => false) &&
        (s.row 7).any (·.heldBy 100)) = some true := by decide
  obtain ⟨s, hrun, hs⟩ := Option.map_eq_some_iff.mp hend
  obtain ⟨hrefused, hheld⟩ := Bool.and_eq_true_iff.mp hs
  obtain ⟨e, hmem, he⟩ := List.any_eq_true.mp hrefused
  split at he
  · next t =>
      cases eq_of_beq he
      cases hr : s.row 7 with
      | none => simp [hr] at hheld
      | some r =>
          have hfree := h.final hrun 7 100 hmem r hr
          rw [hr, Option.any_some, hfree] at hheld
          cases hheld
  · cases he

end World

/-! ## Calls that have lost their lease -/

theorem JobRow.withStatus_eq_self {r : JobRow} {status : RunStatus} :
    r.withStatus status = r ↔ r.status = status := by
  constructor
  · intro h
    rw [← h]
    rfl
  · intro h
    rw [← h]
    rfl

namespace World

/-- A step of a call, or of its heartbeat, that finds another token or none on
the row of its job leaves that row as it was. -/
def LostCallHarmless (s : World) (a : Action) (s' : World) : Prop :=
  ∀ i input h l r, a = .handler i input → s.handlers[i]? = some h → h.lease = some l →
    s.row l.jobId = some r → r.lockToken ≠ some l.lockToken → s'.row l.jobId = some r

/-- An `update_status(Running)` that finds another token or none on the row
finds the row running. -/
def MarksRunningRows (s : World) (a : Action) (_ : World) : Prop :=
  ∀ i reply h l r, a = .handler i (.mark reply) → reply.executed = true →
    s.handlers[i]? = some h → h.lease = some l → s.row l.jobId = some r →
    r.lockToken ≠ some l.lockToken → r.status = .running

/-- The statements of a call that has lost its lease, apart from its
`update_status(Running)`, do not change the row. -/
private theorem row_of_lost {db db' : Db} {h : Handler} {input : HandlerInput}
    {event : Option (Uuid × JobEvent)} {tokens : List Uuid} {l : Lease} {r : JobRow}
    (hw : Handler.Write db h input db' event) (hs : h.Sound tokens) (hl : h.lease = some l)
    (hr : db.row l.jobId = some r) (hlost : r.lockToken ≠ some l.lockToken)
    (hmark : ∀ reply, input = .mark reply → reply.executed = true → r.status = .running) :
    db'.row l.jobId = some r := by
  have hfree : r.heldBy l.lockToken = false := by simp [JobRow.heldBy, hlost]
  have hstarted : h.phase.beforeStart = true → False := by
    intro hbefore
    have hnone := hs.unleased hbefore
    rw [hl] at hnone
    cases hnone
  cases hw with
  | none _ => exact hr
  | queue hp _ => exact (hstarted (by rw [hp]; rfl)).elim
  | tryStart hp _ => exact (hstarted (by rw [hp]; rfl)).elim
  | @mark reply job lease hp hl' hexec =>
      have hjob : l.jobId = job.id := hs.same_job hl (by rw [hp]; rfl)
      rw [JobStore.row_updateStatus, if_pos hjob, hr, Option.map_some,
        JobRow.withStatus_eq_self.mpr (hmark reply rfl hexec)]
  | @finish reply job args answer lease hp hl' _ =>
      rw [hl] at hl'
      cases hl'
      have hjob : l.jobId = job.id := hs.same_job hl (by rw [hp]; rfl)
      rw [JobStore.row_finish, if_pos hjob, hr]
      simp [hfree]
  | @beat reply lease hl' _ =>
      rw [hl] at hl'
      cases hl'
      rw [JobStore.row_heartbeat, if_pos rfl, hr]
      simp [hfree]

/-- **A call that has lost its lease is harmless exactly if it marks no row
that is not running.**  Every other statement it still issues is refused. -/
theorem lost_calls_harmless_iff (now : Time) (as : List Action) :
    Runs.StepsMeet step LostCallHarmless (empty now) as ↔
      Runs.StepsMeet step MarksRunningRows (empty now) as := by
  refine Runs.stepsMeet_iff step_sound ?_ (empty_sound now) as
  intro s a s' hs h
  constructor
  · intro hharmless i reply hd l r ha hexec hhd hl hr hlost
    subst ha
    have hsame := hharmless i _ hd l r rfl hhd hl hr hlost
    cases step_move h with
    | handler hhd' _ hw _ =>
        rw [hhd] at hhd'
        cases hhd'
        cases hw with
        | none hnone =>
            have hnot : reply.executed = false := hnone
            rw [hexec] at hnot
            cases hnot
        | @mark _ job lease hp _ _ =>
            have hjob : l.jobId = job.id :=
              (hs.handlers hd (List.mem_of_getElem? hhd)).same_job hl (by rw [hp]; rfl)
            have hrow : s.db.row l.jobId = some r := hr
            change (JobStore.updateStatus job.id .running s.db).1.row l.jobId = some r at hsame
            rw [JobStore.row_updateStatus, if_pos hjob, hrow, Option.map_some,
              Option.some_inj] at hsame
            exact JobRow.withStatus_eq_self.mp hsame
  · intro hmarks i input hd l r ha hhd hl hr hlost
    subst ha
    cases step_move h with
    | handler hhd' _ hw _ =>
        rw [hhd] at hhd'
        cases hhd'
        refine row_of_lost hw (hs.handlers hd (List.mem_of_getElem? hhd)) hl hr hlost ?_
        intro reply hinput hexec
        subst hinput
        exact hmarks i reply hd l r rfl hexec hhd hl hr hlost

/-- A worker takes job `7` and pauses; a minute later the reaper resets the
job. -/
def pausedThenReset : List Action :=
  Action.submit 0 7 ++ [.deliver 0 "worker-1" false] ++ Action.start 0 100 ++
    [.advance (seconds 60), .reap [1] .ok]

/-- The worker wakes up: its `update_status(Running)` takes the job, which is
queued and no longer its own, off the queue. -/
theorem paused_worker_overwrites :
    ¬ Runs.StepsMeet step LostCallHarmless (empty 0)
      (pausedThenReset ++ [.handler 0 (.mark .ok)]) := by
  intro h
  have hbefore : (Runs.exec step (empty 0) pausedThenReset).map
      (fun s => ((s.handlers[0]?.bind Handler.lease).map (fun l => (l.jobId, l.lockToken)),
        (s.row 7).map (fun r => (r.status, r.lockToken)),
        ((s.step (.handler 0 (.mark .ok))).bind (·.row 7)).map JobRow.status)) =
      some (some (7, 100), some (.queued, none), some .running) := by rfl
  obtain ⟨s, hrun, hs⟩ := Option.map_eq_some_iff.mp hbefore
  simp only [Prod.mk.injEq, Option.map_eq_some_iff, Option.bind_eq_some_iff] at hs
  obtain ⟨⟨l, ⟨hd, hhd, hl⟩, hjob, htoken⟩, ⟨r, hr, hstatus, hnone⟩,
    ⟨r', ⟨s', hstep, hr'⟩, hstatus'⟩⟩ := hs
  have hsame := h.last hrun hstep 0 _ hd l r rfl hhd hl (by rw [hjob]; exact hr)
    (by rw [hnone]; exact nofun)
  rw [hjob, hr'] at hsame
  cases hsame
  rw [hstatus] at hstatus'
  cases hstatus'

end World

end EditorBack
