import EditorBack.Tally
import EditorBack.UnsettledRecords

/-!
# Jobs and their records

Every job that was acknowledged is done, beating or in the outbox, or has a record
on the topic whose last delivery was not handled to `Ok`, or a call that has lost its
partition is at work on it.  There are two ways for a job to get lost.  A consumer that
goes on after a record has ended `Retryable` commits over it (`commit_strands_job`), and a
call that fails after it has lost its partition has nobody to bring its message back,
once the next consumer has settled the record (`late_failure_strands_job`).
`records_attend_jobs` says that there is no other.

The records also bound the work: a consumer has one record in hand, so there are no more
calls at work than partitions, but for those that go on after their partition was taken
(`calls_at_work_le`).
-/

namespace EditorBack

/-! ## Commits -/

/-- What is behind the commits was handled to `Ok` the last time it was delivered, and the
consumer is past it. -/
structure Consumer.Ahead (q : Consumer) : Prop where
  committed : ∀ o < q.partition.committed, o ∈ q.settled
  requests : ∀ k n, q.partition.requests[k]? = some n →
    k + q.former < q.partition.requests.length →
      n ≤ q.partition.position ∧ ∀ o < n, o ∈ q.settled
  passed : q.partition.phase.isOver = false → q.partition.retried = [] →
    ∀ o < q.partition.frontier, o ∈ q.settled
  behind : q.partition.committed ≤ q.partition.position

namespace Cluster

/-- A commit is issued only as long as no record has ended `Retryable` since the
consumer was started. -/
def CommitsBeforeRetry (c : Cluster) (a : ClusterAction) (_ : Cluster) : Prop :=
  match a with
  | .loop p (.commit (.ok ())) => ∀ q ∈ c.consumers[p]?, q.partition.retried = []
  | _ => True

instance (c : Cluster) (a : ClusterAction) (c' : Cluster) :
    Decidable (CommitsBeforeRetry c a c') := by
  unfold CommitsBeforeRetry
  split <;> infer_instance

section Steps

variable {decode : List UInt8 → Except String JobMessage} {encode : JobMessage → List UInt8}

/-- **Commits stay behind what is settled.** -/
theorem ahead_step (hcodec : ∀ msg, decode (encode msg) = .ok msg) (c : Cluster)
    (a : ClusterAction) (c' : Cluster)
    (hs : c.Kept decode encode ∧ ∀ q ∈ c.consumers, q.Ahead)
    (h : c.step decode encode a = some c')
    (hcond : FailsCovered decode c a c' ∧ CommitsBeforeRetry c a c') :
    c'.Kept decode encode ∧ ∀ q ∈ c'.consumers, q.Ahead := by
  obtain ⟨hc, hahead⟩ := hs
  refine ⟨kept_step hcodec c a c' hc h hcond.1, ?_⟩
  cases step_move h with
  | system hq _ _ =>
      have hown := hahead _ (List.mem_of_getElem? hq)
      exact forall_set hahead ⟨hown.committed, hown.requests, hown.passed, hown.behind⟩
  | @started p workerId cleanup q phase hq _ hidle =>
      have hown := hahead _ (List.mem_of_getElem? hq)
      refine forall_set hahead ⟨hown.committed, ?_, ?_, Nat.le_refl _⟩
      · intro k n _ hlive
        exact absurd hlive (by simp)
      · intro _ _ o ho
        rw [Partition.frontier_of_isIdle hidle] at ho
        exact hown.committed o ho
  | @received p q message hq hpoll hrecord =>
      have hown := hahead _ (List.mem_of_getElem? hq)
      have hoffset : message.offset = q.partition.position := by
        obtain ⟨bytes, _, rfl⟩ := Option.map_eq_some_iff.mp hrecord
        rfl
      -- the record taken is ahead of everything that is settled for a commit
      have hkept : ∀ {o : Nat}, o < q.partition.position → o ∈ q.settled →
          o ∈ q.settled.filter (· ≠ q.partition.position) := by
        intro o hlt ho
        exact List.mem_filter.mpr ⟨ho, by simpa using Nat.ne_of_lt hlt⟩
      refine forall_set hahead ⟨?_, ?_, ?_, Nat.le_succ_of_le hown.behind⟩
      · intro o ho
        exact hkept (Nat.lt_of_lt_of_le ho hown.behind) (hown.committed o ho)
      · intro k n hk hlive
        obtain ⟨hle, hsettled⟩ := hown.requests k n hk hlive
        exact ⟨Nat.le_succ_of_le hle,
          fun o ho => hkept (Nat.lt_of_lt_of_le ho hle) (hsettled o ho)⟩
      · intro _ hretried o ho
        have hlt : o < q.partition.position := hoffset ▸ ho
        refine hkept hlt (hown.passed (by rw [hpoll]; rfl) hretried o ?_)
        simpa [Partition.frontier, hpoll] using hlt
  | @handled p q hd message hq hphase _ _ =>
      have hown := hahead _ (List.mem_of_getElem? hq)
      have hposition := ((hc.linked q (List.mem_of_getElem? hq)).received message
        (by simp [Partition.inHand, hphase])).1
      have hkept : ∀ o ∈ q.settled, o ∈ message.offset :: q.settled :=
        fun o ho => List.mem_cons_of_mem _ ho
      refine forall_set hahead ⟨fun o ho => hkept o (hown.committed o ho), ?_, ?_, hown.behind⟩
      · intro k n hk hlive
        obtain ⟨hle, hsettled⟩ := hown.requests k n hk hlive
        exact ⟨hle, fun o ho => hkept o (hsettled o ho)⟩
      · intro _ hretried o ho
        change o < q.partition.position at ho
        by_cases hthis : o = message.offset
        · rw [hthis]
          exact List.mem_cons_self
        · apply hkept
          refine hown.passed (by rw [hphase]; rfl) hretried o ?_
          simp only [Partition.frontier, hphase]
          omega
  | failed hq _ _ _ =>
      have hown := hahead _ (List.mem_of_getElem? hq)
      refine forall_set hahead ⟨hown.committed, hown.requests, ?_, hown.behind⟩
      intro _ hretried
      cases hretried
  | @rejected p q hd message err hq hphase hhd hreturned =>
      exact absurd hreturned ((hc.ordinary.handlers hd (List.mem_of_getElem? hhd)).accepted err)
  | @looped p a q s hq hpermits hstep =>
      have hlinked := hc.linked q (List.mem_of_getElem? hq)
      have hown := hahead _ (List.mem_of_getElem? hq)
      refine forall_set hahead ?_
      cases Consumer.loop_move hpermits hstep hlinked.plain with
      | stayed => exact hown
      | stopped hover _ =>
          refine ⟨hown.committed, hown.requests, ?_, hown.behind⟩
          intro hnot
          exact absurd hover (by simpa using hnot)
      | @committed message hphase =>
          have hposition := (hlinked.received message (by simp [Partition.inHand, hphase])).1
          have hpassed : ∀ o < q.partition.position, o ∈ q.settled := by
            intro o ho
            refine hown.passed (by rw [hphase]; rfl) (hcond.2 q hq) o ?_
            simpa [Partition.frontier, hphase] using ho
          refine ⟨hown.committed, ?_, fun _ _ => hpassed, hown.behind⟩
          intro k n hk hlive
          cases k with
          | zero =>
              cases hk
              exact ⟨Nat.le_of_eq hposition.symm, fun o ho => hpassed o (by omega)⟩
          | succ k =>
              refine hown.requests k n hk ?_
              simp only [List.length_cons] at hlive
              omega
      | @carried k offset hoffset =>
          have hlive : k + q.former < q.partition.requests.length := by
            simpa [Consumer.permits] using hpermits
          obtain ⟨hle, hsettled⟩ := hown.requests k offset hoffset hlive
          refine ⟨hsettled, ?_, hown.passed, hle⟩
          intro k' n hk' hlive'
          have hlength : (q.partition.requests.eraseIdx k).length =
              q.partition.requests.length - 1 :=
            List.length_eraseIdx_of_lt (List.getElem?_eq_some_iff.mp hoffset).1
          rw [List.getElem?_eraseIdx] at hk'
          dsimp only at hlive'
          split at hk'
          · exact hown.requests k' n hk' (by omega)
          · exact hown.requests (k' + 1) n hk' (by omega)

/-! ## Jobs and their records -/

/-- The row of job `j` is done, or somebody is going to take it up: a record of the job
for which `P` holds, a call that has lost its partition and is at work on the job, an
unpublished outbox row, or the reaper once the heartbeat is old enough. -/
def Attended (encode : JobMessage → List UInt8) (P : Consumer → Nat → Prop) (c : Cluster)
    (j : Uuid) : Prop :=
  ∃ r, c.world.row j = some r ∧
    (r.status.isTerminal = true ∨
      (∃ q ∈ c.consumers, ∃ o, q.Carries encode j o ∧ P q o) ∨
      (∃ i hd, c.world.handlers[i]? = some hd ∧ hd.phase.jobId = some j ∧
        ∀ q ∈ c.consumers, q.holds i = false) ∨
      (∃ e ∈ c.world.db.outbox.rows, e.jobId = j ∧ e.publishedAt = none) ∨
      (r.status = .running ∧ r.heartbeatAt ≠ none))

/-- Every job whose request was answered with its id is attended. -/
def AttendsAcknowledged (encode : JobMessage → List UInt8) (P : Consumer → Nat → Prop)
    (c : Cluster) : Prop :=
  ∀ sub ∈ c.world.submissions, ∀ j, sub.phase = .returned (.ok j) → c.Attended encode P j

/-- A record that is still to be delivered, or in the hands of a call, was not handled to
`Ok` the last time. -/
theorem Kept.attends (hcodec : ∀ msg, decode (encode msg) = .ok msg) {c : Cluster}
    (hc : c.Kept decode encode) :
    c.AttendsAcknowledged encode (fun q o => o ∉ q.settled) := by
  intro sub hsub j hphase
  have hsent := hc.watched.provenance.answered sub hsub j hphase
  -- a record that reads as a message of `j` is a record of `j`
  have hcarries : ∀ q ∈ c.consumers, ∀ o message, q.partition.record o = some message →
      message.read decode = .message ⟨j⟩ → q.Carries encode j o := by
    intro q hq o message hrecord hread
    obtain ⟨j', _, hpayload⟩ := (hc.linked q hq).records o message hrecord
    rw [Message.read_encode hcodec hpayload] at hread
    cases hread
    exact ⟨message, hrecord, hpayload⟩
  obtain ⟨r, hr, hcase⟩ := hc.watched.attended hsent
  refine ⟨r, hr, ?_⟩
  rcases hcase with hterm | (hqueued | ⟨hd, hhd, hjob⟩) | houtbox | hbeat
  · exact Or.inl hterm
  · obtain ⟨q, hq, howed⟩ := mem_owed.mp hqueued
    obtain ⟨o, message, hwaits, hrecord, hread⟩ := Consumer.mem_owed.mp howed
    exact Or.inr (Or.inl ⟨q, hq, o, hcarries q hq o message hrecord hread,
      (Consumer.waits_iff.mp hwaits).1⟩)
  · obtain ⟨i, hi⟩ := List.mem_iff_getElem?.mp hhd
    by_cases hheld : ∃ q ∈ c.consumers, q.holds i = true
    · obtain ⟨q, hq, hholds⟩ := hheld
      obtain ⟨message, hhand, rfl⟩ := Consumer.holds_iff.mp hholds
      obtain ⟨hd', hhd', hpayload⟩ := (hc.linked q hq).call message hhand
      change c.world.handlers[q.call]? = some hd at hi
      rw [hi] at hhd'
      cases hhd'
      have hrecord := ((hc.linked q hq).received message (by simp [Partition.inHand, hhand])).2
      have hread : message.read decode = .message ⟨j⟩ :=
        hpayload.symm.trans ((hc.watched.provenance.sound.handlers hd hhd).job j hjob)
      exact Or.inr (Or.inl ⟨q, hq, message.offset, hcarries q hq _ message hrecord hread,
        (hc.linked q hq).unsettled message hhand⟩)
    · -- its partition was taken from its consumer
      refine Or.inr (Or.inr (Or.inl ⟨i, hd, hi, hjob, ?_⟩))
      intro q hq
      exact Bool.eq_false_iff.mpr fun hholds => hheld ⟨q, hq, hholds⟩
  · exact Or.inr (Or.inr (Or.inr (Or.inl houtbox)))
  · exact Or.inr (Or.inr (Or.inr (Or.inr hbeat)))

/-- **Only a commit over a record that ended `Retryable`, or a call that fails after it has
lost its partition, can strand a job.**  In every state of every run of the system with
its topic in which such failures are covered, a job whose request was answered with its
id is done, beating or in the outbox, or has a record on the topic whose last delivery was
not handled to `Ok`, or a call that has lost its partition is at work on it; and if no
commit is issued after a record has ended `Retryable`, that record is not behind the
committed offset of its partition. -/
theorem records_attend_jobs (hcodec : ∀ msg, decode (encode msg) = .ok msg) (now : Time)
    (n : Nat) (as : List ClusterAction) :
    (Runs.StepsMeet (step decode encode) (FailsCovered decode) (empty now n) as →
      Runs.HoldsAlong (step decode encode)
        (AttendsAcknowledged encode fun q o => o ∉ q.settled) (empty now n) as) ∧
    (Runs.StepsMeet (step decode encode)
        (fun c a c' => FailsCovered decode c a c' ∧ CommitsBeforeRetry c a c') (empty now n) as →
      Runs.HoldsAlong (step decode encode)
        (AttendsAcknowledged encode fun q o => o ∉ q.settled ∧ q.partition.committed ≤ o)
        (empty now n) as) := by
  have hempty : (empty now n).Kept decode encode := kept_empty now n
  constructor
  · intro hcond
    have hinv := Runs.holdsAlong_of_stepsMeet (kept_step hcodec) hempty hcond
    exact hinv.mono (fun c hc => hc.attends hcodec)
  · intro hcond
    have hstart : ∀ q ∈ (empty now n).consumers, q.Ahead := by
      intro q hq
      obtain ⟨p, _, rfl⟩ := List.mem_map.mp hq
      refine ⟨?_, ?_, ?_, Nat.le_refl _⟩ <;>
        simp [Consumer.empty, Partition.empty, RunPhase.isOver]
    have hinv := Runs.holdsAlong_of_stepsMeet (ahead_step hcodec) ⟨hempty, hstart⟩ hcond
    refine hinv.mono ?_
    intro c hc sub hsub j hphase
    obtain ⟨r, hr, hcase⟩ := hc.1.attends hcodec sub hsub j hphase
    refine ⟨r, hr, ?_⟩
    rcases hcase with hterm | ⟨q, hq, o, hcarries, hunsettled⟩ | hrest
    · exact Or.inl hterm
    · refine Or.inr (Or.inl ⟨q, hq, o, hcarries, hunsettled, ?_⟩)
      by_contra hbehind
      exact hunsettled ((hc.2 q hq).committed o (by omega))
    · exact Or.inr (Or.inr hrest)

end Steps

theorem records_attend_committed_jobs :
    Runs.HoldsAlong (step JobMessage.fromSlice JobMessage.toVec)
      (AttendsAcknowledged JobMessage.toVec fun q o => o ∉ q.settled ∧ q.partition.committed ≤ o)
      (empty 0 2) committedJobs :=
  (records_attend_jobs JobMessage.fromSlice_toVec 0 2 committedJobs).2 (by decide +kernel)

/-! ## Calls at work -/

/-- The calls that a step takes the partition from while they are at work. -/
def takes (c : Cluster) : ClusterAction → List Nat
  | .loop p .crash =>
      ((c.consumers[p]?).filter fun q => q.holds q.call &&
        (c.world.handlers[q.call]?).any (·.phase.jobId.isSome)).toList.map Consumer.call
  | _ => []

/-- Each call at work is for the record some consumer has in hand, or its partition was
taken from its consumer. -/
structure Placed (n : Nat) (c : Cluster) (log : List Nat) : Prop where
  length : c.consumers.length = n
  working : ∀ i hd, c.world.handlers[i]? = some hd → hd.phase.jobId.isSome = true →
    (∃ q ∈ c.consumers, q.holds i = true) ∨ i ∈ log

section Places

variable {decode : List UInt8 → Except String JobMessage} {encode : JobMessage → List UInt8}
  {n : Nat} {c : Cluster} {log : List Nat}

/-- A call that a consumer holds goes on being held when the consumer that moves goes on
holding what it held. -/
private theorem exists_holds_set {consumers : List Consumer} {p i : Nat} {q q' : Consumer}
    (hq : consumers[p]? = some q) (hheld : ∃ q ∈ consumers, q.holds i = true)
    (hself : q.holds i = true → q'.holds i = true) :
    ∃ q ∈ consumers.set p q', q.holds i = true := by
  obtain ⟨q₀, hq₀, hholds⟩ := hheld
  obtain ⟨k, hk⟩ := List.mem_iff_getElem?.mp hq₀
  by_cases hkp : k = p
  · subst hkp
    rw [hq] at hk
    cases hk
    exact ⟨q', List.mem_set (List.getElem?_eq_some_iff.mp hq).1 _, hself hholds⟩
  · refine ⟨q₀, List.mem_iff_getElem?.mpr ⟨k, ?_⟩, hholds⟩
    rw [List.getElem?_set_ne (Ne.symm hkp)]
    exact hk

/-- A consumer moves, and goes on holding its call, or the call is in the log or over. -/
private theorem Placed.set {p : Nat} {q q' : Consumer} {taken : List Nat}
    (hs : c.Placed n log) (hq : c.consumers[p]? = some q)
    (hself : ∀ i, q.holds i = true → q'.holds i = true ∨ i ∈ taken ∨
      (c.world.handlers[i]?).any (·.phase.jobId.isSome) = false) :
    ({ c with consumers := c.consumers.set p q' } : Cluster).Placed n (taken ++ log) := by
  refine ⟨List.length_set.trans hs.length, ?_⟩
  intro i hd hhd hjob
  rcases hs.working i hd hhd hjob with hheld | hlog
  · by_cases hown : q.holds i = true
    · rcases hself i hown with hstill | htaken | hover
      · exact Or.inl (exists_holds_set hq hheld fun _ => hstill)
      · exact Or.inr (List.mem_append_left _ htaken)
      · have hwork : (c.world.handlers[i]?).any (·.phase.jobId.isSome) = true := by
          change c.world.handlers[i]? = some hd at hhd
          rw [hhd]
          exact hjob
        rw [hwork] at hover
        cases hover
    · exact Or.inl (exists_holds_set hq hheld fun hholds => absurd hholds hown)
  · exact Or.inr (List.mem_append_right _ hlog)

/-- A consumer without a call holds none. -/
private theorem not_holds {q : Consumer} {i : Nat}
    (hphase : ∀ message, q.partition.phase ≠ .handling message) : ¬ q.holds i = true := by
  intro hholds
  obtain ⟨message, hhand, _⟩ := Consumer.holds_iff.mp hholds
  exact hphase message hhand

/-- A call that has returned is not at work. -/
private theorem returned_idle {hd : Handler} {result : Except ProcessError Unit} {i : Nat}
    (hhd : c.world.handlers[i]? = some hd) (hreturned : hd.phase = .returned result) :
    (c.world.handlers[i]?).any (·.phase.jobId.isSome) = false := by
  rw [hhd, Option.any_some, hreturned]
  rfl

/-- **Every step keeps calls at work in their places.** -/
theorem placed_step (c : Cluster) (log : List Nat) (a : ClusterAction) (c' : Cluster)
    (hs : c.Placed n log) (h : c.step decode encode a = some c') :
    c'.Placed n (c.takes a ++ log) := by
  cases step_move h with
  | @system a p q world hq ha hstep =>
      refine ⟨List.length_set.trans hs.length, ?_⟩
      intro i hd' hhd' hjob'
      obtain ⟨hd, hhd, hjob⟩ := World.working_before hstep ha hhd' hjob'
      exact (hs.working i hd hhd hjob).imp_left fun hheld => exists_holds_set hq hheld id
  | @received p q message hq hpoll _ =>
      refine ⟨List.length_set.trans hs.length, ?_⟩
      intro i hd hhd hjob
      by_cases hi : i < c.world.handlers.length
      · rw [List.getElem?_append_left hi] at hhd
        refine (hs.working i hd hhd hjob).imp_left fun hheld => exists_holds_set hq hheld ?_
        exact fun hholds => absurd hholds (not_holds fun message' => by simp [hpoll])
      · -- the call that has just been made
        have hlast : c.world.handlers.length = i := by
          have := (List.getElem?_eq_some_iff.mp hhd).1
          simp only [List.length_append, List.length_singleton] at this
          omega
        exact Or.inl ⟨_, List.mem_set (List.getElem?_eq_some_iff.mp hq).1 _,
          Consumer.holds_iff.mpr ⟨message, rfl, hlast⟩⟩
  | @started p workerId cleanup q phase hq hover hidle =>
      refine hs.set hq fun i hholds => absurd hholds (not_holds fun message hphase => ?_)
      rw [hphase] at hover
      cases hover
  | handled hq _ hhd hreturned | failed hq _ hhd hreturned | rejected hq _ hhd hreturned =>
      refine hs.set hq fun i hholds => Or.inr (Or.inr ?_)
      obtain ⟨_, _, rfl⟩ := Consumer.holds_iff.mp hholds
      exact returned_idle hhd hreturned
  | @looped p a q s hq hpermits hstep =>
      refine hs.set hq fun i hholds => ?_
      obtain ⟨message, hphase, rfl⟩ := Consumer.holds_iff.mp hholds
      have hmove := Consumer.loop_move hpermits hstep (by simp [hphase])
      cases hmove with
      | stayed => exact Or.inl hholds
      | carried _ => exact Or.inl (Consumer.holds_iff.mpr ⟨message, hphase, rfl⟩)
      | committed hcommitting =>
          rw [hphase] at hcommitting
          cases hcommitting
      | stopped _ hidle =>
          by_cases hcrash : a = .crash
          · subst hcrash
            -- the partition is taken from its consumer
            right
            cases hwork : (c.world.handlers[q.call]?).any (·.phase.jobId.isSome) with
            | false => exact Or.inr rfl
            | true => exact Or.inl (by simp [takes, hq, hholds, hwork])
          · exact absurd hphase (hidle hcrash message)

end Places

/-- **No more calls are at work than the topic has partitions**, but for those whose
partition was taken from their consumer while they were.  A consumer has one record in
hand at a time, also over restarts and deliveries that come twice. -/
theorem calls_at_work_le (decode : List UInt8 → Except String JobMessage)
    (encode : JobMessage → List UInt8) (now : Time) (n : Nat) (as : List ClusterAction) :
    Runs.HoldsAlong (Runs.logged (step decode encode) takes)
      (fun p => p.1.world.handlers.countP (·.phase.jobId.isSome) ≤ n + p.2.length)
      (empty now n, []) as := by
  have hempty : (empty now n).Placed n [] :=
    ⟨by simp [empty], fun i hd hhd => by simp [empty, World.empty] at hhd⟩
  have hplaced : Runs.HoldsAlong (Runs.logged (step decode encode) takes)
      (fun p => p.1.Placed n p.2) (empty now n, []) as :=
    Runs.logged_holdsAlong placed_step hempty as
  refine hplaced.mono ?_
  rintro ⟨c, log⟩ hs
  have hplaces : c.world.handlers.countP (·.phase.jobId.isSome) ≤
      (c.consumers.map Consumer.call ++ log).length := by
    -- a call at work is at the place that its consumer has noted, or the log
    refine Tally.countP_le_of_places ?_
    intro i hd hhd hwork
    rcases hs.working i hd hhd hwork with ⟨q, hq, hholds⟩ | hlog
    · obtain ⟨_, _, rfl⟩ := Consumer.holds_iff.mp hholds
      exact List.mem_append_left _ (List.mem_map_of_mem hq)
    · exact List.mem_append_right _ hlog
  rw [List.length_append, List.length_map, hs.length] at hplaces
  exact hplaces

/-! ## Jobs that get lost -/

/-- The id a request was answered with. -/
def answeredWith (sub : Submission) : Option Uuid :=
  match sub.phase with
  | .returned (.ok j) => some j
  | _ => none

/-- What is left of job `1`, whose request came first. -/
structure Remains where
  /-- The id its request was answered with. -/
  acknowledged : Option Uuid
  status : Option RunStatus
  /-- How many rows the outbox holds. -/
  outbox : Nat
  /-- Whether a call is at work. -/
  working : Bool
  /-- How far each partition is committed, and how long it is. -/
  partitions : List (Nat × Nat)
  deriving DecidableEq

def remains (c : Cluster) : Remains where
  acknowledged := (c.world.submissions[0]?).bind answeredWith
  status := (c.world.row 1).map JobRow.status
  outbox := c.world.db.outbox.rows.length
  working := c.world.handlers.any (·.phase.jobId.isSome)
  partitions := c.consumers.map fun q => (q.partition.committed, q.partition.log.length)

/-- An acknowledged job is stranded that shows no verdict and no heartbeat, when the outbox
is empty, nobody is at work and everything is committed. -/
private theorem strands_of_remains {as : List ClusterAction} {status : RunStatus} {m : Nat}
    (hend : (Runs.exec (step JobMessage.fromSlice JobMessage.toVec) (empty 0 1) as).map remains =
      some ⟨some 1, some status, 0, false, [(m, m)]⟩)
    (hopen : status.isTerminal = false) (hidle : status ≠ .running) :
    ¬ Runs.HoldsAlong (step JobMessage.fromSlice JobMessage.toVec)
      (AttendsAcknowledged JobMessage.toVec fun q o => o ∉ q.settled ∧ q.partition.committed ≤ o)
      (empty 0 1) as := by
  intro h
  obtain ⟨c, hrun, hc⟩ := Option.map_eq_some_iff.mp hend
  simp only [remains, Remains.mk.injEq] at hc
  obtain ⟨hsub, hrow, hout, hwork, hconsumers⟩ := hc
  obtain ⟨sub, hmem, hphase⟩ := Option.bind_eq_some_iff.mp hsub
  have hanswered : sub.phase = .returned (.ok 1) := by
    unfold answeredWith at hphase
    split at hphase <;> cases hphase
    assumption
  obtain ⟨r, hr, hcase⟩ := h.final hrun sub (List.mem_of_getElem? hmem) 1 hanswered
  rw [hr] at hrow
  have hstatus : r.status = status := Option.some_inj.mp hrow
  rcases hcase with hterm | ⟨q, hq, o, ⟨message, hrecord, _⟩, _, hahead⟩ | ⟨i, hd, hhd, hjob, _⟩ |
    ⟨e, he, _⟩ | ⟨hrunning, _⟩
  · rw [hstatus, hopen] at hterm
    cases hterm
  · -- every record of the partition is behind the committed offset
    have hpair : (q.partition.committed, q.partition.log.length) ∈ [(m, m)] := by
      rw [← hconsumers]
      exact List.mem_map_of_mem hq
    simp only [List.mem_singleton, Prod.mk.injEq] at hpair
    obtain ⟨bytes, hbytes, _⟩ := Option.map_eq_some_iff.mp hrecord
    have hlt := (List.getElem?_eq_some_iff.mp hbytes).1
    omega
  · have hnot := List.any_eq_false.mp hwork hd (List.mem_of_getElem? hhd)
    rw [hjob] at hnot
    exact hnot rfl
  · rw [List.eq_nil_of_length_eq_zero hout] at he
    cases he
  · exact hidle (hstatus ▸ hrunning)

/-- Jobs `1` and `2` are submitted; the database is away when the record of job `1` is
taken, and back for that of job `2`, which is executed and committed. -/
def overtakenJob : List ClusterAction :=
  (Action.submit 0 1 ++ Action.submit 1 2).map (.system · 0) ++
    [.start 0 "worker-1" (.ok ()), .receive 0,
      .system (.handler 0 (.select (.failed "connection refused"))) 0, .handle 0, .receive 0] ++
    (Action.start 1 5 ++ Action.answer 1).map (.system · 0) ++
    [.handle 0, .loop 0 (.commit (.ok ())), .loop 0 (.carryOut 0)]

/-- Job `1` was acknowledged, and nothing is left that brings it on: a commit alone has
stranded it. -/
theorem commit_strands_job :
    Runs.StepsMeet (step JobMessage.fromSlice JobMessage.toVec) (FailsCovered JobMessage.fromSlice)
        (empty 0 1) overtakenJob ∧
      ¬ Runs.HoldsAlong (step JobMessage.fromSlice JobMessage.toVec)
        (AttendsAcknowledged JobMessage.toVec fun q o => o ∉ q.settled ∧ q.partition.committed ≤ o)
        (empty 0 1) overtakenJob :=
  ⟨by decide +kernel,
    @strands_of_remains _ .accepted 2 (by decide +kernel) rfl nofun⟩

/-- Worker-1 has selected job `1` when its partition is given to worker-2, which executes
the job and commits its record.  Then the first call queues the job once more, and dies. -/
def lateJob : List ClusterAction :=
  (Action.submit 0 1).map (.system · 0) ++
    [.start 0 "worker-1" (.ok ()), .receive 0, .system (.handler 0 (.select .ok)) 0,
      .loop 0 .crash, .start 0 "worker-2" (.ok ()), .receive 0] ++
    (Action.start 1 5 ++ Action.answer 1).map (.system · 0) ++
    [.handle 0, .loop 0 (.commit (.ok ())), .loop 0 (.carryOut 0),
      .system (.handler 0 (.queue .ok)) 0, .system (.handler 0 .crash) 0]

/-- Job `1` was acknowledged and executed, and nothing is left that brings it on: a failure
behind the loss of the partition alone has stranded it. -/
theorem late_failure_strands_job :
    Runs.StepsMeet (step JobMessage.fromSlice JobMessage.toVec) CommitsBeforeRetry (empty 0 1)
        lateJob ∧
      ¬ Runs.HoldsAlong (step JobMessage.fromSlice JobMessage.toVec)
        (AttendsAcknowledged JobMessage.toVec fun q o => o ∉ q.settled ∧ q.partition.committed ≤ o)
        (empty 0 1) lateJob :=
  ⟨by decide +kernel,
    @strands_of_remains _ .queued 1 (by decide +kernel) rfl nofun⟩

end Cluster

end EditorBack
