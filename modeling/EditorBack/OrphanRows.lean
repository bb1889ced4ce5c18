import EditorBack.Provenance

/-!
# Rows nobody is told about

`run_handle` inserts a row and sends a message for it, in two stores and with
nothing that ties them together.  When it ends between the two, the row stays
`Accepted`: no message names it, the reaper looks at running rows only, and the
outbox, which exists for exactly this purpose on the recovery path, is not
written on this one.  `submissions_leave_no_orphan_iff` shows that the three
ways of ending there are the only ones that leave such a row.
-/

namespace EditorBack

/-- A call that has ended had its inserted row announced, by a message or by an
outbox row. -/
def World.NoOrphan (s : World) : Prop :=
  ∀ sub ∈ s.submissions, sub.isOver = true → ∀ j, sub.inserted = some j →
    j ∈ s.sent ∨ ∃ e ∈ s.db.outbox.rows, e.jobId = j

/-- The step does not end a call between its insertion and its message: by a
lost answer to the `INSERT`, by a failed send or by a crash. -/
def World.CompletesSubmissions (s : World) (a : Action) (_ : World) : Prop :=
  ∀ i sub, s.submissions[i]? = some sub →
    (∀ err job, a = .submission i (.insert (.lost err)) → sub.phase = .inserting job →
      (JobStore.create job s.db).isSome = false) ∧
    (∀ err, a ≠ .submission i (.send (.refused err))) ∧
    (a = .submission i .crash → ∀ msg, sub.phase ≠ .sending msg)

namespace World

/-- Calls insert rows of their own, and send each message once. -/
structure OwnRows (s : World) : Prop where
  provenance : s.Provenance
  fresh : ∀ sub ∈ s.submissions, ∀ job, sub.phase = .inserting job → sub.inserted = none
  unique : ∀ (i i' : Nat) (sub sub' : Submission) (j : Uuid), s.submissions[i]? = some sub →
    s.submissions[i']? = some sub' → sub.inserted = some j → sub'.inserted = some j → i = i'
  unsent : ∀ sub ∈ s.submissions, ∀ msg, sub.phase = .sending msg → msg.jobId ∉ s.sent

theorem ownRows_empty (now : Time) : (empty now).OwnRows := by
  refine ⟨provenance_empty now, ?_, ?_, ?_⟩ <;> simp [empty]

section Steps

variable {s s' : World} {a : Action}

/-- Where the call at an index comes from: it was there already, it has just
been received, or it is the one that moved. -/
inductive SubmissionAt (s : World) (a : Action) (i : Nat) : Submission → Prop
  | kept {sub : Submission} (hsub : s.submissions[i]? = some sub)
      (hother : ∀ input, a ≠ .submission i input) : SubmissionAt s a i sub
  | received (results : Except Nat RunRequest) (id : Uuid) :
      SubmissionAt s a i (.receive results id)
  | moved {input : SubmissionInput} {sub : Submission} {eff : SubmissionEffect}
      (ha : a = .submission i input) (hsub : s.submissions[i]? = some sub)
      (hm : sub.Move s.db input eff) : SubmissionAt s a i eff.submission

private theorem submission_at (h : s.step a = some s') {i : Nat} {sub : Submission}
    (hi : s'.submissions[i]? = some sub) : s.SubmissionAt a i sub := by
  cases step_move h with
  | posted results id =>
      rw [List.getElem?_append] at hi
      split at hi
      · exact .kept hi nofun
      · cases List.mem_singleton.mp (List.mem_of_getElem? hi)
        exact .received results id
  | @submission i' input sub' eff hsub hm =>
      rw [List.getElem?_set] at hi
      split at hi
      · next heq =>
          subst heq
          split at hi
          · cases hi
            exact .moved rfl hsub hm
          · cases hi
      · next hne =>
          apply SubmissionAt.kept hi
          intro input' heq
          cases heq
          exact hne rfl
  | _ => exact .kept hi nofun

/-- A call about to insert has inserted nothing yet. -/
private theorem fresh_step (hs : s.OwnRows) (h : s.step a = some s') {i : Nat} {sub : Submission}
    (hi : s'.submissions[i]? = some sub) {job : Job} (hp : sub.phase = .inserting job) :
    sub.inserted = none := by
  cases submission_at h hi with
  | kept hsub _ => exact hs.fresh sub (List.mem_of_getElem? hsub) job hp
  | received results id => rfl
  | @moved _ sub _ _ hsub hm =>
      cases hm with
      | overCrashed _ => exact hs.fresh sub (List.mem_of_getElem? hsub) job hp
      | _ => cases hp

/-- The id a call inserts now belongs to no other call. -/
private theorem moved_unique (hs : s.OwnRows) {i i' : Nat} {sub sub' : Submission}
    {input : SubmissionInput} {eff : SubmissionEffect} {j : Uuid}
    (hsub : s.submissions[i]? = some sub) (hj : sub.inserted = some j)
    (hsub' : s.submissions[i']? = some sub') (hm : sub'.Move s.db input eff)
    (hj' : eff.submission.inserted = some j) : i = i' := by
  rcases hm.inserted_or hj' with hbefore | ⟨hnone, _⟩
  · exact hs.unique i i' sub sub' j hsub hsub' hj hbefore
  · have hrow := hs.provenance.inserted sub (List.mem_of_getElem? hsub) j hj
    change (s.db.row j).isSome = true at hrow
    rw [hnone] at hrow
    cases hrow

/-- Two calls do not insert under one id. -/
private theorem unique_step (hs : s.OwnRows) (h : s.step a = some s') {i i' : Nat}
    {sub sub' : Submission} {j : Uuid} (hi : s'.submissions[i]? = some sub)
    (hi' : s'.submissions[i']? = some sub') (hj : sub.inserted = some j)
    (hj' : sub'.inserted = some j) : i = i' := by
  cases submission_at h hi with
  | received results id => cases hj
  | kept hsub _ =>
      cases submission_at h hi' with
      | kept hsub' _ => exact hs.unique i i' sub sub' j hsub hsub' hj hj'
      | received results id => cases hj'
      | moved _ hsub' hm => exact moved_unique hs hsub hj hsub' hm hj'
  | moved ha hsub hm =>
      cases submission_at h hi' with
      | kept hsub' _ => exact (moved_unique hs hsub' hj' hsub hm hj).symm
      | received results id => cases hj'
      | moved ha' _ _ =>
          rw [ha] at ha'
          cases ha'
          rfl

/-- A call about to send is the first to send its message. -/
private theorem unsent_step (hs : s.OwnRows) (h : s.step a = some s') {i : Nat}
    {sub : Submission} (hi : s'.submissions[i]? = some sub) {msg : JobMessage}
    (hp : sub.phase = .sending msg) : msg.jobId ∉ s'.sent := by
  intro hmsg
  have horigin := hs.provenance.sent_origin h hmsg
  cases submission_at h hi with
  | received results id => cases results <;> cases hp
  | kept hsub hother =>
      have hmem := List.mem_of_getElem? hsub
      rcases horigin with hold | ⟨i', input, sub', ha, hsub', hphase⟩
      · exact hs.unsent sub hmem msg hp hold
      · -- the call that sends now would have inserted the same row
        have hins := hs.provenance.sending sub hmem msg hp
        have hins' := hs.provenance.sending sub' (List.mem_of_getElem? hsub') _ hphase
        have hsame : i = i' := hs.unique i i' sub sub' _ hsub hsub' hins hins'
        subst hsame
        exact hother input ha
  | @moved input sub _ ha hsub hm =>
      have hmem := List.mem_of_getElem? hsub
      rcases horigin with hold | ⟨i', input', sub', ha', hsub', hphase⟩
      · cases hm with
        | inserted _ hcreate =>
            cases hp
            have hrow := hs.provenance.stored _ hold
            change (s.db.row _).isSome = true at hrow
            rw [JobStore.row_none_of_create hcreate] at hrow
            cases hrow
        | overCrashed _ => exact hs.unsent sub hmem msg hp hold
        | _ => cases hp
      · rw [ha] at ha'
        cases ha'
        rw [hsub] at hsub'
        cases hsub'
        cases hm with
        | inserted hphase' _ =>
            rw [hphase'] at hphase
            cases hphase
        | overCrashed hover => simp [Submission.isOver, hphase] at hover
        | _ => cases hp

end Steps

/-- **Every step keeps the calls to rows of their own.** -/
theorem ownRows_step (s : World) (a : Action) (s' : World) (hs : s.OwnRows)
    (h : s.step a = some s') : s'.OwnRows := by
  refine ⟨provenance_step s a s' hs.provenance h, ?_, ?_, ?_⟩
  · intro sub hsub job hp
    obtain ⟨i, hi⟩ := List.mem_iff_getElem?.mp hsub
    exact fresh_step hs h hi hp
  · intro i i' sub sub' j hi hi' hj hj'
    exact unique_step hs h hi hi' hj hj'
  · intro sub hsub msg hp
    obtain ⟨i, hi⟩ := List.mem_iff_getElem?.mp hsub
    exact unsent_step hs h hi hp

/-- Being announced is having been sent: an outbox row is only ever written for
a job whose message was sent. -/
theorem noOrphan_iff {s : World} (hs : s.Provenance) :
    s.NoOrphan ↔ ∀ sub ∈ s.submissions, sub.isOver = true → ∀ j, sub.inserted = some j →
      j ∈ s.sent := by
  constructor
  · intro h sub hsub hover j hj
    rcases h sub hsub hover j hj with hsent | ⟨e, he, rfl⟩
    · exact hsent
    · exact hs.outboxed e.id e.jobId ⟨e, he, rfl, rfl⟩
  · intro h sub hsub hover j hj
    exact Or.inl (h sub hsub hover j hj)

/-- The call a step is about leaves no orphan exactly if it is not one of the
three ways of ending between insertion and message. -/
private theorem announced_iff {s : World} (hs : s.OwnRows) {sub : Submission}
    (hsub : sub ∈ s.submissions) {input : SubmissionInput} {eff : SubmissionEffect}
    (hm : sub.Move s.db input eff)
    (hp : sub.isOver = true → ∀ j, sub.inserted = some j → j ∈ s.sent) :
    (eff.submission.isOver = true → ∀ j, eff.submission.inserted = some j →
      j ∈ eff.accepted.toList.map JobMessage.jobId ++ s.sent) ↔
    (∀ err job, input = .insert (.lost err) → sub.phase = .inserting job →
      (JobStore.create job s.db).isSome = false) ∧
    (∀ err, input ≠ .send (.refused err)) ∧
    (input = .crash → ∀ msg, sub.phase ≠ .sending msg) := by
  cases hm with
  | inserted _ _ =>
      refine iff_of_true ?_ (by simp)
      intro hover
      cases hover
  | @insertLost job db' err hphase hcreate =>
      refine iff_of_false ?_ ?_
      · intro hann
        have hrow := hs.provenance.stored job.id (by simpa using hann rfl job.id rfl)
        change (s.db.row job.id).isSome = true at hrow
        rw [JobStore.row_none_of_create hcreate] at hrow
        cases hrow
      · intro hcond
        have hnone := hcond.1 err job rfl hphase
        rw [hcreate] at hnone
        cases hnone
  | @insertFailed job reply err hphase hnone =>
      refine iff_of_true ?_ ⟨?_, by simp, by simp⟩
      · intro _ j hj
        cases hj
      · intro err' job' hinput hphase'
        cases hinput
        rw [hphase] at hphase'
        cases hphase'
        rw [hnone rfl]
        rfl
  | @acked msg hphase =>
      refine iff_of_true ?_ (by simp)
      intro _ j hj
      have hins : sub.inserted = some j := hj
      rw [hs.provenance.sending sub hsub msg hphase] at hins
      cases hins
      simp
  | @unacked msg err hphase =>
      refine iff_of_true ?_ (by simp)
      intro _ j hj
      have hins : sub.inserted = some j := hj
      rw [hs.provenance.sending sub hsub msg hphase] at hins
      cases hins
      simp
  | @refused msg err hphase =>
      refine iff_of_false ?_ ?_
      · intro hann
        have hsent := hann rfl msg.jobId (hs.provenance.sending sub hsub msg hphase)
        exact hs.unsent sub hsub msg hphase (by simpa using hsent)
      · intro hcond
        exact hcond.2.1 err rfl
  | crashed hactive =>
      cases hphase : sub.phase with
      | inserting job =>
          refine iff_of_true ?_ (by simp)
          intro _ j hj
          have hins : sub.inserted = some j := hj
          rw [hs.fresh sub hsub job hphase] at hins
          cases hins
      | sending msg =>
          refine iff_of_false ?_ (by simp)
          intro hann
          have hsent := hann rfl msg.jobId (hs.provenance.sending sub hsub msg hphase)
          exact hs.unsent sub hsub msg hphase (by simpa using hsent)
      | returned result => simp [Submission.isOver, hphase] at hactive
      | crashed => simp [Submission.isOver, hphase] at hactive
  | overCrashed hover =>
      refine iff_of_true ?_ ⟨by simp, by simp, ?_⟩
      · intro _ j hj
        exact hp hover j hj
      · intro _ msg hphase
        simp [Submission.isOver, hphase] at hover

/-- **Submissions leave no orphan exactly if every insertion is followed by its
message.**  Along any run, every row inserted by a call that has ended was
announced if and only if no call was ended between its `INSERT` and its send,
by an error or by a crash. -/
theorem submissions_leave_no_orphan_iff (now : Time) (as : List Action) :
    Runs.HoldsAlong step NoOrphan (empty now) as ↔
      Runs.StepsMeet step CompletesSubmissions (empty now) as := by
  refine Runs.holdsAlong_iff_stepsMeet ownRows_step ?_ (ownRows_empty now) ?_ as
  · intro s a s' hs hp h
    rw [noOrphan_iff (provenance_step s a s' hs.provenance h)]
    rw [noOrphan_iff hs.provenance] at hp
    cases step_move h with
    | @submission i input sub eff hsub hm =>
        have hmem : sub ∈ s.submissions := List.mem_of_getElem? hsub
        have hlt : i < s.submissions.length := (List.getElem?_eq_some_iff.mp hsub).1
        have hiff := announced_iff hs hmem hm (hp sub hmem)
        constructor
        · intro hann i' sub' hsub'
          by_cases hi : i' = i
          · subst hi
            rw [hsub] at hsub'
            cases hsub'
            have hcond := hiff.mp (hann eff.submission (List.mem_set hlt _))
            simpa using hcond
          · simp [Ne.symm hi]
        · intro hcond sub' hsub' hover j hj
          have hann := hiff.mpr (by simpa using hcond i sub hsub)
          rcases List.mem_or_eq_of_mem_set hsub' with hold | rfl
          · exact List.mem_append_right _ (hp sub' hold hover j hj)
          · exact hann hover j hj
    | posted results id =>
        refine iff_of_true ?_ (by simp [CompletesSubmissions])
        intro sub hsub hover j hj
        rcases List.mem_append.mp hsub with hold | hnew
        · exact hp sub hold hover j hj
        · cases List.mem_singleton.mp hnew
          cases hj
    | publisher _ _ =>
        refine iff_of_true ?_ (by simp [CompletesSubmissions])
        intro sub hsub hover j hj
        exact List.mem_append_right _ (hp sub hsub hover j hj)
    | _ => exact iff_of_true hp (by simp [CompletesSubmissions])
  · intro sub hsub
    cases hsub

/-- A request whose row is inserted and whose message Kafka refuses. -/
def refusedSend : List Action :=
  [.post (.ok ⟨"fn main() {}"⟩) 7, .submission 0 (.insert .ok),
    .submission 0 (.send (.refused "broker transport failure"))]

/-- The request is answered with an error, and its row is left behind with
neither message nor outbox row. -/
theorem refused_send_leaves_orphan :
    ¬ Runs.HoldsAlong step NoOrphan (empty 0) refusedSend := by
  intro h
  have hend : (Runs.exec step (empty 0) refusedSend).map
      (fun s => (s.submissions.map (fun sub => (sub.isOver, sub.inserted)), s.sent,
        s.db.outbox.rows.map JobOutbox.jobId)) = some ([(true, some 7)], [], []) := by decide
  obtain ⟨s, hrun, hs⟩ := Option.map_eq_some_iff.mp hend
  simp only [Prod.mk.injEq, List.map_eq_nil_iff, List.map_eq_singleton_iff] at hs
  obtain ⟨⟨sub, hsubs, hover, hinserted⟩, hsent, houtbox⟩ := hs
  rcases h.final hrun sub (by rw [hsubs]; exact List.mem_singleton_self sub) hover 7 hinserted
    with hmem | ⟨e, he, _⟩
  · rw [hsent] at hmem
    cases hmem
  · rw [houtbox] at he
    cases he

end World

end EditorBack
