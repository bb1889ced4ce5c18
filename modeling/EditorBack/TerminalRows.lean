import EditorBack.RowSteps

/-!
# Finished jobs

A row with a verdict is coherent: its result columns are the arguments of its
most recent `finish`, nobody has taken the row since, and it is not locked.
No statement but `finish` writes a verdict, and what a `finish` writes it
writes together, so the fact survives every interleaving.

Whether a verdict stays is another matter.  `get_and_queued` and
`update_status` rewrite the status of any row, a finished one included.
`finishStays_iff_sparesVerdicts` shows that this is the only leak: results stay
along a run exactly if none of the two ever writes to a finished row.
-/

namespace EditorBack

/-- The columns no statement rewrites. -/
def JobRow.identity (r : JobRow) : Uuid × String × String × Time :=
  (r.id, r.code, r.language, r.createdAt)

/-- The event is a successful `finish`, or a `try_start` that took the row. -/
def JobEvent.isVerdictOrStart : JobEvent → Bool
  | .finished _ _ | .started _ _ _ => true
  | _ => false

/-- The most recent `finish` stored `args`, and no `try_start` came after it. -/
def RestsOn (args : FinishArgs) (es : List JobEvent) : Prop :=
  ∃ newer token older, es = newer ++ .finished token args :: older ∧
    ∀ e ∈ newer, e.isVerdictOrStart = false

/-- The results stored so far, newest first. -/
def storedResults : List JobEvent → List FinishArgs
  | [] => []
  | .finished _ args :: es => args :: storedResults es
  | _ :: es => storedResults es

theorem RestsOn.cons {args : FinishArgs} {es : List JobEvent} (h : RestsOn args es)
    {e : JobEvent} (he : e.isVerdictOrStart = false) : RestsOn args (e :: es) := by
  obtain ⟨newer, token, older, rfl, hnewer⟩ := h
  refine ⟨e :: newer, token, older, rfl, ?_⟩
  intro e' he'
  rcases List.mem_cons.mp he' with rfl | he'
  · exact he
  · exact hnewer e' he'

theorem mem_storedResults {args : FinishArgs} {es : List JobEvent} :
    args ∈ storedResults es ↔ ∃ token, .finished token args ∈ es := by
  induction es with
  | nil => simp [storedResults]
  | cons e es ih =>
      cases e <;> simp [storedResults, ih]
      case finished token args' =>
        constructor
        · intro h
          rcases h with rfl | ⟨t, ht⟩
          · exact ⟨token, Or.inl ⟨rfl, rfl⟩⟩
          · exact ⟨t, Or.inr ht⟩
        · intro h
          obtain ⟨t, ⟨_, rfl⟩ | ht⟩ := h
          · exact Or.inl rfl
          · exact Or.inr ⟨t, ht⟩

/-- The result a row rests on is a stored one. -/
theorem RestsOn.mem_storedResults {args : FinishArgs} {es : List JobEvent}
    (h : RestsOn args es) : args ∈ storedResults es := by
  obtain ⟨newer, token, older, rfl, _⟩ := h
  exact EditorBack.mem_storedResults.mpr ⟨token, by simp⟩

/-! ## Coherence -/

/-- A row against its history. -/
structure JobRow.Coherent (r : JobRow) (es : List JobEvent) : Prop where
  result : r.status.isTerminal = true → RestsOn r.result es
  unlocked : r.status.isTerminal = true → r.lockToken = none ∧ r.lockedAt = none
  inserted : ∃ r₀, (∀ r₁, .inserted r₁ ∈ es ↔ r₁ = r₀) ∧ r.identity = r₀.identity

/-- Coherence of what is stored under an id, which may be nothing. -/
def RowCoherent : Option JobRow → List JobEvent → Prop
  | none, es => ∀ r, .inserted r ∉ es
  | some r, es => r.Coherent es

/-- A rewrite that leaves a row without a verdict keeps it coherent. -/
theorem JobRow.Coherent.rewrite {r r' : JobRow} {e : JobEvent} {es : List JobEvent}
    (h : r.Coherent es) (hbusy : r'.status.isTerminal = false)
    (hid : r'.identity = r.identity) (he : ∀ r₁, e ≠ .inserted r₁) : r'.Coherent (e :: es) := by
  obtain ⟨r₀, honly, hr₀⟩ := h.inserted
  refine ⟨?_, ?_, r₀, ?_, hid.trans hr₀⟩
  · intro hterm
    rw [hbusy] at hterm
    cases hterm
  · intro hterm
    rw [hbusy] at hterm
    cases hterm
  · intro r₁
    rw [List.mem_cons, honly r₁]
    constructor
    · intro hmem
      rcases hmem with heq | hold
      · exact absurd heq.symm (he r₁)
      · exact hold
    · exact Or.inr

/-- **No statement breaks coherence.** -/
theorem RowStep.coherent {now : Time} {before after : List Uuid} {r? r?' : Option JobRow}
    {events es : List JobEvent} (h : RowStep now before after r? r?' events)
    (hc : RowCoherent r? es) : RowCoherent r?' (events ++ es) := by
  cases h with
  | idle => exact hc
  | insert job haccepted =>
      refine ⟨?_, ?_, .new now job, ?_, rfl⟩
      · intro hterm
        simp [JobRow.new, haccepted, RunStatus.isTerminal] at hterm
      · intro _
        exact ⟨rfl, rfl⟩
      · intro r₁
        have hnone : .inserted r₁ ∉ es := hc r₁
        simp [hnone]
  | queue r => exact hc.rewrite rfl rfl (by simp)
  | start r token workerId _ _ _ => exact hc.rewrite rfl rfl (by simp)
  | mark r => exact hc.rewrite rfl rfl (by simp)
  | renew r token hheld =>
      have hrunning : r.status = .running := (JobRow.heldBy_iff.mp hheld).1
      refine hc.rewrite ?_ rfl (by simp)
      change r.status.isTerminal = false
      rw [hrunning]
      rfl
  | finish r token args hheld hterminal =>
      obtain ⟨r₀, honly, hr₀⟩ := hc.inserted
      refine ⟨?_, ?_, r₀, ?_, hr₀⟩
      · intro _
        exact ⟨[], token, es, rfl, by simp⟩
      · intro _
        exact ⟨rfl, rfl⟩
      · intro r₁
        simpa using honly r₁
  | reset r _ => exact hc.rewrite rfl rfl (by simp)
  | refuse r? token _ _ =>
      cases r? with
      | none =>
          intro r hr
          exact hc r (by simpa using hr)
      | some r =>
          obtain ⟨r₀, honly, hr₀⟩ := hc.inserted
          refine ⟨?_, hc.unlocked, r₀, ?_, hr₀⟩
          · intro hterm
            exact (hc.result hterm).cons rfl
          · intro r₁
            simpa using honly r₁

namespace World

/-- Every row is coherent. -/
def Coherent (s : World) : Prop :=
  s.RowsSatisfy (fun _ => RowCoherent)

theorem Coherent.empty (now : Time) : (World.empty now).Coherent :=
  RowsSatisfy.empty (by intro r; simp) now

theorem Coherent.step (s : World) (a : Action) (s' : World) (hs : s.Coherent)
    (h : s.step a = some s') : s'.Coherent :=
  RowsSatisfy.step (fun _ _ _ _ _ _ _ _ hc hrow => hrow.coherent hc) s a s' hs h

/-- **Terminal rows are coherent.**  Whatever the interleaving, a row with a
verdict carries exactly what its last `finish` stored, has not been taken
since and is unlocked, and no row ever changes what it was inserted as. -/
theorem terminal_rows_coherent (now : Time) (as : List Action) :
    Runs.HoldsAlong step
      (fun s => ∀ j r, s.row j = some r → r.Coherent (s.history j)) (empty now) as := by
  have hinv := Runs.holdsAlong_of_invariant Coherent.step (Coherent.empty now) as
  refine hinv.mono ?_
  intro s hs j r hr
  have hrow : RowCoherent (s.row j) (s.history j) := hs.rows j
  rw [hr] at hrow
  exact hrow

/-! ## Verdicts that stay -/

end World

/-- Every verdict stored for a row is still what the row shows. -/
def RowStays (r? : Option JobRow) (es : List JobEvent) : Prop :=
  ∀ args ∈ storedResults es, args.status.isTerminal = true →
    ∃ r, r? = some r ∧ r.result = args

/-- A row without a verdict has never been given one, if verdicts stay. -/
theorem RowStays.no_verdict {r : JobRow} {es : List JobEvent} (h : RowStays (some r) es)
    (hbusy : r.status.isTerminal = false) {args : FinishArgs} (hargs : args ∈ storedResults es) :
    args.status.isTerminal = false := by
  by_contra hne
  have hterm : args.status.isTerminal = true := by simpa using hne
  obtain ⟨r', hr', rfl⟩ := h args hargs hterm
  cases hr'
  have hstatus : r.status.isTerminal = true := hterm
  rw [hbusy] at hstatus
  cases hstatus

/-- Rewriting a row without a verdict leaves nothing to keep. -/
theorem RowStays.of_busy {r : JobRow} {r?' : Option JobRow} {es es' : List JobEvent}
    (h : RowStays (some r) es) (hbusy : r.status.isTerminal = false)
    (hsame : storedResults es' = storedResults es) : RowStays r?' es' := by
  intro args hargs hterm
  rw [hsame] at hargs
  rw [h.no_verdict hbusy hargs] at hterm
  cases hterm

/-- A status write keeps verdicts exactly if it finds none. -/
private theorem rowStays_withStatus {r : JobRow} {status : RunStatus} {es es' : List JobEvent}
    (hc : r.Coherent es) (hp : RowStays (some r) es) (hstatus : status.isTerminal = false)
    (hsame : storedResults es' = storedResults es) :
    RowStays (some (r.withStatus status)) es' ↔ r.status.isTerminal = false := by
  constructor
  · intro hstay
    by_contra hne
    have hterm : r.status.isTerminal = true := by simpa using hne
    -- the verdict the row shows has been stored, and the write replaces it
    have hmem : r.result ∈ storedResults es' := by
      rw [hsame]
      exact (hc.result hterm).mem_storedResults
    obtain ⟨r', hr', hresult⟩ := hstay r.result hmem hterm
    cases hr'
    have heq : status = r.status := congrArg FinishArgs.status hresult
    rw [heq, hterm] at hstatus
    cases hstatus
  · intro hbusy
    exact hp.of_busy hbusy hsame

section Stays

variable {now : Time} {before after : List Uuid} {r? r?' : Option JobRow}
  {events es : List JobEvent}

/-- **A guarded statement keeps the verdicts of a row.** -/
theorem RowStep.stays (h : RowStep now before after r? r?' events) (hp : RowStays r? es)
    (hqueued : events ≠ [.queued]) (hmarked : events ≠ [.marked]) :
    RowStays r?' (events ++ es) := by
  have hrunning : ∀ {r : JobRow}, r.status = .running → r.status.isTerminal = false := by
    intro r hr
    rw [hr]
    rfl
  cases h with
  | idle => exact hp
  | refuse => exact hp
  | insert job _ =>
      intro args hargs hterm
      obtain ⟨r, hr, _⟩ := hp args hargs hterm
      cases hr
  | queue r => exact absurd rfl hqueued
  | start r token workerId hguard _ _ =>
      rcases JobRow.startable_iff.mp hguard with hs | ⟨hs, _⟩
      · exact hp.of_busy (by rw [hs]; rfl) rfl
      · exact hp.of_busy (hrunning hs) rfl
  | mark r => exact absurd rfl hmarked
  | renew r token hheld => exact hp.of_busy (hrunning (JobRow.heldBy_iff.mp hheld).1) rfl
  | finish r token args hheld _ =>
      have hbusy := hrunning (JobRow.heldBy_iff.mp hheld).1
      intro args' hargs' hterm
      rcases List.mem_cons.mp hargs' with rfl | hold
      · exact ⟨_, rfl, rfl⟩
      · rw [hp.no_verdict hbusy hold] at hterm
        cases hterm
  | reset r hstale => exact hp.of_busy (hrunning (JobRow.stale_iff.mp hstale).1) rfl

/-- **One step keeps the verdicts of a row exactly if it is no status write to
a finished row.** -/
theorem RowStep.stays_iff (h : RowStep now before after r? r?' events)
    (hc : RowCoherent r? es) (hp : RowStays r? es) :
    RowStays r?' (events ++ es) ↔
      ∀ r, r? = some r → r.status.isTerminal = true →
        events ≠ [.queued] ∧ events ≠ [.marked] := by
  by_cases hqueued : events = [.queued]
  · subst hqueued
    cases h with
    | queue r =>
        apply (rowStays_withStatus hc hp rfl rfl).trans
        simp
  · by_cases hmarked : events = [.marked]
    · subst hmarked
      cases h with
      | mark r =>
          apply (rowStays_withStatus hc hp rfl rfl).trans
          simp
    · exact iff_of_true (h.stays hp hqueued hmarked) (fun _ _ _ => ⟨hqueued, hmarked⟩)

end Stays

namespace World

/-- Every verdict a `finish` has stored is still what its row shows. -/
def FinishStays (s : World) : Prop :=
  ∀ j, RowStays (s.row j) (s.history j)

/-- The step is no unguarded status write to a row that shows a verdict. -/
def SparesVerdicts (s : World) (a : Action) (_ : World) : Prop :=
  ∀ j status, s.statusWrite a = some (j, status) →
    ∀ r, s.row j = some r → r.status.isTerminal = false

/-- A step spares the verdicts exactly if no history shows a status write to a
row that has one. -/
private theorem sparesVerdicts_iff {s s' : World} {a : Action} (h : s.step a = some s') :
    SparesVerdicts s a s' ↔ ∀ j r, s.row j = some r → r.status.isTerminal = true →
      s'.history j ≠ .queued :: s.history j ∧ s'.history j ≠ .marked :: s.history j := by
  constructor
  · intro hspare j r hr hterm
    have hbusy : ∀ status, s.statusWrite a ≠ some (j, status) := by
      intro status hw
      rw [hspare j status hw r hr] at hterm
      cases hterm
    constructor
    · intro hhist
      exact hbusy _ ((history_status_iff h rfl).mp hhist).1
    · intro hhist
      exact hbusy _ ((history_status_iff h rfl).mp hhist).1
  · intro hclean j status hw r hr
    by_contra hne
    obtain ⟨hqueued, hmarked⟩ := hclean j r hr (by simpa using hne)
    have hrow : (s.row j).isSome = true := by rw [hr]; rfl
    rcases (statusWrite_cases hw).2 with rfl | rfl
    · exact hqueued ((history_status_iff h rfl).mpr ⟨hw, hrow⟩)
    · exact hmarked ((history_status_iff h rfl).mpr ⟨hw, hrow⟩)

/-- **Verdicts stay exactly as long as nobody writes a status over them.**
Along any run, the results that were stored are still shown in every state
reached if and only if no step of the run writes a status to a finished row. -/
theorem finishStays_iff_sparesVerdicts (now : Time) (as : List Action) :
    Runs.HoldsAlong step FinishStays (empty now) as ↔
      Runs.StepsMeet step SparesVerdicts (empty now) as := by
  refine Runs.holdsAlong_iff_stepsMeet Coherent.step ?_ (Coherent.empty now) ?_ as
  · intro s a s' hs hp h
    rw [sparesVerdicts_iff h]
    refine forall_congr' fun j => ?_
    obtain ⟨events, hhist, hrow⟩ := step_row h hs.sound j
    rw [hhist, hrow.stays_iff (hs.rows j) (hp j)]
    simp only [ne_eq, append_eq_cons]
  · intro j args hargs
    cases hargs

/-- A worker finishes job `7`; the message is delivered once more and a second
call of `handle_message` begins. -/
def redelivery : List Action :=
  Action.submit 0 7 ++ [.deliver 0 "worker-1" true] ++ Action.start 0 100 ++ Action.answer 0 ++
    [.deliver 0 "worker-2" false, .handler 1 (.select .ok), .handler 1 (.queue .ok)]

/-- The second call turns the stored `Success` back into `Queued`. -/
theorem redelivery_unfinishes : ¬ Runs.HoldsAlong step FinishStays (empty 0) redelivery := by
  intro h
  have hend : (Runs.exec step (empty 0) redelivery).map
      (fun s => (storedResults (s.history 7), (s.row 7).map JobRow.result)) =
      some ([⟨.success, some "hello", some "", some 0⟩],
        some ⟨.queued, some "hello", some "", some 0⟩) := by decide
  obtain ⟨s, hrun, hs⟩ := Option.map_eq_some_iff.mp hend
  obtain ⟨hstored, hshown⟩ := Prod.mk.inj hs
  obtain ⟨r, hr, hresult⟩ := h.final hrun 7 ⟨.success, some "hello", some "", some 0⟩
    (by simp [hstored]) rfl
  rw [hr, Option.map_some, hresult] at hshown
  cases hshown

end World

end EditorBack
