import EditorBack.FencedLease
import EditorBack.RowSteps

/-!
# Results are fenced by the lease token

The history of a row, read as the history of one lease: a `try_start` grants
it, a `heartbeat` renews it, a `finish` releases it and a reset revokes it.
`RowStep.fenced` is the refinement: whatever the statements do, this lease
history is fenced, and the row's `lock_token` and `worker_id` are the grant in
force.  Nothing here looks at the status, which may say anything.
-/

namespace EditorBack

open FencedLease (Event inForce Granted Fenced)

/-- What an event means for the lease on its row. -/
def JobEvent.leaseEvent : JobEvent → Option (Event Uuid String)
  | .started token workerId _ => some (.grant token workerId)
  | .renewed token _ => some (.renew token)
  | .finished token _ => some (.release token)
  | .reset => some .revoke
  | .inserted _ | .queued | .marked | .refused _ => none

/-- The history of the lease on a row. -/
def leaseHistory (es : List JobEvent) : List (Event Uuid String) :=
  es.filterMap JobEvent.leaseEvent

/-- The event is nothing to the lease, or renews it. -/
def JobEvent.keepsLease : JobEvent → Bool
  | .started _ _ _ | .finished _ _ | .reset => false
  | .inserted _ | .queued | .marked | .renewed _ _ | .refused _ => true

/-- The event is a `finish` or a `heartbeat` that succeeded with the token. -/
def JobEvent.presents (token : Uuid) : JobEvent → Bool
  | .finished t _ | .renewed t _ => t == token
  | _ => false

/-- The most recent `try_start` granted `token` to `workerId`, and since then
no reset and no `finish` has happened. -/
def HeldSince (token : Uuid) (workerId : String) (es : List JobEvent) : Prop :=
  ∃ newer time older, es = newer ++ .started token workerId time :: older ∧
    ∀ e ∈ newer, e.keepsLease = true

@[simp] theorem leaseHistory_append (es es' : List JobEvent) :
    leaseHistory (es ++ es') = leaseHistory es ++ leaseHistory es' :=
  List.filterMap_append

/-- A lease in force is the grant of the most recent `try_start`. -/
theorem heldSince_of_inForce {es : List JobEvent} {token : Uuid} {workerId : String}
    (h : inForce (leaseHistory es) = some (token, workerId)) : HeldSince token workerId es := by
  induction es with
  | nil => cases h
  | cons e es ih =>
      -- an event that keeps the lease goes in front of what keeps it already
      have hkeep : e.keepsLease = true → HeldSince token workerId es →
          HeldSince token workerId (e :: es) := by
        intro he hheld
        obtain ⟨newer, time, older, rfl, hnewer⟩ := hheld
        refine ⟨e :: newer, time, older, rfl, ?_⟩
        intro e' he'
        rcases List.mem_cons.mp he' with rfl | he'
        · exact he
        · exact hnewer e' he'
      cases e with
      | started t w time =>
          cases h
          exact ⟨[], time, es, rfl, by simp⟩
      | finished t args => cases h
      | reset => cases h
      | inserted r => exact hkeep rfl (ih h)
      | queued => exact hkeep rfl (ih h)
      | marked => exact hkeep rfl (ih h)
      | renewed t time => exact hkeep rfl (ih h)
      | refused t => exact hkeep rfl (ih h)

/-- A `finish` in the history is a release in the lease history. -/
theorem release_mem_leaseHistory {es : List JobEvent} {token : Uuid} {args : FinishArgs}
    (h : .finished token args ∈ es) : Event.release token ∈ leaseHistory es :=
  List.mem_filterMap.mpr ⟨_, h, rfl⟩

/-! ## The row refines the lease -/

/-- A row's lease columns against its history, with the tokens issued so far. -/
structure RowFenced (tokens : List Uuid) (r? : Option JobRow) (es : List JobEvent) : Prop where
  fenced : Fenced (leaseHistory es)
  issued : ∀ t, Granted t (leaseHistory es) → t ∈ tokens
  unborn : r? = none → leaseHistory es = []
  token : ∀ r, r? = some r → r.lockToken = (inForce (leaseHistory es)).map Prod.fst
  worker : ∀ r, r? = some r → ∀ t w, inForce (leaseHistory es) = some (t, w) →
    r.workerId = some w

section Refinement

variable {tokens : List Uuid} {r : JobRow} {es : List JobEvent}

/-- A row held by a token has that token in force. -/
theorem RowFenced.inForce_of_heldBy {t : Uuid} (h : RowFenced tokens (some r) es)
    (hheld : r.heldBy t = true) : ∃ w, inForce (leaseHistory es) = some (t, w) := by
  have htoken := h.token r rfl
  rw [(JobRow.heldBy_iff.mp hheld).2] at htoken
  obtain ⟨⟨t', w⟩, hforce, rfl⟩ := Option.map_eq_some_iff.mp htoken.symm
  exact ⟨w, hforce⟩

/-- A rewrite that leaves the lease columns and the lease alone. -/
theorem RowFenced.rewrite {tokens' : List Uuid} {r' : JobRow} {e : JobEvent}
    (h : RowFenced tokens (some r) es) (hsub : ∀ t ∈ tokens, t ∈ tokens')
    (he : e.leaseEvent = none) (htoken : r'.lockToken = r.lockToken)
    (hworker : r'.workerId = r.workerId) : RowFenced tokens' (some r') (e :: es) := by
  have hsame : leaseHistory (e :: es) = leaseHistory es := List.filterMap_cons_none he
  refine ⟨?_, ?_, by simp, ?_, ?_⟩
  · rw [hsame]
    exact h.fenced
  · rw [hsame]
    exact fun t ht => hsub t (h.issued t ht)
  · intro r₁ hr₁
    cases hr₁
    rw [hsame, htoken]
    exact h.token r rfl
  · intro r₁ hr₁ t w hforce
    cases hr₁
    rw [hsame] at hforce
    rw [hworker]
    exact h.worker r rfl t w hforce

/-- A rewrite that is an event `ev` of the lease, which the fence allows. -/
theorem RowFenced.leased {tokens' : List Uuid} {r' : JobRow} {e : JobEvent}
    {ev : Event Uuid String} (h : RowFenced tokens (some r) es)
    (hsub : ∀ t ∈ tokens, t ∈ tokens') (he : e.leaseEvent = some ev)
    (hfenced : Fenced (ev :: leaseHistory es)) (hgrant : ∀ t w, ev = .grant t w → t ∈ tokens')
    (htoken : r'.lockToken = (inForce (ev :: leaseHistory es)).map Prod.fst)
    (hworker : ∀ t w, inForce (ev :: leaseHistory es) = some (t, w) → r'.workerId = some w) :
    RowFenced tokens' (some r') (e :: es) := by
  have hcons : leaseHistory (e :: es) = ev :: leaseHistory es := List.filterMap_cons_some he
  refine ⟨?_, ?_, nofun, ?_, ?_⟩
  · rw [hcons]
    exact hfenced
  · rw [hcons]
    intro t ht
    obtain ⟨w, hw⟩ := ht
    rcases List.mem_cons.mp hw with heq | hold
    · exact hgrant t w heq.symm
    · exact hsub t (h.issued t ⟨w, hold⟩)
  · intro r₁ hr₁
    cases hr₁
    rw [hcons]
    exact htoken
  · intro r₁ hr₁ t w hforce
    cases hr₁
    rw [hcons] at hforce
    exact hworker t w hforce

end Refinement

/-- **Every statement respects the fence.** -/
theorem RowStep.fenced {now : Time} {before after : List Uuid} {r? r?' : Option JobRow}
    {events es : List JobEvent} (h : RowStep now before after r? r?' events)
    (hsub : ∀ t ∈ before, t ∈ after) (hf : RowFenced before r? es) :
    RowFenced after r?' (events ++ es) := by
  cases h with
  | idle => exact ⟨hf.fenced, fun t ht => hsub t (hf.issued t ht), hf.unborn, hf.token, hf.worker⟩
  | insert job _ =>
      have hnil : leaseHistory ([.inserted (.new now job)] ++ es) = [] := hf.unborn rfl
      refine ⟨?_, ?_, by simp, ?_, ?_⟩
      · rw [hnil]
        exact .nil
      · rw [hnil]
        intro t ht
        obtain ⟨w, hw⟩ := ht
        cases hw
      · intro r hr
        cases hr
        rw [hnil]
        rfl
      · intro r _ t w hforce
        rw [hnil] at hforce
        cases hforce
  | queue r => exact hf.rewrite hsub rfl rfl rfl
  | mark r => exact hf.rewrite hsub rfl rfl rfl
  | start r token workerId _ hfresh hissued =>
      have hnew : ¬ Granted token (leaseHistory es) :=
        fun hgranted => hfresh (hf.issued token hgranted)
      refine hf.leased hsub rfl (.grant hf.fenced hnew) ?_ rfl ?_
      · intro t w heq
        cases heq
        exact hissued
      · intro t w hforce
        cases hforce
        rfl
  | renew r token hheld =>
      obtain ⟨w, hforce⟩ := hf.inForce_of_heldBy hheld
      exact hf.leased hsub rfl (.renew hf.fenced hforce) nofun (hf.token r rfl) (hf.worker r rfl)
  | finish r token args hheld _ =>
      obtain ⟨w, hforce⟩ := hf.inForce_of_heldBy hheld
      exact hf.leased hsub rfl (.release hf.fenced hforce) nofun rfl nofun
  | reset r _ => exact hf.leased hsub rfl (.revoke hf.fenced) nofun rfl nofun
  | refuse r? token _ _ =>
      exact ⟨hf.fenced, fun t ht => hsub t (hf.issued t ht), hf.unborn, hf.token, hf.worker⟩

/-! ## What the fence promises -/

/-- The fence on one row, in terms of what happened to it. -/
structure LeaseFencing (r? : Option JobRow) (es : List JobEvent) : Prop where
  /-- who finishes or renews holds the most recent grant, and has not stored a
  result before -/
  presented : ∀ newer e older token, es = newer ++ e :: older → e.presents token = true →
    (∃ workerId, HeldSince token workerId older) ∧ ∀ args, .finished token args ∉ older
  /-- the token on the row is the most recent grant, and the worker its owner -/
  stamped : ∀ r token, r? = some r → r.lockToken = some token →
    ∃ workerId, HeldSince token workerId es ∧ r.workerId = some workerId

theorem RowFenced.leaseFencing {tokens : List Uuid} {r? : Option JobRow} {es : List JobEvent}
    (h : RowFenced tokens r? es) : LeaseFencing r? es := by
  constructor
  · intro newer e older token heq hpresents
    subst heq
    obtain ⟨ev, hev, huse⟩ :
        ∃ ev, e.leaseEvent = some ev ∧ (ev = .renew token ∨ ev = .release token) := by
      cases e <;> simp [JobEvent.presents] at hpresents
      case renewed t time =>
        subst hpresents
        exact ⟨_, rfl, Or.inl rfl⟩
      case finished t args =>
        subst hpresents
        exact ⟨_, rfl, Or.inr rfl⟩
    have hfenced : Fenced (leaseHistory newer ++ ev :: leaseHistory older) := by
      have hsplit : leaseHistory (newer ++ e :: older) =
          leaseHistory newer ++ ev :: leaseHistory older := by
        rw [leaseHistory_append]
        congr 1
        exact List.filterMap_cons_some hev
      rw [← hsplit]
      exact h.fenced
    obtain ⟨workerId, hforce⟩ := hfenced.inForce_of_use huse
    refine ⟨⟨workerId, heldSince_of_inForce hforce⟩, ?_⟩
    intro args hmem
    exact hfenced.unreleased_before_use huse (release_mem_leaseHistory hmem)
  · intro r token hr htoken
    have hrow := h.token r hr
    rw [htoken] at hrow
    obtain ⟨⟨t, workerId⟩, hforce, rfl⟩ := Option.map_eq_some_iff.mp hrow.symm
    exact ⟨workerId, heldSince_of_inForce hforce, h.worker r hr _ _ hforce⟩

namespace World

theorem fenced_empty (now : Time) : (empty now).RowsSatisfy RowFenced := by
  refine RowsSatisfy.empty ?_ now
  exact ⟨.nil, by simp [Granted, leaseHistory], fun _ => rfl, by simp, by simp⟩

theorem fenced_step (s : World) (a : Action) (s' : World) (hs : s.RowsSatisfy RowFenced)
    (h : s.step a = some s') : s'.RowsSatisfy RowFenced :=
  RowsSatisfy.step (fun _ _ _ _ _ _ _ hsub hf hrow => hrow.fenced hsub hf) s a s' hs h

/-- **Results are fenced by the lease token.**  In every state of every run, a
`finish` or `heartbeat` that has succeeded presented the token of the most
recent `try_start`, with no reset and no `finish` in between, and what a row
shows as its token and worker is that most recent grant. -/
theorem results_fenced (now : Time) (as : List Action) :
    Runs.HoldsAlong step (fun s => ∀ j, LeaseFencing (s.row j) (s.history j)) (empty now) as := by
  have hinv := Runs.holdsAlong_of_invariant fenced_step (fenced_empty now) as
  exact hinv.mono (fun s hs j => (hs.rows j).leaseFencing)

end World

end EditorBack
