import Mathlib.Data.List.Basic

/-!
# Fenced leases

A lease on one resource is granted under a fresh token, renewed and finally
released by whoever presents that token, and may be revoked from outside.  A
new grant replaces the old one without asking.  What the fence promises is
that a token which is presented successfully is the token in force.

Histories are lists of events, newest first.  `inForce` reads off the current
grant; `Fenced` are the histories in which every grant uses a token not
granted before and every renewal or release presents the token in force.  The
consequences used below: the grant in force is the most recent one and nothing
but renewals happened since (`inForce_split`), and a released token is never
used again (`Fenced.unreleased_before_use`).
-/

namespace FencedLease

/-- What happens to a lease, for tokens in `τ` and owners in `ω`. -/
inductive Event (τ ω : Type)
  | grant (token : τ) (owner : ω)
  | renew (token : τ)
  | release (token : τ)
  | revoke

variable {τ ω : Type}

/-- The grant in force after a history. -/
def inForce : List (Event τ ω) → Option (τ × ω)
  | [] => none
  | .grant t w :: _ => some (t, w)
  | .renew _ :: es => inForce es
  | .release _ :: _ => none
  | .revoke :: _ => none

/-- The token was granted at some point of the history. -/
def Granted (t : τ) (es : List (Event τ ω)) : Prop :=
  ∃ w, Event.grant t w ∈ es

/-- The histories a fence allows. -/
inductive Fenced : List (Event τ ω) → Prop
  | nil : Fenced []
  | grant {es : List (Event τ ω)} {t : τ} {w : ω}
      (past : Fenced es) (fresh : ¬ Granted t es) : Fenced (.grant t w :: es)
  | renew {es : List (Event τ ω)} {t : τ} {w : ω}
      (past : Fenced es) (held : inForce es = some (t, w)) : Fenced (.renew t :: es)
  | release {es : List (Event τ ω)} {t : τ} {w : ω}
      (past : Fenced es) (held : inForce es = some (t, w)) : Fenced (.release t :: es)
  | revoke {es : List (Event τ ω)} (past : Fenced es) : Fenced (.revoke :: es)

/-- The grant in force is the most recent grant, and only renewals happened
since. -/
theorem inForce_split {es : List (Event τ ω)} {t : τ} {w : ω}
    (h : inForce es = some (t, w)) :
    ∃ since before, es = since ++ .grant t w :: before ∧
      ∀ e ∈ since, ∃ t', e = .renew t' := by
  induction es with
  | nil => cases h
  | cons e es ih =>
      cases e with
      | grant t' w' =>
          cases h
          exact ⟨[], es, rfl, by simp⟩
      | renew t' =>
          obtain ⟨since, before, rfl, hsince⟩ := ih h
          refine ⟨.renew t' :: since, before, rfl, ?_⟩
          intro e he
          rcases List.mem_cons.mp he with rfl | he
          · exact ⟨t', rfl⟩
          · exact hsince e he
      | release t' => cases h
      | revoke => cases h

/-- The token in force was granted. -/
theorem granted_of_inForce {es : List (Event τ ω)} {t : τ} {w : ω}
    (h : inForce es = some (t, w)) : Granted t es := by
  obtain ⟨since, before, rfl, _⟩ := inForce_split h
  exact ⟨w, by simp⟩

/-- The past of a fenced history is fenced. -/
theorem Fenced.past {newer older : List (Event τ ω)}
    (h : Fenced (newer ++ older)) : Fenced older := by
  induction newer with
  | nil => exact h
  | cons e newer ih =>
      cases h with
      | grant past _ => exact ih past
      | renew past _ => exact ih past
      | release past _ => exact ih past
      | revoke past => exact ih past

/-- Only granted tokens are ever released. -/
theorem Fenced.granted_of_release {es : List (Event τ ω)} {t : τ}
    (h : Fenced es) (hrel : Event.release t ∈ es) : Granted t es := by
  obtain ⟨newer, older, rfl⟩ := List.append_of_mem hrel
  cases h.past with
  | release past held =>
      obtain ⟨w, hw⟩ := granted_of_inForce held
      exact ⟨w, by simp [hw]⟩

/-- **A release ends its token.**  While a token is in force it has never been
released. -/
theorem Fenced.not_released_of_inForce {es : List (Event τ ω)} {t : τ} {w : ω}
    (h : Fenced es) (hforce : inForce es = some (t, w)) : Event.release t ∉ es := by
  obtain ⟨since, before, rfl, hsince⟩ := inForce_split hforce
  intro hrel
  rcases List.mem_append.mp hrel with hrel | hrel
  · obtain ⟨t', ht'⟩ := hsince _ hrel
    cases ht'
  · have hrel' : Event.release t ∈ before := by simpa using hrel
    cases h.past with
    | grant past fresh => exact fresh (past.granted_of_release hrel')

/-- **Presented tokens are in force.**  Wherever a fenced history renews or
releases a token, that token was the one in force. -/
theorem Fenced.inForce_of_use {newer older : List (Event τ ω)} {e : Event τ ω} {t : τ}
    (h : Fenced (newer ++ e :: older)) (he : e = .renew t ∨ e = .release t) :
    ∃ w, inForce older = some (t, w) := by
  rcases he with rfl | rfl
  · cases h.past with
    | renew _ held => exact ⟨_, held⟩
  · cases h.past with
    | release _ held => exact ⟨_, held⟩

/-- **A released token is never used again.**  A token that is renewed or
released had not been released before; in particular it is released at most
once. -/
theorem Fenced.unreleased_before_use {newer older : List (Event τ ω)} {e : Event τ ω} {t : τ}
    (h : Fenced (newer ++ e :: older)) (he : e = .renew t ∨ e = .release t) :
    Event.release t ∉ older := by
  obtain ⟨w, hforce⟩ := h.inForce_of_use he
  have hpast : Fenced (([e] : List (Event τ ω)) ++ older) := h.past
  exact hpast.past.not_released_of_inForce hforce

end FencedLease
