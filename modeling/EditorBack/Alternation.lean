import Mathlib.Data.List.Basic

/-!
# Alternation

A use needs a grant of its own: in a history, newest first, no two uses stand
without a grant between them.  `armed` says that the most recent of the two is
a grant; a history alternates if every use in it finds it armed.

From this step-by-step rule follow the two statements about whole histories:
between any two uses there is a grant (`Alternates.separated`), and there are
at most as many uses as grants (`Alternates.count_le`).
-/

namespace Alternation

variable {α : Type} (grant use : α → Bool)

/-- There is a grant, and no use came after the most recent one. -/
def armed : List α → Bool
  | [] => false
  | e :: es => grant e || (!use e && armed es)

/-- Every use came when the history was armed. -/
inductive Alternates : List α → Prop
  | nil : Alternates []
  | cons {e : α} {es : List α} (past : Alternates es)
      (hused : use e = true → armed grant use es = true) : Alternates (e :: es)

variable {grant use}

/-- The past of an alternating history alternates. -/
theorem Alternates.past {newer older : List α} (h : Alternates grant use (newer ++ older)) :
    Alternates grant use older := by
  induction newer with
  | nil => exact h
  | cons e newer ih =>
      cases h with
      | cons past _ => exact ih past

/-- Since a use, a history is armed by a grant. -/
theorem exists_grant_of_armed {mid older : List α} {e : α} (huse : use e = true)
    (hgrant : grant e = false) (h : armed grant use (mid ++ e :: older) = true) :
    ∃ g ∈ mid, grant g = true := by
  induction mid with
  | nil => simp [armed, huse, hgrant] at h
  | cons m mid ih =>
      by_cases hm : grant m = true
      · exact ⟨m, List.mem_cons_self, hm⟩
      · have hrest : armed grant use (mid ++ e :: older) = true := by
          simp only [List.cons_append, armed, Bool.or_eq_true, Bool.and_eq_true] at h
          rcases h with hg | hrest
          · exact absurd hg hm
          · exact hrest.2
        obtain ⟨g, hg, htrue⟩ := ih hrest
        exact ⟨g, List.mem_cons_of_mem _ hg, htrue⟩

/-- **Between any two uses there is a grant.** -/
theorem Alternates.separated (hdisj : ∀ e, use e = true → grant e = false)
    {newer mid older : List α} {u v : α}
    (h : Alternates grant use (newer ++ u :: (mid ++ v :: older)))
    (hu : use u = true) (hv : use v = true) : ∃ g ∈ mid, grant g = true := by
  cases h.past with
  | cons _ hused => exact exists_grant_of_armed hv (hdisj v hv) (hused hu)

/-- One of the grants is still unused while the history is armed. -/
private theorem Alternates.count_add_le (hdisj : ∀ e, use e = true → grant e = false)
    {es : List α} (h : Alternates grant use es) :
    es.countP use + (armed grant use es).toNat ≤ es.countP grant := by
  induction h with
  | nil => simp [armed]
  | @cons e es _ hused ih =>
      rw [List.countP_cons, List.countP_cons, armed]
      cases hg : grant e with
      | true =>
          have hu : use e = false := by
            cases hu : use e with
            | false => rfl
            | true =>
                rw [hdisj e hu] at hg
                cases hg
          simp only [hu, Bool.true_or, Bool.toNat_true, if_true, Bool.false_eq_true, if_false]
          omega
      | false =>
          cases hu : use e with
          | true =>
              rw [hused hu] at ih
              simpa using ih
          | false => simpa using ih

/-- **There are at most as many uses as grants.** -/
theorem Alternates.count_le (hdisj : ∀ e, use e = true → grant e = false)
    {es : List α} (h : Alternates grant use es) : es.countP use ≤ es.countP grant := by
  have hle := h.count_add_le hdisj
  omega

end Alternation
