import Mathlib.Data.List.Basic

/-!
# What comes before what

`Heralded P Q l` says that every entry of the list with `Q` has one with `P`
somewhere before it.  A list is built by `cons` and by append, and the rules follow
these: `heralded_cons` looks at the first entry, `heralded_append` at the first part,
after which everything is heralded once it has an entry with `P`.
-/

namespace EventOrder

variable {α β : Type} {P Q : α → Prop}

/-- Every entry with `Q` has one with `P` before it. -/
def Heralded (P Q : α → Prop) (l : List α) : Prop :=
  ∀ before e after, l = before ++ e :: after → Q e → ∃ d ∈ before, P d

theorem heralded_nil : Heralded P Q [] := by
  intro before e after hl
  simp at hl

/-- The first entry may not have `Q`; once it has `P`, the others may. -/
theorem heralded_cons {x : α} {l : List α} :
    Heralded P Q (x :: l) ↔ ¬ Q x ∧ (P x ∨ Heralded P Q l) := by
  constructor
  · intro h
    refine ⟨?_, ?_⟩
    · intro hx
      obtain ⟨d, hd, _⟩ := h [] x l rfl hx
      cases hd
    · by_cases hx : P x
      · exact Or.inl hx
      · refine Or.inr ?_
        rintro before e after rfl he
        obtain ⟨d, hd, hP⟩ := h (x :: before) e after rfl he
        rcases List.mem_cons.mp hd with rfl | hd
        · exact absurd hP hx
        · exact ⟨d, hd, hP⟩
  · rintro ⟨hx, hrest⟩ before e after hl he
    cases before with
    | nil =>
        cases hl
        exact absurd he hx
    | cons y before =>
        obtain ⟨rfl, rfl⟩ := List.cons.inj hl
        rcases hrest with hP | hrest
        · exact ⟨x, List.mem_cons_self, hP⟩
        · obtain ⟨d, hd, hP⟩ := hrest before e after rfl he
          exact ⟨d, List.mem_cons_of_mem _ hd, hP⟩

/-- Behind a part with an entry with `P`, everything is heralded. -/
theorem heralded_append {l₁ l₂ : List α} :
    Heralded P Q (l₁ ++ l₂) ↔ Heralded P Q l₁ ∧ ((∃ d ∈ l₁, P d) ∨ Heralded P Q l₂) := by
  induction l₁ with
  | nil => simp [heralded_nil]
  | cons x l₁ ih =>
      rw [List.cons_append, heralded_cons, heralded_cons, ih, List.exists_mem_cons_iff]
      by_cases hP : P x
      · simp [hP]
      · simp [hP, and_assoc]

/-- Without an entry with `Q` there is nothing to herald. -/
theorem heralded_of_not {l : List α} (h : ∀ e ∈ l, ¬ Q e) : Heralded P Q l := by
  rintro before e after rfl he
  exact absurd he (h e (by simp))

theorem heralded_of_filterMap {f : α → Option β} {l : List α} (h : l.filterMap f = []) :
    Heralded P (fun e => f e ≠ none) l :=
  heralded_of_not fun e he => not_not.mpr (List.filterMap_eq_nil_iff.mp h e he)

/-- Parts without an entry with `Q` may be put around a list. -/
theorem Heralded.framed {front l back : List α} (h : Heralded P Q l)
    (hfront : ∀ e ∈ front, ¬ Q e) (hback : ∀ e ∈ back, ¬ Q e) :
    Heralded P Q (front ++ l ++ back) := by
  refine heralded_append.mpr ⟨heralded_append.mpr ⟨?_, Or.inr h⟩, Or.inr ?_⟩
  · exact heralded_of_not hfront
  · exact heralded_of_not hback

/-- What comes first heralds everything behind it. -/
theorem heralded_of_first {front l : List α} (hfront : ∀ e ∈ front, ¬ Q e)
    (hfirst : ∃ d ∈ front, P d) : Heralded P Q (front ++ l) :=
  heralded_append.mpr ⟨heralded_of_not hfront, Or.inl hfirst⟩

theorem heralded_map {f : β → α} {l : List β} :
    Heralded P Q (l.map f) ↔ Heralded (fun x => P (f x)) (fun x => Q (f x)) l := by
  induction l with
  | nil => exact iff_of_true heralded_nil heralded_nil
  | cons x l ih => rw [List.map_cons, heralded_cons, heralded_cons, ih]

end EventOrder
