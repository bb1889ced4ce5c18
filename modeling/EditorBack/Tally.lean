import Mathlib.Data.List.Basic
import Mathlib.Data.List.Induction
import Mathlib.Data.List.Perm.Subperm

/-!
# Counting the entries of a list

How many entries of a list pass a test, when one of them is replaced, taken out or
added.  The change is the test of that one entry, `one p x`, and the lemmas are
balances without a subtraction, so that the counts of several lists can be added up.
-/

namespace Tally

variable {α : Type} (p : α → Bool)

/-- What one entry counts. -/
def one (x : α) : Nat :=
  (p x).toNat

variable {p}

theorem one_of_true {x : α} (h : p x = true) : one p x = 1 := by
  rw [one, h]
  rfl

theorem one_of_false {x : α} (h : p x = false) : one p x = 0 := by
  rw [one, h]
  rfl

theorem countP_cons (x : α) (l : List α) : (x :: l).countP p = one p x + l.countP p := by
  rw [List.countP_cons, Nat.add_comm, one]
  cases p x <;> rfl

theorem countP_append_one (l : List α) (x : α) : (l ++ [x]).countP p = l.countP p + one p x := by
  rw [List.countP_append, countP_cons, List.countP_nil, Nat.add_zero]

/-- One entry is replaced. -/
theorem countP_set {l : List α} {i : Nat} {x : α} (hi : l[i]? = some x) (y : α) :
    (l.set i y).countP p + one p x = l.countP p + one p y := by
  induction l generalizing i with
  | nil => cases hi
  | cons z l ih =>
      cases i with
      | zero =>
          cases hi
          rw [List.set_cons_zero, countP_cons, countP_cons]
          omega
      | succ i =>
          have hrest := ih hi
          rw [List.set_cons_succ, countP_cons, countP_cons]
          omega

/-- One entry is taken out. -/
theorem countP_eraseIdx {l : List α} {i : Nat} {x : α} (hi : l[i]? = some x) :
    (l.eraseIdx i).countP p + one p x = l.countP p := by
  induction l generalizing i with
  | nil => cases hi
  | cons z l ih =>
      cases i with
      | zero =>
          cases hi
          rw [List.eraseIdx_cons_zero, countP_cons]
          omega
      | succ i =>
          have hrest := ih hi
          rw [List.eraseIdx_cons_succ, countP_cons, countP_cons]
          omega

/-- An entry counts. -/
theorem one_le_countP {l : List α} {x : α} (hx : x ∈ l) : one p x ≤ l.countP p := by
  obtain ⟨i, hi⟩ := List.mem_iff_getElem?.mp hx
  have hrest := countP_eraseIdx (p := p) hi
  omega

/-- What counts, counted by places. -/
theorem length_places (l : List α) :
    ((List.range l.length).filter fun i => (l[i]?).any p).length = l.countP p := by
  induction l using List.reverseRecOn with
  | nil => rfl
  | append_singleton l x ih =>
      have hold : (List.range l.length).filter (fun i => ((l ++ [x])[i]?).any p) =
          (List.range l.length).filter fun i => (l[i]?).any p := by
        apply List.filter_congr
        intro i hi
        rw [List.getElem?_append_left (List.mem_range.mp hi)]
      rw [List.length_append, List.length_singleton, List.range_succ, List.filter_append,
        List.length_append, hold, ih, countP_append_one]
      congr 1
      cases hx : p x <;> simp [one, hx]

/-- **Pigeonhole.**  When every entry that counts is at a place of a list, no more
entries count than the list is long. -/
theorem countP_le_of_places {l : List α} {places : List Nat}
    (h : ∀ (i : Nat) x, l[i]? = some x → p x = true → i ∈ places) :
    l.countP p ≤ places.length := by
  rw [← length_places]
  refine (List.subperm_of_subset (List.nodup_range.filter _) ?_).length_le
  intro i hi
  have hp := (List.mem_filter.mp hi).2
  cases hx : l[i]? with
  | none =>
      rw [hx] at hp
      cases hp
  | some x =>
      rw [hx] at hp
      exact h i x hx hp

end Tally
