import Mathlib.Data.List.Basic

/-!
# Loops that end at the first failure

`for x in xs { f(x)? }`: a loop makes one call for each item, in order, and the
first call that fails ends it.  `attempted` are the items it comes to, `result`
is how it ends.  A loop over moments in time leaves the later moments without a
call, and what happens at each of them is `outcomes`: `done` up to the failure
and `idle` from then on.

Everything about such loops is said by the calls before an item: the loop comes
to it if and only if they have all succeeded.
-/

namespace FailFast

variable {α β γ ε : Type} (f : α → Except ε β)

/-- The items the loop comes to. -/
def attempted : List α → List α
  | [] => []
  | x :: xs => x :: if (f x).isOk then attempted xs else []

/-- How the loop ends. -/
def result : List α → Except ε Unit
  | [] => .ok ()
  | x :: xs =>
      match f x with
      | .ok _ => result xs
      | .error err => .error err

/-- What becomes of each item. -/
def outcomes (done idle : α → γ) : List α → List γ
  | [] => []
  | x :: xs => done x :: if (f x).isOk then outcomes done idle xs else xs.map idle

/-- All calls succeed. -/
def allOk (xs : List α) : Bool :=
  xs.all fun x => (f x).isOk

variable {f}

theorem allOk_iff {xs : List α} : allOk f xs = true ↔ ∀ x ∈ xs, (f x).isOk = true :=
  List.all_eq_true

@[simp] theorem allOk_nil : allOk f [] = true := rfl

@[simp] theorem allOk_cons (x : α) (xs : List α) :
    allOk f (x :: xs) = ((f x).isOk && allOk f xs) := rfl

/-- The loop succeeds if all its calls do. -/
theorem isOk_result (xs : List α) : (result f xs).isOk = allOk f xs := by
  induction xs with
  | nil => rfl
  | cons x xs ih =>
      rw [allOk_cons, ← ih, result]
      cases f x <;> rfl

/-- The loop comes to the items in order. -/
theorem attempted_prefix (xs : List α) : attempted f xs <+: xs := by
  induction xs with
  | nil => exact List.prefix_rfl
  | cons x xs ih =>
      simp only [attempted]
      split
      · exact List.prefix_cons_inj x |>.mpr ih
      · exact ⟨xs, rfl⟩

/-- **The loop comes to every item exactly if no call but the last one
fails.** -/
theorem attempted_eq_iff (xs : List α) :
    attempted f xs = xs ↔ ∀ x ∈ xs.dropLast, (f x).isOk = true := by
  induction xs with
  | nil => simp [attempted]
  | cons x xs ih =>
      cases xs with
      | nil => simp [attempted]
      | cons y ys =>
          rw [attempted, List.dropLast_cons_cons]
          by_cases hx : (f x).isOk = true
          · simp [hx, ih]
          · simp [hx]

/-- **A moment has its call exactly if all calls before it succeeded.** -/
theorem getElem?_outcomes (done idle : α → γ) (xs : List α) (n : Nat) :
    (outcomes f done idle xs)[n]? =
      xs[n]?.map fun x => if allOk f (xs.take n) then done x else idle x := by
  induction xs generalizing n with
  | nil => rfl
  | cons x xs ih =>
      cases n with
      | zero => simp [outcomes]
      | succ n =>
          by_cases hx : (f x).isOk = true
          · simp [outcomes, hx, ih]
          · simp [outcomes, hx]

end FailFast
