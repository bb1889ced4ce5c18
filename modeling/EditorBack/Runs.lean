import Mathlib.Data.List.Basic

/-!
# Runs of a labelled step function

A system is a partial step function `step : σ → α → Option σ`: the action
carries every choice the environment makes, and `none` says that the action
is not enabled.  `exec` runs a list of actions.

Two kinds of statement are made about all runs.  `HoldsAlong P` says that `P`
holds of every state a run passes through, `StepsMeet C` that every step taken
meets `C`.  The rules below reduce either of them to one step: an invariant
gives `HoldsAlong` outright (`holdsAlong_of_invariant`), and when a step
breaks a property exactly where it fails a condition, the property holds along
a run exactly when all its steps meet the condition
(`holdsAlong_iff_stepsMeet`).

`CanReach` is about what a run can still become: some steps that all meet `C` lead
to a state with `Q`.  `canReach_of_rank` finds such steps by a rank that one step
after the other lowers; where every step lowers one, no run goes on for longer than it
is high (`countP_add_rank_le`).

A second system simulates the first when it has a run for each of its steps
(`exec_of_simulation`).
-/

namespace Runs

variable {σ α : Type} (step : σ → α → Option σ)

/-- Run a list of actions. -/
def exec : σ → List α → Option σ
  | s, [] => some s
  | s, a :: as => (step s a).bind (fun s' => exec s' as)

/-- `P` holds of every state of the run, the first one included. -/
def HoldsAlong (P : σ → Prop) : σ → List α → Prop
  | s, [] => P s
  | s, a :: as => P s ∧ ∀ s', step s a = some s' → HoldsAlong P s' as

/-- Every step of the run meets `C`. -/
def StepsMeet (C : σ → α → σ → Prop) : σ → List α → Prop
  | _, [] => True
  | s, a :: as => ∀ s', step s a = some s' → C s a s' ∧ StepsMeet C s' as

/-- A decidable condition can be checked along a run. -/
instance decidableStepsMeet {C : σ → α → σ → Prop} [∀ s a s', Decidable (C s a s')] :
    ∀ s as, Decidable (StepsMeet step C s as)
  | _, [] => inferInstanceAs (Decidable True)
  | s, a :: as =>
      match hs : step s a with
      | none => isTrue (by intro s' hs'; rw [hs] at hs'; cases hs')
      | some s' =>
          have : Decidable (StepsMeet step C s' as) := decidableStepsMeet s' as
          decidable_of_iff (C s a s' ∧ StepsMeet step C s' as) (by
            constructor
            · intro h t ht
              rw [hs] at ht
              cases ht
              exact h
            · intro h
              exact h s' hs)

variable {step}

/-- The state a run ends in is one of its states. -/
theorem HoldsAlong.final {P : σ → Prop} {s s' : σ} {as : List α}
    (h : HoldsAlong step P s as) (hrun : exec step s as = some s') : P s' := by
  induction as generalizing s with
  | nil => cases hrun; exact h
  | cons a as ih =>
      obtain ⟨t, hstep, hrest⟩ := Option.bind_eq_some_iff.mp hrun
      exact ih (h.2 t hstep) hrest

/-- The state a run starts in is one of its states. -/
theorem HoldsAlong.first {P : σ → Prop} {s : σ} {as : List α}
    (h : HoldsAlong step P s as) : P s := by
  cases as with
  | nil => exact h
  | cons a as => exact h.1

/-- A weaker property holds along the same run. -/
theorem HoldsAlong.mono {P Q : σ → Prop} (hPQ : ∀ s, P s → Q s) {s : σ} {as : List α}
    (h : HoldsAlong step P s as) : HoldsAlong step Q s as := by
  induction as generalizing s with
  | nil => exact hPQ s h
  | cons a as ih => exact ⟨hPQ s h.1, fun s' hs => ih (h.2 s' hs)⟩

/-- A step taken last in a run meets what all its steps meet. -/
theorem StepsMeet.last {C : σ → α → σ → Prop} {s t s' : σ} {as : List α} {a : α}
    (h : StepsMeet step C s (as ++ [a])) (hrun : exec step s as = some t)
    (hstep : step t a = some s') : C t a s' := by
  induction as generalizing s with
  | nil => cases hrun; exact (h s' hstep).1
  | cons b as ih =>
      obtain ⟨u, hu, hrest⟩ := Option.bind_eq_some_iff.mp hrun
      exact ih (h u hu).2 hrest

/-- **Invariant rule.**  What every step preserves holds along every run. -/
theorem holdsAlong_of_invariant {Inv : σ → Prop}
    (hstep : ∀ s a s', Inv s → step s a = some s' → Inv s')
    {s : σ} (h0 : Inv s) (as : List α) : HoldsAlong step Inv s as := by
  induction as generalizing s with
  | nil => exact h0
  | cons a as ih => exact ⟨h0, fun s' hs => ih (hstep s a s' h0 hs)⟩

/-- **Conditioned invariant rule.**  An invariant that steps preserve when
they meet `C` holds along every run whose steps all meet `C`. -/
theorem holdsAlong_of_stepsMeet {Inv : σ → Prop} {C : σ → α → σ → Prop}
    (hstep : ∀ s a s', Inv s → step s a = some s' → C s a s' → Inv s')
    {s : σ} (h0 : Inv s) {as : List α} (hC : StepsMeet step C s as) :
    HoldsAlong step Inv s as := by
  induction as generalizing s with
  | nil => exact h0
  | cons a as ih =>
      exact ⟨h0, fun s' hs => ih (hstep s a s' h0 hs (hC s' hs).1) (hC s' hs).2⟩

/-- **Invariant rule, for steps.**  What an invariant gives of one step is met by
every step of every run. -/
theorem stepsMeet_of_invariant {Inv : σ → Prop} {C : σ → α → σ → Prop}
    (hinv : ∀ s a s', Inv s → step s a = some s' → Inv s')
    (hstep : ∀ s a s', Inv s → step s a = some s' → C s a s')
    {s : σ} (h0 : Inv s) (as : List α) : StepsMeet step C s as := by
  induction as generalizing s with
  | nil => trivial
  | cons a as ih =>
      intro s' hs
      exact ⟨hstep s a s' h0 hs, ih (hinv s a s' h0 hs)⟩

/-- What an invariant and a condition give of one step is met by every step of
a run whose steps meet the condition. -/
theorem StepsMeet.of_holdsAlong {Inv : σ → Prop} {C D : σ → α → σ → Prop}
    (hstep : ∀ s a s', Inv s → step s a = some s' → C s a s' → D s a s')
    {s : σ} {as : List α} (hInv : HoldsAlong step Inv s as) (hC : StepsMeet step C s as) :
    StepsMeet step D s as := by
  induction as generalizing s with
  | nil => trivial
  | cons a as ih =>
      intro s' hs
      exact ⟨hstep s a s' hInv.1 hs (hC s' hs).1, ih (hInv.2 s' hs) (hC s' hs).2⟩

/-- **Exactness rule, for states.**  When a step from a state with `P` keeps
`P` exactly if it meets `C`, then `P` holds along a run exactly if all its
steps meet `C`. -/
theorem holdsAlong_iff_stepsMeet {Inv P : σ → Prop} {C : σ → α → σ → Prop}
    (hinv : ∀ s a s', Inv s → step s a = some s' → Inv s')
    (hexact : ∀ s a s', Inv s → P s → step s a = some s' → (P s' ↔ C s a s'))
    {s : σ} (h0 : Inv s) (hP : P s) (as : List α) :
    HoldsAlong step P s as ↔ StepsMeet step C s as := by
  induction as generalizing s with
  | nil => exact ⟨fun _ => trivial, fun _ => hP⟩
  | cons a as ih =>
      constructor
      · intro h s' hs
        have hrest := h.2
        have hP' : P s' := (hrest s' hs).first
        exact ⟨(hexact s a s' h0 hP hs).mp hP',
          (ih (hinv s a s' h0 hs) hP').mp (hrest s' hs)⟩
      · intro hC
        refine ⟨hP, fun s' hs => ?_⟩
        have hP' : P s' := (hexact s a s' h0 hP hs).mpr (hC s' hs).1
        exact (ih (hinv s a s' h0 hs) hP').mpr (hC s' hs).2

/-- **Exactness rule, for steps.**  Under an invariant, two conditions that
agree on every step are met by the same runs. -/
theorem stepsMeet_iff {Inv : σ → Prop} {C D : σ → α → σ → Prop}
    (hinv : ∀ s a s', Inv s → step s a = some s' → Inv s')
    (hexact : ∀ s a s', Inv s → step s a = some s' → (C s a s' ↔ D s a s'))
    {s : σ} (h0 : Inv s) (as : List α) :
    StepsMeet step C s as ↔ StepsMeet step D s as := by
  induction as generalizing s with
  | nil => exact Iff.rfl
  | cons a as ih =>
      constructor <;> intro h s' hs
      · exact ⟨(hexact s a s' h0 hs).mp (h s' hs).1,
          (ih (hinv s a s' h0 hs)).mp (h s' hs).2⟩
      · exact ⟨(hexact s a s' h0 hs).mpr (h s' hs).1,
          (ih (hinv s a s' h0 hs)).mpr (h s' hs).2⟩

/-! ## What a run can still reach -/

section Reach

/-- Some steps that all meet `C` lead from here to a state with `Q`. -/
inductive CanReach (step : σ → α → Option σ) (C : σ → α → σ → Prop) (Q : σ → Prop) : σ → Prop
  | here {s : σ} (hQ : Q s) : CanReach step C Q s
  | next {s s' : σ} {a : α} (hs : step s a = some s') (hC : C s a s')
      (hrest : CanReach step C Q s') : CanReach step C Q s

variable {C : σ → α → σ → Prop} {Q : σ → Prop}

/-- **Rank rule.**  If from every state with `Inv` either `Q` can be reached or a
step lowers the rank and keeps `Inv`, then `Q` can be reached. -/
theorem canReach_of_rank {Inv : σ → Prop} (rank : σ → Nat)
    (hstep : ∀ s, Inv s → CanReach step C Q s ∨
      ∃ a s', step s a = some s' ∧ C s a s' ∧ Inv s' ∧ rank s' < rank s)
    {s : σ} (h : Inv s) : CanReach step C Q s := by
  induction hn : rank s using Nat.strongRecOn generalizing s with
  | _ n ih =>
      rcases hstep s h with hreach | ⟨a, s', hs, hC, hInv, hlt⟩
      · exact hreach
      · exact .next hs hC (ih (rank s') (by omega) hInv rfl)

/-- **Rank rule, for every run.**  When the steps that count lower a rank and the others
do not raise it, a run takes no more counting steps than the rank it starts at. -/
theorem countP_add_rank_le {Inv : σ → Prop} {counts : α → Bool} {rank : σ → Nat}
    (hinv : ∀ s a s', Inv s → step s a = some s' → Inv s')
    (hrank : ∀ s a s', Inv s → step s a = some s' → rank s' + (counts a).toNat ≤ rank s)
    {s s' : σ} {as : List α} (h0 : Inv s) (hrun : exec step s as = some s') :
    as.countP counts + rank s' ≤ rank s := by
  induction as generalizing s with
  | nil =>
      cases hrun
      simp
  | cons a as ih =>
      obtain ⟨t, hstep, hrest⟩ := Option.bind_eq_some_iff.mp hrun
      have htail := ih (hinv s a t h0 hstep) hrest
      have hhead := hrank s a t h0 hstep
      have hone : (if counts a = true then 1 else 0) = (counts a).toNat := by
        cases counts a <;> rfl
      rw [List.countP_cons]
      omega

end Reach

/-! ## Parts of a run -/

/-- A run goes on where another has ended. -/
theorem exec_append {s t u : σ} {as bs : List α} (h : exec step s as = some t)
    (h' : exec step t bs = some u) : exec step s (as ++ bs) = some u := by
  induction as generalizing s with
  | nil =>
      cases h
      exact h'
  | cons a as ih =>
      obtain ⟨s', hstep, hrest⟩ := Option.bind_eq_some_iff.mp h
      exact Option.bind_eq_some_iff.mpr ⟨s', hstep, ih hrest⟩

/-- A run can be cut anywhere. -/
theorem exec_split {s u : σ} {as bs : List α} (h : exec step s (as ++ bs) = some u) :
    ∃ t, exec step s as = some t ∧ exec step t bs = some u := by
  induction as generalizing s with
  | nil => exact ⟨s, rfl, h⟩
  | cons a as ih =>
      obtain ⟨s', hstep, hrest⟩ := Option.bind_eq_some_iff.mp h
      obtain ⟨t, has, hbs⟩ := ih hrest
      exact ⟨t, Option.bind_eq_some_iff.mpr ⟨s', hstep, has⟩, hbs⟩

/-- **Invariant rule, with the history.**  A property of the actions so far and the state
they lead to, kept by each further step, holds at the end of every run. -/
theorem exec_invariant {P : List α → σ → Prop}
    (hstep : ∀ as t a t', P as t → step t a = some t' → P (as ++ [a]) t') {s t : σ}
    {front as : List α} (h0 : P front s) (hrun : exec step s as = some t) : P (front ++ as) t := by
  induction as generalizing s front with
  | nil =>
      cases hrun
      simpa using h0
  | cons a as ih =>
      obtain ⟨s', hs, hrest⟩ := Option.bind_eq_some_iff.mp hrun
      simpa using ih (hstep front s a s' h0 hs) hrest

/-! ## Simulation -/

section Simulation

variable {τ β : Type} {step' : τ → β → Option τ} {R : σ → τ → Prop}

/-- **Forward simulation.**  When every step of one system is, under `R`, some run of
another, then every run of the first is a run of the second. -/
theorem exec_of_simulation
    (hsim : ∀ s a s' t, R s t → step s a = some s' → ∃ bs t', exec step' t bs = some t' ∧ R s' t')
    {s s' : σ} {t : τ} (h0 : R s t) {as : List α} (hrun : exec step s as = some s') :
    ∃ bs t', exec step' t bs = some t' ∧ R s' t' := by
  induction as generalizing s t with
  | nil =>
      cases hrun
      exact ⟨[], t, rfl, h0⟩
  | cons a as ih =>
      obtain ⟨u, hstep, hrest⟩ := Option.bind_eq_some_iff.mp hrun
      obtain ⟨bs, v, hbs, hv⟩ := hsim s a u t h0 hstep
      obtain ⟨cs, t', hcs, ht'⟩ := ih hv hrest
      exact ⟨bs ++ cs, t', exec_append hbs hcs, ht'⟩

end Simulation

/-! ## Runs with a log -/

section Logged

variable {β : Type} (step) (emit : σ → α → List β)

/-- The system that also keeps what its steps emit, newest first. -/
def logged (s : σ × List β) (a : α) : Option (σ × List β) :=
  (step s.1 a).map (fun s' => (s', emit s.1 a ++ s.2))

variable {step emit}

/-- **Invariant rule, with a log.**  A property of states and logs that every
step preserves, given what it emits, holds along every run with its log. -/
theorem logged_holdsAlong {Inv : σ → List β → Prop}
    (hstep : ∀ s log a s', Inv s log → step s a = some s' → Inv s' (emit s a ++ log))
    {s : σ} (h0 : Inv s []) (as : List α) :
    HoldsAlong (logged step emit) (fun p => Inv p.1 p.2) (s, []) as := by
  have hlogged : ∀ (p : σ × List β) a p', Inv p.1 p.2 → logged step emit p a = some p' →
      Inv p'.1 p'.2 := by
    intro p a p' hp hs
    obtain ⟨s', hs', rfl⟩ := Option.map_eq_some_iff.mp hs
    exact hstep p.1 p.2 a s' hp hs'
  exact holdsAlong_of_invariant hlogged h0 as

end Logged

end Runs
