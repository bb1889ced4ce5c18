import Mathlib.Tactic.Common

/-!
# The cadence of a timer whose ticks wait for replies

A timer ticks at once and then at the multiples of a period after its creation.
Each tick sends a request, which is executed at some moment before its reply comes,
and no tick fires while a request is in flight: one that has become due fires right
after the reply.

With every reply less than `limit` after its request, the next tick fires at most a
period, or less than `limit`, after the last; so the age of the last execution stays
below the larger of the two plus `limit` (`Steady.fresh`).
-/

namespace Cadence

/-- A timer and its request. -/
structure Clock where
  now : Nat
  /-- the creation of the timer -/
  created : Nat
  /-- the number of ticks that have fired -/
  ticks : Nat
  /-- since when a request is in flight -/
  sent : Option Nat
  /-- the request in flight has been executed -/
  executed : Bool
  /-- when a request was last executed -/
  stamp : Option Nat

namespace Clock

/-- A new timer. -/
def start (now : Nat) : Clock :=
  ⟨now, now, 0, none, false, none⟩

section Steps

variable (period : Nat) (c : Clock)

/-- When the next tick is due. -/
def due : Nat :=
  c.created + period * c.ticks

/-- Time passes, but not beyond a tick that can fire. -/
def wait (d : Nat) : Option Clock :=
  if c.sent.isSome ∨ c.now + d ≤ max c.now (c.due period) then some { c with now := c.now + d }
  else none

/-- A due tick fires and sends its request. -/
def tick : Option Clock :=
  if c.sent = none ∧ c.due period ≤ c.now then
    some { c with ticks := c.ticks + 1, sent := some c.now, executed := false }
  else none

/-- The request is executed. -/
def execute : Option Clock :=
  if c.sent.isSome ∧ c.executed = false then some { c with executed := true, stamp := some c.now }
  else none

/-- The reply comes. -/
def reply : Option Clock :=
  if c.sent.isSome ∧ c.executed = true then some { c with sent := none, executed := false }
  else none

end Steps

/-- The request in flight has been under way for less than `limit`. -/
def InTime (limit : Nat) (c : Clock) : Prop :=
  ∀ q, c.sent = some q → c.now < q + limit

instance (limit : Nat) (c : Clock) : Decidable (c.InTime limit) :=
  match h : c.sent with
  | none => .isTrue fun _ hq => nomatch h.symm.trans hq
  | some q => decidable_of_iff (c.now < q + limit) (by simp [InTime, h])

end Clock

open Clock

/-- **What a timer in time keeps.**  `q` is when the request last executed was sent. -/
inductive Steady (period limit : Nat) (c : Clock) : Prop
  /-- nothing has been executed yet -/
  | new (hstamp : c.stamp = none) (hexecuted : c.executed = false)
      (hdue : ∀ q, c.sent = some q → q ≤ c.now ∧ c.due period ≤ q + period)
  | idle {q b : Nat} (hsent : c.sent = none) (hexecuted : c.executed = false)
      (hstamp : c.stamp = some b) (hq : q ≤ b) (hdue : c.due period ≤ q + period)
      (hnow : c.now < q + limit ∨ c.now ≤ c.due period)
  | sent {q q' b : Nat} (hsent : c.sent = some q') (hexecuted : c.executed = false)
      (hstamp : c.stamp = some b) (hq : q ≤ b) (hq' : q' ≤ c.now)
      (hdue : c.due period ≤ q' + period) (hgap : q' < q + limit ∨ q' ≤ q + period)
  | executed {q b : Nat} (hsent : c.sent = some q) (hexecuted : c.executed = true)
      (hstamp : c.stamp = some b) (hq : q ≤ b) (hdue : c.due period ≤ q + period)

section Laws

variable {period limit d : Nat} {c c' : Clock}

/-- Waiting touches nothing but the clock. -/
theorem wait_frame (h : c.wait period d = some c') :
    c'.executed = c.executed ∧ c'.stamp = c.stamp := by
  unfold Clock.wait at h
  split at h <;> cases h
  exact ⟨rfl, rfl⟩

theorem tick_frame (h : c.tick period = some c') :
    c'.now = c.now ∧ c'.executed = false ∧ c'.stamp = c.stamp := by
  unfold Clock.tick at h
  split at h <;> cases h
  exact ⟨rfl, rfl, rfl⟩

theorem execute_frame (h : c.execute = some c') :
    c'.now = c.now ∧ c'.executed = true ∧ c'.stamp = some c.now := by
  unfold Clock.execute at h
  split at h <;> cases h
  exact ⟨rfl, rfl, rfl⟩

theorem reply_frame (h : c.reply = some c') :
    c'.now = c.now ∧ c'.executed = false ∧ c'.stamp = c.stamp := by
  unfold Clock.reply at h
  split at h <;> cases h
  exact ⟨rfl, rfl, rfl⟩

theorem steady_start (now : Nat) : Steady period limit (start now) :=
  .new rfl rfl nofun

theorem Steady.wait (hs : Steady period limit c) (h : c.wait period d = some c') :
    Steady period limit c' := by
  unfold Clock.wait at h
  split at h
  · next hguard =>
      cases h
      cases hs with
      | new hstamp hexecuted hdue =>
          refine .new hstamp hexecuted ?_
          intro q hq
          obtain ⟨hle, hperiod⟩ := hdue q hq
          exact ⟨Nat.le_add_right_of_le hle, hperiod⟩
      | idle hsent hexecuted hstamp hq hdue hnow =>
          refine .idle hsent hexecuted hstamp hq hdue ?_
          rw [hsent] at hguard
          simp only [Option.isSome_none, Bool.false_eq_true, false_or] at hguard
          simp only [due] at *
          omega
      | sent hsent hexecuted hstamp hq hq' hdue hgap =>
          exact .sent hsent hexecuted hstamp hq (Nat.le_add_right_of_le hq') hdue hgap
      | executed hsent hexecuted hstamp hq hdue => exact .executed hsent hexecuted hstamp hq hdue
  · cases h

/-- A tick fires when it is due or when the last reply has come, so not later than
either bound allows. -/
theorem Steady.tick (hs : Steady period limit c) (h : c.tick period = some c') :
    Steady period limit c' := by
  unfold Clock.tick at h
  split at h
  · next hguard =>
      cases h
      have hnext : c.created + period * (c.ticks + 1) ≤ c.now + period := by
        have hdue := hguard.2
        simp only [due] at hdue
        rw [Nat.mul_succ]
        omega
      cases hs with
      | new hstamp hexecuted hdue =>
          refine .new hstamp rfl ?_
          intro q hq
          cases hq
          exact ⟨Nat.le_refl _, hnext⟩
      | idle hsent hexecuted hstamp hq hdue hnow =>
          refine .sent rfl rfl hstamp hq (Nat.le_refl _) hnext ?_
          omega
      | sent hsent | executed hsent =>
          rw [hsent] at hguard
          cases hguard.1
  · cases h

theorem Steady.execute (hs : Steady period limit c) (h : c.execute = some c') :
    Steady period limit c' := by
  unfold Clock.execute at h
  split at h
  · next hguard =>
      cases h
      obtain ⟨q, hq⟩ := Option.isSome_iff_exists.mp hguard.1
      have hflight : q ≤ c.now ∧ c.due period ≤ q + period := by
        cases hs with
        | new hstamp hexecuted hdue => exact hdue q hq
        | idle hnone =>
            rw [hnone] at hq
            cases hq
        | sent hsome hexecuted hstamp hq' hle hdue hgap =>
            rw [hsome] at hq
            cases hq
            exact ⟨hle, hdue⟩
        | executed hsome hexecuted =>
            rw [hexecuted] at hguard
            cases hguard.2
      exact .executed hq rfl rfl hflight.1 hflight.2
  · cases h

theorem Steady.reply (hs : Steady period limit c) (htime : c.InTime limit)
    (h : c.reply = some c') : Steady period limit c' := by
  unfold Clock.reply at h
  split at h
  · next hguard =>
      cases h
      cases hs with
      | new hstamp hexecuted | idle _ hexecuted | sent _ hexecuted =>
          rw [hexecuted] at hguard
          cases hguard.2
      | executed hsent hexecuted hstamp hq hdue =>
          exact .idle rfl rfl hstamp hq hdue (Or.inl (htime _ hsent))
  · cases h

/-- **The last execution is fresh**: its age is below the longest gap between two
ticks plus the longest way of a request. -/
theorem Steady.fresh (hs : Steady period limit c) (hlimit : 0 < limit) (htime : c.InTime limit)
    {b : Nat} (hb : c.stamp = some b) : c.now < b + max period limit + limit := by
  cases hs with
  | new hstamp =>
      rw [hstamp] at hb
      cases hb
  | idle hsent hexecuted hstamp hq hdue hnow =>
      rw [hstamp] at hb
      cases hb
      omega
  | sent hsent hexecuted hstamp hq hq' hdue hgap =>
      rw [hstamp] at hb
      cases hb
      have hnow := htime _ hsent
      omega
  | executed hsent hexecuted hstamp hq hdue =>
      rw [hstamp] at hb
      cases hb
      have hnow := htime _ hsent
      omega

end Laws

end Cadence
