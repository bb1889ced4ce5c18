import Mathlib.Data.List.Basic

/-!
# Programs as trees of calls

A program that lives off the answers of others is a tree: it returns, it
panics, or it makes a call and goes on according to the answer.  `Run p log out`
says that `p`, given the answers in `log`, makes exactly the calls in `log` and
ends as `out`, `none` being a panic.  A statement about all runs is a statement
about every sequence of answers.

`Reaches p log q` says what is left of `p` after the calls of a log, so that a state
machine can be compared with the program it comes from.

`race` runs one program inside another until it ends or is dropped, as
`select!` does with a cancellation.  A drop may come before the first poll or
while a call is under way, whose answer is then lost.  `Trace` is what a program
has done when it is dropped, and `firstFailure` reads a failure off a log.

`ensuring` runs a clean-up at the end of a program, also when it panics, as a
destructor does, and `onRight` puts a program among calls of another kind.
-/

namespace CallTree

/-- A program that makes calls. -/
inductive Prog (Op : Type) (Ans : Op → Type) (α : Type) : Type
  | ret (a : α)
  | panic
  | call (op : Op) (k : Ans op → Prog Op Ans α)

/-- A call with its answer. -/
structure Event (Op : Type) (Ans : Op → Type) where
  op : Op
  answer : Ans op

namespace Prog

variable {Op : Type} {Ans : Op → Type} {α β : Type}

/-- Go on with the result of a program. -/
def bind : Prog Op Ans α → (α → Prog Op Ans β) → Prog Op Ans β
  | .ret a, f => f a
  | .panic, _ => .panic
  | .call op k, f => .call op fun answer => (k answer).bind f

instance : Monad (Prog Op Ans) where
  pure := .ret
  bind := bind

/-- One call. -/
def perform (op : Op) : Prog Op Ans (Ans op) :=
  .call op .ret

/-- The program makes the calls of the log and ends as `out`. -/
inductive Run : Prog Op Ans α → List (Event Op Ans) → Option α → Prop
  | ret (a : α) : Run (.ret a) [] (some a)
  | panic : Run .panic [] none
  | call {op : Op} {k : Ans op → Prog Op Ans α} {answer : Ans op} {log : List (Event Op Ans)}
      {out : Option α} (h : Run (k answer) log out) : Run (.call op k) (⟨op, answer⟩ :: log) out

section Runs

variable {p : Prog Op Ans α} {f : α → Prog Op Ans β} {log : List (Event Op Ans)}

@[simp] theorem run_pure {a : α} {out : Option α} :
    Run (pure a : Prog Op Ans α) log out ↔ log = [] ∧ out = some a := by
  constructor
  · intro h
    cases h
    exact ⟨rfl, rfl⟩
  · rintro ⟨rfl, rfl⟩
    exact .ret a

@[simp] theorem run_panic {out : Option α} :
    Run (.panic : Prog Op Ans α) log out ↔ log = [] ∧ out = none := by
  constructor
  · intro h
    cases h
    exact ⟨rfl, rfl⟩
  · rintro ⟨rfl, rfl⟩
    exact .panic

theorem run_call {op : Op} {k : Ans op → Prog Op Ans α} {out : Option α} :
    Run (.call op k) log out ↔ ∃ answer rest, log = ⟨op, answer⟩ :: rest ∧ Run (k answer) rest out := by
  constructor
  · intro h
    cases h with
    | call h => exact ⟨_, _, rfl, h⟩
  · rintro ⟨answer, rest, rfl, h⟩
    exact .call h

/-- **A composed run is a run of the first program and one of the second**, or
the first panics. -/
theorem run_bind {out : Option β} :
    Run (p >>= f) log out ↔
      (∃ before after a, log = before ++ after ∧ Run p before (some a) ∧ Run (f a) after out) ∨
        (Run p log none ∧ out = none) := by
  change Run (p.bind f) log out ↔ _
  induction p generalizing log with
  | ret a =>
      constructor
      · intro h
        exact Or.inl ⟨[], log, a, rfl, .ret a, h⟩
      · rintro (⟨before, after, a', rfl, hp, hf⟩ | ⟨hp, _⟩)
        · cases hp
          exact hf
        · cases hp
  | panic =>
      constructor
      · intro h
        obtain ⟨rfl, rfl⟩ := run_panic.mp h
        exact Or.inr ⟨.panic, rfl⟩
      · rintro (⟨before, after, a', rfl, hp, hf⟩ | ⟨hp, rfl⟩)
        · cases hp
        · cases hp
          exact .panic
  | call op k ih =>
      constructor
      · intro h
        obtain ⟨answer, rest, rfl, hrest⟩ := run_call.mp h
        rcases (ih answer).mp hrest with ⟨before, after, a, rfl, hp, hf⟩ | ⟨hp, rfl⟩
        · exact Or.inl ⟨⟨op, answer⟩ :: before, after, a, rfl, .call hp, hf⟩
        · exact Or.inr ⟨.call hp, rfl⟩
      · rintro (⟨before, after, a, rfl, hp, hf⟩ | ⟨hp, rfl⟩)
        · obtain ⟨answer, rest, rfl, hrest⟩ := run_call.mp hp
          exact .call ((ih answer).mpr (Or.inl ⟨rest, after, a, rfl, hrest, hf⟩))
        · obtain ⟨answer, rest, rfl, hrest⟩ := run_call.mp hp
          exact .call ((ih answer).mpr (Or.inr ⟨hrest, rfl⟩))

/-- A program that begins with a call. -/
theorem run_perform_bind {op : Op} {g : Ans op → Prog Op Ans β} {out : Option β} :
    Run (perform op >>= g) log out ↔
      ∃ answer rest, log = ⟨op, answer⟩ :: rest ∧ Run (g answer) rest out :=
  run_call

end Runs

/-- The program ends as `out` for some answers. -/
def CanEnd (p : Prog Op Ans α) (out : Option α) : Prop :=
  ∃ log, Run p log out

section Ends

variable {p : Prog Op Ans α} {f : α → Prog Op Ans β} {out : Option β}

theorem canEnd_pure (a : α) : CanEnd (pure a : Prog Op Ans α) (some a) :=
  ⟨[], .ret a⟩

theorem canEnd_perform_bind (op : Op) (answer : Ans op) {g : Ans op → Prog Op Ans β}
    (h : CanEnd (g answer) out) : CanEnd (perform op >>= g) out := by
  obtain ⟨log, hlog⟩ := h
  exact ⟨⟨op, answer⟩ :: log, .call hlog⟩

theorem CanEnd.bind {a : α} (hp : CanEnd p (some a)) (hf : CanEnd (f a) out) :
    CanEnd (p >>= f) out := by
  obtain ⟨before, hbefore⟩ := hp
  obtain ⟨after, hafter⟩ := hf
  exact ⟨before ++ after, run_bind.mpr (Or.inl ⟨before, after, a, rfl, hbefore, hafter⟩)⟩

end Ends

/-- After the calls of the log, `q` is what is left of the program. -/
inductive Reaches : Prog Op Ans α → List (Event Op Ans) → Prog Op Ans α → Prop
  | nil (p : Prog Op Ans α) : Reaches p [] p
  | call {op : Op} {k : Ans op → Prog Op Ans α} {answer : Ans op} {log : List (Event Op Ans)}
      {q : Prog Op Ans α} (h : Reaches (k answer) log q) :
      Reaches (.call op k) (⟨op, answer⟩ :: log) q

section Rests

variable {p q r : Prog Op Ans α} {log log' : List (Event Op Ans)}

theorem Reaches.of_eq (h : p = q) : Reaches p [] q :=
  h ▸ .nil p

/-- What is left of what is left. -/
theorem Reaches.trans (h : Reaches p log q) (h' : Reaches q log' r) :
    Reaches p (log ++ log') r := by
  induction h with
  | nil _ => exact h'
  | call _ ih => exact .call (ih h')

/-- A program ends as what is left of it does. -/
theorem Reaches.run (h : Reaches p log q) {out : Option α} (hq : Run q log' out) :
    Run p (log ++ log') out := by
  induction h with
  | nil _ => exact hq
  | call _ ih => exact .call (ih hq)

theorem Reaches.returned {a : α} (h : Reaches p log (pure a)) : Run p log (some a) := by
  simpa using h.run (.ret a)

theorem Reaches.panicked (h : Reaches p log .panic) : Run p log none := by
  simpa using h.run .panic

/-- When every call has some answer, every program comes to an end. -/
theorem exists_run [∀ op, Nonempty (Ans op)] (p : Prog Op Ans α) : ∃ log out, Run p log out := by
  induction p with
  | ret a => exact ⟨[], some a, .ret a⟩
  | panic => exact ⟨[], none, .panic⟩
  | call op k ih =>
      obtain ⟨answer⟩ : Nonempty (Ans op) := inferInstance
      obtain ⟨log, out, h⟩ := ih answer
      exact ⟨⟨op, answer⟩ :: log, out, .call h⟩

/-- **What a program has done so far is the beginning of a run.** -/
theorem Reaches.exists_run [∀ op, Nonempty (Ans op)] (h : Reaches p log q) :
    ∃ log' out, Run p (log ++ log') out := by
  obtain ⟨log', out, hq⟩ := Prog.exists_run q
  exact ⟨log', out, h.run hq⟩

end Rests

/-- The program makes the calls of the trace and no others up to there.  The answer
to the last call may be missing. -/
inductive Trace : Prog Op Ans α → List (Event Op fun op => Option (Ans op)) → Prop
  | nil (p : Prog Op Ans α) : Trace p []
  | lost (op : Op) (k : Ans op → Prog Op Ans α) : Trace (.call op k) [⟨op, none⟩]
  | call {op : Op} {k : Ans op → Prog Op Ans α} {answer : Ans op}
      {trace : List (Event Op fun op => Option (Ans op))} (h : Trace (k answer) trace) :
      Trace (.call op k) (⟨op, some answer⟩ :: trace)

section Traces

variable {trace : List (Event Op fun op => Option (Ans op))}

theorem trace_pure {a : α} : Trace (pure a : Prog Op Ans α) trace ↔ trace = [] := by
  constructor
  · intro h
    cases h
    rfl
  · rintro rfl
    exact .nil _

theorem trace_perform_bind {op : Op} {g : Ans op → Prog Op Ans β} :
    Trace (perform op >>= g) trace ↔ trace = [] ∨ trace = [⟨op, none⟩] ∨
      ∃ answer rest, trace = ⟨op, some answer⟩ :: rest ∧ Trace (g answer) rest := by
  constructor
  · intro h
    cases h with
    | nil => exact Or.inl rfl
    | lost => exact Or.inr (Or.inl rfl)
    | call h => exact Or.inr (Or.inr ⟨_, _, rfl, h⟩)
  · rintro (rfl | rfl | ⟨answer, rest, rfl, h⟩)
    · exact .nil _
    · exact .lost op g
    · exact .call h

end Traces

/-- Run a clean-up at the end of a program, however it ends. -/
def ensuring : Prog Op Ans α → Prog Op Ans Unit → Prog Op Ans α
  | .ret a, cleanUp => cleanUp.bind fun _ => .ret a
  | .panic, cleanUp => cleanUp.bind fun _ => .panic
  | .call op k, cleanUp => .call op fun answer => (k answer).ensuring cleanUp

/-- **A program with a clean-up ends as the program does**, and the clean-up comes
after everything else, unless the clean-up panics. -/
theorem run_ensuring {p : Prog Op Ans α} {cleanUp : Prog Op Ans Unit}
    {log : List (Event Op Ans)} {out : Option α} :
    Run (p.ensuring cleanUp) log out ↔ ∃ before after out', log = before ++ after ∧
      Run p before out' ∧
        ((Run cleanUp after (some ()) ∧ out = out') ∨ (Run cleanUp after none ∧ out = none)) := by
  induction p generalizing log with
  | ret a =>
      constructor
      · intro h
        rcases run_bind.mp h with ⟨before, after, _, rfl, hclean, hret⟩ | ⟨hclean, rfl⟩
        · cases hret
          exact ⟨[], before, some a, by simp, .ret a, Or.inl ⟨hclean, rfl⟩⟩
        · exact ⟨[], log, some a, rfl, .ret a, Or.inr ⟨hclean, rfl⟩⟩
      · rintro ⟨before, after, out', rfl, hret, ⟨hclean, rfl⟩ | ⟨hclean, rfl⟩⟩
        · cases hret
          exact run_bind.mpr (Or.inl ⟨after, [], (), by simp, hclean, .ret a⟩)
        · cases hret
          exact run_bind.mpr (Or.inr ⟨hclean, rfl⟩)
  | panic =>
      constructor
      · intro h
        rcases run_bind.mp h with ⟨before, after, _, rfl, hclean, hpanic⟩ | ⟨hclean, rfl⟩
        · cases hpanic
          exact ⟨[], before, none, by simp, .panic, Or.inl ⟨hclean, rfl⟩⟩
        · exact ⟨[], log, none, rfl, .panic, Or.inr ⟨hclean, rfl⟩⟩
      · rintro ⟨before, after, out', rfl, hpanic, ⟨hclean, rfl⟩ | ⟨hclean, rfl⟩⟩
        · cases hpanic
          exact run_bind.mpr (Or.inl ⟨after, [], (), by simp, hclean, .panic⟩)
        · cases hpanic
          exact run_bind.mpr (Or.inr ⟨hclean, rfl⟩)
  | call op k ih =>
      constructor
      · intro h
        obtain ⟨answer, rest, rfl, hrest⟩ := run_call.mp h
        obtain ⟨before, after, out', rfl, hp, hend⟩ := (ih answer).mp hrest
        exact ⟨⟨op, answer⟩ :: before, after, out', rfl, .call hp, hend⟩
      · rintro ⟨before, after, out', rfl, hp, hend⟩
        obtain ⟨answer, rest, rfl, hrest⟩ := run_call.mp hp
        exact .call ((ih answer).mpr ⟨rest, after, out', rfl, hrest, hend⟩)

theorem CanEnd.ensuring {p : Prog Op Ans α} {cleanUp : Prog Op Ans Unit} {out : Option α}
    (hp : CanEnd p out) (hclean : CanEnd cleanUp (some ())) : CanEnd (p.ensuring cleanUp) out := by
  obtain ⟨before, hbefore⟩ := hp
  obtain ⟨after, hafter⟩ := hclean
  exact ⟨before ++ after,
    run_ensuring.mpr ⟨before, after, out, rfl, hbefore, Or.inl ⟨hafter, rfl⟩⟩⟩

end Prog

/-! ## Failures on record -/

section Failures

variable {E ε : Type} {f : E → Option ε} {xs ys : List E}

/-- The first failure that `f` finds in a log. -/
def firstFailure (f : E → Option ε) (log : List E) : Except ε Unit :=
  match log.findSome? f with
  | some err => .error err
  | none => .ok ()

theorem firstFailure_eq_ok : firstFailure f xs = .ok () ↔ ∀ e ∈ xs, f e = none := by
  rw [← List.findSome?_eq_none_iff]
  unfold firstFailure
  cases xs.findSome? f <;> simp

/-- Behind a log without a failure. -/
theorem firstFailure_append_of_ok (h : firstFailure f xs = .ok ()) :
    firstFailure f (xs ++ ys) = firstFailure f ys := by
  have hnone : xs.findSome? f = none := List.findSome?_eq_none_iff.mpr (firstFailure_eq_ok.mp h)
  unfold firstFailure
  rw [List.findSome?_append, hnone, Option.none_or]

/-- In front of a log without a failure. -/
theorem firstFailure_append_left (h : ∀ e ∈ ys, f e = none) :
    firstFailure f (xs ++ ys) = firstFailure f xs := by
  unfold firstFailure
  rw [List.findSome?_append, List.findSome?_eq_none_iff.mpr h, Option.or_none]

end Failures

/-! ## Calls of two kinds -/

section Both

variable {Op₁ Op₂ : Type} {Ans₁ : Op₁ → Type} {Ans₂ : Op₂ → Type} {α : Type}

/-- The answers to calls of two kinds. -/
@[reducible] def Both (Ans₁ : Op₁ → Type) (Ans₂ : Op₂ → Type) : Op₁ ⊕ Op₂ → Type
  | .inl op => Ans₁ op
  | .inr op => Ans₂ op

/-- The event of a call of the second kind. -/
def Event.right : Event Op₂ Ans₂ → Event (Op₁ ⊕ Op₂) (Both Ans₁ Ans₂)
  | ⟨op, answer⟩ => ⟨.inr op, answer⟩

/-- A program that makes calls of the second kind only. -/
def Prog.onRight : Prog Op₂ Ans₂ α → Prog (Op₁ ⊕ Op₂) (Both Ans₁ Ans₂) α
  | .ret a => .ret a
  | .panic => .panic
  | .call op k => .call (.inr op) fun (answer : Ans₂ op) => (k answer).onRight

/-- Its runs are those of the program. -/
theorem Prog.run_onRight {p : Prog Op₂ Ans₂ α}
    {log : List (Event (Op₁ ⊕ Op₂) (Both Ans₁ Ans₂))} {out : Option α} :
    Run p.onRight log out ↔ ∃ inner, log = inner.map Event.right ∧ Run p inner out := by
  induction p generalizing log with
  | ret a =>
      constructor
      · intro h
        cases h
        exact ⟨[], rfl, .ret a⟩
      · rintro ⟨inner, rfl, h⟩
        cases h
        exact .ret a
  | panic =>
      constructor
      · intro h
        cases h
        exact ⟨[], rfl, .panic⟩
      · rintro ⟨inner, rfl, h⟩
        cases h
        exact .panic
  | call op k ih =>
      constructor
      · intro h
        obtain ⟨answer, rest, rfl, hrest⟩ := run_call.mp h
        obtain ⟨inner, rfl, hinner⟩ := (ih answer).mp hrest
        exact ⟨⟨op, answer⟩ :: inner, rfl, .call hinner⟩
      · rintro ⟨inner, rfl, h⟩
        obtain ⟨answer, rest, rfl, hrest⟩ := run_call.mp h
        exact .call ((ih answer).mpr ⟨rest, rfl, hrest⟩)

theorem Prog.CanEnd.onRight {p : Prog Op₂ Ans₂ α} {out : Option α} (h : CanEnd p out) :
    CanEnd (p.onRight : Prog (Op₁ ⊕ Op₂) (Both Ans₁ Ans₂) α) out := by
  obtain ⟨log, hlog⟩ := h
  exact ⟨_, run_onRight.mpr ⟨log, rfl, hlog⟩⟩

end Both

/-! ## Races -/

/-- The calls of a program that runs another one under `select!`: its own, the
calls of the other, and the two ends of the race. -/
inductive Raced (Own Op : Type)
  | own (op : Own)
  | enter
  | inner (op : Op)
  | drop

/-- A race may be lost before the first poll, and during every call. -/
@[reducible] def Raced.Ans {Own Op : Type} (OwnAns : Own → Type) (Ans : Op → Type) : Raced Own Op → Type
  | .own op => OwnAns op
  | .enter => Bool
  | .inner op => Option (Ans op)
  | .drop => Unit

/-- The call belongs to the program that is raced. -/
def Raced.isInner {Own Op : Type} : Raced Own Op → Bool
  | .inner _ => true
  | _ => false

open Prog (Run)

section Race

variable {Own Op : Type} {OwnAns : Own → Type} {Ans : Op → Type} {α : Type}

/-- What the raced program does, among the calls of the race. -/
def Event.raced : Event Op (fun op => Option (Ans op)) →
    Event (Raced Own Op) (Raced.Ans OwnAns Ans)
  | ⟨op, answer⟩ => ⟨.inner op, answer⟩

/-- A call of the raced program that has been answered. -/
def Event.answered : Event (Raced Own Op) (Raced.Ans OwnAns Ans) → Option (Event Op Ans)
  | ⟨.inner op, some answer⟩ => some ⟨op, answer⟩
  | _ => none

/-- The race is lost. -/
def Event.isLost : Event (Raced Own Op) (Raced.Ans OwnAns Ans) → Bool
  | ⟨.enter, true⟩ | ⟨.inner _, none⟩ => true
  | _ => false

/-- The program is dropped, with the result it has. -/
def leave (result : Option α) : Prog (Raced Own Op) (Raced.Ans OwnAns Ans) (Option α) :=
  .call .drop fun _ => .ret result

/-- The program after its first poll. -/
def poll : Prog Op Ans α → Prog (Raced Own Op) (Raced.Ans OwnAns Ans) (Option α)
  | .ret a => leave (some a)
  | .panic => .panic
  | .call op k => .call (.inner op) fun (answer : Option (Ans op)) =>
      answer.elim (leave none) fun a => poll (k a)

/-- Run a program until it ends or the race is lost. -/
def race (p : Prog Op Ans α) : Prog (Raced Own Op) (Raced.Ans OwnAns Ans) (Option α) :=
  .call .enter fun (lost : Bool) =>
    match lost with
    | true => leave none
    | false => poll p

theorem run_leave {result : Option α} {log : List (Event (Raced Own Op) (Raced.Ans OwnAns Ans))}
    {out : Option (Option α)} (h : Run (leave result) log out) :
    log = [⟨.drop, ()⟩] ∧ out = some result := by
  obtain ⟨answer, rest, rfl, hrest⟩ := Prog.run_call.mp h
  cases hrest
  exact ⟨rfl, rfl⟩

/-- What happens after the first poll: calls of the raced program only, then the
drop.  A result is that of the program on these calls; without one, the race is lost. -/
theorem run_poll {p : Prog Op Ans α} {log : List (Event (Raced Own Op) (Raced.Ans OwnAns Ans))}
    {result : Option α} (h : Run (poll p) log (some result)) :
    ∃ inner, log = inner ++ [⟨.drop, ()⟩] ∧ (∀ e ∈ inner, e.op.isInner = true) ∧
      inner.any Event.isLost = result.isNone ∧
        ∀ a, result = some a → Run p (inner.filterMap Event.answered) (some a) := by
  induction p generalizing log with
  | ret a =>
      obtain ⟨rfl, hout⟩ := run_leave h
      cases hout
      refine ⟨[], rfl, by simp, rfl, ?_⟩
      intro a' ha'
      cases ha'
      exact .ret a
  | panic => cases h
  | call op k ih =>
      simp only [poll] at h
      obtain ⟨answer, rest, rfl, hrest⟩ := Prog.run_call.mp h
      cases answer with
      | none =>
          obtain ⟨rfl, hout⟩ := run_leave hrest
          cases hout
          exact ⟨[⟨.inner op, none⟩], rfl, by simp [Raced.isInner], rfl, nofun⟩
      | some a =>
          obtain ⟨inner, rfl, hinner, hlost, hresult⟩ := ih a hrest
          refine ⟨⟨.inner op, some a⟩ :: inner, rfl,
            List.forall_mem_cons.mpr ⟨rfl, hinner⟩, hlost, ?_⟩
          exact fun b hb => .call (hresult b hb)

/-- **What a race does**: it is entered, the raced program makes its calls, and
it is dropped; from then on it does nothing.  It ends without a result exactly if it is
lost, and a result is that of the program on the calls that were answered. -/
theorem run_race {p : Prog Op Ans α} {log : List (Event (Raced Own Op) (Raced.Ans OwnAns Ans))}
    {result : Option α} (h : Run (race p) log (some result)) :
    ∃ inner, log = inner ++ [⟨.drop, ()⟩] ∧
      (∀ e ∈ inner, e.op = .enter ∨ e.op.isInner = true) ∧
        inner.any Event.isLost = result.isNone ∧
          ∀ a, result = some a → Run p (inner.filterMap Event.answered) (some a) := by
  obtain ⟨lost, rest, rfl, hrest⟩ := Prog.run_call.mp h
  cases lost with
  | true =>
      obtain ⟨rfl, hout⟩ := run_leave hrest
      cases hout
      exact ⟨[⟨.enter, true⟩], rfl, by simp, rfl, nofun⟩
  | false =>
      obtain ⟨inner, rfl, hinner, hlost, hresult⟩ := run_poll hrest
      refine ⟨⟨.enter, false⟩ :: inner, rfl, ?_, hlost, hresult⟩
      exact List.forall_mem_cons.mpr ⟨Or.inl rfl, fun e he => Or.inr (hinner e he)⟩

theorem trace_of_poll {p : Prog Op Ans α}
    {log : List (Event (Raced Own Op) (Raced.Ans OwnAns Ans))} {out : Option (Option α)}
    (h : Run (poll p) log out) :
    ∃ trace drops, log = trace.map Event.raced ++ drops ∧ Prog.Trace p trace ∧
      ∀ e ∈ drops, e.op = .drop := by
  induction p generalizing log with
  | ret a =>
      obtain ⟨_, rest, rfl, hrest⟩ := Prog.run_call.mp h
      cases hrest
      exact ⟨[], [⟨.drop, ()⟩], rfl, .nil _, by simp⟩
  | panic =>
      cases h
      exact ⟨[], [], rfl, .nil _, by simp⟩
  | call op k ih =>
      simp only [poll] at h
      obtain ⟨answer, rest, rfl, hrest⟩ := Prog.run_call.mp h
      cases answer with
      | none =>
          obtain ⟨rfl, _⟩ := run_leave hrest
          exact ⟨[⟨op, none⟩], [⟨.drop, ()⟩], rfl, .lost op k, by simp⟩
      | some a =>
          obtain ⟨trace, drops, rfl, htrace, hdrops⟩ := ih a hrest
          exact ⟨⟨op, some a⟩ :: trace, drops, rfl, .call htrace, hdrops⟩

/-- **What a raced program has done is one of its traces.** -/
theorem trace_of_race {p : Prog Op Ans α}
    {log : List (Event (Raced Own Op) (Raced.Ans OwnAns Ans))} {out : Option (Option α)}
    (h : Run (race p) log out) :
    ∃ lost trace drops, log = ⟨.enter, lost⟩ :: trace.map Event.raced ++ drops ∧
      Prog.Trace p trace ∧ ∀ e ∈ drops, e.op = .drop := by
  obtain ⟨lost, rest, rfl, hrest⟩ := Prog.run_call.mp h
  cases lost with
  | true =>
      obtain ⟨rfl, _⟩ := run_leave hrest
      exact ⟨true, [], [⟨.drop, ()⟩], rfl, .nil _, by simp⟩
  | false =>
      obtain ⟨trace, drops, rfl, htrace, hdrops⟩ := trace_of_poll hrest
      exact ⟨false, trace, drops, rfl, htrace, hdrops⟩

/-- A race panics where the program does. -/
theorem panic_of_race {p : Prog Op Ans α}
    {log : List (Event (Raced Own Op) (Raced.Ans OwnAns Ans))} (h : Run (race p) log none) :
    ∃ log', Run p log' none := by
  have hpoll : ∀ {p : Prog Op Ans α} {log : List (Event (Raced Own Op) (Raced.Ans OwnAns Ans))},
      Run (poll p) log none → ∃ log', Run p log' none := by
    intro p
    induction p with
    | ret a =>
        intro log h
        cases (run_leave h).2
    | panic =>
        intro log _
        exact ⟨[], .panic⟩
    | call op k ih =>
        intro log h
        obtain ⟨answer, rest, rfl, hrest⟩ := Prog.run_call.mp h
        cases answer with
        | none => cases (run_leave hrest).2
        | some a =>
            obtain ⟨log', hlog'⟩ := ih a hrest
            exact ⟨⟨op, a⟩ :: log', .call hlog'⟩
  obtain ⟨lost, rest, rfl, hrest⟩ := Prog.run_call.mp h
  cases lost with
  | true => cases (run_leave hrest).2
  | false => exact hpoll hrest

theorem canEnd_leave (result : Option α) :
    Prog.CanEnd (leave result : Prog (Raced Own Op) (Raced.Ans OwnAns Ans) (Option α))
      (some result) :=
  ⟨[⟨.drop, ()⟩], .call (.ret _)⟩

/-- A race may be lost at once. -/
theorem canEnd_race_lost (p : Prog Op Ans α) :
    Prog.CanEnd (race p : Prog (Raced Own Op) (Raced.Ans OwnAns Ans) (Option α)) (some none) := by
  obtain ⟨log, hlog⟩ : Prog.CanEnd (leave none : Prog (Raced Own Op) (Raced.Ans OwnAns Ans)
      (Option α)) (some none) := canEnd_leave none
  exact ⟨_, Prog.run_call.mpr ⟨true, log, rfl, hlog⟩⟩

/-- A race that is not lost runs the program to its end. -/
theorem canEnd_race {p : Prog Op Ans α} {a : α} (h : Prog.CanEnd p (some a)) :
    Prog.CanEnd (race p : Prog (Raced Own Op) (Raced.Ans OwnAns Ans) (Option α))
      (some (some a)) := by
  obtain ⟨log, hlog⟩ := h
  have hpoll : Prog.CanEnd (poll p : Prog (Raced Own Op) (Raced.Ans OwnAns Ans) (Option α))
      (some (some a)) := by
    induction p generalizing log with
    | ret b =>
        cases hlog
        exact canEnd_leave _
    | panic => cases hlog
    | call op k ih =>
        obtain ⟨answer, rest, rfl, hrest⟩ := Prog.run_call.mp hlog
        obtain ⟨log', hlog'⟩ := ih answer rest hrest
        exact ⟨_, Prog.run_call.mpr ⟨some answer, log', rfl, hlog'⟩⟩
  obtain ⟨log', hlog'⟩ := hpoll
  exact ⟨_, Prog.run_call.mpr ⟨false, log', rfl, hlog'⟩⟩

end Race

end CallTree
