import Mathlib

/-!
# Runs of a labelled system

`step s a` is the state after action `a`, or `none` when `a` is not enabled in `s`.
`Reachable step guard start` collects the states of the runs whose steps all meet `guard`.
A loop has a step without actions, which is `none` when the loop is left; `Ends step n s t` says
that it is left after `n` rounds, in `t`.
-/

namespace Omniprobe.Lib

section
variable {σ α : Type}

inductive Reachable (step : σ → α → Option σ) (guard : σ → α → Prop) (start : σ) : σ → Prop where
  | start : Reachable step guard start start
  | step {s t : σ} {a : α} (before : Reachable step guard start s) (met : guard s a)
      (taken : step s a = some t) : Reachable step guard start t

variable {step : σ → α → Option σ} {guard : σ → α → Prop} {start : σ}

/-- What holds at the start and is kept by every guarded step holds in every reachable state. -/
theorem Reachable.invariant {P : σ → Prop} (initial : P start)
    (kept : ∀ s a t, P s → guard s a → step s a = some t → P t) {s : σ}
    (reachable : Reachable step guard start s) : P s := by
  induction reachable with
  | start => exact initial
  | step _ met taken ih => exact kept _ _ _ ih met taken

def run (step : σ → α → Option σ) : σ → List α → Option σ
  | s, [] => some s
  | s, a :: rest => (step s a).bind fun t => run step t rest

theorem run_append (s : σ) (first rest : List α) :
    run step s (first ++ rest) = (run step s first).bind fun t => run step t rest := by
  induction first generalizing s with
  | nil => rfl
  | cons a first ih =>
    rw [List.cons_append, run, run]
    cases step s a with
    | none => rfl
    | some t => exact ih t

/-- Every step of the list meets the guard in the state it is taken from. -/
def Meets (step : σ → α → Option σ) (guard : σ → α → Prop) : σ → List α → Prop
  | _, [] => True
  | s, a :: rest => guard s a ∧ ∀ t, step s a = some t → Meets step guard t rest

theorem Reachable.of_run {acts : List α} {s t : σ} (before : Reachable step guard start s)
    (met : Meets step guard s acts) (ran : run step s acts = some t) : Reachable step guard start t := by
  induction acts generalizing s with
  | nil =>
    obtain rfl := Option.some.inj ran
    exact before
  | cons a rest ih =>
    obtain ⟨u, taken, ran⟩ := Option.bind_eq_some_iff.mp ran
    exact ih (before.step met.1 taken) (met.2 u taken) ran

theorem meets_of_forall (s : σ) {acts : List α} (free : ∀ a ∈ acts, ∀ s, guard s a) :
    Meets step guard s acts := by
  induction acts generalizing s with
  | nil => trivial
  | cons a rest ih =>
    refine ⟨free a List.mem_cons_self s, fun t _ => ih t ?_⟩
    exact fun b member => free b (List.mem_cons_of_mem a member)

end

/-! ### Loops -/

section
variable {σ : Type}

inductive Ends (step : σ → Option σ) : Nat → σ → σ → Prop where
  | stop {s : σ} (left : step s = none) : Ends step 0 s s
  | round {n : Nat} {s t u : σ} (taken : step s = some t) (later : Ends step n t u) : Ends step (n + 1) s u

variable {step : σ → Option σ}

/-- The rounds of a loop are determined by its first state. -/
theorem Ends.unique {n m : Nat} {s t u : σ} (first : Ends step n s t) (second : Ends step m s u) : n = m ∧ t = u := by
  induction first generalizing m with
  | stop left =>
    cases second with
    | stop => exact ⟨rfl, rfl⟩
    | round taken => cases left.symm.trans taken
  | round taken later ih =>
    cases second with
    | stop left => cases left.symm.trans taken
    | round taken' later' =>
      cases taken.symm.trans taken'
      obtain ⟨same, final⟩ := ih later'
      exact ⟨congrArg Nat.succ same, final⟩

end

end Omniprobe.Lib
