/-
  Runs of a partial step function, and the one induction every safety result is an instance of.

  A component is given by `step : σ → α → Option σ`: in state `s` the action `a` is either not
  enabled (`none`) or leads to exactly one next state.  All nondeterminism is in the choice of the
  action, so "for every interleaving" is "for every list of actions".

  A run is GUARDED by a condition `ok : σ → α → Prop` on the action and the state before it.  With
  the trivial guard a run is plain reachability; with a real one it is a run all of whose steps stay
  clear of a given branch.  `Run.inv` turns a step lemma under the guard into a run lemma;
  `Run.inv_staged` does so on top of invariants proved before.

  Nothing here names a particular component.
-/
import Mathlib.Data.List.Basic

namespace Codina.Runs

variable {σ α : Type} {step : σ → α → Option σ} {ok : σ → α → Prop} {s₀ s : σ}

/-- `Run step ok s₀ s`: some sequence of enabled actions leads from `s₀` to `s`, and each of them
    meets `ok` in the state it is taken in. -/
inductive Run (step : σ → α → Option σ) (ok : σ → α → Prop) (s₀ : σ) : σ → Prop
  | start : Run step ok s₀ s₀
  | next {s s' : σ} (a : α) : Run step ok s₀ s → ok s a → step s a = some s' → Run step ok s₀ s'

/-- The guard that admits every step. -/
def anyStep (_ : σ) (_ : α) : Prop := True

/-- Plain reachability. -/
abbrev Reach (step : σ → α → Option σ) (s₀ s : σ) : Prop := Run step anyStep s₀ s

/-- **Invariant rule, in stages.**  The step lemma may use what is already known of every state of
    the run. -/
theorem Run.inv_staged {Inv : σ → Prop} (hrun : Run step ok s₀ s) (h0 : Inv s₀)
    (hstep : ∀ s a s', Run step ok s₀ s → Inv s → ok s a → step s a = some s' → Inv s') : Inv s := by
  induction hrun with
  | start => exact h0
  | next a hpre hok hs ih => exact hstep _ a _ hpre ih hok hs

/-- **Invariant rule.**  What holds at the start and is kept by every step the guard admits holds in
    every state of every guarded run. -/
theorem Run.inv {Inv : σ → Prop} (hrun : Run step ok s₀ s) (h0 : Inv s₀)
    (hstep : ∀ s a s', Inv s → ok s a → step s a = some s' → Inv s') : Inv s :=
  hrun.inv_staged h0 fun s a s' _ => hstep s a s'

/-- Runs one after another. -/
theorem Run.trans {s' : σ} (h : Run step ok s₀ s) (h' : Run step ok s s') : Run step ok s₀ s' := by
  induction h' with
  | start => exact h
  | next a _ hok hs ih => exact Run.next a ih hok hs

/-- Execute a list of actions, one after another. -/
def exec (step : σ → α → Option σ) : σ → List α → Option σ
  | s, [] => some s
  | s, a :: as => (step s a).bind fun s' => exec step s' as

theorem exec_append (as bs : List α) : ∀ s : σ,
    exec step s (as ++ bs) = (exec step s as).bind fun s' => exec step s' bs := by
  induction as with
  | nil => exact fun _ => rfl
  | cons a as ih =>
    intro s
    show (step s a).bind _ = ((step s a).bind _).bind _
    rw [Option.bind_assoc]
    exact congrArg _ (funext ih)

/-- The last action of a list. -/
theorem exec_snoc {as : List α} {a : α} {s s' : σ} :
    exec step s (as ++ [a]) = some s' ↔ ∃ m, exec step s as = some m ∧ step m a = some s' := by
  rw [exec_append, Option.bind_eq_some_iff]
  simp [exec]

/-- Every action of the list meets the guard where it is taken, and is enabled there. -/
def Admits (step : σ → α → Option σ) (ok : σ → α → Prop) : σ → List α → Prop
  | _, [] => True
  | s, a :: as => ok s a ∧ match step s a with
    | some s' => Admits step ok s' as
    | none => False

/-- Continue a guarded run by a list of actions. -/
theorem Run.exec : ∀ (as : List α) {s₀ s s' : σ}, Run step ok s₀ s → Admits step ok s as →
    Runs.exec step s as = some s' → Run step ok s₀ s'
  | [], _, _, _, hrun, _, he => by
    cases he
    exact hrun
  | a :: as, _, s, s', hrun, hadm, he => by
    obtain ⟨hok, hrest⟩ := hadm
    simp only [Runs.exec] at he
    cases hs : step s a with
    | none => rw [hs] at hrest; exact hrest.elim
    | some m =>
      rw [hs] at hrest he
      exact Run.exec as (Run.next a hrun hok hs) hrest he

/-- An executed list whose actions all meet the guard is a guarded run. -/
theorem run_of_exec (step : σ → α → Option σ) (ok : σ → α → Prop) (s₀ : σ) (as : List α) {s : σ}
    (hadm : Admits step ok s₀ as) (he : exec step s₀ as = some s) : Run step ok s₀ s :=
  Run.exec as Run.start hadm he

/-- The trivial guard admits every list that can be executed. -/
theorem admits_anyStep : ∀ (as : List α) {s₀ s : σ}, exec step s₀ as = some s →
    Admits step anyStep s₀ as
  | [], _, _, _ => trivial
  | a :: as, s₀, s, he => by
    simp only [exec] at he
    refine ⟨trivial, ?_⟩
    cases hs : step s₀ a with
    | none => rw [hs] at he; exact absurd he (by simp)
    | some m =>
      rw [hs] at he
      exact admits_anyStep as he

/-- Everything an execution ends in is reachable. -/
theorem reach_of_exec (step : σ → α → Option σ) (s₀ : σ) (as : List α) {s : σ}
    (he : exec step s₀ as = some s) : Reach step s₀ s :=
  run_of_exec step anyStep s₀ as (admits_anyStep as he) he

end Codina.Runs
