/-
  Counting loops, and what they emit.

  `forUp n body s` is `for (k = 0; k < n; k++) s = body(k, s)`; `forBreak` is the same with a body
  that may break.  Their rules say that an invariant indexed by the counter holds at the end.

  A loop that emits something in every round emits `(List.range n).flatMap emit`.  Where exactly one
  round emits anything of a kind, the rounds around it can be dropped (`flatMap_range_single`), which
  takes a nest of loops apart one level at a time.

  Nothing here names a particular component.
-/
import Mathlib.Data.List.Basic

namespace Codina.Loops

variable {σ β γ : Type}

/-! ## Loops -/

/-- `for (k = 0; k < n; k++) s = body(k, s)`. -/
def forUp (n : Nat) (body : Nat → σ → σ) (s : σ) : σ :=
  match n with
  | 0 => s
  | n + 1 => body n (forUp n body s)

/-- **Loop rule.** -/
theorem forUp_inv (Inv : Nat → σ → Prop) {body : Nat → σ → σ} {s : σ} (n : Nat) (h0 : Inv 0 s)
    (hstep : ∀ k s, k < n → Inv k s → Inv (k + 1) (body k s)) : Inv n (forUp n body s) := by
  induction n with
  | zero => exact h0
  | succ n ih =>
    have hn : Inv n (forUp n body s) := ih fun k s hk => hstep k s (by omega)
    exact hstep n _ (by omega) hn

/-- How one round of a loop ends. -/
inductive Ctl (σ : Type) where
  | next (s : σ)
  /-- `break`. -/
  | stop (s : σ)

/-- The loop from counter `k` on, with `n` rounds to go. -/
def forBreak (body : Nat → σ → Ctl σ) : Nat → Nat → σ → σ
  | _, 0, s => s
  | k, n + 1, s =>
    match body k s with
    | .next s => forBreak body (k + 1) n s
    | .stop s => s

/-- **Loop rule with a break.**  Of `N` rounds the loop takes the first `b`; if there is a round `b`,
    it breaks there before doing anything. -/
theorem forBreak_inv (Inv : Nat → σ → Prop) {body : Nat → σ → Ctl σ} {b N : Nat} (hb : b ≤ N)
    (hstep : ∀ k s, k < b → Inv k s → ∃ s', body k s = .next s' ∧ Inv (k + 1) s')
    (hstop : ∀ s, b < N → Inv b s → body b s = .stop s) :
    ∀ (n k : Nat) {s : σ}, k + n = N → k ≤ b → Inv k s → Inv b (forBreak body k n s)
  | 0, k, s, hn, hkb, hs => by
    obtain rfl : k = b := by omega
    exact hs
  | n + 1, k, s, hn, hkb, hs => by
    unfold forBreak
    by_cases hk : k = b
    · subst hk
      rw [hstop s (by omega) hs]
      exact hs
    · obtain ⟨s', he, hs'⟩ := hstep k s (by omega) hs
      rw [he]
      exact forBreak_inv Inv hb hstep hstop n (k + 1) (by omega) (by omega) hs'

/-! ## What a loop emits -/

theorem flatMap_range_succ (n : Nat) (emit : Nat → List β) :
    (List.range (n + 1)).flatMap emit = (List.range n).flatMap emit ++ emit n := by
  rw [List.range_succ, List.flatMap_append, List.flatMap_singleton]

theorem flatMap_range_nil {n : Nat} {emit : Nat → List β} (h : ∀ k < n, emit k = []) :
    (List.range n).flatMap emit = [] :=
  List.flatMap_eq_nil_iff.mpr fun k hk => h k (List.mem_range.mp hk)

/-- **Only one round counts**, when no other emits anything. -/
theorem flatMap_range_single {n k : Nat} {emit : Nat → List β} (hk : k < n)
    (h : ∀ j < n, j ≠ k → emit j = []) : (List.range n).flatMap emit = emit k := by
  induction n with
  | zero => exact absurd hk (Nat.not_lt_zero k)
  | succ n ih =>
    rw [flatMap_range_succ]
    by_cases hkn : k = n
    · subst hkn
      have hbefore : (List.range k).flatMap emit = [] :=
        flatMap_range_nil fun j hj => h j (by omega) (by omega)
      rw [hbefore, List.nil_append]
    · rw [ih (by omega) fun j hj => h j (by omega), h n (by omega) (Ne.symm hkn), List.append_nil]

end Codina.Loops
