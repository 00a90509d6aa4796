/-
  Fallible computations that agree, and loops whose order does not matter.

  Two computations agree up to `R` when both fail, or both give results that `R` relates; which error
  stands for a failure is left open.  That is what reordering a loop can keep: the step that fails first
  may be another one, and the state may be the same in what counts only.

  Two steps commute when doing both in either order agrees.  A step commutes past a list of steps it
  commutes with, a list past a list (`foldlM_block`), and so a list of pairwise commuting steps may be
  run in any order (`foldlM_perm`).

  Nothing here names a particular computation.
-/
import Mathlib.Data.List.Perm.Basic

namespace Codina.Reorder

variable {ε : Type}

/-- Both fail, or both give related results. -/
inductive Agree {α β : Type} (R : α → β → Prop) : Except ε α → Except ε β → Prop where
  | error (e e' : ε) : Agree R (.error e) (.error e')
  | ok {a : α} {b : β} (h : R a b) : Agree R (.ok a) (.ok b)

variable {α β σ : Type}

theorem Agree.refl {R : α → α → Prop} (hR : ∀ a, R a a) (x : Except ε α) : Agree R x x := by
  cases x with
  | error e => exact .error e e
  | ok a => exact .ok (hR a)

theorem Agree.trans {R : α → α → Prop} (hR : ∀ {a b c}, R a b → R b c → R a c)
    {x y z : Except ε α} (hxy : Agree R x y) (hyz : Agree R y z) : Agree R x z := by
  cases hxy with
  | error e e' =>
    cases hyz
    exact .error _ _
  | ok hab =>
    cases hyz with
    | ok hbc => exact .ok (hR hab hbc)

/-- **Sequencing**: what follows agrees on related intermediate results. -/
theorem Agree.bind {α' β' : Type} {R : α → α' → Prop} {S : β → β' → Prop} {x : Except ε α}
    {y : Except ε α'} {f : α → Except ε β} {g : α' → Except ε β'} (h : Agree R x y)
    (hf : ∀ a b, R a b → Agree S (f a) (g b)) : Agree S (x >>= f) (y >>= g) := by
  cases h with
  | error e e' => exact .error e e'
  | ok hab => exact hf _ _ hab

/-- A common first step. -/
theorem Agree.bind_left {β' : Type} {S : β → β' → Prop} (x : Except ε α) {f : α → Except ε β}
    {g : α → Except ε β'} (hf : ∀ a, Agree S (f a) (g a)) : Agree S (x >>= f) (x >>= g) :=
  (Agree.refl (fun _ => rfl) x).bind fun a b h => by
    cases h
    exact hf a

/-! ## Steps that commute -/

section Steps

variable (R : σ → σ → Prop) (step : σ → α → Except ε σ)

/-- The step treats related states alike. -/
def Respects : Prop := ∀ s t a, R s t → Agree R (step s a) (step t a)

/-- Doing `a` and `b` in either order agrees. -/
def Commute (a b : α) : Prop :=
  ∀ s, Agree R (step s a >>= fun s => step s b) (step s b >>= fun s => step s a)

variable {R step}

theorem foldlM_respects (hstep : Respects R step) (l : List α) :
    ∀ {s t : σ}, R s t → Agree R (l.foldlM step s) (l.foldlM step t) := by
  induction l with
  | nil => intro s t h; exact .ok h
  | cons a l ih =>
    intro s t h
    rw [List.foldlM_cons, List.foldlM_cons]
    exact (hstep s t a h).bind fun _ _ h => ih h

variable [IsEquiv σ R]

theorem agree_refl (x : Except ε σ) : Agree R x x := Agree.refl (refl_of R) x

theorem agree_trans {x y z : Except ε σ} (hxy : Agree R x y) (hyz : Agree R y z) : Agree R x z :=
  Agree.trans (R := R) (fun hab hbc => trans_of R hab hbc) hxy hyz

/-- One step past a list of steps. -/
theorem foldlM_past (hstep : Respects R step) {a : α} {l : List α}
    (h : ∀ b ∈ l, Commute R step a b) :
    ∀ s, Agree R (step s a >>= fun s => l.foldlM step s) (l.foldlM step s >>= fun s => step s a) := by
  induction l with
  | nil =>
    intro s
    rw [show (step s a >>= fun s => ([] : List α).foldlM step s) = step s a from bind_pure _]
    exact agree_refl _
  | cons b l ih =>
    intro s
    have hswap := h b List.mem_cons_self s
    have hrest := ih fun c hc => h c (List.mem_cons_of_mem _ hc)
    -- past `b` first, then past the others
    have hfirst : Agree R (step s a >>= fun s => (b :: l).foldlM step s)
        (step s b >>= fun s => step s a >>= fun s => l.foldlM step s) := by
      simp only [List.foldlM_cons]
      rw [← bind_assoc, ← bind_assoc]
      exact hswap.bind fun _ _ h => foldlM_respects hstep l h
    refine agree_trans hfirst ?_
    rw [List.foldlM_cons, bind_assoc]
    exact Agree.bind_left _ fun t => hrest t

/-- A list of steps past another one. -/
theorem foldlM_block (hstep : Respects R step) {l l' : List α}
    (h : ∀ a ∈ l, ∀ b ∈ l', Commute R step a b) :
    ∀ s, Agree R (l.foldlM step s >>= fun s => l'.foldlM step s)
      (l'.foldlM step s >>= fun s => l.foldlM step s) := by
  induction l with
  | nil =>
    intro s
    rw [show (l'.foldlM step s >>= fun s => ([] : List α).foldlM step s) = l'.foldlM step s from
      bind_pure _]
    exact agree_refl _
  | cons a l ih =>
    intro s
    have hrest := ih fun c hc => h c (List.mem_cons_of_mem _ hc)
    have hpast := foldlM_past hstep (h a List.mem_cons_self) s
    simp only [List.foldlM_cons, bind_assoc]
    refine agree_trans (Agree.bind_left _ hrest) ?_
    rw [← bind_assoc, ← bind_assoc]
    exact hpast.bind fun _ _ h => foldlM_respects hstep l h

/-- **Pairwise commuting steps may be run in any order.** -/
theorem foldlM_perm (hstep : Respects R step) {C : α → α → Prop} (hsymm : ∀ {a b}, C a b → C b a)
    (hcomm : ∀ a b, C a b → Commute R step a b) {l l' : List α} (hperm : l.Perm l') :
    l.Pairwise C → ∀ s, Agree R (l.foldlM step s) (l'.foldlM step s) := by
  induction hperm with
  | nil => intro _ s; exact agree_refl _
  | cons a _ ih =>
    intro hC s
    rw [List.foldlM_cons, List.foldlM_cons]
    exact Agree.bind_left _ (ih (List.pairwise_cons.mp hC).2)
  | swap a b l =>
    intro hC s
    have hab := (List.pairwise_cons.mp hC).1 a List.mem_cons_self
    simp only [List.foldlM_cons]
    rw [← bind_assoc, ← bind_assoc]
    exact (hcomm b a hab s).bind fun _ _ h => foldlM_respects hstep l h
  | trans hp _ ih ih' =>
    intro hC s
    exact agree_trans (ih hC s) (ih' (hp.pairwise hC hsymm) s)

end Steps

end Codina.Reorder
