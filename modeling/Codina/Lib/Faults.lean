/-
  Programs on a mutable state that return, stop the process, or do something undefined.

  `Prog σ α` is a state-passing program with three outcomes.  Stopping the process (a failed
  assertion) is a defined end; an access through a dangling pointer, a read of memory that holds no
  value and the like are not, and are kept apart from it.

  `Ensures A p Q s`: from `s`, program `p` does nothing undefined, stops the process only where `A`
  admits it, and otherwise returns with `Q`.  There is one rule a construct; `A` says under which
  circumstances stopping is acceptable, so that `Ensures False` is total correctness.

  Nothing here names a particular program.
-/
import Mathlib.Data.List.Basic

namespace Codina.Faults

inductive Outcome (α : Type) where
  | returns (a : α)
  | aborts
  | undefined
  deriving DecidableEq, Repr

/-- A program: what becomes of each initial state. -/
def Prog (σ α : Type) : Type := σ → Outcome (α × σ)

namespace Prog

variable {σ α β : Type}

def ret (a : α) : Prog σ α := fun s => .returns (a, s)

def andThen (p : Prog σ α) (f : α → Prog σ β) : Prog σ β := fun s =>
  match p s with
  | .returns (a, s') => f a s'
  | .aborts => .aborts
  | .undefined => .undefined

instance : Monad (Prog σ) where
  pure := ret
  bind := andThen

/-- Read the whole state. -/
def read : Prog σ σ := fun s => .returns (s, s)

def write (s' : σ) : Prog σ Unit := fun _ => .returns ((), s')

/-- A fatal log message. -/
def abort : Prog σ α := fun _ => .aborts

/-- Undefined behaviour. -/
def fault : Prog σ α := fun _ => .undefined

/-- `fatalIf b`: stop the process where `b` holds. -/
def fatalIf (b : Prop) [Decidable b] : Prog σ Unit := if b then abort else ret ()

/-- What the language requires at this point, on pain of undefined behaviour. -/
def require (b : Prop) [Decidable b] : Prog σ Unit := if b then ret () else fault

/-- A step taken only under a test. -/
def whenever (b : Prop) [Decidable b] (p : Prog σ Unit) : Prog σ Unit := if b then p else ret ()

/-- The value of an option that must be there. -/
def demand : Option α → Prog σ α
  | some a => ret a
  | none => fault

theorem ret_bind (a : α) (f : α → Prog σ β) : ((pure a : Prog σ α) >>= f) = f a := rfl

theorem bind_unit (p : Prog σ Unit) : (p >>= fun _ => pure ()) = p := by
  funext s
  show andThen p (fun _ => ret ()) s = p s
  unfold andThen
  cases p s with
  | returns r => rfl
  | aborts => rfl
  | undefined => rfl

/-- What is defined as a whole is defined in its first part. -/
theorem defined_of_bind {p : Prog σ α} {f : α → Prog σ β} {s : σ} (h : (p >>= f) s ≠ .undefined) :
    p s ≠ .undefined := by
  intro hp
  refine h ?_
  show andThen p f s = _
  rw [andThen, hp]

/-! ## Reasoning -/

def Ensures (A : Prop) (p : Prog σ α) (Q : α → σ → Prop) (s : σ) : Prop :=
  match p s with
  | .returns (a, s') => Q a s'
  | .aborts => A
  | .undefined => False

variable {A : Prop} {p : Prog σ α} {f : α → Prog σ β} {s : σ} {Q : α → σ → Prop} {R : β → σ → Prop}

theorem ensures_pure {a : α} (h : Q a s) : Ensures A (pure a : Prog σ α) Q s := h

theorem ensures_read {Q : σ → σ → Prop} (h : Q s s) : Ensures A read Q s := h

theorem ensures_write {s' : σ} {Q : Unit → σ → Prop} (h : Q () s') : Ensures A (write s') Q s := h

theorem ensures_abort (h : A) : Ensures A (abort : Prog σ α) Q s := h

/-- **Sequence.** -/
theorem ensures_bind (h : Ensures A p (fun a s' => Ensures A (f a) R s') s) :
    Ensures A (p >>= f) R s := by
  show Ensures A (andThen p f) R s
  unfold Ensures andThen at *
  cases hp : p s with
  | returns r => rw [hp] at h; exact h
  | aborts => rw [hp] at h; exact h
  | undefined => rw [hp] at h; exact h

/-- **Consequence.** -/
theorem Ensures.mono {Q' : α → σ → Prop} (h : Ensures A p Q s) (hq : ∀ a s', Q a s' → Q' a s') :
    Ensures A p Q' s := by
  unfold Ensures at *
  cases hp : p s with
  | returns r => rw [hp] at h; exact hq _ _ h
  | aborts => rw [hp] at h; exact h
  | undefined => rw [hp] at h; exact h

/-- A callee's result, then the rest of the caller. -/
theorem Ensures.bind (h : Ensures A p Q s) (hf : ∀ a s', Q a s' → Ensures A (f a) R s') :
    Ensures A (p >>= f) R s :=
  ensures_bind (h.mono hf)

theorem Ensures.weaken_abort {B : Prop} (h : Ensures A p Q s) (hab : A → B) : Ensures B p Q s := by
  unfold Ensures at *
  cases hp : p s with
  | returns r => rw [hp] at h; exact h
  | aborts => rw [hp] at h; exact hab h
  | undefined => rw [hp] at h; exact h

theorem ensures_fatalIf {b : Prop} [Decidable b] {Q : Unit → σ → Prop} (hb : b → A)
    (h : ¬ b → Q () s) : Ensures A (fatalIf b) Q s := by
  unfold fatalIf
  by_cases hc : b
  · rw [if_pos hc]; exact hb hc
  · rw [if_neg hc]; exact h hc

theorem ensures_require {b : Prop} [Decidable b] {Q : Unit → σ → Prop} (hb : b) (h : Q () s) :
    Ensures A (require b) Q s := by
  rw [require, if_pos hb]
  exact h

theorem ensures_demand {o : Option α} {a : α} (ho : o = some a) (h : Q a s) :
    Ensures A (demand o) Q s := by
  rw [ho]
  exact h

/-- A branch of the program: the two cases, each under its test. -/
theorem ensures_ite {b : Prop} [Decidable b] {p' : Prog σ α} (ht : b → Ensures A p Q s)
    (hf : ¬ b → Ensures A p' Q s) : Ensures A (if b then p else p') Q s := by
  by_cases hc : b
  · rw [if_pos hc]; exact ht hc
  · rw [if_neg hc]; exact hf hc

theorem ensures_whenever {b : Prop} [Decidable b] {p : Prog σ Unit} {Q : Unit → σ → Prop}
    (ht : b → Ensures A p Q s) (hf : ¬ b → Q () s) : Ensures A (whenever b p) Q s :=
  ensures_ite ht fun hb => ensures_pure (hf hb)

/-- What a program that returned has ensured. -/
theorem Ensures.returns {a : α} {s' : σ} (h : Ensures A p Q s) (hp : p s = .returns (a, s')) :
    Q a s' := by
  unfold Ensures at h
  rw [hp] at h
  exact h

/-- Where stopping is not admitted, a program returns. -/
theorem Ensures.returned (h : Ensures False p Q s) : ∃ a s', p s = .returns (a, s') ∧ Q a s' := by
  unfold Ensures at h
  cases hp : p s with
  | returns r => rw [hp] at h; exact ⟨r.1, r.2, rfl, h⟩
  | aborts => rw [hp] at h; exact h.elim
  | undefined => rw [hp] at h; exact h.elim

theorem Ensures.not_undefined (h : Ensures A p Q s) : p s ≠ .undefined := by
  intro hp
  unfold Ensures at h
  rw [hp] at h
  exact h

theorem Ensures.aborts (h : Ensures A p Q s) (hp : p s = .aborts) : A := by
  unfold Ensures at h
  rw [hp] at h
  exact h

/-- After a first part that returns, the rest is undefined. -/
theorem Ensures.undefined_bind (h : Ensures False p Q s) (hf : ∀ a s', Q a s' → f a s' = .undefined) :
    (p >>= f) s = .undefined := by
  show andThen p f s = _
  unfold Ensures at h
  unfold andThen
  cases hp : p s with
  | returns r => rw [hp] at h; exact hf _ _ h
  | aborts => rw [hp] at h; exact h.elim
  | undefined => rfl

end Prog

end Codina.Faults
