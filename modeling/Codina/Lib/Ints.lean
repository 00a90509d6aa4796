/-
  The `int` of C: 32 bits, in two's complement.

  What is computed in `unsigned` and stored in an `int` wraps around (`wrap`); what is computed in `int`
  and leaves the range is undefined (`signed`).  Where the exact result is an `int`, so is what either
  gives.

  Nothing here names a particular program.
-/
import Codina.Lib.Faults

namespace Codina.Ints

open Codina.Faults Codina.Faults.Prog

def InInt (n : Int) : Prop := -2147483648 ≤ n ∧ n < 2147483648

instance : DecidablePred InInt := fun n => inferInstanceAs (Decidable (-2147483648 ≤ n ∧ n < 2147483648))

/-- The `int` with the bits of `n`. -/
def wrap (n : Int) : Int := Int.bmod n 4294967296

theorem wrap_of_inInt {n : Int} (h : InInt n) : wrap n = n := by
  unfold InInt at h
  exact Int.bmod_eq_of_le (by omega) (by omega)

variable {σ β : Type} {A : Prop} {n : Int} {s : σ}

/-- The result `n` of a computation in `int`. -/
def signed (n : Int) : Prog σ Int := do
  require (InInt n)
  return n

theorem signed_of_inInt (h : InInt n) : signed n = (pure n : Prog σ Int) := by
  rw [signed, require, if_pos h]
  rfl

/-- A computation that is defined has stayed in range. -/
theorem signed_defined {f : Int → Prog σ β} (h : (signed n >>= f) s ≠ .undefined) :
    InInt n ∧ f n s ≠ .undefined := by
  by_cases hn : InInt n
  · rw [signed_of_inInt hn] at h
    exact ⟨hn, h⟩
  · refine absurd ?_ h
    show andThen (signed n) f s = _
    rw [andThen, signed, require, if_neg hn]
    rfl

theorem ensures_signed {Q : Int → σ → Prop} (h : InInt n) (hq : Q n s) : Ensures A (signed n) Q s := by
  rw [signed_of_inInt h]
  exact ensures_pure hq

end Codina.Ints
