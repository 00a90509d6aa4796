/-
  Byte memory with little-endian words, and the layout of C structs.

  `Mem` is the memory seen from one pointer: the byte at each offset.  Words are put together from
  bytes, so overlapping accesses of different widths agree with each other by construction.

  `CType` computes sizes, alignments and field offsets by the rule a C compiler follows with natural
  alignment: every field starts at the next multiple of its alignment, and a struct is padded at the
  end to a multiple of its own.

  Nothing here names a particular component.
-/
import Mathlib.Logic.Function.Basic
import Mathlib.Tactic.Common

namespace Codina.Bytes

abbrev Byte := BitVec 8

/-- Memory seen from a pointer: the byte at every offset. -/
abbrev Mem := Nat → Byte

/-! ## Words -/

/-- The little-endian word of `n` bytes at offset `a`. -/
def load (m : Mem) (a : Nat) : (n : Nat) → BitVec (8 * n)
  | 0 => 0
  | n + 1 => load m (a + 1) n ++ m a

abbrev load16 (m : Mem) (a : Nat) : BitVec 16 := load m a 2

abbrev load32 (m : Mem) (a : Nat) : BitVec 32 := load m a 4

/-- Byte `k` of a word. -/
def byteOf {w : Nat} (v : BitVec w) (k : Nat) : Byte := v.extractLsb' (8 * k) 8

/-- Write the first `n` bytes of `v`, little-endian, at offset `a`. -/
def store {w : Nat} (m : Mem) (a n : Nat) (v : BitVec w) : Mem := fun i =>
  if a ≤ i ∧ i < a + n then byteOf v (i - a) else m i

/-- Two words agree when their bytes do. -/
theorem load_congr {m m' : Mem} : ∀ (n : Nat) {a b : Nat},
    (∀ k < n, m (a + k) = m' (b + k)) → load m a n = load m' b n
  | 0, _, _, _ => rfl
  | n + 1, a, b, h => by
    have hlow : m a = m' b := h 0 (by omega)
    have hhigh : load m (a + 1) n = load m' (b + 1) n := by
      refine load_congr n fun k hk => ?_
      have := h (k + 1) (by omega)
      rwa [show a + (k + 1) = a + 1 + k by omega, show b + (k + 1) = b + 1 + k by omega] at this
    rw [load, load, hlow, hhigh]

theorem byteOf_append_low {w : Nat} (x : BitVec w) (y : Byte) : byteOf (x ++ y) 0 = y := by
  ext i hi
  simp only [byteOf, BitVec.getElem_extractLsb', BitVec.getLsbD_append]
  rw [if_pos (by omega), Nat.mul_zero, Nat.zero_add, BitVec.getLsbD_eq_getElem hi]

theorem byteOf_append_high {w : Nat} (x : BitVec w) (y : Byte) (k : Nat) :
    byteOf (x ++ y) (k + 1) = byteOf x k := by
  ext i hi
  simp only [byteOf, BitVec.getElem_extractLsb', BitVec.getLsbD_append]
  rw [if_neg (by omega), show 8 * (k + 1) + i - 8 = 8 * k + i by omega]

theorem byteOf_load (m : Mem) : ∀ (n a : Nat) {k : Nat}, k < n → byteOf (load m a n) k = m (a + k)
  | 0, _, _, h => absurd h (by omega)
  | n + 1, a, 0, _ => byteOf_append_low (load m (a + 1) n) (m a)
  | n + 1, a, k + 1, h => by
    have hrec := byteOf_load m n (a + 1) (k := k) (by omega)
    rw [show a + (k + 1) = a + 1 + k by omega, ← hrec]
    exact byteOf_append_high (load m (a + 1) n) (m a) k

/-- A word is determined by its bytes. -/
theorem eq_of_byteOf {n : Nat} {x y : BitVec (8 * n)} (h : ∀ k < n, byteOf x k = byteOf y k) :
    x = y := by
  ext i hi
  have hbyte := congrArg (fun b : Byte => b.getLsbD (i % 8)) (h (i / 8) (by omega))
  simp only [byteOf, BitVec.getLsbD_extractLsb', show i % 8 < 8 by omega, decide_true,
    Bool.true_and, show 8 * (i / 8) + i % 8 = i by omega] at hbyte
  rwa [BitVec.getLsbD_eq_getElem hi, BitVec.getLsbD_eq_getElem hi] at hbyte

/-- **Bytes that are those of a word load as that word.** -/
theorem load_of_bytes {m : Mem} {n a : Nat} {v : BitVec (8 * n)}
    (h : ∀ k < n, m (a + k) = byteOf v k) : load m a n = v :=
  eq_of_byteOf fun k hk => (byteOf_load m n a hk).trans (h k hk)

/-! ## Copying -/

/-- `memcpy(dst + d, src + s, n)` on disjoint objects. -/
def copy (dst : Mem) (d : Nat) (src : Mem) (s n : Nat) : Mem := fun i =>
  if d ≤ i ∧ i < d + n then src (s + (i - d)) else dst i

/-- **A word loaded and stored is its bytes copied.** -/
theorem store_load (dst src : Mem) (d s n : Nat) :
    store dst d n (load src s n) = copy dst d src s n := by
  funext i
  unfold store copy
  by_cases h : d ≤ i ∧ i < d + n
  · rw [if_pos h, if_pos h]
    exact byteOf_load src n s (by omega)
  · rw [if_neg h, if_neg h]

/-! ## Layout of C structs -/

inductive CType where
  | uint8 | uint16 | uint32
  | array (elem : CType) (n : Nat)
  | struct (fields : List CType)
  | union (members : List CType)

/-- The next multiple of `a` from `n` on. -/
def roundUp (n a : Nat) : Nat := (n + a - 1) / a * a

mutual

/-- Natural alignment. -/
def CType.align : CType → Nat
  | .uint8 => 1
  | .uint16 => 2
  | .uint32 => 4
  | .array t _ => t.align
  | .struct fields => alignAll fields
  | .union members => alignAll members

def alignAll : List CType → Nat
  | [] => 1
  | t :: ts => max t.align (alignAll ts)

end

mutual

/-- `sizeof`. -/
def CType.size : CType → Nat
  | .uint8 => 1
  | .uint16 => 2
  | .uint32 => 4
  | .array t n => t.size * n
  | .struct fields => roundUp (sizeFrom 0 fields) (alignAll fields)
  | .union members => roundUp (sizeMax members) (alignAll members)

/-- End of the last field when the first of them may start at `n`. -/
def sizeFrom : Nat → List CType → Nat
  | n, [] => n
  | n, t :: ts => sizeFrom (roundUp n t.align + t.size) ts

def sizeMax : List CType → Nat
  | [] => 0
  | t :: ts => max t.size (sizeMax ts)

end

/-- Offset of field `k` among fields the first of which may start at `n`. -/
def offsetFrom : Nat → List CType → Nat → Nat
  | n, [], _ => n
  | n, t :: _, 0 => roundUp n t.align
  | n, t :: ts, k + 1 => offsetFrom (roundUp n t.align + t.size) ts k

/-- `offsetof` of field `k`; every member of a union starts at its beginning. -/
def CType.offset : CType → Nat → Nat
  | .struct fields, k => offsetFrom 0 fields k
  | _, _ => 0

end Codina.Bytes
