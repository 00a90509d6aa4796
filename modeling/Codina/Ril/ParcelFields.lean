/-
  Fields of a parcel: what `Parcel` writes, its readers take off again.

  One lemma a kind of field, each in the form `Takes`: ints, strings and byte arrays, at any position
  of any parcel.  The lengths are bounded by what a signed 32-bit count can say.
-/
import Codina.Lib.Codec
import Codina.Ril.Parcel
import Mathlib.Algebra.Ring.Nat
import Mathlib.Data.List.GetD

namespace Codina.Ril.Parcel

open Codina.Bytes Codina.Codec

variable {ε : Type}

/-- A method of `Parcel` that throws nothing, as a reader. -/
def reader {α : Type} (f : Parcel → α × Parcel) : Reader ε Parcel α := fun p => (.ok (f p).1, (f p).2)

/-! ## Bytes at a position -/

/-- The bytes standing at the read position. -/
theorem bytes_at (pre b rest : List Byte) (q : Nat) {k : Nat} (hk : k < b.length) :
    (Parcel.mk (pre ++ (b ++ rest)) q).bytes (pre.length + k) = b.getD k 0 := by
  show (pre ++ (b ++ rest)).getD (pre.length + k) 0 = _
  rw [List.getD_append_right _ _ _ _ (by omega), Nat.add_sub_cancel_left,
    List.getD_append _ _ _ _ hk]

theorem readInt_at (pre rest : List Byte) (v : BitVec 32) :
    readInt ⟨pre ++ (writeInt32 v ++ rest), pre.length⟩ =
      (v.toInt, ⟨pre ++ (writeInt32 v ++ rest), pre.length + 4⟩) := by
  have hlen : (writeInt32 v).length = 4 := rfl
  have hfits : pre.length + 4 ≤ (pre ++ (writeInt32 v ++ rest)).length := by
    rw [List.length_append, List.length_append, hlen]
    omega
  have hword : load32 (Parcel.mk (pre ++ (writeInt32 v ++ rest)) pre.length).bytes pre.length = v := by
    apply load_of_bytes
    intro k hk
    rw [bytes_at pre (writeInt32 v) rest _ (by omega)]
    match k, hk with
    | 0, _ => rfl
    | 1, _ => rfl
    | 2, _ => rfl
    | 3, _ => rfl
  unfold readInt dataSize
  rw [if_pos hfits, hword]

theorem padSize_ge (n : Nat) : n ≤ padSize n := by
  unfold padSize
  omega

theorem length_write (b : List Byte) : (write b).length = padSize b.length := by
  have hge := padSize_ge b.length
  rw [write, List.length_append, List.length_replicate]
  omega

/-- Padded bytes at the read position are found, and passed with their padding. -/
theorem readInplace_at (pre b rest : List Byte) :
    readInplace b.length ⟨pre ++ (write b ++ rest), pre.length⟩ =
      some (pre.length, ⟨pre ++ (write b ++ rest), pre.length + (write b).length⟩) := by
  have hfits : pre.length + padSize b.length ≤ (pre ++ (write b ++ rest)).length := by
    rw [List.length_append, List.length_append, length_write]
    omega
  unfold readInplace dataSize
  rw [if_pos hfits, length_write]

theorem write_getD (b : List Byte) {k : Nat} (hk : k < b.length) :
    (write b).getD k 0 = b.getD k 0 :=
  List.getD_append _ _ _ _ hk

theorem length_unitBytes (units : List (BitVec 16)) :
    (unitBytes units).length = 2 * units.length := by
  induction units with
  | nil => rfl
  | cons u units ih =>
    show (unitBytes units).length + 2 = 2 * (units.length + 1)
    omega

/-- The two bytes of unit `i`. -/
theorem unitBytes_getD (units : List (BitVec 16)) :
    ∀ {i k : Nat}, i < units.length → k < 2 →
      (unitBytes units).getD (2 * i + k) 0 = byteOf (units.getD i 0) k := by
  induction units with
  | nil => intro i k hi; exact absurd hi (Nat.not_lt_zero i)
  | cons u units ih =>
    intro i k hi hk
    cases i with
    | zero =>
      match k, hk with
      | 0, _ => rfl
      | 1, _ => rfl
    | succ i =>
      have hrec := ih (i := i) (k := k) (by simpa using hi) hk
      rw [show 2 * (i + 1) + k = 2 * i + k + 1 + 1 by omega]
      exact hrec

theorem map_range_getD {α : Type} (l : List α) (d : α) :
    ((List.range l.length).map fun i => l.getD i d) = l := by
  apply List.ext_getElem
  · simp
  · intro i h1 h2
    rw [List.getElem_map, List.getElem_range, List.getD_eq_getElem _ _ h2]

theorem toInt_ofNat {n : Nat} (h : n < 2 ^ 31) : (BitVec.ofNat 32 n).toInt = n := by
  have hmod : n % 2 ^ 32 = n := Nat.mod_eq_of_lt (by omega)
  rw [BitVec.toInt_eq_toNat_of_lt (by rw [BitVec.toNat_ofNat, hmod]; omega), BitVec.toNat_ofNat, hmod]

/-! ## The fields -/

/-- An int. -/
theorem takes_int (v : BitVec 32) :
    Takes Parcel.mk (reader readInt : Reader ε Parcel Int) (writeInt32 v) v.toInt := by
  intro pre rest
  show (Except.ok (readInt _).1, (readInt _).2) = _
  rw [readInt_at]
  rfl

/-- A string, or null. -/
theorem takes_string (s : Option (List (BitVec 16))) (h : ∀ u ∈ s, u.length < 2 ^ 31 - 1) :
    Takes Parcel.mk (reader readString : Reader ε Parcel (Option (List (BitVec 16))))
      (writeString16 s) s := by
  intro pre rest
  show (Except.ok (readString _).1, (readString _).2) = _
  cases s with
  | none =>
    unfold readString writeString16
    rw [readInt_at]
    rfl
  | some s =>
    have hlen : s.length < 2 ^ 31 - 1 := h s rfl
    have hunits : (s.length + 1) * 2 = (unitBytes (s ++ [0])).length := by
      rw [length_unitBytes, List.length_append]
      simp only [List.length_singleton]
      omega
    have hplace := readInplace_at (pre ++ writeInt32 (BitVec.ofNat 32 s.length))
      (unitBytes (s ++ [0])) rest
    have hbytes := bytes_at (pre ++ writeInt32 (BitVec.ofNat 32 s.length))
      (write (unitBytes (s ++ [0]))) rest
    have hpos : (pre ++ writeInt32 (BitVec.ofNat 32 s.length)).length = pre.length + 4 := by
      rw [List.length_append]
      rfl
    rw [hpos, List.append_assoc] at hplace hbytes
    have hread : ((List.range s.length).map fun i =>
        load16 (Parcel.mk (pre ++ (writeInt32 (BitVec.ofNat 32 s.length) ++
          (write (unitBytes (s ++ [0])) ++ rest))) (pre.length + 4)).bytes
          (pre.length + 4 + 2 * i)) = s := by
      refine Eq.trans (List.map_congr_left fun i hi => ?_) (map_range_getD s 0)
      have hi : i < s.length := List.mem_range.mp hi
      apply load_of_bytes
      intro k hk
      have hge := padSize_ge (unitBytes (s ++ [0])).length
      rw [Nat.add_assoc (pre.length + 4), hbytes _ (by rw [length_write]; omega),
        write_getD _ (by omega), unitBytes_getD _ (by simp; omega) hk,
        List.getD_append _ _ _ _ hi]
    unfold readString writeString16
    rw [List.append_assoc, readInt_at]
    simp only [toInt_ofNat (show s.length < 2 ^ 31 by omega), Int.toNat_natCast]
    rw [if_pos (by omega), hunits, hplace]
    simp only [hread, List.length_append]
    rw [show (writeInt32 (BitVec.ofNat 32 s.length)).length = 4 from rfl, Nat.add_assoc]

/-- A byte array. -/
theorem takes_byteArray (b : List Byte) (h : b.length < 2 ^ 31) :
    Takes Parcel.mk (reader createByteArray : Reader ε Parcel (Option (List Byte)))
      (writeInt32 (BitVec.ofNat 32 b.length) ++ write b) (some b) := by
  intro pre rest
  show (Except.ok (createByteArray _).1, (createByteArray _).2) = _
  have hplace := readInplace_at (pre ++ writeInt32 (BitVec.ofNat 32 b.length)) b rest
  have hbytes := bytes_at (pre ++ writeInt32 (BitVec.ofNat 32 b.length)) (write b) rest
  have hpos : (pre ++ writeInt32 (BitVec.ofNat 32 b.length)).length = pre.length + 4 := by
    rw [List.length_append]
    rfl
  have hge := padSize_ge b.length
  rw [hpos, List.append_assoc] at hplace hbytes
  have hread : ((List.range b.length).map fun i =>
      (Parcel.mk (pre ++ (writeInt32 (BitVec.ofNat 32 b.length) ++ (write b ++ rest)))
        (pre.length + 4)).bytes (pre.length + 4 + i)) = b := by
    refine Eq.trans (List.map_congr_left fun i hi => ?_) (map_range_getD b 0)
    have hi : i < b.length := List.mem_range.mp hi
    rw [hbytes _ (by rw [length_write]; omega), write_getD _ hi]
  have havail : b.length ≤ (Parcel.mk (pre ++ (writeInt32 (BitVec.ofNat 32 b.length) ++
      (write b ++ rest))) (pre.length + 4)).dataAvail := by
    simp only [dataAvail, dataSize, List.length_append, length_write,
      show (writeInt32 (BitVec.ofNat 32 b.length)).length = 4 from rfl]
    omega
  unfold createByteArray
  rw [List.append_assoc, readInt_at]
  simp only [toInt_ofNat h, Int.toNat_natCast]
  rw [if_pos ⟨by omega, by exact_mod_cast havail⟩, hplace]
  simp only [hread, List.length_append]
  rw [show (writeInt32 (BitVec.ofNat 32 b.length)).length = 4 from rfl, Nat.add_assoc]

end Codina.Ril.Parcel
