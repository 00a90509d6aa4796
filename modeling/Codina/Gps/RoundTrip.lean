/-
  A reference location there and back.

  The shim never copies the MAC variant as such.  It copies the cell identity, and the six MAC bytes are
  those of `type`, `mcc` and `mnc`, at the same offsets in both structs.  So whichever way the union is
  meant, the vendor sees what the caller's struct says and the caller gets back what the vendor leaves
  (`ref_location_round_trip`).  Only `psc` and the padding, which the vendor's struct has no place for,
  stay the caller's.

  It all follows from where each byte of the caller's buffer comes from (`buffer_after`).
-/
import Codina.Gps.RefLocation

namespace Codina.Gps

open Codina.Bytes

/-- The fields of an `AGpsRefLocationSamsung`, of either variant: offset and size. -/
def samsungFields : List (Nat × Nat) :=
  [(samsungLayout.type, 2), (samsungLayout.cellType, 2), (samsungLayout.mcc, 2),
    (samsungLayout.mnc, 2), (samsungLayout.lac, 2), (pscOffset, 2), (samsungLayout.cid, 4),
    (samsungLayout.mac, 6)]

/-- A byte of the struct that is in none of its fields. -/
def Padding (i : Nat) : Prop :=
  i < AGpsRefLocationSamsung.size ∧ ∀ f ∈ samsungFields, ¬ (f.1 ≤ i ∧ i < f.1 + f.2)

/-- What a call with the Samsung struct does: `seen` is what the vendor is handed. -/
structure RoundTrip (vendor : Mem → Nat → Mem) (buffer : Mem) (c : Caller) (seen : Mem) : Prop where
  handed : c.handed = [(seen, AGpsRefLocation.size)]
  /-- The vendor sees what the caller's struct says, read as a cell identity and as a MAC. -/
  sees : decode asusLayout seen = decode samsungLayout buffer
  /-- The caller gets what the vendor left. -/
  left : decode samsungLayout c.buffer = decode asusLayout (vendor seen AGpsRefLocation.size)
  psc : load16 c.buffer pscOffset = load16 buffer pscOffset
  padding : ∀ i, Padding i → c.buffer i = buffer i
  outside : ∀ i, AGpsRefLocationSamsung.size ≤ i → c.buffer i = buffer i
  /-- A vendor that changes nothing changes nothing of the caller's. -/
  unchanged : (∀ i < AGpsRefLocation.size, vendor seen AGpsRefLocation.size i = seen i) →
    c.buffer = buffer

/-! ## Where the caller's bytes come from -/

/-- The bytes of `tmp`. -/
theorem fillTmp_apply (tmp asusRefLoc backup : Mem) (i : Nat) :
    fillTmp tmp asusRefLoc backup i =
      if 16 ≤ i ∧ i < 20 then asusRefLoc (i - 4)
      else if 12 ≤ i ∧ i < 14 then backup i
      else if i < 2 ∨ 4 ≤ i ∧ i < 12 then asusRefLoc i
      else tmp i := by
  simp only [fillTmp, assign, store_load, samsungLayout_eq, asusLayout_eq,
    show pscOffset = 12 by decide]
  by_cases hcid : 16 ≤ i ∧ i < 20
  · rw [if_pos hcid, copy, if_pos hcid, show 12 + (i - 16) = i - 4 by omega]
  rw [if_neg hcid, copy, if_neg hcid]
  by_cases hpsc : 12 ≤ i ∧ i < 14
  · rw [if_pos hpsc, copy, if_pos hpsc, show 12 + (i - 12) = i by omega]
  rw [if_neg hpsc, copy, if_neg hpsc]
  by_cases hfront : i < 2 ∨ 4 ≤ i ∧ i < 12
  · rw [if_pos hfront]
    unfold copy
    split_ifs <;> first | omega | exact congrArg asusRefLoc (by omega)
  · rw [if_neg hfront]
    unfold copy
    split_ifs <;> first | omega | rfl

/-- The struct the vendor is handed. -/
def handedStruct (stack : Locals) (buffer : Mem) : Mem :=
  fillAsus stack.asusRefLoc (copy stack.backup 0 buffer 0 AGpsRefLocationSamsung.size)

theorem handedStruct_apply {stack : Locals} {buffer : Mem} {i : Nat} :
    (12 ≤ i ∧ i < 16 → handedStruct stack buffer i = buffer (i + 4)) ∧
      (i < 2 ∨ 4 ≤ i ∧ i < 12 → handedStruct stack buffer i = buffer i) := by
  have hbyte : ∀ k < 20, copy stack.backup 0 buffer 0 AGpsRefLocationSamsung.size k = buffer k := by
    intro k hk
    rw [copy, show AGpsRefLocationSamsung.size = 20 by decide, if_pos (by omega), Nat.zero_add,
      Nat.sub_zero]
  unfold handedStruct
  rw [fillAsus_apply]
  constructor
  · intro hcid
    rw [if_pos hcid, hbyte _ (by omega)]
  · intro hfront
    rw [if_neg (by omega), if_pos hfront, hbyte _ (by omega)]

variable (vendor : Mem → Nat → Mem) (stack : Locals) (buffer : Mem)

/-- A call with the Samsung struct. -/
def samsungCall : Caller :=
  shimSetRefLocation vendor stack buffer (BitVec.ofNat 32 AGpsRefLocationSamsung.size)

theorem samsungCall_handed :
    (samsungCall vendor stack buffer).handed =
      [(handedStruct stack buffer, AGpsRefLocation.size)] :=
  (shimSetRefLocation_of_le vendor stack buffer _ (by decide)).2.2

/-- **Every byte of the caller's buffer** is the vendor's at its place there, or the caller's own. -/
theorem buffer_after (i : Nat) :
    (samsungCall vendor stack buffer).buffer i =
      if 16 ≤ i ∧ i < 20 then vendor (handedStruct stack buffer) AGpsRefLocation.size (i - 4)
      else if i < 2 ∨ 4 ≤ i ∧ i < 12 then vendor (handedStruct stack buffer) AGpsRefLocation.size i
      else buffer i := by
  have hbuffer : (samsungCall vendor stack buffer).buffer =
      copy buffer 0 (fillTmp (copy stack.tmp 0 buffer 0 AGpsRefLocationSamsung.size)
        (vendor (handedStruct stack buffer) AGpsRefLocation.size)
        (copy stack.backup 0 buffer 0 AGpsRefLocationSamsung.size)) 0
        AGpsRefLocationSamsung.size := by
    unfold samsungCall shimSetRefLocation
    rw [if_neg (by decide)]
    rfl
  have hsize : AGpsRefLocationSamsung.size = 20 := by decide
  rw [hbuffer, copy, hsize]
  by_cases hin : i < 20
  · rw [if_pos (by omega), Nat.zero_add, Nat.sub_zero, fillTmp_apply]
    -- psc and the padding come back through `backup` and `tmp`
    have hback : ∀ dst : Mem, copy dst 0 buffer 0 20 i = buffer i := by
      intro dst
      rw [copy, if_pos (by omega), Nat.zero_add, Nat.sub_zero]
    rw [hback, hback]
    split_ifs <;> first | omega | rfl
  · rw [if_neg (by omega), if_neg (by omega), if_neg (by omega)]

/-! ## The round trip -/

/-- The padding is behind the outer `type` and behind `psc`. -/
theorem padding_iff {i : Nat} : Padding i ↔ i = 2 ∨ i = 3 ∨ i = 14 ∨ i = 15 := by
  unfold Padding
  simp only [samsungFields, samsungLayout_eq, show pscOffset = 12 by decide,
    show AGpsRefLocationSamsung.size = 20 by decide, List.forall_mem_cons]
  constructor
  · rintro ⟨hsize, hfree⟩
    omega
  · intro h
    exact ⟨by omega, by omega, by omega, by omega, by omega, by omega, by omega, by omega, by omega,
      by simp⟩

/-- **The reference location makes the round trip**, for every vendor and in either variant. -/
theorem ref_location_round_trip :
    ∃ seen, RoundTrip vendor buffer (samsungCall vendor stack buffer) seen := by
  refine ⟨handedStruct stack buffer, ?_⟩
  constructor
  case handed => exact samsungCall_handed vendor stack buffer
  case sees =>
    unfold handedStruct
    rw [decode_fillAsus, decode_memcpy]
  case left =>
    rw [samsungLayout_eq, asusLayout_eq]
    refine decode_congr (fun i hi => ?_) fun k hk => ?_
    · rw [buffer_after, if_neg (by omega), if_pos hi]
    · rw [buffer_after, if_pos (by omega), show 16 + k - 4 = 12 + k by omega]
  case psc =>
    refine load_congr 2 fun k hk => ?_
    rw [show pscOffset = 12 by decide, buffer_after, if_neg (by omega), if_neg (by omega)]
  case padding =>
    intro i hpad
    have hi := padding_iff.mp hpad
    rw [buffer_after, if_neg (by omega), if_neg (by omega)]
  case outside =>
    intro i hi
    rw [show AGpsRefLocationSamsung.size = 20 by decide] at hi
    rw [buffer_after, if_neg (by omega), if_neg (by omega)]
  case unchanged =>
    intro hsame
    rw [show AGpsRefLocation.size = 16 by decide] at hsame
    funext i
    rw [buffer_after, show AGpsRefLocation.size = 16 by decide]
    by_cases hcid : 16 ≤ i ∧ i < 20
    · rw [if_pos hcid, hsame _ (by omega), handedStruct_apply.1 (by omega),
        show i - 4 + 4 = i by omega]
    · rw [if_neg hcid]
      by_cases hfront : i < 2 ∨ 4 ≤ i ∧ i < 12
      · rw [if_pos hfront, hsame _ (by omega), handedStruct_apply.2 hfront]
      · rw [if_neg hfront]

end Codina.Gps
