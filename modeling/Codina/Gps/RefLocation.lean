/-
  `shim_set_ref_location`: a reference location passed through the vendor's older struct.

  Samsung's AGPS reference location has a 16-bit `psc` that the vendor library does not know.  The
  shim takes the caller's `AGpsRefLocationSamsung`, hands the vendor an `AGpsRefLocation` without
  `psc`, and copies what the vendor leaves there back into the caller's buffer.

  The two structs differ in more than one field: `psc` and the padding behind it move `cid` from
  offset 12 to 16 and the size from 16 to 20.  Everything here is at the level of bytes, with the
  offsets computed from the declarations, so that the overlay of `cellID` and `mac`, the padding and
  the uninitialised locals are what they are in memory.

  `sz_struct` tells which struct the caller has.  The shim refuses only structs larger than its own,
  so a caller with the smaller one, which is the type the interface declares, has 20 bytes read from
  and written to its 16 (`refLocation_overrun`).  The exact condition is `respectsCaller_iff`.
-/
import Codina.Lib.Bytes

namespace Codina.Gps

open Codina.Bytes

/-! ## The structs of `gps.h` -/

def AGpsRefLocationCellIDSamsung : CType :=
  .struct [.uint16, .uint16, .uint16, .uint16, .uint16, .uint32]

def AGpsRefLocationCellID : CType := .struct [.uint16, .uint16, .uint16, .uint16, .uint32]

def AGpsRefLocationMac : CType := .struct [.array .uint8 6]

def AGpsRefLocationSamsung : CType :=
  .struct [.uint16, .union [AGpsRefLocationCellIDSamsung, AGpsRefLocationMac]]

def AGpsRefLocation : CType := .struct [.uint16, .union [AGpsRefLocationCellID, AGpsRefLocationMac]]

/-- Where the fields of a reference location are; `type` is the outer one, `cellType` that of
    `u.cellID`. -/
structure RefLayout where
  size : Nat
  type : Nat
  cellType : Nat
  mcc : Nat
  mnc : Nat
  lac : Nat
  cid : Nat
  mac : Nat
deriving DecidableEq

/-- The layout of `loc`, whose cell identity is `cell` with `cid` as field number `cid`. -/
def layoutOf (loc cell : CType) (cid : Nat) : RefLayout :=
  { size := loc.size
    type := loc.offset 0
    cellType := loc.offset 1 + cell.offset 0
    mcc := loc.offset 1 + cell.offset 1
    mnc := loc.offset 1 + cell.offset 2
    lac := loc.offset 1 + cell.offset 3
    cid := loc.offset 1 + cell.offset cid
    mac := loc.offset 1 + AGpsRefLocationMac.offset 0 }

def samsungLayout : RefLayout := layoutOf AGpsRefLocationSamsung AGpsRefLocationCellIDSamsung 5

def asusLayout : RefLayout := layoutOf AGpsRefLocation AGpsRefLocationCellID 4

/-- `offsetof(AGpsRefLocationSamsung, u.cellID.psc)`. -/
def pscOffset : Nat := AGpsRefLocationSamsung.offset 1 + AGpsRefLocationCellIDSamsung.offset 4

theorem samsungLayout_eq : samsungLayout = ⟨20, 0, 4, 6, 8, 10, 16, 4⟩ := by decide

theorem asusLayout_eq : asusLayout = ⟨16, 0, 4, 6, 8, 10, 12, 4⟩ := by decide

/-- The struct a caller with this `sz_struct` has. -/
def layoutOfSize (sz : Nat) : Option RefLayout :=
  if sz = samsungLayout.size then some samsungLayout
  else if sz = asusLayout.size then some asusLayout
  else none

/-- What a reference location says: its type, and the union read both ways. -/
structure RefLocation where
  type : BitVec 16
  cellType : BitVec 16
  mcc : BitVec 16
  mnc : BitVec 16
  lac : BitVec 16
  cid : BitVec 32
  mac : List Byte

def decode (L : RefLayout) (m : Mem) : RefLocation :=
  { type := load16 m L.type
    cellType := load16 m L.cellType
    mcc := load16 m L.mcc
    mnc := load16 m L.mnc
    lac := load16 m L.lac
    cid := load32 m L.cid
    mac := (List.range 6).map fun k => m (L.mac + k) }

/-! ## The shim -/

/-- The caller's buffer, the offsets of it read and written so far, and the structs handed to the
    vendor with the size given. -/
structure Caller where
  buffer : Mem
  reads : List Nat := []
  writes : List Nat := []
  handed : List (Mem × Nat) := []

/-- `memcpy(&dst, agps_reflocation, n)`. -/
def Caller.memcpyFrom (c : Caller) (dst : Mem) (n : Nat) : Mem × Caller :=
  (copy dst 0 c.buffer 0 n, { c with reads := c.reads ++ List.range n })

/-- `memcpy(agps_reflocation, &src, n)`. -/
def Caller.memcpyTo (c : Caller) (src : Mem) (n : Nat) : Caller :=
  { c with buffer := copy c.buffer 0 src 0 n, writes := c.writes ++ List.range n }

/-- `vendor_set_ref_location(&location, sz)`; the vendor may change the struct it is given. -/
def Caller.vendorSetRefLocation (c : Caller) (vendor : Mem → Nat → Mem) (location : Mem) (sz : Nat) :
    Mem × Caller :=
  (vendor location sz, { c with handed := c.handed ++ [(location, sz)] })

/-- `dst.field = src.field` for a field of `n` bytes at offsets `d` and `s`. -/
def assign (dst : Mem) (d : Nat) (src : Mem) (s n : Nat) : Mem := store dst d n (load src s n)

/-- The assignments to `asusRefLoc`. -/
def fillAsus (asusRefLoc backup : Mem) : Mem :=
  let m := assign asusRefLoc asusLayout.type backup samsungLayout.type 2
  let m := assign m asusLayout.cellType backup samsungLayout.cellType 2
  let m := assign m asusLayout.mcc backup samsungLayout.mcc 2
  let m := assign m asusLayout.mnc backup samsungLayout.mnc 2
  let m := assign m asusLayout.lac backup samsungLayout.lac 2
  assign m asusLayout.cid backup samsungLayout.cid 4

/-- The assignments to `tmp`. -/
def fillTmp (tmp asusRefLoc backup : Mem) : Mem :=
  let m := assign tmp samsungLayout.type asusRefLoc asusLayout.type 2
  let m := assign m samsungLayout.cellType asusRefLoc asusLayout.cellType 2
  let m := assign m samsungLayout.mcc asusRefLoc asusLayout.mcc 2
  let m := assign m samsungLayout.mnc asusRefLoc asusLayout.mnc 2
  let m := assign m samsungLayout.lac asusRefLoc asusLayout.lac 2
  let m := assign m pscOffset backup pscOffset 2
  assign m samsungLayout.cid asusRefLoc asusLayout.cid 4

/-- The bytes on the stack where the locals are, before they are assigned. -/
structure Locals where
  backup : Mem
  asusRefLoc : Mem
  tmp : Mem

def shimSetRefLocation (vendor : Mem → Nat → Mem) (stack : Locals) (agps_reflocation : Mem)
    (sz_struct : BitVec 32) : Caller :=
  let c : Caller := { buffer := agps_reflocation }
  if BitVec.ofNat 32 AGpsRefLocationSamsung.size < sz_struct then c
  else
    let (backup, c) := c.memcpyFrom stack.backup AGpsRefLocationSamsung.size
    let asusRefLoc := fillAsus stack.asusRefLoc backup
    let (asusRefLoc, c) := c.vendorSetRefLocation vendor asusRefLoc AGpsRefLocation.size
    -- copy it back
    let (tmp, c) := c.memcpyFrom stack.tmp AGpsRefLocationSamsung.size
    c.memcpyTo (fillTmp tmp asusRefLoc backup) AGpsRefLocationSamsung.size

/-! ## What the vendor sees -/

/-- The bytes of the struct handed to the vendor. -/
theorem fillAsus_apply (asusRefLoc backup : Mem) (i : Nat) :
    fillAsus asusRefLoc backup i =
      if 12 ≤ i ∧ i < 16 then backup (i + 4)
      else if i < 2 ∨ 4 ≤ i ∧ i < 12 then backup i
      else asusRefLoc i := by
  simp only [fillAsus, assign, store_load, samsungLayout_eq, asusLayout_eq]
  by_cases hcid : 12 ≤ i ∧ i < 16
  · rw [if_pos hcid, copy, if_pos hcid, show 16 + (i - 12) = i + 4 by omega]
  rw [if_neg hcid, copy, if_neg hcid]
  -- the other fields have the same offset in both structs
  by_cases hfront : i < 2 ∨ 4 ≤ i ∧ i < 12
  · rw [if_pos hfront]
    unfold copy
    split_ifs <;> first | omega | exact congrArg backup (by omega)
  · rw [if_neg hfront]
    unfold copy
    split_ifs <;> first | omega | rfl

/-- Only `size` and `cid` tell the two layouts apart, so two structs say the same when their first
    fields have the same bytes and the bytes of `cid` agree. -/
theorem decode_congr {m m' : Mem} {size size' cid cid' : Nat}
    (hfront : ∀ i, i < 2 ∨ 4 ≤ i ∧ i < 12 → m i = m' i)
    (hcid : ∀ k < 4, m (cid + k) = m' (cid' + k)) :
    decode ⟨size, 0, 4, 6, 8, 10, cid, 4⟩ m = decode ⟨size', 0, 4, 6, 8, 10, cid', 4⟩ m' := by
  have hword : ∀ a, a = 0 ∨ a = 4 ∨ a = 6 ∨ a = 8 ∨ a = 10 → load16 m a = load16 m' a := by
    intro a ha
    exact load_congr 2 fun k hk => hfront (a + k) (by omega)
  have hlong : load32 m cid = load32 m' cid' := load_congr 4 hcid
  have hmac : ∀ k ∈ List.range 6, m (4 + k) = m' (4 + k) := by
    intro k hk
    have := List.mem_range.mp hk
    exact hfront (4 + k) (by omega)
  simp only [decode]
  rw [hword 0 (by omega), hword 4 (by omega), hword 6 (by omega), hword 8 (by omega),
    hword 10 (by omega), hlong, List.map_congr_left hmac]

/-- **The vendor sees what the Samsung struct says**, whichever way the union is meant. -/
theorem decode_fillAsus (asusRefLoc backup : Mem) :
    decode asusLayout (fillAsus asusRefLoc backup) = decode samsungLayout backup := by
  rw [samsungLayout_eq, asusLayout_eq]
  refine decode_congr (fun i hi => ?_) fun k hk => ?_
  · rw [fillAsus_apply, if_neg (by omega), if_pos hi]
  · rw [fillAsus_apply, if_pos (by omega), show 12 + k + 4 = 16 + k by omega]

/-! ## The shim and the caller's buffer -/

/-- Either the vendor is not called, or only bytes of the caller's struct are read and written, and
    the vendor is handed an `AGpsRefLocation` that says what the caller's struct says. -/
def RespectsCaller (vendor : Mem → Nat → Mem) (stack : Locals) (buffer : Mem) (sz : BitVec 32) :
    Prop :=
  let c := shimSetRefLocation vendor stack buffer sz
  c.handed = [] ∨
    (∀ i ∈ c.reads, i < sz.toNat) ∧ (∀ i ∈ c.writes, i < sz.toNat) ∧
      ∀ h ∈ c.handed, h.2 = asusLayout.size ∧
        ∃ L, layoutOfSize sz.toNat = some L ∧ decode asusLayout h.1 = decode L buffer

/-- The first copy takes the whole Samsung struct. -/
theorem decode_memcpy (dst buffer : Mem) :
    decode samsungLayout (copy dst 0 buffer 0 AGpsRefLocationSamsung.size) =
      decode samsungLayout buffer := by
  have hsize : AGpsRefLocationSamsung.size = 20 := by decide
  have hbyte : ∀ i < 20, copy dst 0 buffer 0 AGpsRefLocationSamsung.size i = buffer i := by
    intro i hi
    rw [copy, hsize, if_pos (by omega), Nat.zero_add, Nat.sub_zero]
  rw [samsungLayout_eq]
  exact decode_congr (fun i _ => hbyte i (by omega)) fun k _ => hbyte (16 + k) (by omega)

/-- What the shim does when the size does not make it return at once. -/
theorem shimSetRefLocation_of_le (vendor : Mem → Nat → Mem) (stack : Locals) (buffer : Mem)
    (sz : BitVec 32) (h : sz.toNat ≤ 20) :
    let c := shimSetRefLocation vendor stack buffer sz
    c.reads = List.range 20 ++ List.range 20 ∧ c.writes = List.range 20 ∧
      c.handed = [(fillAsus stack.asusRefLoc
        (copy stack.backup 0 buffer 0 AGpsRefLocationSamsung.size), asusLayout.size)] := by
  have hnot : ¬ BitVec.ofNat 32 AGpsRefLocationSamsung.size < sz := by
    rw [show AGpsRefLocationSamsung.size = 20 by decide, BitVec.lt_def]
    show ¬ 20 < sz.toNat
    omega
  unfold shimSetRefLocation
  rw [if_neg hnot]
  exact ⟨rfl, rfl, rfl⟩

theorem shimSetRefLocation_of_gt (vendor : Mem → Nat → Mem) (stack : Locals) (buffer : Mem)
    (sz : BitVec 32) (h : 20 < sz.toNat) :
    shimSetRefLocation vendor stack buffer sz = { buffer := buffer } := by
  have hlt : BitVec.ofNat 32 AGpsRefLocationSamsung.size < sz := by
    rw [show AGpsRefLocationSamsung.size = 20 by decide, BitVec.lt_def]
    exact h
  unfold shimSetRefLocation
  rw [if_pos hlt]

/-- **The shim respects the caller's struct exactly when that is at least a Samsung struct.** -/
theorem respectsCaller_iff (vendor : Mem → Nat → Mem) (stack : Locals) (buffer : Mem)
    (sz : BitVec 32) :
    RespectsCaller vendor stack buffer sz ↔ AGpsRefLocationSamsung.size ≤ sz.toNat := by
  rw [show AGpsRefLocationSamsung.size = 20 by decide]
  unfold RespectsCaller
  by_cases hgt : 20 < sz.toNat
  · rw [shimSetRefLocation_of_gt vendor stack buffer sz hgt]
    exact ⟨fun _ => by omega, fun _ => Or.inl rfl⟩
  obtain ⟨hreads, hwrites, hhanded⟩ :=
    shimSetRefLocation_of_le vendor stack buffer sz (by omega)
  simp only [hreads, hwrites, hhanded]
  constructor
  · rintro (hnone | ⟨hread, _⟩)
    · exact absurd hnone (by simp)
    · -- the last byte the first memcpy reads
      have := hread 19 (by decide)
      omega
  · intro hle
    have hsz : sz.toNat = 20 := by omega
    refine Or.inr ⟨fun i hi => ?_, fun i hi => ?_, fun h hh => ?_⟩
    · have : i < 20 := by simpa using hi
      omega
    · have : i < 20 := by simpa using hi
      omega
    · rw [List.mem_singleton.mp hh]
      refine ⟨rfl, samsungLayout, by rw [hsz]; rfl, ?_⟩
      rw [decode_fillAsus, decode_memcpy]

/-- A caller with the `AGpsRefLocation` the interface declares: byte 19 of its 16 is read. -/
theorem refLocation_overrun :
    ¬ ∀ (vendor : Mem → Nat → Mem) (stack : Locals) (buffer : Mem) (sz : BitVec 32),
      RespectsCaller vendor stack buffer sz := by
  intro hall
  rcases hall (fun m _ => m) ⟨fun _ => 0, fun _ => 0, fun _ => 0⟩ (fun _ => 0) 16 with hnone | ⟨hread, _⟩
  · exact absurd hnone (by decide)
  · exact absurd (hread 19 (by decide)) (by decide)

end Codina.Gps
