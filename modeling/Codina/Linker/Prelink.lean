/-
  The linker with prelink support: where `ElfReader::ReserveAddressSpace` puts a library.

  A prelinked library says in its last eight bytes where it is to be loaded.  The patch passes that
  address to `mmap` with `MAP_FIXED`, which maps it whatever is there already; the address is compared
  with nothing.  Every other library is put where the kernel finds room.

  So nothing is shared in any run in which the range a prelinked library is granted is free when it asks
  for it, and a library that is granted a range in use shares it from then on (`prelinked_disjoint`).

  "In use" is what its owner goes on using: a mapping replaced under its owner stays in the list.  A
  caller of `android_dlopen_ext` may hand in an area it has reserved; the library then is in that area,
  and the rest of the area stays the caller's.
-/
import Codina.Lib.Bytes
import Codina.Lib.Ranges
import Codina.Lib.Runs
import Mathlib.Algebra.Ring.Nat

namespace Codina.Linker

open Codina.Bytes Codina.Ranges Codina.Runs

/-! ## Prelinked files -/

/-- An open file, and whether `lseek` and `read` work on it. -/
structure File where
  contents : List Byte
  readable : Bool := true

/-- `sizeof(prelink_info_t)`: a long and the tag. -/
def prelinkInfoSize : Nat := 8

/-- "PRE ". -/
def prelinkTag : List Byte := [0x50, 0x52, 0x45, 0x20]

/-- The base address a prelinked library asks for, and 0 for any other. -/
def is_prelinked (fd : File) : BitVec 32 :=
  if fd.contents.length < prelinkInfoSize ∨ fd.readable = false then 0
  else
    let info := fd.contents.drop (fd.contents.length - prelinkInfoSize)
    if info.drop 4 ≠ prelinkTag then 0 else load32 (fun i => info.getD i 0) 0

/-! ## `ReserveAddressSpace` -/

/-- What the reader knows of the library. -/
structure Elf where
  fd : File
  min_vaddr : Nat
  load_size : Nat

/-- `android_dlextinfo`: the flags read here, and the area. -/
structure DlExtInfo where
  reservedAddress : Bool := false
  reservedAddressHint : Bool := false
  forceFixedVaddr : Bool := false
  reserved_addr : Nat := 0
  reserved_size : Nat := 0

def reservedSize : Option DlExtInfo → Nat
  | some e => if e.reservedAddress || e.reservedAddressHint then e.reserved_size else 0
  | none => 0

def reservedHint : Option DlExtInfo → Bool
  | some e => !e.reservedAddress
  | none => true

def mmapHint (elf : Elf) : Option DlExtInfo → Nat
  | some e => if elf.min_vaddr ≠ 0 ∧ e.forceFixedVaddr then elf.min_vaddr else 0
  | none => 0

/-- `extinfo->reserved_addr`. -/
def reservedAddr : Option DlExtInfo → Nat
  | some e => e.reserved_addr
  | none => 0

/-- A call of `mmap` for private anonymous memory. -/
structure MmapCall where
  hint : Nat
  length : Nat
  fixed : Bool

/-- What the function leaves in the reader. -/
structure ElfReader where
  load_start : Nat
  load_size : Nat
  load_bias : Int
  required_base : BitVec 32

/-- The range reserved. -/
def ElfReader.range (reader : ElfReader) : Range := ⟨reader.load_start, reader.load_size⟩

inductive Result where
  | failed
  /-- The library is in the area handed in. -/
  | inArea (area : Range) (reader : ElfReader)
  /-- This call has mapped its range. -/
  | mapped (call : MmapCall) (reader : ElfReader)

/-- `mmap` answers with an address, or `MAP_FAILED`. -/
def ReserveAddressSpace (mmap : MmapCall → Option Nat) (elf : Elf) (extinfo : Option DlExtInfo) :
    Result :=
  -- no loadable segments
  if elf.load_size = 0 then .failed
  else if reservedSize extinfo < elf.load_size then
    -- the reserved address space is smaller than needed
    if reservedHint extinfo = false then .failed
    else
      let required_base := is_prelinked elf.fd
      let call : MmapCall :=
        if required_base ≠ 0 then ⟨required_base.toNat, elf.load_size, true⟩
        else ⟨mmapHint elf extinfo, elf.load_size, false⟩
      match mmap call with
      | none => .failed
      | some start =>
        .mapped call ⟨start, elf.load_size, (start : Int) - elf.min_vaddr, required_base⟩
  else
    let start := reservedAddr extinfo
    .inArea ⟨start, reservedSize extinfo⟩
      ⟨start, elf.load_size, (start : Int) - elf.min_vaddr, 0⟩

/-! ## The address space of a process -/

structure State where
  /-- What the kernel has mapped. -/
  mapped : Nat → Bool
  /-- The ranges of the libraries that are loaded. -/
  libraries : List Range := []
  /-- All other mappings in use, areas reserved for libraries among them. -/
  others : List Range

def State.inUse (s : State) : List Range := s.libraries ++ s.others

def mapRange (r : Range) (mapped : Nat → Bool) : Nat → Bool := fun a => decide (r.Has a) || mapped a

def unmapRange (r : Range) (mapped : Nat → Bool) : Nat → Bool := fun a =>
  !decide (r.Has a) && mapped a

/-- What `mmap` may answer: with `MAP_FIXED` the address asked for, without it a free range. -/
def MmapCall.Grants (call : MmapCall) (mapped : Nat → Bool) (start : Nat) : Prop :=
  if call.fixed then start = call.hint else ∀ k < call.length, mapped (start + k) = false

instance (call : MmapCall) (mapped : Nat → Bool) (start : Nat) :
    Decidable (call.Grants mapped start) :=
  inferInstanceAs (Decidable (if call.fixed then _ else _))

inductive Action where
  /-- `ReserveAddressSpace` for a library; `answer` is that of `mmap`. -/
  | load (elf : Elf) (extinfo : Option DlExtInfo) (answer : Option Nat)
  /-- A library is unloaded. -/
  | unload (r : Range)
  /-- Something else is mapped where the kernel finds room, or unmapped by its owner. -/
  | mmap (r : Range)
  | munmap (r : Range)

def step (s : State) : Action → Option State
  | .load elf extinfo answer =>
    match ReserveAddressSpace (fun _ => answer) elf extinfo with
    | .failed => some s
    | .inArea area reader =>
      if area ∈ s.others then some { s with
        libraries := reader.range :: s.libraries
        others := ⟨area.start + reader.load_size, area.size - reader.load_size⟩ ::
          s.others.erase area }
      else none
    | .mapped call reader =>
      if call.Grants s.mapped reader.load_start then some { s with
        mapped := mapRange reader.range s.mapped, libraries := reader.range :: s.libraries }
      else none
  | .unload r =>
    if r ∈ s.libraries then some { s with
      mapped := unmapRange r s.mapped, libraries := s.libraries.erase r }
    else none
  | .mmap r =>
    if ∀ k < r.size, s.mapped (r.start + k) = false then some { s with
      mapped := mapRange r s.mapped, others := r :: s.others }
    else none
  | .munmap r =>
    if r ∈ s.others then some { s with
      mapped := unmapRange r s.mapped, others := s.others.erase r }
    else none

/-- A process with these mappings and no library. -/
def start (others : List Range) : State where
  mapped a := others.any fun r => decide (r.Has a)
  others := others

/-- The libraries share no address with each other nor with anything else in use. -/
structure NothingShared (s : State) : Prop where
  libraries : Separate s.libraries
  others : ∀ l ∈ s.libraries, ∀ r ∈ s.others, l.Disjoint r

/-- The range of a prelinked library is free when `mmap` grants it. -/
def OnFreeMemory (s : State) : Action → Prop
  | .load elf extinfo answer =>
    is_prelinked elf.fd ≠ 0 → reservedSize extinfo < elf.load_size → reservedHint extinfo = true →
      answer.isSome → ∀ a, Range.Has ⟨(is_prelinked elf.fd).toNat, elf.load_size⟩ a →
        s.mapped a = false
  | _ => True

/-! ## What is mapped is what is in use -/

/-- No two ranges in use meet, and the kernel has mapped what they take up. -/
structure Tidy (s : State) : Prop where
  separate : Separate s.inUse
  mapped : ∀ a, s.mapped a = true ↔ Covered s.inUse a

theorem Tidy.nothingShared {s : State} (h : Tidy s) : NothingShared s := by
  obtain ⟨hlib, _, hcross⟩ := List.pairwise_append.mp h.separate
  exact ⟨hlib, hcross⟩

theorem Tidy.free {s : State} (h : Tidy s) {a : Nat} : s.mapped a = false ↔ ¬ Covered s.inUse a := by
  rw [← h.mapped a, Bool.not_eq_true]

theorem mapRange_iff {r : Range} {mapped : Nat → Bool} {a : Nat} :
    mapRange r mapped a = true ↔ r.Has a ∨ mapped a = true := by
  simp [mapRange]

theorem unmapRange_iff {r : Range} {mapped : Nat → Bool} {a : Nat} :
    unmapRange r mapped a = true ↔ mapped a = true ∧ ¬ r.Has a := by
  simp [unmapRange, and_comm]

theorem tidy_start {others : List Range} (h : Separate others) : Tidy (start others) :=
  ⟨h, fun a => by simp [start, State.inUse, Covered]⟩

/-- **A free range mapped** for a library or for something else. -/
theorem Tidy.map {s s' : State} {r : Range} (h : Tidy s)
    (hfree : ∀ a, r.Has a → s.mapped a = false) (hmapped : s'.mapped = mapRange r s.mapped)
    (huse : (r :: s.inUse).Perm s'.inUse) : Tidy s' := by
  have hsep : Separate (r :: s.inUse) :=
    separate_cons.mpr ⟨fun a ha => h.free.mp (hfree a ha), h.separate⟩
  refine ⟨hsep.perm huse, fun a => ?_⟩
  rw [hmapped, mapRange_iff, h.mapped, ← Covered.perm huse, covered_cons]

/-- **A range unmapped** by its owner. -/
theorem Tidy.unmap {s s' : State} {r : Range} (h : Tidy s)
    (hmapped : s'.mapped = unmapRange r s.mapped) (huse : s.inUse.Perm (r :: s'.inUse)) :
    Tidy s' := by
  have hsep := h.separate.perm huse
  refine ⟨(separate_cons.mp hsep).2, fun a => ?_⟩
  rw [hmapped, unmapRange_iff, h.mapped, covered_tail hsep, Covered.perm huse]

/-- **A library in its area**: the rest of the area stays where it is. -/
theorem Tidy.place {s s' : State} {start n size : Nat} (h : Tidy s) (hfits : n ≤ size)
    (hmapped : s'.mapped = s.mapped) {l : List Range}
    (huse : s.inUse.Perm (⟨start, size⟩ :: l))
    (huse' : (⟨start, n⟩ :: ⟨start + n, size - n⟩ :: l).Perm s'.inUse) : Tidy s' := by
  refine ⟨(separate_split hfits (h.separate.perm huse)).perm huse', fun a => ?_⟩
  rw [hmapped, h.mapped, ← Covered.perm huse', covered_split hfits, Covered.perm huse]

/-! ## Every step -/

/-- The three ends of `ReserveAddressSpace`. -/
theorem reserve_cases (mmap : MmapCall → Option Nat) (elf : Elf) (extinfo : Option DlExtInfo) :
    ReserveAddressSpace mmap elf extinfo = .failed ∨
    (∃ reader, ReserveAddressSpace mmap elf extinfo =
        .inArea ⟨reader.load_start, reservedSize extinfo⟩ reader ∧
      reader.load_size ≤ reservedSize extinfo) ∨
    ∃ call reader, ReserveAddressSpace mmap elf extinfo = .mapped call reader ∧
      mmap call = some reader.load_start ∧ reader.load_size = call.length ∧
      call.length = elf.load_size ∧ reservedSize extinfo < elf.load_size ∧
      reservedHint extinfo = true ∧ (call.fixed = true ↔ is_prelinked elf.fd ≠ 0) ∧
      (call.fixed = true → call.hint = (is_prelinked elf.fd).toNat) := by
  unfold ReserveAddressSpace
  by_cases hsize : elf.load_size = 0
  · rw [if_pos hsize]
    exact Or.inl rfl
  rw [if_neg hsize]
  by_cases hfits : reservedSize extinfo < elf.load_size
  · rw [if_pos hfits]
    by_cases hhint : reservedHint extinfo = false
    · rw [if_pos hhint]
      exact Or.inl rfl
    rw [if_neg hhint]
    have hhint' : reservedHint extinfo = true := by simpa using hhint
    simp only
    split
    · exact Or.inl rfl
    · rename_i answer hanswer
      refine Or.inr (Or.inr ⟨_, _, rfl, hanswer, ?_⟩)
      by_cases hpre : is_prelinked elf.fd ≠ 0
      · rw [if_pos hpre]
        exact ⟨rfl, rfl, hfits, hhint', ⟨fun _ => hpre, fun _ => rfl⟩, fun _ => rfl⟩
      · rw [if_neg hpre]
        exact ⟨rfl, rfl, hfits, hhint', ⟨fun h => (by cases h), fun h => absurd h hpre⟩,
          fun h => by cases h⟩
  · rw [if_neg hfits]
    exact Or.inr (Or.inl ⟨⟨reservedAddr extinfo, elf.load_size, _, 0⟩, rfl, Nat.not_lt.mp hfits⟩)

/-- A guarded step that is taken. -/
theorem of_guard {c : Prop} [Decidable c] {t s' : State}
    (h : (if c then some t else none) = some s') : c ∧ s' = t := by
  obtain ⟨hc, ht⟩ := Option.ite_none_right_eq_some.mp h
  exact ⟨hc, (Option.some.inj ht).symm⟩

theorem has_offset {r : Range} {a : Nat} (h : r.Has a) : ∃ k < r.size, a = r.start + k :=
  ⟨a - r.start, by have := h.2; have := h.1; omega, by have := h.1; omega⟩

/-- **A step on free memory** leaves everything in its place. -/
theorem tidy_step {s s' : State} {a : Action} (h : Tidy s) (hok : OnFreeMemory s a)
    (hs : step s a = some s') : Tidy s' := by
  cases a with
  | load elf extinfo answer =>
    rcases reserve_cases (fun _ => answer) elf extinfo with
      hfail | ⟨reader, harea, hfits⟩ | ⟨call, reader, hmap, hanswer, hlen, hsize, hbig, hhint,
        hfixed, hbase⟩
    · simp only [step, hfail] at hs
      cases hs
      exact h
    · simp only [step, harea] at hs
      obtain ⟨hmem, rfl⟩ := of_guard hs
      -- the area goes, the library and the rest of the area come
      have hout := List.perm_cons_erase hmem
      refine h.place (l := s.libraries ++ s.others.erase _) hfits rfl
        ((hout.append_left s.libraries).trans List.perm_middle) ?_
      exact (List.perm_middle.symm).cons _
    · simp only [step, hmap] at hs
      obtain ⟨hgrants, rfl⟩ := of_guard hs
      refine h.map (fun a ha => ?_) rfl (List.Perm.refl _)
      unfold MmapCall.Grants at hgrants
      by_cases hf : call.fixed = true
      · -- the range asked for, which is free
        rw [if_pos hf] at hgrants
        refine hok (hfixed.mp hf) hbig hhint (by rw [hanswer]; rfl) a ?_
        rw [← hbase hf, ← hgrants, ← hsize, ← hlen]
        exact ha
      · rw [if_neg hf] at hgrants
        obtain ⟨k, hk, rfl⟩ := has_offset ha
        exact hgrants k (hlen ▸ hk)
  | unload r =>
    obtain ⟨hmem, rfl⟩ := of_guard hs
    exact h.unmap rfl ((List.perm_cons_erase hmem).append_right s.others)
  | mmap r =>
    obtain ⟨hfree, rfl⟩ := of_guard hs
    refine h.map (fun a ha => ?_) rfl List.perm_middle.symm
    obtain ⟨k, hk, rfl⟩ := has_offset ha
    exact hfree k hk
  | munmap r =>
    obtain ⟨hmem, rfl⟩ := of_guard hs
    have hout := List.perm_cons_erase hmem
    exact h.unmap rfl ((hout.append_left s.libraries).trans List.perm_middle)

/-- A prelinked library that is granted its range. -/
theorem reserve_prelinked (mmap : MmapCall → Option Nat) (elf : Elf) (extinfo : Option DlExtInfo)
    {start : Nat} (hpre : is_prelinked elf.fd ≠ 0) (hbig : reservedSize extinfo < elf.load_size)
    (hhint : reservedHint extinfo = true)
    (hanswer : mmap ⟨(is_prelinked elf.fd).toNat, elf.load_size, true⟩ = some start) :
    ReserveAddressSpace mmap elf extinfo =
      .mapped ⟨(is_prelinked elf.fd).toNat, elf.load_size, true⟩
        ⟨start, elf.load_size, (start : Int) - elf.min_vaddr, is_prelinked elf.fd⟩ := by
  unfold ReserveAddressSpace
  rw [if_neg (by omega), if_pos hbig, if_neg (by simp [hhint])]
  simp only
  rw [if_pos hpre, hanswer]

/-- **A step on memory in use** shares it. -/
theorem shared_step {s s' : State} {a : Action} (h : Tidy s) (hbad : ¬ OnFreeMemory s a)
    (hs : step s a = some s') : ¬ NothingShared s' := by
  cases a with
  | load elf extinfo answer =>
    simp only [OnFreeMemory, Classical.not_imp, not_forall] at hbad
    obtain ⟨hpre, hbig, hhint, hsome, a, ha, hmapped⟩ := hbad
    obtain ⟨r, hr, hra⟩ := (h.mapped a).mp (by simpa using hmapped)
    obtain ⟨answer, rfl⟩ := Option.isSome_iff_exists.mp hsome
    simp only [step, reserve_prelinked (fun _ => some answer) elf extinfo hpre hbig hhint rfl] at hs
    obtain ⟨hgrants, rfl⟩ := of_guard hs
    -- the range granted is the one asked for
    obtain rfl : answer = (is_prelinked elf.fd).toNat := hgrants
    rintro ⟨hlib, hothers⟩
    rcases List.mem_append.mp hr with hr | hr
    · exact (List.pairwise_cons.mp hlib).1 r hr a ha hra
    · exact hothers _ List.mem_cons_self r hr a ha hra
  | unload r => exact absurd trivial hbad
  | mmap r => exact absurd trivial hbad
  | munmap r => exact absurd trivial hbad

/-! ## Every run -/

/-- **Prelinked libraries land on memory in use only where they are told to.**  In a run whose
    prelinked libraries are granted free ranges, nothing is shared in any state, a call that fails
    changes nothing, and the next step shares nothing exactly when it meets the condition too. -/
theorem prelinked_disjoint (others : List Range) (hothers : Separate others) (s : State)
    (hrun : Run step OnFreeMemory (start others) s) :
    NothingShared s ∧
      (∀ elf extinfo answer, ReserveAddressSpace (fun _ => answer) elf extinfo = .failed →
        step s (.load elf extinfo answer) = some s) ∧
      ∀ a s', step s a = some s' → (NothingShared s' ↔ OnFreeMemory s a) := by
  have htidy : Tidy s :=
    hrun.inv (tidy_start hothers) fun _ _ _ h hok hs => tidy_step h hok hs
  refine ⟨htidy.nothingShared, fun elf extinfo answer hfail => ?_, fun a s' hs => ?_⟩
  · simp only [step, hfail]
  · constructor
    · intro hshared
      by_contra hbad
      exact shared_step htidy hbad hs hshared
    · intro hok
      exact (tidy_step htidy hok hs).nothingShared

/-! ## Two runs -/

/-- A library of one page; all that matters of the file is its end. -/
def prelinkedAt (base : BitVec 32) : Elf where
  fd := { contents := (List.range 4).map (byteOf base) ++ prelinkTag }
  min_vaddr := 0
  load_size := 0x1000

theorem is_prelinked_at (base : BitVec 32) : is_prelinked (prelinkedAt base).fd = base := by
  unfold is_prelinked
  rw [if_neg (by simp [prelinkedAt, prelinkInfoSize, prelinkTag])]
  show load32 _ 0 = base
  apply load_of_bytes
  intro k hk
  match k, hk with
  | 0, _ => rfl
  | 1, _ => rfl
  | 2, _ => rfl
  | 3, _ => rfl

/-- A prelinked library is loaded at its base, whatever is there. -/
theorem load_prelinked (s : State) (base : BitVec 32) (h : base ≠ 0) :
    step s (.load (prelinkedAt base) none (some base.toNat)) = some { s with
      mapped := mapRange ⟨base.toNat, 0x1000⟩ s.mapped
      libraries := ⟨base.toNat, 0x1000⟩ :: s.libraries } := by
  have hres := reserve_prelinked (fun _ => some base.toNat) (prelinkedAt base) none
    (by rwa [is_prelinked_at]) (show 0 < 0x1000 by decide) rfl rfl
  simp only [step, hres, is_prelinked_at]
  rw [if_pos (show MmapCall.Grants ⟨base.toNat, (prelinkedAt base).load_size, true⟩ s.mapped
    base.toNat from rfl)]
  rfl

/-- One prelinked library, away from what is mapped. -/
theorem prelinked_alone :
    ∃ s, Run step OnFreeMemory (start [⟨0x8000, 0x1000⟩]) s ∧
      s.libraries = [⟨0x40000000, 0x1000⟩] ∧ NothingShared s := by
  have hfree : OnFreeMemory (start [⟨0x8000, 0x1000⟩])
      (.load (prelinkedAt 0x40000000) none (some 0x40000000)) := by
    rintro _ _ _ _ a ⟨hge, _⟩
    rw [is_prelinked_at] at hge
    change 0x40000000 ≤ a at hge
    show (decide (Range.Has ⟨0x8000, 0x1000⟩ a) || false) = false
    rw [Bool.or_false]
    refine decide_eq_false fun h => ?_
    have hlt : a < 0x8000 + 0x1000 := h.2
    omega
  have hrun := Run.next _ Run.start hfree (load_prelinked _ 0x40000000 (by decide))
  exact ⟨_, hrun, rfl, (prelinked_disjoint [⟨0x8000, 0x1000⟩] (List.pairwise_singleton _ _) _ hrun).1⟩

/-- Two libraries prelinked at the same address are loaded there both. -/
theorem same_base_shared :
    ∃ s, Reach step (start []) s ∧
      s.libraries = [⟨0x40000000, 0x1000⟩, ⟨0x40000000, 0x1000⟩] ∧ ¬ NothingShared s := by
  have hfirst := load_prelinked (start []) 0x40000000 (by decide)
  refine ⟨_, Run.next _ (Run.next _ Run.start trivial hfirst) trivial
    (load_prelinked _ 0x40000000 (by decide)), rfl, fun h => ?_⟩
  have hapart := (List.pairwise_cons.mp h.libraries).1 ⟨0x40000000, 0x1000⟩ List.mem_cons_self
  exact hapart 0x40000000 (by decide) (by decide)

end Codina.Linker
