/-
  The shared buffer of `SharedBuffer.cpp`: a size, a reference count and storage behind them.

  A buffer is untyped in the source; here its storage is the list of the items that fit, each a slot
  that holds a value or none (`slots`).  The sizes stay in bytes and are those of a 32-bit `size_t`.
  `malloc` is the platform's: it answers each request with yes or no, and an address that was given
  back is not given out again, so that a dangling pointer can be told from a live one.  A buffer that
  `realloc` resizes counts as a new one, since the pointer to the old is no longer valid.

  The count is a natural number; it is 0 only between `release(eKeepStorage)` and `dealloc`.
-/
import Codina.Lib.Faults
import Codina.Lib.Refcount
import Codina.Lib.Slots

namespace Codina.Utils

open Codina.Faults Codina.Faults.Prog Codina.Refcount Codina.Slots

def SIZE_MAX : Nat := 0xFFFFFFFF

/-- The machine: `sizeof(SharedBuffer)`, and what `malloc` answers to its `n`-th request. -/
structure Platform where
  header : Nat
  malloc : Nat → Bool

/-- The same machine with memory for every request. -/
def Platform.generous (P : Platform) : Platform := { P with malloc := fun _ => true }

/-- A call from `s` is refused memory: with memory for every request it would go otherwise. -/
def RefusedIn {σ β : Type} (P : Platform) (call : Platform → Prog σ β) (s : σ) : Prop :=
  call P s ≠ call P.generous s

/-- What `VectorImpl` is told of its item type (`mItemSize`, `mFlags`), and the virtual functions. -/
structure Traits (α : Type) where
  itemSize : Nat
  itemSize_pos : 0 < itemSize
  HAS_TRIVIAL_CTOR : Bool
  HAS_TRIVIAL_DTOR : Bool
  HAS_TRIVIAL_COPY : Bool
  /-- Whether `do_move_forward` and `do_move_backward` are `memmove`. -/
  trivialMove : Bool
  /-- What `do_construct` makes. -/
  value : α
  /-- What the bytes of slot `i` of the buffer at `a` read as where nothing was ever stored. -/
  junk : Nat → Nat → α

structure SharedBuffer (α : Type) where
  mSize : Nat
  slots : List (Option α)

namespace SharedBuffer

variable {α : Type} (P : Platform) (T : Traits α)

abbrev Memory (α : Type) : Type := Heap (SharedBuffer α)

/-- A program on the memory. -/
abbrev M (α β : Type) : Type := Prog (Memory α) β

/-- Follow a pointer; a dangling one is undefined. -/
def deref (a : Nat) : M α (Cell (SharedBuffer α)) := do
  let h ← read
  demand (h.cells a)

def store (a : Nat) (c : Cell (SharedBuffer α)) : M α Unit := do
  let h ← read
  write (h.put a c)

def free (a : Nat) : M α Unit := do
  let _ ← deref a
  let h ← read
  write (h.remove a)

/-- Storage of `size` bytes in which nothing lives. -/
def blank (size : Nat) : SharedBuffer α := ⟨size, List.replicate (size / T.itemSize) none⟩

def alloc (size : Nat) : M α (Option Nat) := do
  fatalIf (SIZE_MAX - P.header ≤ size)
  let h ← read
  if P.malloc h.next then
    write (h.alloc (blank T size))
    return some h.next
  else
    write h.skip
    return none

def dealloc (released : Nat) : M α Int := do
  let c ← deref released
  if c.refs ≠ 0 then
    return -1
  else
    free released
    return 0

def acquire (a : Nat) : M α Unit := do
  let c ← deref a
  store a { c with refs := c.refs + 1 }

/-- Returns the count before.  The storage is kept where `eKeepStorage` is set. -/
def release (eKeepStorage : Bool) (a : Nat) : M α Nat := do
  let c ← deref a
  if c.refs = 1 then
    store a { c with refs := 0 }
    if eKeepStorage then
      return 1
    else
      free a
      return 1
  else
    store a { c with refs := c.refs - 1 }
    return c.refs

def attemptEdit (a : Nat) : M α (Option Nat) := do
  let c ← deref a
  if c.refs = 1 then
    return some a
  else
    return none

/-- `memcpy` of the first `size` bytes of one buffer to another: every item that lies in them whole. -/
def memcpy (dest src size : Nat) : M α Unit := do
  let d ← deref dest
  let s ← deref src
  let xs := s.payload.slots.take (size / T.itemSize)
  store dest { d with payload.slots := overwrite d.payload.slots 0 xs }

/-- The slots of a buffer resized to `size` bytes. -/
def resizeSlots (s : List (Option α)) (size : Nat) : List (Option α) :=
  s.take (size / T.itemSize) ++ List.replicate (size / T.itemSize - s.length) none

def realloc (a size : Nat) : M α (Option Nat) := do
  let c ← deref a
  let h ← read
  if P.malloc h.next then
    write (((h.remove a).alloc ⟨size, resizeSlots T c.payload.slots size⟩))
    return some h.next
  else
    write h.skip
    return none

def edit (a : Nat) : M α (Option Nat) := do
  let c ← deref a
  if c.refs = 1 then
    return some a
  else
    match ← alloc P T c.payload.mSize with
    | some sb =>
      memcpy T sb a c.payload.mSize
      let _ ← release false a
      return some sb
    | none => return none

/-- The end of `editResize`: a new buffer with what fits of the old one. -/
def copyResize (a newSize : Nat) : M α (Option Nat) := do
  match ← alloc P T newSize with
  | some sb =>
    let c ← deref a
    memcpy T sb a (min newSize c.payload.mSize)
    let _ ← release false a
    return some sb
  | none => return none

def editResize (a newSize : Nat) : M α (Option Nat) := do
  let c ← deref a
  if c.refs = 1 then
    if c.payload.mSize = newSize then
      return some a
    else
      fatalIf (SIZE_MAX - P.header ≤ newSize)
      match ← realloc P T a newSize with
      | some buf => return some buf
      | none => copyResize P T a newSize
  else
    copyResize P T a newSize

def reset (a new_size : Nat) : M α (Option Nat) := do
  match ← alloc P T new_size with
  | some sb =>
    let _ ← release false a
    return some sb
  | none => return none

/-! ## What each operation leaves

`Owned h (pts a p :: os)`: the caller holds the buffer at `a`, which is `p`, beside the owners `os`.
Each specification is a frame rule in `os`. -/

section

variable {P T} {h : Memory α} {os : List (Owner (SharedBuffer α))} {a : Nat} {p q : SharedBuffer α}
  {A : Prop}

/-- Some request was refused. -/
def Refused (P : Platform) : Prop := ∃ n, P.malloc n = false

theorem not_refused_generous : ¬ Refused P.generous := by
  rintro ⟨n, hn⟩
  cases hn

/-- A machine that refuses nothing is its generous self. -/
theorem generous_of_not_refused (hP : ¬ Refused P) : P.generous = P := by
  have hm : P.malloc = fun _ => true :=
    funext fun n => Bool.of_not_eq_false fun hn => hP ⟨n, hn⟩
  show Platform.mk P.header _ = Platform.mk P.header P.malloc
  rw [hm]

section

variable {σ β : Type} {call : Platform → Prog σ β} {s : σ} {B : Prop}

/-- What is refused to a call is refused. -/
theorem RefusedIn.refused (hr : RefusedIn P call s) : Refused P := by
  by_contra hP
  exact hr (by rw [generous_of_not_refused hP])

/-- A specification that excuses itself by any refusal may excuse itself by those that this call
    meets with, if it also holds of the machine that refuses none. -/
theorem ensures_refusedIn {Q : Prop → β → σ → Prop}
    (hmono : ∀ R R' : Prop, (R → R') → ∀ r s', Q R r s' → Q R' r s')
    (hP : Ensures (Refused P ∨ B) (call P) (Q (Refused P)) s)
    (hG : Ensures (Refused P.generous ∨ B) (call P.generous) (Q (Refused P.generous)) s) :
    Ensures (RefusedIn P call s ∨ B) (call P) (Q (RefusedIn P call s)) s := by
  by_cases hsame : call P s = call P.generous s
  · have hnone : Refused P.generous → RefusedIn P call s := fun hf => absurd hf not_refused_generous
    have hG' := (hG.weaken_abort (Or.imp_left hnone)).mono (hmono _ _ hnone)
    unfold Ensures at hG' ⊢
    rw [hsame]
    exact hG'
  · exact (hP.weaken_abort (Or.imp_left fun _ => hsame)).mono (hmono _ _ fun _ => hsame)

end

theorem ensures_deref {c : Cell (SharedBuffer α)} {Q : Cell (SharedBuffer α) → Memory α → Prop}
    (hc : h.cells a = some c) (hq : Q c h) : Ensures A (deref a) Q h :=
  ensures_bind (ensures_read (ensures_demand hc hq))

theorem ensures_store {c : Cell (SharedBuffer α)} {Q : Unit → Memory α → Prop}
    (hq : Q () (h.put a c)) : Ensures A (store a c) Q h :=
  ensures_bind (ensures_read (ensures_write hq))

theorem ensures_free {c : Cell (SharedBuffer α)} {Q : Unit → Memory α → Prop}
    (hc : h.cells a = some c) (hq : Q () (h.remove a)) : Ensures A (free a) Q h :=
  ensures_bind (ensures_deref hc (ensures_bind (ensures_read (ensures_write hq))))

/-- **`alloc`.** -/
theorem alloc_spec {size : Nat} (hO : Owned h os) (hA : SIZE_MAX - P.header ≤ size → A) :
    Ensures A (alloc P T size) (fun r h' => match r with
      | some b => Owned h' (pts b (blank T size) :: os) ∧ Alone os b ∧ size < SIZE_MAX - P.header
      | none => Owned h' os ∧ Refused P) h := by
  refine (ensures_fatalIf (Q := fun _ h' => h' = h ∧ size < SIZE_MAX - P.header) hA
    (fun hlt => ⟨rfl, Nat.lt_of_not_le hlt⟩)).bind ?_
  rintro - _ ⟨rfl, hsize⟩
  refine ensures_bind (ensures_read (ensures_ite (fun _ => ?_) fun hm => ?_))
  · exact ensures_bind (ensures_write (ensures_pure ⟨hO.alloc rfl, hO.alone_next, hsize⟩))
  · exact ensures_bind (ensures_write
      (ensures_pure ⟨hO.skip, _, Bool.eq_false_iff.mpr hm⟩))

/-- **`acquire`.** -/
theorem acquire_spec (hO : Owned h (pts a p :: os)) :
    Ensures A (acquire a) (fun _ h' => Owned h' (pts a p :: pts a p :: os)) h :=
  ensures_bind (ensures_deref hO.pts_cell (ensures_store (hO.acquire hO.pts_cell)))

/-- **`release`**, which gives up the storage with the last owner. -/
theorem release_spec (hO : Owned h (pts a p :: os)) :
    Ensures A (release false a) (fun _ h' => Owned h' os) h := by
  refine ensures_bind (ensures_deref hO.pts_cell (ensures_ite (fun h1 => ?_) fun h1 => ?_))
  · refine ensures_bind (ensures_store (ensures_bind (ensures_free (put_self _) ?_)))
    rw [put_remove]
    exact ensures_pure (hO.release_last hO.pts_cell h1)
  · exact ensures_bind (ensures_store (ensures_pure (hO.release_shared hO.pts_cell h1)))

/-- **`release(eKeepStorage)`** returns 1 exactly to the last owner, who is left with the storage. -/
theorem release_keep_spec (hO : Owned h (pts a p :: os)) :
    Ensures A (release true a) (fun r h' =>
      (r = 1 ∧ Alone os a ∧ h' = h.put a ⟨0, p⟩) ∨ (r ≠ 1 ∧ Owned h' os)) h := by
  refine ensures_bind (ensures_deref hO.pts_cell (ensures_ite (fun h1 => ?_) fun h1 => ?_))
  · exact ensures_bind (ensures_store (ensures_pure
      (.inl ⟨rfl, hO.alone hO.pts_cell h1, rfl⟩)))
  · exact ensures_bind (ensures_store (ensures_pure
      (.inr ⟨h1, hO.release_shared hO.pts_cell h1⟩)))

/-- **`dealloc`** of the storage the last owner was left with. -/
theorem dealloc_spec (hO : Owned h (pts a p :: os)) (ha : Alone os a) :
    Ensures A (dealloc a) (fun r h' => r = 0 ∧ Owned h' os) (h.put a ⟨0, q⟩) := by
  refine ensures_bind (ensures_deref (put_self _) (ensures_ite (fun h0 => absurd rfl h0) fun _ => ?_))
  refine ensures_bind (ensures_free (put_self _) (ensures_pure ⟨rfl, ?_⟩))
  rw [put_remove]
  exact hO.release_last hO.pts_cell (by rw [alone_iff.mp ha])

/-- **`attemptEdit`** succeeds exactly for the only owner. -/
theorem attemptEdit_spec (hO : Owned h (pts a p :: os)) :
    Ensures A (attemptEdit a) (fun r h' => h' = h ∧
      ((r = some a ∧ Alone os a) ∨ (r = none ∧ ¬ Alone os a))) h := by
  refine ensures_bind (ensures_deref hO.pts_cell (ensures_ite (fun h1 => ?_) fun h1 => ?_))
  · exact ensures_pure ⟨rfl, .inl ⟨rfl, hO.alone hO.pts_cell h1⟩⟩
  · exact ensures_pure ⟨rfl, .inr ⟨rfl, fun ha => h1 (by rw [alone_iff.mp ha])⟩⟩

/-- The only owner of a buffer may write it. -/
theorem store_spec {n : Nat} (hO : Owned h (pts a p :: os)) (ha : Alone os a) (hn : n = 1) :
    Ensures A (store a ⟨n, q⟩) (fun _ h' => Owned h' (pts a q :: os)) h := by
  subst hn
  exact ensures_store (hO.write hO.pts_cell (by rw [alone_iff.mp ha]) rfl)

theorem Alone.refs (ha : Alone os a) : holders os a + 1 = 1 := by rw [alone_iff.mp ha]

/-- **`memcpy`** between two buffers. -/
theorem memcpy_spec {b size : Nat} (hO : Owned h (pts b q :: pts a p :: os))
    (hb : Alone (pts a p :: os) b) :
    Ensures A (memcpy T b a size) (fun _ h' => Owned h'
      (pts b { q with slots := overwrite q.slots 0 (p.slots.take (size / T.itemSize)) } ::
        pts a p :: os)) h := by
  have hsrc : h.cells a = some ⟨_, p⟩ := (hO.perm (List.Perm.swap ..)).pts_cell
  exact ensures_bind (ensures_deref hO.pts_cell (ensures_bind (ensures_deref hsrc
    (store_spec hO hb (Alone.refs hb)))))

/-- A blank buffer with the front of another copied in. -/
theorem overwrite_blank {size n : Nat} {s : List (Option α)}
    (hn : s.take n = s.take (size / T.itemSize)) :
    overwrite (blank T size).slots 0 (s.take n) = resizeSlots T s size := by
  rw [hn, overwrite, blank, resizeSlots, List.take_zero, List.nil_append, Nat.zero_add,
    List.drop_replicate, List.length_take]
  congr 2
  omega

/-- The slots of a buffer are the items that fit in its bytes. -/
def Fits (T : Traits α) (p : SharedBuffer α) : Prop := p.slots.length = p.mSize / T.itemSize

theorem length_resizeSlots (s : List (Option α)) (size : Nat) :
    (resizeSlots T s size).length = size / T.itemSize := by
  rw [resizeSlots, List.length_append, List.length_take, List.length_replicate]
  omega

theorem resizeSlots_self {s : List (Option α)} {size : Nat} (hs : s.length = size / T.itemSize) :
    resizeSlots T s size = s := by
  rw [resizeSlots, ← hs, List.take_length, Nat.sub_self, List.replicate_zero, List.append_nil]

/-- The bytes of the smaller size hold the items of both. -/
theorem take_min {newSize : Nat} (hp : Fits T p) :
    p.slots.take (min newSize p.mSize / T.itemSize) = p.slots.take (newSize / T.itemSize) := by
  have hmono : newSize ≤ p.mSize ∨ p.mSize ≤ newSize := Nat.le_total ..
  rcases hmono with hle | hle
  · rw [Nat.min_eq_left hle]
  · have hdiv : p.mSize / T.itemSize ≤ newSize / T.itemSize := Nat.div_le_div_right hle
    rw [Nat.min_eq_right hle, ← hp, List.take_length, List.take_of_length_le (hp ▸ hdiv)]

theorem copyResize_spec {newSize : Nat} (hO : Owned h (pts a p :: os)) (hp : Fits T p)
    (hA : SIZE_MAX - P.header ≤ newSize → A) :
    Ensures A (copyResize P T a newSize) (fun r h' => match r with
      | some b => Owned h' (pts b ⟨newSize, resizeSlots T p.slots newSize⟩ :: os) ∧ Alone os b ∧
          newSize < SIZE_MAX - P.header
      | none => Owned h' (pts a p :: os) ∧ Refused P) h := by
  refine (alloc_spec hO hA).bind ?_
  rintro (_ | b) h₁ hr
  · exact ensures_pure hr
  · obtain ⟨hO₁, hb, hsize⟩ := hr
    have hsrc : h₁.cells a = some ⟨_, p⟩ := (hO₁.perm (List.Perm.swap ..)).pts_cell
    refine ensures_bind (ensures_deref hsrc ((memcpy_spec hO₁ hb).bind ?_))
    intro _ h₂ hO₂
    rw [overwrite_blank (take_min hp)] at hO₂
    refine (release_spec (hO₂.perm (List.Perm.swap ..))).bind fun _ h₃ hO₃ => ensures_pure ?_
    exact ⟨hO₃, hb.tail, hsize⟩

/-- **`editResize`**: the only owner of a buffer of the new size that holds what fits of the old one,
    whether it was resized in place or copied.  A refusal leaves everything as it is. -/
theorem editResize_spec {newSize : Nat} (hO : Owned h (pts a p :: os)) (hp : Fits T p)
    (hsz : p.mSize < SIZE_MAX - P.header) (hA : SIZE_MAX - P.header ≤ newSize → A) :
    Ensures A (editResize P T a newSize) (fun r h' => match r with
      | some b => Owned h' (pts b ⟨newSize, resizeSlots T p.slots newSize⟩ :: os) ∧ Alone os b ∧
          newSize < SIZE_MAX - P.header
      | none => Owned h' (pts a p :: os) ∧ Refused P) h := by
  refine ensures_bind (ensures_deref hO.pts_cell (ensures_ite (fun h1 => ?_) fun _ => ?_))
  · have ha := hO.alone hO.pts_cell h1
    refine ensures_ite (fun hs => ?_) fun _ => ?_
    · -- the size stays: nothing is done
      replace hs : p.mSize = newSize := hs
      subst hs
      refine ensures_pure ⟨?_, ha, hsz⟩
      rw [resizeSlots_self hp]
      exact hO
    · refine (ensures_fatalIf (Q := fun _ h' => h' = h ∧ newSize < SIZE_MAX - P.header) hA
        (fun hlt => ⟨rfl, Nat.lt_of_not_le hlt⟩)).bind ?_
      rintro - _ ⟨rfl, hsize⟩
      refine ensures_bind (ensures_bind (ensures_deref hO.pts_cell (ensures_bind (ensures_read
        (ensures_ite (fun _ => ?_) fun hm => ?_)))))
      · -- `realloc` gives a new address
        have hO' := hO.release_last hO.pts_cell h1
        exact ensures_bind (ensures_write (ensures_pure (ensures_pure
          ⟨hO'.alloc rfl, hO'.alone_next, hsize⟩)))
      · -- `realloc` refuses: a buffer of its own is tried
        exact ensures_bind (ensures_write (ensures_pure (copyResize_spec hO.skip hp hA)))
  · exact copyResize_spec hO hp hA

/-- **`edit`**: the only owner of what the buffer held. -/
theorem edit_spec (hO : Owned h (pts a p :: os)) (hp : Fits T p)
    (hsz : p.mSize < SIZE_MAX - P.header) :
    Ensures False (edit P T a) (fun r h' => match r with
      | some b => Owned h' (pts b p :: os) ∧ Alone os b
      | none => Owned h' (pts a p :: os) ∧ Refused P) h := by
  refine ensures_bind (ensures_deref hO.pts_cell (ensures_ite (fun h1 => ?_) fun _ => ?_))
  · exact ensures_pure ⟨hO, hO.alone hO.pts_cell h1⟩
  · refine (alloc_spec hO fun hge => absurd hsz (Nat.not_lt.mpr hge)).bind ?_
    rintro (_ | b) h₁ hr
    · exact ensures_pure hr
    · obtain ⟨hO₁, hb, -⟩ := hr
      refine (memcpy_spec hO₁ hb).bind fun _ h₂ hO₂ => ?_
      rw [overwrite_blank rfl, resizeSlots_self hp] at hO₂
      refine (release_spec (hO₂.perm (List.Perm.swap ..))).bind fun _ h₃ hO₃ => ensures_pure ?_
      exact ⟨hO₃, hb.tail⟩

/-- **`reset`**: a blank buffer of the new size. -/
theorem reset_spec {size : Nat} (hO : Owned h (pts a p :: os))
    (hA : SIZE_MAX - P.header ≤ size → A) :
    Ensures A (reset P T a size) (fun r h' => match r with
      | some b => Owned h' (pts b (blank T size) :: os) ∧ Alone os b
      | none => Owned h' (pts a p :: os) ∧ Refused P) h := by
  refine (alloc_spec hO hA).bind ?_
  rintro (_ | b) h₁ hr
  · exact ensures_pure hr
  · obtain ⟨hO₁, hb, -⟩ := hr
    refine (release_spec (hO₁.perm (List.Perm.swap ..))).bind fun _ h₂ hO₂ => ensures_pure ?_
    exact ⟨hO₂, hb.tail⟩

end

end SharedBuffer

end Codina.Utils
