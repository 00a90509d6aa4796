/-
  The copy-on-write array of `VectorImpl.cpp`, function by function.

  A vector is a pointer to a shared buffer (or none) and a count; vectors copied from one another share
  their buffer until one of them is edited.  Every function takes the vector (`this`) and returns it as
  it leaves it, next to the source's result.  Pointers to items are a buffer's address and an index.

  The virtual functions `do_*` are those of the item type.  Each is its contract on slots: a value is
  made only where none lives, read and destroyed only where one does.  For a type with a trivial
  destructor nothing runs at the end of a value's life, so its slots keep their bytes and may be
  written over at any time.  Whatever breaks the contract, or goes through a dangling pointer or past
  the end of a buffer, is undefined.  So is a write to the items of a buffer that is shared: it would
  reach the other vectors.

  `ALOG_ASSERT` is compiled out.  Sizes are natural numbers and every computation the source does in
  `size_t` is checked or reduced as the source does it.
-/
import Codina.Utils.SharedBuffer

namespace Codina.Utils

open Codina.Faults Codina.Faults.Prog Codina.Refcount Codina.Slots Codina.Utils.SharedBuffer

/-! ## Results (`utils/Errors.h`) -/

def NO_ERROR : Int := 0
def NO_MEMORY : Int := -12
def BAD_VALUE : Int := -22
def BAD_INDEX : Int := -75
def NAME_NOT_FOUND : Int := -2

/-- `size_t` as `ssize_t`. -/
def ssize (n : Nat) : Int := if n < 0x80000000 then n else (n : Int) - 0x100000000

theorem ssize_of_lt {n : Nat} (h : n < 0x80000000) : ssize n = n := if_pos h

/-- Where the items an operation reads lie: in memory the caller owns, or from item `i` on of the
    buffer at `a`. -/
inductive Src (α : Type) where
  | outside (xs : List α)
  | inside (a i : Nat)

structure VectorImpl where
  mStorage : Option Nat
  mCount : Nat
  deriving DecidableEq

namespace VectorImpl

def kMinVectorCapacity : Nat := 4

variable {α : Type} (P : Platform) (T : Traits α)

/-! ## The item type -/

/-- The `num` slots at `src`. -/
def fetch (src : Src α) (num : Nat) : M α (List (Option α)) :=
  if num = 0 then
    return []
  else
    match src with
    | .outside xs => do
      require (num ≤ xs.length)
      return (xs.take num).map some
    | .inside a i => do
      let c ← deref a
      require (i + num ≤ c.payload.slots.length)
      return slice c.payload.slots i num

/-- The `num` slots at `src` are none of the `num` from slot `i` of the buffer at `a` on. -/
def NoOverlap (a i : Nat) (src : Src α) (num : Nat) : Prop :=
  match src with
  | .outside _ => True
  | .inside b j => b ≠ a ∨ j + num ≤ i ∨ i + num ≤ j

instance (a i : Nat) (src : Src α) (num : Nat) : Decidable (NoOverlap a i src num) :=
  match src with
  | .outside _ => isTrue trivial
  | .inside b j => inferInstanceAs (Decidable (b ≠ a ∨ j + num ≤ i ∨ i + num ≤ j))

/-- Make values in slots `i`, `i + 1`, … of a buffer. -/
def place (a i : Nat) (xs : List (Option α)) : M α Unit := do
  let c ← deref a
  require (c.refs = 1)
  require (i + xs.length ≤ c.payload.slots.length)
  require (T.HAS_TRIVIAL_DTOR ∨ Empty (slice c.payload.slots i xs.length))
  store a { c with payload.slots := overwrite c.payload.slots i xs }

def do_construct (a i num : Nat) : M α Unit := place T a i (List.replicate num (some T.value))

/-- The count may be 0: the last owner destroys the items after it has given up its share. -/
def do_destroy (a i num : Nat) : M α Unit := do
  let c ← deref a
  require (c.refs ≤ 1)
  require (i + num ≤ c.payload.slots.length)
  require (Full (slice c.payload.slots i num))
  store a { c with payload.slots := overwrite c.payload.slots i (List.replicate num none) }

def do_copy (a i : Nat) (src : Src α) (num : Nat) : M α Unit := do
  let xs ← fetch src num
  require (Full xs)
  place T a i xs

def do_splat (a i : Nat) (item : Src α) (num : Nat) : M α Unit :=
  if num = 0 then
    return ()
  else do
    match ← fetch item 1 with
    | [some x] => place T a i (List.replicate num (some x))
    | _ => fault

/-- `num` items of one buffer from `src` to `dest`, which may overlap. -/
def moveItems (a dest src num : Nat) : M α Unit :=
  if num = 0 then
    return ()
  else if dest = src then
    require T.trivialMove
  else do
    let c ← deref a
    require (c.refs = 1)
    let s := c.payload.slots
    require (src + num ≤ s.length ∧ dest + num ≤ s.length)
    let xs := slice s src num
    require (T.trivialMove ∨ Full xs)
    let vacated := if T.HAS_TRIVIAL_DTOR then s else overwrite s src (List.replicate num none)
    require (T.HAS_TRIVIAL_DTOR ∨ Empty (slice vacated dest num))
    store a { c with payload.slots := overwrite vacated dest xs }

/-- Towards higher addresses. -/
def do_move_forward (a dest src num : Nat) : M α Unit := do
  require (src ≤ dest)
  moveItems T a dest src num

/-- Towards lower addresses. -/
def do_move_backward (a dest src num : Nat) : M α Unit := do
  require (dest ≤ src)
  moveItems T a dest src num

/-! The functions through which `VectorImpl` calls the item type. -/

/-- Where the constructor is trivial no code runs: the bytes that are there are items from now on. -/
def _do_construct (a i num : Nat) : M α Unit :=
  if T.HAS_TRIVIAL_CTOR then do
    let c ← deref a
    let xs := (slice c.payload.slots i num).mapIdx fun j x => some (x.getD (T.junk a (i + j)))
    store a { c with payload.slots := overwrite c.payload.slots i xs }
  else
    do_construct T a i num

def _do_destroy (a i num : Nat) : M α Unit :=
  if T.HAS_TRIVIAL_DTOR then return () else do_destroy a i num

/-- `memcpy` or `do_copy`, of ranges that do not overlap. -/
def _do_copy (a i : Nat) (src : Src α) (num : Nat) : M α Unit := do
  require (NoOverlap a i src num)
  if T.HAS_TRIVIAL_COPY then
    let xs ← fetch src num
    place T a i xs
  else
    do_copy T a i src num

/-! ## Storage -/

/-- The vector as it is constructed. -/
def new : VectorImpl := ⟨none, 0⟩

/-- `mStorage + index * mItemSize`. -/
def array (this : VectorImpl) (index : Nat) : Src α :=
  match this.mStorage with
  | some a => .inside a index
  | none => .outside []

def copy (rhs : VectorImpl) : M α VectorImpl := do
  match rhs.mStorage with
  | some a =>
    acquire a
    return rhs
  | none => return rhs

def release_storage (this : VectorImpl) : M α Unit :=
  match this.mStorage with
  | some a => do
    let prev ← release true a
    if prev = 1 then
      _do_destroy T a 0 this.mCount
      let _ ← dealloc a
      return ()
    else
      return ()
  | none => return ()

/-- `operator =`; `same` is `this == &rhs`. -/
def assign (this rhs : VectorImpl) (same : Bool) : M α VectorImpl :=
  if same then
    return this
  else do
    release_storage T this
    if rhs.mCount ≠ 0 then
      match rhs.mStorage with
      | some a =>
        acquire a
        return ⟨some a, rhs.mCount⟩
      | none => fault
    else
      return ⟨none, 0⟩

/-- A private copy of the buffer where it is shared.  Returns the vector with `mStorage`, which is what
    the source returns. -/
def editArrayImpl (this : VectorImpl) : M α VectorImpl :=
  match this.mStorage with
  | some a => do
    match ← attemptEdit a with
    | some _ => return this
    | none =>
      let c ← deref a
      match ← alloc P T c.payload.mSize with
      | some editable =>
        _do_copy T editable 0 (array this 0) this.mCount
        release_storage T this
        return { this with mStorage := some editable }
      | none => abort
  | none => return this

def capacity (this : VectorImpl) : M α Nat :=
  match this.mStorage with
  | some a => do
    let c ← deref a
    return c.payload.mSize / T.itemSize
  | none => return 0

def itemLocation (this : VectorImpl) (index : Nat) : M α (Option (Nat × Nat)) := do
  let cap ← capacity T this
  if index < cap then
    return this.mStorage.map fun a => (a, index)
  else
    return none

def editItemLocation (this : VectorImpl) (index : Nat) : M α (VectorImpl × Option (Nat × Nat)) := do
  let cap ← capacity T this
  if index < cap then
    let edited ← editArrayImpl P T this
    return (edited, edited.mStorage.map fun a => (a, index))
  else
    return (this, none)

def finish_vector (this : VectorImpl) : M α VectorImpl := do
  release_storage T this
  return ⟨none, 0⟩

/-! ## Growing and shrinking -/

/-- The common part of `_grow` and `_shrink`: a new buffer of `size` bytes that takes the first `where_`
    items, and from `dest` on the `rest` items that start at `src`. -/
def moveStorage (this : VectorImpl) (size where_ dest src rest : Nat) : M α (Option VectorImpl) := do
  match ← alloc P T size with
  | some sb =>
    whenever (where_ ≠ 0) (_do_copy T sb 0 (array this 0) where_)
    whenever (rest ≠ 0) (_do_copy T sb dest (array this src) rest)
    release_storage T this
    return some { this with mStorage := some sb }
  | none => return none

/-- The capacity `_grow` asks for. -/
def grownCapacity (new_size : Nat) : Nat := max kMinVectorCapacity (new_size + new_size / 2 + 1)

/-- `_grow` up to the new count: room for `amount` items at `where_`, or none. -/
def growStorage (this : VectorImpl) (where_ amount : Nat) : M α (Option VectorImpl) := do
  let new_size := this.mCount + amount
  fatalIf (SIZE_MAX < new_size)
  let cap ← capacity T this
  if cap < new_size then
    fatalIf (SIZE_MAX < new_size + new_size / 2)
    fatalIf (SIZE_MAX < new_size + new_size / 2 + 1)
    let new_capacity := grownCapacity new_size
    fatalIf (SIZE_MAX < new_capacity * T.itemSize)
    let new_alloc_size := new_capacity * T.itemSize
    if this.mCount = where_ ∧ T.HAS_TRIVIAL_COPY ∧ T.HAS_TRIVIAL_DTOR then
      match this.mStorage with
      | some cur_sb =>
        match ← editResize P T cur_sb new_alloc_size with
        | some sb => return some { this with mStorage := some sb }
        | none => return none
      | none => moveStorage P T this new_alloc_size where_ (where_ + amount) where_ (this.mCount - where_)
    else
      moveStorage P T this new_alloc_size where_ (where_ + amount) where_ (this.mCount - where_)
  else
    let edited ← editArrayImpl P T this
    if where_ ≠ this.mCount then
      match edited.mStorage with
      | some a =>
        do_move_forward T a (where_ + amount) where_ (this.mCount - where_)
        return some edited
      | none => fault
    else
      return some edited

/-- Returns the free space. -/
def _grow (this : VectorImpl) (where_ amount : Nat) : M α (VectorImpl × Option (Nat × Nat)) := do
  match ← growStorage P T this where_ amount with
  | some v =>
    let grown : VectorImpl := { v with mCount := this.mCount + amount }
    let free_space ← itemLocation T grown where_
    return (grown, free_space)
  | none => return (this, none)

def _shrink (this : VectorImpl) (where_ amount : Nat) : M α VectorImpl :=
  match this.mStorage with
  | none => return this
  | some cur_sb => do
    fatalIf (this.mCount < amount)
    -- what the assertion states: beyond it the pointers leave the buffer
    require (where_ + amount ≤ this.mCount)
    let new_size := this.mCount - amount
    let cap ← capacity T this
    if new_size < cap / 2 then
      let new_capacity := max kMinVectorCapacity (new_size * 2)
      let size := new_capacity * T.itemSize % 0x100000000
      if where_ = new_size ∧ T.HAS_TRIVIAL_COPY ∧ T.HAS_TRIVIAL_DTOR then
        match ← editResize P T cur_sb size with
        | some sb => return ⟨some sb, new_size⟩
        | none => return this
      else
        match ← moveStorage P T this size where_ where_ (where_ + amount) (new_size - where_) with
        | some v => return { v with mCount := new_size }
        | none => return this
    else
      let edited ← editArrayImpl P T this
      match edited.mStorage with
      | some a =>
        _do_destroy T a where_ amount
        whenever (where_ ≠ new_size)
          (do_move_backward T a where_ (where_ + amount) (new_size - where_))
        return { edited with mCount := new_size }
      | none => fault

/-! ## Operations -/

def insertArrayAt (this : VectorImpl) (arr : Src α) (index length : Nat) : M α (VectorImpl × Int) :=
  if this.mCount < index then
    return (this, BAD_INDEX)
  else do
    let (grown, where_) ← _grow P T this index length
    match where_ with
    | some (a, i) =>
      _do_copy T a i arr length
      return (grown, ssize index)
    | none => return (grown, NO_MEMORY)

def insertVectorAt (this vector : VectorImpl) (index : Nat) : M α (VectorImpl × Int) :=
  insertArrayAt P T this (array vector 0) index vector.mCount

def appendVector (this vector : VectorImpl) : M α (VectorImpl × Int) :=
  insertVectorAt P T this vector this.mCount

def appendArray (this : VectorImpl) (arr : Src α) (length : Nat) : M α (VectorImpl × Int) :=
  insertArrayAt P T this arr this.mCount length

/-- `item` is `none` where the source passes 0: the new items are constructed. -/
def insertAt (this : VectorImpl) (item : Option (Src α)) (index numItems : Nat) :
    M α (VectorImpl × Int) :=
  if this.mCount < index then
    return (this, BAD_INDEX)
  else do
    let (grown, where_) ← _grow P T this index numItems
    match where_ with
    | some (a, i) =>
      match item with
      | some item =>
        do_splat T a i item numItems
        return (grown, ssize index)
      | none =>
        _do_construct T a i numItems
        return (grown, ssize index)
    | none => return (grown, NO_MEMORY)

def add (this : VectorImpl) (item : Option (Src α)) : M α (VectorImpl × Int) :=
  insertAt P T this item this.mCount 1

def push (this : VectorImpl) (item : Option (Src α)) : M α VectorImpl := do
  let (v, _) ← insertAt P T this item this.mCount 1
  return v

/-- Whether two pointers, each possibly null, are the same. -/
def samePointer : Option (Nat × Nat) → Option (Src α) → Bool
  | none, none => true
  | some (a, i), some (.inside b j) => a = b ∧ i = j
  | _, _ => false

def replaceAt (this : VectorImpl) (prototype : Option (Src α)) (index : Nat) :
    M α (VectorImpl × Int) :=
  if this.mCount ≤ index then
    return (this, BAD_INDEX)
  else do
    let (edited, item) ← editItemLocation P T this index
    if samePointer item prototype then
      return (edited, ssize index)
    else
      match item with
      | none => return (edited, NO_MEMORY)
      | some (a, i) =>
        _do_destroy T a i 1
        match prototype with
        | none =>
          _do_construct T a i 1
          return (edited, ssize index)
        | some prototype =>
          _do_copy T a i prototype 1
          return (edited, ssize index)

def removeItemsAt (this : VectorImpl) (index count : Nat) : M α (VectorImpl × Int) :=
  if this.mCount < (index + count) % 0x100000000 then
    return (this, BAD_VALUE)
  else do
    let v ← _shrink P T this index count
    return (v, ssize index)

def pop (this : VectorImpl) : M α VectorImpl :=
  if this.mCount ≠ 0 then do
    let (v, _) ← removeItemsAt P T this (this.mCount - 1) 1
    return v
  else
    return this

def clear (this : VectorImpl) : M α VectorImpl := _shrink P T this 0 this.mCount

def setCapacity (this : VectorImpl) (new_capacity : Nat) : M α (VectorImpl × Int) :=
  if new_capacity ≤ this.mCount then do
    let cap ← capacity T this
    return (this, ssize cap)
  else do
    fatalIf (SIZE_MAX < new_capacity * T.itemSize)
    match ← alloc P T (new_capacity * T.itemSize) with
    | some sb =>
      _do_copy T sb 0 (array this 0) this.mCount
      release_storage T this
      return ({ this with mStorage := some sb }, ssize new_capacity)
    | none => return (this, NO_MEMORY)

def resize (this : VectorImpl) (size : Nat) : M α (VectorImpl × Int) := do
  let (v, result) ←
    if this.mCount < size then
      insertAt P T this none this.mCount (size - this.mCount)
    else if size < this.mCount then
      removeItemsAt P T this size (this.mCount - size)
    else
      pure (this, NO_ERROR)
  return (v, if result < 0 then result else ssize size)

end VectorImpl

end Codina.Utils
