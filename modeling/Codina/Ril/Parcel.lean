/-
  `android.os.Parcel`, as far as the solicited and unsolicited decoders of the RIL read it.

  A parcel is a byte buffer with a read position.  `readInt` takes four bytes, little-endian, as a
  signed 32-bit number; a read that would pass the end yields 0 and moves nothing, which is why no
  decoder of primitive values ever throws on a short payload.  Everything is padded to four bytes.  A
  string is its length, its UTF-16 units and a terminating 0; a byte array is its length and its bytes;
  what does not fit is null.
-/
import Codina.Lib.Bytes
import Mathlib.Algebra.Ring.Int.Defs

namespace Codina.Ril

open Codina.Bytes

structure Parcel where
  data : List Byte
  dataPosition : Nat := 0
deriving DecidableEq, Repr

namespace Parcel

def dataSize (p : Parcel) : Nat := p.data.length

def dataAvail (p : Parcel) : Nat := p.dataSize - p.dataPosition

/-- The bytes of the parcel as memory. -/
def bytes (p : Parcel) : Mem := fun i => p.data.getD i 0

def readInt (p : Parcel) : Int × Parcel :=
  if p.dataPosition + 4 ≤ p.dataSize then
    ((load32 p.bytes p.dataPosition).toInt, { p with dataPosition := p.dataPosition + 4 })
  else (0, p)

/-- `pad_size`. -/
def padSize (len : Nat) : Nat := (len + 3) / 4 * 4

/-- `readInplace`: where the next `len` bytes are, and the parcel behind their padding. -/
def readInplace (len : Nat) (p : Parcel) : Option (Nat × Parcel) :=
  if p.dataPosition + padSize len ≤ p.dataSize then
    some (p.dataPosition, { p with dataPosition := p.dataPosition + padSize len })
  else none

def readString (p : Parcel) : Option (List (BitVec 16)) × Parcel :=
  let size := p.readInt.1
  let p := p.readInt.2
  if 0 ≤ size ∧ size < 2 ^ 31 - 1 then
    match p.readInplace ((size.toNat + 1) * 2) with
    | some (off, p') => (some ((List.range size.toNat).map fun i => load16 p.bytes (off + 2 * i)), p')
    | none => (none, p)
  else (none, p)

def createByteArray (p : Parcel) : Option (List Byte) × Parcel :=
  let len := p.readInt.1
  let p := p.readInt.2
  -- check the stored length against the true data size
  if 0 ≤ len ∧ len ≤ p.dataAvail then
    match p.readInplace len.toNat with
    | some (off, p') => (some ((List.range len.toNat).map fun i => p.bytes (off + i)), p')
    | none => (none, p)
  else (none, p)

/-! ### What is written -/

def writeInt32 (v : BitVec 32) : List Byte := [byteOf v 0, byteOf v 1, byteOf v 2, byteOf v 3]

/-- `Parcel::write`: the bytes, padded. -/
def write (bytes : List Byte) : List Byte :=
  bytes ++ List.replicate (padSize bytes.length - bytes.length) 0

/-- The bytes of UTF-16 units. -/
def unitBytes (units : List (BitVec 16)) : List Byte :=
  units.flatMap fun u => [byteOf u 0, byteOf u 1]

/-- `writeString16`; `none` is a null pointer. -/
def writeString16 : Option (List (BitVec 16)) → List Byte
  | none => writeInt32 (-1)
  | some s => writeInt32 (BitVec.ofNat 32 s.length) ++ write (unitBytes (s ++ [0]))

/-- A parcel holding the given 32-bit words. -/
def ofInts (ws : List (BitVec 32)) : Parcel :=
  { data := ws.flatMap fun w => [byteOf w 0, byteOf w 1, byteOf w 2, byteOf w 3] }

end Parcel

end Codina.Ril
