/-
  `ColorConverter::convertSTEYUV420PackedSemiPlanarMB`: the model.

  The video decoder leaves its pictures in macroblocks: 16x16 luma samples in two columns of eight,
  and behind all of them the chroma samples of each macroblock, Cb and Cr interleaved.  The function
  walks the macroblocks with four word pointers, converts four samples of a row at a time with a
  fixed-point matrix, packs them to RGB565 two to a word, and writes those words that lie within the
  destination.

  Pointers are byte offsets from the buffer they point into, and they and all `OMX_U32` and `size_t`
  values are 32 bits wide, so every sum and product wraps as it does on the device.  A pointer
  difference is a signed number of words.  The words read and written are recorded in order.
-/
import Codina.Lib.Bytes
import Codina.Lib.Loops

namespace Codina.Media

open Codina.Bytes Codina.Loops

/-! ## Data -/

/-- `ColorConverter::BitmapParams`; `mBits` is the buffer the offsets are relative to. -/
structure BitmapParams where
  mWidth : BitVec 32
  mHeight : BitVec 32
  mCropLeft : BitVec 32
  mCropTop : BitVec 32
  mCropRight : BitVec 32
  mCropBottom : BitVec 32

def BitmapParams.cropWidth (p : BitmapParams) : BitVec 32 := p.mCropRight - p.mCropLeft + 1

def BitmapParams.cropHeight (p : BitmapParams) : BitVec 32 := p.mCropBottom - p.mCropTop + 1

/-- An `OMX_U32 *`, as the byte offset from `mBits`. -/
abbrev Ptr := BitVec 32

/-- An access to one word: the source is read, the destination written. -/
inductive Access where
  | read (p : Ptr)
  | write (p : Ptr) (v : BitVec 32)

/-- The accesses made so far, in order. -/
abbrev Trace := List Access

/-- `*p`. -/
def word (mBits : Mem) (p : Ptr) : BitVec 32 := load32 mBits p.toNat

inductive Status where
  | OK
  | ERROR_UNSUPPORTED
deriving DecidableEq

/-! ## One pair of pixels -/

/-- A pixel after `r[i] >>= 3; g[i] >>= 2; b[i] >>= 3`. -/
structure Rgb where
  r : BitVec 8
  g : BitVec 8
  b : BitVec 8

/-- The clamping of `rW`, `gW` and `bW` to a byte. -/
def clamp (w : Int) : BitVec 8 :=
  if w < 0 then 0
  else if 65536 ≤ w then 255
  else BitVec.ofInt 8 (w >>> (8 : Nat))

def toRgb (y cb cr : BitVec 8) : Rgb :=
  let rW : Int := 298 * y.toNat + 408 * cr.toNat - 57059
  let gW : Int := 298 * y.toNat - 100 * cb.toNat - 208 * cr.toNat + 34713
  let bW : Int := 298 * y.toNat + 516 * cb.toNat - 70887
  { r := clamp rW >>> 3, g := clamp gW >>> 2, b := clamp bW >>> 3 }

/-- `rgbWord`, from pixel `i` and pixel `i + 1`. -/
def rgbWord (p q : Rgb) : BitVec 32 :=
  (q.r.setWidth 32 <<< 27) + (q.g.setWidth 32 <<< 21) + (q.b.setWidth 32 <<< 16) +
    (p.r.setWidth 32 <<< 11) + (p.g.setWidth 32 <<< 5) + (p.b.setWidth 32 <<< 0)

/-- Pixel `i` of a row of four: `y[i]`, and the `cb[i]` and `cr[i]` it shares with its neighbour. -/
def pixel (lumaWord chromaWord1 : BitVec 32) (i : Nat) : Rgb :=
  toRgb (byteOf lumaWord i) (byteOf chromaWord1 (2 * (i / 2))) (byteOf chromaWord1 (2 * (i / 2) + 1))

/-! ## The loops, from the inside out -/

/-- What the loop over the rows of a block works on. -/
structure RowState where
  locBuf : Ptr
  dstRowOrigo : BitVec 32
  pWordLuma : Ptr
  pWordChroma : Ptr
  chromaWord1 : BitVec 32
  trace : Trace

/-- `(locBuf - (OMX_U32 *)dst.mBits) * 2 - dstRowOrigo`: the pointer difference is signed, the rest
    is not. -/
def RowState.rowPos (s : RowState) : BitVec 32 :=
  BitVec.ofInt 32 (s.locBuf.toInt / 4 * 2) - s.dstRowOrigo

/-- The body of the loop that writes pixels `2 * half` and `2 * half + 1` of a row of four. -/
def storeWord (dst : BitmapParams) (rgb : Nat → Rgb) (half : Nat) (s : RowState) : RowState :=
  -- Check for cropping on the x axis
  if dst.mWidth ≤ s.rowPos then { s with locBuf := s.locBuf + 4 }
  else { s with
    locBuf := s.locBuf + 4
    trace := s.trace ++ [.write s.locBuf (rgbWord (rgb (2 * half)) (rgb (2 * half + 1)))] }

/-- `lumaWord = *pWordLuma`, and on even rows `chromaWord1 = *pWordChroma`. -/
def loadWords (mBits : Mem) (row : Nat) (s : RowState) : BitVec 32 × RowState :=
  let lumaWord := word mBits s.pWordLuma
  let s := { s with pWordLuma := s.pWordLuma + 8, trace := s.trace ++ [.read s.pWordLuma] }
  if row % 2 = 0 then
    (lumaWord, { s with
      chromaWord1 := word mBits s.pWordChroma
      pWordChroma := s.pWordChroma + 8
      trace := s.trace ++ [.read s.pWordChroma] })
  else (lumaWord, s)

def rowBody (mBits : Mem) (dst : BitmapParams) (ly row : Nat) (s : RowState) : Ctl RowState :=
  -- Check for cropping on the y axis
  if dst.mHeight ≤ BitVec.ofNat 32 ly * 16 + BitVec.ofNat 32 row then .stop s
  else
    let (lumaWord, s) := loadWords mBits row s
    let s := forUp 2 (storeWord dst (pixel lumaWord s.chromaWord1)) s
    .next { s with
      locBuf := s.locBuf + 4 * (dst.mWidth / 2 - 2)
      dstRowOrigo := s.dstRowOrigo + dst.mWidth }

/-- What the loops over the four blocks of a macroblock work on. -/
structure BlockState where
  pBurstLuma : Ptr
  pBurstChroma : Ptr
  chromaWord1 : BitVec 32
  trace : Trace

def blockBody (mBits : Mem) (dst : BitmapParams) (ly : Nat) (dstBuf : Ptr) (col nbOfBlock : Nat)
    (s : BlockState) : BlockState :=
  let (pWordLuma, pWordChroma) :=
    match nbOfBlock with
    | 0 => (s.pBurstLuma, s.pBurstChroma)
    | _ => (s.pBurstLuma + 4, s.pBurstChroma + 4)
  let rows := forBreak (rowBody mBits dst ly) 0 16
    { locBuf := dstBuf + 4 * (4 * BitVec.ofNat 32 col + 2 * BitVec.ofNat 32 nbOfBlock)
      dstRowOrigo := BitVec.ofNat 32 ly * 16 * dst.mWidth
      pWordLuma := pWordLuma
      pWordChroma := pWordChroma
      chromaWord1 := s.chromaWord1
      trace := s.trace }
  { s with chromaWord1 := rows.chromaWord1, trace := rows.trace }

def colBody (mBits : Mem) (dst : BitmapParams) (ly : Nat) (dstBuf : Ptr) (col : Nat)
    (s : BlockState) : BlockState :=
  let s := forUp 2 (blockBody mBits dst ly dstBuf col) s
  { s with pBurstLuma := s.pBurstLuma + 4 * 32, pBurstChroma := s.pBurstChroma + 4 * 16 }

/-- What the loops over the macroblocks work on. -/
structure PictureState where
  pLuma : Ptr
  pChroma : Ptr
  trace : Trace

/-- Conversion of a macroblock. -/
def macroblockBody (mBits : Mem) (dst : BitmapParams) (ly lx : Nat) (s : PictureState) :
    PictureState :=
  let dstBuf := 4 * (BitVec.ofNat 32 ly * 16 * dst.mWidth / 2) + 4 * (BitVec.ofNat 32 lx * 16 / 2)
  let blocks := forUp 2 (colBody mBits dst ly dstBuf)
    { pBurstLuma := s.pLuma, pBurstChroma := s.pChroma, chromaWord1 := 0, trace := s.trace }
  { pLuma := s.pLuma + 4 * 64, pChroma := s.pChroma + 4 * 32, trace := blocks.trace }

/-- The test the function begins with. -/
def accepts (src dst : BitmapParams) : Bool :=
  dst.mWidth &&& 1 = 0 && src.mCropLeft = 0 && src.mCropTop = 0 &&
    src.cropWidth = dst.cropWidth && src.cropHeight = dst.cropHeight

def convertSTEYUV420PackedSemiPlanarMB (mBits : Mem) (src dst : BitmapParams) : Status × Trace :=
  if accepts src dst = false then (.ERROR_UNSUPPORTED, [])
  else
    let mx := src.mWidth / 16
    let my := src.mHeight / 16
    let s := forUp my.toNat (fun ly => forUp mx.toNat (macroblockBody mBits dst ly))
      { pLuma := 0, pChroma := 4 * (mx * my * 64), trace := [] }
    (.OK, s.trace)

end Codina.Media
