/-
  The patched `GLConsumer`: the model.

  Frames in the video decoder's formats cannot be a texture as they are.  The patch of
  `updateAndReleaseLocked` converts such a frame into one of two blit buffers, in alternation, and
  makes the texture of that buffer.  A blit buffer is allocated when there is none or when the size of
  the frame is not its size.  What follows in the function is as before: it creates the EGL image,
  synchronises, releases the buffer of the old texture and makes the new one current, and a frame that
  fails on the way is dropped.

  What the environment decides is a parameter of each call: whether the consumer is attached, what the
  EGL calls return, and whether a buffer can be allocated.  The state also records history: every
  conversion with the texture that was on screen, and every buffer handed back.
-/
import Codina.Lib.Runs
import Mathlib.Logic.Function.Basic

namespace Codina.Gui

open Codina.Runs

/-! ## Buffers -/

/-- `GraphicBuffer::handle`: a buffer of the queue, or one the consumer allocated for blits. -/
inductive Handle where
  | queue (n : Nat)
  | blit (n : Nat)
deriving DecidableEq

inductive PixelFormat where
  | HAL_PIXEL_FORMAT_YCBCR42XMBN
  | HAL_PIXEL_FORMAT_YCbCr_420_P
  | PIXEL_FORMAT_RGBA_8888
  | other (format : Nat)
deriving DecidableEq

structure GraphicBuffer where
  handle : Handle
  width : Nat
  height : Nat
  format : PixelFormat
  usage : Nat
deriving DecidableEq

/-- The formats that are converted. -/
def GraphicBuffer.needsBlit (b : GraphicBuffer) : Bool :=
  b.format = .HAL_PIXEL_FORMAT_YCBCR42XMBN || b.format = .HAL_PIXEL_FORMAT_YCbCr_420_P

/-! ## Status codes -/

abbrev Status := Int

def NO_ERROR : Status := 0

def NO_MEMORY : Status := -12

def INVALID_OPERATION : Status := -38

def UNKNOWN_ERROR : Status := -2147483648

/-! ## The consumer -/

abbrev NUM_BLIT_BUFFER_SLOTS : Nat := 2

/-- `convert(src, dst)`, while `bound` was the buffer of the texture. -/
structure Conversion where
  src : GraphicBuffer
  dst : GraphicBuffer
  bound : Option GraphicBuffer

structure State where
  /-- `mSlots[i].mGraphicBuffer`. -/
  mSlots : Nat → Option GraphicBuffer := fun _ => none
  /-- The buffer of `mEglSlots[i].mEglImage`. -/
  mEglSlots : Nat → Option GraphicBuffer := fun _ => none
  mCurrentTexture : Option Nat := none
  /-- The buffer of `mCurrentTextureImage`, which is the one bound as the texture. -/
  mCurrentTextureImage : Option GraphicBuffer := none
  mBlitSlots : Fin NUM_BLIT_BUFFER_SLOTS → Option GraphicBuffer := fun _ => none
  mNextBlitSlot : Fin NUM_BLIT_BUFFER_SLOTS := 0
  /-- The number of buffers `mGraphicBufferAlloc` has allocated; each is a new one. -/
  allocated : Nat := 0
  conversions : List Conversion := []
  /-- The calls of `releaseBufferLocked`. -/
  released : List (Nat × Option GraphicBuffer) := []

/-- What the environment decides in one call of `updateAndReleaseLocked`. -/
structure Outcome where
  attached : Bool := true
  checkAndUpdateEglState : Status := NO_ERROR
  /-- Whether `createGraphicBuffer` returns a buffer. -/
  createGraphicBuffer : Bool := true
  createIfNeeded : Status := NO_ERROR
  syncForRelease : Status := NO_ERROR
  /-- What `releaseBufferLocked` returns for the buffer of the old texture. -/
  releaseOld : Status := NO_ERROR

def releaseBufferLocked (buf : Nat) (graphicBuffer : Option GraphicBuffer) (s : State) : State :=
  { s with released := s.released ++ [(buf, graphicBuffer)] }

/-- A blit buffer for `src`, from `mGraphicBufferAlloc`. -/
def newBlitBuffer (s : State) (src : GraphicBuffer) : GraphicBuffer :=
  { handle := .blit s.allocated, width := src.width, height := src.height,
    format := .PIXEL_FORMAT_RGBA_8888, usage := src.usage }

/-- Test if source and convert buffer size are ok: the blit buffer that can be used again. -/
def reusable (s : State) (src : GraphicBuffer) : Option GraphicBuffer :=
  match s.mBlitSlots s.mNextBlitSlot with
  | none => none
  | some dst => if src.width ≠ dst.width ∨ src.height ≠ dst.height then none else some dst

/-- `(slot + 1) % NUM_BLIT_BUFFER_SLOTS`. -/
def slotAfter (slot : Fin NUM_BLIT_BUFFER_SLOTS) : Fin NUM_BLIT_BUFFER_SLOTS :=
  ⟨(slot.val + 1) % NUM_BLIT_BUFFER_SLOTS, Nat.mod_lt _ (by decide)⟩

/-- Convert `src`, the buffer in slot `buf`, into `dst`, which is in the next blit slot.  `convert`
    itself returns `OK` even when the blit fails. -/
def convertInto (buf : Nat) (src dst : GraphicBuffer) (s : State) : State :=
  { s with
    conversions := s.conversions ++ [⟨src, dst, s.mCurrentTextureImage⟩]
    mEglSlots := Function.update s.mEglSlots buf (some dst)
    mNextBlitSlot := slotAfter s.mNextBlitSlot }

/-- The part the patch inserts. -/
def blitFrame (buf : Nat) (src : GraphicBuffer) (o : Outcome) (s : State) : Status × State :=
  match reusable s src with
  | some dst => (NO_ERROR, convertInto buf src dst s)
  | none =>
    let s := { s with mBlitSlots := Function.update s.mBlitSlots s.mNextBlitSlot none }
    if o.createGraphicBuffer then
      let dst := newBlitBuffer s src
      (NO_ERROR, convertInto buf src dst { s with
        mBlitSlots := Function.update s.mBlitSlots s.mNextBlitSlot (some dst)
        allocated := s.allocated + 1 })
    else (NO_MEMORY, s)

/-- The part after it, unchanged but for a line break. -/
def bindFrame (buf : Nat) (o : Outcome) (s : State) : Status × State :=
  if o.createIfNeeded ≠ NO_ERROR then
    (UNKNOWN_ERROR, releaseBufferLocked buf (s.mSlots buf) s)
  else if o.syncForRelease ≠ NO_ERROR then
    -- drop the new frame
    (o.syncForRelease, releaseBufferLocked buf (s.mSlots buf) s)
  else
    -- release old buffer
    let s := match s.mCurrentTexture with
      | some old => releaseBufferLocked old s.mCurrentTextureImage s
      | none => s
    (if s.mCurrentTexture.isSome ∧ o.releaseOld < NO_ERROR then o.releaseOld else NO_ERROR,
      { s with mCurrentTexture := some buf, mCurrentTextureImage := s.mEglSlots buf })

/-- `updateAndReleaseLocked` for the acquired item in slot `buf`, which holds `src`. -/
def updateAndReleaseLocked (buf : Nat) (src : GraphicBuffer) (o : Outcome) (s : State) :
    Status × State :=
  if o.attached = false then (INVALID_OPERATION, releaseBufferLocked buf (some src) s)
  else if o.checkAndUpdateEglState ≠ NO_ERROR then
    (o.checkAndUpdateEglState, releaseBufferLocked buf (some src) s)
  else if src.needsBlit then
    match blitFrame buf src o s with
    | (err, s) => if err ≠ NO_ERROR then (err, s) else bindFrame buf o s
  else bindFrame buf o s

/-- `acquireBufferLocked`: a buffer the consumer has not seen in this slot gets an image of its own. -/
def acquireBufferLocked (buf : Nat) (graphicBuffer : GraphicBuffer) (s : State) : State :=
  { s with
    mSlots := Function.update s.mSlots buf (some graphicBuffer)
    mEglSlots := Function.update s.mEglSlots buf (some graphicBuffer) }

def freeBufferLocked (buf : Nat) (s : State) : State :=
  { s with
    mSlots := Function.update s.mSlots buf none
    mEglSlots := Function.update s.mEglSlots buf none
    mCurrentTexture := if s.mCurrentTexture = some buf then none else s.mCurrentTexture }

/-! ## Steps -/

inductive Action where
  /-- The queue puts buffer `n` of its own into slot `buf`. -/
  | acquireBuffer (buf n width height : Nat) (format : PixelFormat) (usage : Nat)
  /-- A frame in slot `buf` is to become the texture. -/
  | updateAndRelease (buf : Nat) (o : Outcome)
  | freeBuffer (buf : Nat)

/-- One step.  The slot of an acquired frame holds a buffer. -/
def step (s : State) : Action → Option State
  | .acquireBuffer buf n width height format usage =>
    some (acquireBufferLocked buf ⟨.queue n, width, height, format, usage⟩ s)
  | .updateAndRelease buf o => (s.mSlots buf).map fun src => (updateAndReleaseLocked buf src o s).2
  | .freeBuffer buf => some (freeBufferLocked buf s)

end Codina.Gui
