/-
  The patched `GLConsumer`: is the buffer on screen ever converted into?

  There are two blit buffers so that one can be written while the other is the texture.  The
  alternation is right as long as every conversion is followed by its buffer becoming the texture:
  then the next slot is always the other one (`NextFree`).  But `mNextBlitSlot` is advanced right
  after the conversion, before the steps that may still fail.  A frame that fails there is dropped and
  the texture stays, while the next slot moves on to the very buffer that is the texture; the next
  frame of the same size is converted into it on screen (`converted_on_screen`).

  That is the only way.  In a run where no converted frame fails while the texture is the other blit
  buffer, no frame is converted into the texture (`blit_off_screen`).  Any such failure breaks the
  alternation at once (`late_failure_exposes`), and the next frame of the right size is converted on
  screen (`exposed_converts`).
-/
import Codina.Gui.GLConsumer

namespace Codina.Gui

open Codina.Runs

/-! ## What a frame can do -/

/-- The frame fails at one of the steps behind the conversion. -/
def LateFailure (o : Outcome) : Prop := o.createIfNeeded ≠ NO_ERROR ∨ o.syncForRelease ≠ NO_ERROR

/-- The next blit slot holds `dst`, the buffer to convert `src` into, in state `s₁`: it was there
    already, or it has been allocated. -/
def Prepared (s : State) (src dst : GraphicBuffer) (s₁ : State) : Prop :=
  (reusable s src = some dst ∧ s₁ = s) ∨
    (reusable s src = none ∧ dst = newBlitBuffer s src ∧ s₁ = { s with
      mBlitSlots := Function.update s.mBlitSlots s.mNextBlitSlot (some dst)
      allocated := s.allocated + 1 })

/-- The ways `updateAndReleaseLocked` can change the state. -/
inductive Effect (buf : Nat) (src : GraphicBuffer) (o : Outcome) (s : State) : State → Prop
  /-- The frame is dropped before anything has been done with it. -/
  | dropped (r : List (Nat × Option GraphicBuffer)) : Effect buf src o s { s with released := r }
  /-- No blit buffer can be allocated; the one that did not fit is gone. -/
  | noMemory : src.needsBlit = true → reusable s src = none →
      Effect buf src o s { s with mBlitSlots := Function.update s.mBlitSlots s.mNextBlitSlot none }
  /-- The frame is converted and then dropped. -/
  | convertedDropped (dst : GraphicBuffer) (s₁ : State) (r : List (Nat × Option GraphicBuffer)) :
      src.needsBlit = true → Prepared s src dst s₁ →
      o.attached = true → o.checkAndUpdateEglState = NO_ERROR →
      (reusable s src = none → o.createGraphicBuffer = true) → LateFailure o →
      Effect buf src o s { convertInto buf src dst s₁ with released := r }
  /-- The frame is converted and becomes the texture. -/
  | convertedBound (dst : GraphicBuffer) (s₁ : State) (r : List (Nat × Option GraphicBuffer)) :
      src.needsBlit = true → Prepared s src dst s₁ →
      Effect buf src o s { convertInto buf src dst s₁ with
        released := r, mCurrentTexture := some buf, mCurrentTextureImage := some dst }
  /-- The frame becomes the texture as it is. -/
  | bound (r : List (Nat × Option GraphicBuffer)) : src.needsBlit = false →
      Effect buf src o s { s with
        released := r, mCurrentTexture := some buf, mCurrentTextureImage := s.mEglSlots buf }

theorem bindFrame_cases (buf : Nat) (o : Outcome) (s : State) :
    ∃ r, (LateFailure o ∧ (bindFrame buf o s).2 = { s with released := r }) ∨
      (¬ LateFailure o ∧ (bindFrame buf o s).2 = { s with
        released := r, mCurrentTexture := some buf, mCurrentTextureImage := s.mEglSlots buf }) := by
  unfold bindFrame
  by_cases hcreate : o.createIfNeeded ≠ NO_ERROR
  · rw [if_pos hcreate]
    exact ⟨_, Or.inl ⟨Or.inl hcreate, rfl⟩⟩
  rw [if_neg hcreate]
  by_cases hsync : o.syncForRelease ≠ NO_ERROR
  · rw [if_pos hsync]
    exact ⟨_, Or.inl ⟨Or.inr hsync, rfl⟩⟩
  rw [if_neg hsync]
  have hlate : ¬ LateFailure o := not_or.mpr ⟨hcreate, hsync⟩
  cases hcur : s.mCurrentTexture with
  | none => exact ⟨s.released, Or.inr ⟨hlate, rfl⟩⟩
  | some old => exact ⟨s.released ++ [(old, s.mCurrentTextureImage)], Or.inr ⟨hlate, rfl⟩⟩

theorem blitFrame_cases (buf : Nat) (src : GraphicBuffer) (o : Outcome) (s : State) :
    (reusable s src = none ∧ o.createGraphicBuffer = false ∧
      blitFrame buf src o s = (NO_MEMORY, { s with
        mBlitSlots := Function.update s.mBlitSlots s.mNextBlitSlot none })) ∨
    ((reusable s src = none → o.createGraphicBuffer = true) ∧
      ∃ dst s₁, Prepared s src dst s₁ ∧
        blitFrame buf src o s = (NO_ERROR, convertInto buf src dst s₁)) := by
  unfold blitFrame
  cases hre : reusable s src with
  | some dst =>
    refine Or.inr ⟨fun h => absurd h (by simp), dst, s, Or.inl ⟨hre, rfl⟩, rfl⟩
  | none =>
    by_cases halloc : o.createGraphicBuffer = true
    · refine Or.inr ⟨fun _ => halloc, newBlitBuffer s src, _, Or.inr ⟨hre, rfl, rfl⟩, ?_⟩
      simp only [halloc, if_true, Function.update_idem]
      rfl
    · refine Or.inl ⟨rfl, by simpa using halloc, ?_⟩
      simp only [halloc, if_false, Bool.false_eq_true]

/-- **What a frame can do.** -/
theorem update_effect (buf : Nat) (src : GraphicBuffer) (o : Outcome) (s : State) :
    Effect buf src o s (updateAndReleaseLocked buf src o s).2 := by
  unfold updateAndReleaseLocked
  by_cases hatt : o.attached = false
  · rw [if_pos hatt]
    exact Effect.dropped _
  rw [if_neg hatt]
  by_cases hegl : o.checkAndUpdateEglState ≠ NO_ERROR
  · rw [if_pos hegl]
    exact Effect.dropped _
  rw [if_neg hegl]
  by_cases hblit : src.needsBlit = true
  · rw [if_pos hblit]
    rcases blitFrame_cases buf src o s with ⟨hre, _, he⟩ | ⟨halloc, dst, s₁, hprep, he⟩
    · rw [he]
      exact Effect.noMemory hblit hre
    · rw [he]
      obtain ⟨r, ⟨hlate, hs⟩ | ⟨_, hs⟩⟩ := bindFrame_cases buf o (convertInto buf src dst s₁)
      · show Effect buf src o s (bindFrame buf o (convertInto buf src dst s₁)).2
        rw [hs]
        exact Effect.convertedDropped dst s₁ r hblit hprep (by simpa using hatt)
          (by simpa using hegl) halloc hlate
      · have hegl : (convertInto buf src dst s₁).mEglSlots buf = some dst :=
          Function.update_self ..
        show Effect buf src o s (bindFrame buf o (convertInto buf src dst s₁)).2
        rw [hs, hegl]
        exact Effect.convertedBound dst s₁ r hblit hprep
  · rw [if_neg hblit]
    obtain ⟨r, ⟨_, hs⟩ | ⟨_, hs⟩⟩ := bindFrame_cases buf o s
    · rw [hs]
      exact Effect.dropped r
    · rw [hs]
      exact Effect.bound r (by simpa using hblit)

/-! ## The alternation -/

/-- No frame has been converted into the buffer that was bound as the texture. -/
def OffScreen (s : State) : Prop :=
  ∀ c ∈ s.conversions, ∀ b, c.bound = some b → c.dst.handle ≠ b.handle

/-- The next blit slot does not hold the buffer on screen. -/
def NextFree (s : State) : Prop :=
  ∀ b c, s.mCurrentTextureImage = some b → s.mBlitSlots s.mNextBlitSlot = some c →
    c.handle ≠ b.handle

/-- No frame that gets as far as the conversion fails behind it while the buffer on screen is the one
    in the other blit slot. -/
def NoLateFailure (s : State) : Action → Prop
  | .updateAndRelease buf o => ∀ src, s.mSlots buf = some src → src.needsBlit = true →
      o.attached = true → o.checkAndUpdateEglState = NO_ERROR →
      (reusable s src = none → o.createGraphicBuffer = true) → LateFailure o →
      ∀ b c, s.mCurrentTextureImage = some b → s.mBlitSlots (slotAfter s.mNextBlitSlot) = some c →
        c.handle ≠ b.handle
  | _ => True

/-- The invariant: blit buffers are distinct, allocated ones, and nothing else is; a frame that is
    not converted has an image of its own. -/
structure Alternating (s : State) : Prop where
  offScreen : OffScreen s
  fresh : ∀ i b, s.mBlitSlots i = some b → ∃ n < s.allocated, b.handle = .blit n
  distinct : ∀ i j b c, s.mBlitSlots i = some b → s.mBlitSlots j = some c →
    b.handle = c.handle → i = j
  slots : ∀ buf b, s.mSlots buf = some b →
    (∃ n, b.handle = .queue n) ∧ (b.needsBlit = false → s.mEglSlots buf = some b)
  current : ∀ b n, s.mCurrentTextureImage = some b → b.handle = .blit n → n < s.allocated
  nextFree : NextFree s

theorem alternating_init : Alternating {} where
  offScreen := by simp [OffScreen]
  fresh := by simp
  distinct := by simp
  slots := by simp
  current := by simp
  nextFree := by simp [NextFree]

/-- There is more than one blit slot. -/
theorem slotAfter_ne (i : Fin NUM_BLIT_BUFFER_SLOTS) : slotAfter i ≠ i := by
  revert i
  decide

theorem reusable_mem {s : State} {src dst : GraphicBuffer} (h : reusable s src = some dst) :
    s.mBlitSlots s.mNextBlitSlot = some dst := by
  unfold reusable at h
  cases hb : s.mBlitSlots s.mNextBlitSlot with
  | none => simp [hb] at h
  | some d =>
    simp only [hb, Option.ite_none_left_eq_some, Option.some.injEq] at h
    rw [h.2]

/-- A slot holds what was assigned to it, or what it held before. -/
theorem mem_of_update {Slot : Type} [DecidableEq Slot] {f : Slot → Option GraphicBuffer} {i j : Slot}
    {o : Option GraphicBuffer} {b : GraphicBuffer} (h : Function.update f i o j = some b) :
    (j = i ∧ o = some b) ∨ (j ≠ i ∧ f j = some b) := by
  by_cases hj : j = i
  · subst hj
    rw [Function.update_self] at h
    exact Or.inl ⟨rfl, h⟩
  · rw [Function.update_of_ne hj] at h
    exact Or.inr ⟨hj, h⟩

theorem mem_of_update_none {f : Fin NUM_BLIT_BUFFER_SLOTS → Option GraphicBuffer}
    {i j : Fin NUM_BLIT_BUFFER_SLOTS} {b : GraphicBuffer}
    (h : Function.update f i none j = some b) : j ≠ i ∧ f j = some b := by
  rcases mem_of_update h with ⟨_, hno⟩ | hother
  · exact absurd hno (by simp)
  · exact hother

theorem mem_of_update_some {f : Fin NUM_BLIT_BUFFER_SLOTS → Option GraphicBuffer}
    {i j : Fin NUM_BLIT_BUFFER_SLOTS} {b c : GraphicBuffer}
    (h : Function.update f i (some c) j = some b) : (j = i ∧ b = c) ∨ (j ≠ i ∧ f j = some b) := by
  rcases mem_of_update h with ⟨hj, hb⟩ | hother
  · exact Or.inl ⟨hj, (Option.some.inj hb).symm⟩
  · exact Or.inr hother

/-- A new buffer differs from every buffer allocated before. -/
theorem newBlitBuffer_ne {s : State} {src b : GraphicBuffer} {n : Nat} (hn : n < s.allocated)
    (hb : b.handle = .blit n) : (newBlitBuffer s src).handle ≠ b.handle := by
  intro heq
  have hcount : Handle.blit s.allocated = .blit n := heq.trans hb
  cases hcount
  exact absurd hn (Nat.lt_irrefl _)

/-- A buffer newly allocated for the next blit slot keeps the invariant. -/
theorem alternating_allocated {s : State} (hi : Alternating s) (src : GraphicBuffer) :
    Alternating { s with
      mBlitSlots := Function.update s.mBlitSlots s.mNextBlitSlot (some (newBlitBuffer s src))
      allocated := s.allocated + 1 } := by
  constructor
  case offScreen => exact hi.offScreen
  case fresh =>
    intro i b hb
    rcases mem_of_update_some hb with ⟨_, rfl⟩ | ⟨_, hb⟩
    · exact ⟨s.allocated, Nat.lt_succ_self _, rfl⟩
    · obtain ⟨n, hn, hh⟩ := hi.fresh i b hb
      exact ⟨n, Nat.lt_succ_of_lt hn, hh⟩
  case distinct =>
    intro i j b c hb hc heq
    rcases mem_of_update_some hb with ⟨hin, rfl⟩ | ⟨_, hb⟩
    · rcases mem_of_update_some hc with ⟨hjn, _⟩ | ⟨_, hc⟩
      · rw [hin, hjn]
      · obtain ⟨n, hn, hh⟩ := hi.fresh j c hc
        exact absurd heq (newBlitBuffer_ne hn hh)
    · rcases mem_of_update_some hc with ⟨_, rfl⟩ | ⟨_, hc⟩
      · obtain ⟨n, hn, hh⟩ := hi.fresh i b hb
        exact absurd heq.symm (newBlitBuffer_ne hn hh)
      · exact hi.distinct i j b c hb hc heq
  case slots => exact hi.slots
  case current =>
    intro b n hb hn
    exact Nat.lt_succ_of_lt (hi.current b n hb hn)
  case nextFree =>
    intro b c hb hc heq
    rcases mem_of_update_some hc with ⟨_, rfl⟩ | ⟨hne, _⟩
    · -- the new buffer has never been the texture
      have hlt := hi.current b s.allocated hb heq.symm
      exact absurd hlt (Nat.lt_irrefl _)
    · exact absurd rfl hne

/-- Preparing the next blit slot keeps the invariant; the slot holds the buffer, and the other slot
    and the texture are as they were. -/
theorem alternating_prepared {s s₁ : State} {src dst : GraphicBuffer} (hi : Alternating s)
    (hp : Prepared s src dst s₁) :
    Alternating s₁ ∧ s₁.mBlitSlots s₁.mNextBlitSlot = some dst ∧ s₁.mSlots = s.mSlots ∧
      s₁.mCurrentTextureImage = s.mCurrentTextureImage ∧ s₁.mNextBlitSlot = s.mNextBlitSlot ∧
      s₁.mBlitSlots (slotAfter s.mNextBlitSlot) = s.mBlitSlots (slotAfter s.mNextBlitSlot) := by
  rcases hp with ⟨hre, rfl⟩ | ⟨_, rfl, rfl⟩
  · exact ⟨hi, reusable_mem hre, rfl, rfl, rfl, rfl⟩
  · exact ⟨alternating_allocated hi src, Function.update_self .., rfl, rfl, rfl,
      Function.update_of_ne (slotAfter_ne _) ..⟩

/-- What a conversion into the prepared slot records. -/
theorem offScreen_convertInto {s : State} (buf : Nat) (src : GraphicBuffer) {dst : GraphicBuffer}
    (hi : Alternating s) (hdst : s.mBlitSlots s.mNextBlitSlot = some dst) :
    OffScreen (convertInto buf src dst s) := by
  intro c hc b hb
  rcases List.mem_append.mp hc with hc | hc
  · exact hi.offScreen c hc b hb
  · rw [List.mem_singleton.mp hc] at hb ⊢
    exact hi.nextFree b dst hb hdst

/-- A frame with an image of its own keeps it when another one is converted. -/
theorem slots_convertInto {s : State} {buf : Nat} {src : GraphicBuffer} (dst : GraphicBuffer)
    (hi : Alternating s) (hsrc : s.mSlots buf = some src) (hblit : src.needsBlit = true) :
    ∀ buf' b, s.mSlots buf' = some b → (∃ n, b.handle = .queue n) ∧
      (b.needsBlit = false → Function.update s.mEglSlots buf (some dst) buf' = some b) := by
  intro buf' b hb
  refine ⟨(hi.slots buf' b hb).1, fun hno => ?_⟩
  by_cases hbuf : buf' = buf
  · subst hbuf
    have : src = b := Option.some.inj (hsrc.symm.trans hb)
    rw [← this, hblit] at hno
    exact absurd hno (by simp)
  · rw [Function.update_of_ne hbuf]
    exact (hi.slots buf' b hb).2 hno

/-- A blit slot that could not be filled is empty, and the next one is free. -/
theorem alternating_emptied {s : State} (hi : Alternating s) :
    Alternating { s with mBlitSlots := Function.update s.mBlitSlots s.mNextBlitSlot none } := by
  constructor
  case offScreen => exact hi.offScreen
  case fresh =>
    intro i b hb
    exact hi.fresh i b (mem_of_update_none hb).2
  case distinct =>
    intro i j b c hb hc
    exact hi.distinct i j b c (mem_of_update_none hb).2 (mem_of_update_none hc).2
  case slots => exact hi.slots
  case current => exact hi.current
  case nextFree =>
    intro b c _ hc
    exact absurd rfl (mem_of_update_none hc).1

/-- A conversion keeps the invariant whatever is the texture behind it, if that one is allocated and
    not in the slot that is next. -/
theorem alternating_converted {s : State} {buf : Nat} {src dst : GraphicBuffer} (hi : Alternating s)
    (hsrc : s.mSlots buf = some src) (hblit : src.needsBlit = true)
    (hdst : s.mBlitSlots s.mNextBlitSlot = some dst) (texture : Option Nat)
    (image : Option GraphicBuffer) (r : List (Nat × Option GraphicBuffer))
    (hcurrent : ∀ b n, image = some b → b.handle = .blit n → n < s.allocated)
    (hfree : ∀ b c, image = some b → s.mBlitSlots (slotAfter s.mNextBlitSlot) = some c →
      c.handle ≠ b.handle) :
    Alternating { convertInto buf src dst s with
      released := r, mCurrentTexture := texture, mCurrentTextureImage := image } := by
  constructor
  case offScreen => exact offScreen_convertInto buf src hi hdst
  case fresh => exact hi.fresh
  case distinct => exact hi.distinct
  case slots => exact slots_convertInto dst hi hsrc hblit
  case current => exact hcurrent
  case nextFree => exact hfree

/-- A frame that is not converted shows a buffer of the queue, which is in no blit slot. -/
theorem alternating_bound {s : State} {buf : Nat} {src : GraphicBuffer} (hi : Alternating s)
    (hsrc : s.mSlots buf = some src) (hno : src.needsBlit = false)
    (r : List (Nat × Option GraphicBuffer)) :
    Alternating { s with
      released := r, mCurrentTexture := some buf, mCurrentTextureImage := s.mEglSlots buf } := by
  obtain ⟨⟨q, hq⟩, himg⟩ := hi.slots buf src hsrc
  have hown : ∀ b, s.mEglSlots buf = some b → b.handle = .queue q := by
    intro b hb
    rw [← Option.some.inj ((himg hno).symm.trans hb), hq]
  constructor
  case offScreen => exact hi.offScreen
  case fresh => exact hi.fresh
  case distinct => exact hi.distinct
  case slots => exact hi.slots
  case current =>
    intro b n hb hn
    rw [hown b hb] at hn
    cases hn
  case nextFree =>
    intro b c hb hc heq
    obtain ⟨n, _, hn⟩ := hi.fresh _ c hc
    rw [hn, hown b hb] at heq
    cases heq

theorem alternating_update {s s' : State} {buf : Nat} {src : GraphicBuffer} {o : Outcome}
    (hi : Alternating s) (hsrc : s.mSlots buf = some src)
    (hok : NoLateFailure s (.updateAndRelease buf o)) (he : Effect buf src o s s') :
    Alternating s' := by
  cases he with
  | dropped r =>
    exact ⟨hi.offScreen, hi.fresh, hi.distinct, hi.slots, hi.current, hi.nextFree⟩
  | noMemory _ _ => exact alternating_emptied hi
  | convertedDropped dst s₁ r hblit hp hatt hegl halloc hlate =>
    obtain ⟨hi₁, hdst, hslots, himg, hnext, hsame⟩ := alternating_prepared hi hp
    refine alternating_converted hi₁ (hslots ▸ hsrc) hblit hdst _ _ r hi₁.current ?_
    -- the texture stays while the slots move on: this is what the condition is about
    intro b c hb hc
    refine hok src hsrc hblit hatt hegl halloc hlate b c (himg ▸ hb) ?_
    rw [← hsame, ← hnext]
    exact hc
  | convertedBound dst s₁ r hblit hp =>
    obtain ⟨hi₁, hdst, hslots, _⟩ := alternating_prepared hi hp
    refine alternating_converted hi₁ (hslots ▸ hsrc) hblit hdst _ _ r ?_ ?_
    · intro b n hb hn
      obtain rfl : dst = b := Option.some.inj hb
      obtain ⟨n', hn', hh⟩ := hi₁.fresh _ _ hdst
      have : Handle.blit n = .blit n' := hn.symm.trans hh
      cases this
      exact hn'
    · intro b c hb hc heq
      obtain rfl : dst = b := Option.some.inj hb
      exact absurd (hi₁.distinct _ _ c dst hc hdst heq) (slotAfter_ne _)
  | bound r hno => exact alternating_bound hi hsrc hno r

theorem slots_acquire {s : State} (hi : Alternating s) (buf n width height : Nat)
    (format : PixelFormat) (usage : Nat) :
    ∀ buf' b, (acquireBufferLocked buf ⟨.queue n, width, height, format, usage⟩ s).mSlots buf' =
        some b → (∃ q, b.handle = .queue q) ∧ (b.needsBlit = false →
      (acquireBufferLocked buf ⟨.queue n, width, height, format, usage⟩ s).mEglSlots buf' =
        some b) := by
  intro buf' b hb
  simp only [acquireBufferLocked] at hb ⊢
  by_cases hbuf : buf' = buf
  · subst hbuf
    rw [Function.update_self] at hb ⊢
    exact ⟨⟨n, by rw [← Option.some.inj hb]⟩, fun _ => hb⟩
  · rw [Function.update_of_ne hbuf] at hb ⊢
    exact hi.slots buf' b hb

theorem slots_free {s : State} (hi : Alternating s) (buf : Nat) :
    ∀ buf' b, (freeBufferLocked buf s).mSlots buf' = some b → (∃ q, b.handle = .queue q) ∧
      (b.needsBlit = false → (freeBufferLocked buf s).mEglSlots buf' = some b) := by
  intro buf' b hb
  simp only [freeBufferLocked] at hb ⊢
  by_cases hbuf : buf' = buf
  · subst hbuf
    simp at hb
  · rw [Function.update_of_ne hbuf] at hb ⊢
    exact hi.slots buf' b hb

theorem alternating_step {s s' : State} {a : Action} (hi : Alternating s)
    (hok : NoLateFailure s a) (h : step s a = some s') : Alternating s' := by
  cases a with
  | acquireBuffer buf n width height format usage =>
    cases h
    exact ⟨hi.offScreen, hi.fresh, hi.distinct, slots_acquire hi buf n width height format usage,
      hi.current, hi.nextFree⟩
  | updateAndRelease buf o =>
    simp only [step, Option.map_eq_some_iff] at h
    obtain ⟨src, hsrc, rfl⟩ := h
    exact alternating_update hi hsrc hok (update_effect buf src o s)
  | freeBuffer buf =>
    cases h
    exact ⟨hi.offScreen, hi.fresh, hi.distinct, slots_free hi buf, hi.current, hi.nextFree⟩

/-- A frame that fails behind the conversion leaves the blit slots moved on and the texture as it
    was. -/
theorem update_late {s : State} (buf : Nat) {src : GraphicBuffer} {o : Outcome}
    (hblit : src.needsBlit = true) (hatt : o.attached = true)
    (hegl : o.checkAndUpdateEglState = NO_ERROR)
    (halloc : reusable s src = none → o.createGraphicBuffer = true) (hlate : LateFailure o) :
    ∃ dst s₁ r, Prepared s src dst s₁ ∧
      (updateAndReleaseLocked buf src o s).2 = { convertInto buf src dst s₁ with released := r } := by
  have hdetached : ¬ o.attached = false := by simp [hatt]
  unfold updateAndReleaseLocked
  rw [if_neg hdetached, if_neg (not_not.mpr hegl), if_pos hblit]
  rcases blitFrame_cases buf src o s with ⟨hre, hno, _⟩ | ⟨_, dst, s₁, hp, he⟩
  · exact absurd (halloc hre) (by simp [hno])
  · obtain ⟨r, ⟨_, hs⟩ | ⟨hnot, _⟩⟩ := bindFrame_cases buf o (convertInto buf src dst s₁)
    · exact ⟨dst, s₁, r, hp, by rw [he]; exact hs⟩
    · exact absurd hlate hnot

/-- The excluded step is the one that goes wrong: after it the next blit slot holds the buffer on
    screen. -/
theorem late_failure_exposes {s s' : State} {a : Action} (hi : Alternating s)
    (hbad : ¬ NoLateFailure s a) (h : step s a = some s') : ¬ NextFree s' := by
  cases a with
  | acquireBuffer | freeBuffer => exact absurd trivial hbad
  | updateAndRelease buf o =>
    simp only [NoLateFailure, not_forall, not_not] at hbad
    obtain ⟨src, hsrc, hblit, hatt, hegl, halloc, hlate, b, c, hb, hc, heq⟩ := hbad
    simp only [step, hsrc, Option.map_some, Option.some.injEq] at h
    obtain ⟨dst, s₁, r, hp, he⟩ := update_late buf hblit hatt hegl halloc hlate
    obtain ⟨_, _, _, himg, hnext, hsame⟩ := alternating_prepared hi hp
    rw [← h, he]
    intro hfree
    refine hfree b c (himg.trans hb) ?_ heq
    show s₁.mBlitSlots (slotAfter s₁.mNextBlitSlot) = some c
    rw [hnext, hsame, hc]

/-- A film frame of the size of the buffer in the next blit slot is converted into that. -/
theorem convertInto_next {s : State} (buf : Nat) (src : GraphicBuffer) {dst : GraphicBuffer}
    (hdst : s.mBlitSlots s.mNextBlitSlot = some dst) (hblit : src.needsBlit = true)
    (hw : src.width = dst.width) (hh : src.height = dst.height) :
    (updateAndReleaseLocked buf src {} s).2.conversions =
      s.conversions ++ [⟨src, dst, s.mCurrentTextureImage⟩] := by
  have hre : reusable s src = some dst := by simp [reusable, hdst, hw, hh]
  have hframe : updateAndReleaseLocked buf src {} s = bindFrame buf {} (convertInto buf src dst s) := by
    simp [updateAndReleaseLocked, blitFrame, hblit, hre]
  rw [hframe]
  obtain ⟨r, ⟨_, hs⟩ | ⟨_, hs⟩⟩ := bindFrame_cases buf {} (convertInto buf src dst s)
  · rw [hs]
    rfl
  · rw [hs]
    rfl

/-- Once the next blit slot holds the buffer on screen, a film frame of that size is converted into
    it. -/
theorem exposed_converts {s : State} (hexp : ¬ NextFree s) :
    ∃ s', Reach step s s' ∧ ¬ OffScreen s' := by
  simp only [NextFree, not_forall, not_not] at hexp
  obtain ⟨b, c, hb, hc, heq⟩ := hexp
  let src : GraphicBuffer := ⟨.queue 0, c.width, c.height, .HAL_PIXEL_FORMAT_YCBCR42XMBN, 0⟩
  let s₁ := acquireBufferLocked 0 src s
  have hacquire : step s (.acquireBuffer 0 0 c.width c.height .HAL_PIXEL_FORMAT_YCBCR42XMBN 0) =
      some s₁ := rfl
  have hupdate : step s₁ (.updateAndRelease 0 {}) =
      some (updateAndReleaseLocked 0 src {} s₁).2 := by
    simp [step, s₁, acquireBufferLocked]
  refine ⟨_, Run.next _ (Run.next _ Run.start trivial hacquire) trivial hupdate, fun hoff => ?_⟩
  refine hoff ⟨src, c, some b⟩ ?_ b rfl heq
  rw [convertInto_next (s := s₁) 0 src hc rfl rfl rfl]
  exact List.mem_append_right _ (by rw [← hb]; exact List.mem_singleton.mpr rfl)

/-- **The buffer on screen is never converted into**, in every run without such a failure. -/
theorem blit_off_screen (s : State) (hrun : Run step NoLateFailure {} s) : OffScreen s := by
  have hinv : Alternating s := by
    refine hrun.inv alternating_init ?_
    intro s a s' hi hok hs
    exact alternating_step hi hok hs
  exact hinv.offScreen

/-- Three frames of a film; the first fails when it synchronises, while nothing is bound yet. -/
theorem blit_off_screen_failure :
    ∃ s, Run step NoLateFailure {} s ∧ OffScreen s ∧ s.conversions.length = 3 := by
  have hrun := run_of_exec step NoLateFailure {}
    [.acquireBuffer 0 0 640 480 .HAL_PIXEL_FORMAT_YCBCR42XMBN 0,
      .updateAndRelease 0 { syncForRelease := UNKNOWN_ERROR }, .updateAndRelease 0 {},
      .updateAndRelease 0 {}]
    ⟨trivial, fun _ _ _ _ _ _ _ b _ hb => absurd (show none = some b from hb) (by simp),
      fun _ _ _ _ _ _ hl => by
        rcases hl with hl | hl
        · exact absurd rfl hl
        · exact absurd rfl hl,
      fun _ _ _ _ _ _ hl => by
        rcases hl with hl | hl
        · exact absurd rfl hl
        · exact absurd rfl hl, trivial⟩ rfl
  exact ⟨_, hrun, blit_off_screen _ hrun, rfl⟩

/-- A frame is shown, the next one fails when it synchronises, and the third is converted into the
    buffer of the first. -/
theorem converted_on_screen : ¬ ∀ s : State, Reach step {} s → OffScreen s := by
  intro hall
  have hreach := reach_of_exec step {}
    [.acquireBuffer 0 0 640 480 .HAL_PIXEL_FORMAT_YCBCR42XMBN 0, .updateAndRelease 0 {},
      .updateAndRelease 0 { syncForRelease := UNKNOWN_ERROR }, .updateAndRelease 0 {}]
    rfl
  have hoff := hall _ hreach _ (List.mem_append_right _ List.mem_cons_self) _ rfl
  exact hoff rfl

end Codina.Gui
