/-
  The patched `GLConsumer`: is a frame that cannot be shown handed back?

  The frame has been acquired, so its slot belongs to the consumer until it is released.  The exits
  that were there before hand it back with `releaseBufferLocked`: not attached, no EGL state, no
  image, no fence.  The two that the patch inserts return at once: no blit buffer, and a failed
  conversion.  The queue never sees the slot again.

  `convert` always returns `OK`, so the second of them is never taken as the code stands.  It is
  included here (`updateAndReleaseWith`), for it is there to be taken.  One exit keeps the slot
  without being part of the patch: when the buffer of the old texture cannot be released, the function
  goes on with the error raised, and the new frame becomes the texture.
-/
import Codina.Gui.BlitSlots

namespace Codina.Gui

/-! ## The exits -/

/-- Deallocate a blit buffer of the wrong size, and allocate one if needed. -/
def prepareBlit (src : GraphicBuffer) (o : Outcome) (s : State) : Option GraphicBuffer × State :=
  match reusable s src with
  | some dst => (some dst, s)
  | none =>
    let s := { s with mBlitSlots := Function.update s.mBlitSlots s.mNextBlitSlot none }
    if o.createGraphicBuffer then
      (some (newBlitBuffer s src), { s with
        mBlitSlots :=
          Function.update s.mBlitSlots s.mNextBlitSlot (some (newBlitBuffer s src))
        allocated := s.allocated + 1 })
    else (none, s)

/-- `updateAndReleaseLocked`, when `convert` returns the status `convert`. -/
def updateAndReleaseWith (convert : Status) (buf : Nat) (src : GraphicBuffer) (o : Outcome)
    (s : State) : Status × State :=
  if o.attached = false then (INVALID_OPERATION, releaseBufferLocked buf (some src) s)
  else if o.checkAndUpdateEglState ≠ NO_ERROR then
    (o.checkAndUpdateEglState, releaseBufferLocked buf (some src) s)
  else if src.needsBlit then
    match prepareBlit src o s with
    | (none, s) => (NO_MEMORY, s)
    | (some dst, s) =>
      if convert ≠ NO_ERROR then (UNKNOWN_ERROR, s)
      else bindFrame buf o (convertInto buf src dst s)
  else bindFrame buf o s

/-- With the status that `convert` does return it is the function. -/
theorem updateAndReleaseWith_ok (buf : Nat) (src : GraphicBuffer) (o : Outcome) (s : State) :
    updateAndReleaseWith NO_ERROR buf src o s = updateAndReleaseLocked buf src o s := by
  unfold updateAndReleaseWith updateAndReleaseLocked
  by_cases hatt : o.attached = false
  · rw [if_pos hatt, if_pos hatt]
  rw [if_neg hatt, if_neg hatt]
  by_cases hegl : o.checkAndUpdateEglState ≠ NO_ERROR
  · rw [if_pos hegl, if_pos hegl]
  rw [if_neg hegl, if_neg hegl]
  by_cases hblit : src.needsBlit = true
  · rw [if_pos hblit, if_pos hblit]
    unfold prepareBlit blitFrame
    cases reusable s src with
    | some dst => rfl
    | none =>
      by_cases halloc : o.createGraphicBuffer = true
      · simp only [halloc, if_true]
        rfl
      · simp only [halloc, if_false, Bool.false_eq_true]
        rfl
  · rw [if_neg hblit, if_neg hblit]

/-! ## What is handed back -/

/-- How often slot `buf` has been released. -/
def releasesOf (buf : Nat) (s : State) : Nat := s.released.countP fun r => r.1 = buf

/-- Between the two states slot `buf` has been released exactly once. -/
def ReleasedOnce (buf : Nat) (s s' : State) : Prop := releasesOf buf s' = releasesOf buf s + 1

/-- The frame is lost in the part the patch inserts: there is no blit buffer for it, or the conversion
    fails. -/
def BlitFails (convert : Status) (src : GraphicBuffer) (o : Outcome) (s : State) : Prop :=
  src.needsBlit = true ∧
    ((reusable s src = none ∧ o.createGraphicBuffer = false) ∨ convert ≠ NO_ERROR)

/-- The frame becomes the texture, although the buffer of the old one, in another slot, cannot be
    released. -/
def OldKept (buf : Nat) (o : Outcome) (s : State) : Prop :=
  ¬ LateFailure o ∧ o.releaseOld < NO_ERROR ∧ ∃ old, s.mCurrentTexture = some old ∧ old ≠ buf

theorem releasesOf_release (buf slot : Nat) (b : Option GraphicBuffer) (s : State) :
    releasesOf buf (releaseBufferLocked slot b s) =
      releasesOf buf s + if slot = buf then 1 else 0 := by
  simp [releasesOf, releaseBufferLocked, List.countP_append, List.countP_singleton]

theorem releasedOnce_release (buf : Nat) (b : Option GraphicBuffer) (s : State) :
    ReleasedOnce buf s (releaseBufferLocked buf b s) := by
  rw [ReleasedOnce, releasesOf_release, if_pos rfl]

/-- A frame that fails behind the conversion is released. -/
theorem bindFrame_late (buf : Nat) {o : Outcome} (s : State) (h : LateFailure o) :
    ReleasedOnce buf s (bindFrame buf o s).2 := by
  unfold bindFrame
  by_cases hcreate : o.createIfNeeded ≠ NO_ERROR
  · rw [if_pos hcreate]
    exact releasedOnce_release buf _ s
  rw [if_neg hcreate]
  rcases h with h | hsync
  · exact absurd h hcreate
  · rw [if_pos hsync]
    exact releasedOnce_release buf _ s

/-- One that does not fail releases the slot of the old texture. -/
theorem bindFrame_bound (buf : Nat) {o : Outcome} (s : State) (h : ¬ LateFailure o) :
    (bindFrame buf o s).1 =
        (if s.mCurrentTexture.isSome ∧ o.releaseOld < NO_ERROR then o.releaseOld else NO_ERROR) ∧
      releasesOf buf (bindFrame buf o s).2 =
        releasesOf buf s + if s.mCurrentTexture = some buf then 1 else 0 := by
  obtain ⟨hcreate, hsync⟩ := not_or.mp h
  unfold bindFrame
  rw [if_neg hcreate, if_neg hsync]
  cases hcur : s.mCurrentTexture with
  | none =>
    refine ⟨?_, rfl⟩
    simp only [hcur]
  | some old =>
    refine ⟨?_, ?_⟩
    · simp only [releaseBufferLocked, hcur]
    · have hold := releasesOf_release buf old s.mCurrentTextureImage s
      simp only [Option.some.injEq]
      exact hold

/-- The part behind the conversion. -/
theorem bindFrame_released_iff (buf : Nat) (o : Outcome) (s : State) :
    ((bindFrame buf o s).1 ≠ NO_ERROR → ReleasedOnce buf s (bindFrame buf o s).2) ↔
      ¬ OldKept buf o s := by
  by_cases hlate : LateFailure o
  · exact iff_of_true (fun _ => bindFrame_late buf s hlate) fun hkept => hkept.1 hlate
  obtain ⟨herr, hrel⟩ := bindFrame_bound buf s hlate
  rw [herr, ReleasedOnce, hrel]
  by_cases hfail : s.mCurrentTexture.isSome ∧ o.releaseOld < NO_ERROR
  · rw [if_pos hfail]
    obtain ⟨old, hcur⟩ := Option.isSome_iff_exists.mp hfail.1
    constructor
    · rintro honce ⟨_, _, old', hold, hne⟩
      rw [if_neg (by simp [hold, hne])] at honce
      exact absurd (honce (Int.ne_of_lt hfail.2)) (Nat.ne_of_lt (Nat.lt_succ_self _))
    · intro hkept _
      have hsame : old = buf := by
        by_contra hne
        exact hkept ⟨hlate, hfail.2, old, hcur, hne⟩
      rw [if_pos (by rw [hcur, hsame])]
  · rw [if_neg hfail]
    refine iff_of_true (fun h => absurd rfl h) ?_
    rintro ⟨_, hneg, old, hold, _⟩
    exact hfail ⟨by simp [hold], hneg⟩

/-- Preparing a blit buffer releases nothing. -/
theorem prepareBlit_cases (src : GraphicBuffer) (o : Outcome) (s : State) :
    (prepareBlit src o s).2.released = s.released ∧
      (prepareBlit src o s).2.mCurrentTexture = s.mCurrentTexture ∧
      ((prepareBlit src o s).1 = none ↔ reusable s src = none ∧ o.createGraphicBuffer = false) := by
  unfold prepareBlit
  cases reusable s src with
  | some dst => exact ⟨rfl, rfl, by simp⟩
  | none =>
    by_cases halloc : o.createGraphicBuffer = true
    · rw [if_pos halloc]
      exact ⟨rfl, rfl, by simp [halloc]⟩
    · rw [if_neg halloc]
      exact ⟨rfl, rfl, by simp [halloc]⟩

/-- An exit without a release. -/
theorem not_releasedOnce {buf : Nat} {s s' : State} (h : s'.released = s.released) :
    ¬ ReleasedOnce buf s s' := by
  unfold ReleasedOnce releasesOf
  rw [h]
  exact Nat.ne_of_lt (Nat.lt_succ_self _)

/-- The part the patch inserts, and what follows it. -/
theorem blit_released_iff (convert : Status) (buf : Nat) {src : GraphicBuffer} (o : Outcome)
    (s : State) (hatt : o.attached = true) (hegl : o.checkAndUpdateEglState = NO_ERROR)
    (hblit : src.needsBlit = true) :
    ((updateAndReleaseWith convert buf src o s).1 ≠ NO_ERROR →
        ReleasedOnce buf s (updateAndReleaseWith convert buf src o s).2) ↔
      ¬ (BlitFails convert src o s ∨ OldKept buf o s) := by
  obtain ⟨hrel, hcur, hnone⟩ := prepareBlit_cases src o s
  unfold updateAndReleaseWith
  rw [if_neg (by simp [hatt]), if_neg (not_not.mpr hegl), if_pos hblit]
  generalize prepareBlit src o s = prepared at *
  obtain ⟨dst, s₁⟩ := prepared
  cases dst with
  | none =>
    have hfails : BlitFails convert src o s := ⟨hblit, Or.inl (hnone.mp rfl)⟩
    refine iff_of_false (fun h => ?_) (not_not.mpr (Or.inl hfails))
    exact not_releasedOnce hrel (h (show NO_MEMORY ≠ NO_ERROR by decide))
  | some dst =>
    have halloc : ¬ (reusable s src = none ∧ o.createGraphicBuffer = false) := fun h => by
      cases hnone.mpr h
    by_cases hconv : convert ≠ NO_ERROR
    · simp only [if_pos hconv]
      have hfails : BlitFails convert src o s := ⟨hblit, Or.inr hconv⟩
      refine iff_of_false (fun h => ?_) (not_not.mpr (Or.inl hfails))
      exact not_releasedOnce hrel (h (by decide))
    · simp only [if_neg hconv]
      have hdone : ¬ BlitFails convert src o s := fun h => (not_or.mpr ⟨halloc, hconv⟩) h.2
      have hbind := bindFrame_released_iff buf o (convertInto buf src dst s₁)
      have hkept : OldKept buf o (convertInto buf src dst s₁) ↔ OldKept buf o s := by
        show _ ∧ _ ∧ (∃ old, s₁.mCurrentTexture = some old ∧ _) ↔ _
        rw [show s₁.mCurrentTexture = _ from hcur]
        rfl
      have hbefore : releasesOf buf (convertInto buf src dst s₁) = releasesOf buf s := by
        show s₁.released.countP _ = _
        rw [show s₁.released = _ from hrel]
        rfl
      rw [hkept, ReleasedOnce, hbefore] at hbind
      rw [ReleasedOnce, hbind]
      exact ⟨fun h => not_or.mpr ⟨hdone, h⟩, fun h => (not_or.mp h).2⟩

/-- **A frame that fails is handed back, except in the inserted part.**  Whatever the steps return,
    an error means that the slot has been released exactly once, unless the frame got as far as the
    blit and failed there, or became the texture all the same. -/
theorem released_once_iff (convert : Status) (buf : Nat) (src : GraphicBuffer) (o : Outcome)
    (s : State) :
    ((updateAndReleaseWith convert buf src o s).1 ≠ NO_ERROR →
        ReleasedOnce buf s (updateAndReleaseWith convert buf src o s).2) ↔
      ¬ (o.attached = true ∧ o.checkAndUpdateEglState = NO_ERROR ∧
        (BlitFails convert src o s ∨ OldKept buf o s)) := by
  by_cases hatt : o.attached = false
  · unfold updateAndReleaseWith
    rw [if_pos hatt]
    exact iff_of_true (fun _ => releasedOnce_release buf _ s) (by simp [hatt])
  by_cases hegl : o.checkAndUpdateEglState ≠ NO_ERROR
  · unfold updateAndReleaseWith
    rw [if_neg hatt, if_pos hegl]
    exact iff_of_true (fun _ => releasedOnce_release buf _ s) (fun h => hegl h.2.1)
  have hatt : o.attached = true := eq_true_of_ne_false hatt
  have hegl : o.checkAndUpdateEglState = NO_ERROR := not_not.mp hegl
  have hinner : ((updateAndReleaseWith convert buf src o s).1 ≠ NO_ERROR →
        ReleasedOnce buf s (updateAndReleaseWith convert buf src o s).2) ↔
      ¬ (BlitFails convert src o s ∨ OldKept buf o s) := by
    by_cases hblit : src.needsBlit = true
    · exact blit_released_iff convert buf o s hatt hegl hblit
    · have hdone : ¬ BlitFails convert src o s := fun h => hblit h.1
      have hbind := bindFrame_released_iff buf o s
      unfold updateAndReleaseWith
      rw [if_neg (by simp [hatt]), if_neg (not_not.mpr hegl), if_neg hblit, hbind]
      exact ⟨fun h => not_or.mpr ⟨hdone, h⟩, fun h => (not_or.mp h).2⟩
  rw [hinner]
  exact not_congr ⟨fun h => ⟨hatt, hegl, h⟩, fun h => h.2.2⟩

/-- The first frame of a film, when no blit buffer can be allocated: its slot is not released. -/
theorem no_memory_leaks : ¬ ∀ (convert : Status) (buf : Nat) (src : GraphicBuffer) (o : Outcome)
    (s : State), s.mSlots buf = some src →
    (updateAndReleaseWith convert buf src o s).1 ≠ NO_ERROR →
      ReleasedOnce buf s (updateAndReleaseWith convert buf src o s).2 := by
  intro hall
  let src : GraphicBuffer := ⟨.queue 0, 640, 480, .HAL_PIXEL_FORMAT_YCBCR42XMBN, 0⟩
  have honce := hall NO_ERROR 0 src { createGraphicBuffer := false } (acquireBufferLocked 0 src {})
    rfl (by decide)
  exact absurd honce (not_releasedOnce rfl)

end Codina.Gui
