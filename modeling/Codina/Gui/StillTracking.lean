/-
  The patched `GLConsumer`: `stillTracking`.

  The function is to tell whether a slot still holds the buffer of a frame, so that the slot is not
  released on behalf of a frame that has long left it.  For a frame that is shown as it is the buffer
  is its own.  A converted one is known by the blit buffer it was converted into, and the patch
  compares that with the two blit buffers without looking at the slot: the answer is `true` for every
  slot there is, and stays so when the slot has been freed or holds another frame
  (`freed_slot_tracked`).

  To say when the answer is right, the history follows the frame behind each blit buffer
  (`frameOf`): it is in the slot it was converted from, until that slot gets another buffer or none.
  A call that asks about a blit buffer and that slot is answered truly (`still_tracking_truthful`).
  Any other call about a blit buffer is answered wrongly, if the queue keeps each buffer in one slot
  (`other_slot_wrong`).
-/
import Codina.Gui.BlitSlots

namespace Codina.Gui

open Codina.Runs

/-! ## The function -/

/-- `b != NULL && b->handle == graphicBuffer->handle`. -/
def sameHandle (b : Option GraphicBuffer) (graphicBuffer : GraphicBuffer) : Bool :=
  match b with
  | none => false
  | some b => b.handle = graphicBuffer.handle

/-- `stillTracking`; the number of slots is the queue's. -/
def stillTracking (NUM_BUFFER_SLOTS slot : Int) (graphicBuffer : GraphicBuffer) (s : State) : Bool :=
  if slot < 0 ∨ NUM_BUFFER_SLOTS ≤ slot then false
  else
    -- For NovaThor check whether the buffer should not be the case for BlitSlot
    sameHandle (s.mSlots slot.toNat) graphicBuffer || sameHandle (s.mBlitSlots 0) graphicBuffer ||
      sameHandle (s.mBlitSlots 1) graphicBuffer

/-! ## What the answer is about -/

/-- The frame last converted into the blit buffer with handle `h`. -/
def sourceOf (s : State) (h : Handle) : Option GraphicBuffer :=
  (s.conversions.reverse.find? fun c => c.dst.handle = h).map Conversion.src

/-- The slot holds the buffer a frame came from: `graphicBuffer` itself, or the buffer that was
    converted into it. -/
def SlotHolds (s : State) (slot : Int) (graphicBuffer : GraphicBuffer) : Prop :=
  0 ≤ slot ∧ ∃ b, s.mSlots slot.toNat = some b ∧
    (b.handle = graphicBuffer.handle ∨ sourceOf s graphicBuffer.handle = some b)

/-- A call of `stillTracking`, with the state it is made in. -/
structure Call where
  slot : Int
  graphicBuffer : GraphicBuffer
  before : State
  result : Bool

def Call.Truthful (c : Call) : Prop :=
  c.result = true → SlotHolds c.before c.slot c.graphicBuffer

/-! ## The consumer with its history -/

structure Tracked where
  consumer : State := {}
  /-- The slot of the frame last converted into a blit buffer, while the slot still holds it. -/
  frameOf : Handle → Option Nat := fun _ => none
  calls : List Call := []

inductive Event where
  | act (a : Action)
  | stillTracking (slot : Int) (graphicBuffer : GraphicBuffer)

/-- The frames from slot `buf` are gone. -/
def forget (buf : Nat) (frameOf : Handle → Option Nat) : Handle → Option Nat := fun h =>
  if frameOf h = some buf then none else frameOf h

/-- Slot `buf` holds another buffer than before, or none. -/
def refilled (buf : Nat) (t : Tracked) (s' : State) : Handle → Option Nat :=
  if s'.mSlots buf = t.consumer.mSlots buf then t.frameOf else forget buf t.frameOf

/-- Where the frames are when an action has led to state `s'`. -/
def followed (t : Tracked) (a : Action) (s' : State) : Handle → Option Nat :=
  match a with
  | .acquireBuffer buf _ _ _ _ _ => refilled buf t s'
  | .freeBuffer buf => refilled buf t s'
  | .updateAndRelease buf _ =>
    match s'.conversions.drop t.consumer.conversions.length with
    | [] => t.frameOf
    | c :: _ => Function.update t.frameOf c.dst.handle (some buf)

def trackStep (NUM_BUFFER_SLOTS : Int) (t : Tracked) : Event → Option Tracked
  | .act a => (step t.consumer a).map fun s' =>
    { t with consumer := s', frameOf := followed t a s' }
  | .stillTracking slot graphicBuffer => some { t with
      calls := t.calls ++ [⟨slot, graphicBuffer, t.consumer,
        Gui.stillTracking NUM_BUFFER_SLOTS slot graphicBuffer t.consumer⟩] }

/-- `graphicBuffer` is one of the two blit buffers. -/
def InBlitSlot (s : State) (graphicBuffer : GraphicBuffer) : Prop :=
  ∃ i b, s.mBlitSlots i = some b ∧ b.handle = graphicBuffer.handle

/-- A call about a blit buffer is about the slot of the frame last converted into it, and the slot has
    kept the frame since. -/
def AsksFrame (NUM_BUFFER_SLOTS : Int) (t : Tracked) : Event → Prop
  | .act _ => True
  | .stillTracking slot graphicBuffer => 0 ≤ slot → slot < NUM_BUFFER_SLOTS →
      InBlitSlot t.consumer graphicBuffer → t.frameOf graphicBuffer.handle = some slot.toNat

/-! ## What an action does -/

/-- A frame leaves the slots as they are, and is converted once or not at all. -/
theorem update_conversions (buf : Nat) (src : GraphicBuffer) (o : Outcome) (s : State) :
    (updateAndReleaseLocked buf src o s).2.mSlots = s.mSlots ∧
      ((updateAndReleaseLocked buf src o s).2.conversions = s.conversions ∨
        ∃ dst bound, (updateAndReleaseLocked buf src o s).2.conversions =
          s.conversions ++ [⟨src, dst, bound⟩]) := by
  have hprep : ∀ {dst s₁}, Prepared s src dst s₁ →
      s₁.mSlots = s.mSlots ∧ s₁.conversions = s.conversions := by
    intro dst s₁ hp
    rcases hp with ⟨_, rfl⟩ | ⟨_, _, rfl⟩
    · exact ⟨rfl, rfl⟩
    · exact ⟨rfl, rfl⟩
  have heffect := update_effect buf src o s
  generalize (updateAndReleaseLocked buf src o s).2 = s' at *
  cases heffect with
  | dropped r => exact ⟨rfl, Or.inl rfl⟩
  | noMemory => exact ⟨rfl, Or.inl rfl⟩
  | convertedDropped dst s₁ r _ hp =>
    obtain ⟨hslots, hconv⟩ := hprep hp
    exact ⟨hslots, Or.inr ⟨dst, _, congrArg (· ++ [_]) hconv⟩⟩
  | convertedBound dst s₁ r _ hp =>
    obtain ⟨hslots, hconv⟩ := hprep hp
    exact ⟨hslots, Or.inr ⟨dst, _, congrArg (· ++ [_]) hconv⟩⟩
  | bound r _ => exact ⟨rfl, Or.inl rfl⟩

/-- The buffer that an action puts into a slot. -/
def Action.puts : Action → Option (Nat × GraphicBuffer)
  | .acquireBuffer buf n width height format usage =>
    some (buf, ⟨.queue n, width, height, format, usage⟩)
  | _ => none

/-- What an action means for the frames: a frame is converted, or a slot gets a buffer or loses it, or
    neither. -/
inductive Moved (t : Tracked) (a : Action) (s' : State) : Prop
  | same (hslots : s'.mSlots = t.consumer.mSlots) (hconv : s'.conversions = t.consumer.conversions)
      (hframe : followed t a s' = t.frameOf)
  | converted (buf : Nat) (c : Conversion) (hslots : s'.mSlots = t.consumer.mSlots)
      (hsrc : t.consumer.mSlots buf = some c.src)
      (hconv : s'.conversions = t.consumer.conversions ++ [c])
      (hframe : followed t a s' = Function.update t.frameOf c.dst.handle (some buf))
  | slot (buf : Nat) (b : Option GraphicBuffer)
      (hslots : s'.mSlots = Function.update t.consumer.mSlots buf b)
      (hnew : b ≠ t.consumer.mSlots buf) (hput : ∀ c, b = some c → a.puts = some (buf, c))
      (hconv : s'.conversions = t.consumer.conversions)
      (hframe : followed t a s' = forget buf t.frameOf)

theorem moved_slot {t : Tracked} {a : Action} {s' : State} (buf : Nat) (b : Option GraphicBuffer)
    (hslots : s'.mSlots = Function.update t.consumer.mSlots buf b)
    (hput : ∀ c, b = some c → a.puts = some (buf, c))
    (hconv : s'.conversions = t.consumer.conversions)
    (hframe : followed t a s' = refilled buf t s') : Moved t a s' := by
  unfold refilled at hframe
  have hbuf : s'.mSlots buf = b := by rw [hslots, Function.update_self]
  rw [hbuf] at hframe
  by_cases hsame : b = t.consumer.mSlots buf
  · rw [if_pos hsame] at hframe
    exact Moved.same (by rw [hslots, hsame, Function.update_eq_self]) hconv hframe
  · rw [if_neg hsame] at hframe
    exact Moved.slot buf b hslots hsame hput hconv hframe

theorem step_moved {t : Tracked} {a : Action} {s' : State} (h : step t.consumer a = some s') :
    Moved t a s' := by
  cases a with
  | acquireBuffer buf n width height format usage =>
    cases h
    refine moved_slot buf (some ⟨.queue n, width, height, format, usage⟩) rfl ?_ rfl rfl
    intro c hc
    rw [← Option.some.inj hc]
    rfl
  | freeBuffer buf =>
    cases h
    exact moved_slot buf none rfl (fun c hc => by cases hc) rfl rfl
  | updateAndRelease buf o =>
    simp only [step, Option.map_eq_some_iff] at h
    obtain ⟨src, hsrc, rfl⟩ := h
    obtain ⟨hslots, hconv | ⟨dst, bound, hconv⟩⟩ := update_conversions buf src o t.consumer
    · refine Moved.same hslots hconv ?_
      simp only [followed, hconv, List.drop_length]
    · refine Moved.converted buf ⟨src, dst, bound⟩ hslots hsrc hconv ?_
      simp only [followed, hconv, List.drop_left]

theorem sourceOf_converted {s s' : State} {c : Conversion}
    (hconv : s'.conversions = s.conversions ++ [c]) (h : Handle) :
    sourceOf s' h = if c.dst.handle = h then some c.src else sourceOf s h := by
  unfold sourceOf
  rw [hconv, List.reverse_append, List.reverse_singleton, List.singleton_append, List.find?_cons]
  by_cases hdst : c.dst.handle = h
  · simp [hdst]
  · simp [hdst]

theorem sourceOf_same {s s' : State} (hconv : s'.conversions = s.conversions) (h : Handle) :
    sourceOf s' h = sourceOf s h := by
  unfold sourceOf
  rw [hconv]

/-! ## Truthful answers -/

/-- The frame behind a blit buffer is in the slot it is followed to. -/
def Following (t : Tracked) : Prop :=
  ∀ h k, t.frameOf h = some k →
    ∃ b, t.consumer.mSlots k = some b ∧ sourceOf t.consumer h = some b

theorem forget_eq_some {buf k : Nat} {frameOf : Handle → Option Nat} {h : Handle}
    (hf : forget buf frameOf h = some k) : k ≠ buf ∧ frameOf h = some k := by
  unfold forget at hf
  by_cases hbuf : frameOf h = some buf
  · rw [if_pos hbuf] at hf
    cases hf
  · rw [if_neg hbuf] at hf
    exact ⟨fun hk => hbuf (hk ▸ hf), hf⟩

theorem following_moved {t : Tracked} {a : Action} {s' : State} (hi : Following t)
    (hm : Moved t a s') : Following { t with consumer := s', frameOf := followed t a s' } := by
  intro h k hf
  cases hm with
  | same hslots hconv hframe =>
    simp only [hframe] at hf
    simp only [hslots, sourceOf_same hconv]
    exact hi h k hf
  | converted buf c hslots hsrc hconv hframe =>
    simp only [hframe] at hf
    simp only [hslots, sourceOf_converted hconv]
    by_cases hdst : c.dst.handle = h
    · subst hdst
      rw [Function.update_self] at hf
      obtain rfl : buf = k := Option.some.inj hf
      exact ⟨c.src, hsrc, if_pos rfl⟩
    · rw [Function.update_of_ne (Ne.symm hdst)] at hf
      rw [if_neg hdst]
      exact hi h k hf
  | slot buf b hslots _ _ hconv hframe =>
    simp only [hframe] at hf
    obtain ⟨hne, hf⟩ := forget_eq_some hf
    simp only [hslots, sourceOf_same hconv, Function.update_of_ne hne]
    exact hi h k hf

theorem sameHandle_iff {b : Option GraphicBuffer} {graphicBuffer : GraphicBuffer} :
    sameHandle b graphicBuffer = true ↔ ∃ b', b = some b' ∧ b'.handle = graphicBuffer.handle := by
  cases b with
  | none => simp [sameHandle]
  | some b => simp [sameHandle]

theorem stillTracking_iff {NUM_BUFFER_SLOTS slot : Int} {graphicBuffer : GraphicBuffer} {s : State} :
    stillTracking NUM_BUFFER_SLOTS slot graphicBuffer s = true ↔
      0 ≤ slot ∧ slot < NUM_BUFFER_SLOTS ∧
        ((∃ b, s.mSlots slot.toNat = some b ∧ b.handle = graphicBuffer.handle) ∨
          InBlitSlot s graphicBuffer) := by
  unfold stillTracking InBlitSlot
  by_cases hout : slot < 0 ∨ NUM_BUFFER_SLOTS ≤ slot
  · rw [if_pos hout]
    exact iff_of_false (by simp) (by omega)
  · rw [if_neg hout, Bool.or_eq_true, Bool.or_eq_true, sameHandle_iff, sameHandle_iff,
      sameHandle_iff, Fin.exists_fin_two, or_assoc]
    exact ⟨fun h => ⟨by omega, by omega, h⟩, fun h => h.2.2⟩

theorem truthful_call {NUM_BUFFER_SLOTS slot : Int} {graphicBuffer : GraphicBuffer} {t : Tracked}
    (hi : Following t) (hok : AsksFrame NUM_BUFFER_SLOTS t (.stillTracking slot graphicBuffer)) :
    Call.Truthful ⟨slot, graphicBuffer, t.consumer,
      stillTracking NUM_BUFFER_SLOTS slot graphicBuffer t.consumer⟩ := by
  intro hres
  obtain ⟨hpos, hlt, ⟨b, hb, hh⟩ | hblit⟩ := stillTracking_iff.mp hres
  · exact ⟨hpos, b, hb, Or.inl hh⟩
  · obtain ⟨b, hb, hsrc⟩ := hi _ _ (hok hpos hlt hblit)
    exact ⟨hpos, b, hb, Or.inr hsrc⟩

/-- The invariant. -/
structure Answered (t : Tracked) : Prop where
  following : Following t
  calls : ∀ c ∈ t.calls, c.Truthful

theorem answered_init : Answered {} where
  following := by simp [Following]
  calls := by simp

theorem answered_step {NUM_BUFFER_SLOTS : Int} {t t' : Tracked} {e : Event} (hi : Answered t)
    (hok : AsksFrame NUM_BUFFER_SLOTS t e) (h : trackStep NUM_BUFFER_SLOTS t e = some t') :
    Answered t' := by
  cases e with
  | act a =>
    simp only [trackStep, Option.map_eq_some_iff] at h
    obtain ⟨s', hs, rfl⟩ := h
    exact ⟨following_moved hi.following (step_moved hs), hi.calls⟩
  | stillTracking slot graphicBuffer =>
    cases h
    refine ⟨hi.following, fun c hc => ?_⟩
    rcases List.mem_append.mp hc with hc | hc
    · exact hi.calls c hc
    · rw [List.mem_singleton.mp hc]
      exact truthful_call hi.following hok

/-! ## The other calls -/

/-- The queue keeps each of its buffers in one slot: a slot gets the buffer that it holds, or one that
    no slot holds and that has not been converted. -/
def OwnSlot (t : Tracked) : Event → Prop
  | .act a => ∀ buf b, a.puts = some (buf, b) → t.consumer.mSlots buf = some b ∨
      ((∀ k c, t.consumer.mSlots k = some c → c.handle ≠ b.handle) ∧
        ∀ c ∈ t.consumer.conversions, c.src.handle ≠ b.handle)
  | .stillTracking _ _ => True

/-- What holds in such a run: a slot that holds the source of a blit buffer is the one its frame is
    followed to. -/
structure Separate (t : Tracked) : Prop where
  queue : ∀ k b, t.consumer.mSlots k = some b → ∃ n, b.handle = .queue n
  blit : ∀ i b, t.consumer.mBlitSlots i = some b → ∃ n, b.handle = .blit n
  unique : ∀ j k b c, t.consumer.mSlots j = some b → t.consumer.mSlots k = some c →
    b.handle = c.handle → j = k
  frame : ∀ h k b c, sourceOf t.consumer h = some b → t.consumer.mSlots k = some c →
    c.handle = b.handle → t.frameOf h = some k

theorem separate_init : Separate {} where
  queue := by simp
  blit := by simp
  unique := by simp
  frame := by simp

theorem puts_queue {a : Action} {buf : Nat} {b : GraphicBuffer} (h : a.puts = some (buf, b)) :
    ∃ n, b.handle = .queue n := by
  cases a with
  | acquireBuffer buf n width height format usage =>
    cases h
    exact ⟨n, rfl⟩
  | updateAndRelease buf o => cases h
  | freeBuffer buf => cases h

/-- The blit slots only ever hold buffers allocated for them. -/
theorem blit_step {s s' : State} {a : Action} (h : step s a = some s')
    (hi : ∀ i b, s.mBlitSlots i = some b → ∃ n, b.handle = .blit n) :
    ∀ i b, s'.mBlitSlots i = some b → ∃ n, b.handle = .blit n := by
  cases a with
  | acquireBuffer | freeBuffer =>
    cases h
    exact hi
  | updateAndRelease buf o =>
    have hprep : ∀ {src dst s₁}, Prepared s src dst s₁ →
        ∀ i b, s₁.mBlitSlots i = some b → ∃ n, b.handle = .blit n := by
      intro src dst s₁ hp i b hb
      rcases hp with ⟨_, rfl⟩ | ⟨_, rfl, rfl⟩
      · exact hi i b hb
      · rcases mem_of_update_some hb with ⟨_, rfl⟩ | ⟨_, hb⟩
        · exact ⟨s.allocated, rfl⟩
        · exact hi i b hb
    simp only [step, Option.map_eq_some_iff] at h
    obtain ⟨src, _, rfl⟩ := h
    have heffect := update_effect buf src o s
    generalize (updateAndReleaseLocked buf src o s).2 = s' at *
    cases heffect with
    | dropped | bound => exact hi
    | noMemory =>
      intro i b hb
      exact hi i b (mem_of_update_none hb).2
    | convertedDropped dst s₁ r _ hp =>
      intro i b hb
      exact hprep hp i b hb
    | convertedBound dst s₁ r _ hp =>
      intro i b hb
      exact hprep hp i b hb

/-- A source is one of the frames that have been converted. -/
theorem source_mem {s : State} {h : Handle} {b : GraphicBuffer} (hb : sourceOf s h = some b) :
    ∃ c ∈ s.conversions, c.src = b := by
  simp only [sourceOf, Option.map_eq_some_iff] at hb
  obtain ⟨c, hc, hsrc⟩ := hb
  exact ⟨c, List.mem_reverse.mp (List.mem_of_find?_eq_some hc), hsrc⟩

/-- A buffer newly put into slot `buf` is like none in the slots or among the sources. -/
theorem new_of_ownSlot {t : Tracked} {a : Action} {buf : Nat} {b : GraphicBuffer}
    (hok : OwnSlot t (.act a)) (hput : a.puts = some (buf, b))
    (hnew : some b ≠ t.consumer.mSlots buf) :
    (∀ k c, t.consumer.mSlots k = some c → c.handle ≠ b.handle) ∧
      ∀ c ∈ t.consumer.conversions, c.src.handle ≠ b.handle := by
  rcases hok buf b hput with hsame | hother
  · exact absurd hsame.symm hnew
  · exact hother

theorem separate_moved {t : Tracked} {a : Action} {s' : State} (hi : Separate t)
    (hok : OwnSlot t (.act a)) (hs : step t.consumer a = some s') :
    Separate { t with consumer := s', frameOf := followed t a s' } := by
  have hblit := blit_step hs hi.blit
  cases step_moved (t := t) hs with
  | same hslots hconv hframe =>
    constructor
    case queue => simpa only [hslots] using hi.queue
    case blit => exact hblit
    case unique => simpa only [hslots] using hi.unique
    case frame => simpa only [hslots, hframe, sourceOf_same hconv] using hi.frame
  | converted buf c hslots hsrc hconv hframe =>
    constructor
    case queue => simpa only [hslots] using hi.queue
    case blit => exact hblit
    case unique => simpa only [hslots] using hi.unique
    case frame =>
      intro h k b d hb hd heq
      simp only [hslots] at hd
      simp only [sourceOf_converted hconv] at hb
      simp only [hframe]
      by_cases hdst : c.dst.handle = h
      · subst hdst
        rw [if_pos rfl] at hb
        rw [← Option.some.inj hb] at heq
        rw [Function.update_self, hi.unique k buf d c.src hd hsrc heq]
      · rw [if_neg hdst] at hb
        rw [Function.update_of_ne (Ne.symm hdst)]
        exact hi.frame h k b d hb hd heq
  | slot buf b hslots hnew hput hconv hframe =>
    have hheld : ∀ k c, s'.mSlots k = some c →
        (k = buf ∧ b = some c) ∨ (k ≠ buf ∧ t.consumer.mSlots k = some c) := by
      intro k c hc
      rw [hslots] at hc
      exact mem_of_update hc
    have hother : ∀ c, b = some c → (∀ k d, t.consumer.mSlots k = some d → d.handle ≠ c.handle) ∧
        ∀ d ∈ t.consumer.conversions, d.src.handle ≠ c.handle :=
      fun c hc => new_of_ownSlot hok (hput c hc) (hc ▸ hnew)
    constructor
    case queue =>
      intro k c hc
      rcases hheld k c hc with ⟨_, hb⟩ | ⟨_, hc⟩
      · exact puts_queue (hput c hb)
      · exact hi.queue k c hc
    case blit => exact hblit
    case unique =>
      intro j k c d hc hd heq
      rcases hheld j c hc with ⟨rfl, hbc⟩ | ⟨_, hc⟩
      · rcases hheld k d hd with ⟨rfl, _⟩ | ⟨_, hd⟩
        · rfl
        · exact absurd heq.symm ((hother c hbc).1 k d hd)
      · rcases hheld k d hd with ⟨rfl, hbd⟩ | ⟨_, hd⟩
        · exact absurd heq ((hother d hbd).1 j c hc)
        · exact hi.unique j k c d hc hd heq
    case frame =>
      intro h k c d hc hd heq
      simp only [sourceOf_same hconv] at hc
      simp only [hframe, forget]
      rcases hheld k d hd with ⟨rfl, hbd⟩ | ⟨hne, hd⟩
      · obtain ⟨conv, hmem, rfl⟩ := source_mem hc
        exact absurd heq.symm ((hother d hbd).2 conv hmem)
      · have hfollow := hi.frame h k c d hc hd heq
        rw [hfollow, if_neg fun hk => hne (Option.some.inj hk)]

theorem separate_step {NUM_BUFFER_SLOTS : Int} {t t' : Tracked} {e : Event} (hi : Separate t)
    (hok : OwnSlot t e) (h : trackStep NUM_BUFFER_SLOTS t e = some t') : Separate t' := by
  cases e with
  | act a =>
    simp only [trackStep, Option.map_eq_some_iff] at h
    obtain ⟨s', hs, rfl⟩ := h
    exact separate_moved hi hok hs
  | stillTracking slot graphicBuffer =>
    cases h
    exact ⟨hi.queue, hi.blit, hi.unique, hi.frame⟩

/-- Any other call about a blit buffer is answered wrongly. -/
theorem other_slot_wrong {NUM_BUFFER_SLOTS : Int} {t t' : Tracked} {e : Event}
    (hrun : Run (trackStep NUM_BUFFER_SLOTS) OwnSlot {} t)
    (hbad : ¬ AsksFrame NUM_BUFFER_SLOTS t e) (h : trackStep NUM_BUFFER_SLOTS t e = some t') :
    ∃ c ∈ t'.calls, ¬ c.Truthful := by
  have hsep : Separate t := by
    refine hrun.inv separate_init ?_
    intro t e t' hi hok h
    exact separate_step hi hok h
  cases e with
  | act a => exact absurd trivial hbad
  | stillTracking slot graphicBuffer =>
    simp only [AsksFrame, Classical.not_imp] at hbad
    obtain ⟨hpos, hlt, hblit, hframe⟩ := hbad
    cases h
    refine ⟨_, List.mem_append_right _ (List.mem_singleton.mpr rfl), fun htrue => ?_⟩
    obtain ⟨_, b, hb, hown | hsrc⟩ := htrue (stillTracking_iff.mpr ⟨hpos, hlt, Or.inr hblit⟩)
    · obtain ⟨i, dst, hdst, hh⟩ := hblit
      obtain ⟨n, hn⟩ := hsep.queue _ b hb
      obtain ⟨m, hm⟩ := hsep.blit i dst hdst
      rw [← hh, hm, hn] at hown
      cases hown
    · exact hframe (hsep.frame _ _ b b hsrc hb rfl)

/-- **A slot that is said to be tracked holds the frame's buffer**, in every run whose calls about a
    blit buffer ask about the slot where its frame is. -/
theorem still_tracking_truthful (NUM_BUFFER_SLOTS : Int) (t : Tracked)
    (hrun : Run (trackStep NUM_BUFFER_SLOTS) (AsksFrame NUM_BUFFER_SLOTS) {} t) :
    ∀ c ∈ t.calls, c.Truthful := by
  have hinv : Answered t := by
    refine hrun.inv answered_init ?_
    intro t e t' hi hok h
    exact answered_step hi hok h
  exact hinv.calls

/-- A frame is converted, and its slot asked about. -/
theorem still_tracking_truthful_film : ∃ t : Tracked,
    Run (trackStep 64) (AsksFrame 64) {} t ∧ (∀ c ∈ t.calls, c.Truthful) ∧
      t.calls.map Call.result = [true] := by
  have hrun := run_of_exec (trackStep 64) (AsksFrame 64) {}
    [.act (.acquireBuffer 3 0 640 480 .HAL_PIXEL_FORMAT_YCBCR42XMBN 0),
      .act (.updateAndRelease 3 {}),
      .stillTracking 3 ⟨.blit 0, 640, 480, .PIXEL_FORMAT_RGBA_8888, 0⟩]
    ⟨trivial, trivial, fun _ _ _ => rfl, trivial⟩ rfl
  exact ⟨_, hrun, still_tracking_truthful 64 _ hrun, rfl⟩

/-- The slot of a converted frame is freed, and still said to be tracked. -/
theorem freed_slot_tracked : ¬ ∀ t : Tracked, Reach (trackStep 64) {} t →
    ∀ c ∈ t.calls, c.Truthful := by
  intro hall
  have hreach := reach_of_exec (trackStep 64) {}
    [.act (.acquireBuffer 3 0 640 480 .HAL_PIXEL_FORMAT_YCBCR42XMBN 0),
      .act (.updateAndRelease 3 {}), .act (.freeBuffer 3),
      .stillTracking 3 ⟨.blit 0, 640, 480, .PIXEL_FORMAT_RGBA_8888, 0⟩]
    rfl
  obtain ⟨_, b, hb, _⟩ := hall _ hreach _ (List.mem_singleton.mpr rfl) rfl
  cases hb

end Codina.Gui
