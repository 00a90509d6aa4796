/-
  `FramebufferNativeWindow` with the patch for Samsung's STE devices: can a producer always go on?

  The patch makes the number of buffers a constant and waits in `dequeueBuffer` until as many buffers
  are free.  So a buffer is dequeued only when no other one is out, which a producer that queues each
  buffer before it dequeues the next one always brings about: if all buffers are there.  Where an
  allocation fails, the constructor goes on with fewer, and the wait is for a buffer that does not exist.
  `framebuffer_progress_iff` says that this is the only way to get stuck, and that the very first
  `dequeueBuffer` does.

  Without the define, the wait is for two, and two buffers are enough (`aosp_progress_iff`).

  The patch's hunks are modelled with the code of AOSP around them: the allocation loop, and
  `queueBuffer`, which counts a buffer as free again and wakes the waiting.
-/
import Codina.Lib.Runs
import Mathlib.Tactic.Common

namespace Codina.Gui.Framebuffer

open Codina.Runs

/-! ## The window -/

def NUM_FRAME_BUFFERS : Nat := 3

def MIN_NUM_FRAME_BUFFERS : Nat := 2

def MAX_NUM_FRAME_BUFFERS : Nat := 3

/-- What the define `STE_SAMSUNG_HARDWARE` decides. -/
structure Build where
  /-- `mNumBuffers` before the allocations. -/
  numBuffers : Nat
  /-- `dequeueBuffer` waits while fewer are free. -/
  threshold : Nat

def steBuild : Build := ⟨NUM_FRAME_BUFFERS, NUM_FRAME_BUFFERS⟩

def aospBuild (numFramebuffers : Nat) : Build where
  numBuffers :=
    if MIN_NUM_FRAME_BUFFERS ≤ numFramebuffers ∧ numFramebuffers ≤ MAX_NUM_FRAME_BUFFERS then
      numFramebuffers
    else MIN_NUM_FRAME_BUFFERS
  threshold := 2

structure Window where
  mNumBuffers : Int
  mNumFreeBuffers : Int
  mBufferHead : Int
  /-- The index of the buffer shown. -/
  front : Option Int := none

/-- The loop of allocations from number `i` on, `todo` of them: the buffers there are when it ends. -/
def allocate (alloc : Nat → Bool) : (i todo : Nat) → Nat
  | i, 0 => i
  | i, todo + 1 => if alloc i then allocate alloc (i + 1) todo else i

/-- The buffers that could be allocated. -/
def allocated (build : Build) (alloc : Nat → Bool) : Nat := allocate alloc 0 build.numBuffers

/-- The constructor; `alloc i` tells whether allocation number `i` succeeds. -/
def newWindow (build : Build) (alloc : Nat → Bool) : Window :=
  let mNumBuffers := allocated build alloc
  { mNumBuffers := mNumBuffers, mNumFreeBuffers := mNumBuffers, mBufferHead := mNumBuffers - 1 }

/-! ## One producer -/

/-- Where the producer is. -/
inductive Producer where
  | idle
  /-- In `dequeueBuffer`, at the wait for a free buffer; it is going to take this one. -/
  | dequeueing (index : Int)
  /-- It has dequeued this buffer. -/
  | holding (index : Int)

structure State where
  window : Window
  producer : Producer

inductive Action where
  /-- Enter `dequeueBuffer`. -/
  | dequeueBuffer
  /-- Leave the wait of `dequeueBuffer`, and return. -/
  | proceed
  | queueBuffer

/-- The buffer after `index` in the FIFO. -/
def succIndex (w : Window) (index : Int) : Int := if w.mNumBuffers ≤ index + 1 then 0 else index + 1

def step (build : Build) (s : State) : Action → Option State
  | .dequeueBuffer =>
    match s.producer with
    | .idle => some {
        window := { s.window with mBufferHead := succIndex s.window s.window.mBufferHead }
        producer := .dequeueing s.window.mBufferHead }
    | _ => none
  | .proceed =>
    match s.producer with
    | .dequeueing index =>
      -- wait for a free non-front buffer
      if s.window.mNumFreeBuffers < build.threshold then none
      else some {
        window := { s.window with mNumFreeBuffers := s.window.mNumFreeBuffers - 1 }
        producer := .holding index }
    | _ => none
  | .queueBuffer =>
    match s.producer with
    | .holding index => some {
        window := { s.window with
          front := some index, mNumFreeBuffers := s.window.mNumFreeBuffers + 1 }
        producer := .idle }
    | _ => none

def start (build : Build) (alloc : Nat → Bool) : State := ⟨newWindow build alloc, .idle⟩

/-- A call of `dequeueBuffer` waits, and nothing that can still happen ends the wait. -/
def WaitsForEver (build : Build) (s : State) : Prop :=
  (∃ index, s.producer = .dequeueing index) ∧
    ∀ s', Reach (step build) s s' → s'.window.mNumFreeBuffers < build.threshold

def AlwaysProgress (build : Build) (alloc : Nat → Bool) : Prop :=
  ∀ s, Reach (step build) (start build alloc) s → ¬ WaitsForEver build s

/-! ## The buffers that are free, and those that are shown -/

/-- The buffers the producer has dequeued. -/
def Producer.held : Producer → Int
  | .holding _ => 1
  | _ => 0

/-- The buffer the producer has, or is going to have. -/
def Producer.index : Producer → Option Int
  | .idle => none
  | .dequeueing index => some index
  | .holding index => some index

/-- Every buffer is free or dequeued. -/
structure Counted (n : Int) (s : State) : Prop where
  num : s.window.mNumBuffers = n
  free : s.window.mNumFreeBuffers + s.producer.held = n

/-- The buffers go round: the head follows the producer's buffer, or the one shown. -/
structure InTurn (s : State) : Prop where
  head : 0 ≤ s.window.mBufferHead ∧ s.window.mBufferHead < s.window.mNumBuffers
  shown : ∀ f, s.window.front = some f → 0 ≤ f ∧ f < s.window.mNumBuffers
  busy : ∀ index, s.producer.index = some index → 0 ≤ index ∧ index < s.window.mNumBuffers ∧
    s.window.mBufferHead = succIndex s.window index ∧ s.window.front ≠ some index
  idle : s.producer.index = none → ∀ f, s.window.front = some f →
    s.window.mBufferHead = succIndex s.window f

variable {build : Build} {alloc : Nat → Bool}

/-- **What a call does**: it begins, it gets its buffer, or it shows one. -/
theorem step_cases {s s' : State} {a : Action} (h : step build s a = some s') :
    (s.producer = .idle ∧ s' =
      ⟨{ s.window with mBufferHead := succIndex s.window s.window.mBufferHead },
        .dequeueing s.window.mBufferHead⟩) ∨
    (∃ index, s.producer = .dequeueing index ∧ build.threshold ≤ s.window.mNumFreeBuffers ∧ s' =
      ⟨{ s.window with mNumFreeBuffers := s.window.mNumFreeBuffers - 1 }, .holding index⟩) ∨
    (∃ index, s.producer = .holding index ∧ s' =
      ⟨{ s.window with front := some index, mNumFreeBuffers := s.window.mNumFreeBuffers + 1 },
        .idle⟩) := by
  cases a with
  | dequeueBuffer =>
    simp only [step] at h
    split at h
    · exact Or.inl ⟨‹_›, (Option.some.inj h).symm⟩
    · exact absurd h (by simp)
  | proceed =>
    simp only [step] at h
    split at h
    · split at h
      · exact absurd h (by simp)
      · exact Or.inr (Or.inl ⟨_, ‹_›, by omega, (Option.some.inj h).symm⟩)
    · exact absurd h (by simp)
  | queueBuffer =>
    simp only [step] at h
    split at h
    · exact Or.inr (Or.inr ⟨_, ‹_›, (Option.some.inj h).symm⟩)
    · exact absurd h (by simp)

theorem counted_step {n : Int} {s s' : State} {a : Action} (hc : Counted n s)
    (h : step build s a = some s') : Counted n s' := by
  have hfree := hc.free
  rcases step_cases h with ⟨hp, rfl⟩ | ⟨index, hp, _, rfl⟩ | ⟨index, hp, rfl⟩
  all_goals
    rw [hp] at hfree
    refine ⟨hc.num, ?_⟩
    simp only [Producer.held] at hfree ⊢
    omega

/-- **Every buffer is free or dequeued**, in every state. -/
theorem counted {s : State} (h : Reach (step build) (start build alloc) s) :
    Counted (allocated build alloc) s :=
  h.inv ⟨rfl, Int.add_zero _⟩ fun _ _ _ hc _ => counted_step hc

theorem succIndex_range {w : Window} {index : Int} (h : 0 ≤ index ∧ index < w.mNumBuffers) :
    0 ≤ succIndex w index ∧ succIndex w index < w.mNumBuffers := by
  unfold succIndex
  split <;> omega

/-- With two buffers or more, the next one is another one. -/
theorem succIndex_ne {w : Window} (hmany : 2 ≤ w.mNumBuffers) (index : Int) :
    succIndex w index ≠ index := by
  unfold succIndex
  split <;> omega

theorem inTurn_step {s s' : State} {a : Action} (hmany : 2 ≤ s.window.mNumBuffers)
    (ht : InTurn s) (h : step build s a = some s') : InTurn s' := by
  rcases step_cases h with ⟨hp, rfl⟩ | ⟨index, hp, _, rfl⟩ | ⟨index, hp, rfl⟩
  · -- the head becomes the producer's buffer
    refine ⟨succIndex_range ht.head, ht.shown, ?_, fun hidle => by cases hidle⟩
    rintro index hindex
    cases hindex
    refine ⟨ht.head.1, ht.head.2, rfl, fun hfront => ?_⟩
    have hnext := ht.idle (by rw [hp]; rfl) _ hfront
    exact succIndex_ne hmany _ hnext.symm
  · refine ⟨ht.head, ht.shown, ?_, fun hidle => by cases hidle⟩
    rintro index' hindex
    exact ht.busy index' (by rw [hp]; exact hindex)
  · -- the producer's buffer is shown
    have hbusy := ht.busy index (by rw [hp]; rfl)
    refine ⟨ht.head, ?_, fun index' hindex => (by cases hindex), ?_⟩
    · rintro f hf
      cases hf
      exact ⟨hbusy.1, hbusy.2.1⟩
    · rintro _ f hf
      cases hf
      exact hbusy.2.2.1

/-- **The assertion of `dequeueBuffer`**: with two buffers or more, the buffer it takes exists and is
    not the one shown. -/
theorem dequeued_not_front {s : State} (hmany : 2 ≤ allocated build alloc)
    (h : Reach (step build) (start build alloc) s) {index : Int}
    (hindex : s.producer.index = some index) :
    0 ≤ index ∧ index < s.window.mNumBuffers ∧ s.window.front ≠ some index := by
  have hturn : InTurn s := by
    refine h.inv_staged ⟨?_, ?_, ?_, ?_⟩ fun s a s' hpre ht _ hs => ?_
    · show 0 ≤ (allocated build alloc : Int) - 1 ∧ (allocated build alloc : Int) - 1 < allocated build alloc
      omega
    · rintro f hf
      cases hf
    · rintro index hidle
      cases hidle
    · rintro _ f hf
      cases hf
    · have hnum := (counted hpre).num
      exact inTurn_step (by omega) ht hs
  obtain ⟨hge, hlt, _, hfront⟩ := hturn.busy index hindex
  exact ⟨hge, hlt, hfront⟩

/-! ## When a producer can always go on -/

/-- With as many buffers as are waited for, no call waits at all. -/
theorem progress_of_enough (h : build.threshold ≤ allocated build alloc) :
    AlwaysProgress build alloc := by
  rintro s hs ⟨⟨index, hp⟩, hwait⟩
  have hfree := (counted hs).free
  have hfew := hwait s Run.start
  rw [hp] at hfree
  simp only [Producer.held] at hfree
  omega

/-- A call that waits for too much: nothing moves any more. -/
theorem stuck {s s' : State} {index : Int} (hp : s.producer = .dequeueing index)
    (hfew : s.window.mNumFreeBuffers < build.threshold) (h : Reach (step build) s s') : s' = s := by
  induction h with
  | start => rfl
  | next a _ _ hstep ih =>
    subst ih
    rcases step_cases hstep with ⟨hidle, _⟩ | ⟨_, _, henough, _⟩ | ⟨_, hhold, _⟩
    · rw [hp] at hidle
      cases hidle
    · omega
    · rw [hp] at hhold
      cases hhold

/-- With fewer, the first call waits for ever. -/
theorem first_waits (h : allocated build alloc < build.threshold) : ¬ AlwaysProgress build alloc := by
  intro hall
  have hfirst : step build (start build alloc) .dequeueBuffer = some
      ⟨{ newWindow build alloc with
          mBufferHead := succIndex (newWindow build alloc) (newWindow build alloc).mBufferHead },
        .dequeueing (newWindow build alloc).mBufferHead⟩ := rfl
  have hfew : (newWindow build alloc).mNumFreeBuffers < build.threshold := by
    show (allocated build alloc : Int) < build.threshold
    omega
  refine hall _ (Run.next .dequeueBuffer Run.start trivial hfirst) ⟨⟨_, rfl⟩, fun s' hs' => ?_⟩
  rw [stuck rfl hfew hs']
  exact hfew

theorem progress_iff : AlwaysProgress build alloc ↔ build.threshold ≤ allocated build alloc := by
  constructor
  · intro hall
    by_contra hfew
    exact first_waits (by omega) hall
  · exact progress_of_enough

/-! ## The allocations -/

theorem le_allocate (alloc : Nat → Bool) (todo : Nat) : ∀ i, i ≤ allocate alloc i todo := by
  induction todo with
  | zero => intro i; exact Nat.le_refl _
  | succ todo ih =>
    intro i
    rw [allocate]
    have hrest := ih (i + 1)
    split <;> omega

/-- `m` buffers are there when the first `m` allocations succeed. -/
theorem le_allocate_iff {m : Nat} (todo : Nat) : ∀ i, i ≤ m → m ≤ i + todo →
    (m ≤ allocate alloc i todo ↔ ∀ k, i ≤ k → k < m → alloc k = true) := by
  induction todo with
  | zero =>
    intro i hi hm
    exact ⟨fun _ k hik hkm => by omega, fun _ => by rw [allocate]; omega⟩
  | succ todo ih =>
    intro i hi hm
    rw [allocate]
    by_cases hmi : m = i
    · refine ⟨fun _ k hik hkm => by omega, fun _ => ?_⟩
      have hrest := le_allocate alloc todo (i + 1)
      split <;> omega
    · by_cases halloc : alloc i = true
      · rw [if_pos halloc, ih (i + 1) (by omega) (by omega)]
        constructor
        · intro h k hik hkm
          by_cases hki : k = i
          · rw [hki]
            exact halloc
          · exact h k (by omega) hkm
        · intro h k hik hkm
          exact h k (by omega) hkm
      · rw [if_neg halloc]
        refine ⟨fun hle => by omega, fun h => ?_⟩
        exact absurd (h i (Nat.le_refl _) (by omega)) halloc

theorem le_allocated_iff {m : Nat} (h : m ≤ build.numBuffers) :
    m ≤ allocated build alloc ↔ ∀ k < m, alloc k = true := by
  rw [allocated, le_allocate_iff _ 0 (Nat.zero_le _) (by omega)]
  exact ⟨fun hall k => hall k (Nat.zero_le _), fun hall k _ => hall k⟩

/-- **A producer can always go on exactly when** all three buffers could be allocated. -/
theorem framebuffer_progress_iff (alloc : Nat → Bool) :
    AlwaysProgress steBuild alloc ↔ ∀ k < NUM_FRAME_BUFFERS, alloc k = true := by
  rw [progress_iff]
  exact le_allocated_iff (Nat.le_refl _)

/-- Two of three buffers: the first `dequeueBuffer` waits for ever. -/
theorem two_buffers_stuck :
    2 ≤ allocated steBuild (fun i => decide (i < 2)) ∧
      ¬ AlwaysProgress steBuild fun i => decide (i < 2) :=
  ⟨by decide, first_waits (by decide)⟩

/-- Without the define two buffers are enough. -/
theorem aosp_progress_iff (numFramebuffers : Nat) (alloc : Nat → Bool) :
    AlwaysProgress (aospBuild numFramebuffers) alloc ↔ ∀ k < 2, alloc k = true := by
  rw [progress_iff]
  refine le_allocated_iff ?_
  show 2 ≤ if MIN_NUM_FRAME_BUFFERS ≤ numFramebuffers ∧ numFramebuffers ≤ MAX_NUM_FRAME_BUFFERS then
    numFramebuffers else MIN_NUM_FRAME_BUFFERS
  split
  · exact (‹_ ∧ _›).1
  · exact Nat.le_refl _

end Codina.Gui.Framebuffer
