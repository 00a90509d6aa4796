/-
  `MPEG4Writer::Track::stop` with the patch for SurfaceMediaSource: can stopping a recording hang?

  The track's thread reads frames from the source until `mDone` is set or a read fails.  `stop` sets
  `mDone`, waits for the thread, and stops the source.  AOSP stops the source first, which makes a
  blocked read fail; the patch swaps the two, so that a thread that waits for a frame when `mDone` is set
  needs one more frame to find out.

  A producer that has delivered its last frame never sends that one.  So for every sequence of frames
  there is a run that hangs, and what a run that does not hang has to see to is that the thread is not in
  a read without a frame when `mDone` is set (`stop_stuck_iff`).  In AOSP's order no run hangs
  (`aosp_never_stuck`).

  The source and the thread's loop are AOSP's: a read blocks while there is no frame, and fails once the
  source has been stopped.
-/
import Codina.Lib.Runs
import Mathlib.Tactic.Common

namespace Codina.Media.TrackStop

open Codina.Runs

variable {Frame : Type}

/-! ## The track, its thread and its source -/

abbrev status_t := Int

def OK : status_t := 0

def ERROR_END_OF_STREAM : status_t := -1011

structure Source (Frame : Type) where
  /-- The frames the producer is still going to deliver. -/
  toCome : List Frame
  queue : List Frame := []
  stopped : Bool := false

/-- Where the thread is. -/
inductive Thread (Frame : Type) where
  /-- At the head of its loop, where it looks at `mDone`. -/
  | test
  /-- In `mSource->read`, or about to enter it. -/
  | reading
  | writing (frame : Frame)
  | ended (err : status_t)

/-- What `stop` waits for or does once `mDone` is set. -/
inductive StopStep where
  | joinThread
  | stopSource

inductive StopCall where
  | notCalled
  /-- `mDone` is set, and these steps are left. -/
  | running (todo : List StopStep) (err : status_t)
  | returned (err : status_t)

structure State (Frame : Type) where
  source : Source Frame
  mStarted : Bool := true
  mDone : Bool := false
  thread : Thread Frame := .test
  /-- The samples written. -/
  written : List Frame := []
  stop : StopCall := .notCalled

/-- The patched `stop`. -/
def patchedOrder : List StopStep := [.joinThread, .stopSource]

/-- The lines the patch removes, and the join behind them. -/
def aospOrder : List StopStep := [.stopSource, .joinThread]

inductive Action where
  | callStop
  /-- The next step of `stop`; `status` is what `mSource->stop()` answers. -/
  | stopNext (status : status_t)
  | thread
  /-- The producer delivers a frame. -/
  | produce

/-- What the thread returns when its last read answered `err`. -/
def threadResult (err : status_t) : status_t := if err = ERROR_END_OF_STREAM then OK else err

/-- The status of `stop` after the source's. -/
def afterSource (err status : status_t) : status_t :=
  if err = OK ∧ status ≠ OK ∧ status ≠ ERROR_END_OF_STREAM then status else err

def step (order : List StopStep) (s : State Frame) : Action → Option (State Frame)
  | .callStop =>
    match s.stop with
    | .notCalled => some <|
      if s.mStarted = false then { s with stop := .returned ERROR_END_OF_STREAM }
      else if s.mDone = true then { s with stop := .returned OK }
      else { s with mDone := true, stop := .running order OK }
    | _ => none
  | .stopNext status =>
    match s.stop with
    | .running (.joinThread :: todo) _ =>
      match s.thread with
      | .ended result => some { s with stop := .running todo result }
      | _ => none
    | .running (.stopSource :: todo) err => some { s with
        source := { s.source with stopped := true }
        stop := .running todo (afterSource err status) }
    | .running [] err => some { s with stop := .returned err }
    | _ => none
  | .thread =>
    match s.thread with
    | .test => some { s with thread := if s.mDone then .ended (threadResult OK) else .reading }
    | .reading =>
      if s.source.stopped then
        some { s with thread := .ended (threadResult ERROR_END_OF_STREAM) }
      else
        match s.source.queue with
        | [] => none
        | frame :: queue => some { s with
            source := { s.source with queue := queue }, thread := .writing frame }
    | .writing frame => some { s with written := s.written ++ [frame], thread := .test }
    | .ended _ => none
  | .produce =>
    match s.source.toCome with
    | [] => none
    | frame :: toCome =>
      if s.source.stopped then none
      else some { s with
        source := { s.source with toCome := toCome, queue := s.source.queue ++ [frame] } }

/-- A track that records, with these frames to come. -/
def recording (frames : List Frame) : State Frame := { source := { toCome := frames } }

/-- `stop` has not returned, and nothing can move. -/
def Stuck (order : List StopStep) (s : State Frame) : Prop :=
  (∀ err, s.stop ≠ .returned err) ∧ ∀ a, step order s a = none

/-- The frames a read can still get. -/
def State.left (s : State Frame) : List Frame := s.source.queue ++ s.source.toCome

/-- When `mDone` is set, the thread is not in a read that gets no frame any more. -/
def InTime (s : State Frame) : Action → Prop
  | .callStop => s.thread = .reading → s.left ≠ []
  | _ => True

/-! ## Every step -/

/-- What a step can do. -/
inductive Effect (order : List StopStep) (s : State Frame) : Action → State Frame → Prop
  | notStarted : s.stop = .notCalled → s.mStarted = false →
      Effect order s .callStop { s with stop := .returned ERROR_END_OF_STREAM }
  | already : s.stop = .notCalled → s.mDone = true →
      Effect order s .callStop { s with stop := .returned OK }
  | called : s.stop = .notCalled → s.mStarted = true → s.mDone = false →
      Effect order s .callStop { s with mDone := true, stop := .running order OK }
  | joined (status : status_t) {todo : List StopStep} {err result : status_t} :
      s.stop = .running (.joinThread :: todo) err → s.thread = .ended result →
      Effect order s (.stopNext status) { s with stop := .running todo result }
  | sourceStopped (status : status_t) {todo : List StopStep} {err : status_t} :
      s.stop = .running (.stopSource :: todo) err →
      Effect order s (.stopNext status) { s with
        source := { s.source with stopped := true }
        stop := .running todo (afterSource err status) }
  | returned (status : status_t) {err : status_t} : s.stop = .running [] err →
      Effect order s (.stopNext status) { s with stop := .returned err }
  | leaves : s.thread = .test → s.mDone = true →
      Effect order s .thread { s with thread := .ended (threadResult OK) }
  | enters : s.thread = .test → s.mDone = false →
      Effect order s .thread { s with thread := .reading }
  | readFails : s.thread = .reading → s.source.stopped = true →
      Effect order s .thread { s with thread := .ended (threadResult ERROR_END_OF_STREAM) }
  | reads {frame : Frame} {queue : List Frame} : s.thread = .reading →
      s.source.queue = frame :: queue → Effect order s .thread { s with
        source := { s.source with queue := queue }, thread := .writing frame }
  | writes {frame : Frame} : s.thread = .writing frame →
      Effect order s .thread { s with written := s.written ++ [frame], thread := .test }
  | produced {frame : Frame} {toCome : List Frame} : s.source.toCome = frame :: toCome →
      Effect order s .produce { s with
        source := { s.source with toCome := toCome, queue := s.source.queue ++ [frame] } }

variable {order : List StopStep} {s s' : State Frame} {a : Action}

theorem step_effect (h : step order s a = some s') : Effect order s a s' := by
  cases a with
  | callStop =>
    simp only [step] at h
    split at h
    · rename_i hstop
      cases h
      by_cases hst : s.mStarted = false
      · rw [if_pos hst]
        exact .notStarted hstop hst
      rw [if_neg hst]
      by_cases hd : s.mDone = true
      · rw [if_pos hd]
        exact .already hstop hd
      · rw [if_neg hd]
        exact .called hstop (by simpa using hst) (by simpa using hd)
    · exact absurd h (by simp)
  | stopNext status =>
    simp only [step] at h
    split at h
    · rename_i hstop
      split at h
      · cases h
        exact .joined status hstop ‹_›
      · exact absurd h (by simp)
    · cases h
      exact .sourceStopped status ‹_›
    · cases h
      exact .returned status ‹_›
    · exact absurd h (by simp)
  | thread =>
    simp only [step] at h
    split at h
    · rename_i hth
      cases h
      by_cases hd : s.mDone = true
      · rw [if_pos hd]
        exact .leaves hth hd
      · rw [if_neg hd]
        exact .enters hth (by simpa using hd)
    · rename_i hth
      split at h
      · cases h
        exact .readFails hth ‹_›
      · split at h
        · exact absurd h (by simp)
        · cases h
          exact .reads hth ‹_›
    · cases h
      exact .writes ‹_›
    · exact absurd h (by simp)
  | produce =>
    simp only [step] at h
    split at h
    · exact absurd h (by simp)
    · split at h
      · exact absurd h (by simp)
      · cases h
        exact .produced ‹_›

/-! ## Runs that do not hang -/

/-- Before `stop` is called the track records; a thread that `stop` waits for is not in a read that gets
    nothing any more. -/
structure Awake (s : State Frame) : Prop where
  started : s.mStarted = true
  recording : s.stop = .notCalled → s.mDone = false ∧ s.source.stopped = false
  done : s.stop ≠ .notCalled → s.mDone = true
  supplied : ∀ todo err, s.stop = .running (.joinThread :: todo) err → s.thread = .reading →
    s.source.stopped = true ∨ s.left ≠ []

theorem awake_recording (frames : List Frame) : Awake (recording frames) where
  started := rfl
  recording := fun _ => ⟨rfl, rfl⟩
  done := fun h => absurd rfl h
  supplied := by
    rintro todo err hstop
    cases hstop

theorem awake_step (h : Awake s) (hok : order.head? = some .joinThread → InTime s a)
    (hs : step order s a = some s') : Awake s' := by
  cases step_effect hs with
  | notStarted _ hst => exact absurd (h.started.symm.trans hst) (by decide)
  | already hstop hd => exact absurd ((h.recording hstop).1.symm.trans hd) (by decide)
  | called hstop _ _ =>
    refine ⟨h.started, fun hn => (by cases hn), fun _ => rfl, ?_⟩
    rintro todo err hrun hth
    cases hrun
    exact Or.inr (hok rfl hth)
  | joined _ _ hth =>
    refine ⟨h.started, fun hn => (by cases hn), fun _ => h.done (by simp [*]), ?_⟩
    rintro _ _ _ hreading
    rw [hth] at hreading
    cases hreading
  | sourceStopped _ hstop =>
    exact ⟨h.started, fun hn => (by cases hn), fun _ => h.done (by simp [hstop]),
      fun _ _ _ _ => Or.inl rfl⟩
  | returned _ hstop =>
    refine ⟨h.started, fun hn => (by cases hn), fun _ => h.done (by simp [hstop]), ?_⟩
    rintro _ _ hrun
    cases hrun
  | leaves | readFails | reads | writes =>
    refine ⟨h.started, h.recording, h.done, ?_⟩
    rintro _ _ _ hreading
    cases hreading
  | enters _ hd =>
    refine ⟨h.started, h.recording, h.done, ?_⟩
    -- a thread that enters a read has seen that `stop` is not called
    rintro _ _ hrun
    have hdone := h.done fun hn => by cases hn.symm.trans hrun
    exact absurd (hd.symm.trans hdone) (by decide)
  | produced htoCome =>
    refine ⟨h.started, h.recording, h.done, ?_⟩
    rintro _ _ _ _
    exact Or.inr (by simp [State.left])

/-- **An awake track is not stuck.** -/
theorem Awake.not_stuck (h : Awake s) : ¬ Stuck order s := by
  intro hstuck
  obtain ⟨hret, hnone⟩ := id hstuck
  cases hstop : s.stop with
  | notCalled =>
    have := hnone .callStop
    simp [step, hstop] at this
  | returned err => exact hret err hstop
  | running todo err =>
    have hnext := hnone (.stopNext OK)
    match todo, hstop with
    | [], hstop => simp [step, hstop] at hnext
    | .stopSource :: _, hstop => simp [step, hstop] at hnext
    | .joinThread :: todo, hstop =>
      have hmove := hnone .thread
      cases hth : s.thread with
      | test => simp [step, hth] at hmove
      | writing frame => simp [step, hth] at hmove
      | ended result => simp [step, hstop, hth] at hnext
      | reading =>
        -- the read fails, or gets a frame, or the producer delivers one
        have hproduce := hnone .produce
        by_cases hs : s.source.stopped = true
        · simp [step, hth, hs] at hmove
        · have hleft := (h.supplied todo err hstop hth).resolve_left hs
          cases hq : s.source.queue with
          | cons frame queue => simp [step, hth, hs, hq] at hmove
          | nil =>
            cases hc : s.source.toCome with
            | cons frame toCome => simp [step, hs, hc] at hproduce
            | nil => exact hleft (by simp [State.left, hq, hc])

/-- In the order of AOSP nothing hangs. -/
theorem aosp_never_stuck (frames : List Frame) {s : State Frame}
    (h : Reach (step aospOrder) (recording frames) s) : ¬ Stuck aospOrder s := by
  have hawake : Awake s := h.inv (awake_recording frames) fun _ _ _ hi _ hs =>
    awake_step hi (fun hjoin => by cases hjoin) hs
  exact hawake.not_stuck

/-! ## Runs that hang -/

/-- A call of `stop` that is not in time: nothing moves any more. -/
theorem stuck_of_late (h : Awake s) (hlate : ¬ InTime s a) (hs : step patchedOrder s a = some s') :
    Stuck patchedOrder s' := by
  cases a with
  | stopNext status => exact absurd trivial hlate
  | thread => exact absurd trivial hlate
  | produce => exact absurd trivial hlate
  | callStop =>
    simp only [InTime, Classical.not_imp, not_not, State.left, List.append_eq_nil_iff] at hlate
    obtain ⟨hth, hqueue, htoCome⟩ := hlate
    cases step_effect hs with
    | notStarted _ hst => exact absurd (h.started.symm.trans hst) (by decide)
    | already hstop hd => exact absurd ((h.recording hstop).1.symm.trans hd) (by decide)
    | called hstop _ _ =>
      have hsource := (h.recording hstop).2
      refine ⟨fun err hret => (by cases hret), fun a => ?_⟩
      cases a with
      | callStop => rfl
      | stopNext status => simp [step, patchedOrder, hth]
      | thread => simp [step, hth, hsource, hqueue]
      | produce => simp [step, htoCome]

/-- The thread, waiting for a frame behind these. -/
def waiting (written : List Frame) : State Frame :=
  { recording [] with thread := .reading, written := written }

theorem awake_waiting (written : List Frame) : Awake (waiting written) where
  started := rfl
  recording := fun _ => ⟨rfl, rfl⟩
  done := fun h => absurd rfl h
  supplied := by
    rintro todo err hstop
    cases hstop

/-- The thread reads and writes whatever comes, and then waits. -/
theorem reads_all (frames : List Frame) : ∀ written : List Frame,
    Reach (step order) { recording frames with written := written } (waiting (written ++ frames)) := by
  induction frames with
  | nil =>
    intro written
    rw [List.append_nil]
    exact Run.next .thread Run.start trivial rfl
  | cons frame frames ih =>
    intro written
    have hfirst : Reach (step order) { recording (frame :: frames) with written := written }
        { recording frames with written := written ++ [frame] } :=
      reach_of_exec _ _ [.produce, .thread, .thread, .thread] rfl
    have hrest := ih (written ++ [frame])
    rw [List.append_assoc] at hrest
    exact hfirst.trans hrest

/-- **Whatever frames come, stopping can hang.** -/
theorem can_hang (frames : List Frame) :
    ∃ s, Reach (step patchedOrder) (recording frames) s ∧ Stuck patchedOrder s := by
  have hcall : step patchedOrder (waiting frames) .callStop =
      some { waiting frames with mDone := true, stop := .running patchedOrder OK } := rfl
  have hlate : ¬ InTime (waiting frames) .callStop := fun h => h rfl rfl
  exact ⟨_, Run.next .callStop (reads_all frames []) trivial hcall,
    stuck_of_late (awake_waiting frames) hlate hcall⟩

/-- **When stopping hangs.**  Some run hangs for every sequence of frames; a run hangs only by setting
    `mDone` while the thread is in a read that gets no frame any more, and then it does. -/
theorem stop_stuck_iff (frames : List Frame) :
    (∃ s, Reach (step patchedOrder) (recording frames) s ∧ Stuck patchedOrder s) ∧
    ∀ s, Run (step patchedOrder) InTime (recording frames) s → ¬ Stuck patchedOrder s ∧
      ∀ a s', step patchedOrder s a = some s' → (¬ Stuck patchedOrder s' ↔ InTime s a) := by
  refine ⟨can_hang frames, fun s hrun => ?_⟩
  have hawake : Awake s := hrun.inv (awake_recording frames) fun _ _ _ hi hok hs =>
    awake_step hi (fun _ => hok) hs
  refine ⟨hawake.not_stuck, fun a s' hs => ⟨fun hnot => ?_, fun hok => ?_⟩⟩
  · by_contra hlate
    exact hnot (stuck_of_late hawake hlate hs)
  · exact (awake_step hawake (fun _ => hok) hs).not_stuck

/-- Two frames, and `stop` is called while the thread waits for the second, which then comes: the thread
    writes it and ends, and `stop` returns. -/
theorem stop_stuck_iff_second :
    ∃ s, Run (step patchedOrder) InTime (recording [1, 2]) s ∧ s.written = [1, 2] ∧
      s.stop = .returned OK ∧ ¬ Stuck patchedOrder s := by
  have hrun := run_of_exec (step patchedOrder) InTime (recording [1, 2])
    [.produce, .thread, .thread, .thread, .thread, .callStop, .produce, .thread, .thread, .thread,
      .stopNext OK, .stopNext OK, .stopNext OK]
    ⟨trivial, trivial, trivial, trivial, trivial, fun _ => List.cons_ne_nil _ _, trivial, trivial, trivial,
      trivial, trivial, trivial, trivial, trivial⟩ rfl
  exact ⟨_, hrun, rfl, rfl, ((stop_stuck_iff [1, 2]).2 _ hrun).1⟩

/-- One frame, and `stop` is called while the thread waits for the second. -/
theorem one_frame_hangs :
    ∃ s, Reach (step patchedOrder) (recording [()]) s ∧ s.written = [()] ∧ Stuck patchedOrder s := by
  have hrun : Reach (step patchedOrder) (recording [()])
      { waiting [()] with mDone := true, stop := .running patchedOrder OK } :=
    reach_of_exec _ _ [.produce, .thread, .thread, .thread, .thread, .callStop] rfl
  refine ⟨_, hrun, rfl, fun err hret => (by cases hret), fun a => ?_⟩
  cases a <;> rfl

/-! ## No frame is lost -/

/-- The frame that the thread is writing. -/
def Thread.inHand : Thread Frame → List Frame
  | .writing frame => [frame]
  | _ => []

/-- What is written, in hand and left are the frames. -/
def InOrder (frames : List Frame) (s : State Frame) : Prop :=
  s.written ++ s.thread.inHand ++ s.left = frames

theorem inOrder_step {frames : List Frame} (hi : InOrder frames s) (hs : step order s a = some s') :
    InOrder frames s' := by
  unfold InOrder at hi
  cases step_effect hs with
  | notStarted | already | called | joined | sourceStopped | returned => exact hi
  | leaves hth _ | enters hth _ | readFails hth _ =>
    rw [hth] at hi
    exact hi
  | reads hth hqueue =>
    rw [hth, State.left, hqueue] at hi
    rw [← hi]
    simp [InOrder, Thread.inHand, State.left]
  | writes hth =>
    rw [hth] at hi
    rw [← hi]
    simp [InOrder, Thread.inHand, State.left]
  | produced htoCome =>
    rw [State.left, htoCome] at hi
    rw [← hi]
    simp [InOrder, State.left]

/-- **Every frame is written, in order, or still on its way.** -/
theorem frames_in_order (frames : List Frame) {s : State Frame}
    (h : Reach (step order) (recording frames) s) : InOrder frames s :=
  h.inv rfl fun _ _ _ hi _ => inOrder_step hi

end Codina.Media.TrackStop
