/-
  `StagefrightRecorder` with the patch for SurfaceMediaSource: the surface it hands out.

  The patch moves the creation of the source from `prepare` to `start`, and every `start` makes a new
  one.  `prepare` does nothing any more and says OK; a client that asks for the surface then, as the
  test of the patched tree does, makes the recorder follow a null pointer.  After `stop` the recorder
  still hands out the surface of the recording that is over, and the next one reads from another.

  So the surface is the right one exactly while a recording from it is under way: the last `start` that
  got past its first tests made a source, its encoder and the writer, and no `stop` has come since
  (`handed_out_iff`).  It makes no difference whether `prepare` has been called.  `mStarted` alone does
  not tell: a second `start` that fails behind its first tests ends the recording and leaves it set.

  What the code around the patch does in a `start` is an answer: the statuses of the tests before the
  sources are set up, of the encoder and of the writer.
-/
import Codina.Lib.Runs
import Mathlib.Data.List.Induction
import Mathlib.Tactic.Common

namespace Codina.Media.Recorder

open Codina.Runs

/-! ## The recorder -/

abbrev status_t := Int

def OK : status_t := 0

def NO_INIT : status_t := -19

def INVALID_OPERATION : status_t := -38

def UNKNOWN_ERROR : status_t := -2147483648

/-- The video sources of the calls considered: none set yet, and the one for surfaces. -/
inductive VideoSource where
  | VIDEO_SOURCE_GRALLOC_BUFFER
  | VIDEO_SOURCE_LIST_END
deriving DecidableEq

/-- A source; each has a number of its own. -/
structure SurfaceMediaSource where
  id : Nat
  width : Int
  height : Int

/-- The producer's end of a source's buffer queue. -/
structure GraphicBufferProducer where
  source : Nat

def SurfaceMediaSource.getProducer (src : SurfaceMediaSource) : GraphicBufferProducer := ⟨src.id⟩

structure State where
  mVideoSource : VideoSource := .VIDEO_SOURCE_LIST_END
  mVideoWidth : Int := 176
  mVideoHeight : Int := 144
  mFrameRate : Int := -1
  mSurfaceMediaSource : Option SurfaceMediaSource := none
  /-- What the last encoder made reads from. -/
  mVideoSourceNode : Option SurfaceMediaSource := none
  /-- `mWriter` is not null. -/
  mWriter : Bool := false
  mStarted : Bool := false
  /-- The sources made so far. -/
  made : Nat := 0

/-- What one `start` meets. -/
structure Answers where
  /-- The tests before the sources are set up: the output file, and a format with video. -/
  ready : status_t := OK
  /-- The new source is not null. -/
  allocated : Bool := true
  /-- The frame rate in the source's format. -/
  formatFrameRate : Option Int := some 30
  setFrameRate : status_t := OK
  /-- The video encoder asked for is a known one. -/
  videoEncoder : status_t := OK
  connect : status_t := OK
  /-- `OMXCodec::Create` gives an encoder. -/
  encoder : Bool := true
  /-- What is set up behind the video. -/
  audio : status_t := OK
  writerStart : status_t := OK

/-- `none` is a CHECK that fails, which ends the process. -/
def setupSurfaceMediaSource (a : Answers) (s : State) : Option (status_t × State) :=
  let src := if a.allocated then some ⟨s.made, s.mVideoWidth, s.mVideoHeight⟩ else none
  let s := { s with mSurfaceMediaSource := src, made := s.made + 1 }
  if src.isNone then some (NO_INIT, s)
  else if s.mFrameRate = -1 then
    match a.formatFrameRate with
    | none => none
    | some frameRate => if frameRate = -1 then none else some (OK, { s with mFrameRate := frameRate })
  else some (a.setFrameRate, s)

def setupMediaSource (a : Answers) (s : State) : Option (status_t × State) :=
  match s.mVideoSource with
  | .VIDEO_SOURCE_GRALLOC_BUFFER => setupSurfaceMediaSource a s
  | .VIDEO_SOURCE_LIST_END => some (INVALID_OPERATION, s)

def setupVideoEncoder (a : Answers) (mediaSource : Option SurfaceMediaSource) (s : State) :
    Option (status_t × State) :=
  if a.videoEncoder ≠ OK then some (a.videoEncoder, s)
  else if a.connect ≠ OK then none
  else if a.encoder = false then some (UNKNOWN_ERROR, s)
  else some (OK, { s with mVideoSourceNode := mediaSource })

/-- The source and its encoder, if there is a video source. -/
def setupVideo (a : Answers) (s : State) : Option (status_t × State) :=
  if s.mVideoSource = .VIDEO_SOURCE_LIST_END then some (OK, s)
  else (setupMediaSource a s).bind fun (err, s) =>
    if err ≠ OK then some (err, s) else setupVideoEncoder a s.mSurfaceMediaSource s

def setupMPEG4orWEBMRecording (a : Answers) (s : State) : Option (status_t × State) :=
  (setupVideo a { s with mWriter := false }).map fun (err, s) =>
    if err ≠ OK then (err, s)
    else if a.audio ≠ OK then (a.audio, s)
    else (OK, { s with mWriter := true })

def prepareInternal (a : Answers) (s : State) : Option (status_t × State) :=
  if a.ready ≠ OK then some (a.ready, s) else setupMPEG4orWEBMRecording a s

def prepare (s : State) : status_t × State := (OK, s)

def start (a : Answers) (s : State) : Option (status_t × State) :=
  (prepareInternal a s).map fun (status, s) =>
    if status ≠ OK then (status, s)
    else if s.mWriter = false then (UNKNOWN_ERROR, s)
    else if a.writerStart ≠ OK then (a.writerStart, { s with mWriter := false })
    else (OK, { s with mStarted := true })

def stop (s : State) : State := { s with mWriter := false, mStarted := false }

/-- `none` is a null pointer followed. -/
def querySurfaceMediaSource (s : State) : Option GraphicBufferProducer :=
  s.mSurfaceMediaSource.map SurfaceMediaSource.getProducer

inductive Call where
  /-- `setVideoSource(VIDEO_SOURCE_GRALLOC_BUFFER)`. -/
  | setVideoSource
  | prepare
  | start (a : Answers)
  | stop
  | querySurfaceMediaSource

def step (s : State) : Call → Option State
  | .setVideoSource => some { s with mVideoSource := .VIDEO_SOURCE_GRALLOC_BUFFER }
  | .prepare => some (prepare s).2
  | .start a => (start a s).map Prod.snd
  | .stop => some (stop s)
  | .querySurfaceMediaSource => (querySurfaceMediaSource s).map fun _ => s

/-! ## The surface it should hand out -/

/-- A `start` gets as far as making a source. -/
def Answers.MakesSource (a : Answers) (s : State) : Prop :=
  a.ready = OK ∧ s.mVideoSource = .VIDEO_SOURCE_GRALLOC_BUFFER

instance (a : Answers) (s : State) : Decidable (a.MakesSource s) :=
  inferInstanceAs (Decidable (_ ∧ _))

/-- A `start` makes a source and the encoder that reads from it. -/
def Answers.Encodes (a : Answers) (s : State) : Prop :=
  a.MakesSource s ∧ a.allocated = true ∧ (s.mFrameRate = -1 ∨ a.setFrameRate = OK) ∧
    a.videoEncoder = OK ∧ a.encoder = true

instance (a : Answers) (s : State) : Decidable (a.Encodes s) := inferInstanceAs (Decidable (_ ∧ _))

/-- A `start` records: the encoder, what is set up behind it and the writer work too. -/
def Answers.Records (a : Answers) (s : State) : Prop :=
  a.Encodes s ∧ a.audio = OK ∧ a.writerStart = OK

instance (a : Answers) (s : State) : Decidable (a.Records s) := inferInstanceAs (Decidable (_ ∧ _))

def NoStart (_ : State) : Call → Prop
  | .start _ => False
  | _ => True

/-- A recording is under way: it has been started, and there is a writer. -/
def Recording (s : State) : Prop := s.mStarted = true ∧ s.mWriter = true

instance (s : State) : Decidable (Recording s) := inferInstanceAs (Decidable (_ ∧ _))

/-- The encoder of the recording under way, or else of the next one, reads from this source. -/
def ReadsFrom (s : State) (id : Nat) : Prop :=
  if Recording s then ∃ node, s.mVideoSourceNode = some node ∧ node.id = id
  else ∀ s₀ a s₁, Run step NoStart s s₀ → a.Encodes s₀ → step s₀ (.start a) = some s₁ →
    ∃ node, s₁.mVideoSourceNode = some node ∧ node.id = id

/-- `querySurfaceMediaSource` returns, and the producer is that of the source that is read from. -/
def HandsOut (s : State) : Prop :=
  ∃ producer, querySurfaceMediaSource s = some producer ∧ ReadsFrom s producer.source

/-- The last of these calls that was a `start` past its first tests recorded from a surface, and no
    `stop` has come since. -/
def RecordsSurface (calls : List Call) : Prop :=
  ∃ pre a post s₀, calls = pre ++ .start a :: post ∧ exec step {} pre = some s₀ ∧ a.Records s₀ ∧
    ∀ c ∈ post, c ≠ .stop ∧ ∀ b, c = .start b → b.ready ≠ OK

/-! ## What a `start` does to the sources -/

/-- No source and no encoder is made. -/
structure Untouched (s s' : State) : Prop where
  video : s'.mVideoSource = s.mVideoSource
  source : s'.mSurfaceMediaSource = s.mSurfaceMediaSource
  node : s'.mVideoSourceNode = s.mVideoSourceNode
  made : s'.made = s.made

/-- A source is made, and perhaps its encoder. -/
structure Made (a : Answers) (s s' : State) : Prop where
  video : s'.mVideoSource = s.mVideoSource
  source : s'.mSurfaceMediaSource =
    if a.allocated then some ⟨s.made, s.mVideoWidth, s.mVideoHeight⟩ else none
  node : s'.mVideoSourceNode =
    if a.Encodes s then s'.mSurfaceMediaSource else s.mVideoSourceNode
  made : s'.made = s.made + 1

variable {a : Answers} {s s' : State} {err : status_t}

theorem setupSurfaceMediaSource_spec (h : setupSurfaceMediaSource a s = some (err, s')) :
    (s'.mVideoSource = s.mVideoSource ∧ s'.mSurfaceMediaSource =
        (if a.allocated then some ⟨s.made, s.mVideoWidth, s.mVideoHeight⟩ else none) ∧
      s'.mVideoSourceNode = s.mVideoSourceNode ∧ s'.made = s.made + 1 ∧ s'.mWriter = s.mWriter) ∧
    (err = OK ↔ a.allocated = true ∧ (s.mFrameRate = -1 ∨ a.setFrameRate = OK)) := by
  unfold setupSurfaceMediaSource at h
  cases halloc : a.allocated with
  | false =>
    simp only [halloc, Bool.false_eq_true, if_false, Option.isNone_none, if_true] at h
    cases h
    exact ⟨⟨rfl, rfl, rfl, rfl, rfl⟩, by simp [NO_INIT, OK]⟩
  | true =>
    simp only [halloc, if_true, Option.isNone_some, Bool.false_eq_true, if_false] at h
    by_cases hrate : s.mFrameRate = -1
    · rw [if_pos hrate] at h
      split at h
      · exact absurd h (by simp)
      · split at h
        · exact absurd h (by simp)
        · cases h
          exact ⟨⟨rfl, rfl, rfl, rfl, rfl⟩, by simp [hrate]⟩
    · rw [if_neg hrate] at h
      cases h
      exact ⟨⟨rfl, rfl, rfl, rfl, rfl⟩, by simp [hrate]⟩

theorem setupVideoEncoder_spec {src : Option SurfaceMediaSource}
    (h : setupVideoEncoder a src s = some (err, s')) :
    s' = (if a.videoEncoder = OK ∧ a.encoder = true then { s with mVideoSourceNode := src } else s) ∧
      (err = OK ↔ a.videoEncoder = OK ∧ a.encoder = true) := by
  unfold setupVideoEncoder at h
  by_cases hve : a.videoEncoder = OK
  · rw [if_neg (by simpa using hve)] at h
    by_cases hconn : a.connect = OK
    · rw [if_neg (by simpa using hconn)] at h
      cases henc : a.encoder with
      | false =>
        rw [henc, if_pos rfl] at h
        cases h
        simp [UNKNOWN_ERROR, OK]
      | true =>
        rw [henc, if_neg (by simp)] at h
        cases h
        simp [hve]
    · rw [if_pos hconn] at h
      exact absurd h (by simp)
  · rw [if_pos hve] at h
    cases h
    simp [hve]

theorem setupVideo_spec (hready : a.ready = OK) (h : setupVideo a s = some (err, s')) :
    (if s.mVideoSource = .VIDEO_SOURCE_GRALLOC_BUFFER then Made a s s' ∧ (err = OK ↔ a.Encodes s)
    else Untouched s s') ∧ s'.mWriter = s.mWriter := by
  unfold setupVideo setupMediaSource at h
  cases hv : s.mVideoSource with
  | VIDEO_SOURCE_LIST_END =>
    rw [hv, if_pos rfl] at h
    cases h
    exact ⟨⟨rfl, rfl, rfl, rfl⟩, rfl⟩
  | VIDEO_SOURCE_GRALLOC_BUFFER =>
    rw [if_pos rfl]
    simp only [hv, reduceCtorEq, if_false] at h
    obtain ⟨⟨err₁, s₁⟩, hsource, h⟩ := Option.bind_eq_some_iff.mp h
    obtain ⟨⟨hvideo, hsurface, hnode, hmade, hwriter⟩, hok⟩ := setupSurfaceMediaSource_spec hsource
    have hencodes : a.Encodes s ↔ err₁ = OK ∧ a.videoEncoder = OK ∧ a.encoder = true := by
      rw [hok]
      simp only [Answers.Encodes, Answers.MakesSource, hready, hv, true_and, and_assoc]
    by_cases herr : err₁ = OK
    · rw [if_neg (by simpa using herr)] at h
      obtain ⟨hs', hret⟩ := setupVideoEncoder_spec h
      have hret' : err = OK ↔ a.Encodes s := by rw [hret, hencodes, and_iff_right herr]
      by_cases henc : a.videoEncoder = OK ∧ a.encoder = true
      · rw [if_pos henc] at hs'
        subst hs'
        exact ⟨⟨⟨hvideo, hsurface, (if_pos (hencodes.mpr ⟨herr, henc⟩)).symm, hmade⟩, hret'⟩,
          hwriter⟩
      · rw [if_neg henc] at hs'
        subst hs'
        have hnot : ¬ a.Encodes s := fun he => henc (hencodes.mp he).2
        exact ⟨⟨⟨hvideo, hsurface, hnode.trans (if_neg hnot).symm, hmade⟩, hret'⟩, hwriter⟩
    · rw [if_pos (by simpa using herr)] at h
      cases h
      have hnot : ¬ a.Encodes s := fun he => herr (hencodes.mp he).1
      exact ⟨⟨⟨hvideo, hsurface, hnode.trans (if_neg hnot).symm, hmade⟩, iff_of_false herr hnot⟩,
        hwriter⟩

/-- The sources as one `start` leaves them. -/
def Sources (a : Answers) (s s' : State) : Prop :=
  if a.MakesSource s then Made a s s' else Untouched s s'

theorem Sources.trans {s₁ : State} (h : Sources a s s₁) (hu : Untouched s₁ s') : Sources a s s' := by
  unfold Sources at h ⊢
  split at h
  · rw [if_pos ‹_›]
    refine ⟨hu.video.trans h.video, hu.source.trans h.source, ?_, hu.made.trans h.made⟩
    rw [hu.node, h.node, hu.source]
  · rw [if_neg ‹_›]
    exact ⟨hu.video.trans h.video, hu.source.trans h.source, hu.node.trans h.node,
      hu.made.trans h.made⟩

theorem setupMPEG4orWEBMRecording_spec (hready : a.ready = OK)
    (h : setupMPEG4orWEBMRecording a s = some (err, s')) : Sources a s s' := by
  obtain ⟨⟨err₁, s₁⟩, hvideo, h⟩ := Option.map_eq_some_iff.mp h
  obtain ⟨hspec, _⟩ := setupVideo_spec hready hvideo
  have hsources : Sources a s s₁ := by
    unfold Sources
    by_cases hv : s.mVideoSource = .VIDEO_SOURCE_GRALLOC_BUFFER
    · rw [if_pos hv] at hspec
      rw [if_pos (show a.MakesSource s from ⟨hready, hv⟩)]
      exact ⟨hspec.1.video, hspec.1.source, hspec.1.node, hspec.1.made⟩
    · rw [if_neg hv] at hspec
      rw [if_neg fun hm => hv hm.2]
      exact ⟨hspec.video, hspec.source, hspec.node, hspec.made⟩
  refine hsources.trans ?_
  dsimp only at h
  split at h
  · cases h
    exact ⟨rfl, rfl, rfl, rfl⟩
  · split at h <;> cases h <;> exact ⟨rfl, rfl, rfl, rfl⟩

/-- **What a `start` does to the sources.** -/
theorem start_spec (h : start a s = some (err, s')) : Sources a s s' := by
  obtain ⟨⟨status, s₁⟩, hprepare, h⟩ := Option.map_eq_some_iff.mp h
  have hsources : Sources a s s₁ := by
    unfold prepareInternal at hprepare
    by_cases hready : a.ready = OK
    · rw [if_neg (by simpa using hready)] at hprepare
      exact setupMPEG4orWEBMRecording_spec hready hprepare
    · rw [if_pos hready] at hprepare
      cases hprepare
      unfold Sources
      rw [if_neg fun hm => hready hm.1]
      exact ⟨rfl, rfl, rfl, rfl⟩
  refine hsources.trans ?_
  dsimp only at h
  split at h
  · cases h
    exact ⟨rfl, rfl, rfl, rfl⟩
  · split at h
    · cases h
      exact ⟨rfl, rfl, rfl, rfl⟩
    · split at h <;> cases h <;> exact ⟨rfl, rfl, rfl, rfl⟩

/-- A `start` that fails its first tests changes nothing. -/
theorem start_blocked (hready : a.ready ≠ OK) (h : start a s = some (err, s')) : s' = s := by
  obtain ⟨⟨status, s₁⟩, hprepare, h⟩ := Option.map_eq_some_iff.mp h
  rw [prepareInternal, if_pos hready] at hprepare
  cases hprepare
  dsimp only at h
  rw [if_pos hready] at h
  cases h
  rfl

/-- **One that makes a source** leaves a recording under way exactly when everything works. -/
theorem start_recording (hm : a.MakesSource s) (h : start a s = some (err, s')) :
    Recording s' ↔ a.Records s := by
  obtain ⟨⟨status, s₁⟩, hprepare, h⟩ := Option.map_eq_some_iff.mp h
  rw [prepareInternal, if_neg (by simpa using hm.1)] at hprepare
  obtain ⟨⟨err₁, s₂⟩, hvideo, hprepare⟩ := Option.map_eq_some_iff.mp hprepare
  obtain ⟨hspec, hwriter⟩ := setupVideo_spec hm.1 hvideo
  rw [if_pos hm.2] at hspec
  have henc : err₁ = OK ↔ a.Encodes s := hspec.2
  unfold Recording Answers.Records
  rw [← henc]
  dsimp only at hprepare h
  by_cases herr : err₁ = OK
  · rw [if_neg (by simpa using herr)] at hprepare
    by_cases haudio : a.audio = OK
    · rw [if_neg (by simpa using haudio)] at hprepare
      cases hprepare
      by_cases hstart : a.writerStart = OK
      · simp only [ne_eq, not_true_eq_false, hstart, if_false, reduceCtorEq] at h
        cases h
        simp [herr, haudio, hstart]
      · simp only [ne_eq, not_true_eq_false, hstart, if_false, reduceCtorEq, not_false_eq_true,
          if_true] at h
        cases h
        simp [hstart]
    · rw [if_pos haudio] at hprepare
      cases hprepare
      rw [if_pos haudio] at h
      cases h
      simp [hwriter, haudio]
  · rw [if_pos herr] at hprepare
    cases hprepare
    rw [if_pos herr] at h
    cases h
    simp [hwriter, herr]

/-- **What a call does to the sources.** -/
theorem step_sources {c : Call} (h : step s c = some s') :
    (∃ a, c = .start a ∧ Sources a s s') ∨
    (NoStart s c ∧ s'.mSurfaceMediaSource = s.mSurfaceMediaSource ∧
      s'.mVideoSourceNode = s.mVideoSourceNode ∧ s'.made = s.made ∧
      (s'.mVideoSource = s.mVideoSource ∨ s'.mVideoSource = .VIDEO_SOURCE_GRALLOC_BUFFER)) := by
  cases c with
  | start a =>
    obtain ⟨⟨err, s₁⟩, hstart, rfl⟩ := Option.map_eq_some_iff.mp h
    exact Or.inl ⟨a, rfl, start_spec hstart⟩
  | setVideoSource =>
    cases h
    exact Or.inr ⟨trivial, rfl, rfl, rfl, Or.inr rfl⟩
  | prepare | stop =>
    cases h
    exact Or.inr ⟨trivial, rfl, rfl, rfl, Or.inl rfl⟩
  | querySurfaceMediaSource =>
    obtain ⟨producer, _, rfl⟩ := Option.map_eq_some_iff.mp h
    exact Or.inr ⟨trivial, rfl, rfl, rfl, Or.inl rfl⟩

/-! ## Every sequence of calls -/

/-- A source, if it is one, has been made for the one video source there is. -/
def Issued (s : State) (o : Option SurfaceMediaSource) : Prop :=
  ∀ src, o = some src → src.id < s.made ∧ s.mVideoSource = .VIDEO_SOURCE_GRALLOC_BUFFER

theorem Issued.mono {o : Option SurfaceMediaSource} (h : Issued s o) (hmade : s.made ≤ s'.made)
    (hvideo : s'.mVideoSource = s.mVideoSource ∨ s'.mVideoSource = .VIDEO_SOURCE_GRALLOC_BUFFER) :
    Issued s' o := by
  intro src hsrc
  obtain ⟨hlt, hg⟩ := h src hsrc
  exact ⟨Nat.lt_of_lt_of_le hlt hmade, hvideo.elim (·.trans hg) id⟩

/-- The source and the encoder's source have been made. -/
def Numbered (s : State) : Prop := Issued s s.mSurfaceMediaSource ∧ Issued s s.mVideoSourceNode

theorem numbered_init : Numbered {} :=
  ⟨fun _ h => absurd h (by simp), fun _ h => absurd h (by simp)⟩

/-- A source just made. -/
theorem Made.issued (h : Made a s s') (hm : a.MakesSource s) : Issued s' s'.mSurfaceMediaSource := by
  intro src hsrc
  rw [h.source] at hsrc
  split at hsrc
  · cases hsrc
    exact ⟨h.made ▸ Nat.lt_succ_self s.made, h.video.trans hm.2⟩
  · exact absurd hsrc (by simp)

theorem numbered_step {c : Call} (hi : Numbered s) (h : step s c = some s') : Numbered s' := by
  obtain ⟨hold, hnode⟩ := hi
  rcases step_sources h with ⟨a, rfl, hs⟩ | ⟨_, hsource', hnode', hmade, hvideo⟩
  · unfold Sources at hs
    split at hs
    · rename_i hm
      refine ⟨hs.issued hm, ?_⟩
      rw [hs.node]
      split
      · exact hs.issued hm
      · exact hnode.mono (hs.made ▸ Nat.le_succ s.made) (Or.inl hs.video)
    · rw [Numbered, hs.source, hs.node]
      have hmade := Nat.le_of_eq hs.made.symm
      exact ⟨hold.mono hmade (Or.inl hs.video), hnode.mono hmade (Or.inl hs.video)⟩
  · rw [Numbered, hsource', hnode']
    have hmade := Nat.le_of_eq hmade.symm
    exact ⟨hold.mono hmade hvideo, hnode.mono hmade hvideo⟩

/-- The source is the one that the last encoder made reads from. -/
def Matched (s : State) : Prop :=
  ∃ src node, s.mSurfaceMediaSource = some src ∧ s.mVideoSourceNode = some node ∧ node.id = src.id

theorem matched_congr (hsource : s'.mSurfaceMediaSource = s.mSurfaceMediaSource)
    (hnode : s'.mVideoSourceNode = s.mVideoSourceNode) : Matched s' ↔ Matched s := by
  unfold Matched
  rw [hsource, hnode]

/-- A new source matches when its encoder is made. -/
theorem Made.matched_iff (hi : Numbered s) (h : Made a s s') : Matched s' ↔ a.Encodes s := by
  have hsource := h.source
  have hnode := h.node
  constructor
  · rintro ⟨src, node, hsrc, hn, hid⟩
    by_contra hnot
    rw [if_neg hnot, hn] at hnode
    rw [hsrc] at hsource
    split at hsource
    · cases hsource
      have hlt := (hi.2 node hnode.symm).1
      exact absurd hid (Nat.ne_of_lt hlt)
    · exact absurd hsource (by simp)
  · intro henc
    rw [if_pos henc] at hnode
    rw [henc.2.1, if_pos rfl] at hsource
    exact ⟨_, _, hsource, hnode.trans hsource, rfl⟩

theorem matched_step {c : Call} (hi : Numbered s) (h : step s c = some s') :
    Matched s' ↔
      (∃ a, c = .start a ∧ a.Encodes s) ∨ (Matched s ∧ ∀ b, c = .start b → b.ready ≠ OK) := by
  rcases step_sources h with ⟨a, rfl, hs⟩ | ⟨hno, hsource, hnode, _, _⟩
  · simp only [Call.start.injEq, exists_eq_left', forall_eq']
    unfold Sources at hs
    split at hs
    · rename_i hm
      rw [hs.matched_iff hi]
      exact ⟨Or.inl, fun h => h.elim id fun ⟨_, hready⟩ => absurd hm.1 hready⟩
    · rename_i hm
      rw [matched_congr hs.source hs.node]
      constructor
      · rintro ⟨src, node, hsrc, hn, hid⟩
        have hvideo := (hi.1 src hsrc).2
        exact Or.inr ⟨⟨src, node, hsrc, hn, hid⟩, fun hready => hm ⟨hready, hvideo⟩⟩
      · rintro (henc | ⟨hmatched, _⟩)
        · exact absurd henc.1 hm
        · exact hmatched
  · rw [matched_congr hsource hnode]
    constructor
    · refine fun hmatched => Or.inr ⟨hmatched, ?_⟩
      rintro b rfl
      exact hno.elim
    · rintro (⟨a, rfl, _⟩ | ⟨hmatched, _⟩)
      · exact hno.elim
      · exact hmatched

/-- The recording under way reads from the source. -/
theorem records_step {c : Call} (hi : Numbered s) (h : step s c = some s') :
    (Recording s' ∧ Matched s') ↔
      (∃ a, c = .start a ∧ a.Records s) ∨
        ((Recording s ∧ Matched s) ∧ c ≠ .stop ∧ ∀ b, c = .start b → b.ready ≠ OK) := by
  cases c with
  | start a =>
    have hmatched := matched_step hi h
    simp only [Call.start.injEq, exists_eq_left', forall_eq'] at hmatched ⊢
    obtain ⟨⟨err, s₁⟩, hstart, rfl⟩ := Option.map_eq_some_iff.mp h
    by_cases hm : a.MakesSource s
    · rw [start_recording hm hstart]
      constructor
      · rintro ⟨hrec, _⟩
        exact Or.inl hrec
      · rintro (hrec | ⟨_, _, hready⟩)
        · exact ⟨hrec, hmatched.mpr (Or.inl hrec.1)⟩
        · exact absurd hm.1 hready
    by_cases hready : a.ready = OK
    · -- without a video source there is nothing that could match
      constructor
      · rintro ⟨_, hmatch⟩
        rcases hmatched.mp hmatch with henc | ⟨_, hnot⟩
        · exact absurd henc.1 hm
        · exact absurd hready hnot
      · rintro (hrec | ⟨_, _, hnot⟩)
        · exact absurd hrec.1.1 hm
        · exact absurd hready hnot
    · rw [start_blocked hready hstart]
      constructor
      · intro hold
        exact Or.inr ⟨hold, by simp, hready⟩
      · rintro (hrec | ⟨hold, _, _⟩)
        · exact absurd hrec.1.1 hm
        · exact hold
  | stop =>
    cases h
    simp [Recording, stop]
  | setVideoSource | prepare =>
    cases h
    simp [Recording, Matched, prepare]
  | querySurfaceMediaSource =>
    obtain ⟨producer, _, rfl⟩ := Option.map_eq_some_iff.mp h
    simp

theorem recordsSurface_snoc {calls : List Call} {c : Call} (h : exec step {} calls = some s) :
    RecordsSurface (calls ++ [c]) ↔
      (∃ a, c = .start a ∧ a.Records s) ∨
        (RecordsSurface calls ∧ c ≠ .stop ∧ ∀ b, c = .start b → b.ready ≠ OK) := by
  constructor
  · rintro ⟨pre, a, post, s₀, heq, hpre, hrec, hpost⟩
    rcases List.eq_nil_or_concat post with rfl | ⟨post, c', rfl⟩
    · obtain ⟨rfl, hc⟩ := List.append_inj' heq rfl
      obtain rfl : s = s₀ := Option.some.inj (h.symm.trans hpre)
      exact Or.inl ⟨a, by simpa using hc, hrec⟩
    · rw [List.concat_eq_append] at heq hpost
      rw [← List.cons_append, ← List.append_assoc] at heq
      obtain ⟨rfl, hc⟩ := List.append_inj' heq rfl
      obtain rfl : c = c' := by simpa using hc
      refine Or.inr ⟨⟨pre, a, post, s₀, rfl, hpre, hrec, fun d hd => ?_⟩, ?_⟩
      · exact hpost d (List.mem_append_left _ hd)
      · exact hpost c (by simp)
  · rintro (⟨a, rfl, hrec⟩ | ⟨⟨pre, a, post, s₀, rfl, hpre, hrec, hpost⟩, hlast⟩)
    · exact ⟨calls, a, [], s, rfl, h, hrec, fun d hd => by cases hd⟩
    · refine ⟨pre, a, post ++ [c], s₀, by simp, hpre, hrec, fun d hd => ?_⟩
      rcases List.mem_append.mp hd with hd | hd
      · exact hpost d hd
      · exact List.mem_singleton.mp hd ▸ hlast

/-- **A recording from the source is under way exactly when** the last `start` past its first tests
    recorded from a surface and no `stop` has come since. -/
theorem records_iff (calls : List Call) : ∀ {s : State}, exec step {} calls = some s →
    Numbered s ∧ ((Recording s ∧ Matched s) ↔ RecordsSurface calls) := by
  induction calls using List.reverseRecOn with
  | nil =>
    intro s h
    cases h
    refine ⟨numbered_init, ?_, ?_⟩
    · rintro ⟨⟨hstarted, _⟩, _⟩
      cases hstarted
    · rintro ⟨pre, a, post, s₀, heq, _⟩
      simp at heq
  | append_singleton calls c ih =>
    intro s h
    obtain ⟨m, hm, hstep⟩ := exec_snoc.mp h
    obtain ⟨hi, hrecords⟩ := ih hm
    refine ⟨numbered_step hi hstep, ?_⟩
    rw [records_step hi hstep, recordsSurface_snoc hm, hrecords]

/-! ## What is handed out -/

/-- With a video source, a `start` that meets no trouble makes its encoder. -/
theorem start_works (hv : s.mVideoSource = .VIDEO_SOURCE_GRALLOC_BUFFER) :
    ∃ s', step s (.start {}) = some s' := by
  by_cases hrate : s.mFrameRate = -1 <;>
    simp [step, start, prepareInternal, setupMPEG4orWEBMRecording, setupVideo, setupMediaSource,
      setupSurfaceMediaSource, setupVideoEncoder, hv, hrate, OK]

/-- **While nothing is recorded**, what is handed out is not what the next `start` reads from. -/
theorem not_handsOut_of_idle (hi : Numbered s) (hidle : ¬ Recording s) : ¬ HandsOut s := by
  rintro ⟨producer, hquery, hreads⟩
  obtain ⟨src, hsrc, rfl⟩ := Option.map_eq_some_iff.mp hquery
  obtain ⟨hlt, hv⟩ := hi.1 src hsrc
  obtain ⟨s₁, hstart⟩ := start_works hv
  have henc : Answers.Encodes {} s := ⟨⟨rfl, hv⟩, rfl, Or.inr rfl, rfl, rfl⟩
  rw [ReadsFrom, if_neg hidle] at hreads
  obtain ⟨node, hnode, hid⟩ := hreads s {} s₁ Run.start henc hstart
  -- the next source is a new one
  rcases step_sources hstart with ⟨a, ha, hs⟩ | ⟨hno, _⟩
  · cases ha
    rw [Sources, if_pos henc.1] at hs
    rw [hs.node, if_pos henc, hs.source] at hnode
    cases hnode
    exact absurd hid (Nat.ne_of_gt hlt)
  · exact hno.elim

/-- **What `querySurfaceMediaSource` hands out is right exactly** while a recording from a surface is
    under way. -/
theorem handed_out_iff (calls : List Call) (s : State) (h : exec step {} calls = some s) :
    HandsOut s ↔ RecordsSurface calls := by
  obtain ⟨hi, hrecords⟩ := records_iff calls h
  rw [← hrecords]
  by_cases hrec : Recording s
  · constructor
    · rintro ⟨producer, hquery, hreads⟩
      obtain ⟨src, hsrc, rfl⟩ := Option.map_eq_some_iff.mp hquery
      rw [ReadsFrom, if_pos hrec] at hreads
      obtain ⟨node, hnode, hid⟩ := hreads
      exact ⟨hrec, src, node, hsrc, hnode, hid⟩
    · rintro ⟨_, src, node, hsrc, hnode, hid⟩
      refine ⟨src.getProducer, Option.map_eq_some_iff.mpr ⟨src, hsrc, rfl⟩, ?_⟩
      rw [ReadsFrom, if_pos hrec]
      exact ⟨node, hnode, hid⟩
  · simpa [hrec] using not_handsOut_of_idle hi hrec

/-- A recording that has started, and a second `start` that fails its first tests. -/
theorem started_hands_out :
    ∃ s, exec step {} [.setVideoSource, .prepare, .start {}, .start { ready := UNKNOWN_ERROR }] =
      some s ∧ HandsOut s := by
  refine ⟨_, rfl, (handed_out_iff
    [.setVideoSource, .prepare, .start {}, .start { ready := UNKNOWN_ERROR }] _ rfl).mpr ?_⟩
  refine ⟨[.setVideoSource, .prepare], {}, [.start { ready := UNKNOWN_ERROR }], _, rfl, rfl,
    by decide, fun c hc => ?_⟩
  obtain rfl := List.mem_singleton.mp hc
  exact ⟨by simp, fun b hb => by cases hb; decide⟩

/-- Behind `prepare` there is no source; behind `stop`, and behind a second `start` whose writer
    fails, there is one that the next `start` does not read from. -/
theorem prepared_not_handed_out :
    (∃ s, exec step {} [.setVideoSource, .prepare] = some s ∧ querySurfaceMediaSource s = none ∧
      ¬ HandsOut s) ∧
    (∃ s, exec step {} [.setVideoSource, .prepare, .start {}, .stop] = some s ∧
      querySurfaceMediaSource s = some ⟨0⟩ ∧ ¬ HandsOut s) ∧
    ∃ s, exec step {} [.setVideoSource, .prepare, .start {},
        .start { writerStart := UNKNOWN_ERROR }] = some s ∧
      querySurfaceMediaSource s = some ⟨1⟩ ∧ ¬ HandsOut s := by
  refine ⟨?_, ?_, ?_⟩
  · refine ⟨_, rfl, rfl, ?_⟩
    rintro ⟨producer, hquery, _⟩
    cases hquery
  · refine ⟨_, rfl, rfl, not_handsOut_of_idle ⟨?_, ?_⟩ (by decide)⟩ <;>
      · intro src hsrc
        cases hsrc
        exact ⟨by decide, rfl⟩
  · refine ⟨_, rfl, rfl, not_handsOut_of_idle ⟨?_, ?_⟩ (by decide)⟩ <;>
      · intro src hsrc
        cases hsrc
        exact ⟨by decide, rfl⟩

end Codina.Media.Recorder
