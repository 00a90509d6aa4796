/-
  The recovery's twrp-graphics.c: the memory surface and the descriptors.

  `gr_exit` frees the buffer of `gr_mem_surface` and leaves the pointer to it where it is.  It is called
  by the recovery, and by `gr_init_orig` when something fails; and `gr_init` runs `gr_init_orig` twice.
  So a second `gr_exit` before a new surface is allocated frees the same buffer again: two calls of the
  recovery, or its call behind a `gr_init` that has failed, or a failing round behind either.

  What a sequence of calls comes down to is a sequence of events: a `gr_exit`, called or reached from a
  failing round; a round that gets through, with a buffer or without; a copy from the surface.  All goes
  well exactly when the first event behind a `gr_exit` that releases a buffer is a round that gets
  through (`surface_freed_once`).  The proof has a monitor in between, which reads the events from left
  to right (`Accepts`).

  What holds in every run: the framebuffer's descriptor is open, since `gr_exit` does forget the
  descriptors; and a `gr_init` that returns 0 leaves a surface that has not been freed.

  A buffer is one allocation, whatever its address.  The descriptors are those opened here; `open`
  answers with one that is not open.
-/
import Codina.Lib.Runs
import Mathlib.Data.List.Nodup
import Mathlib.Tactic.Common

namespace Codina.Recovery.Twrp

open Codina.Runs

/-! ## The globals and the system -/

structure State where
  gr_fb_fd : Int := -1
  gr_vt_fd : Int := -1
  /-- `gr_mem_surface.data`, by the number of the allocation; `none` is NULL. -/
  gr_mem_surface : Option Nat := none
  gr_active_fb : Nat := 0
  double_buffering : Bool := false
  descriptors : List Int := []
  /-- The number of buffers allocated for memory surfaces. -/
  allocated : Nat := 0
  /-- What has been passed to `free`, in order. -/
  freed : List Nat := []
  /-- Some `gr_init` has returned 0. -/
  initialised : Bool := false

/-- What the system answers in one `gr_init_orig`; a file that cannot be opened is negative. -/
structure Answers where
  tty : Int := -1
  kdGraphics : Bool := true
  fb0 : Int
  getVScreenInfo : Bool := true
  putVScreenInfo : Bool := true
  getFScreenInfo : Bool := true
  mmap : Bool := true
  /-- The memory of the framebuffer is enough for two. -/
  twoFit : Bool := false
  malloc : Bool := true

/-- `none`: no system answers with a descriptor that is open. -/
def openFile (fd : Int) (s : State) : Option State :=
  if fd < 0 then some s
  else if fd ∈ s.descriptors then none
  else some { s with descriptors := fd :: s.descriptors }

def close (fd : Int) (s : State) : State := { s with descriptors := s.descriptors.erase fd }

/-- `free(NULL)` does nothing. -/
def free (data : Option Nat) (s : State) : State := { s with freed := s.freed ++ data.toList }

/-! ## The functions -/

/-- The file descriptor, or -1. -/
def get_framebuffer (a : Answers) (s : State) : Option (Int × State) :=
  (openFile a.fb0 s).map fun s =>
    if a.fb0 < 0 then (-1, s)
    else if a.getVScreenInfo = false then (-1, close a.fb0 s)
    else if a.putVScreenInfo = false then (-1, close a.fb0 s)
    else if a.getFScreenInfo = false then (-1, close a.fb0 s)
    else if a.mmap = false then (-1, close a.fb0 s)
    else (a.fb0, if a.twoFit then { s with double_buffering := true } else s)

/-- The buffer of the surface, whether or not `malloc` gives one. -/
def get_memory_surface (malloc : Bool) (s : State) : Option Nat × State :=
  if malloc then (some s.allocated, { s with allocated := s.allocated + 1 }) else (none, s)

def gr_exit (s : State) : State :=
  let s := { close s.gr_fb_fd s with gr_fb_fd := -1 }
  let s := free s.gr_mem_surface s
  { close s.gr_vt_fd s with gr_vt_fd := -1 }

def gr_init_orig (a : Answers) (s : State) : Option (Int × State) :=
  (openFile a.tty s).bind fun s =>
    let s := { s with gr_vt_fd := a.tty }
    -- a tty that cannot be opened is no failure
    if 0 ≤ a.tty ∧ a.kdGraphics = false then some (-1, gr_exit s)
    else (get_framebuffer a s).map fun (fd, s) =>
      let s := { s with gr_fb_fd := fd }
      if fd < 0 then (-1, gr_exit s)
      else
        let (data, s) := get_memory_surface a.malloc s
        (0, { s with gr_mem_surface := data, gr_active_fb := 0 })

/-- The result is that of the second round. -/
def gr_init (a b : Answers) (s : State) : Option (Int × State) :=
  (gr_init_orig a s).bind fun (_, s) => (gr_init_orig b s).map fun (ret, s) =>
    (ret, { s with initialised := s.initialised || decide (ret = 0) })

/-- It copies from the buffer of `gr_mem_surface`. -/
def gr_flip (s : State) : State :=
  if s.double_buffering then { s with gr_active_fb := (s.gr_active_fb + 1) % 2 } else s

/-- It copies from the buffer of `gr_mem_surface`, unless there is no memory for the new surface. -/
def gr_get_surface (malloc mallocData : Bool) (s : State) : Int × State :=
  if malloc = false then (-1, s) else (0, (get_memory_surface mallocData s).2)

inductive Action where
  | gr_init (first second : Answers)
  | gr_exit
  | gr_flip
  | gr_get_surface (malloc mallocData : Bool)

def step (s : State) : Action → Option State
  | .gr_init a b => (gr_init a b s).map Prod.snd
  | .gr_exit => some (gr_exit s)
  | .gr_flip => some (gr_flip s)
  | .gr_get_surface malloc mallocData => some (gr_get_surface malloc mallocData s).2

/-! ## What should hold -/

/-- `gr_mem_surface` points to a buffer that has been freed. -/
def Dangling (s : State) : Prop := ∃ buffer, s.gr_mem_surface = some buffer ∧ buffer ∈ s.freed

/-- The action copies from the memory surface. -/
def Action.Copies : Action → Prop
  | .gr_flip => True
  | .gr_get_surface malloc _ => malloc = true
  | _ => False

/-- The descriptor of the current framebuffer is open. -/
def InUse (s : State) : Prop := 0 ≤ s.gr_fb_fd → s.gr_fb_fd ∈ s.descriptors

/-- No buffer has been freed twice. -/
def FreedOnce (s : State) : Prop := s.freed.Nodup

instance (s : State) : Decidable (FreedOnce s) := inferInstanceAs (Decidable s.freed.Nodup)

/-- What should hold of a step. -/
structure Safe (s : State) (action : Action) (s' : State) : Prop where
  once : FreedOnce s'
  copied : action.Copies → s.initialised = true → ¬ Dangling s
  inUse : InUse s'

/-- `get_framebuffer` fails. -/
def Answers.NoFramebuffer (a : Answers) : Prop :=
  a.fb0 < 0 ∨ a.getVScreenInfo = false ∨ a.putVScreenInfo = false ∨ a.getFScreenInfo = false ∨
    a.mmap = false

/-- A `gr_init_orig` fails. -/
def Answers.Fails (a : Answers) : Prop := (0 ≤ a.tty ∧ a.kdGraphics = false) ∨ a.NoFramebuffer

instance (a : Answers) : Decidable a.NoFramebuffer := inferInstanceAs (Decidable (_ ∨ _))

instance (a : Answers) : Decidable a.Fails := inferInstanceAs (Decidable (_ ∨ _))

/-- Every step of the sequence is as it should be. -/
def Good : State → List Action → Prop
  | _, [] => True
  | s, action :: actions => ∀ s', step s action = some s' → Safe s action s' ∧ Good s' actions

/-! ## The calls as events -/

inductive Event where
  /-- `gr_exit` is called, or reached from a round that fails. -/
  | exit
  /-- A round gets through, and its `malloc` gives a buffer or none. -/
  | surface (got : Bool)
  /-- The surface is copied from. -/
  | copy
deriving DecidableEq

def Event.isSurface : Event → Bool
  | .surface _ => true
  | _ => false

/-- The event of a round. -/
def Answers.event (a : Answers) : Event := if a.Fails then .exit else .surface a.malloc

/-- The events of a call; copies count once a `gr_init` has returned 0. -/
def Action.events (up : Bool) : Action → List Event
  | .gr_init a b => [a.event, b.event]
  | .gr_exit => [.exit]
  | .gr_flip => if up then [.copy] else []
  | .gr_get_surface malloc _ => if up && malloc then [.copy] else []

/-- A `gr_init` returns 0 when its second round gets through. -/
def Action.up (up : Bool) : Action → Bool
  | .gr_init _ b => up || !decide b.Fails
  | _ => up

def events : Bool → List Action → List Event
  | _, [] => []
  | up, action :: actions => action.events up ++ events (action.up up) actions

/-- The first event behind a `gr_exit` that releases a buffer is a round that gets through.  (A buffer
    is released by the first `gr_exit` behind the round that got it, with copies at most in between.) -/
def Clean (es : List Event) : Prop :=
  ∀ pre mid e post, es = pre ++ .surface true :: (mid ++ .exit :: e :: post) →
    (∀ x ∈ mid, x = .copy) → e.isSurface

/-! ## The monitor -/

/-- What is left of the last surface: no buffer, one in use, or a freed one. -/
inductive Left where
  | nothing | used | freed
deriving DecidableEq

def Left.after : Left → Event → Left
  | _, .surface true => .used
  | _, .surface false => .nothing
  | .used, .exit => .freed
  | left, _ => left

/-- Nothing but a round that gets through comes while a freed buffer is left. -/
def Accepts : Left → List Event → Prop
  | _, [] => True
  | left, e :: es => (left = .freed → e.isSurface) ∧ Accepts (left.after e) es

theorem accepts_append (es fs : List Event) : ∀ left : Left,
    Accepts left (es ++ fs) ↔ Accepts left es ∧ Accepts (es.foldl Left.after left) fs := by
  induction es with
  | nil => intro left; simp [Accepts]
  | cons e es ih =>
    intro left
    simp only [List.cons_append, Accepts, ih, List.foldl_cons, and_assoc]

/-- The condition on the events behind one that got a buffer. -/
def Released (es : List Event) : Prop :=
  ∀ mid e post, es = mid ++ .exit :: e :: post → (∀ x ∈ mid, x = .copy) → e.isSurface

theorem clean_nil : Clean [] := by
  intro pre mid e post h
  simp at h

theorem clean_cons {x : Event} {es : List Event} :
    Clean (x :: es) ↔ (x = .surface true → Released es) ∧ Clean es := by
  constructor
  · intro h
    refine ⟨?_, fun pre mid e post heq => h (x :: pre) mid e post (by rw [heq]; rfl)⟩
    rintro rfl mid e post heq
    exact h [] mid e post (by rw [heq]; rfl)
  · rintro ⟨hx, hclean⟩ pre mid e post heq
    cases pre with
    | nil =>
      obtain ⟨rfl, rfl⟩ := List.cons.inj heq
      exact hx rfl mid e post rfl
    | cons y pre => exact hclean pre mid e post (List.cons.inj heq).2

theorem released_nil : Released [] := by
  intro mid e post h
  simp at h

theorem released_surface {got : Bool} {es : List Event} : Released (.surface got :: es) := by
  intro mid e post heq hmid
  cases mid with
  | nil => exact absurd (List.cons.inj heq).1 (by simp)
  | cons y mid =>
    have hy := hmid y List.mem_cons_self
    rw [← (List.cons.inj heq).1] at hy
    exact absurd hy (by simp)

theorem released_copy {es : List Event} : Released (.copy :: es) ↔ Released es := by
  constructor
  · intro h mid e post heq hmid
    refine h (.copy :: mid) e post (by rw [heq]; rfl) ?_
    intro x hx
    rcases List.mem_cons.mp hx with rfl | hx
    · rfl
    · exact hmid x hx
  · intro h mid e post heq hmid
    cases mid with
    | nil => exact absurd (List.cons.inj heq).1 (by simp)
    | cons y mid =>
      exact h mid e post (List.cons.inj heq).2 fun x hx => hmid x (List.mem_cons_of_mem y hx)

theorem released_exit {es : List Event} :
    Released (.exit :: es) ↔ ∀ e post, es = e :: post → e.isSurface := by
  constructor
  · intro h e post heq
    exact h [] e post (by rw [heq]; rfl) (by simp)
  · intro h mid e post heq hmid
    cases mid with
    | nil => exact h e post (List.cons.inj heq).2
    | cons y mid =>
      have hy := hmid y List.mem_cons_self
      rw [← (List.cons.inj heq).1] at hy
      exact absurd hy (by simp)

/-- What the monitor has seen, as far as it matters. -/
def Left.before : Left → List Event
  | .nothing => []
  | .used => [.surface true]
  | .freed => [.surface true, .exit]

/-- **The monitor accepts the clean sequences.** -/
theorem accepts_iff (es : List Event) : ∀ left : Left,
    Accepts left es ↔ Clean (left.before ++ es) := by
  induction es with
  | nil =>
    intro left
    cases left <;>
      simp [Accepts, Left.before, clean_cons, clean_nil, released_nil, released_exit]
  | cons e es ih =>
    intro left
    rw [Accepts, ih]
    cases left with
    | nothing =>
      rcases e with _ | ⟨_ | _⟩ | _ <;> simp [Left.after, Left.before, clean_cons]
    | used =>
      rcases e with _ | ⟨_ | _⟩ | _ <;>
        simp [Left.after, Left.before, clean_cons, released_surface, released_copy]
    | freed =>
      rcases e with _ | ⟨_ | _⟩ | _ <;>
        simp [Left.after, Left.before, clean_cons, released_exit, Event.isSurface]

/-! ## What the functions do -/

variable {a b : Answers} {s s' : State} {ret : Int}

/-- The buffers, what has been freed and the history. -/
structure SameBuffers (s s' : State) : Prop where
  surface : s'.gr_mem_surface = s.gr_mem_surface
  freed : s'.freed = s.freed
  allocated : s'.allocated = s.allocated
  initialised : s'.initialised = s.initialised

theorem openFile_buffers {fd : Int} (h : openFile fd s = some s') :
    SameBuffers s s' ∧ (0 ≤ fd → fd ∈ s'.descriptors) := by
  unfold openFile at h
  split at h
  · cases h
    exact ⟨⟨rfl, rfl, rfl, rfl⟩, fun hfd => by omega⟩
  · split at h
    · exact absurd h (by simp)
    · cases h
      exact ⟨⟨rfl, rfl, rfl, rfl⟩, fun _ => List.mem_cons_self⟩

/-- A framebuffer is an open descriptor; it is got unless something fails. -/
theorem get_framebuffer_spec (h : get_framebuffer a s = some (ret, s')) :
    SameBuffers s s' ∧ (0 ≤ ret → ret ∈ s'.descriptors) ∧ (ret < 0 ↔ a.NoFramebuffer) := by
  obtain ⟨s₁, hopen, h⟩ := Option.map_eq_some_iff.mp h
  obtain ⟨hsame, hmem⟩ := openFile_buffers hopen
  have hclosed : SameBuffers s (close a.fb0 s₁) :=
    ⟨hsame.surface, hsame.freed, hsame.allocated, hsame.initialised⟩
  by_cases hfb : a.fb0 < 0
  · rw [if_pos hfb] at h
    cases h
    exact ⟨hsame, fun hret => absurd hret (by decide), iff_of_true (by decide) (Or.inl hfb)⟩
  rw [if_neg hfb] at h
  by_cases hioctl : a.getVScreenInfo = false ∨ a.putVScreenInfo = false ∨
      a.getFScreenInfo = false ∨ a.mmap = false
  · -- whichever fails, the descriptor is closed again
    have hfail : (ret, s') = (-1, close a.fb0 s₁) := by
      rw [← h]
      split_ifs <;> simp_all
    cases hfail
    exact ⟨hclosed, fun hret => absurd hret (by decide), iff_of_true (by decide) (Or.inr hioctl)⟩
  · have hgot : (ret, s') =
        (a.fb0, if a.twoFit then { s₁ with double_buffering := true } else s₁) := by
      rw [← h]
      split_ifs <;> simp_all
    cases hgot
    refine ⟨?_, fun hret => ?_, iff_of_false hfb (not_or.mpr ⟨hfb, hioctl⟩)⟩
    · split
      · exact ⟨hsame.surface, hsame.freed, hsame.allocated, hsame.initialised⟩
      · exact hsame
    · split
      · exact hmem hret
      · exact hmem hret

/-- What `gr_exit` leaves: the surface is freed, and still there. -/
structure Exited (s s' : State) : Prop where
  surface : s'.gr_mem_surface = s.gr_mem_surface
  freed : s'.freed = s.freed ++ s.gr_mem_surface.toList
  allocated : s'.allocated = s.allocated
  fb : s'.gr_fb_fd = -1
  initialised : s'.initialised = s.initialised

theorem SameBuffers.exited {s₁ : State} (h : SameBuffers s s₁) : Exited s (gr_exit s₁) where
  surface := h.surface
  freed := by
    rw [← h.surface, ← h.freed]
    rfl
  allocated := h.allocated
  fb := rfl
  initialised := h.initialised

/-- What a `gr_init_orig` that succeeds leaves: a surface of its own, and an open framebuffer. -/
structure Drawn (malloc : Bool) (s s' : State) : Prop where
  surface : s'.gr_mem_surface = if malloc then some s.allocated else none
  freed : s'.freed = s.freed
  allocated : s'.allocated = s.allocated + malloc.toNat
  fb : s'.gr_fb_fd ∈ s'.descriptors
  initialised : s'.initialised = s.initialised

theorem get_memory_surface_drawn {malloc : Bool} {data : Option Nat} {s₁ s₂ : State}
    (h : SameBuffers s s₁) (hfb : s₁.gr_fb_fd ∈ s₁.descriptors)
    (hget : get_memory_surface malloc s₁ = (data, s₂)) :
    Drawn malloc s { s₂ with gr_mem_surface := data, gr_active_fb := 0 } := by
  cases malloc with
  | true =>
    cases hget
    exact ⟨congrArg some h.allocated, h.freed, congrArg (· + 1) h.allocated, hfb, h.initialised⟩
  | false =>
    cases hget
    exact ⟨rfl, h.freed, h.allocated, hfb, h.initialised⟩

/-- **One round.** -/
theorem gr_init_orig_spec (h : gr_init_orig a s = some (ret, s')) :
    (a.Fails ∧ ret = -1 ∧ Exited s s') ∨ (¬ a.Fails ∧ ret = 0 ∧ Drawn a.malloc s s') := by
  obtain ⟨s₁, hopen, h⟩ := Option.bind_eq_some_iff.mp h
  obtain ⟨hsame, _⟩ := openFile_buffers hopen
  by_cases htty : 0 ≤ a.tty ∧ a.kdGraphics = false
  · rw [if_pos htty] at h
    cases h
    exact Or.inl ⟨Or.inl htty, rfl,
      SameBuffers.exited ⟨hsame.surface, hsame.freed, hsame.allocated, hsame.initialised⟩⟩
  rw [if_neg htty] at h
  obtain ⟨⟨fd, s₂⟩, hget, h⟩ := Option.map_eq_some_iff.mp h
  obtain ⟨hsame₂, hmem, hfail⟩ := get_framebuffer_spec hget
  have hbuffers : SameBuffers s { s₂ with gr_fb_fd := fd } := ⟨hsame₂.surface.trans hsame.surface,
    hsame₂.freed.trans hsame.freed, hsame₂.allocated.trans hsame.allocated,
    hsame₂.initialised.trans hsame.initialised⟩
  dsimp only at h
  by_cases hfd : fd < 0
  · rw [if_pos hfd] at h
    cases h
    exact Or.inl ⟨Or.inr (hfail.mp hfd), rfl, hbuffers.exited⟩
  rw [if_neg hfd] at h
  refine Or.inr ⟨?_, ?_⟩
  · rintro (hkd | hnone)
    · exact htty hkd
    · exact hfd (hfail.mpr hnone)
  have hopened : fd ∈ s₂.descriptors := hmem (Int.not_lt.mp hfd)
  rcases hsurface : get_memory_surface a.malloc { s₂ with gr_fb_fd := fd } with ⟨data, s₃⟩
  rw [hsurface] at h
  cases h
  exact ⟨rfl, get_memory_surface_drawn hbuffers hopened hsurface⟩

/-! ## What is left of the surface -/

/-- The buffers that have been allocated are numbered below `allocated`, and the framebuffer is open. -/
structure Sound (s : State) : Prop where
  surface : ∀ buffer, s.gr_mem_surface = some buffer → buffer < s.allocated
  freed : ∀ buffer ∈ s.freed, buffer < s.allocated
  inUse : InUse s

theorem sound_start : Sound {} where
  surface := fun buffer hbuffer => by cases hbuffer
  freed := fun buffer hbuffer => by cases hbuffer
  inUse := fun hfd => absurd hfd (by decide)

/-- What the monitor stands for. -/
def left (s : State) : Left :=
  match s.gr_mem_surface with
  | none => .nothing
  | some buffer => if buffer ∈ s.freed then .freed else .used

theorem left_congr (hsurface : s'.gr_mem_surface = s.gr_mem_surface) (hfreed : s'.freed = s.freed) :
    left s' = left s := by
  unfold left
  rw [hsurface, hfreed]

theorem left_eq_freed : left s = .freed ↔ Dangling s := by
  unfold left Dangling
  cases s.gr_mem_surface with
  | none => simp
  | some buffer => simp

theorem Exited.sound (h : Exited s s') (hs : Sound s) : Sound s' where
  surface := by
    rw [h.surface, h.allocated]
    exact hs.surface
  freed := by
    intro buffer hbuffer
    rw [h.freed, List.mem_append, Option.mem_toList] at hbuffer
    rw [h.allocated]
    rcases hbuffer with hfreed | hsurface
    · exact hs.freed buffer hfreed
    · exact hs.surface buffer hsurface
  inUse := by
    intro hfd
    rw [h.fb] at hfd
    exact absurd hfd (by decide)

theorem Drawn.sound {malloc : Bool} (h : Drawn malloc s s') (hs : Sound s) : Sound s' where
  surface := by
    intro buffer hbuffer
    rw [h.surface] at hbuffer
    cases malloc with
    | false => exact absurd hbuffer (by simp)
    | true =>
      obtain rfl : s.allocated = buffer := by simpa using hbuffer
      exact h.allocated ▸ Nat.lt_succ_self _
  freed := by
    rw [h.freed, h.allocated]
    exact fun buffer hbuffer => Nat.lt_of_lt_of_le (hs.freed buffer hbuffer) (Nat.le_add_right _ _)
  inUse := fun _ => h.fb

/-- A `gr_exit` leaves a freed buffer, if there was one. -/
theorem Exited.left (h : Exited s s') : left s' = (left s).after .exit := by
  unfold Twrp.left
  rw [h.surface, h.freed]
  cases s.gr_mem_surface with
  | none => rfl
  | some buffer => by_cases hfreed : buffer ∈ s.freed <;> simp [hfreed, Left.after]

/-- A surface just allocated has not been freed. -/
theorem Drawn.left {malloc : Bool} (h : Drawn malloc s s') (hs : Sound s) :
    left s' = (left s).after (.surface malloc) := by
  have hnew : s.allocated ∉ s.freed := fun hmem => Nat.lt_irrefl _ (hs.freed _ hmem)
  unfold Twrp.left
  rw [h.surface, h.freed]
  cases malloc with
  | false => rfl
  | true => simp [hnew, Left.after]

/-- A `gr_exit` frees nothing twice exactly when the surface has not been freed. -/
theorem Exited.nodup_iff (h : Exited s s') :
    s'.freed.Nodup ↔ s.freed.Nodup ∧ Twrp.left s ≠ .freed := by
  rw [h.freed, ne_eq, left_eq_freed]
  cases hsurface : s.gr_mem_surface with
  | none =>
    have hnot : ¬ Dangling s := by
      rintro ⟨buffer, hbuffer, -⟩
      cases hsurface.symm.trans hbuffer
    simp [hnot]
  | some buffer =>
    have hiff : Dangling s ↔ buffer ∈ s.freed := by simp [Dangling, hsurface]
    rw [hiff]
    show (s.freed ++ [buffer]).Nodup ↔ _
    rw [← List.concat_eq_append, List.nodup_concat, and_comm]

/-- What a piece of the run leaves is what the monitor says of these events, and it frees nothing
    twice exactly when the monitor accepts them. -/
structure Follows (es : List Event) (s s' : State) : Prop where
  sound : Sound s'
  initialised : s'.initialised = s.initialised
  left : left s' = es.foldl Left.after (left s)
  once : s'.freed.Nodup ↔ s.freed.Nodup ∧ Accepts (Twrp.left s) es

theorem Exited.follows (h : Exited s s') (hs : Sound s) : Follows [.exit] s s' where
  sound := h.sound hs
  initialised := h.initialised
  left := h.left
  once := by simp [h.nodup_iff, Accepts, Event.isSurface]

/-- **One round** does what its event says. -/
theorem gr_init_orig_follows (h : gr_init_orig a s = some (ret, s')) (hs : Sound s) :
    Follows [a.event] s s' := by
  rcases gr_init_orig_spec h with ⟨hfails, _, hexit⟩ | ⟨hfails, _, hdrawn⟩
  · rw [Answers.event, if_pos hfails]
    exact hexit.follows hs
  · rw [Answers.event, if_neg hfails]
    exact ⟨hdrawn.sound hs, hdrawn.initialised, hdrawn.left hs, by simp [hdrawn.freed, Accepts, Event.isSurface]⟩

theorem Follows.trans {es fs : List Event} {s₁ : State} (h : Follows es s s₁)
    (h' : Follows fs s₁ s') : Follows (es ++ fs) s s' where
  sound := h'.sound
  initialised := h'.initialised.trans h.initialised
  left := by rw [h'.left, h.left, List.foldl_append]
  once := by rw [h'.once, h.once, accepts_append, h.left, and_assoc]

/-- The rounds of a `gr_init`. -/
theorem gr_init_rounds (h : gr_init a b s = some (ret, s')) : ∃ first s₁ s₂,
    gr_init_orig a s = some (first, s₁) ∧ gr_init_orig b s₁ = some (ret, s₂) ∧
      s' = { s₂ with initialised := s₂.initialised || decide (ret = 0) } := by
  obtain ⟨⟨first, s₁⟩, hfirst, h⟩ := Option.bind_eq_some_iff.mp h
  obtain ⟨⟨second, s₂⟩, hsecond, h⟩ := Option.map_eq_some_iff.mp h
  cases h
  exact ⟨first, s₁, s₂, hfirst, hsecond, rfl⟩

/-- **A `gr_init` that returns 0 leaves a surface that has not been freed.** -/
theorem gr_init_not_dangling (h : gr_init a b s = some (0, s')) (hs : Sound s) : ¬ Dangling s' := by
  obtain ⟨first, s₁, s₂, hfirst, hsecond, rfl⟩ := gr_init_rounds h
  have hs₁ := (gr_init_orig_follows hfirst hs).sound
  rcases gr_init_orig_spec hsecond with ⟨_, hret, _⟩ | ⟨_, _, hdrawn⟩
  · exact absurd hret (by decide)
  · intro hdangling
    have hfreed : left s₂ = .freed := left_eq_freed.mpr hdangling
    rw [hdrawn.left hs₁] at hfreed
    cases hmalloc : b.malloc <;> simp [hmalloc, Left.after] at hfreed

/-! ## Every sequence of calls -/

/-- The surface, what has been freed and the framebuffer stay; there may be a buffer more. -/
structure Keeps (s s' : State) : Prop where
  surface : s'.gr_mem_surface = s.gr_mem_surface
  freed : s'.freed = s.freed
  allocated : s.allocated ≤ s'.allocated
  fb : s'.gr_fb_fd = s.gr_fb_fd
  descriptors : s'.descriptors = s.descriptors
  initialised : s'.initialised = s.initialised

theorem Keeps.sound (h : Keeps s s') (hs : Sound s) : Sound s' where
  surface := by
    rw [h.surface]
    exact fun buffer hbuffer => Nat.lt_of_lt_of_le (hs.surface buffer hbuffer) h.allocated
  freed := by
    rw [h.freed]
    exact fun buffer hbuffer => Nat.lt_of_lt_of_le (hs.freed buffer hbuffer) h.allocated
  inUse := by
    intro hfd
    rw [h.fb] at hfd ⊢
    rw [h.descriptors]
    exact hs.inUse hfd

theorem gr_flip_keeps (s : State) : Keeps s (gr_flip s) := by
  unfold gr_flip
  split <;> exact ⟨rfl, rfl, Nat.le_refl _, rfl, rfl, rfl⟩

theorem gr_get_surface_keeps (malloc mallocData : Bool) (s : State) :
    Keeps s (gr_get_surface malloc mallocData s).2 := by
  cases malloc with
  | false => exact ⟨rfl, rfl, Nat.le_refl _, rfl, rfl, rfl⟩
  | true =>
    cases mallocData with
    | false => exact ⟨rfl, rfl, Nat.le_refl _, rfl, rfl, rfl⟩
    | true => exact ⟨rfl, rfl, Nat.le_succ _, rfl, rfl, rfl⟩

/-- What one call leaves, and that it is as it should be exactly when the monitor accepts it. -/
structure Stepped (action : Action) (s s' : State) : Prop where
  sound : Sound s'
  initialised : s'.initialised = action.up s.initialised
  left : left s' = (action.events s.initialised).foldl Left.after (left s)
  safe : s.freed.Nodup → (Safe s action s' ↔ Accepts (Twrp.left s) (action.events s.initialised))

/-- A call that may copy, and does nothing to the surface. -/
theorem Keeps.stepped {action : Action} (h : Keeps s s') (hs : Sound s)
    (hup : action.up s.initialised = s.initialised)
    (hcopy : action.Copies → s.initialised = true → action.events s.initialised = [.copy])
    (hnone : ¬ (action.Copies ∧ s.initialised = true) → action.events s.initialised = []) :
    Stepped action s s' := by
  have hsame := left_congr h.surface h.freed
  have hsafe : s.freed.Nodup →
      (Safe s action s' ↔ (action.Copies → s.initialised = true → left s ≠ .freed)) := by
    intro honce
    rw [ne_eq, left_eq_freed]
    refine ⟨Safe.copied, fun hcopied => ⟨?_, hcopied, (h.sound hs).inUse⟩⟩
    unfold FreedOnce
    rw [h.freed]
    exact honce
  by_cases hcopies : action.Copies ∧ s.initialised = true
  · refine ⟨h.sound hs, h.initialised.trans hup.symm, ?_, fun honce => ?_⟩
    · rw [hsame, hcopy hcopies.1 hcopies.2]
      cases left s <;> rfl
    · rw [hsafe honce, hcopy hcopies.1 hcopies.2]
      simp [Accepts, hcopies.1, hcopies.2, Event.isSurface]
  · refine ⟨h.sound hs, h.initialised.trans hup.symm, ?_, fun honce => ?_⟩
    · rw [hsame, hnone hcopies]
      rfl
    · rw [hsafe honce, hnone hcopies]
      exact iff_of_true (fun hc hinit => absurd ⟨hc, hinit⟩ hcopies) trivial

/-- A call that copies nothing, and ends by noting what it has returned. -/
theorem Follows.stepped {action : Action} {up : Bool}
    (h : Follows (action.events s.initialised) s s') (hcopies : ¬ action.Copies)
    (hup : up = action.up s.initialised) : Stepped action s { s' with initialised := up } where
  sound := ⟨h.sound.surface, h.sound.freed, h.sound.inUse⟩
  initialised := hup
  left := h.left
  safe := by
    intro honce
    constructor
    · intro hsafe
      exact (h.once.mp hsafe.once).2
    · intro haccepts
      exact ⟨h.once.mpr ⟨honce, haccepts⟩, fun hc => absurd hc hcopies, h.sound.inUse⟩

/-- **One step.** -/
theorem step_spec {action : Action} (h : step s action = some s') (hs : Sound s) :
    Stepped action s s' := by
  cases action with
  | gr_init a b =>
    obtain ⟨⟨ret, s₁⟩, hinit, h⟩ := Option.map_eq_some_iff.mp h
    cases h
    obtain ⟨first, s₁, s₂, hfirst, hsecond, rfl⟩ := gr_init_rounds hinit
    have hf := gr_init_orig_follows hfirst hs
    have hfollows := hf.trans (gr_init_orig_follows hsecond hf.sound)
    have hup : (s₂.initialised || decide (ret = 0)) = (s.initialised || !decide b.Fails) := by
      rw [hfollows.initialised]
      rcases gr_init_orig_spec hsecond with ⟨hfails, rfl, _⟩ | ⟨hfails, rfl, _⟩ <;> simp [hfails]
    have hcall : Follows ((Action.gr_init a b).events s.initialised) s s₂ := hfollows
    exact hcall.stepped id hup
  | gr_exit =>
    cases h
    have hexit : Exited s (gr_exit s) := SameBuffers.exited ⟨rfl, rfl, rfl, rfl⟩
    have hcall : Follows (Action.gr_exit.events s.initialised) s (gr_exit s) := hexit.follows hs
    exact hcall.stepped id rfl
  | gr_flip =>
    cases h
    refine (gr_flip_keeps s).stepped hs rfl (fun _ hinit => if_pos hinit) fun hnot => if_neg ?_
    exact fun hinit => hnot ⟨trivial, hinit⟩
  | gr_get_surface malloc mallocData =>
    cases h
    refine (gr_get_surface_keeps malloc mallocData s).stepped hs rfl ?_ ?_
    · intro hmalloc hinit
      exact if_pos (by simp [hinit, show malloc = true from hmalloc])
    · intro hnot
      refine if_neg fun hboth => hnot ?_
      rw [Bool.and_eq_true] at hboth
      exact ⟨hboth.2, hboth.1⟩

theorem run_sound {ok : State → Action → Prop} (h : Run step ok {} s) : Sound s :=
  h.inv sound_start fun _ _ _ hs _ hstep => (step_spec hstep hs).sound

/-- A sequence of calls is as it should be exactly when the monitor accepts its events. -/
theorem good_iff (actions : List Action) : ∀ {s s' : State}, exec step s actions = some s' →
    Sound s → s.freed.Nodup → (Good s actions ↔ Accepts (left s) (events s.initialised actions)) := by
  induction actions with
  | nil =>
    intro s s' _ _ _
    exact Iff.rfl
  | cons action actions ih =>
    intro s s' h hs honce
    obtain ⟨s₁, hstep, h⟩ := Option.bind_eq_some_iff.mp h
    have hstepped := step_spec hstep hs
    rw [events, accepts_append, ← hstepped.safe honce, ← hstepped.left, ← hstepped.initialised]
    constructor
    · intro hgood
      obtain ⟨hsafe, hrest⟩ := hgood s₁ hstep
      exact ⟨hsafe, (ih h hstepped.sound hsafe.once).mp hrest⟩
    · rintro ⟨hsafe, hrest⟩ s₂ hstep₂
      obtain rfl : s₁ = s₂ := Option.some.inj (hstep.symm.trans hstep₂)
      exact ⟨hsafe, (ih h hstepped.sound hsafe.once).mpr hrest⟩

/-! ## The surface is freed once -/

/-- **The framebuffer in use is open, and a new surface has not been freed**, behind every sequence of
    calls; **and no buffer is freed twice, and none that is freed is copied from, exactly when** the
    first event behind a `gr_exit` that releases a buffer is a round that gets through. -/
theorem surface_freed_once (actions : List Action) (s : State)
    (h : exec step {} actions = some s) :
    InUse s ∧ (∀ a b s', gr_init a b s = some (0, s') → ¬ Dangling s') ∧
      (Good {} actions ↔ Clean (events false actions)) := by
  have hs := run_sound (reach_of_exec step {} actions h)
  refine ⟨hs.inUse, fun a b s' hinit => gr_init_not_dangling hinit hs, ?_⟩
  rw [good_iff actions h sound_start List.nodup_nil]
  exact accepts_iff _ .nothing

/-- The framebuffer is there, with these descriptors for it and for the tty. -/
def answers (tty fb0 : Int) : Answers := { tty := tty, fb0 := fb0 }

/-- Drawing, an exit, a second `gr_init` and an exit again. -/
theorem surface_freed_once_again :
    Good {} [.gr_init (answers 3 4) (answers 5 6), .gr_flip, .gr_exit,
      .gr_init (answers 7 8) (answers 9 10), .gr_get_surface true true, .gr_exit] := by
  refine ((surface_freed_once _ _ rfl).2.2).mpr ((accepts_iff _ .nothing).mp ?_)
  exact ⟨by decide, by decide, by decide, by decide, by decide, by decide, by decide, by decide,
    trivial⟩

/-- The recovery exits twice; and once, behind a `gr_init` whose second round has failed. -/
theorem freed_twice :
    (∃ s, exec step {} [.gr_init (answers 3 4) (answers 5 6), .gr_exit, .gr_exit] = some s ∧
      ¬ FreedOnce s) ∧
    ∃ s, exec step {} [.gr_init (answers 3 4) (answers 5 (-1)), .gr_exit] = some s ∧
      ¬ FreedOnce s := by
  refine ⟨⟨_, rfl, ?_⟩, ⟨_, rfl, ?_⟩⟩
  · decide
  · decide

end Codina.Recovery.Twrp
