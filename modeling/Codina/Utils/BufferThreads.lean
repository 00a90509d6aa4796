/-
  One `SharedBuffer` whose references are held by threads that take steps in any order.

  A party is one reference.  `release` is not one step: `onlyOwner` reads the count, and where that is
  not 1 the count is decremented later, when others may have released in between; who finds 1, by the
  one way or the other, clears the count and frees the buffer.  `attemptEdit` and `edit` read the count
  too and take a 1 as permission to write in place.

  The invariant counts: as long as nobody has found himself the last, the reference count is the number
  of parties still there, and an editor is the only one; from then on there is nobody else.

  Every step is atomic, and what one thread writes the others see at once.  What `onlyOwner` does stands
  in the header: it compares the count with 1.
-/
import Codina.Lib.Runs
import Mathlib.Data.List.Basic

namespace Codina.Utils.BufferThreads

open Codina.Runs

/-! ## The protocol -/

/-- Where the holder of a reference stands. -/
inductive Phase where
  | holds
  /-- May write in place. -/
  | editing
  /-- In `release`, not the only owner when it looked. -/
  | checked
  /-- In `release`, the last. -/
  | last
  /-- The count is cleared; the buffer is still there. -/
  | zeroed
  | gone
  deriving DecidableEq

structure Buffer where
  mRefs : Nat
  /-- How often `free` was called. -/
  freed : Nat
  parties : List Phase

/-- As `alloc` returns it. -/
def Buffer.alloc : Buffer := ⟨1, 0, [.holds]⟩

inductive Act where
  | acquire (i : Nat)
  /-- Read or write the data. -/
  | access (i : Nat)
  | attemptEdit (i : Nat)
  | endEdit (i : Nat)
  /-- The test at the beginning of `release`. -/
  | onlyOwner (i : Nat)
  /-- `android_atomic_dec`. -/
  | dec (i : Nat)
  /-- `mRefs = 0`. -/
  | clear (i : Nat)
  | free (i : Nat)
  | dealloc (i : Nat)

def Buffer.move (b : Buffer) (i : Nat) (p : Phase) : Buffer := { b with parties := b.parties.set i p }

/-- Who takes part in a step. -/
def Act.party : Act → Nat
  | .acquire i | .access i | .attemptEdit i | .endEdit i | .onlyOwner i | .dec i | .clear i | .free i
  | .dealloc i => i

/-- What a party does in a phase; `none` where the action does not belong there. -/
def act (b : Buffer) (p : Phase) (a : Act) : Option Buffer :=
  match a, p with
  | .acquire _, .holds => some { b with mRefs := b.mRefs + 1, parties := b.parties ++ [.holds] }
  | .access _, .holds => some b
  | .access _, .editing => some b
  -- the items are destroyed between `release` and `dealloc`
  | .access _, .zeroed => some b
  | .attemptEdit i, .holds => some (if b.mRefs = 1 then b.move i .editing else b)
  | .endEdit i, .editing => some (b.move i .holds)
  | .onlyOwner i, .holds => some (b.move i (if b.mRefs = 1 then .last else .checked))
  | .dec i, .checked =>
    some { b.move i (if b.mRefs = 1 then .last else .gone) with mRefs := b.mRefs - 1 }
  | .clear i, .last => some { b.move i .zeroed with mRefs := 0 }
  | .free i, .zeroed => some { b.move i .gone with freed := b.freed + 1 }
  | .dealloc i, .zeroed =>
    some (if b.mRefs ≠ 0 then b.move i .gone else { b.move i .gone with freed := b.freed + 1 })
  | _, _ => none

def step (b : Buffer) (a : Act) : Option Buffer := (b.parties[a.party]?).bind fun p => act b p a

/-! ## Counting the parties -/

def Phase.isLive : Phase → Bool
  | .holds | .editing | .checked => true
  | _ => false

def Phase.isEditing (p : Phase) : Bool := p = .editing

def Phase.isEnding : Phase → Bool
  | .last | .zeroed => true
  | _ => false

def Phase.isZeroed (p : Phase) : Bool := p = .zeroed

/-- How many parties there are of a sort. -/
def Buffer.number (b : Buffer) (f : Phase → Bool) : Nat := b.parties.countP f

variable {b b' : Buffer} {i : Nat} {p q : Phase} {f : Phase → Bool}

theorem weight_le_number (hp : b.parties[i]? = some p) (f : Phase → Bool) :
    (if f p then 1 else 0) ≤ b.number f := by
  by_cases hf : f p = true
  · rw [if_pos hf]
    exact List.countP_pos_iff.mpr ⟨p, List.mem_of_getElem? hp, hf⟩
  · rw [if_neg hf]
    exact Nat.zero_le _

theorem number_move (hp : b.parties[i]? = some p) (q : Phase) (f : Phase → Bool) :
    (b.move i q).number f + (if f p then 1 else 0) = b.number f + (if f q then 1 else 0) := by
  have hle : _ ≤ b.parties.countP f := weight_le_number hp f
  obtain ⟨hi, rfl⟩ := List.getElem?_eq_some_iff.mp hp
  show (b.parties.set i q).countP f + _ = b.parties.countP f + _
  rw [List.countP_set hi]
  omega

/-- Where there is one of a sort, nobody else is of it. -/
theorem eq_of_number_le_one (h1 : b.number f ≤ 1) (hg : f .gone = false) (hp : b.parties[i]? = some p)
    (hf : f p = true) {j : Nat} (hq : b.parties[j]? = some q) (hfq : f q = true) : j = i := by
  by_contra hne
  have hmove := number_move hp .gone f
  have hq' : (b.move i .gone).parties[j]? = some q := by
    show (b.parties.set i .gone)[j]? = _
    rw [List.getElem?_set_ne (Ne.symm hne), hq]
  have hpos := weight_le_number hq' f
  rw [if_pos hfq] at hpos
  rw [if_pos hf, hg, if_neg Bool.false_ne_true] at hmove
  omega

/-- A sort nobody is of. -/
theorem number_eq_zero : b.number f = 0 ↔ ∀ p ∈ b.parties, f p = false := by
  rw [Buffer.number, List.countP_eq_zero]
  simp only [Bool.not_eq_true]

/-! ## The invariant -/

/-- The count and the calls of `free`, against the numbers of parties. -/
def Balanced (mRefs freed live editing ending zeroed : Nat) : Prop :=
  (ending = 0 ∧ mRefs = live ∧ (editing ≠ 0 → live = 1) ∧ (live = 0 → freed = 1) ∧ (live ≠ 0 → freed = 0)) ∨
  (ending = 1 ∧ live = 0 ∧ freed = 0 ∧ (zeroed = 0 ∨ mRefs = 0))

def Inv (b : Buffer) : Prop :=
  Balanced b.mRefs b.freed (b.number Phase.isLive) (b.number Phase.isEditing) (b.number Phase.isEnding)
    (b.number Phase.isZeroed)

theorem inv_alloc : Inv Buffer.alloc :=
  .inl ⟨rfl, rfl, fun h => absurd rfl h, fun h => absurd h Nat.one_ne_zero, fun _ => rfl⟩

/-- After one party has moved on. -/
theorem inv_move {k n : Nat} (hp : b.parties[i]? = some p) (q : Phase)
    (h : ∀ live editing ending zeroed,
      (if p.isLive then 1 else 0) ≤ b.number Phase.isLive →
      (if p.isEnding then 1 else 0) ≤ b.number Phase.isEnding →
      live + (if p.isLive then 1 else 0) = b.number Phase.isLive + (if q.isLive then 1 else 0) →
      editing + (if p.isEditing then 1 else 0) = b.number Phase.isEditing + (if q.isEditing then 1 else 0) →
      ending + (if p.isEnding then 1 else 0) = b.number Phase.isEnding + (if q.isEnding then 1 else 0) →
      zeroed + (if p.isZeroed then 1 else 0) = b.number Phase.isZeroed + (if q.isZeroed then 1 else 0) →
      Balanced k n live editing ending zeroed) : Inv { b.move i q with mRefs := k, freed := n } :=
  h _ _ _ _ (weight_le_number hp _) (weight_le_number hp _) (number_move hp q _) (number_move hp q _)
    (number_move hp q _) (number_move hp q _)

/-- What a step can do. -/
theorem step_cases {a : Act} (hs : step b a = some b') : ∃ i p, b.parties[i]? = some p ∧
    (b' = b ∨
    (p = .holds ∧ b' = { b with mRefs := b.mRefs + 1, parties := b.parties ++ [.holds] }) ∨
    (p = .holds ∧ b.mRefs = 1 ∧ b' = b.move i .editing) ∨
    (p = .editing ∧ b' = b.move i .holds) ∨
    (p = .holds ∧ b.mRefs = 1 ∧ b' = b.move i .last) ∨
    (p = .holds ∧ b.mRefs ≠ 1 ∧ b' = b.move i .checked) ∨
    (p = .checked ∧ b.mRefs = 1 ∧ b' = { b.move i .last with mRefs := b.mRefs - 1 }) ∨
    (p = .checked ∧ b.mRefs ≠ 1 ∧ b' = { b.move i .gone with mRefs := b.mRefs - 1 }) ∨
    (p = .last ∧ b' = { b.move i .zeroed with mRefs := 0 }) ∨
    (p = .zeroed ∧ b' = { b.move i .gone with freed := b.freed + 1 }) ∨
    (p = .zeroed ∧ b.mRefs ≠ 0 ∧ b' = b.move i .gone)) := by
  obtain ⟨p, hp, hact⟩ := Option.bind_eq_some_iff.mp hs
  refine ⟨a.party, p, hp, ?_⟩
  unfold act at hact
  split at hact <;> cases hact
  case h_5 =>
    by_cases h1 : b.mRefs = 1
    · simp [h1, Act.party]
    · simp [h1]
  case h_7 => by_cases h1 : b.mRefs = 1 <;> simp [h1, Act.party]
  case h_8 => by_cases h1 : b.mRefs = 1 <;> simp [h1, Act.party]
  case h_11 => by_cases h0 : b.mRefs = 0 <;> simp [h0, Act.party]
  all_goals simp [Act.party]

/-- Numbers of the parts of a whole. -/
theorem number_le {g : Phase → Bool} (h : ∀ p, f p = true → g p = true) : b.number f ≤ b.number g :=
  List.countP_mono_left fun p _ => h p

theorem editing_le_live (b : Buffer) : b.number Phase.isEditing ≤ b.number Phase.isLive :=
  number_le fun p h => by cases p <;> first | rfl | cases h

theorem zeroed_le_ending (b : Buffer) : b.number Phase.isZeroed ≤ b.number Phase.isEnding :=
  number_le fun p h => by cases p <;> first | rfl | cases h

theorem inv_step {a : Act} (hI : Inv b) (hs : step b a = some b') : Inv b' := by
  have hedit := editing_le_live b
  have hzero := zeroed_le_ending b
  obtain ⟨i, p, hp, hcase⟩ := step_cases hs
  have hI' := hI
  unfold Inv Balanced at hI'
  rcases hcase with rfl | ⟨rfl, rfl⟩ | hmove
  · exact hI
  · have hlive := number_move hp .gone Phase.isLive
    -- he himself is no editor
    have hothers := editing_le_live (b.move i .gone)
    have hediting := number_move hp .gone Phase.isEditing
    have hone : ∀ f : Phase → Bool, (b.parties ++ [Phase.holds]).countP f = b.number f + [Phase.holds].countP f :=
      fun f => List.countP_append
    show Balanced _ _ ((b.parties ++ [Phase.holds]).countP _) ((b.parties ++ [Phase.holds]).countP _)
      ((b.parties ++ [Phase.holds]).countP _) ((b.parties ++ [Phase.holds]).countP _)
    rw [hone, hone, hone, hone]
    simp [Phase.isLive, Phase.isEditing, Phase.isEnding, Phase.isZeroed] at hlive hediting ⊢
    unfold Balanced
    omega
  -- one party has moved on: the numbers say the rest
  · rcases hmove with ⟨rfl, h1, rfl⟩ | ⟨rfl, rfl⟩ | ⟨rfl, h1, rfl⟩ | ⟨rfl, h1, rfl⟩ | ⟨rfl, h1, rfl⟩ |
      ⟨rfl, h1, rfl⟩ | ⟨rfl, rfl⟩ | ⟨rfl, rfl⟩ | ⟨rfl, h0, rfl⟩
    all_goals
      refine inv_move hp _ fun live editing ending zeroed hl hd hl' he' hd' hz' => ?_
      simp [Phase.isLive, Phase.isEditing, Phase.isEnding, Phase.isZeroed] at hl hd hl' he' hd' hz'
      dsimp only [Balanced, Buffer.move]
      omega

/-! ## Every interleaving -/

theorem eq_gone_iff : p = .gone ↔ p.isLive = false ∧ p.isEnding = false := by
  cases p <;> decide

/-- Who has let go of his reference does nothing any more. -/
theorem act_gone (b : Buffer) (a : Act) : act b .gone a = none := by
  cases a <;> rfl

theorem all_gone_iff : (∀ p ∈ b.parties, p = .gone) ↔
    b.number Phase.isLive = 0 ∧ b.number Phase.isEnding = 0 := by
  rw [number_eq_zero, number_eq_zero]
  constructor
  · intro h
    exact ⟨fun p hp => (eq_gone_iff.mp (h p hp)).1, fun p hp => (eq_gone_iff.mp (h p hp)).2⟩
  · rintro ⟨hl, he⟩ p hp
    exact eq_gone_iff.mpr ⟨hl p hp, he p hp⟩

/-- A phase that shuts all others out. -/
def Phase.Exclusive (p : Phase) : Prop := p = .editing ∨ p = .last ∨ p = .zeroed

theorem others_gone (hI : Inv b) (hp : b.parties[i]? = some p) (hx : p.Exclusive) {j : Nat}
    (hq : b.parties[j]? = some q) (hj : j ≠ i) : q = .gone := by
  unfold Inv Balanced at hI
  have hqlive := weight_le_number hq Phase.isLive
  have hqending := weight_le_number hq Phase.isEnding
  refine eq_gone_iff.mpr ⟨Bool.eq_false_iff.mpr fun hl => ?_, Bool.eq_false_iff.mpr fun he => ?_⟩
  · rw [if_pos hl] at hqlive
    rcases hx with rfl | hx
    · have hedit : 1 ≤ b.number Phase.isEditing := weight_le_number hp Phase.isEditing
      exact hj (eq_of_number_le_one (by omega) rfl hp rfl hq hl)
    · have hend : p.isEnding = true := by rcases hx with rfl | rfl <;> rfl
      have hending := weight_le_number hp Phase.isEnding
      rw [if_pos hend] at hending
      omega
  · rw [if_pos he] at hqending
    rcases hx with rfl | hx
    · have hedit : 1 ≤ b.number Phase.isEditing := weight_le_number hp Phase.isEditing
      have hlive : 1 ≤ b.number Phase.isLive := weight_le_number hp Phase.isLive
      omega
    · have hend : p.isEnding = true := by rcases hx with rfl | rfl <;> rfl
      exact hj (eq_of_number_le_one (by omega) rfl hp hend hq he)

/-- **Freed once, and never used after.**  In every interleaving of the steps of any number of threads,
    the buffer is freed at most once, no step touches it afterwards, it has been freed exactly when all
    its references are gone, and a thread that edits in place, or has found itself the last, is the only
    one that still holds a reference. -/
theorem buffer_freed_once {b : Buffer} (hrun : Reach step Buffer.alloc b) :
    b.freed ≤ 1 ∧
    (∀ a b', step b a = some b' → b.freed = 0) ∧
    (b.freed = 1 ↔ ∀ p ∈ b.parties, p = .gone) ∧
    ∀ (i j : Nat) (p q : Phase), b.parties[i]? = some p → p.Exclusive →
      b.parties[j]? = some q → j ≠ i → q = .gone := by
  have hI : Inv b := hrun.inv inv_alloc fun _ _ _ hI _ hs => inv_step hI hs
  have hnum := hI
  unfold Inv Balanced at hnum
  refine ⟨by omega, fun a b' hs => ?_, ?_, fun i j p q hp hx hq hj => others_gone hI hp hx hq hj⟩
  · obtain ⟨p, hp, hact⟩ := Option.bind_eq_some_iff.mp hs
    have hne : p ≠ .gone := by
      rintro rfl
      rw [act_gone] at hact
      cases hact
    have hlive := weight_le_number hp Phase.isLive
    have hending := weight_le_number hp Phase.isEnding
    by_cases hl : p.isLive = true
    · rw [if_pos hl] at hlive
      omega
    · have he : p.isEnding = true := by
        by_contra he
        exact hne (eq_gone_iff.mpr ⟨Bool.eq_false_iff.mpr hl, Bool.eq_false_iff.mpr he⟩)
      rw [if_pos he] at hending
      omega
  · rw [all_gone_iff]
    omega

/-- Two references; both threads look while the other is there, and decrement one after the other. -/
def crossing : List Act :=
  [.acquire 0, .onlyOwner 0, .onlyOwner 1, .dec 1, .dec 0, .clear 0, .access 0, .dealloc 0]

theorem buffer_freed_once_crossing : ∃ b, exec step Buffer.alloc crossing = some b ∧ b.freed = 1 ∧
    ∀ p ∈ b.parties, p = .gone :=
  ⟨_, rfl, rfl, (buffer_freed_once (reach_of_exec _ _ crossing rfl)).2.2.1.mp rfl⟩

end Codina.Utils.BufferThreads
