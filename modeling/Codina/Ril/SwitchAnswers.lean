/-
  The network-type switch and its callers.

  Every caller passes a Message and should have it back once.  A handler keeps the Message in a single
  slot, so a second switch that reaches the handler before the first one is done overwrites it, and
  the first caller never hears (`message_lost`); the first completion then empties the slot, and the
  second finds nothing to answer and crashes the process.  A call for a type that looks unchanged
  forgets its Message as well.

  In runs that keep to one switch per handler and pass a Message, nobody is lost (`nobody_lost`): by
  `Held`, a handler under way has exactly one pending step and a Message in its slot, so the Messages
  and the switches under way correspond one to one.  Every other call goes wrong (`overlap_loses`).
-/
import Codina.Ril.SwitchPending

namespace Codina.Ril

open Codina.Runs

/-! ## Every Message in one place -/

def ExactlyOne (p q r : Prop) : Prop := (p ∧ ¬ q ∧ ¬ r) ∨ (¬ p ∧ q ∧ ¬ r) ∨ (¬ p ∧ ¬ q ∧ r)

/-- Every Message passed has been sent once, or is attached to an outstanding request, or is in the
    slot of a handler under way; and no handler ever found its slot empty. -/
def NobodyLost (s : State) : Prop :=
  (∀ m, Passed s m → sent s m ≤ 1 ∧
    ExactlyOne (sent s m = 1) (∃ rr ∈ s.mRequestList, rr.mResult = some (.caller m))
      (∃ h, UnderWay s h ∧ slot s h = some m)) ∧
  s.crashed = false

/-- A call that has to wait for the data connection passes a Message and finds the handler free; one
    for a type that looks unchanged passes none. -/
def OneSwitchEach (s : State) : Action → Prop
  | .setPreferredNetworkType t r => needReconnect s.platform = true →
      if hasNetworkTypeChanged t s.platform.networkClass then
        r = true ∧ ∀ h, s.mSamsungu8500RILHandler = some h → ¬ UnderWay s h
      else r = false
  | _ => True

/-- The invariant: a handler under way has one pending step and a Message in its slot, and every
    Message passed is on its way out or in such a slot. -/
structure Held (s : State) : Prop where
  one : ∀ h, pending s h ≤ 1
  full : ∀ h, 0 < pending s h → ∃ m, slot s h = some m
  kept : ∀ m : Nat, Passed s m → away s m = 1 ∨ ∃ h, 0 < pending s h ∧ slot s h = some m
  alive : s.crashed = false

theorem held_init (networkMode : Int) (p : Platform) : Held (State.init networkMode p) where
  one := by simp [State.init, pending]
  full := by simp [State.init, pending]
  kept := by simp [State.init, Passed]
  alive := rfl

/-- Steps that change no count keep the invariant. -/
theorem held_same {s s' : State} (hi : Held s) (hpend : ∀ h, pending s' h = pending s h)
    (hslot : ∀ h, slot s' h = slot s h) (haway : ∀ m : Nat, away s' m = away s m)
    (hpass : ∀ m, Passed s' m → Passed s m) (hal : s'.crashed = s.crashed) : Held s' where
  one := by
    intro h
    exact hpend h ▸ hi.one h
  full := by
    intro h hp
    exact hslot h ▸ hi.full h (hpend h ▸ hp)
  kept := by
    intro m hm
    rw [haway]
    refine (hi.kept m (hpass m hm)).imp id ?_
    rintro ⟨h, hp, hs⟩
    exact ⟨h, hpend h ▸ hp, hslot h ▸ hs⟩
  alive := hal ▸ hi.alive

/-- Where the condition holds, the handler a deferred call uses has no pending step. -/
theorem idle_of_oneSwitchEach {s : State} {t : Int} {r : Bool} (hc : Created s)
    (hok : OneSwitchEach s (.setPreferredNetworkType t r)) (hnr : needReconnect s.platform = true)
    (hch : hasNetworkTypeChanged t s.platform.networkClass = true) :
    r = true ∧ pending s (currentHandler s) = 0 := by
  have hcond := hok hnr
  rw [if_pos hch] at hcond
  refine ⟨hcond.1, ?_⟩
  cases hcur : s.mSamsungu8500RILHandler with
  | none =>
    have hfresh : currentHandler s = s.numHandlers := by simp [currentHandler, hcur]
    have := hc.underWay s.numHandlers
    rw [hfresh]
    omega
  | some h =>
    have hsome : currentHandler s = h := by simp [currentHandler, hcur]
    have := mt underWay_iff.mpr (hcond.2 h hcur)
    rw [hsome]
    omega

/-- A direct call: its Message is attached to a request. -/
theorem held_direct {s s' : State} {t : Int} {r : Bool} (ho : Once s) (hi : Held s)
    (hpend : ∀ h, pending s' h = pending s h) (hslot : ∀ h, slot s' h = slot s h)
    (haway : ∀ m : Nat, away s' m = away s m + if newMessage s r = some m then 1 else 0)
    (hcalls : s'.calls = (recordCall s t r).calls) (hal : s'.crashed = s.crashed) : Held s' := by
  constructor
  case one =>
    intro h
    exact hpend h ▸ hi.one h
  case full =>
    intro h hp
    exact hslot h ▸ hi.full h (hpend h ▸ hp)
  case kept =>
    intro m hm
    rcases (passed_recordCall hcalls).mp hm with hm | hm
    · rw [away_old haway (Nat.ne_of_lt (ho.passed_lt m hm))]
      refine (hi.kept m hm).imp id ?_
      rintro ⟨h, hp, hs⟩
      exact ⟨h, hpend h ▸ hp, hslot h ▸ hs⟩
    · have h0 := ho.fresh m (Nat.le_of_eq (newMessage_eq hm).symm)
      exact Or.inl (by rw [haway m, if_pos hm, h0])
  case alive => exact hal ▸ hi.alive

/-- A deferred call that finds the current handler idle: the switch that begins is its only one. -/
theorem held_opened {s s' : State} {t : Int} {r : Bool} (hi : Held s)
    (hr : r = true) (hidle : pending s (currentHandler s) = 0)
    (hpos : 0 < pending s' (currentHandler s)) (hle : pending s' (currentHandler s) ≤ 1)
    (hpend : ∀ h, h ≠ currentHandler s → pending s' h = pending s h)
    (hnew : slot s' (currentHandler s) = newMessage s r)
    (hslot : ∀ h, h ≠ currentHandler s → slot s' h = slot s h)
    (haway : ∀ m : Nat, away s' m = away s m) (hcalls : s'.calls = (recordCall s t r).calls)
    (hal : s'.crashed = s.crashed) : Held s' := by
  constructor
  case one =>
    intro h
    by_cases hh : h = currentHandler s
    · exact hh ▸ hle
    · exact hpend h hh ▸ hi.one h
  case full =>
    intro h hp
    by_cases hh : h = currentHandler s
    · subst hh
      exact ⟨s.calls.length, by rw [hnew, hr]; rfl⟩
    · exact hslot h hh ▸ hi.full h (hpend h hh ▸ hp)
  case kept =>
    intro m hm
    rw [haway]
    rcases (passed_recordCall hcalls).mp hm with hm | hm
    · refine (hi.kept m hm).imp id ?_
      rintro ⟨h, hp, hs⟩
      have hh : h ≠ currentHandler s := by
        intro hh
        rw [hh, hidle] at hp
        exact absurd hp (Nat.lt_irrefl 0)
      exact ⟨h, hpend h hh ▸ hp, hslot h hh ▸ hs⟩
    · exact Or.inr ⟨currentHandler s, hpos, hnew ▸ hm⟩
  case alive => exact hal ▸ hi.alive

/-- A handler that is done: its last step is gone, and the Message with it. -/
theorem held_closed {s s' : State} {h₀ : HandlerId} {m₀ : Nat} (ho : Once s) (hi : Held s)
    (hm₀ : slot s h₀ = some m₀) (hself : pending s h₀ = pending s' h₀ + 1)
    (hpend : ∀ h, h ≠ h₀ → pending s' h = pending s h)
    (hslot : ∀ h, h ≠ h₀ → slot s' h = slot s h)
    (haway : ∀ m : Nat, away s' m = away s m + if m₀ = m then 1 else 0)
    (hcalls : s'.calls = s.calls) (hal : s'.crashed = s.crashed) : Held s' := by
  have h0 : away s m₀ = 0 := ho.kept h₀ m₀ hm₀
  have hlast := hi.one h₀
  constructor
  case one =>
    intro h
    by_cases hh : h = h₀
    · rw [hh]
      omega
    · exact hpend h hh ▸ hi.one h
  case full =>
    intro h hp
    have hh : h ≠ h₀ := by
      intro hh
      rw [hh] at hp
      omega
    exact hslot h hh ▸ hi.full h (hpend h hh ▸ hp)
  case kept =>
    intro m hm
    rw [haway m]
    by_cases heq : m₀ = m
    · exact Or.inl (by rw [if_pos heq, ← heq, h0])
    · rw [if_neg heq, Nat.add_zero]
      refine (hi.kept m ((passed_congr hcalls).mp hm)).imp id ?_
      rintro ⟨h, hp, hs⟩
      have hh : h ≠ h₀ := by
        intro hh
        rw [hh, hm₀] at hs
        exact heq (Option.some.inj hs)
      exact ⟨h, hpend h hh ▸ hp, hslot h hh ▸ hs⟩
  case alive => exact hal ▸ hi.alive

theorem held_step {s s' : State} {a : Action} (ho : Once s) (hc : Created s) (hi : Held s)
    (hok : OneSwitchEach s a) (hch : Change s a s') : Held s' := by
  cases hch with
  | moved _ _ _ hpend hslot haway hcalls hal _ =>
    exact held_same hi hpend hslot haway (fun _ => (passed_congr hcalls).mp) hal
  | unchanged t r _ hnr hsame hpend hslot haway hcalls hal _ =>
    have hr : r = false := by
      have hcond := hok hnr
      rwa [if_neg (by simp [hsame])] at hcond
    refine held_same hi hpend hslot haway (fun m hm => ?_) hal
    rcases (passed_recordCall hcalls).mp hm with hm | hm
    · exact hm
    · exact absurd hm (by simp [hr, newMessage])
  | direct t r _ _ hpend hslot haway hcalls hal _ => exact held_direct ho hi hpend hslot haway hcalls hal
  | opened t r _ hnr hchg hreg hself hpend hnew hslot haway hcalls hal _ =>
    -- the handler was idle, so the switch that begins is its only one
    obtain ⟨hr, hidle⟩ := idle_of_oneSwitchEach hc hok hnr hchg
    have hpos : 0 < pending s' (currentHandler s) := underWay_iff.mp (Or.inl hreg)
    have hle : pending s' (currentHandler s) ≤ 1 := by
      rw [hself, hidle]
      split <;> omega
    exact held_opened hi hr hidle hpos hle hpend hnew hslot haway hcalls hal
  | closed h₀ c m₀ _ hm₀ hself hpend _ hslot haway hcalls hal _ =>
    exact held_closed ho hi hm₀ hself hpend hslot haway hcalls hal
  | crashed h₀ c _ hnone hself _ _ _ _ _ _ =>
    obtain ⟨m, hm⟩ := hi.full h₀ (by omega)
    exact absurd hm (by simp [hnone])

theorem attached_pos_iff {s : State} {m : Message} :
    0 < attached s m ↔ ∃ rr ∈ s.mRequestList, rr.mResult = some (.caller m) := by
  simp [attached, List.countP_pos_iff]

theorem nobodyLost_of_held {s : State} (ho : Once s) (hi : Held s) : NobodyLost s := by
  refine ⟨fun m hm => ?_, hi.alive⟩
  have hle := ho.once m
  rw [← attached_pos_iff]
  unfold away at hle
  refine ⟨by omega, ?_⟩
  rcases hi.kept m hm with hout | ⟨h, hp, hs⟩
  · have hnot : ¬ ∃ h, UnderWay s h ∧ slot s h = some m := by
      rintro ⟨h, _, hs⟩
      have := ho.kept h m hs
      omega
    unfold away at hout
    by_cases hsent : sent s m = 1
    · exact Or.inl ⟨hsent, by omega, hnot⟩
    · exact Or.inr (Or.inl ⟨hsent, by omega, hnot⟩)
  · have h0 := ho.kept h m hs
    unfold away at h0
    exact Or.inr (Or.inr ⟨by omega, by omega, h, underWay_iff.mpr hp, hs⟩)

/-- A Message that has gone nowhere and is in no slot is lost. -/
theorem lost_of_nowhere {s : State} {m : Message} (hm : Passed s m) (haway : away s m = 0)
    (hslot : ∀ h, slot s h ≠ some m) : ¬ NobodyLost s := by
  rintro ⟨hall, _⟩
  unfold away at haway
  have hnowhere : ¬ ∃ rr ∈ s.mRequestList, rr.mResult = some (.caller m) := fun hatt => by
    have := attached_pos_iff.mpr hatt
    omega
  rcases (hall m hm).2 with ⟨hsent, _⟩ | ⟨_, hatt, _⟩ | ⟨_, _, h, _, hs⟩
  · omega
  · exact hnowhere hatt
  · exact hslot h hs

/-- The excluded calls are the ones that go wrong: a Message is lost at once, or a handler is left
    under way with nobody to answer. -/
theorem overlap_loses {s s' : State} {a : Action} (ho : Once s) (hi : Held s)
    (hbad : ¬ OneSwitchEach s a) (hch : Change s a s') :
    ¬ NobodyLost s' ∨ ∃ h, UnderWay s' h ∧ slot s' h = none := by
  cases hch with
  | direct t r _ hnr => exact absurd (fun hyes => absurd (hnr.symm.trans hyes) (by simp)) hbad
  | unchanged t r _ hnr hsame hpend hslot haway hcalls hal _ =>
    -- the Message of the call itself is forgotten
    obtain rfl : r = true := by
      by_contra hr
      exact hbad fun _ => by simpa [hsame] using hr
    have hm : newMessage s true = some s.calls.length := rfl
    refine Or.inl (lost_of_nowhere (m := s.calls.length) ?_ ?_ fun h hs => ?_)
    · exact (passed_recordCall hcalls).mpr (Or.inr hm)
    · rw [haway]
      exact ho.fresh _ (Nat.le_refl _)
    · have := ho.slot_lt (hslot h ▸ hs)
      omega
  | opened t r _ hnr hchg hreg hself hpend hnew hslot haway hcalls hal _ =>
    cases r with
    | false => exact Or.inr ⟨currentHandler s, Or.inl hreg, hnew⟩
    | true =>
      -- the handler is taken over while it owes another caller an answer
      obtain ⟨hcur, hunder⟩ : s.mSamsungu8500RILHandler = some (currentHandler s) ∧
          UnderWay s (currentHandler s) := by
        by_contra hfree
        refine hbad fun _ => ?_
        rw [if_pos hchg]
        refine ⟨rfl, fun h hh hu => hfree ?_⟩
        have heq : currentHandler s = h := by simp [currentHandler, hh]
        exact heq ▸ ⟨hh, hu⟩
      obtain ⟨m, hm⟩ := hi.full _ (underWay_iff.mp hunder)
      have hlt := ho.slot_lt hm
      refine Or.inl (lost_of_nowhere (m := m) ?_ ?_ fun h hs => ?_)
      · exact (passed_recordCall hcalls).mpr (Or.inl (ho.slot_passed _ m hm))
      · rw [haway]
        exact ho.kept _ m hm
      · by_cases hh : h = currentHandler s
        · subst hh
          have := newMessage_eq (hnew ▸ hs)
          omega
        · exact hh (ho.slot_inj h _ m (hslot h hh ▸ hs) hm)
  | moved _ _ hno =>
    cases a with
    | setPreferredNetworkType t r => exact absurd rfl (hno t r)
    | platform | connectivityAction | onLost | onReceive | processSolicited | handleMessage =>
      exact absurd trivial hbad
  | closed | crashed => exact absurd trivial hbad

section

variable {Obj Thr : Type} (decode : Decode Obj Thr)

theorem run_held {networkMode : Int} {p : Platform} {s : State}
    (hrun : Run (step decode) OneSwitchEach (State.init networkMode p) s) : Held s := by
  refine hrun.inv_staged (held_init networkMode p) ?_
  intro _ _ _ hpre hi hok hs
  exact held_step (run_once hpre) (run_created hpre) hi hok (change (step_effect hs).2)

/-- **No caller is lost or answered twice** in every run that keeps to one switch per handler. -/
theorem nobody_lost (networkMode : Int) (p : Platform) (s : State)
    (hrun : Run (step decode) OneSwitchEach (State.init networkMode p) s) : NobodyLost s :=
  nobodyLost_of_held (run_once hrun) (run_held decode hrun)

end

/-- A deferred switch, then a second one that reuses the handler. -/
theorem nobody_lost_reused :
    ∃ s, Run (step voidDecode) OneSwitchEach (State.init 0 dataUp) s ∧ NobodyLost s ∧
      s.completed = [(0, false)] ∧ slot s 0 = some 1 := by
  have hrun := run_of_exec (step voidDecode) OneSwitchEach (State.init 0 dataUp)
    [.setPreferredNetworkType 3 true, .platform dataDown, .connectivityAction true,
      .onReceive 0 true, .processSolicited (replyParcel 0 0), .handleMessage 0 0,
      .platform dataUp, .setPreferredNetworkType 2 true]
    ⟨fun _ => ⟨rfl, fun h hh => absurd hh (by simp [State.init])⟩, trivial, trivial, trivial,
      trivial, trivial, trivial, fun _ => ⟨rfl, fun h hh => by
        cases hh
        exact fun hu => absurd (underWay_iff.mp hu) (by decide)⟩, trivial⟩ rfl
  exact ⟨_, hrun, nobody_lost voidDecode 0 dataUp _ hrun, rfl, rfl⟩

/-- A second call before the broadcast overwrites the slot: the first Message is nowhere. -/
theorem message_lost :
    ¬ ∀ (networkMode : Int) (p : Platform) (s : State),
      Reach (step voidDecode) (State.init networkMode p) s → NobodyLost s := by
  intro hall
  have hreach := reach_of_exec (step voidDecode) (State.init 0 dataUp)
    [.setPreferredNetworkType 3 true, .platform dataUp, .setPreferredNetworkType 2 true]
    rfl
  have hlost := (hall 0 dataUp _ hreach).1 0 ⟨_, List.mem_cons_self, rfl⟩
  rcases hlost.2 with ⟨hsent, _⟩ | ⟨_, ⟨rr, hrr, _⟩, _⟩ | ⟨_, _, h, _, hs⟩
  · exact absurd hsent (by decide)
  · exact absurd hrr List.not_mem_nil
  · cases h with
    | zero => exact absurd hs (by decide)
    | succ h => exact absurd (show (none : Option Message) = some 0 from hs) (by simp)

end Codina.Ril
