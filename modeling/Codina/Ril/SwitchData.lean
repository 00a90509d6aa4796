/-
  The network-type switch and mobile data.

  Two questions about the data connection.  Is it ever left off?  Yes: `setMobileDataEnabled` swallows
  whatever `setDataEnabled` throws, and when that happens to the handler that should turn data on
  again nothing is left that would (`data_stranded`).  In every run where such an exception only hits
  a handler while another step is pending, some handler always has a step to take, whatever the order
  of the steps and even when the RIL has dropped the handler (`data_never_stranded`); any other such
  exception leaves data off for good (`swallowed_strands`).

  Is the modem ever told a type while a data call is up, which is what the handler exists to avoid?
  Yes: the `NetworkCallback` is registered for every network, so losing ANY network broadcasts
  `EXTRA_NO_CONNECTIVITY`, and the receiver believes it (`written_while_connected`).  The type is
  written with data down in every run where calls made with data up are seen by `NeedReconnect`, such
  broadcasts are only sent with data down, and data does not come up while one is on its way
  (`never_written_while_connected`); any other signal leads to a write with data up
  (`untruthful_writes`).
-/
import Codina.Ril.SwitchPending

namespace Codina.Ril

open Codina.Runs

/-! ## Mobile data is not stranded off -/

/-- The last change of the mobile data switch is a handler's turning it off. -/
def OffByHandler (s : State) : Prop := ∃ h, s.lastDataSwitch = some (h, false)

/-- When a handler has turned mobile data off, the process is alive and some handler still has a step
    to take. -/
def NeverStranded (s : State) : Prop :=
  s.platform.mobileDataEnabled = false → OffByHandler s →
    s.crashed = false ∧ ∃ h, UnderWay s h

/-- `setDataEnabled(true)` throws, with data off by a handler's doing, only while a step other than
    the one being taken is pending (and the one being taken does not end the process). -/
def LeavesAnother (s : State) : Action → Prop
  | .handleMessage h _ =>
    s.platform.setDataEnabledThrows = true → OffByHandler s →
      (slot s h).isSome = true ∧ ∃ h', (if h' = h then 1 else 0) < pending s h'
  | _ => True

/-- The invariant: the process that turned data off lives, and a step is pending. -/
def SwitchPending (s : State) : Prop :=
  OffByHandler s → s.crashed = false ∧ ∃ h, 0 < pending s h

/-- A handler that fails to turn data on leaves what was there. -/
theorem off_before {h : HandlerId} {s s' : State} (hlast : s'.lastDataSwitch = lastSwitch h true s)
    (hoff : OffByHandler s') : s.platform.setDataEnabledThrows = true ∧ OffByHandler s := by
  obtain ⟨h', hoff⟩ := hoff
  rw [hlast] at hoff
  unfold lastSwitch at hoff
  split at hoff
  · rename_i hthrows
    exact ⟨hthrows, h', hoff⟩
  · exact absurd hoff (by simp)

/-- Delivering a Message takes one pending step from its handler. -/
theorem pending_other {s s' : State} {h h' : HandlerId} (hself : pending s h = pending s' h + 1)
    (hpend : ∀ h', h' ≠ h → pending s' h' = pending s h') :
    (if h' = h then 1 else 0) < pending s h' ↔ 0 < pending s' h' := by
  by_cases hh : h' = h
  · subst hh
    rw [if_pos rfl, hself]
    omega
  · rw [if_neg hh, hpend h' hh]

theorem switchPending_step {s s' : State} {a : Action} (hi : SwitchPending s)
    (hlive : s.crashed = false) (hok : LeavesAnother s a) (he : Effect s a s') :
    SwitchPending s' := by
  -- a step that takes no pending step away and leaves the switch alone
  have hsame : (∀ h, pending s' h = pending s h) → s'.crashed = s.crashed →
      (s'.lastDataSwitch = s.lastDataSwitch ∨ s'.lastDataSwitch = none) → SwitchPending s' := by
    rintro hpend hcr hkept ⟨h, hlast⟩
    rcases hkept with hk | hk
    · obtain ⟨_, h', hp⟩ := hi ⟨h, hk ▸ hlast⟩
      exact ⟨hcr ▸ hlive, h', hpend h' ▸ hp⟩
    · exact absurd hlast (by simp [hk])
  cases change he with
  | moved _ _ _ hpend _ _ _ hcr hkept => exact hsame hpend hcr hkept
  | direct _ _ _ _ hpend _ _ _ hcr hk => exact hsame hpend hcr (Or.inl hk)
  | unchanged _ _ _ _ _ hpend _ _ _ hcr hk => exact hsame hpend hcr (Or.inl hk)
  | opened _ _ _ _ _ hr _ _ _ _ _ _ hcr =>
    intro _
    exact ⟨hcr ▸ hlive, currentHandler s, underWay_iff.mp (Or.inl hr)⟩
  | closed h _ _ _ _ hself hpend _ _ _ _ hcr hlast =>
    intro hoff
    obtain ⟨hthrows, hoff⟩ := off_before hlast hoff
    obtain ⟨_, h', hp⟩ := hok hthrows hoff
    exact ⟨hcr ▸ hlive, h', (pending_other hself hpend).mp hp⟩
  | crashed h _ _ hnone _ _ _ _ _ _ hlast =>
    intro hoff
    obtain ⟨hthrows, hoff⟩ := off_before hlast hoff
    exact absurd (hok hthrows hoff).1 (by simp [hnone])

/-- The history of the switch says how it stands. -/
def SwitchTold (s : State) : Prop :=
  ∀ h b, s.lastDataSwitch = some (h, b) → s.platform.mobileDataEnabled = b

theorem switchTold_set {s s' : State} (hi : SwitchTold s) {h : HandlerId} {enabled : Bool}
    (hp : s'.platform = s.platform.setDataEnabled enabled)
    (hlast : s'.lastDataSwitch = lastSwitch h enabled s) : SwitchTold s' := by
  intro h' b hb
  rw [hlast] at hb
  rw [hp]
  unfold lastSwitch at hb
  unfold Platform.setDataEnabled
  by_cases ht : s.platform.setDataEnabledThrows = true
  · rw [if_pos ht] at hb ⊢
    exact hi h' b hb
  · rw [if_neg ht] at hb ⊢
    cases hb
    rfl

theorem switchTold_step {s s' : State} {a : Action} (hi : SwitchTold s) (he : Effect s a s') :
    SwitchTold s' := by
  cases he with
  | deferred t r _ _ => exact switchTold_set hi rfl rfl
  | handled h c m _ _ => exact switchTold_set hi rfl rfl
  | crashed h c _ _ => exact switchTold_set hi rfl rfl
  | platform p =>
    intro h b hb
    simp only [changePlatform] at hb ⊢
    split at hb
    · rename_i heq
      exact heq ▸ hi h b hb
    · exact absurd hb (by simp)
  | direct | unchanged | connectivityAction | onLost | ignored | received | unexpected
  | answeredNobody | answeredCaller | answeredHandler => exact hi

section

variable {Obj Thr : Type} (decode : Decode Obj Thr)

/-- The excluded steps are the ones that go wrong: data stays off and nobody will turn it on. -/
theorem swallowed_strands {networkMode : Int} {p : Platform} {s s' : State} {a : Action}
    (hreach : Reach (step decode) (State.init networkMode p) s) (hbad : ¬ LeavesAnother s a)
    (hs : step decode s a = some s') : ¬ NeverStranded s' := by
  have htold : SwitchTold s' := by
    refine (Run.next a hreach trivial hs).inv (fun h b hb => absurd hb (by simp [State.init])) ?_
    intro _ _ _ hi _ hs
    exact switchTold_step hi (step_effect hs).2
  -- the exception leaves the switch as it was
  have hoff : ∀ h, s.platform.setDataEnabledThrows = true → OffByHandler s →
      s'.lastDataSwitch = lastSwitch h true s →
      s'.platform.mobileDataEnabled = false ∧ OffByHandler s' := by
    rintro h hthrows ⟨h', hoff⟩ hlast
    have hlast' : s'.lastDataSwitch = some (h', false) := by
      rw [hlast, lastSwitch, if_pos hthrows, hoff]
    exact ⟨htold h' false hlast', h', hlast'⟩
  intro hnever
  cases change (step_effect hs).2 with
  | closed h _ _ _ hm hself hpend _ _ _ _ _ hlast =>
    simp only [LeavesAnother, Classical.not_imp] at hbad
    obtain ⟨hthrows, hby, hnone⟩ := hbad
    obtain ⟨hd, hby'⟩ := hoff h hthrows hby hlast
    obtain ⟨_, h', hu⟩ := hnever hd hby'
    exact hnone ⟨by simp [hm], h', (pending_other hself hpend).mpr (underWay_iff.mp hu)⟩
  | crashed h _ _ _ _ _ _ _ _ hcr hlast =>
    simp only [LeavesAnother, Classical.not_imp] at hbad
    obtain ⟨hthrows, hby, _⟩ := hbad
    obtain ⟨hd, hby'⟩ := hoff h hthrows hby hlast
    exact absurd (hnever hd hby').1 (by simp [hcr])
  | moved _ _ _ _ _ _ _ _ _ hnot =>
    cases a with
    | handleMessage h c => exact absurd rfl (hnot h c)
    | setPreferredNetworkType | platform | connectivityAction | onLost | onReceive
    | processSolicited => exact hbad trivial
  | direct | unchanged | opened => exact hbad trivial

/-- **Mobile data is not stranded off**, in every run where no handler's last pending step meets an
    exception. -/
theorem data_never_stranded (networkMode : Int) (p : Platform) (s : State)
    (hrun : Run (step decode) LeavesAnother (State.init networkMode p) s) : NeverStranded s := by
  have hinv : SwitchPending s := by
    refine hrun.inv (fun ⟨h, hl⟩ => absurd hl (by simp [State.init])) ?_
    intro _ _ _ hi hok hs
    obtain ⟨hlive, heff⟩ := step_effect hs
    exact switchPending_step hi hlive hok heff
  intro _ hoff
  obtain ⟨hlive, h, hp⟩ := hinv hoff
  exact ⟨hlive, h, underWay_iff.mpr hp⟩

end

/-- Mobile data off, and a telephony service that throws. -/
def serviceDown : Platform := { dataDown with setDataEnabledThrows := true }

/-- A switch is dropped by a direct call and a second one deferred.  The first one completes while the
    service throws, and the second handler is still listening. -/
theorem data_never_stranded_dropped :
    ∃ s, Run (step voidDecode) LeavesAnother (State.init 0 dataUp) s ∧ NeverStranded s ∧
      s.mSamsungu8500RILHandler = some 1 ∧ s.platform.mobileDataEnabled = false := by
  have hrun := run_of_exec (step voidDecode) LeavesAnother (State.init 0 dataUp)
    [.setPreferredNetworkType 3 true, .platform dataDown, .setPreferredNetworkType 2 true,
      .platform dataUp, .connectivityAction true, .setPreferredNetworkType 3 true,
      .onReceive 0 true, .processSolicited (replyParcel 1 0), .platform serviceDown,
      .handleMessage 0 0]
    ⟨trivial, trivial, trivial, trivial, trivial, trivial, trivial, trivial, trivial,
      fun _ _ => ⟨rfl, 1, by decide⟩, trivial⟩
    rfl
  exact ⟨_, hrun, data_never_stranded voidDecode 0 dataUp _ hrun, rfl, rfl⟩

/-- The only switch completes while the service throws: data stays off and nothing is pending. -/
theorem data_stranded :
    ¬ ∀ (networkMode : Int) (p : Platform) (s : State),
      Reach (step voidDecode) (State.init networkMode p) s → NeverStranded s := by
  intro hall
  have hreach := reach_of_exec (step voidDecode) (State.init 0 dataUp)
    [.setPreferredNetworkType 3 true, .platform dataDown, .connectivityAction true,
      .onReceive 0 true, .processSolicited (replyParcel 0 0), .platform serviceDown,
      .handleMessage 0 0]
    rfl
  obtain ⟨_, h, hu⟩ := hall 0 dataUp _ hreach rfl ⟨0, rfl⟩
  have hp := underWay_iff.mp hu
  have hlt := (run_created hreach).underWay h hp
  obtain rfl : h = 0 := Nat.lt_one_iff.mp hlt
  exact absurd hp (by decide)

/-! ## Writing to the modem while data is up -/

/-- Every request was written to the modem while the mobile data connection was down. -/
def WrittenWhileDown (s : State) : Prop := ∀ w ∈ s.writes, w.mobileConnected = false

/-- Calls made with the data connection up are seen by `NeedReconnect`; broadcasts that say there is
    no connectivity are sent to a receiver with the data connection down, and it stays down until they
    arrive. -/
def TruthfulSignals (s : State) : Action → Prop
  | .setPreferredNetworkType _ _ =>
    s.platform.mobileConnected = true → needReconnect s.platform = true
  | .connectivityAction noConnectivity =>
    noConnectivity = true → (∃ h, (s.handlers h).isRegistered = true) →
      s.platform.mobileConnected = false
  | .onLost _ => s.platform.mobileConnected = false
  | .platform p => p.mobileConnected = true → ∀ h, (h, true) ∉ s.broadcasts
  | _ => True

/-- The invariant: what is on its way to a receiver is still true. -/
structure SignalsHold (s : State) : Prop where
  written : WrittenWhileDown s
  inFlight : ∀ h, (h, true) ∈ s.broadcasts → s.platform.mobileConnected = false

theorem mem_sendBroadcast {s : State} {b : Bool} {e : HandlerId × Bool}
    (h : e ∈ (sendBroadcast b s).broadcasts) :
    e ∈ s.broadcasts ∨ (e.2 = b ∧ (s.handlers e.1).isRegistered = true) := by
  simp only [sendBroadcast, List.mem_append, List.mem_map, List.mem_filter] at h
  rcases h with h | ⟨_, ⟨_, hr⟩, rfl⟩
  · exact Or.inl h
  · exact Or.inr ⟨rfl, hr⟩

/-- A broadcast goes to every registered receiver. -/
theorem sendBroadcast_mem {s : State} (hcr : Created s) (b : Bool) {h : HandlerId}
    (hr : (s.handlers h).isRegistered = true) : (h, b) ∈ (sendBroadcast b s).broadcasts := by
  have hlt : h < s.numHandlers := hcr.underWay h (underWay_iff.mp (Or.inl hr))
  simp only [sendBroadcast, List.mem_append, List.mem_map, List.mem_filter, List.mem_range]
  exact Or.inr ⟨h, ⟨hlt, hr⟩, rfl⟩

/-- A write made while the data connection is down keeps the first half of the invariant. -/
theorem written_append {s : State} {t : Int} (hw : WrittenWhileDown s)
    (hd : s.platform.mobileConnected = false) :
    ∀ w ∈ s.writes ++ [⟨t, s.platform.mobileConnected⟩], w.mobileConnected = false := by
  intro w hmem
  rcases List.mem_append.mp hmem with hmem | hmem
  · exact hw w hmem
  · rw [List.mem_singleton.mp hmem]
    exact hd

theorem signalsHold_step {s s' : State} {a : Action} (hi : SignalsHold s)
    (hok : TruthfulSignals s a) (he : Effect s a s') : SignalsHold s' := by
  obtain ⟨hw, hf⟩ := hi
  cases he with
  | direct t r hnr =>
    have hd : s.platform.mobileConnected = false := by
      rw [Bool.eq_false_iff]
      intro hup
      exact absurd (hok hup) (by simp [hnr])
    exact ⟨written_append hw hd, hf⟩
  | platform p =>
    refine ⟨hw, fun h hmem => ?_⟩
    rw [Bool.eq_false_iff]
    intro hup
    exact hok hup h hmem
  | connectivityAction b =>
    refine ⟨hw, fun h hmem => ?_⟩
    rcases mem_sendBroadcast hmem with hmem | ⟨hb, hr⟩
    · exact hf h hmem
    · exact hok hb.symm ⟨h, hr⟩
  | onLost h hr => exact ⟨hw, fun _ _ => hok⟩
  | ignored h hr hb => exact ⟨hw, fun h' hmem => hf h' (List.mem_of_mem_erase hmem)⟩
  | received h hr hb =>
    refine ⟨written_append hw (hf h hb), fun h' hmem => ?_⟩
    exact hf h' (List.mem_of_mem_erase (List.mem_of_mem_filter hmem))
  | deferred => exact ⟨hw, fun h hmem => (setDataEnabled_connected _ _).trans (hf h hmem)⟩
  | handled => exact ⟨hw, fun h hmem => (setDataEnabled_connected _ _).trans (hf h hmem)⟩
  | crashed => exact ⟨hw, fun h hmem => (setDataEnabled_connected _ _).trans (hf h hmem)⟩
  | unchanged | unexpected | answeredNobody | answeredCaller | answeredHandler => exact ⟨hw, hf⟩

section

variable {Obj Thr : Type} (decode : Decode Obj Thr)

/-- Broadcasts are only on their way to receivers that are registered. -/
def ToRegistered (s : State) : Prop := ∀ e ∈ s.broadcasts, (s.handlers e.1).isRegistered = true

theorem toRegistered_step {s s' : State} {a : Action} (hi : ToRegistered s) (he : Effect s a s') :
    ToRegistered s' := by
  intro e hmem
  cases he with
  | deferred t r _ _ =>
    by_cases hh : e.1 = currentHandler s
    · simp [hh]
    · simpa [hh] using hi e hmem
  | connectivityAction b =>
    rcases mem_sendBroadcast hmem with hmem | ⟨_, hr⟩
    · exact hi e hmem
    · exact hr
  | onLost h hr =>
    rcases mem_sendBroadcast hmem with hmem | ⟨_, hr'⟩
    · exact hi e hmem
    · exact hr'
  | ignored h hr hb => exact hi e (List.mem_of_mem_erase hmem)
  | received h hr hb =>
    obtain ⟨hmem, hne⟩ := List.mem_filter.mp hmem
    have hne : e.1 ≠ h := by simpa using hne
    simpa [hne] using hi e (List.mem_of_mem_erase hmem)
  | handled h c m hq hm =>
    simp only [update_response]
    exact hi e hmem
  | direct | unchanged | platform | unexpected | answeredNobody | answeredCaller | answeredHandler
  | crashed => exact hi e hmem

theorem run_toRegistered {ok : State → Action → Prop} {networkMode : Int} {p : Platform} {s : State}
    (hrun : Run (step decode) ok (State.init networkMode p) s) : ToRegistered s := by
  refine hrun.inv (fun e hmem => absurd hmem (by simp [State.init])) ?_
  intro _ _ _ hi _ hs
  exact toRegistered_step hi (step_effect hs).2

/-- A no-connectivity broadcast on its way while the data connection is up is written when it
    arrives. -/
theorem writes_on_arrival {s : State} {h : HandlerId} (hlive : s.crashed = false)
    (hreg : ToRegistered s) (hmem : (h, true) ∈ s.broadcasts)
    (hup : s.platform.mobileConnected = true) :
    ∃ s', step decode s (.onReceive h true) = some s' ∧ ¬ WrittenWhileDown s' := by
  have hr : (s.handlers h).isRegistered = true := hreg _ hmem
  obtain ⟨s', hs'⟩ : ∃ s', step decode s (.onReceive h true) = some s' := by
    simp [step, act, hlive, hr, hmem]
  refine ⟨s', hs', fun hdown => ?_⟩
  cases (step_effect hs').2 with
  | received =>
    have hlast := hdown ⟨_, s.platform.mobileConnected⟩
      (List.mem_append_right _ (List.mem_singleton.mpr rfl))
    exact absurd (hup.symm.trans hlast) (by simp)

/-- The excluded steps are the ones that go wrong: data is up when the type is written, at once or
    when the broadcast arrives. -/
theorem untruthful_writes {networkMode : Int} {p : Platform} {s s' : State} {a : Action}
    (hreach : Reach (step decode) (State.init networkMode p) s)
    (hbad : ¬ TruthfulSignals s a) (hs : step decode s a = some s') :
    ¬ WrittenWhileDown s' ∨
      ∃ h s'', step decode s' (.onReceive h true) = some s'' ∧ ¬ WrittenWhileDown s'' := by
  have hreg : ToRegistered s' := run_toRegistered decode (Run.next a hreach trivial hs)
  obtain ⟨hlive, heff⟩ := step_effect hs
  cases heff with
  | direct t r hnr =>
    refine Or.inl fun hdown => ?_
    have hlast := hdown ⟨t, s.platform.mobileConnected⟩
      (List.mem_append_right _ (List.mem_singleton.mpr rfl))
    exact hbad fun hup => absurd (hup.symm.trans hlast) (by simp)
  | unchanged t r hnr => exact absurd (fun _ => hnr) hbad
  | deferred t r hnr => exact absurd (fun _ => hnr) hbad
  | platform q =>
    simp only [TruthfulSignals, not_forall, not_not] at hbad
    obtain ⟨hup, h, hmem⟩ := hbad
    exact Or.inr ⟨h, writes_on_arrival decode hlive hreg hmem hup⟩
  | connectivityAction b =>
    simp only [TruthfulSignals, not_forall, Bool.not_eq_false] at hbad
    obtain ⟨rfl, ⟨h, hr⟩, hup⟩ := hbad
    exact Or.inr ⟨h, writes_on_arrival decode hlive hreg
      (sendBroadcast_mem (run_created hreach) true hr) hup⟩
  | onLost h hr =>
    simp only [TruthfulSignals, Bool.not_eq_false] at hbad
    exact Or.inr ⟨h, writes_on_arrival decode hlive hreg
      (sendBroadcast_mem (run_created hreach) true hr) hbad⟩
  | ignored | received | unexpected | answeredNobody | answeredCaller | answeredHandler | handled
  | crashed => exact absurd trivial hbad

/-- **Never while a data call is up**, in every run whose signals are truthful. -/
theorem never_written_while_connected (networkMode : Int) (p : Platform) (s : State)
    (hrun : Run (step decode) TruthfulSignals (State.init networkMode p) s) :
    WrittenWhileDown s := by
  have hinv : SignalsHold s := by
    refine hrun.inv ⟨fun w hw => absurd hw (by simp [State.init]),
      fun h hh => absurd hh (by simp [State.init])⟩ ?_
    intro _ _ _ hi hok hs
    exact signalsHold_step hi hok (step_effect hs).2
  exact hinv.written

end

/-- Data goes down, the system says so, and the deferred type is written. -/
theorem never_written_while_connected_deferred :
    ∃ s, Run (step voidDecode) TruthfulSignals (State.init 0 dataUp) s ∧ WrittenWhileDown s ∧
      s.writes.length = 1 := by
  have hrun := run_of_exec (step voidDecode) TruthfulSignals (State.init 0 dataUp)
    [.setPreferredNetworkType 3 true, .platform dataDown, .connectivityAction true,
      .onReceive 0 true]
    ⟨fun _ => by decide, fun h => absurd h (by decide), fun _ _ => rfl, trivial, trivial⟩ rfl
  exact ⟨_, hrun, never_written_while_connected voidDecode 0 dataUp _ hrun, rfl⟩

/-- Another network is lost while the mobile data connection is still up. -/
theorem written_while_connected :
    ¬ ∀ (networkMode : Int) (p : Platform) (s : State),
      Reach (step voidDecode) (State.init networkMode p) s → WrittenWhileDown s := by
  intro hall
  have hreach := reach_of_exec (step voidDecode) (State.init 0 dataUp)
    [.setPreferredNetworkType 3 true, .onLost 0, .onReceive 0 true]
    rfl
  have hdown := hall 0 dataUp _ hreach ⟨3, true⟩ (List.mem_singleton.mpr rfl)
  exact absurd hdown (by decide)

end Codina.Ril
