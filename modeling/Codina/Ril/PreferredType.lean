/-
  The stored preferred network type.

  `mPreferredNetworkType` is what the RIL sends again when the RIL daemon has been restarted, so it
  should be the type the framework has asked for last or has been told last.  Three methods touch it:
  `sendPreferedNetworktype` stores what it sends, `responseGetPreferredNetworkType` stores what the
  modem reports, and `RIL_UNSOL_RIL_CONNECTED` sends it again.

  The response decoder has two faults.  The length check guards only the store, so an empty response
  raises an index error (`empty_response_throws`); and the reported type is stored BEFORE GLOBAL is
  rewritten to WCDMA_PREF, so the framework is told one type and the RIL keeps another, which it sends
  on the next reconnection.  (The patched libril rewrites GLOBAL itself, before it sends the response.)
  In runs where every response holds a first type other than GLOBAL the stored type is what the
  framework knows (`stored_type_known`); every other response misleads at once
  (`response_misleads`).

  The RIL around the decoder is the one of the network-type switch, with all its interleavings.
-/
import Codina.Ril.SwitchSteps

namespace Codina.Ril.PreferredType

open Codina.Runs

/-! ## Model -/

/-- `Phone.NT_MODE_GLOBAL`. -/
def ntModeGlobal : Int := 7

/-- `Phone.NT_MODE_WCDMA_PREF`. -/
def ntModeWcdmaPref : Int := 0

/-- What the decoder leaves in `mPreferredNetworkType`, and what it returns; `none` is an
    `ArrayIndexOutOfBoundsException`. -/
structure Decoded where
  mPreferredNetworkType : Int
  response : Option (List Int)

/-- The decoder, given what `responseInts` has read. -/
def responseGetPreferredNetworkType (response : List Int) (mPreferredNetworkType : Int) : Decoded :=
  let stored := if 1 ≤ response.length then response.getD 0 0 else mPreferredNetworkType
  match response[0]? with
  | none => ⟨stored, none⟩
  | some type =>
    -- When the modem responds NT_MODE_GLOBAL, it means NT_MODE_WCDMA_PREF
    if type = ntModeGlobal then ⟨stored, some (response.set 0 ntModeWcdmaPref)⟩
    else ⟨stored, some response⟩

/-- The RIL, and the history of what the framework knows. -/
structure State where
  ril : Ril.State
  /-- The types sent to the modem for the framework and those reported to it, oldest first; the first
      is the type the RIL was constructed with. -/
  known : List Int
  /-- The types reported to the framework. -/
  reported : List Int := []
  /-- The types sent again on `RIL_UNSOL_RIL_CONNECTED`. -/
  resent : List Int := []
  /-- A response decoder has indexed past the end of its array. -/
  indexError : Bool := false

def State.init (networkMode : Int) (platform : Platform) : State :=
  { ril := Ril.State.init networkMode platform, known := [networkMode] }

/-- A request of the base class sent with a null Message. -/
def sendUnanswered (request : RilRequest) (ints : List Int) (s : Ril.State) : Ril.State :=
  { s with
    mRequestList := s.mRequestList ++
      [{ mSerial := s.nextSerial, mRequest := request, mParcel := ints, mResult := none }]
    nextSerial := s.nextSerial + 1 }

/-- `processUnsolicited` of `RIL_UNSOL_RIL_CONNECTED`: the initial conditions. -/
def rilConnected (mCdmaSubscription : Int) (s : Ril.State) : Ril.State :=
  let s := sendUnanswered .radioPower [1, 0] s
  let s := sendPreferedNetworktype s.mPreferredNetworkType none s
  sendUnanswered .cdmaSetSubscriptionSource [1, mCdmaSubscription] s

/-- The types written to the modem between two states. -/
def sentBetween (s s' : Ril.State) : List Int :=
  (s'.writes.drop s.writes.length).map Write.networkType

/-- A response of the modem is decoded, and its first type reported to the framework. -/
def decoded (response : List Int) (s : State) : State :=
  let d := responseGetPreferredNetworkType response s.ril.mPreferredNetworkType
  let told := (d.response.getD []).take 1
  { s with
    ril := { s.ril with mPreferredNetworkType := d.mPreferredNetworkType }
    known := s.known ++ told, reported := s.reported ++ told
    indexError := s.indexError || d.response.isNone }

inductive Action where
  /-- A step of the network-type switch. -/
  | switch (a : Ril.Action)
  /-- The modem answers `RIL_REQUEST_GET_PREFERRED_NETWORK_TYPE`. -/
  | responseGetPreferredNetworkType (response : List Int)
  /-- The RIL daemon has been restarted. -/
  | rilConnected (mCdmaSubscription : Int)

def step {Obj Thr : Type} (decode : Decode Obj Thr) (s : State) : Action → Option State
  | .switch a => (Ril.step decode s.ril a).map fun ril =>
    { s with ril := ril, known := s.known ++ sentBetween s.ril ril }
  | .responseGetPreferredNetworkType response =>
    if s.ril.crashed then none else some (decoded response s)
  | .rilConnected mCdmaSubscription =>
    if s.ril.crashed then none
    else some { s with
      ril := rilConnected mCdmaSubscription s.ril
      resent := s.resent ++ sentBetween s.ril (rilConnected mCdmaSubscription s.ril) }

/-! ## The stored type is known -/

/-- The framework has set this type, or has been told it. -/
def SetOrTold (networkMode : Int) (s : State) (t : Int) : Prop :=
  t = networkMode ∨ (∃ c ∈ s.ril.calls, c.networkType = t) ∨ t ∈ s.reported

/-- The stored type is the one sent or reported last, no response has raised an index error, and
    whatever was sent again is a type the framework has set or been told. -/
structure Agrees (networkMode : Int) (s : State) : Prop where
  stored : s.known.getLast? = some s.ril.mPreferredNetworkType
  noIndexError : s.indexError = false
  resent : ∀ t ∈ s.resent, SetOrTold networkMode s t

/-- Every response of the modem holds a first type, and it is not GLOBAL. -/
def PlainResponse (_ : State) : Action → Prop
  | .responseGetPreferredNetworkType response =>
    ∃ t rest, response = t :: rest ∧ t ≠ ntModeGlobal
  | _ => True

/-- A handler waiting to send a type holds the type of some call. -/
def HoldsCalled (s : Ril.State) : Prop :=
  ∀ h, (s.handlers h).isRegistered = true →
    ∃ c ∈ s.calls, c.networkType = (s.handlers h).mDesiredNetworkType

/-- What a step of the switch sends, which is what it stores. -/
inductive Sends (s s' : Ril.State) : Prop
  | nothing : s'.writes = s.writes → s'.mPreferredNetworkType = s.mPreferredNetworkType → Sends s s'
  | type (t : Int) (b : Bool) : s'.writes = s.writes ++ [⟨t, b⟩] → s'.mPreferredNetworkType = t →
      (∃ c ∈ s'.calls, c.networkType = t) → Sends s s'

theorem sentBetween_append {s s' : Ril.State} {w : Write} (h : s'.writes = s.writes ++ [w]) :
    sentBetween s s' = [w.networkType] := by
  unfold sentBetween
  rw [h, List.drop_left]
  rfl

theorem sentBetween_same {s s' : Ril.State} (h : s'.writes = s.writes) : sentBetween s s' = [] := by
  unfold sentBetween
  rw [h, List.drop_length]
  rfl

theorem sends {s s' : Ril.State} {a : Ril.Action} (hi : HoldsCalled s) (he : Effect s a s') :
    Sends s s' := by
  cases he with
  | direct t r _ =>
    exact Sends.type t _ rfl rfl
      ⟨_, List.mem_append_right s.calls (List.mem_singleton_self _), rfl⟩
  | received h hr hb => exact Sends.type _ _ rfl rfl (hi h hr)
  | unchanged | deferred | platform | connectivityAction | onLost | ignored | unexpected
  | answeredNobody | answeredCaller | answeredHandler | handled | crashed =>
    exact Sends.nothing rfl rfl

theorem holdsCalled_step {s s' : Ril.State} {a : Ril.Action} (hi : HoldsCalled s)
    (he : Effect s a s') : HoldsCalled s' := by
  have hmono : ∀ {t : Int} {cs : List Call}, (∃ c ∈ s.calls, c.networkType = t) →
      ∃ c ∈ s.calls ++ cs, c.networkType = t := by
    rintro t cs ⟨c, hc, ht⟩
    exact ⟨c, List.mem_append_left _ hc, ht⟩
  cases he with
  | direct | unchanged =>
    intro h hr
    exact hmono (hi h hr)
  | deferred t r _ _ =>
    intro h hr
    by_cases hh : h = currentHandler s
    · subst hh
      exact ⟨_, List.mem_append_right _ (List.mem_singleton_self _), by simp⟩
    · simp only [Function.update_of_ne hh] at hr ⊢
      exact hmono (hi h hr)
  | received h₀ hr₀ hb =>
    intro h hr
    by_cases hh : h = h₀
    · subst hh
      simp at hr
    · simp only [Function.update_of_ne hh] at hr ⊢
      exact hi h hr
  | handled h₀ c m hq hm =>
    intro h hr
    simp only [update_response] at hr ⊢
    exact hi h hr
  | platform | connectivityAction | onLost | ignored | unexpected | answeredNobody
  | answeredCaller | answeredHandler | crashed => exact hi

theorem calls_mono {s s' : Ril.State} {a : Ril.Action} (he : Effect s a s') :
    s.calls ⊆ s'.calls := by
  cases he with
  | direct | unchanged | deferred => exact List.subset_append_left _ _
  | platform | connectivityAction | onLost | ignored | received | unexpected | answeredNobody
  | answeredCaller | answeredHandler | handled | crashed => exact List.Subset.refl _

/-- The invariant: the stored type agrees, and everything the framework knows it has set or been
    told. -/
structure Inv (networkMode : Int) (s : State) : Prop where
  agrees : Agrees networkMode s
  known : ∀ t ∈ s.known, SetOrTold networkMode s t
  holds : HoldsCalled s.ril

theorem inv_init (networkMode : Int) (p : Platform) : Inv networkMode (State.init networkMode p) where
  agrees := ⟨rfl, rfl, fun t ht => absurd ht List.not_mem_nil⟩
  known := fun t ht => Or.inl (List.mem_singleton.mp ht)
  holds := fun h hr => absurd hr (by simp [State.init, Ril.State.init])

theorem SetOrTold.mono {networkMode : Int} {s s' : State} {t : Int} (h : SetOrTold networkMode s t)
    (hc : s.ril.calls ⊆ s'.ril.calls) (hr : s.reported ⊆ s'.reported) :
    SetOrTold networkMode s' t := by
  rcases h with h | ⟨c, hmem, hct⟩ | h
  · exact Or.inl h
  · exact Or.inr (Or.inl ⟨c, hc hmem, hct⟩)
  · exact Or.inr (Or.inr (hr h))

/-- A step of the switch, which may send one type. -/
theorem inv_switch {networkMode : Int} {s : State} {ril : Ril.State} {a : Ril.Action}
    (hi : Inv networkMode s) (he : Effect s.ril a ril) :
    Inv networkMode { s with ril := ril, known := s.known ++ sentBetween s.ril ril } := by
  have hmono : ∀ t, SetOrTold networkMode s t →
      SetOrTold networkMode { s with ril := ril, known := s.known ++ sentBetween s.ril ril } t :=
    fun t ht => ht.mono (calls_mono he) (List.Subset.refl _)
  refine ⟨⟨?_, hi.agrees.noIndexError, fun t ht => hmono t (hi.agrees.resent t ht)⟩, ?_,
    holdsCalled_step hi.holds he⟩
  · cases sends hi.holds he with
    | nothing hw hp =>
      simp only [sentBetween_same hw, List.append_nil, hp]
      exact hi.agrees.stored
    | type t b hw hp hc => simp [sentBetween_append hw, hp]
  · intro t ht
    rcases List.mem_append.mp ht with ht | ht
    · exact hmono t (hi.known t ht)
    · cases sends hi.holds he with
      | nothing hw hp => exact absurd ht (by simp [sentBetween_same hw])
      | type t' b hw hp hc =>
        rw [sentBetween_append hw, List.mem_singleton] at ht
        subst ht
        exact Or.inr (Or.inl hc)

/-- A plain response is stored as it is reported. -/
theorem decoded_plain {t : Int} {rest : List Int} (ht : t ≠ ntModeGlobal) (s : State) :
    decoded (t :: rest) s =
      { s with
        ril := { s.ril with mPreferredNetworkType := t }
        known := s.known ++ [t], reported := s.reported ++ [t] } := by
  simp [decoded, responseGetPreferredNetworkType, ht]

theorem inv_decoded {networkMode : Int} {s : State} {response : List Int}
    (hi : Inv networkMode s) (hok : ∃ t rest, response = t :: rest ∧ t ≠ ntModeGlobal) :
    Inv networkMode (decoded response s) := by
  obtain ⟨t, rest, rfl, ht⟩ := hok
  rw [decoded_plain ht]
  have hsub : s.reported ⊆ s.reported ++ [t] := List.subset_append_left _ _
  refine ⟨⟨by simp, hi.agrees.noIndexError, fun u hu => ?_⟩, fun u hu => ?_, hi.holds⟩
  · exact (hi.agrees.resent u hu).mono (List.Subset.refl _) hsub
  · rcases List.mem_append.mp hu with hu | hu
    · exact (hi.known u hu).mono (List.Subset.refl _) hsub
    · exact Or.inr (Or.inr (List.mem_append_right _ hu))

theorem inv_rilConnected {networkMode mCdmaSubscription : Int} {s : State}
    (hi : Inv networkMode s) :
    Inv networkMode { s with
      ril := rilConnected mCdmaSubscription s.ril
      resent := s.resent ++ sentBetween s.ril (rilConnected mCdmaSubscription s.ril) } := by
  refine ⟨⟨hi.agrees.stored, hi.agrees.noIndexError, fun t ht => ?_⟩, hi.known, hi.holds⟩
  rcases List.mem_append.mp ht with ht | ht
  · exact hi.agrees.resent t ht
  · rw [sentBetween_append (show (rilConnected mCdmaSubscription s.ril).writes =
      s.ril.writes ++ [⟨s.ril.mPreferredNetworkType, s.ril.platform.mobileConnected⟩] from rfl),
      List.mem_singleton] at ht
    -- the type sent again is the last one known
    rw [ht]
    exact hi.known _ (List.mem_of_getLast? hi.agrees.stored)

section

variable {Obj Thr : Type} {decode : Decode Obj Thr}

/-- A response is decoded, unless the process has crashed before. -/
theorem decoded_of_step {s s' : State} {response : List Int}
    (h : step decode s (.responseGetPreferredNetworkType response) = some s') :
    s' = decoded response s := by
  simp only [step] at h
  by_cases hc : s.ril.crashed = true
  · rw [if_pos hc] at h
    cases h
  · rw [if_neg hc] at h
    cases h
    rfl

theorem inv_step {networkMode : Int} {s s' : State} {a : Action} (hi : Inv networkMode s)
    (hok : PlainResponse s a) (h : step decode s a = some s') : Inv networkMode s' := by
  cases a with
  | switch a =>
    simp only [step, Option.map_eq_some_iff] at h
    obtain ⟨ril, hs, rfl⟩ := h
    exact inv_switch hi (step_effect hs).2
  | responseGetPreferredNetworkType response =>
    obtain rfl := decoded_of_step h
    exact inv_decoded hi hok
  | rilConnected mCdmaSubscription =>
    simp only [step] at h
    by_cases hc : s.ril.crashed = true
    · rw [if_pos hc] at h
      exact absurd h (by simp)
    · rw [if_neg hc] at h
      cases h
      exact inv_rilConnected hi

/-- The excluded steps are the ones that go wrong: after an empty response the decoder has raised an
    index error, and after GLOBAL the stored type is not the one reported last. -/
theorem response_misleads {networkMode : Int} {s s' : State} {a : Action}
    (hbad : ¬ PlainResponse s a) (h : step decode s a = some s') : ¬ Agrees networkMode s' := by
  cases a with
  | switch | rilConnected => exact absurd trivial hbad
  | responseGetPreferredNetworkType response =>
    obtain rfl := decoded_of_step h
    intro hag
    cases response with
    | nil => exact absurd hag.noIndexError (by simp [decoded, responseGetPreferredNetworkType])
    | cons t rest =>
      have ht : t = ntModeGlobal := by
        by_contra hne
        exact hbad ⟨t, rest, rfl, hne⟩
      subst ht
      have hst := hag.stored
      simp [decoded, responseGetPreferredNetworkType, ntModeGlobal, ntModeWcdmaPref] at hst

end

/-- **The stored type is known to the framework** in a run where every response holds a first type
    other than GLOBAL. -/
theorem stored_type_known {Obj Thr : Type} (decode : Decode Obj Thr) (networkMode : Int)
    (p : Platform) (s : State)
    (hrun : Run (step decode) PlainResponse (State.init networkMode p) s) : Agrees networkMode s :=
  (hrun.inv (inv_init networkMode p) fun _ _ _ hi hok hs => inv_step hi hok hs).agrees

/-- Type 3 is deferred behind the data connection; the modem then reports 1, and restarts. -/
theorem stored_type_known_resent :
    ∃ s, Run (step voidDecode) PlainResponse (State.init 0 dataUp) s ∧ Agrees 0 s ∧
      s.known = [0, 3, 1] ∧ s.resent = [3, 1] := by
  have hrun := run_of_exec (step voidDecode) PlainResponse (State.init 0 dataUp)
    [.switch (.setPreferredNetworkType 3 true), .switch (.platform dataDown),
      .switch (.connectivityAction true), .switch (.onReceive 0 true), .rilConnected 0,
      .responseGetPreferredNetworkType [1], .rilConnected 0]
    ⟨trivial, trivial, trivial, trivial, trivial, ⟨1, [], rfl, by decide⟩, trivial, trivial⟩ rfl
  exact ⟨_, hrun, stored_type_known voidDecode 0 dataUp _ hrun, rfl, rfl⟩

/-- The modem answers with no type at all, and the decoder indexes past the end. -/
theorem empty_response_throws :
    ¬ ∀ (networkMode : Int) (p : Platform) (s : State),
      Reach (step voidDecode) (State.init networkMode p) s → Agrees networkMode s := by
  intro hall
  have hrun := reach_of_exec (step voidDecode) (State.init 0 dataUp)
    [.responseGetPreferredNetworkType []] rfl
  exact absurd (hall 0 dataUp _ hrun).noIndexError (by decide)

end Codina.Ril.PreferredType
