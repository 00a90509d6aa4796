/-
  The network-type switch: what a step can do, said once.

  `Effect s a s'` lists every way an action can change the state, each as the record of the fields
  that change, with the guard of its branch.  `step_effect` is the inversion of `step`; the
  invariants of the switch are all proved by cases on `Effect` and never unfold a method.
-/
import Codina.Ril.Switch

namespace Codina.Ril

open Codina.Runs

/-- The request the receiver of handler `h` sends for what the handler holds. -/
def heldRequest (s : State) (h : HandlerId) : RILRequest Target :=
  newRequest s (s.handlers h).mDesiredNetworkType (some (.handler h (s.handlers h).served))

/-- The number of handlers once the current one has been created. -/
def createdHandlers (s : State) : Nat :=
  if s.mSamsungu8500RILHandler.isSome then s.numHandlers else s.numHandlers + 1

/-- The ways a step can change the state. -/
inductive Effect (s : State) : Action → State → Prop
  /-- Nothing to reconnect: the handler is dropped and the request sent with the caller's Message. -/
  | direct (t : Int) (r : Bool) : needReconnect s.platform = false →
      Effect s (.setPreferredNetworkType t r)
        { recordCall s t r with
          mSamsungu8500RILHandler := none
          mRequestList := s.mRequestList ++ [newRequest s t ((newMessage s r).map .caller)]
          nextSerial := s.nextSerial + 1
          mPreferredNetworkType := t
          writes := s.writes ++ [⟨t, s.platform.mobileConnected⟩] }
  /-- The type looks unchanged: only a missing handler is created. -/
  | unchanged (t : Int) (r : Bool) : needReconnect s.platform = true →
      hasNetworkTypeChanged t s.platform.networkClass = false →
      Effect s (.setPreferredNetworkType t r)
        { recordCall s t r with
          mSamsungu8500RILHandler := some (currentHandler s), numHandlers := createdHandlers s }
  /-- The handler takes type and Message over, listens, and tries to turn mobile data off. -/
  | deferred (t : Int) (r : Bool) : needReconnect s.platform = true →
      hasNetworkTypeChanged t s.platform.networkClass = true →
      Effect s (.setPreferredNetworkType t r)
        { recordCall s t r with
          mSamsungu8500RILHandler := some (currentHandler s)
          numHandlers := createdHandlers s
          handlers := Function.update s.handlers (currentHandler s)
            { mDesiredNetworkType := t, isRegistered := true,
              mNetworktypeResponse := newMessage s r, served := s.calls.length }
          platform := s.platform.setDataEnabled false
          lastDataSwitch := lastSwitch (currentHandler s) false s }
  | platform (p : Platform) : Effect s (.platform p) (changePlatform p s)
  | connectivityAction (b : Bool) : Effect s (.connectivityAction b) (sendBroadcast b s)
  | onLost (h : HandlerId) : (s.handlers h).isRegistered = true →
      Effect s (.onLost h) (sendBroadcast true s)
  | ignored (h : HandlerId) : (s.handlers h).isRegistered = true → (h, false) ∈ s.broadcasts →
      Effect s (.onReceive h false) { s with broadcasts := s.broadcasts.erase (h, false) }
  /-- No connectivity: the receiver is unregistered and the request sent. -/
  | received (h : HandlerId) : (s.handlers h).isRegistered = true → (h, true) ∈ s.broadcasts →
      Effect s (.onReceive h true)
        { s with
          broadcasts := (s.broadcasts.erase (h, true)).filter fun b => b.1 ≠ h
          mRequestList := s.mRequestList ++ [heldRequest s h]
          nextSerial := s.nextSerial + 1
          mPreferredNetworkType := (s.handlers h).mDesiredNetworkType
          writes := s.writes ++ [⟨(s.handlers h).mDesiredNetworkType, s.platform.mobileConnected⟩]
          handlers := Function.update s.handlers h
            { s.handlers h with isRegistered := false, mDesiredNetworkType := -1 } }
  | unexpected (p : Parcel) : Effect s (.processSolicited p) s
  /-- The modem answers a request nobody waits for. -/
  | answeredNobody (p : Parcel) (pre post : List (RILRequest Target)) (rr : RILRequest Target) :
      s.mRequestList = pre ++ rr :: post → rr.mSerial = replySerial p → rr.mResult = none →
      Effect s (.processSolicited p)
        { s with mRequestList := pre ++ post, answers := s.answers ++ [(rr, replyError p)] }
  /-- The modem answers a request sent with a caller's Message. -/
  | answeredCaller (p : Parcel) (pre post : List (RILRequest Target)) (rr : RILRequest Target)
      (m : Message) (exception : Bool) :
      s.mRequestList = pre ++ rr :: post → rr.mSerial = replySerial p →
      rr.mResult = some (.caller m) →
      (rr.mRequest = .setPreferredNetworkType → replyError p ≠ 0 → exception = true) →
      Effect s (.processSolicited p)
        { s with
          mRequestList := pre ++ post, answers := s.answers ++ [(rr, replyError p)]
          completed := s.completed ++ [(m, exception)] }
  /-- The modem answers a request sent with a Message of handler `h`. -/
  | answeredHandler (p : Parcel) (pre post : List (RILRequest Target)) (rr : RILRequest Target)
      (h : HandlerId) (c : Nat) :
      s.mRequestList = pre ++ rr :: post → rr.mSerial = replySerial p →
      rr.mResult = some (.handler h c) →
      Effect s (.processSolicited p)
        { s with
          mRequestList := pre ++ post, answers := s.answers ++ [(rr, replyError p)]
          queue := s.queue ++ [(h, c)] }
  /-- The switch is done: the handler tries to turn mobile data on again and answers the caller. -/
  | handled (h : HandlerId) (c : Nat) (m : Message) : (h, c) ∈ s.queue →
      (s.handlers h).mNetworktypeResponse = some m →
      Effect s (.handleMessage h c)
        { s with
          queue := s.queue.erase (h, c)
          platform := s.platform.setDataEnabled true
          lastDataSwitch := lastSwitch h true s
          completed := s.completed ++ [(m, false)]
          handlers := Function.update s.handlers h
            { s.handlers h with mNetworktypeResponse := none } }
  /-- The same with no Message to answer: `AsyncResult.forMessage` throws. -/
  | crashed (h : HandlerId) (c : Nat) : (h, c) ∈ s.queue →
      (s.handlers h).mNetworktypeResponse = none →
      Effect s (.handleMessage h c)
        { s with
          queue := s.queue.erase (h, c)
          platform := s.platform.setDataEnabled true
          lastDataSwitch := lastSwitch h true s
          crashed := true }

/-- Whether the data connection is up does not depend on the switch at once. -/
@[simp] theorem setDataEnabled_connected (enabled : Bool) (p : Platform) :
    (p.setDataEnabled enabled).mobileConnected = p.mobileConnected := by
  unfold Platform.setDataEnabled
  split <;> rfl

/-! ## One equation for each method -/

theorem setPreferedNetworkType_eq (h : HandlerId) (t : Int) (m : Option Message) (k : Nat)
    (s : State) :
    setPreferedNetworkType h t m k s =
      { s with
        handlers := Function.update s.handlers h
          { mDesiredNetworkType := t, isRegistered := true, mNetworktypeResponse := m, served := k }
        platform := s.platform.setDataEnabled false
        lastDataSwitch := lastSwitch h false s } := by
  unfold setPreferedNetworkType startListening setMobileDataEnabled modifyHandler lastSwitch
  simp only [Function.update_self, Function.update_idem]
  by_cases hr : (s.handlers h).isRegistered = true
  · rw [if_pos hr]
    simp only [hr]
  · rw [if_neg hr]

theorem ensureHandler_eq (s : State) :
    ensureHandler s = { s with
      mSamsungu8500RILHandler := some (currentHandler s), numHandlers := createdHandlers s } := by
  unfold ensureHandler currentHandler createdHandlers
  cases hc : s.mSamsungu8500RILHandler with
  | none => rfl
  | some h =>
    simp only [Option.getD_some, Option.isSome_some, if_true]
    rw [← hc]

theorem setPreferredNetworkType_effect (t : Int) (r : Bool) (s : State) :
    Effect s (.setPreferredNetworkType t r) (setPreferredNetworkType t r s) := by
  unfold setPreferredNetworkType
  have hcur : currentHandler (recordCall s t r) = currentHandler s := rfl
  have hnum : createdHandlers (recordCall s t r) = createdHandlers s := rfl
  have hplat : (recordCall s t r).platform = s.platform := rfl
  simp only [ensureHandler_eq, hcur, hnum, hplat]
  by_cases hnr : needReconnect s.platform = true
  · rw [if_pos hnr]
    by_cases hch : hasNetworkTypeChanged t s.platform.networkClass = true
    · rw [if_pos hch, setPreferedNetworkType_eq]
      exact Effect.deferred t r hnr hch
    · rw [if_neg hch]
      exact Effect.unchanged t r hnr (by simpa using hch)
  · rw [if_neg hnr]
    exact Effect.direct t r (by simpa using hnr)

theorem onReceive_effect {s : State} {h : HandlerId} {b : Bool}
    (hr : (s.handlers h).isRegistered = true) (hb : (h, b) ∈ s.broadcasts) :
    Effect s (.onReceive h b) (onReceive h b { s with broadcasts := s.broadcasts.erase (h, b) }) := by
  cases b with
  | false => exact Effect.ignored h hr hb
  | true =>
    have heff := Effect.received h hr hb
    simp only [onReceive, stopListening, hr, if_true, modifyHandler, sendPreferedNetworktype,
      Function.update_self, Function.update_idem]
    exact heff

theorem handleMessage_effect {s : State} {h : HandlerId} {c : Nat} (hq : (h, c) ∈ s.queue) :
    Effect s (.handleMessage h c) (handleMessage h { s with queue := s.queue.erase (h, c) }) := by
  cases hm : (s.handlers h).mNetworktypeResponse with
  | none =>
    simp only [handleMessage, setMobileDataEnabled, hm]
    exact Effect.crashed h c hq hm
  | some m =>
    simp only [handleMessage, setMobileDataEnabled, hm, modifyHandler]
    exact Effect.handled h c m hq hm

section Reply

variable {Obj Thr : Type} (decode : Decode Obj Thr)

theorem reply_effect (p : Parcel) (s : State) :
    Effect s (.processSolicited p) (reply decode p s) := by
  unfold reply
  rcases processSolicited_spec decode s.mRequestList p with ⟨_, he⟩ | ⟨pre, rr, post, ar, h⟩
  · rw [he]
    have hs : { s with answers := s.answers ++ [] } = s := by rw [List.append_nil]
    simpa using hs ▸ Effect.unexpected p
  · obtain ⟨hl, hs, _, he, hc⟩ := h
    rw [he]
    cases hm : rr.mResult with
    | none => exact Effect.answeredNobody p pre post rr hl hs hm
    | some target =>
      cases target with
      | caller m =>
        exact Effect.answeredCaller p pre post rr m ar.exception.isSome hl hs hm fun hreq herr =>
          hc.exception ⟨herr, by simp [hreq]⟩
      | handler h c => exact Effect.answeredHandler p pre post rr h c hl hs hm

end Reply

/-- **What a step can do.** -/
theorem step_effect {Obj Thr : Type} {decode : Decode Obj Thr} {s s' : State} {a : Action}
    (h : step decode s a = some s') : s.crashed = false ∧ Effect s a s' := by
  unfold step at h
  by_cases hc : s.crashed = true
  · rw [if_pos hc] at h
    exact absurd h (by simp)
  rw [if_neg hc] at h
  refine ⟨by simpa using hc, ?_⟩
  cases a with
  | setPreferredNetworkType t r =>
    cases h
    exact setPreferredNetworkType_effect t r s
  | platform p =>
    cases h
    exact Effect.platform p
  | connectivityAction b =>
    cases h
    exact Effect.connectivityAction b
  | onLost l =>
    simp only [act] at h
    by_cases hr : (s.handlers l).isRegistered = true
    · rw [if_pos hr] at h
      cases h
      exact Effect.onLost l hr
    · rw [if_neg hr] at h
      exact absurd h (by simp)
  | onReceive l b =>
    simp only [act] at h
    by_cases hr : (s.handlers l).isRegistered = true ∧ (l, b) ∈ s.broadcasts
    · rw [if_pos hr] at h
      cases h
      exact onReceive_effect hr.1 hr.2
    · rw [if_neg hr] at h
      exact absurd h (by simp)
  | processSolicited p =>
    cases h
    exact reply_effect decode p s
  | handleMessage l c =>
    simp only [act] at h
    by_cases hq : (l, c) ∈ s.queue
    · rw [if_pos hq] at h
      cases h
      exact handleMessage_effect hq
    · rw [if_neg hq] at h
      exact absurd h (by simp)

/-- A field that an assignment to one handler leaves alone is the same for every handler. -/
theorem update_field {β : Type} (proj : ConnectivityHandler → β)
    (hs : HandlerId → ConnectivityHandler) (h : HandlerId) (c : ConnectivityHandler)
    (hc : proj c = proj (hs h)) (h' : HandlerId) :
    proj (Function.update hs h c h') = proj (hs h') := by
  by_cases he : h' = h
  · subst he
    rw [Function.update_self, hc]
  · rw [Function.update_of_ne he]

/-- Answering the caller touches neither the registration nor the desired type of any handler. -/
@[simp] theorem update_response (hs : HandlerId → ConnectivityHandler) (h h' : HandlerId)
    (m : Option Message) :
    (Function.update hs h ⟨(hs h).mDesiredNetworkType, (hs h).isRegistered, m, (hs h).served⟩
        h').isRegistered = (hs h').isRegistered ∧
      (Function.update hs h ⟨(hs h).mDesiredNetworkType, (hs h).isRegistered, m, (hs h).served⟩
        h').mDesiredNetworkType = (hs h').mDesiredNetworkType :=
  ⟨update_field ConnectivityHandler.isRegistered hs h _ (by rfl) h',
    update_field ConnectivityHandler.mDesiredNetworkType hs h _ (by rfl) h'⟩

/-! ## A concrete platform, for runs on fixed inputs -/

/-- A 2G network with a mobile data connection that is up and active. -/
def dataUp : Platform :=
  { activeNetworkInfo := some ⟨"MOBILE", true⟩, mobileDataEnabled := true, networkClass := 1,
    mobileConnected := true }

/-- The same after mobile data has been turned off. -/
def dataDown : Platform :=
  { activeNetworkInfo := none, mobileDataEnabled := false, networkClass := 1,
    mobileConnected := false }

/-- Every decoder returns null, as `responseVoid` does. -/
def voidDecode : Decode Unit Unit := fun _ p => (.ok none, p)

/-- The reply with this serial and error code, and no payload. -/
def replyParcel (serial error : BitVec 32) : Parcel := Parcel.ofInts [serial, error]

end Codina.Ril
