/-
  `SamsungU8500RIL.processSolicited`: how a reply of the RIL daemon reaches the caller.

  A reply starts with the serial of the request it answers and an error code.  The request is taken
  off `mRequestList`, a payload is decoded by the decoder of its request number, and the request's
  Message is completed with the decoded value or with an exception.  The method has five exits: an
  unknown serial, a decoder that throws, an error code, the workaround for failed SMS requests (which
  decodes a second time under a `catch` of its own) and the regular one.

  The decoders are a parameter: most of them are inherited from `RIL`, and what is proved here is
  about every one of them, returning or throwing.  `forMessage` is the pair `AsyncResult.forMessage`
  and `sendToTarget`, and `onError` is `RILRequest.onError`, which does the same with a
  `CommandException`.

  What a Message has to be completed with is said without the method (`Delivered`): by the decoder
  the switch names for the request number, run on the reply behind its serial and error code.
  `processSolicited_spec` says once what a reply does; everything else cites it.
-/
import Codina.Ril.Parcel

namespace Codina.Ril

/-! ## Requests and their decoders -/

/-- The request numbers `processSolicited` knows; `other` is any number outside its switch. -/
inductive RilRequest where
  | getSimStatus | enterSimPin | enterSimPuk | enterSimPin2 | enterSimPuk2 | changeSimPin
  | changeSimPin2 | enterNetworkDepersonalization | getCurrentCalls | dial | getImsi | hangup
  | hangupWaitingOrBackground | hangupForegroundResumeBackground | switchWaitingOrHoldingAndActive
  | conference | udub | lastCallFailCause | signalStrength | voiceRegistrationState
  | dataRegistrationState | operator | radioPower | dtmf | sendSms | sendSmsExpectMore
  | setupDataCall | simIo | sendUssd | cancelUssd | getClir | setClir | queryCallForwardStatus
  | setCallForward | queryCallWaiting | setCallWaiting | smsAcknowledge | getImei | getImeisv
  | answer | deactivateDataCall | queryFacilityLock | setFacilityLock | changeBarringPassword
  | queryNetworkSelectionMode | setNetworkSelectionAutomatic | setNetworkSelectionManual
  | queryAvailableNetworks | dtmfStart | dtmfStop | basebandVersion | separateConnection | setMute
  | getMute | queryClip | lastDataCallFailCause | dataCallList | resetRadio | oemHookRaw
  | oemHookStrings | screenState | setSuppSvcNotification | writeSmsToSim | deleteSmsOnSim
  | setBandMode | queryAvailableBandMode | stkGetProfile | stkSetProfile | stkSendEnvelopeCommand
  | stkSendTerminalResponse | stkHandleCallSetupRequestedFromSim | explicitCallTransfer
  | setPreferredNetworkType | getPreferredNetworkType | getNeighboringCellIds | setLocationUpdates
  | cdmaSetSubscriptionSource | cdmaSetRoamingPreference | cdmaQueryRoamingPreference | setTtyMode
  | queryTtyMode | cdmaSetPreferredVoicePrivacyMode | cdmaQueryPreferredVoicePrivacyMode
  | cdmaFlash | cdmaBurstDtmf | cdmaSendSms | cdmaSmsAcknowledge | gsmGetBroadcastConfig
  | gsmSetBroadcastConfig | gsmBroadcastActivation | cdmaGetBroadcastConfig
  | cdmaSetBroadcastConfig | cdmaBroadcastActivation | cdmaValidateAndWriteAkey | cdmaSubscription
  | cdmaWriteSmsToRuim | cdmaDeleteSmsOnRuim | deviceIdentity | getSmscAddress | setSmscAddress
  | exitEmergencyCallbackMode | reportSmsMemoryStatus | reportStkServiceIsRunning
  | cdmaGetSubscriptionSource | isimAuthentication | acknowledgeIncomingGsmSmsWithPdu
  | stkSendEnvelopeWithStatus | voiceRadioTech | other (code : Int)
deriving DecidableEq

/-- The decoders the switch names. -/
inductive Decoder where
  | responseIccCardStatus | responseInts | responseCallList | responseVoid | responseString
  | responseFailCause | responseSignalStrength | responseStrings | responseSMS
  | responseSetupDataCall | responseIccIo | responseCallForward | responseOperatorInfos
  | responseDataCallList | responseRaw | responseGetPreferredNetworkType | responseCellList
  | responseGmsBroadcastConfig | responseCdmaBroadcastConfig
deriving DecidableEq

/-- The switch of `processSolicited`, in the order of the source; `none` is its `default`. -/
def decoderOf : RilRequest → Option Decoder
  | .getSimStatus => some .responseIccCardStatus
  | .enterSimPin => some .responseInts
  | .enterSimPuk => some .responseInts
  | .enterSimPin2 => some .responseInts
  | .enterSimPuk2 => some .responseInts
  | .changeSimPin => some .responseInts
  | .changeSimPin2 => some .responseInts
  | .enterNetworkDepersonalization => some .responseInts
  | .getCurrentCalls => some .responseCallList
  | .dial => some .responseVoid
  | .getImsi => some .responseString
  | .hangup => some .responseVoid
  | .hangupWaitingOrBackground => some .responseVoid
  | .hangupForegroundResumeBackground => some .responseVoid
  | .switchWaitingOrHoldingAndActive => some .responseVoid
  | .conference => some .responseVoid
  | .udub => some .responseVoid
  | .lastCallFailCause => some .responseFailCause
  | .signalStrength => some .responseSignalStrength
  | .voiceRegistrationState => some .responseStrings
  | .dataRegistrationState => some .responseStrings
  | .operator => some .responseStrings
  | .radioPower => some .responseVoid
  | .dtmf => some .responseVoid
  | .sendSms => some .responseSMS
  | .sendSmsExpectMore => some .responseSMS
  | .setupDataCall => some .responseSetupDataCall
  | .simIo => some .responseIccIo
  | .sendUssd => some .responseVoid
  | .cancelUssd => some .responseVoid
  | .getClir => some .responseInts
  | .setClir => some .responseVoid
  | .queryCallForwardStatus => some .responseCallForward
  | .setCallForward => some .responseVoid
  | .queryCallWaiting => some .responseInts
  | .setCallWaiting => some .responseVoid
  | .smsAcknowledge => some .responseVoid
  | .getImei => some .responseString
  | .getImeisv => some .responseString
  | .answer => some .responseVoid
  | .deactivateDataCall => some .responseVoid
  | .queryFacilityLock => some .responseInts
  | .setFacilityLock => some .responseInts
  | .changeBarringPassword => some .responseVoid
  | .queryNetworkSelectionMode => some .responseInts
  | .setNetworkSelectionAutomatic => some .responseVoid
  | .setNetworkSelectionManual => some .responseVoid
  | .queryAvailableNetworks => some .responseOperatorInfos
  | .dtmfStart => some .responseVoid
  | .dtmfStop => some .responseVoid
  | .basebandVersion => some .responseString
  | .separateConnection => some .responseVoid
  | .setMute => some .responseVoid
  | .getMute => some .responseInts
  | .queryClip => some .responseInts
  | .lastDataCallFailCause => some .responseInts
  | .dataCallList => some .responseDataCallList
  | .resetRadio => some .responseVoid
  | .oemHookRaw => some .responseRaw
  | .oemHookStrings => some .responseStrings
  | .screenState => some .responseVoid
  | .setSuppSvcNotification => some .responseVoid
  | .writeSmsToSim => some .responseInts
  | .deleteSmsOnSim => some .responseVoid
  | .setBandMode => some .responseVoid
  | .queryAvailableBandMode => some .responseInts
  | .stkGetProfile => some .responseString
  | .stkSetProfile => some .responseVoid
  | .stkSendEnvelopeCommand => some .responseString
  | .stkSendTerminalResponse => some .responseVoid
  | .stkHandleCallSetupRequestedFromSim => some .responseInts
  | .explicitCallTransfer => some .responseVoid
  | .setPreferredNetworkType => some .responseVoid
  | .getPreferredNetworkType => some .responseGetPreferredNetworkType
  | .getNeighboringCellIds => some .responseCellList
  | .setLocationUpdates => some .responseVoid
  | .cdmaSetSubscriptionSource => some .responseVoid
  | .cdmaSetRoamingPreference => some .responseVoid
  | .cdmaQueryRoamingPreference => some .responseInts
  | .setTtyMode => some .responseVoid
  | .queryTtyMode => some .responseInts
  | .cdmaSetPreferredVoicePrivacyMode => some .responseVoid
  | .cdmaQueryPreferredVoicePrivacyMode => some .responseInts
  | .cdmaFlash => some .responseVoid
  | .cdmaBurstDtmf => some .responseVoid
  | .cdmaSendSms => some .responseSMS
  | .cdmaSmsAcknowledge => some .responseVoid
  | .gsmGetBroadcastConfig => some .responseGmsBroadcastConfig
  | .gsmSetBroadcastConfig => some .responseVoid
  | .gsmBroadcastActivation => some .responseVoid
  | .cdmaGetBroadcastConfig => some .responseCdmaBroadcastConfig
  | .cdmaSetBroadcastConfig => some .responseVoid
  | .cdmaBroadcastActivation => some .responseVoid
  | .cdmaValidateAndWriteAkey => some .responseVoid
  | .cdmaSubscription => some .responseStrings
  | .cdmaWriteSmsToRuim => some .responseInts
  | .cdmaDeleteSmsOnRuim => some .responseVoid
  | .deviceIdentity => some .responseStrings
  | .getSmscAddress => some .responseString
  | .setSmscAddress => some .responseVoid
  | .exitEmergencyCallbackMode => some .responseVoid
  | .reportSmsMemoryStatus => some .responseVoid
  | .reportStkServiceIsRunning => some .responseVoid
  | .cdmaGetSubscriptionSource => some .responseVoid
  | .isimAuthentication => some .responseString
  | .acknowledgeIncomingGsmSmsWithPdu => some .responseVoid
  | .stkSendEnvelopeWithStatus => some .responseIccIo
  | .voiceRadioTech => some .responseInts
  | .other _ => none

/-- What a Message can be completed with instead of a value. -/
inductive Exn (Thr : Type) where
  /-- Thrown by a decoder. -/
  | decoder (tr : Thr)
  /-- The `RuntimeException` of the switch's default. -/
  | unrecognizedSolicitedResponse (mRequest : RilRequest)
  /-- `CommandException.fromRilErrno`. -/
  | commandException (error : Int)

structure AsyncResult (Obj Thr : Type) where
  result : Option Obj
  exception : Option (Exn Thr)

structure RILRequest (Msg : Type) where
  mSerial : Int
  mRequest : RilRequest
  /-- The ints written to the request's parcel after its header. -/
  mParcel : List Int
  mResult : Option Msg

/-- Every decoder: it returns (`none` is Java's `null`) or throws, and leaves the parcel where it
    stopped reading. -/
abbrev Decode (Obj Thr : Type) := Decoder → Parcel → Except Thr (Option Obj) × Parcel

/-- What one call of `processSolicited` does: the value it returns, the requests still pending, and
    the Messages it sends to their targets, in order. -/
structure Reply (Msg Obj Thr : Type) where
  returned : Option (RILRequest Msg)
  mRequestList : List (RILRequest Msg)
  sent : List (Msg × AsyncResult Obj Thr)

variable {Msg Obj Thr : Type}

/-! ## The method -/

/-- `findAndRemoveRequestFromList`: the pending request with this serial, and the others. -/
def findAndRemoveRequestFromList (serial : Int) :
    List (RILRequest Msg) → Option (RILRequest Msg × List (RILRequest Msg))
  | [] => none
  | rr :: rrs =>
    if rr.mSerial = serial then some (rr, rrs)
    else (findAndRemoveRequestFromList serial rrs).map fun f => (f.1, rr :: f.2)

/-- `AsyncResult.forMessage(mResult, result, exception); mResult.sendToTarget()` unless `mResult`
    is null. -/
def forMessage (mResult : Option Msg) (ar : AsyncResult Obj Thr) :
    List (Msg × AsyncResult Obj Thr) :=
  mResult.toList.map fun m => (m, ar)

/-- `RILRequest.onError`. -/
def onError (rr : RILRequest Msg) (error : Int) (ret : Option Obj) :
    List (Msg × AsyncResult Obj Thr) :=
  forMessage rr.mResult ⟨ret, some (.commandException error)⟩

/-- The body of the first `try`: run the decoder of the request number. -/
def decodeSolicited (decode : Decode Obj Thr) (mRequest : RilRequest) (p : Parcel) :
    Except (Exn Thr) (Option Obj) × Parcel :=
  match decoderOf mRequest with
  | some d => ((decode d p).1.mapError .decoder, (decode d p).2)
  | none => (.error (.unrecognizedSolicitedResponse mRequest), p)

/-- The error codes that are reported: all but the one the SMS workaround takes for a success. -/
def isReported (error : Int) (mRequest : RilRequest) : Prop :=
  error ≠ 0 ∧ ¬ (error = -1 ∧ mRequest = .sendSms)

instance (error : Int) (mRequest : RilRequest) : Decidable (isReported error mRequest) :=
  inferInstanceAs (Decidable (_ ∧ _))

/-- The part of the method after the payload has been decoded to `ret`. -/
def finishSolicited (decode : Decode Obj Thr) (rr : RILRequest Msg) (error : Int)
    (ret : Option Obj) (p : Parcel) : List (Msg × AsyncResult Obj Thr) :=
  if error ≠ 0 then
    -- ugly fix for Samsung messing up SMS_SEND request fail in binary RIL
    if ¬ (error = -1 ∧ rr.mRequest = .sendSms) then onError rr error ret
    else
      match (decode .responseSMS p).1 with
      | .ok ret => forMessage rr.mResult ⟨ret, none⟩
      | .error _ => onError rr error ret
  else forMessage rr.mResult ⟨ret, none⟩

def processSolicited (decode : Decode Obj Thr) (mRequestList : List (RILRequest Msg))
    (p : Parcel) : Reply Msg Obj Thr :=
  let serial := p.readInt.1
  let error := p.readInt.2.readInt.1
  let p := p.readInt.2.readInt.2
  match findAndRemoveRequestFromList serial mRequestList with
  | none => ⟨none, mRequestList, []⟩
  | some (rr, rest) =>
    if error = 0 ∨ 0 < p.dataAvail then
      -- either command succeeds or command fails but with data payload
      match decodeSolicited decode rr.mRequest p with
      | (.ok ret, p) => ⟨some rr, rest, finishSolicited decode rr error ret p⟩
      | (.error tr, _) => ⟨some rr, rest, forMessage rr.mResult ⟨none, some tr⟩⟩
    else ⟨some rr, rest, finishSolicited decode rr error none p⟩

/-! ## What a reply completes a Message with -/

/-- The serial a reply carries. -/
def replySerial (p : Parcel) : Int := p.readInt.1

/-- The error code a reply carries. -/
def replyError (p : Parcel) : Int := p.readInt.2.readInt.1

/-- What is behind the serial and the error code. -/
def replyBody (p : Parcel) : Parcel := p.readInt.2.readInt.2

/-- There is something to decode: the command succeeded, or it failed with a payload. -/
def HasPayload (p : Parcel) : Prop := replyError p = 0 ∨ 0 < (replyBody p).dataAvail

instance (p : Parcel) : Decidable (HasPayload p) := inferInstanceAs (Decidable (_ ∨ _))

/-- The completion `ar` is right once the payload has been decoded to `ret`, up to `rest`: the value
    when there is no error, an exception for an error code that is reported, and for a failed
    `sendSms` what `responseSMS` makes of the rest. -/
structure Finished (decode : Decode Obj Thr) (mRequest : RilRequest) (error : Int)
    (ret : Option Obj) (rest : Parcel) (ar : AsyncResult Obj Thr) : Prop where
  value : error = 0 → ar = ⟨ret, none⟩
  reported : isReported error mRequest → ar = ⟨ret, some (.commandException error)⟩
  smsValue : error = -1 → mRequest = .sendSms →
    ∀ v, (decode .responseSMS rest).1 = .ok v → ar = ⟨v, none⟩
  smsThrew : error = -1 → mRequest = .sendSms →
    ∀ tr, (decode .responseSMS rest).1 = .error tr → ar = ⟨ret, some (.commandException error)⟩

/-- The completion `ar` is right for the reply `p` to a request of this number. -/
structure Delivered (decode : Decode Obj Thr) (mRequest : RilRequest) (p : Parcel)
    (ar : AsyncResult Obj Thr) : Prop where
  decoded : HasPayload p → ∀ d, decoderOf mRequest = some d →
    ∀ ret, (decode d (replyBody p)).1 = .ok ret →
      Finished decode mRequest (replyError p) ret (decode d (replyBody p)).2 ar
  threw : HasPayload p → ∀ d, decoderOf mRequest = some d →
    ∀ tr, (decode d (replyBody p)).1 = .error tr → ar = ⟨none, some (.decoder tr)⟩
  unrecognized : HasPayload p → decoderOf mRequest = none →
    ar = ⟨none, some (.unrecognizedSolicitedResponse mRequest)⟩
  /-- Nothing to decode: the value is null. -/
  empty : ¬ HasPayload p → Finished decode mRequest (replyError p) none (replyBody p) ar

/-- An error code that is reported always completes the Message with an exception. -/
theorem Delivered.exception {decode : Decode Obj Thr} {mRequest : RilRequest} {p : Parcel}
    {ar : AsyncResult Obj Thr} (h : Delivered decode mRequest p ar)
    (hrep : isReported (replyError p) mRequest) : ar.exception.isSome = true := by
  by_cases hp : HasPayload p
  · cases hd : decoderOf mRequest with
    | none => rw [h.unrecognized hp hd]; rfl
    | some d =>
      cases hr : (decode d (replyBody p)).1 with
      | error tr => rw [h.threw hp d hd tr hr]; rfl
      | ok ret => rw [(h.decoded hp d hd ret hr).reported hrep]; rfl
  · rw [(h.empty hp).reported hrep]
    rfl

theorem findAndRemove_none {serial : Int} {l : List (RILRequest Msg)}
    (h : findAndRemoveRequestFromList serial l = none) : ∀ rr ∈ l, rr.mSerial ≠ serial := by
  induction l with
  | nil => intro rr hrr; exact absurd hrr List.not_mem_nil
  | cons a l ih =>
    simp only [findAndRemoveRequestFromList] at h
    by_cases ha : a.mSerial = serial
    · rw [if_pos ha] at h
      exact absurd h (by simp)
    · rw [if_neg ha, Option.map_eq_none_iff] at h
      intro rr hrr
      rcases List.mem_cons.mp hrr with rfl | hrr
      · exact ha
      · exact ih h rr hrr

/-- The request found is the first with the serial, and the others stay in order. -/
theorem findAndRemove_some {serial : Int} {l rest : List (RILRequest Msg)} {rr : RILRequest Msg}
    (h : findAndRemoveRequestFromList serial l = some (rr, rest)) :
    ∃ pre post, l = pre ++ rr :: post ∧ rest = pre ++ post ∧ rr.mSerial = serial ∧
      ∀ r ∈ pre, r.mSerial ≠ serial := by
  induction l generalizing rest with
  | nil => exact absurd h (by simp [findAndRemoveRequestFromList])
  | cons a l ih =>
    simp only [findAndRemoveRequestFromList] at h
    by_cases ha : a.mSerial = serial
    · rw [if_pos ha] at h
      cases h
      exact ⟨[], l, rfl, rfl, ha, fun r hr => absurd hr List.not_mem_nil⟩
    · rw [if_neg ha, Option.map_eq_some_iff] at h
      obtain ⟨⟨rr', rest'⟩, hf, he⟩ := h
      cases he
      obtain ⟨pre, post, hl, hr, hs, hpre⟩ := ih hf
      refine ⟨a :: pre, post, by rw [hl]; rfl, by rw [hr]; rfl, hs, ?_⟩
      intro r hmem
      rcases List.mem_cons.mp hmem with rfl | hmem
      · exact ha
      · exact hpre r hmem

/-- The second half of the method sends one completion, and the right one for the value and the
    parcel the first half hands it. -/
theorem finishSolicited_spec (decode : Decode Obj Thr) (rr : RILRequest Msg) (error : Int)
    (ret : Option Obj) (p : Parcel) :
    ∃ ar, finishSolicited decode rr error ret p = forMessage rr.mResult ar ∧
      Finished decode rr.mRequest error ret p ar := by
  unfold finishSolicited
  by_cases h0 : error = 0
  · subst h0
    rw [if_neg (by simp)]
    exact ⟨_, rfl, fun _ => rfl, fun h => absurd rfl h.1, by simp, by simp⟩
  · rw [if_pos h0]
    by_cases hsms : error = -1 ∧ rr.mRequest = .sendSms
    · rw [if_neg (not_not.mpr hsms)]
      cases hd : (decode .responseSMS p).1 with
      | ok v =>
        refine ⟨_, rfl, fun h => absurd h h0, fun h => absurd hsms h.2, fun _ _ v' hv => ?_, ?_⟩
        · rw [Except.ok.inj (hd.symm.trans hv)]
        · intro _ _ tr htr
          exact absurd (hd.symm.trans htr) (by simp)
      | error tr =>
        refine ⟨_, rfl, fun h => absurd h h0, fun h => absurd hsms h.2, ?_, fun _ _ _ _ => rfl⟩
        intro _ _ v hv
        exact absurd (hd.symm.trans hv) (by simp)
    · rw [if_pos hsms]
      refine ⟨_, rfl, fun h => absurd h h0, fun _ => rfl, ?_, ?_⟩
      · intro h1 h2
        exact absurd ⟨h1, h2⟩ hsms
      · intro h1 h2
        exact absurd ⟨h1, h2⟩ hsms

section Found

variable (decode : Decode Obj Thr) {mRequestList rest : List (RILRequest Msg)} {p : Parcel}
  {rr : RILRequest Msg}

/-- With a payload to decode the decoder runs first. -/
theorem processSolicited_decoded
    (hf : findAndRemoveRequestFromList (replySerial p) mRequestList = some (rr, rest))
    (hp : HasPayload p) :
    processSolicited decode mRequestList p =
      match decodeSolicited decode rr.mRequest (replyBody p) with
      | (.ok ret, p') => ⟨some rr, rest, finishSolicited decode rr (replyError p) ret p'⟩
      | (.error tr, _) => ⟨some rr, rest, forMessage rr.mResult ⟨none, some tr⟩⟩ := by
  unfold replySerial at hf
  simp only [processSolicited, hf]
  exact if_pos hp

/-- With none the method goes on with null. -/
theorem processSolicited_empty
    (hf : findAndRemoveRequestFromList (replySerial p) mRequestList = some (rr, rest))
    (hp : ¬ HasPayload p) :
    processSolicited decode mRequestList p =
      ⟨some rr, rest, finishSolicited decode rr (replyError p) none (replyBody p)⟩ := by
  unfold replySerial at hf
  simp only [processSolicited, hf]
  exact if_neg hp

/-- A request that is found is completed once and rightly. -/
theorem processSolicited_found
    (hf : findAndRemoveRequestFromList (replySerial p) mRequestList = some (rr, rest)) :
    ∃ ar, processSolicited decode mRequestList p = ⟨some rr, rest, forMessage rr.mResult ar⟩ ∧
      Delivered decode rr.mRequest p ar := by
  by_cases hp : HasPayload p
  · rw [processSolicited_decoded decode hf hp]
    cases hd : decoderOf rr.mRequest with
    | none =>
      simp only [decodeSolicited, hd]
      refine ⟨_, rfl, ?_, ?_, fun _ _ => rfl, fun h => absurd hp h⟩
      · intro _ d hd'
        exact absurd (hd.symm.trans hd') (by simp)
      · intro _ d hd'
        exact absurd (hd.symm.trans hd') (by simp)
    | some d =>
      simp only [decodeSolicited, hd]
      -- the decoder of the request number is the one the switch runs
      have hsame : ∀ d', decoderOf rr.mRequest = some d' → d = d' := fun d' hd' =>
        Option.some.inj (hd.symm.trans hd')
      cases hr : (decode d (replyBody p)).1 with
      | error tr =>
        refine ⟨_, rfl, ?_, ?_, ?_, fun h => absurd hp h⟩
        · intro _ d' hd' ret hret
          obtain rfl := hsame d' hd'
          exact absurd (hr.symm.trans hret) (by simp)
        · intro _ d' hd' tr' htr
          obtain rfl := hsame d' hd'
          rw [Except.error.inj (hr.symm.trans htr)]
        · intro _ hd'
          exact absurd (hd.symm.trans hd') (by simp)
      | ok ret =>
        obtain ⟨ar, hfin, hc⟩ :=
          finishSolicited_spec decode rr (replyError p) ret (decode d (replyBody p)).2
        refine ⟨ar, by rw [← hfin]; rfl, ?_, ?_, ?_, fun h => absurd hp h⟩
        · intro _ d' hd' ret' hret
          obtain rfl := hsame d' hd'
          obtain rfl := Except.ok.inj (hr.symm.trans hret)
          exact hc
        · intro _ d' hd' tr htr
          obtain rfl := hsame d' hd'
          exact absurd (hr.symm.trans htr) (by simp)
        · intro _ hd'
          exact absurd (hd.symm.trans hd') (by simp)
  · rw [processSolicited_empty decode hf hp]
    obtain ⟨ar, hfin, hc⟩ := finishSolicited_spec decode rr (replyError p) none (replyBody p)
    exact ⟨ar, by rw [← hfin], fun h => absurd h hp, fun h => absurd h hp,
      fun h => absurd h hp, fun _ => hc⟩

end Found

/-- **What a reply does.**  Nothing at all when its serial is unknown; otherwise it takes exactly the
    request it answers off the list and completes that request's Message, once and rightly. -/
theorem processSolicited_spec (decode : Decode Obj Thr) (mRequestList : List (RILRequest Msg))
    (p : Parcel) :
    ((∀ rr ∈ mRequestList, rr.mSerial ≠ replySerial p) ∧
      processSolicited decode mRequestList p = ⟨none, mRequestList, []⟩) ∨
    ∃ pre rr post ar, mRequestList = pre ++ rr :: post ∧ rr.mSerial = replySerial p ∧
      (∀ r ∈ pre, r.mSerial ≠ replySerial p) ∧
      processSolicited decode mRequestList p = ⟨some rr, pre ++ post, forMessage rr.mResult ar⟩ ∧
      Delivered decode rr.mRequest p ar := by
  cases hf : findAndRemoveRequestFromList (replySerial p) mRequestList with
  | none =>
    unfold replySerial at hf
    exact Or.inl ⟨findAndRemove_none hf, by simp only [processSolicited, hf]⟩
  | some f =>
    obtain ⟨rr, rest⟩ := f
    obtain ⟨pre, post, hl, hrest, hs, hpre⟩ := findAndRemove_some hf
    obtain ⟨ar, he, hc⟩ := processSolicited_found decode hf
    exact Or.inr ⟨pre, rr, post, ar, hl, hs, hpre, hrest ▸ he, hc⟩

/-- **Every solicited response is delivered exactly once.** -/
theorem processSolicited_exactly_once (decode : Decode Obj Thr)
    (mRequestList : List (RILRequest Msg)) (p : Parcel) :
    ((∀ rr ∈ mRequestList, rr.mSerial ≠ replySerial p) →
      (processSolicited decode mRequestList p).returned = none ∧
      (processSolicited decode mRequestList p).mRequestList = mRequestList ∧
      (processSolicited decode mRequestList p).sent = []) ∧
    ((∃ rr ∈ mRequestList, rr.mSerial = replySerial p) →
      ∃ pre rr post, mRequestList = pre ++ rr :: post ∧ rr.mSerial = replySerial p ∧
        (∀ r ∈ pre, r.mSerial ≠ replySerial p) ∧
        (processSolicited decode mRequestList p).returned = some rr ∧
        (processSolicited decode mRequestList p).mRequestList = pre ++ post ∧
        (rr.mResult = none → (processSolicited decode mRequestList p).sent = []) ∧
        ∀ m, rr.mResult = some m →
          ∃ ar, (processSolicited decode mRequestList p).sent = [(m, ar)] ∧
            Delivered decode rr.mRequest p ar) := by
  rcases processSolicited_spec decode mRequestList p with ⟨hne, he⟩ | ⟨pre, rr, post, ar, h⟩
  · refine ⟨fun _ => by rw [he]; exact ⟨rfl, rfl, rfl⟩, ?_⟩
    rintro ⟨rr, hrr, hs⟩
    exact absurd hs (hne rr hrr)
  · obtain ⟨hl, hs, hpre, he, hc⟩ := h
    constructor
    · intro hne
      exact absurd hs (hne rr (by rw [hl]; simp))
    · intro _
      refine ⟨pre, rr, post, hl, hs, hpre, by rw [he], by rw [he], ?_, ?_⟩
      · intro hm
        rw [he, hm]
        rfl
      · intro m hm
        exact ⟨ar, by rw [he, hm]; rfl, hc⟩

end Codina.Ril
