/-
  The workaround for failed SMS requests: what the request's Message is given.

  The vendor's RIL answers `RIL_REQUEST_SEND_SMS` with error -1 and a payload that is the response all
  the same.  `processSolicited` decodes a payload as soon as there is one, and decodes once more in the
  branch of the workaround, with the same parcel.  The second decoding starts where the first one
  stopped: behind the payload, where a parcel yields 0 and null.

  So the response is delivered only when there was no first decoding (an empty payload), or when the
  response is itself what a parcel yields behind its end (`workaround_delivers_iff`).  Every other
  message reference, PDU and error code is lost.
-/
import Codina.Ril.CallList
import Codina.Ril.Solicited

namespace Codina.Ril.SmsFix

open Codina.Bytes Codina.Codec Parcel
open Codina.Ril.CallList (Text Units writeStringToParcel takes_text)

/-! ## An SMS response and its decoder -/

/-- `RIL_SMS_Response`. -/
structure RilSmsResponse where
  messageRef : BitVec 32
  ackPDU : Option Text
  errorCode : BitVec 32

/-- What is written for it. -/
def encodeSMS (r : RilSmsResponse) : List Byte :=
  [writeInt32 r.messageRef, writeStringToParcel r.ackPDU, writeInt32 r.errorCode].flatten

/-- `SmsResponse`. -/
structure SmsResponse where
  mMessageRef : Int
  mAckPdu : Option Units
  mErrorCode : Int
deriving DecidableEq

variable {Msg Obj Thr E : Type}

/-- `responseSMS`. -/
def responseSMS : Reader E Parcel SmsResponse := do
  let messageRef ← reader readInt
  let ackPDU ← reader readString
  let errorCode ← reader readInt
  return ⟨messageRef, ackPDU, errorCode⟩

/-- The decoders, with `responseSMS` for the one of that name; the others are any. -/
def decodeWith (others : Decode (SmsResponse ⊕ Obj) Thr) : Decode (SmsResponse ⊕ Obj) Thr
  | .responseSMS, p =>
    let r : Except Thr SmsResponse × Parcel := responseSMS p
    (r.1.map fun sms => some (.inl sms), r.2)
  | d, p => others d p

/-- The response an `RIL_SMS_Response` stands for. -/
def RilSmsResponse.value (r : RilSmsResponse) : SmsResponse :=
  ⟨r.messageRef.toInt, r.ackPDU.map Subtype.val, r.errorCode.toInt⟩

/-- The response whose fields are what a parcel yields behind its end. -/
def blank : RilSmsResponse := ⟨0, none, 0⟩

/-! ## The decoder on a payload, and behind it -/

/-- What `responseSMS` reads, and where it stops. -/
def smsAt (p : Parcel) : SmsResponse × Parcel :=
  (⟨p.readInt.1, p.readInt.2.readString.1, p.readInt.2.readString.2.readInt.1⟩,
    p.readInt.2.readString.2.readInt.2)

theorem reader_eq {α : Type} (f : Parcel → α × Parcel) (p : Parcel) :
    (reader f : Reader E Parcel α) p = (.ok (f p).1, (f p).2) := rfl

/-- `responseSMS` throws nothing. -/
theorem responseSMS_eq (p : Parcel) :
    (responseSMS : Reader E Parcel SmsResponse) p = (.ok (smsAt p).1, (smsAt p).2) := by
  unfold responseSMS
  rw [bind_of_ok (reader_eq _ _), bind_of_ok (reader_eq _ _), bind_of_ok (reader_eq _ _)]
  rfl

theorem smsAt_of_eq {p q : Parcel} {sms : SmsResponse}
    (h : (responseSMS : Reader E Parcel SmsResponse) p = (.ok sms, q)) : smsAt p = (sms, q) := by
  rw [responseSMS_eq] at h
  have hvalue := congrArg Prod.fst h
  have hparcel := congrArg Prod.snd h
  exact Prod.ext (Except.ok.inj hvalue) hparcel

theorem takes_responseSMS (r : RilSmsResponse) :
    Takes Parcel.mk (responseSMS : Reader E Parcel SmsResponse) (encodeSMS r) r.value := by
  refine (takes_int r.messageRef).field ?_
  refine (takes_text r.ackPDU).field ?_
  exact (takes_int r.errorCode).field (Takes.done _)

theorem readInt_end {p : Parcel} (h : p.dataAvail = 0) : p.readInt = (0, p) := by
  unfold dataAvail at h
  unfold readInt
  rw [if_neg (by omega)]

theorem readString_end {p : Parcel} (h : p.dataAvail = 0) : p.readString = (none, p) := by
  have hplace : p.readInplace ((0 + 1) * 2) = none := by
    unfold dataAvail at h
    unfold readInplace padSize
    rw [if_neg (by omega)]
  unfold readString
  rw [readInt_end h]
  show (if (0 : Int) ≤ 0 ∧ (0 : Int) < 2 ^ 31 - 1 then _ else _) = _
  rw [if_pos (by decide), show (0 : Int).toNat = 0 from rfl, hplace]

/-- Behind the end there is the blank response, as often as one asks. -/
theorem responseSMS_end {p : Parcel} (h : p.dataAvail = 0) :
    (responseSMS : Reader E Parcel SmsResponse) p = (.ok blank.value, p) := by
  have hint : (reader readInt : Reader E Parcel Int) p = (.ok 0, p) := by
    rw [reader_eq, readInt_end h]
  have hstring : (reader readString : Reader E Parcel (Option Units)) p = (.ok none, p) := by
    rw [reader_eq, readString_end h]
  unfold responseSMS
  rw [bind_of_ok hint, bind_of_ok hstring, bind_of_ok hint]
  rfl

theorem value_blank_iff (r : RilSmsResponse) : r.value = blank.value ↔ r = blank := by
  constructor
  · intro h
    obtain ⟨ref, pdu, code⟩ := r
    simp only [RilSmsResponse.value, blank, SmsResponse.mk.injEq, Option.map_none,
      Option.map_eq_none_iff] at h
    obtain ⟨href, rfl, hcode⟩ := h
    rw [BitVec.eq_of_toInt_eq href, BitVec.eq_of_toInt_eq hcode]
    rfl
  · rintro rfl
    rfl

/-- An encoding tells its response. -/
theorem encodeSMS_blank_iff (r : RilSmsResponse) : encodeSMS r = encodeSMS blank ↔ r = blank := by
  constructor
  · intro h
    have hr := smsAt_of_eq (takes_responseSMS (E := Empty) r [] [])
    have hb := smsAt_of_eq (takes_responseSMS (E := Empty) blank [] [])
    rw [h, hb] at hr
    exact (value_blank_iff r).mp (congrArg Prod.fst hr).symm
  · rintro rfl
    rfl

/-! ## From the reply to the Message -/

/-- The parcel behind the serial and the error of a reply. -/
def atPayload (p : Parcel) : Parcel := p.readInt.2.readInt.2

/-- Where the last decoding of a failed `sendSms` starts: behind the first one, if there was one. -/
def lastStart (p : Parcel) : Parcel :=
  if 0 < (atPayload p).dataAvail then (smsAt (atPayload p)).2 else atPayload p

/-- The Message gets what the payload decodes to, read once from its start. -/
def DeliversPayload (others : Decode (SmsResponse ⊕ Obj) Thr) (mRequestList : List (RILRequest Msg))
    (p : Parcel) (m : Msg) : Prop :=
  ∃ sms, (responseSMS (atPayload p)).1 = (.ok sms : Except Thr SmsResponse) ∧
    (processSolicited (decodeWith others) mRequestList p).sent = [(m, ⟨some (.inl sms), none⟩)]

theorem decodeWith_sms (others : Decode (SmsResponse ⊕ Obj) Thr) (p : Parcel) :
    decodeWith others .responseSMS p = (.ok (some (.inl (smsAt p).1)), (smsAt p).2) := by
  simp only [decodeWith, responseSMS_eq, Except.map]

theorem decodeSolicited_sms (others : Decode (SmsResponse ⊕ Obj) Thr) (p : Parcel) :
    decodeSolicited (decodeWith others) .sendSms p =
      (.ok (some (.inl (smsAt p).1)), (smsAt p).2) := by
  simp only [decodeSolicited, decoderOf, decodeWith_sms, Except.mapError]

/-- The branch of the workaround decodes at the parcel it is handed. -/
theorem finishSolicited_sms (others : Decode (SmsResponse ⊕ Obj) Thr) {rr : RILRequest Msg} {m : Msg}
    (hreq : rr.mRequest = .sendSms) (hm : rr.mResult = some m) (ret : Option (SmsResponse ⊕ Obj))
    (p : Parcel) :
    finishSolicited (decodeWith others) rr (-1) ret p = [(m, ⟨some (.inl (smsAt p).1), none⟩)] := by
  unfold finishSolicited
  rw [if_pos (by decide), if_neg (not_not.mpr ⟨rfl, hreq⟩), decodeWith_sms, hm]
  rfl

/-- **What the workaround sends**, for any payload at all: the response read at `lastStart`. -/
theorem workaround_sends (others : Decode (SmsResponse ⊕ Obj) Thr)
    {mRequestList rest : List (RILRequest Msg)} {p : Parcel} {rr : RILRequest Msg} {m : Msg}
    (hf : findAndRemoveRequestFromList (replySerial p) mRequestList = some (rr, rest))
    (herror : replyError p = -1) (hreq : rr.mRequest = .sendSms) (hm : rr.mResult = some m) :
    (processSolicited (decodeWith others) mRequestList p).sent =
      [(m, ⟨some (.inl (smsAt (lastStart p)).1), none⟩)] := by
  unfold replySerial at hf
  unfold replyError at herror
  unfold processSolicited
  simp only [hf, herror, hreq, decodeSolicited_sms]
  by_cases havail : 0 < (atPayload p).dataAvail
  · rw [lastStart, if_pos havail]
    unfold atPayload at havail ⊢
    rw [if_pos (Or.inr havail)]
    exact finishSolicited_sms others hreq hm _ _
  · rw [lastStart, if_neg havail]
    unfold atPayload at havail ⊢
    rw [if_neg (by simp [havail])]
    exact finishSolicited_sms others hreq hm _ _

/-- A failed reply at any position of a parcel: the serial, the error -1, and the payload up to the
    end. -/
def failedReply (pre : List Byte) (serial : BitVec 32) (payload : List Byte) : Parcel :=
  ⟨pre ++ (writeInt32 serial ++ (writeInt32 (-1) ++ payload)), pre.length⟩

theorem failedReply_serial (pre : List Byte) (serial : BitVec 32) (payload : List Byte) :
    replySerial (failedReply pre serial payload) = serial.toInt := by
  unfold replySerial failedReply
  rw [readInt_at]

theorem failedReply_behind (pre : List Byte) (serial : BitVec 32) (payload : List Byte) :
    (failedReply pre serial payload).readInt.2.readInt =
      (-1, ⟨(pre ++ writeInt32 serial ++ writeInt32 (-1)) ++ payload,
        (pre ++ writeInt32 serial ++ writeInt32 (-1)).length⟩) := by
  have hsecond := readInt_at (pre ++ writeInt32 serial) payload (-1)
  unfold failedReply
  rw [readInt_at]
  simp only [List.append_assoc, List.length_append] at hsecond ⊢
  exact hsecond

/-! ## Exactly when the payload is delivered -/

/-- The last decoding of a reply that holds an encoded response starts at the end. -/
theorem lastStart_end (pre : List Byte) (serial : BitVec 32) (r : RilSmsResponse) :
    (lastStart (failedReply pre serial (encodeSMS r))).dataAvail = 0 := by
  have htakes := takes_responseSMS (E := Empty) r
    (pre ++ writeInt32 serial ++ writeInt32 (-1)) []
  have hlen : 0 < (encodeSMS r).length := by
    rw [encodeSMS, List.flatten_cons, List.length_append]
    exact Nat.lt_of_lt_of_le (by decide : 0 < 4) (Nat.le_add_right _ _)
  rw [List.append_nil] at htakes
  have hat := congrArg Prod.snd (failedReply_behind pre serial (encodeSMS r))
  unfold lastStart
  rw [show atPayload (failedReply pre serial (encodeSMS r)) = _ from hat, if_pos, smsAt_of_eq htakes]
  · simp only [dataAvail, dataSize, List.length_append]
    omega
  · simp only [dataAvail, dataSize, List.length_append]
    omega

/-- What the payload decodes to, read from its start. -/
theorem smsAt_first (pre : List Byte) (serial : BitVec 32) (r : RilSmsResponse) :
    (smsAt (atPayload (failedReply pre serial (encodeSMS r)))).1 = r.value := by
  have htakes := takes_responseSMS (E := Empty) r (pre ++ writeInt32 serial ++ writeInt32 (-1)) []
  rw [List.append_nil] at htakes
  rw [show atPayload (failedReply pre serial (encodeSMS r)) = _ from
    congrArg Prod.snd (failedReply_behind pre serial (encodeSMS r)), smsAt_of_eq htakes]

/-- What the workaround decodes. -/
theorem smsAt_last (pre : List Byte) (serial : BitVec 32) (r : RilSmsResponse) :
    (smsAt (lastStart (failedReply pre serial (encodeSMS r)))).1 = blank.value := by
  rw [smsAt_of_eq (responseSMS_end (E := Empty) (lastStart_end pre serial r))]

section Delivered

variable (others : Decode (SmsResponse ⊕ Obj) Thr) {mRequestList rest : List (RILRequest Msg)}
  {pre : List Byte} {serial : BitVec 32} {payload : List Byte} {rr : RILRequest Msg} {m : Msg}

theorem sent_failedReply
    (hf : findAndRemoveRequestFromList serial.toInt mRequestList = some (rr, rest))
    (hreq : rr.mRequest = .sendSms) (hm : rr.mResult = some m) :
    (processSolicited (decodeWith others) mRequestList (failedReply pre serial payload)).sent =
      [(m, ⟨some (.inl (smsAt (lastStart (failedReply pre serial payload))).1), none⟩)] := by
  have herror : replyError (failedReply pre serial payload) = -1 := by
    rw [replyError, failedReply_behind]
  exact workaround_sends others (by rw [failedReply_serial]; exact hf) herror hreq hm

/-- The payload is delivered when the last decoding gives what the first one gave. -/
theorem delivers_iff
    (hf : findAndRemoveRequestFromList serial.toInt mRequestList = some (rr, rest))
    (hreq : rr.mRequest = .sendSms) (hm : rr.mResult = some m) :
    DeliversPayload others mRequestList (failedReply pre serial payload) m ↔
      (smsAt (atPayload (failedReply pre serial payload))).1 =
        (smsAt (lastStart (failedReply pre serial payload))).1 := by
  unfold DeliversPayload
  rw [sent_failedReply others hf hreq hm]
  constructor
  · rintro ⟨sms, hfirst, hlast⟩
    rw [responseSMS_eq] at hfirst
    simp only [List.cons.injEq, Prod.mk.injEq, AsyncResult.mk.injEq, Option.some.injEq,
      Sum.inl.injEq, and_true, true_and] at hlast
    rw [hlast]
    exact Except.ok.inj hfirst
  · intro heq
    exact ⟨_, congrArg Prod.fst (responseSMS_eq _), by rw [heq]⟩

end Delivered

/-- **A failed `sendSms` is answered with its payload's response exactly when the payload is empty or
    is the blank response.**  In every other case the second decoding replaces the response by the
    blank one. -/
theorem workaround_delivers_iff (others : Decode (SmsResponse ⊕ Obj) Thr)
    (mRequestList rest : List (RILRequest Msg)) (pre : List Byte) (serial : BitVec 32)
    (payload : List Byte) (rr : RILRequest Msg) (m : Msg)
    (hf : findAndRemoveRequestFromList serial.toInt mRequestList = some (rr, rest))
    (hreq : rr.mRequest = .sendSms) (hm : rr.mResult = some m)
    (hpayload : payload = [] ∨ ∃ r, payload = encodeSMS r) :
    DeliversPayload others mRequestList (failedReply pre serial payload) m ↔
      payload = [] ∨ payload = encodeSMS blank := by
  rw [delivers_iff others hf hreq hm]
  rcases hpayload with rfl | ⟨r, rfl⟩
  · -- nothing to decode: the workaround's decoding is the only one
    have havail : (atPayload (failedReply pre serial [])).dataAvail = 0 := by
      rw [show atPayload (failedReply pre serial []) = _ from
        congrArg Prod.snd (failedReply_behind pre serial [])]
      simp [dataAvail, dataSize]
    rw [lastStart, if_neg (by omega)]
    exact ⟨fun _ => Or.inl rfl, fun _ => rfl⟩
  · have hne : encodeSMS r ≠ [] := by
      rw [encodeSMS]
      exact List.cons_ne_nil _ _
    rw [smsAt_last, smsAt_first, value_blank_iff, encodeSMS_blank_iff]
    exact ⟨Or.inr, fun h => h.resolve_left hne⟩

/-- A blank response arrives, and so does an empty payload's. -/
theorem blank_response_delivered :
    DeliversPayload (fun _ p => (.ok none, p) : Decode (SmsResponse ⊕ Unit) Unit)
      [⟨9, .sendSms, [], some "sent"⟩] (failedReply [] 9 (encodeSMS blank)) "sent" :=
  (workaround_delivers_iff _ [⟨9, .sendSms, [], some "sent"⟩] [] [] 9 (encodeSMS blank)
    ⟨9, .sendSms, [], some "sent"⟩ "sent" rfl rfl rfl (Or.inr ⟨blank, rfl⟩)).mpr (Or.inr rfl)

/-- The reference of a sent message is lost: 5 is sent, 0 arrives. -/
theorem message_reference_lost :
    (processSolicited (decodeWith (fun _ p => (.ok none, p) : Decode (SmsResponse ⊕ Unit) Unit))
      [⟨9, .sendSms, [], some "sent"⟩] (failedReply [] 9 (encodeSMS ⟨5, none, 0⟩))).sent =
        [("sent", ⟨some (.inl ⟨0, none, 0⟩), none⟩)] ∧
    ¬ DeliversPayload (fun _ p => (.ok none, p) : Decode (SmsResponse ⊕ Unit) Unit)
      [⟨9, .sendSms, [], some "sent"⟩] (failedReply [] 9 (encodeSMS ⟨5, none, 0⟩)) "sent" := by
  have hf : findAndRemoveRequestFromList (9 : BitVec 32).toInt
      [(⟨9, .sendSms, [], some "sent"⟩ : RILRequest String)] =
        some (⟨9, .sendSms, [], some "sent"⟩, []) := rfl
  constructor
  · rw [sent_failedReply _ hf rfl rfl, smsAt_last]
    rfl
  · rw [delivers_iff _ hf rfl rfl, smsAt_last, smsAt_first, value_blank_iff]
    intro h
    exact absurd (congrArg RilSmsResponse.messageRef h) (by decide)

end Codina.Ril.SmsFix
