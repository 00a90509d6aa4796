/-
  The call list: libril's encoder against the RIL's decoder.

  The patched `responseCallList` of libril writes one int more for each call than the AOSP one, an
  `isVideo` that is always 0, and `SamsungU8500RIL.responseCallList` reads it.  The two agree, field by
  field and for lists of any length (`callList_decoded`): the decoder stops exactly where the encoder
  did, and returns the calls stably sorted by index.

  One field is not what it should be.  `numberPresentation` is mapped by `presentationFromCLIP` from
  the modem's code to the framework's constant; `namePresentation`, two reads later, is the raw code.
  The two never coincide, so no list with a call in it is decoded as documented
  (`namePresentation_raw`).

  `DriverCall.stateFromCLCC`, `DriverCall.presentationFromCLIP` and
  `PhoneNumberUtils.stringFromStringAndTOA` belong to the framework: `Framework` carries them with what
  is documented of them.
-/
import Codina.Ril.ParcelFields
import Mathlib.Algebra.BigOperators.Group.List.Basic

namespace Codina.Ril.CallList

open Codina.Bytes Codina.Codec Parcel

/-! ## The calls the vendor reports -/

/-- `RIL_CallState`, and the states of a `DriverCall`. -/
inductive CallState where
  | active | holding | dialing | alerting | incoming | waiting
deriving DecidableEq

def CallState.code : CallState → BitVec 32
  | .active => 0
  | .holding => 1
  | .dialing => 2
  | .alerting => 3
  | .incoming => 4
  | .waiting => 5

/-- How a number or a name is presented. -/
inductive Presentation where
  | allowed | restricted | unknown | payphone
deriving DecidableEq

/-- The code in a `RIL_Call`. -/
def Presentation.code : Presentation → BitVec 32
  | .allowed => 0
  | .restricted => 1
  | .unknown => 2
  | .payphone => 3

/-- The constant of the framework. -/
def Presentation.constant : Presentation → Int
  | .allowed => 1
  | .restricted => 2
  | .unknown => 3
  | .payphone => 4

/-- UTF-16 units. -/
abbrev Units := List (BitVec 16)

/-- A string as `strdup8to16` leaves it; a signed count tells its length. -/
abbrev Text := { u : Units // u.length < 2 ^ 31 - 1 }

/-- `RIL_UUS_Info`, with its data. -/
structure UusInfo where
  uusType : BitVec 32
  uusDcs : BitVec 32
  uusData : List Byte
  uusLength_lt : uusData.length < 2 ^ 31

/-- `RIL_Call`.  The `char` fields are the ints they are written as, strings may be null, and
    `uusInfo` is `none` when there is no user-to-user data to write. -/
structure RilCall where
  state : CallState
  index : BitVec 32
  toa : BitVec 32
  isMpty : BitVec 32
  isMT : BitVec 32
  als : BitVec 32
  isVoice : BitVec 32
  isVoicePrivacy : BitVec 32
  number : Option Text
  numberPresentation : Presentation
  name : Option Text
  namePresentation : Presentation
  uusInfo : Option UusInfo

/-- The calls of one response: their number fits an int. -/
abbrev Calls := { l : List RilCall // l.length < 2 ^ 31 }

/-! ## libril -/

def writeStringToParcel (s : Option Text) : List Byte := writeString16 (s.map Subtype.val)

def writeUusInfo : Option UusInfo → List Byte
  | none => writeInt32 0
  | some uus =>
    [writeInt32 1, writeInt32 uus.uusType, writeInt32 uus.uusDcs,
      writeInt32 (BitVec.ofNat 32 uus.uusData.length) ++ write uus.uusData].flatten

/-- What is written for one call, field by field. -/
def callFields (c : RilCall) : List (List Byte) :=
  [writeInt32 c.state.code, writeInt32 c.index, writeInt32 c.toa, writeInt32 c.isMpty,
    writeInt32 c.isMT, writeInt32 c.als, writeInt32 c.isVoice,
    -- isVideo
    writeInt32 0,
    writeInt32 c.isVoicePrivacy, writeStringToParcel c.number,
    writeInt32 c.numberPresentation.code, writeStringToParcel c.name,
    writeInt32 c.namePresentation.code, writeUusInfo c.uusInfo]

def encodeCalls (calls : List RilCall) : List Byte := calls.flatMap fun c => (callFields c).flatten

/-- `responseCallList` of libril. -/
def encodeCallList (calls : Calls) : List Byte :=
  writeInt32 (BitVec.ofNat 32 calls.val.length) ++ encodeCalls calls.val

/-! ## `SamsungU8500RIL` -/

/-- `UUSInfo`. -/
structure JavaUusInfo where
  uusType : Int
  uusDcs : Int
  userData : List Byte
deriving DecidableEq

structure DriverCall where
  state : CallState
  index : Int
  TOA : Int
  isMpty : Bool
  isMT : Bool
  als : Int
  isVoice : Bool
  isVoicePrivacy : Bool
  number : Option Units
  numberPresentation : Int
  name : Option Units
  namePresentation : Int
  uusInfo : Option JavaUusInfo
deriving DecidableEq

inductive Thrown where
  | illegalCallState
  | illegalPresentation
  | nullPointer
  | illegalCapacity

/-- `'+'`. -/
def plus : BitVec 16 := 43

/-- The leading + of an international number (TOA 145), added where it is missing. -/
def withLeadingPlus (number : Option Units) (toa : Int) : Option Units :=
  match number with
  | some (u :: us) => if toa = 145 ∧ u ≠ plus then some (plus :: u :: us) else some (u :: us)
  | number => number

/-- The functions of the framework, with what is documented of them; `none` is an exception. -/
structure Framework where
  stateFromCLCC : Int → Option CallState
  presentationFromCLIP : Int → Option Int
  stringFromStringAndTOA : Option Units → Int → Option Units
  stateFromCLCC_code : ∀ st : CallState, stateFromCLCC st.code.toInt = some st
  presentationFromCLIP_code : ∀ pr : Presentation,
    presentationFromCLIP pr.code.toInt = some pr.constant
  stringFromStringAndTOA_eq : ∀ s toa, stringFromStringAndTOA s toa = withLeadingPlus s toa

section Decoder

variable (fw : Framework)

abbrev CallReader := Reader Thrown Parcel

def readUusInfo : CallReader (Option JavaUusInfo) := do
  let uusInfoPresent ← reader readInt
  if uusInfoPresent = 1 then do
    let type ← reader readInt
    let dcs ← reader readInt
    -- the length of the array is logged, which throws when there is none
    let userData ← (do ofOption .nullPointer (← reader createByteArray))
    return some ⟨type, dcs, userData⟩
  else return none

/-- The body of the loop, without the notification. -/
def readCall : CallReader DriverCall := do
  let state ← (do ofOption .illegalCallState (fw.stateFromCLCC (← reader readInt)))
  let index ← reader readInt
  let TOA ← reader readInt
  let isMpty ← reader readInt
  let isMT ← reader readInt
  let als ← reader readInt
  let isVoice ← reader readInt
  let _isVideo ← reader readInt
  let isVoicePrivacy ← reader readInt
  let number ← reader readString
  let np ← (do ofOption .illegalPresentation (fw.presentationFromCLIP (← reader readInt)))
  let name ← reader readString
  let namePresentation ← reader readInt
  let uusInfo ← readUusInfo
  return {
    state := state, index := index, TOA := TOA
    isMpty := decide (isMpty ≠ 0), isMT := decide (isMT ≠ 0), als := als
    isVoice := decide (isVoice ≠ 0), isVoicePrivacy := decide (isVoicePrivacy ≠ 0)
    -- Make sure there's a leading + on addresses with a TOA of 145
    number := fw.stringFromStringAndTOA number TOA, numberPresentation := np
    name := name, namePresentation := namePresentation, uusInfo := uusInfo }

/-- The outcome of a decoder, the parcel where it stopped, and for each call read so far which
    voice-privacy registrants were notified: those of on, or those of off. -/
structure Decoded where
  outcome : Except Thrown (List DriverCall)
  parcel : Parcel
  notified : List Bool

/-- The loop, `num` rounds. -/
def readCalls : (num : Nat) → Parcel → Decoded
  | 0, p => ⟨.ok [], p, []⟩
  | num + 1, p =>
    match (readCall fw) p with
    | (.error e, p) => ⟨.error e, p, []⟩
    | (.ok dc, p) =>
      let others := readCalls num p
      ⟨others.outcome.map (dc :: ·), others.parcel, dc.isVoicePrivacy :: others.notified⟩

/-- `Collections.sort` by `DriverCall.compareTo`. -/
def sortCalls (l : List DriverCall) : List DriverCall :=
  l.mergeSort fun a b => decide (a.index ≤ b.index)

def responseCallList (p : Parcel) : Decoded :=
  let num := p.readInt.1
  let p := p.readInt.2
  if num < 0 then ⟨.error .illegalCapacity, p, []⟩
  else
    let r := readCalls fw num.toNat p
    { r with outcome := r.outcome.map sortCalls }

end Decoder

/-! ## A stable sort -/

/-- `l'` is `l` sorted by `key`, elements with equal keys in their old order. -/
structure StablySorted {α : Type} (key : α → Int) (l l' : List α) : Prop where
  perm : l'.Perm l
  sorted : l'.Pairwise fun a b => key a ≤ key b
  stable : ∀ k, l'.filter (fun a => key a = k) = l.filter fun a => key a = k

theorem stablySorted_mergeSort {α : Type} (key : α → Int) (l : List α) :
    StablySorted key l (l.mergeSort fun a b => decide (key a ≤ key b)) := by
  have htrans : ∀ a b c : α, decide (key a ≤ key b) = true → decide (key b ≤ key c) = true →
      decide (key a ≤ key c) = true := by
    simp only [decide_eq_true_eq]
    omega
  have htotal : ∀ a b : α, (decide (key a ≤ key b) || decide (key b ≤ key a)) = true := by
    simp only [Bool.or_eq_true, decide_eq_true_eq]
    omega
  have hperm := List.mergeSort_perm l fun a b => decide (key a ≤ key b)
  refine ⟨hperm, ?_, fun k => ?_⟩
  · exact (List.pairwise_mergeSort htrans htotal l).imp fun h => of_decide_eq_true h
  · -- the elements with key k are a sorted sublist, which a stable sort keeps
    have hpair : (l.filter fun a => key a = k).Pairwise fun a b => decide (key a ≤ key b) = true := by
      refine List.pairwise_of_forall_mem_list fun a ha b hb => ?_
      simp only [List.mem_filter, decide_eq_true_eq] at ha hb ⊢
      omega
    have hsub := (List.sublist_mergeSort htrans htotal hpair List.filter_sublist).filter
      fun a => decide (key a = k)
    rw [List.filter_filter] at hsub
    simp only [Bool.and_self] at hsub
    exact (hsub.eq_of_length (hperm.filter _).length_eq.symm).symm

/-! ## What is decoded -/

/-- The call as it should arrive, with the given presentation of the name. -/
def decodedAs (namePresentation : Int) (c : RilCall) : DriverCall where
  state := c.state
  index := c.index.toInt
  TOA := c.toa.toInt
  isMpty := decide (c.isMpty ≠ 0)
  isMT := decide (c.isMT ≠ 0)
  als := c.als.toInt
  isVoice := decide (c.isVoice ≠ 0)
  isVoicePrivacy := decide (c.isVoicePrivacy ≠ 0)
  number := withLeadingPlus (c.number.map Subtype.val) c.toa.toInt
  numberPresentation := c.numberPresentation.constant
  name := c.name.map Subtype.val
  namePresentation := namePresentation
  uusInfo := c.uusInfo.map fun uus => ⟨uus.uusType.toInt, uus.uusDcs.toInt, uus.uusData⟩

/-- The call with both presentations mapped. -/
def documented (c : RilCall) : DriverCall := decodedAs c.namePresentation.constant c

/-- The call with the name's presentation as the modem coded it. -/
def received (c : RilCall) : DriverCall := decodedAs c.namePresentation.code.toInt c

/-- Wherever the encoding of the calls stands in a parcel, the decoder takes exactly its bytes,
    returns one `DriverCall` a call, as `f` says and stably sorted by index, and notifies the
    voice-privacy registrants once a call. -/
def Decodes (fw : Framework) (calls : Calls) (f : RilCall → DriverCall) : Prop :=
  ∀ pre rest, ∃ dcs,
    responseCallList fw ⟨pre ++ (encodeCallList calls ++ rest), pre.length⟩ =
      ⟨.ok dcs, ⟨pre ++ (encodeCallList calls ++ rest), pre.length + (encodeCallList calls).length⟩,
        calls.val.map fun c => decide (c.isVoicePrivacy ≠ 0)⟩ ∧
    StablySorted DriverCall.index (calls.val.map f) dcs

theorem decide_toInt (v : BitVec 32) : decide (v.toInt ≠ 0) = decide (v ≠ 0) := by
  have hiff : v.toInt = 0 ↔ v = 0 := by
    rw [← BitVec.toInt_inj]
    rfl
  simp only [ne_eq, hiff]

theorem takes_text {ε : Type} (s : Option Text) :
    Takes Parcel.mk (reader readString : Reader ε Parcel (Option Units)) (writeStringToParcel s)
      (s.map Subtype.val) := by
  refine takes_string _ fun u hu => ?_
  obtain ⟨t, _, rfl⟩ := Option.map_eq_some_iff.mp hu
  exact t.property

theorem takes_uusInfo (uusInfo : Option UusInfo) :
    Takes Parcel.mk readUusInfo (writeUusInfo uusInfo)
      (uusInfo.map fun uus => ⟨uus.uusType.toInt, uus.uusDcs.toInt, uus.uusData⟩) := by
  unfold readUusInfo writeUusInfo
  cases uusInfo with
  | none =>
    rw [← List.append_nil (writeInt32 0)]
    exact (takes_int 0).bind (Takes.done _)
  | some uus =>
    refine (takes_int 1).field ?_
    rw [if_pos (by decide)]
    refine (takes_int uus.uusType).field ((takes_int uus.uusDcs).field ?_)
    have hdata := (takes_byteArray uus.uusData uus.uusLength_lt).checked (f := id)
      (e := Thrown.nullPointer) rfl
    exact hdata.field (Takes.done _)

section

variable (fw : Framework)

/-- **One call**: the reads of the decoder are the writes of the encoder. -/
theorem takes_call (c : RilCall) :
    Takes Parcel.mk (readCall fw) (callFields c).flatten (received c) := by
  unfold readCall callFields
  apply Takes.field ((takes_int c.state.code).checked (fw.stateFromCLCC_code c.state))
  apply Takes.field (takes_int c.index)
  apply Takes.field (takes_int c.toa)
  apply Takes.field (takes_int c.isMpty)
  apply Takes.field (takes_int c.isMT)
  apply Takes.field (takes_int c.als)
  apply Takes.field (takes_int c.isVoice)
  apply Takes.field (takes_int 0)
  apply Takes.field (takes_int c.isVoicePrivacy)
  apply Takes.field (takes_text c.number)
  apply Takes.field ((takes_int c.numberPresentation.code).checked
    (fw.presentationFromCLIP_code c.numberPresentation))
  apply Takes.field (takes_text c.name)
  apply Takes.field (takes_int c.namePresentation.code)
  apply Takes.field (takes_uusInfo c.uusInfo)
  simp only [decide_toInt, fw.stringFromStringAndTOA_eq]
  exact Takes.done (received c)

/-- **The loop**, from any position. -/
theorem readCalls_encode (calls : List RilCall) :
    ∀ pre rest, readCalls fw calls.length ⟨pre ++ (encodeCalls calls ++ rest), pre.length⟩ =
      ⟨.ok (calls.map received),
        ⟨pre ++ (encodeCalls calls ++ rest), pre.length + (encodeCalls calls).length⟩,
        calls.map fun c => decide (c.isVoicePrivacy ≠ 0)⟩ := by
  induction calls with
  | nil =>
    intro pre rest
    rfl
  | cons c calls ih =>
    intro pre rest
    have hone := takes_call fw c pre (encodeCalls calls ++ rest)
    have hothers := ih (pre ++ (callFields c).flatten) rest
    have henc : encodeCalls (c :: calls) = (callFields c).flatten ++ encodeCalls calls := rfl
    simp only [List.append_assoc, List.length_append] at hothers
    rw [henc, List.append_assoc, List.length_append, ← Nat.add_assoc]
    simp only [List.length_cons, readCalls, hone, hothers]
    rfl

theorem decodes_received (calls : Calls) : Decodes fw calls received := by
  intro pre rest
  have hcount := readInt_at pre (encodeCalls calls.val ++ rest) (BitVec.ofNat 32 calls.val.length)
  have hloop := readCalls_encode fw calls.val
    (pre ++ writeInt32 (BitVec.ofNat 32 calls.val.length)) rest
  have h4 : (writeInt32 (BitVec.ofNat 32 calls.val.length)).length = 4 := rfl
  rw [List.append_assoc, List.length_append, h4] at hloop
  refine ⟨sortCalls (calls.val.map received), ?_, stablySorted_mergeSort _ _⟩
  unfold responseCallList encodeCallList
  rw [List.append_assoc, hcount]
  simp only [toInt_ofNat calls.property, Int.toNat_natCast]
  rw [if_neg (by omega), hloop, List.length_append, h4, Nat.add_assoc]
  rfl

end

/-- Mapping the presentations adds one to each. -/
theorem sum_namePresentation (calls : List RilCall) :
    ((calls.map documented).map DriverCall.namePresentation).sum =
      ((calls.map received).map DriverCall.namePresentation).sum + calls.length := by
  induction calls with
  | nil => rfl
  | cons c calls ih =>
    have hc : (documented c).namePresentation = (received c).namePresentation + 1 := by
      show c.namePresentation.constant = c.namePresentation.code.toInt + 1
      cases c.namePresentation <;> rfl
    simp only [List.map_cons, List.sum_cons, List.length_cons, hc, ih]
    omega

/-- No list with a call in it is decoded with both presentations mapped. -/
theorem nil_of_decodes_documented {fw : Framework} {calls : Calls}
    (h : Decodes fw calls documented) : calls.val = [] := by
  obtain ⟨dcs, he, hsort⟩ := h [] []
  obtain ⟨dcs', he', hsort'⟩ := decodes_received fw calls [] []
  rw [he'] at he
  obtain rfl : dcs' = dcs := by simpa using congrArg Decoded.outcome he
  have hperm := (hsort.perm.symm.trans hsort'.perm).map DriverCall.namePresentation
  have hsum := hperm.sum_eq
  rw [sum_namePresentation] at hsum
  exact List.eq_nil_of_length_eq_zero (by omega)

/-- **Encoder and decoder agree** on every field and on every list, but for the presentation of the
    name, which arrives as the modem's code; with that one mapped too they agree on no list that has a
    call in it. -/
theorem callList_decoded (fw : Framework) (calls : Calls) :
    Decodes fw calls received ∧ (Decodes fw calls documented ↔ calls.val = []) := by
  refine ⟨decodes_received fw calls, nil_of_decodes_documented, fun hnil => ?_⟩
  have hmap : calls.val.map documented = calls.val.map received := by rw [hnil]; rfl
  intro pre rest
  rw [hmap]
  exact decodes_received fw calls pre rest

/-! ## The framework as documented -/

/-- The functions of the framework on the legal codes. -/
def framework : Framework where
  stateFromCLCC n :=
    [CallState.active, .holding, .dialing, .alerting, .incoming, .waiting].find? fun st =>
      st.code.toInt = n
  presentationFromCLIP n :=
    ([Presentation.allowed, .restricted, .unknown, .payphone].find? fun pr =>
      pr.code.toInt = n).map Presentation.constant
  stringFromStringAndTOA := withLeadingPlus
  stateFromCLCC_code st := by cases st <;> rfl
  presentationFromCLIP_code pr := by cases pr <;> rfl
  stringFromStringAndTOA_eq _ _ := rfl

/-- A call with nothing special about it. -/
def plainCall : RilCall :=
  { state := .active, index := 1, toa := 129, isMpty := 0, isMT := 1, als := 0, isVoice := 1
    isVoicePrivacy := 0, number := none, numberPresentation := .allowed, name := none
    namePresentation := .allowed, uusInfo := none }

/-- The name of a call that may be presented arrives with presentation 0, which is none of the
    framework's constants. -/
theorem namePresentation_raw :
    ¬ ∀ (fw : Framework) (calls : Calls), Decodes fw calls documented := by
  intro hall
  have hnil := nil_of_decodes_documented (hall framework ⟨[plainCall], by decide⟩)
  exact absurd hnil (by simp)

end Codina.Ril.CallList
