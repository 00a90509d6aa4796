/-
  `getDataCallResponse`: the data calls of a reply, read one after another.

  Which fields a data call has depends on the version and on two features of old RILs.  Between the
  reads there are branches on what was read: an empty string leaves a field as it is, the gateways are
  read and not used, and an active call without an interface name is an exception.  None of these
  branches reads anything.  So the reads are the fields of the version, in order, whatever is in them
  (`takes_dataCall`), and a list of data calls is read record by record up to the first one that raises
  (`data_calls_in_step`).

  `DataCallResponse`, `DcFailCause`, the resource and `needsOldRilFeature` belong to the framework:
  `Platform` carries what is used of them.
-/
import Codina.Ril.CallList
import Mathlib.Data.List.DropRight

namespace Codina.Ril.DataCall

open Codina.Bytes Codina.Codec Parcel
open Codina.Ril.CallList (Units Text writeStringToParcel takes_text)

/-! ## The decoder -/

structure DataCallResponse where
  version : Int
  status : Int
  suggestedRetryTime : Int
  cid : Int
  active : Int
  type : Option Units
  ifname : Option Units
  addresses : List Units
  dnses : List Units
  gateways : List Units
  pcscf : List Units
  mtu : Int
deriving DecidableEq

structure Platform where
  /-- `new DataCallResponse()`. -/
  fresh : DataCallResponse
  /-- `DcFailCause.NONE.getErrorCode()`. -/
  noneErrorCode : Int
  /-- The resource `config_datause_iface`. -/
  datauseIface : Units
  needsOldRilFeature : String → Bool

/-- `TextUtils.isEmpty`. -/
def isEmpty (s : Option Units) : Bool := s.all List.isEmpty

/-- `' '`. -/
def space : BitVec 16 := 32

/-- `s.split(" ")`: without the empty strings at the end, and `s` itself where there is no space. -/
def split (s : Units) : List Units :=
  if space ∈ s then (s.splitOn space).rdropWhile List.isEmpty else [s]

/-- The field `old` set to the parts of a string that is not empty. -/
def setSplit (old : List Units) (s : Option Units) : List Units :=
  match s with
  | some s => if s.isEmpty then old else split s
  | none => old

/-- The message of the exception. -/
def noIfname : String := "getDataCallResponse, no ifname"

variable (pf : Platform) (version : Int)

def getDataCallResponse : Reader String Parcel DataCallResponse :=
  if version < 5 then do
    let cid ← reader readInt
    let active ← reader readInt
    let type ← reader readString
    -- APN - not used
    let _ ← (if version < 4 ∨ pf.needsOldRilFeature "datacallapn" then reader readString
      else pure none)
    let addresses ← reader readString
    return { pf.fresh with
      version := version, cid := cid, active := active, type := type
      addresses := setSplit pf.fresh.addresses addresses
      ifname := some pf.datauseIface }
  else do
    let status ← reader readInt
    let suggestedRetryTime ← (if pf.needsOldRilFeature "usehcradio" then pure (-1)
      else reader readInt)
    let cid ← reader readInt
    let active ← reader readInt
    let type ← reader readString
    let ifname ← reader readString
    let _ ← (if status = pf.noneErrorCode ∧ isEmpty ifname then throw noIfname else pure ())
    let addresses ← reader readString
    let dnses ← reader readString
    let _ ← reader readString
    -- what is not read is left as it is
    let pcscf ← (if 10 ≤ version then reader readString else pure none)
    let mtu ← (if 11 ≤ version then reader readInt else pure pf.fresh.mtu)
    return { pf.fresh with
      version := version, status := status, suggestedRetryTime := suggestedRetryTime, cid := cid
      active := active, type := type, ifname := ifname
      addresses := setSplit pf.fresh.addresses addresses
      dnses := setSplit pf.fresh.dnses dnses
      gateways := if isEmpty addresses then pf.fresh.gateways
        else setSplit pf.fresh.addresses addresses
      pcscf := setSplit pf.fresh.pcscf pcscf, mtu := mtu }

/-- Successive calls, up to the first exception: what each of them gave, and the parcel behind. -/
def successiveCalls : (num : Nat) → Parcel → List (Except String DataCallResponse) × Parcel
  | 0, p => ([], p)
  | num + 1, p =>
    match getDataCallResponse pf version p with
    | (.error e, p) => ([.error e], p)
    | (.ok dataCall, p) =>
      let others := successiveCalls num p
      (.ok dataCall :: others.1, others.2)

/-! ## The records -/

/-- A data call as it is written, with the fields of all versions. -/
structure Record where
  status : BitVec 32
  suggestedRetryTime : BitVec 32
  cid : BitVec 32
  active : BitVec 32
  type : Option Text
  apn : Option Text
  ifname : Option Text
  addresses : Option Text
  dnses : Option Text
  gateways : Option Text
  pcscf : Option Text
  mtu : BitVec 32

/-- The fields of the version, in order. -/
def Record.fields (r : Record) : List (List Byte) :=
  if version < 5 then
    [writeInt32 r.cid, writeInt32 r.active, writeStringToParcel r.type,
      if version < 4 ∨ pf.needsOldRilFeature "datacallapn" then writeStringToParcel r.apn else [],
      writeStringToParcel r.addresses]
  else
    [writeInt32 r.status,
      if pf.needsOldRilFeature "usehcradio" then [] else writeInt32 r.suggestedRetryTime,
      writeInt32 r.cid, writeInt32 r.active, writeStringToParcel r.type,
      writeStringToParcel r.ifname, writeStringToParcel r.addresses, writeStringToParcel r.dnses,
      writeStringToParcel r.gateways,
      if 10 ≤ version then writeStringToParcel r.pcscf else [],
      if 11 ≤ version then writeInt32 r.mtu else []]

def encodeRecords (records : List Record) : List Byte :=
  records.flatMap fun r => (r.fields pf version).flatten

/-- An active data call without an interface name. -/
def Record.Defective (r : Record) : Prop :=
  5 ≤ version ∧ r.status.toInt = pf.noneErrorCode ∧ isEmpty (r.ifname.map Subtype.val)

/-- The string as Java has it. -/
abbrev units (s : Option Text) : Option Units := s.map Subtype.val

/-- The data call a record stands for. -/
def Record.response (r : Record) : DataCallResponse :=
  if version < 5 then
    { pf.fresh with
      version := version, cid := r.cid.toInt, active := r.active.toInt, type := units r.type
      addresses := setSplit pf.fresh.addresses (units r.addresses)
      ifname := some pf.datauseIface }
  else
    { version := version, status := r.status.toInt
      suggestedRetryTime := if pf.needsOldRilFeature "usehcradio" then -1
        else r.suggestedRetryTime.toInt
      cid := r.cid.toInt, active := r.active.toInt, type := units r.type, ifname := units r.ifname
      addresses := setSplit pf.fresh.addresses (units r.addresses)
      dnses := setSplit pf.fresh.dnses (units r.dnses)
      gateways := if isEmpty (units r.addresses) then pf.fresh.gateways
        else setSplit pf.fresh.addresses (units r.addresses)
      pcscf := if 10 ≤ version then setSplit pf.fresh.pcscf (units r.pcscf) else pf.fresh.pcscf
      mtu := if 11 ≤ version then r.mtu.toInt else pf.fresh.mtu }

/-! ## One data call -/

/-- **One data call**: the reads of the decoder are the fields of the version. -/
theorem takes_dataCall (r : Record) (h : ¬ r.Defective pf version) :
    Takes Parcel.mk (getDataCallResponse pf version) (r.fields pf version).flatten
      (r.response pf version) := by
  unfold getDataCallResponse Record.fields Record.response
  by_cases hold : version < 5
  · rw [if_pos hold, if_pos hold, if_pos hold]
    apply Takes.field (takes_int r.cid)
    apply Takes.field (takes_int r.active)
    apply Takes.field (takes_text r.type)
    apply Takes.field ((takes_text r.apn).ite (Takes.done none))
    apply Takes.field (takes_text r.addresses)
    exact Takes.done _
  · rw [if_neg hold, if_neg hold, if_neg hold]
    have hname : ¬ (r.status.toInt = pf.noneErrorCode ∧ isEmpty (r.ifname.map Subtype.val)) :=
      fun hd => h ⟨by omega, hd⟩
    have hpcscf : setSplit pf.fresh.pcscf (if 10 ≤ version then units r.pcscf else none) =
        if 10 ≤ version then setSplit pf.fresh.pcscf (units r.pcscf) else pf.fresh.pcscf := by
      split <;> rfl
    apply Takes.field (takes_int r.status)
    apply Takes.field ((Takes.done (-1)).ite (takes_int r.suggestedRetryTime))
    apply Takes.field (takes_int r.cid)
    apply Takes.field (takes_int r.active)
    apply Takes.field (takes_text r.type)
    apply Takes.field (takes_text r.ifname)
    rw [if_neg hname, pure_bind]
    apply Takes.field (takes_text r.addresses)
    apply Takes.field (takes_text r.dnses)
    apply Takes.field (takes_text r.gateways)
    apply Takes.field ((takes_text r.pcscf).ite (Takes.done none))
    apply Takes.field ((takes_int r.mtu).ite (Takes.done pf.fresh.mtu))
    rw [← hpcscf]
    exact Takes.done _

/-- An active data call without an interface name raises, and reads nothing behind the name. -/
theorem raises_dataCall (r : Record) (h : r.Defective pf version) :
    Raises Parcel.mk (getDataCallResponse pf version) (r.fields pf version).flatten noIfname := by
  obtain ⟨hversion, hname⟩ := h
  have hnew : ¬ version < 5 := by omega
  unfold getDataCallResponse Record.fields
  rw [if_neg hnew, if_neg hnew]
  apply Takes.raises (takes_int r.status)
  apply Takes.raises ((Takes.done (-1)).ite (takes_int r.suggestedRetryTime))
  apply Takes.raises (takes_int r.cid)
  apply Takes.raises (takes_int r.active)
  apply Takes.raises (takes_text r.type)
  apply Takes.raises (takes_text r.ifname)
  rw [if_pos hname]
  exact Raises.throw _ _ _

/-! ## All of them -/

/-- Records in step, and then whatever follows: the calls behind them start where they end. -/
theorem successiveCalls_good (records : List Record) (num : Nat) :
    ∀ pre rest, (∀ r ∈ records, ¬ r.Defective pf version) →
      successiveCalls pf version (records.length + num)
        ⟨pre ++ (encodeRecords pf version records ++ rest), pre.length⟩ =
      let behind := successiveCalls pf version num
        ⟨pre ++ (encodeRecords pf version records ++ rest),
          pre.length + (encodeRecords pf version records).length⟩
      (records.map (fun r => .ok (r.response pf version)) ++ behind.1, behind.2) := by
  induction records with
  | nil =>
    intro pre rest _
    rw [List.length_nil, Nat.zero_add]
    rfl
  | cons r records ih =>
    intro pre rest hgood
    have hone := takes_dataCall pf version r (hgood r List.mem_cons_self) pre
      (encodeRecords pf version records ++ rest)
    have hothers := ih (pre ++ (r.fields pf version).flatten) rest
      fun r' hr' => hgood r' (List.mem_cons_of_mem _ hr')
    have henc : encodeRecords pf version (r :: records) =
      (r.fields pf version).flatten ++ encodeRecords pf version records := rfl
    rw [List.append_assoc, List.length_append] at hothers
    rw [henc, List.append_assoc, List.length_append, ← Nat.add_assoc,
      show (r :: records).length + num = records.length + num + 1 by simp; omega]
    simp only [successiveCalls, hone, hothers]
    rfl

theorem gateways_eq_addresses (r : Record) (hversion : 5 ≤ version)
    (haddresses : isEmpty (units r.addresses) = false) :
    (r.response pf version).gateways = (r.response pf version).addresses := by
  unfold Record.response
  rw [if_neg (by omega)]
  simp only [haddresses]
  rfl

/-- **Data calls cannot drift apart**: without a defective record every call gives what its own record
    says, and the parcel is read up to the end of the last one; with one, the first of them raises. -/
theorem data_calls_in_step (records : List Record) (pre rest : List Byte) :
    ((∀ r ∈ records, ¬ r.Defective pf version) →
      successiveCalls pf version records.length
        ⟨pre ++ (encodeRecords pf version records ++ rest), pre.length⟩ =
      (records.map fun r => .ok (r.response pf version),
        ⟨pre ++ (encodeRecords pf version records ++ rest),
          pre.length + (encodeRecords pf version records).length⟩)) ∧
    (∀ r ∈ records, 5 ≤ version → isEmpty (units r.addresses) = false →
      (r.response pf version).gateways = (r.response pf version).addresses) ∧
    ∀ good bad more, records = good ++ bad :: more → (∀ r ∈ good, ¬ r.Defective pf version) →
      bad.Defective pf version →
      (successiveCalls pf version records.length
        ⟨pre ++ (encodeRecords pf version records ++ rest), pre.length⟩).1 =
      (good.map fun r => .ok (r.response pf version)) ++ [.error noIfname] := by
  refine ⟨fun hgood => ?_, fun r _ => gateways_eq_addresses pf version r, ?_⟩
  · have hall := successiveCalls_good pf version records 0 pre rest hgood
    rw [Nat.add_zero] at hall
    rw [hall]
    simp only [successiveCalls, List.append_nil]
  · rintro good bad more rfl hgood hbad
    have henc : encodeRecords pf version (good ++ bad :: more) = encodeRecords pf version good ++
        ((bad.fields pf version).flatten ++ encodeRecords pf version more) := by
      simp [encodeRecords]
    have hfirst := successiveCalls_good pf version good (more.length + 1) pre
      ((bad.fields pf version).flatten ++ encodeRecords pf version more ++ rest) hgood
    obtain ⟨p, hraise⟩ := raises_dataCall pf version bad hbad
      (pre ++ encodeRecords pf version good) (encodeRecords pf version more ++ rest)
    rw [List.append_assoc, List.length_append] at hraise
    rw [henc, List.length_append, List.length_cons, List.append_assoc, hfirst]
    simp only [successiveCalls, List.append_assoc, hraise]

end Codina.Ril.DataCall
