/-
  The reply to `RIL_REQUEST_GET_PREFERRED_NETWORK_TYPE`, from the modem to the stored type.

  The decoder of the RIL keeps another type than it reports when the modem answers GLOBAL.  The patched
  libril has a response function of its own for this request, which rewrites the type before
  the RIL ever sees it.  Together they are right: whatever types the modem answers, and however replies,
  restarts and the network-type switch are interleaved, the stored type is the one sent or reported last,
  no decoder throws, and the framework is never told GLOBAL.  What remains is a modem that answers no type
  at all.
-/
import Codina.Ril.CardStatus
import Codina.Ril.PreferredType

namespace Codina.Ril.NetworkTypeReply

open Codina.Bytes Codina.Codec Codina.Runs Parcel
open Codina.Ril.CardStatus (RIL_ERRNO_INVALID_RESPONSE)
open Codina.Ril.Libril (Marshalled RequestInfo Response solicitedResponse)
open Codina.Ril.PreferredType (ntModeGlobal Agrees Inv)

/-! ## libril -/

/-- Int `i` as it is written: the first is rewritten, in the response itself. -/
def sentInt (p_int : Mem) (i : Nat) : BitVec 32 :=
  if i = 0 ∧ load32 p_int 0 = 7 then 0 else load32 p_int (4 * i)

/-- A response that is not `NULL`: the caller has tested it. -/
def responseIntsGetPreferredNetworkType (response : Mem) (responselen : Nat) : Marshalled :=
  if responselen % 4 ≠ 0 then ⟨RIL_ERRNO_INVALID_RESPONSE, []⟩
  else
    let numInts := responselen / 4
    ⟨0, writeInt32 (BitVec.ofNat 32 numInts) ++ ((List.range numInts).map (sentInt response)).flatMap writeInt32⟩

/-! ## The RIL -/

inductive Thrown where
  | negativeArraySize

def readInts : Nat → Reader Thrown Parcel (List Int)
  | 0 => pure []
  | n + 1 => do
    let first ← reader readInt
    let rest ← readInts n
    return first :: rest

/-- `RIL.responseInts`. -/
def responseInts : Reader Thrown Parcel (List Int) := do
  let numInts ← reader readInt
  if numInts < 0 then throw .negativeArraySize else readInts numInts.toNat

/-- What `processSolicited` decodes of a response, behind the serial and the error, or what the decoder
    throws before it stores anything; nothing where it does not decode. -/
def payloadInts (r : Response) : Option (Except Thrown (List Int)) :=
  if r.error = 0 ∨ r.payload ≠ [] then some (responseInts ⟨r.parcel.data, 8⟩).1 else none

/-- The request completed by the modem, and what the RIL decodes. -/
def decodedInts (pRI : RequestInfo) (e : BitVec 32) (response : Option Mem) (responselen : Nat) :
    Option (Except Thrown (List Int)) :=
  payloadInts (solicitedResponse pRI e (response.map fun m => responseIntsGetPreferredNetworkType m responselen))

inductive Action where
  /-- A step of the network-type switch. -/
  | switch (a : Ril.Action)
  /-- The modem completes the request. -/
  | reply (pRI : RequestInfo) (e : BitVec 32) (response : Option Mem) (responselen : Nat)
  | rilConnected (mCdmaSubscription : Int)

structure State extends PreferredType.State where
  /-- A decoder has thrown before it stored a type.  `processSolicited` catches it. -/
  negativeArraySize : Bool := false

def State.init (networkMode : Int) (platform : Platform) : State :=
  { toState := PreferredType.State.init networkMode platform }

section

variable {Obj Thr : Type} (decode : Decode Obj Thr)

/-- A step of the RIL around the decoder. -/
def within (s : State) (a : PreferredType.Action) : Option State :=
  (PreferredType.step decode s.toState a).map fun t => { s with toState := t }

def step (s : State) : Action → Option State
  | .switch a => within decode s (.switch a)
  | .rilConnected mCdmaSubscription => within decode s (.rilConnected mCdmaSubscription)
  | .reply pRI e response responselen =>
    match decodedInts pRI e response responselen with
    | none => if s.ril.crashed then none else some s
    | some (.error .negativeArraySize) =>
      if s.ril.crashed then none else some { s with negativeArraySize := true }
    | some (.ok ints) => within decode s (.responseGetPreferredNetworkType ints)

end

/-! ## The ints on their way -/

theorem readInts_takes : ∀ ws : List (BitVec 32),
    Takes Parcel.mk (readInts ws.length) (ws.flatMap writeInt32) (ws.map BitVec.toInt)
  | [] => Takes.done _
  | w :: ws => by
    have hrest : Takes Parcel.mk (readInts ws.length >>= fun rest => pure (w.toInt :: rest))
        (ws.flatMap writeInt32) (w.toInt :: ws.map BitVec.toInt) := by
      have hdone := (readInts_takes ws).bind (k := fun rest => pure (w.toInt :: rest)) (Takes.done _)
      rwa [List.flatten_nil, List.append_nil] at hdone
    exact Takes.bind (k := fun first => readInts ws.length >>= fun rest => pure (first :: rest)) (takes_int w) hrest

theorem responseInts_takes {ws : List (BitVec 32)} (h : ws.length < 2 ^ 31) :
    Takes Parcel.mk responseInts (writeInt32 (BitVec.ofNat 32 ws.length) ++ ws.flatMap writeInt32)
      (ws.map BitVec.toInt) := by
  refine (takes_int _).bind ?_
  rw [toInt_ofNat h, if_neg (Int.not_lt.mpr (Int.natCast_nonneg _)), Int.toNat_natCast]
  exact readInts_takes ws

/-- GLOBAL never leaves libril. -/
theorem sentInt_first (p_int : Mem) : (sentInt p_int 0).toInt ≠ ntModeGlobal := by
  rcases Decidable.em (load32 p_int 0 = 7) with hglobal | hplain
  · rw [sentInt, if_pos ⟨rfl, hglobal⟩]
    decide
  · rw [sentInt, if_neg fun h => hplain h.2]
    intro heq
    exact hplain (BitVec.eq_of_toInt_eq heq)

/-- **A reply decoded**: the types of the modem, but for the first where it is GLOBAL. -/
theorem decodedInts_eq {pRI : RequestInfo} {e : BitVec 32} {m : Mem} {n : Nat} (hn : n < 2 ^ 31) :
    decodedInts pRI e (some m) (4 * n) = some (.ok ((List.range n).map fun i => (sentInt m i).toInt)) := by
  have hlen : ((List.range n).map (sentInt m)).length = n := (List.length_map ..).trans List.length_range
  have hwritten : responseIntsGetPreferredNetworkType m (4 * n) =
      ⟨0, writeInt32 (BitVec.ofNat 32 n) ++ ((List.range n).map (sentInt m)).flatMap writeInt32⟩ := by
    rw [responseIntsGetPreferredNetworkType, if_neg (by omega), Nat.mul_div_cancel_left n (by decide)]
  have htakes := responseInts_takes (hlen.symm ▸ hn) (writeInt32 pRI.token ++ writeInt32 e) []
  rw [hlen, List.append_nil, List.append_assoc] at htakes
  have hresponse : solicitedResponse pRI e (some (responseIntsGetPreferredNetworkType m (4 * n))) =
      ⟨pRI.token, e, writeInt32 (BitVec.ofNat 32 n) ++ ((List.range n).map (sentInt m)).flatMap writeInt32⟩ := by
    rw [hwritten]
    rfl
  rw [decodedInts, Option.map_some, hresponse, payloadInts, if_pos (.inr (List.cons_ne_nil _ _))]
  show some (responseInts ⟨_, (writeInt32 pRI.token ++ writeInt32 e).length⟩).1 = _
  rw [Libril.Response.parcel, htakes, List.map_map]
  rfl

/-- A response of another length is refused, and nothing is decoded. -/
theorem decodedInts_refused {pRI : RequestInfo} {e : BitVec 32} {m : Mem} {responselen : Nat}
    (h : responselen % 4 ≠ 0) : decodedInts pRI e (some m) responselen = none := by
  have hret : RIL_ERRNO_INVALID_RESPONSE ≠ 0 := by decide
  have hresponse : solicitedResponse pRI e (some (responseIntsGetPreferredNetworkType m responselen)) =
      ⟨pRI.token, RIL_ERRNO_INVALID_RESPONSE, []⟩ := by
    rw [responseIntsGetPreferredNetworkType, if_pos h]
    rfl
  rw [decodedInts, Option.map_some, hresponse, payloadInts]
  exact if_neg (not_or.mpr ⟨hret, not_not.mpr rfl⟩)

/-! ## The stored type -/

/-- The modem answers at least one type, unless it answers an error and nothing else. -/
def HoldsType (_ : State) : Action → Prop
  | .reply _ e none _ => e ≠ 0
  | .reply _ _ (some _) responselen => 4 ≤ responselen ∧ responselen / 4 < 2 ^ 31
  | _ => True

/-- A reply is decoded to a plain response, or not at all. -/
theorem decodedInts_plain {pRI : RequestInfo} {e : BitVec 32} {response : Option Mem} {responselen : Nat}
    {s : State} (h : HoldsType s (.reply pRI e response responselen)) :
    ∀ r, decodedInts pRI e response responselen = some r →
      ∃ t rest, r = .ok (t :: rest) ∧ t ≠ ntModeGlobal := by
  intro r hr
  cases response with
  | none =>
    have hnone : decodedInts pRI e none responselen = none := if_neg (not_or.mpr ⟨h, not_not.mpr rfl⟩)
    rw [hnone] at hr
    cases hr
  | some m =>
    obtain ⟨hsome, hbound⟩ : 4 ≤ responselen ∧ responselen / 4 < 2 ^ 31 := h
    rcases Decidable.em (responselen % 4 = 0) with hwhole | hodd
    · obtain ⟨n, hn⟩ : ∃ n, responselen / 4 = n + 1 := ⟨responselen / 4 - 1, by omega⟩
      have heq : responselen = 4 * (n + 1) := by omega
      rw [heq, decodedInts_eq (hn ▸ hbound), List.range_succ_eq_map] at hr
      cases hr
      exact ⟨_, _, rfl, sentInt_first m⟩
    · rw [decodedInts_refused hodd] at hr
      cases hr

/-- What holds of a run: the stored type is known, no decoder has thrown, and GLOBAL has not been
    reported. -/
structure Truthful (networkMode : Int) (s : State) : Prop where
  inv : Inv networkMode s.toState
  noThrow : s.negativeArraySize = false
  reported : ntModeGlobal ∉ s.reported

theorem truthful_step {Obj Thr : Type} {decode : Decode Obj Thr} {networkMode : Int} {s s' : State} {a : Action}
    (hi : Truthful networkMode s) (hok : HoldsType s a) (h : step decode s a = some s') :
    Truthful networkMode s' := by
  cases a with
  | switch a =>
    obtain ⟨t, ht, rfl⟩ := Option.map_eq_some_iff.mp h
    refine ⟨PreferredType.inv_step (a := .switch a) hi.inv trivial ht, hi.noThrow, ?_⟩
    obtain ⟨ril, -, rfl⟩ := Option.map_eq_some_iff.mp ht
    exact hi.reported
  | rilConnected mCdmaSubscription =>
    obtain ⟨t, ht, rfl⟩ := Option.map_eq_some_iff.mp h
    refine ⟨PreferredType.inv_step (a := .rilConnected mCdmaSubscription) hi.inv trivial ht, hi.noThrow, ?_⟩
    replace ht : (if s.ril.crashed then none else some { s.toState with
      ril := PreferredType.rilConnected mCdmaSubscription s.ril
      resent := s.resent ++
        PreferredType.sentBetween s.ril (PreferredType.rilConnected mCdmaSubscription s.ril) }) = some t := ht
    split at ht
    · cases ht
    · cases ht
      exact hi.reported
  | reply pRI e response responselen =>
    have hplain := decodedInts_plain hok
    rw [step] at h
    cases hr : decodedInts pRI e response responselen with
    | none =>
      rw [hr] at h
      replace h : (if s.ril.crashed then none else some s) = some s' := h
      split at h
      · cases h
      · cases h
        exact hi
    | some r =>
      obtain ⟨t, rest, rfl, ht⟩ := hplain r hr
      rw [hr] at h
      obtain ⟨u, hu, rfl⟩ := Option.map_eq_some_iff.mp h
      refine ⟨PreferredType.inv_step (a := .responseGetPreferredNetworkType (t :: rest)) hi.inv
        ⟨t, rest, rfl, ht⟩ hu, hi.noThrow, ?_⟩
      show ntModeGlobal ∉ u.reported
      rw [PreferredType.decoded_of_step hu, PreferredType.decoded_plain ht]
      intro hmem
      rcases List.mem_append.mp hmem with hold | hnew
      · exact hi.reported hold
      · exact ht (List.mem_singleton.mp hnew).symm

/-- **The two patches together.**  In every run over the patched libril in which the modem answers a type
    when it answers, the stored type is the one sent or reported last, whatever was sent again is a type
    the framework has set or been told, no decoder has thrown, be it for an index or for the size of an
    array, and GLOBAL has never been reported. -/
theorem replies_are_kept {Obj Thr : Type} (decode : Decode Obj Thr) (networkMode : Int) (p : Platform) (s : State)
    (hrun : Run (step decode) HoldsType (State.init networkMode p) s) :
    Agrees networkMode s.toState ∧ s.negativeArraySize = false ∧ ntModeGlobal ∉ s.reported := by
  have hall := hrun.inv ⟨PreferredType.inv_init networkMode p, rfl, List.not_mem_nil⟩
    fun _ _ _ hi hok h => truthful_step hi hok h
  exact ⟨hall.inv.agrees, hall.noThrow, hall.reported⟩

/-- A request of the framework for its type, as libril keeps it. -/
def asked : RequestInfo := { addr := 0, token := 1, requestNumber := 74 }

/-- An answer of one type, GLOBAL. -/
def globalAnswer : Mem := fun i => if i = 0 then 7 else 0

/-- The modem answers GLOBAL, and restarts. -/
theorem replies_are_kept_global : ∃ s : State,
    (Agrees 3 s.toState ∧ s.negativeArraySize = false ∧ ntModeGlobal ∉ s.reported) ∧
    s.reported = [0] ∧ s.resent = [0] := by
  have hrun := run_of_exec (step voidDecode) HoldsType (State.init 3 dataUp)
    [.reply asked 0 (some globalAnswer) 4, .rilConnected 0] ⟨⟨by decide, by decide⟩, trivial, trivial⟩ rfl
  exact ⟨_, replies_are_kept voidDecode 3 dataUp _ hrun, rfl, rfl⟩

end Codina.Ril.NetworkTypeReply
