/-
  Two request tables in two processes: the RIL's `mRequestList` and libril's list of pending requests.

  A request registered by the RIL travels up the command socket, is put on libril's list and handed to
  the vendor under the address of its `RequestInfo`, and comes back down as a solicited response once
  the vendor completes it.  The patched `RIL_onRequestComplete` returns early when the completed request
  is number 91, AFTER taking it off the list: no response is sent, the `RequestInfo` is never freed, and
  the RIL waits for ever (`broadcast_activation_unanswered`).  Completing any other request answers it,
  and then every registration is accounted for: it is on its way, pending, on its way back, matched by
  one `processSolicited`, or given up because the socket closed (`every_request_answered_once`).

  Libril around the patch is the AOSP one.  The sockets are queues; the vendor may complete any token
  at any time, also one that is unknown; addresses are reused once freed.
-/
import Codina.Ril.Solicited
import Codina.Ril.ParcelFields
import Codina.Lib.Runs
import Mathlib.Data.List.Nodup

namespace Codina.Ril.Libril

open Codina.Bytes Codina.Runs Parcel

/-! ## libril -/

/-- The address of a `RequestInfo`, which is the `RIL_Token` the vendor is given. -/
abbrev Addr := Nat

structure RequestInfo where
  addr : Addr
  token : BitVec 32
  /-- `pCI->requestNumber`. -/
  requestNumber : Int
  isLocal : Bool := false
  cancelled : Bool := false

/-- A `RESPONSE_SOLICITED` on the command socket. -/
structure Response where
  token : BitVec 32
  error : BitVec 32
  payload : List Byte

/-- What the RIL is given to read, behind the response type. -/
def Response.parcel (r : Response) : Parcel :=
  { data := writeInt32 r.token ++ (writeInt32 r.error ++ r.payload) }

/-- One call of `RIL_onRequestComplete`. -/
structure Completion where
  t : Addr
  before : List RequestInfo
  after : List RequestInfo
  sent : List Response
  freed : List Addr

/-- The outcome of the response function of a request: what it returned and what it wrote. -/
structure Marshalled where
  ret : BitVec 32
  written : List Byte

/-- The response to `pRI`.  If an error occurred, rewind and mark it. -/
def solicitedResponse (pRI : RequestInfo) (e : BitVec 32) (response : Option Marshalled) : Response :=
  match response with
  | some m => ⟨pRI.token, if m.ret ≠ 0 then m.ret else e, m.written⟩
  | none => ⟨pRI.token, e, []⟩

/-- `RIL_onRequestComplete` on the list of pending requests. -/
def RIL_onRequestComplete (t : Addr) (e : BitVec 32) (response : Option Marshalled)
    (pending : List RequestInfo) : Completion :=
  match pending.find? fun pRI => pRI.addr == t with
  | none => ⟨t, pending, pending, [], []⟩
  | some pRI =>
    let after := pending.eraseP fun pRI => pRI.addr == t
    -- Avoid unknown
    if pRI.requestNumber = 91 then ⟨t, pending, after, [], []⟩
    -- response does not go back up the command socket
    else if pRI.isLocal then ⟨t, pending, after, [], [pRI.addr]⟩
    else if pRI.cancelled then ⟨t, pending, after, [], [pRI.addr]⟩
    else ⟨t, pending, after, [solicitedResponse pRI e response], [pRI.addr]⟩

/-- What a completion should do: nothing for an unknown token; otherwise take the request off the
    list, send one response with its token unless it is local or cancelled, and free it. -/
structure Completion.Answered (c : Completion) : Prop where
  unknown : (∀ pRI ∈ c.before, pRI.addr ≠ c.t) → c.after = c.before ∧ c.sent = [] ∧ c.freed = []
  pending : (∃ pRI ∈ c.before, pRI.addr = c.t) →
    ∃ pRI ∈ c.before, pRI.addr = c.t ∧ c.before.Perm (pRI :: c.after) ∧ c.freed = [c.t] ∧
      (pRI.isLocal = true ∨ pRI.cancelled = true → c.sent = []) ∧
      (pRI.isLocal = false → pRI.cancelled = false → ∃ r, c.sent = [r] ∧ r.token = pRI.token)

/-! ## The system -/

/-- A request block on the command socket. -/
structure Command where
  request : Int
  token : BitVec 32

structure State (Msg : Type) where
  /-- The RIL's requests that wait for a response. -/
  mRequestList : List (RILRequest Msg) := []
  /-- The command socket, to libril and back, oldest first. -/
  up : List Command := []
  down : List Response := []
  /-- libril's `s_pendingRequests`. -/
  pendingRequests : List RequestInfo := []
  /-- The addresses of the `RequestInfo`s that have not been freed. -/
  allocated : List Addr := []
  /-- The serials of the requests registered, of those matched by a response, and of those given up
      when the socket closed. -/
  registered : List Int := []
  matched : List Int := []
  cleared : List Int := []
  completions : List Completion := []
  /-- The responses that matched no request. -/
  unexpected : List Response := []

section Model

variable {Msg Obj Thr : Type}

/-- `send`: the request is registered and written to the socket. -/
def send (requestNumber : RilRequest → Int) (serial : BitVec 32) (mRequest : RilRequest)
    (mResult : Option Msg) (s : State Msg) : State Msg :=
  { s with
    mRequestList := s.mRequestList ++
      [{ mSerial := serial.toInt, mRequest := mRequest, mParcel := [], mResult := mResult }]
    up := s.up ++ [⟨requestNumber mRequest, serial⟩]
    registered := s.registered ++ [serial.toInt] }

/-- `RIL_E_GENERIC_FAILURE`. -/
def genericFailure : BitVec 32 := 2

/-- `processCommandBuffer` on the next request block; `addr` is what `calloc` returns. -/
def processCommandBuffer (numCommands : Int) (addr : Addr) (s : State Msg) : State Msg :=
  match s.up with
  | [] => s
  | c :: up =>
    if c.request < 1 ∨ numCommands ≤ c.request then
      { s with up := up, down := s.down ++ [⟨c.token, genericFailure, []⟩] }
    else
      { s with
        up := up
        pendingRequests := ⟨addr, c.token, c.request, false, false⟩ :: s.pendingRequests
        allocated := addr :: s.allocated }

/-- `issueLocalRequest`. -/
def issueLocalRequest (addr : Addr) (request : Int) (s : State Msg) : State Msg :=
  { s with
    pendingRequests := ⟨addr, BitVec.allOnes 32, request, true, false⟩ :: s.pendingRequests
    allocated := addr :: s.allocated }

def onRequestComplete (t : Addr) (e : BitVec 32) (response : Option Marshalled) (s : State Msg) :
    State Msg :=
  let c := RIL_onRequestComplete t e response s.pendingRequests
  { s with
    pendingRequests := c.after
    down := s.down ++ c.sent
    allocated := s.allocated.diff c.freed
    completions := s.completions ++ [c] }

/-- `onCommandsSocketClosed` cancels what is pending; the RIL's receiver finds the socket closed and
    gives up every request it has registered (`clearRequestList`). -/
def socketClosed (s : State Msg) : State Msg :=
  { s with
    mRequestList := [], up := [], down := []
    pendingRequests := s.pendingRequests.map fun pRI => { pRI with cancelled := true }
    cleared := s.cleared ++ s.mRequestList.map RILRequest.mSerial }

/-- The RIL's receiver takes the next response off the socket. -/
def receive (decode : Decode Obj Thr) (s : State Msg) : State Msg :=
  match s.down with
  | [] => s
  | r :: down =>
    let reply := processSolicited decode s.mRequestList r.parcel
    { s with
      down := down
      mRequestList := reply.mRequestList
      matched := s.matched ++ reply.returned.toList.map RILRequest.mSerial
      unexpected := if reply.returned.isNone then s.unexpected ++ [r] else s.unexpected }

inductive Action (Msg : Type) where
  /-- The framework makes a request. -/
  | send (serial : BitVec 32) (mRequest : RilRequest) (mResult : Option Msg)
  /-- libril reads a request block. -/
  | processCommandBuffer (addr : Addr)
  /-- libril makes a request of its own. -/
  | issueLocalRequest (addr : Addr) (request : Int)
  /-- The vendor completes a request. -/
  | onRequestComplete (t : Addr) (e : BitVec 32) (response : Option Marshalled)
  /-- The command socket closes. -/
  | socketClosed
  /-- The RIL reads a response. -/
  | receive

/-- One step.  Serials count up, so one that is still registered is not taken again; `calloc` returns
    a block that is not in use. -/
def step (requestNumber : RilRequest → Int) (numCommands : Int) (decode : Decode Obj Thr)
    (s : State Msg) : Action Msg → Option (State Msg)
  | .send serial mRequest mResult =>
    if ∀ rr ∈ s.mRequestList, rr.mSerial ≠ serial.toInt then
      some (send requestNumber serial mRequest mResult s)
    else none
  | .processCommandBuffer addr =>
    if addr ∈ s.allocated then none else some (processCommandBuffer numCommands addr s)
  | .issueLocalRequest addr request =>
    if addr ∈ s.allocated then none else some (issueLocalRequest addr request s)
  | .onRequestComplete t e response => some (onRequestComplete t e response s)
  | .socketClosed => some (socketClosed s)
  | .receive => some (receive decode s)

end Model

/-! ## Every request is answered once -/

/-- A pending request whose completion is to be answered with serial `k`. -/
def awaits (k : Int) (pRI : RequestInfo) : Bool :=
  decide (pRI.token.toInt = k) && !pRI.isLocal && !pRI.cancelled

/-- How often serial `k` is on its way to libril, pending there, or on its way back. -/
def inFlight {Msg : Type} (s : State Msg) (k : Int) : Nat :=
  s.up.countP (fun c => decide (c.token.toInt = k)) + s.pendingRequests.countP (awaits k) +
    s.down.countP fun r => decide (r.token.toInt = k)

/-- Every completion has done what it should, every response has matched a request, and every
    registration is accounted for: each serial is in flight at most once, the RIL waits for exactly
    those in flight, and all the others have been matched, once a registration, or given up. -/
structure AnsweredOnce {Msg : Type} (s : State Msg) : Prop where
  completions : ∀ c ∈ s.completions, c.Answered
  unexpected : s.unexpected = []
  accounted : ∀ k, s.registered.count k = s.matched.count k + s.cleared.count k + inFlight s k
  waiting : ∀ k, (s.mRequestList.map RILRequest.mSerial).count k = inFlight s k
  once : ∀ k, inFlight s k ≤ 1
  allocated : ∀ a, s.allocated.count a = (s.pendingRequests.map RequestInfo.addr).count a

/-- The request completed, if it is pending, is not number 91. -/
def AvoidsUnknown {Msg : Type} (s : State Msg) : Action Msg → Prop
  | .onRequestComplete t _ _ => ∀ pRI ∈ s.pendingRequests, pRI.addr = t → pRI.requestNumber ≠ 91
  | _ => True

instance {Msg : Type} (s : State Msg) : (a : Action Msg) → Decidable (AvoidsUnknown s a)
  | .onRequestComplete t _ _ => inferInstanceAs
      (Decidable (∀ pRI ∈ s.pendingRequests, pRI.addr = t → pRI.requestNumber ≠ 91))
  | .send .. | .processCommandBuffer _ | .issueLocalRequest .. | .socketClosed | .receive =>
    isTrue trivial

/-! ## What a step does -/

/-- The steps that can be taken, with their guards. -/
inductive Stepped {Msg Obj Thr : Type} (requestNumber : RilRequest → Int) (numCommands : Int)
    (decode : Decode Obj Thr) (s : State Msg) : Action Msg → State Msg → Prop
  | send (serial : BitVec 32) (mRequest : RilRequest) (mResult : Option Msg) :
      (∀ rr ∈ s.mRequestList, rr.mSerial ≠ serial.toInt) →
      Stepped requestNumber numCommands decode s (.send serial mRequest mResult)
        (Libril.send requestNumber serial mRequest mResult s)
  | processCommandBuffer (addr : Addr) : addr ∉ s.allocated →
      Stepped requestNumber numCommands decode s (.processCommandBuffer addr)
        (Libril.processCommandBuffer numCommands addr s)
  | issueLocalRequest (addr : Addr) (request : Int) : addr ∉ s.allocated →
      Stepped requestNumber numCommands decode s (.issueLocalRequest addr request)
        (Libril.issueLocalRequest addr request s)
  | onRequestComplete (t : Addr) (e : BitVec 32) (response : Option Marshalled) :
      Stepped requestNumber numCommands decode s (.onRequestComplete t e response)
        (Libril.onRequestComplete t e response s)
  | socketClosed :
      Stepped requestNumber numCommands decode s .socketClosed (Libril.socketClosed s)
  | receive : Stepped requestNumber numCommands decode s .receive (Libril.receive decode s)

theorem stepped_of_step {Msg Obj Thr : Type} {requestNumber : RilRequest → Int} {numCommands : Int}
    {decode : Decode Obj Thr} {s s' : State Msg} {a : Action Msg}
    (h : step requestNumber numCommands decode s a = some s') :
    Stepped requestNumber numCommands decode s a s' := by
  cases a with
  | send serial mRequest mResult =>
    simp only [step] at h
    by_cases hnew : ∀ rr ∈ s.mRequestList, rr.mSerial ≠ serial.toInt
    · rw [if_pos hnew] at h
      cases h
      exact Stepped.send serial mRequest mResult hnew
    · rw [if_neg hnew] at h
      cases h
  | processCommandBuffer addr =>
    simp only [step] at h
    by_cases hin : addr ∈ s.allocated
    · rw [if_pos hin] at h
      cases h
    · rw [if_neg hin] at h
      cases h
      exact Stepped.processCommandBuffer addr hin
  | issueLocalRequest addr request =>
    simp only [step] at h
    by_cases hin : addr ∈ s.allocated
    · rw [if_pos hin] at h
      cases h
    · rw [if_neg hin] at h
      cases h
      exact Stepped.issueLocalRequest addr request hin
  | onRequestComplete t e response =>
    cases h
    exact Stepped.onRequestComplete t e response
  | socketClosed =>
    cases h
    exact Stepped.socketClosed
  | receive =>
    cases h
    exact Stepped.receive

/-! ## What a completion does -/

/-- The ways `RIL_onRequestComplete` can go. -/
inductive Exit (t : Addr) (e : BitVec 32) (response : Option Marshalled) (pending : List RequestInfo) :
    Completion → Prop
  | unknown : (∀ pRI ∈ pending, pRI.addr ≠ t) → Exit t e response pending ⟨t, pending, pending, [], []⟩
  /-- Request 91 is taken off the list and forgotten. -/
  | avoided (pre : List RequestInfo) (pRI : RequestInfo) (post : List RequestInfo) :
      pending = pre ++ pRI :: post → pRI.addr = t → pRI.requestNumber = 91 →
      Exit t e response pending ⟨t, pending, pre ++ post, [], []⟩
  | silent (pre : List RequestInfo) (pRI : RequestInfo) (post : List RequestInfo) :
      pending = pre ++ pRI :: post → pRI.addr = t → pRI.requestNumber ≠ 91 →
      (pRI.isLocal = true ∨ pRI.cancelled = true) →
      Exit t e response pending ⟨t, pending, pre ++ post, [], [t]⟩
  | answered (pre : List RequestInfo) (pRI : RequestInfo) (post : List RequestInfo) :
      pending = pre ++ pRI :: post → pRI.addr = t → pRI.requestNumber ≠ 91 →
      pRI.isLocal = false → pRI.cancelled = false →
      Exit t e response pending
        ⟨t, pending, pre ++ post, [solicitedResponse pRI e response], [t]⟩

theorem RIL_onRequestComplete_exit (t : Addr) (e : BitVec 32) (response : Option Marshalled)
    (pending : List RequestInfo) :
    Exit t e response pending (RIL_onRequestComplete t e response pending) := by
  unfold RIL_onRequestComplete
  cases hf : pending.find? fun pRI => pRI.addr == t with
  | none =>
    refine Exit.unknown fun pRI hmem he => ?_
    exact List.find?_eq_none.mp hf pRI hmem (by simp [he])
  | some pRI =>
    obtain ⟨hp, pre, post, rfl, hpre⟩ := List.find?_eq_some_iff_append.mp hf
    have haddr : pRI.addr = t := by simpa using hp
    have herase : (pre ++ pRI :: post).eraseP (fun pRI => pRI.addr == t) = pre ++ post := by
      rw [List.eraseP_append_right _ (fun b hb => by simpa using hpre b hb),
        List.eraseP_cons_of_pos (p := fun r : RequestInfo => r.addr == t) hp]
    simp only [herase]
    by_cases h91 : pRI.requestNumber = 91
    · rw [if_pos h91]
      exact Exit.avoided pre pRI post rfl haddr h91
    rw [if_neg h91, haddr]
    by_cases hl : pRI.isLocal = true
    · rw [if_pos hl]
      exact Exit.silent pre pRI post rfl haddr h91 (Or.inl hl)
    rw [if_neg hl]
    by_cases hc : pRI.cancelled = true
    · rw [if_pos hc]
      exact Exit.silent pre pRI post rfl haddr h91 (Or.inr hc)
    · rw [if_neg hc]
      exact Exit.answered pre pRI post rfl haddr h91 (by simpa using hl) (by simpa using hc)

/-- A response carries the token of its request. -/
theorem token_solicitedResponse (pRI : RequestInfo) (e : BitVec 32) (response : Option Marshalled) :
    (solicitedResponse pRI e response).token = pRI.token := by
  unfold solicitedResponse
  cases response <;> rfl

/-- **A completion does what it should** unless the request it completes is number 91. -/
theorem answered_of_avoids {t : Addr} {e : BitVec 32} {response : Option Marshalled}
    {pending : List RequestInfo} {c : Completion} (h : Exit t e response pending c)
    (hok : ∀ pRI ∈ pending, pRI.addr = t → pRI.requestNumber ≠ 91) : c.Answered := by
  cases h with
  | unknown hne =>
    refine ⟨fun _ => ⟨rfl, rfl, rfl⟩, ?_⟩
    rintro ⟨pRI, hmem, he⟩
    exact absurd he (hne pRI hmem)
  | avoided pre pRI post hp he h91 => exact absurd h91 (hok pRI (by simp [hp]) he)
  | silent pre pRI post hp he h91 hquiet =>
    refine ⟨fun hne => absurd he (hne pRI (by simp [hp])), fun _ => ?_⟩
    refine ⟨pRI, by simp [hp], he, by simp [hp, List.perm_middle], rfl, fun _ => rfl, ?_⟩
    intro hl hc
    rcases hquiet with h | h
    · exact absurd h (by simp [hl])
    · exact absurd h (by simp [hc])
  | answered pre pRI post hp he h91 hl hc =>
    refine ⟨fun hne => absurd he (hne pRI (by simp [hp])), fun _ => ?_⟩
    refine ⟨pRI, by simp [hp], he, by simp [hp, List.perm_middle], rfl, ?_, ?_⟩
    · rintro (h | h)
      · exact absurd h (by simp [hl])
      · exact absurd h (by simp [hc])
    · intro _ _
      exact ⟨_, rfl, token_solicitedResponse pRI e response⟩

/-! ## The steps -/

section Steps

variable {Msg Obj Thr : Type} {s : State Msg}

theorem answeredOnce_init : AnsweredOnce ({} : State Msg) where
  completions := fun _ hc => absurd hc List.not_mem_nil
  unexpected := rfl
  accounted := fun _ => rfl
  waiting := fun _ => rfl
  once := fun _ => Nat.zero_le _
  allocated := fun _ => rfl

/-- A serial that no waiting request has is not in flight. -/
theorem not_inFlight (hi : AnsweredOnce s) {serial : Int}
    (h : ∀ rr ∈ s.mRequestList, rr.mSerial ≠ serial) : inFlight s serial = 0 := by
  rw [← hi.waiting serial, List.count_eq_zero]
  intro hmem
  obtain ⟨rr, hrr, he⟩ := List.mem_map.mp hmem
  exact h rr hrr he

theorem inFlight_send (requestNumber : RilRequest → Int) (serial : BitVec 32)
    (mRequest : RilRequest) (mResult : Option Msg) (k : Int) :
    inFlight (send requestNumber serial mRequest mResult s) k =
      inFlight s k + if serial.toInt = k then 1 else 0 := by
  simp only [inFlight, send, List.countP_append, List.countP_singleton, decide_eq_true_eq]
  omega

theorem answeredOnce_send (hi : AnsweredOnce s) {requestNumber : RilRequest → Int}
    {serial : BitVec 32} {mRequest : RilRequest} {mResult : Option Msg}
    (hnew : ∀ rr ∈ s.mRequestList, rr.mSerial ≠ serial.toInt) :
    AnsweredOnce (send requestNumber serial mRequest mResult s) := by
  have hone : ∀ k : Int, [serial.toInt].count k = if serial.toInt = k then 1 else 0 := by
    intro k
    rw [List.count_singleton]
    simp only [beq_iff_eq]
  refine ⟨hi.completions, hi.unexpected, fun k => ?_, fun k => ?_, fun k => ?_, hi.allocated⟩
  · rw [inFlight_send]
    show (s.registered ++ [serial.toInt]).count k = _
    rw [List.count_append, hone, hi.accounted k]
    show _ = s.matched.count k + s.cleared.count k + _
    omega
  · rw [inFlight_send]
    simp only [send, List.map_append, List.map_cons, List.map_nil, List.count_append, hone,
      hi.waiting k]
  · rw [inFlight_send]
    by_cases hk : serial.toInt = k
    · have hzero := not_inFlight hi hnew
      rw [if_pos hk, ← hk]
      omega
    · rw [if_neg hk]
      exact hi.once k

/-- Only the order of the three places a serial can be in changes. -/
theorem AnsweredOnce.moved {s' : State Msg} (hi : AnsweredOnce s)
    (hcompl : s'.completions = s.completions) (hunexp : s'.unexpected = s.unexpected)
    (hreg : s'.registered = s.registered) (hmat : s'.matched = s.matched)
    (hclr : s'.cleared = s.cleared) (hlist : s'.mRequestList = s.mRequestList)
    (hfly : ∀ k, inFlight s' k = inFlight s k)
    (halloc : ∀ a, s'.allocated.count a = (s'.pendingRequests.map RequestInfo.addr).count a) :
    AnsweredOnce s' := by
  refine ⟨?_, ?_, fun k => ?_, fun k => ?_, fun k => ?_, halloc⟩
  · rw [hcompl]
    exact hi.completions
  · rw [hunexp]
    exact hi.unexpected
  · rw [hreg, hmat, hclr, hfly]
    exact hi.accounted k
  · rw [hlist, hfly]
    exact hi.waiting k
  · rw [hfly]
    exact hi.once k

theorem answeredOnce_processCommandBuffer (hi : AnsweredOnce s) (numCommands : Int) (addr : Addr) :
    AnsweredOnce (processCommandBuffer numCommands addr s) := by
  unfold processCommandBuffer
  cases hup : s.up with
  | nil => exact hi
  | cons c up =>
    by_cases hbad : c.request < 1 ∨ numCommands ≤ c.request
    · simp only [if_pos hbad]
      refine hi.moved rfl rfl rfl rfl rfl rfl (fun k => ?_) hi.allocated
      simp only [inFlight, hup, List.countP_cons, List.countP_append, List.countP_nil]
      omega
    · simp only [if_neg hbad]
      refine hi.moved rfl rfl rfl rfl rfl rfl (fun k => ?_) (fun a => ?_)
      · simp only [inFlight, hup, List.countP_cons, awaits, Bool.not_false, Bool.and_true]
        omega
      · simp only [List.map_cons, List.count_cons, hi.allocated a]

theorem answeredOnce_issueLocalRequest (hi : AnsweredOnce s) (addr : Addr) (request : Int) :
    AnsweredOnce (issueLocalRequest addr request s) := by
  refine hi.moved rfl rfl rfl rfl rfl rfl (fun k => ?_) (fun a => ?_)
  · simp [inFlight, issueLocalRequest, awaits]
  · simp only [issueLocalRequest, List.map_cons, List.count_cons, hi.allocated a]

/-- Freeing the address of a request taken off the list. -/
theorem allocated_free (hi : AnsweredOnce s) {pre post : List RequestInfo} {pRI : RequestInfo}
    (hp : s.pendingRequests = pre ++ pRI :: post) (a : Addr) :
    (s.allocated.diff [pRI.addr]).count a = ((pre ++ post).map RequestInfo.addr).count a := by
  have hcount := hi.allocated a
  rw [hp] at hcount
  simp only [List.map_append, List.map_cons, List.count_append, List.count_cons, beq_iff_eq]
    at hcount ⊢
  rw [List.diff_cons, List.diff_nil, List.count_erase]
  simp only [beq_iff_eq]
  omega

theorem answeredOnce_onRequestComplete (hi : AnsweredOnce s) {t : Addr} {e : BitVec 32}
    {response : Option Marshalled}
    (hok : ∀ pRI ∈ s.pendingRequests, pRI.addr = t → pRI.requestNumber ≠ 91) :
    AnsweredOnce (onRequestComplete t e response s) := by
  have hexit := RIL_onRequestComplete_exit t e response s.pendingRequests
  have hans := answered_of_avoids hexit hok
  unfold onRequestComplete
  generalize RIL_onRequestComplete t e response s.pendingRequests = c at hexit hans
  have hcompl : ∀ c' ∈ s.completions ++ [c], c'.Answered := by
    intro c' hmem
    rcases List.mem_append.mp hmem with hmem | hmem
    · exact hi.completions c' hmem
    · rw [List.mem_singleton.mp hmem]
      exact hans
  -- whichever exit is taken, the serial in flight is still in flight
  suffices h : (∀ k, inFlight { s with
        pendingRequests := c.after, down := s.down ++ c.sent } k = inFlight s k) ∧
      ∀ a, (s.allocated.diff c.freed).count a = (c.after.map RequestInfo.addr).count a by
    have hbase : AnsweredOnce { s with
        pendingRequests := c.after, down := s.down ++ c.sent
        allocated := s.allocated.diff c.freed } := hi.moved rfl rfl rfl rfl rfl rfl h.1 h.2
    exact ⟨hcompl, hbase.unexpected, hbase.accounted, hbase.waiting, hbase.once, hbase.allocated⟩
  cases hexit with
  | unknown hne =>
    refine ⟨fun k => ?_, fun a => ?_⟩
    · simp only [inFlight, List.append_nil]
    · rw [List.diff_nil]
      exact hi.allocated a
  | avoided pre pRI post hp he h91 => exact absurd h91 (hok pRI (by simp [hp]) he)
  | silent pre pRI post hp he h91 hquiet =>
    refine ⟨fun k => ?_, fun a => ?_⟩
    · have hq : awaits k pRI = false := by
        unfold awaits
        rcases hquiet with h | h <;> simp [h]
      simp only [inFlight, hp, List.countP_append, List.countP_cons, hq, List.append_nil]
      simp
    · exact he ▸ allocated_free hi hp a
  | answered pre pRI post hp he h91 hl hc =>
    refine ⟨fun k => ?_, fun a => ?_⟩
    · have hw : awaits k pRI = decide (pRI.token.toInt = k) := by simp [awaits, hl, hc]
      simp only [inFlight, hp, List.countP_append, List.countP_cons, List.countP_nil, hw,
        token_solicitedResponse]
      omega
    · exact he ▸ allocated_free hi hp a

theorem answeredOnce_socketClosed (hi : AnsweredOnce s) : AnsweredOnce (socketClosed s) := by
  have hzero : ∀ k, inFlight (socketClosed s) k = 0 := by
    intro k
    simp only [inFlight, socketClosed, List.countP_nil, List.countP_map, Nat.zero_add, Nat.add_zero]
    rw [List.countP_eq_zero]
    intro pRI _
    simp [awaits]
  refine ⟨hi.completions, hi.unexpected, fun k => ?_, fun k => ?_, fun k => ?_, fun a => ?_⟩
  · rw [hzero]
    simp only [socketClosed, List.count_append, hi.waiting k, hi.accounted k]
    omega
  · rw [hzero]
    rfl
  · rw [hzero]
    exact Nat.zero_le _
  · simp only [socketClosed, List.map_map]
    exact hi.allocated a

/-- The serial the RIL reads is the token of the response. -/
theorem replySerial_parcel (r : Response) : replySerial r.parcel = r.token.toInt := by
  have h := readInt_at [] (writeInt32 r.error ++ r.payload) r.token
  rw [List.nil_append] at h
  exact congrArg Prod.fst h

theorem answeredOnce_receive (hi : AnsweredOnce s) (decode : Decode Obj Thr) :
    AnsweredOnce (receive decode s) := by
  unfold receive
  cases hd : s.down with
  | nil => exact hi
  | cons r down =>
    have hfly : ∀ k, inFlight s k = inFlight { s with down := down } k +
        if r.token.toInt = k then 1 else 0 := by
      intro k
      simp only [inFlight, hd, List.countP_cons, decide_eq_true_eq]
      omega
    simp only
    rcases processSolicited_spec decode s.mRequestList r.parcel with ⟨hne, _⟩ | ⟨pre, rr, post, ar, h⟩
    · -- a response in flight is one the RIL waits for
      have hzero : inFlight s r.token.toInt = 0 :=
        not_inFlight hi fun rr hrr => replySerial_parcel r ▸ hne rr hrr
      rw [hfly, if_pos rfl] at hzero
      exact absurd hzero (by omega)
    · obtain ⟨hl, hs, _, he, _⟩ := h
      rw [he]
      have hser : rr.mSerial = r.token.toInt := hs.trans (replySerial_parcel r)
      refine ⟨hi.completions, hi.unexpected, fun k => ?_, fun k => ?_, fun k => ?_, hi.allocated⟩
      · have hacc := hi.accounted k
        rw [hfly k] at hacc
        simp only [Option.toList_some, List.map_cons, List.map_nil, List.count_append, hser,
          List.count_singleton, beq_iff_eq]
        show s.registered.count k = _ + s.cleared.count k + inFlight { s with down := down } k
        omega
      · have hw := hi.waiting k
        rw [hl, hfly k] at hw
        simp only [List.map_append, List.map_cons, List.count_append, List.count_cons, hser,
          beq_iff_eq] at hw ⊢
        show _ = inFlight { s with down := down } k
        omega
      · have ho := hi.once k
        rw [hfly k] at ho
        show inFlight { s with down := down } k ≤ 1
        omega

theorem answeredOnce_step {requestNumber : RilRequest → Int} {numCommands : Int}
    {decode : Decode Obj Thr} {s' : State Msg} {a : Action Msg} (hi : AnsweredOnce s)
    (hok : AvoidsUnknown s a) (h : step requestNumber numCommands decode s a = some s') :
    AnsweredOnce s' := by
  cases stepped_of_step h with
  | send serial mRequest mResult hnew => exact answeredOnce_send hi hnew
  | processCommandBuffer addr => exact answeredOnce_processCommandBuffer hi numCommands addr
  | issueLocalRequest addr request => exact answeredOnce_issueLocalRequest hi addr request
  | onRequestComplete t e response => exact answeredOnce_onRequestComplete hi hok
  | socketClosed => exact answeredOnce_socketClosed hi
  | receive => exact answeredOnce_receive hi decode

end Steps

theorem run_answeredOnce {Msg Obj Thr : Type} {requestNumber : RilRequest → Int} {numCommands : Int}
    {decode : Decode Obj Thr} {s : State Msg}
    (hrun : Run (step requestNumber numCommands decode) AvoidsUnknown {} s) : AnsweredOnce s :=
  hrun.inv answeredOnce_init fun _ _ _ hi hok hs => answeredOnce_step hi hok hs

/-- **Every request is answered once** in a run where the vendor completes no request number 91. -/
theorem every_request_answered_once {Msg Obj Thr : Type} (requestNumber : RilRequest → Int)
    (numCommands : Int) (decode : Decode Obj Thr) (s : State Msg)
    (hrun : Run (step requestNumber numCommands decode) AvoidsUnknown {} s) : AnsweredOnce s :=
  run_answeredOnce hrun

/-! ## Completing request 91 -/

section Avoided

variable {Msg Obj Thr : Type} {requestNumber : RilRequest → Int} {numCommands : Int}
  {decode : Decode Obj Thr} {s s' : State Msg} {a : Action Msg}

/-- No two pending requests have one address. -/
def Distinct (s : State Msg) : Prop := (s.pendingRequests.map RequestInfo.addr).Nodup

theorem distinct_new (hi : AnsweredOnce s) (hd : Distinct s) {addr : Addr} (hnew : addr ∉ s.allocated) :
    (addr :: s.pendingRequests.map RequestInfo.addr).Nodup := by
  refine List.nodup_cons.mpr ⟨fun hmem => ?_, hd⟩
  have hpos := List.count_pos_iff.mpr hmem
  rw [← hi.allocated addr] at hpos
  exact hnew (List.count_pos_iff.mp hpos)

theorem distinct_step (hi : AnsweredOnce s) (hd : Distinct s)
    (h : step requestNumber numCommands decode s a = some s') : Distinct s' := by
  cases stepped_of_step h with
  | send => exact hd
  | processCommandBuffer addr hin =>
    unfold processCommandBuffer
    cases hup : s.up with
    | nil => exact hd
    | cons c up =>
      by_cases hbad : c.request < 1 ∨ numCommands ≤ c.request
      · simp only [if_pos hbad]
        exact hd
      · simp only [if_neg hbad]
        exact distinct_new hi hd hin
  | issueLocalRequest addr request hin => exact distinct_new hi hd hin
  | onRequestComplete t e response =>
    have hexit := RIL_onRequestComplete_exit t e response s.pendingRequests
    show ((RIL_onRequestComplete t e response s.pendingRequests).after.map RequestInfo.addr).Nodup
    generalize RIL_onRequestComplete t e response s.pendingRequests = c at hexit
    have hless : ∀ {pre post : List RequestInfo} {pRI : RequestInfo},
        s.pendingRequests = pre ++ pRI :: post → ((pre ++ post).map RequestInfo.addr).Nodup := by
      intro pre post pRI hp
      refine hd.sublist (List.Sublist.map _ ?_)
      rw [hp]
      exact (List.sublist_cons_self pRI post).append_left pre
    cases hexit with
    | unknown => exact hd
    | avoided pre pRI post hp | silent pre pRI post hp | answered pre pRI post hp => exact hless hp
  | socketClosed =>
    unfold Distinct socketClosed
    rw [List.map_map]
    exact hd
  | receive =>
    unfold receive
    cases hdown : s.down with
    | nil => exact hd
    | cons r down => exact hd

theorem run_distinct
    (hrun : Run (step requestNumber numCommands decode) AvoidsUnknown ({} : State Msg) s) :
    Distinct s :=
  hrun.inv_staged List.nodup_nil fun _ _ _ hpre hd _ hs =>
    distinct_step (run_answeredOnce hpre) hd hs

/-- The excluded step is the one that goes wrong: the completion is not answered, and if the request
    was neither local nor cancelled the RIL waits for a serial that is nowhere on its way. -/
theorem avoided_unanswered (hi : AnsweredOnce s) (hd : Distinct s) (hbad : ¬ AvoidsUnknown s a)
    (h : step requestNumber numCommands decode s a = some s') :
    ¬ AnsweredOnce s' ∧ ∃ pRI ∈ s.pendingRequests, pRI.requestNumber = 91 ∧
      (pRI.isLocal = false → pRI.cancelled = false →
        (∃ rr ∈ s'.mRequestList, rr.mSerial = pRI.token.toInt) ∧
        inFlight s' pRI.token.toInt = 0) := by
  cases a with
  | send | processCommandBuffer | issueLocalRequest | socketClosed | receive =>
    exact absurd trivial hbad
  | onRequestComplete t e response =>
    cases h
    simp only [AvoidsUnknown, not_forall, ne_eq, not_not] at hbad
    obtain ⟨pRI, hmem, haddr, h91⟩ := hbad
    have hexit := RIL_onRequestComplete_exit t e response s.pendingRequests
    have hown : ∀ {pre post : List RequestInfo} {pRI' : RequestInfo},
        s.pendingRequests = pre ++ pRI' :: post → pRI'.addr = t → pRI' = pRI := by
      intro pre post pRI' hp he
      exact List.inj_on_of_nodup_map hd (by simp [hp]) hmem (he.trans haddr.symm)
    unfold onRequestComplete
    generalize RIL_onRequestComplete t e response s.pendingRequests = c at hexit
    cases hexit with
    | unknown hne => exact absurd haddr (hne pRI hmem)
    | silent pre pRI' post hp he hne => exact absurd (hown hp he ▸ h91) hne
    | answered pre pRI' post hp he hne => exact absurd (hown hp he ▸ h91) hne
    | avoided pre pRI' post hp he =>
      obtain rfl := hown hp he
      refine ⟨fun hall => ?_, pRI', hmem, h91, fun hl hc => ?_⟩
      · have hc := hall.completions _ (List.mem_append_right _ (List.mem_singleton_self _))
        obtain ⟨_, _, _, _, hfreed, _⟩ := hc.pending ⟨pRI', hmem, he⟩
        exact absurd hfreed (by simp)
      · -- the serial was in flight once, and this was it
        have hw : awaits pRI'.token.toInt pRI' = true := by simp [awaits, hl, hc]
        have honce := hi.once pRI'.token.toInt
        have hwait := hi.waiting pRI'.token.toInt
        simp only [inFlight, hp, List.countP_append, List.countP_cons, hw, if_true] at honce hwait
        constructor
        · have hpos : 0 < (s.mRequestList.map RILRequest.mSerial).count pRI'.token.toInt := by omega
          exact List.mem_map.mp (List.count_pos_iff.mp hpos)
        · simp only [inFlight, List.countP_append, List.append_nil]
          omega

end Avoided

/-- `RIL_REQUEST_GSM_SMS_BROADCAST_ACTIVATION` is 91, and the others 1. -/
def numberOf (request : RilRequest) : Int := if request = .gsmBroadcastActivation then 91 else 1

/-- Every decoder returns null. -/
def nullDecode : Decode Unit Unit := fun _ p => (.ok none, p)

/-- A request is answered, a second is given up with the socket and completed too late. -/
theorem every_request_answered_once_cancelled :
    ∃ s : State Nat, Run (step numberOf 128 nullDecode) AvoidsUnknown {} s ∧ AnsweredOnce s ∧
      s.registered = [0, 1] ∧ s.matched = [0] ∧ s.cleared = [1] := by
  have hrun := run_of_exec (step numberOf 128 nullDecode) AvoidsUnknown ({} : State Nat)
    [.send 0 .getImei none, .processCommandBuffer 4096, .onRequestComplete 4096 0 none, .receive,
      .send 1 .getImei none, .processCommandBuffer 4096, .socketClosed,
      .onRequestComplete 4096 0 none]
    ⟨trivial, trivial, by decide, trivial, trivial, trivial, trivial, by decide, trivial⟩ rfl
  exact ⟨_, hrun, every_request_answered_once numberOf 128 nullDecode _ hrun, rfl, rfl, rfl⟩

/-- The vendor completes a `GSM_SMS_BROADCAST_ACTIVATION`: libril sends nothing and frees nothing. -/
theorem broadcast_activation_unanswered :
    ¬ ∀ s : State Nat, Reach (step numberOf 128 nullDecode) {} s → AnsweredOnce s := by
  intro hall
  have hrun := reach_of_exec (step numberOf 128 nullDecode) ({} : State Nat)
    [.send 0 .gsmBroadcastActivation none, .processCommandBuffer 4096,
      .onRequestComplete 4096 0 none]
    rfl
  have hwait := (hall _ hrun).waiting 0
  exact absurd hwait (by decide)

end Codina.Ril.Libril
