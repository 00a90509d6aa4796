/-
  The network-type switch of `SamsungU8500RIL`: the model.

  The Samsung modem must not be told a new network type while a data call is up.  So
  `setPreferredNetworkType` sends the request at once only when `NeedReconnect` says there is nothing
  to reconnect; otherwise a `ConnectivityHandler` turns mobile data off, waits for a connectivity
  broadcast that says there is no connectivity, sends the request with a Message of its own, and on
  that Message's return turns mobile data on again and answers the caller.

  The state holds the RIL's fields, EVERY `ConnectivityHandler` ever created (the RIL drops its
  reference to one without stopping it), the requests the modem has not answered, the Messages posted
  to the handlers' loopers, the broadcasts on their way to registered receivers, and what the
  platform reports about the data connection.  It also records history: the calls made, the types
  written to the modem, the answers it gave, the callers' Messages sent back, and the last handler
  that switched mobile data.  No method reads the history.

  Each method body is one atomic function; `step` chooses which one runs next.
-/
import Codina.Ril.Solicited
import Codina.Lib.Runs
import Mathlib.Logic.Function.Basic

namespace Codina.Ril

open Codina.Runs

/-! ## Data -/

/-- `ConnectivityHandler` objects, numbered in the order of their creation. -/
abbrev HandlerId := Nat

/-- The non-null Message passed with a call, named by the number of that call: every caller passes
    a Message of its own. -/
abbrev Message := Nat

/-- Where `sendToTarget` delivers the Message attached to a request. -/
inductive Target where
  /-- The Message a caller passed. -/
  | caller (m : Message)
  /-- `obtainMessage(MESSAGE_SET_PREFERRED_NETWORK_TYPE)` of a handler.  `served` is history: the
      number of the call whose type the request carries. -/
  | handler (h : HandlerId) (served : Nat)
deriving DecidableEq

/-- `android.net.NetworkInfo`. -/
structure NetworkInfo where
  typeName : String
  isConnected : Bool

/-- What the platform reports when it is asked, and the connection `NeedReconnect` tries to see. -/
structure Platform where
  /-- `cm.getActiveNetworkInfo()`. -/
  activeNetworkInfo : Option NetworkInfo
  /-- `cm.getMobileDataEnabled()`: the mobile data switch. -/
  mobileDataEnabled : Bool
  /-- `mTelephonyManager.getNetworkClass(mTelephonyManager.getNetworkType())`. -/
  networkClass : Int
  /-- Whether the mobile data connection is in fact up. -/
  mobileConnected : Bool
  /-- Whether `mTelephonyManager.setDataEnabled` throws when it is called now. -/
  setDataEnabledThrows : Bool := false

structure ConnectivityHandler where
  mDesiredNetworkType : Int := 0
  isRegistered : Bool := false
  mNetworktypeResponse : Option Message := none
  /-- History: the number of the call that set `mDesiredNetworkType` last. -/
  served : Nat := 0

/-- A call of `setPreferredNetworkType`, and the platform as it was then. -/
structure Call where
  networkType : Int
  response : Option Message
  platform : Platform

/-- A `RIL_REQUEST_SET_PREFERRED_NETWORK_TYPE` written to the modem. -/
structure Write where
  networkType : Int
  /-- Whether the mobile data connection was up at that moment. -/
  mobileConnected : Bool

structure State where
  mSamsungu8500RILHandler : Option HandlerId := none
  mPreferredNetworkType : Int
  mRequestList : List (RILRequest Target) := []
  nextSerial : Int := 0
  /-- The handlers `0 .. numHandlers - 1` have been created. -/
  numHandlers : Nat := 0
  /-- The fields of every handler; one not created yet has its initial values. -/
  handlers : HandlerId → ConnectivityHandler := fun _ => {}
  /-- `MESSAGE_SET_PREFERRED_NETWORK_TYPE` Messages posted to the loopers, with the call served. -/
  queue : List (HandlerId × Nat) := []
  /-- `CONNECTIVITY_ACTION` on its way to the receiver of a handler, with `EXTRA_NO_CONNECTIVITY`. -/
  broadcasts : List (HandlerId × Bool) := []
  platform : Platform
  /-- A method threw a `NullPointerException`, which ends the process. -/
  crashed : Bool := false
  calls : List Call := []
  writes : List Write := []
  /-- The requests the modem has answered, with the error code. -/
  answers : List (RILRequest Target × Int) := []
  /-- The callers' Messages sent to their targets, and whether each carried an exception. -/
  completed : List (Message × Bool) := []
  /-- The last change of the mobile data switch, if a handler made it. -/
  lastDataSwitch : Option (HandlerId × Bool) := none

/-- The RIL as constructed with `networkMode`. -/
def State.init (networkMode : Int) (platform : Platform) : State :=
  { mPreferredNetworkType := networkMode, platform := platform }

/-- `String.equalsIgnoreCase`, on the letters of ASCII: the names compared are the platform's network
    type names, which have no others. -/
def equalsIgnoreCase (a b : String) : Bool := a.toList.map Char.toLower == b.toList.map Char.toLower

/-! ## The methods of `SamsungU8500RIL` and `ConnectivityHandler` -/

/-- `NeedReconnect`. -/
def needReconnect (p : Platform) : Bool :=
  match p.activeNetworkInfo with
  | none => false
  | some ni => equalsIgnoreCase ni.typeName "mobile" && ni.isConnected && p.mobileDataEnabled

def hasNetworkTypeChanged (networkType networkClass : Int) : Bool :=
  !((networkType == networkClass) || (networkType == 0 && networkClass == 2))

/-- The network type a request written by `sendPreferedNetworktype` carries. -/
def RILRequest.networkType (rr : RILRequest Target) : Int := rr.mParcel.getD 1 0

/-- `RILRequest.obtain`, and the two ints written to its parcel. -/
def newRequest (s : State) (networkType : Int) (response : Option Target) : RILRequest Target :=
  { mSerial := s.nextSerial, mRequest := .setPreferredNetworkType,
    mParcel := [1, networkType], mResult := response }

/-- Sends the real RIL request to the modem. -/
def sendPreferedNetworktype (networkType : Int) (response : Option Target) (s : State) : State :=
  { s with
    mRequestList := s.mRequestList ++ [newRequest s networkType response]
    nextSerial := s.nextSerial + 1
    mPreferredNetworkType := networkType
    writes := s.writes ++ [⟨networkType, s.platform.mobileConnected⟩] }

/-- Assign to fields of one handler. -/
def modifyHandler (h : HandlerId) (f : ConnectivityHandler → ConnectivityHandler) (s : State) :
    State :=
  { s with handlers := Function.update s.handlers h (f (s.handlers h)) }

def startListening (h : HandlerId) (s : State) : State :=
  if (s.handlers h).isRegistered then s
  else modifyHandler h (fun c => { c with isRegistered := true }) s

/-- Unregistering a receiver also drops the broadcasts still on their way to it. -/
def stopListening (h : HandlerId) (s : State) : State :=
  if (s.handlers h).isRegistered then
    { modifyHandler h (fun c => { c with isRegistered := false }) s with
      broadcasts := s.broadcasts.filter fun b => b.1 ≠ h }
  else s

/-- What `mTelephonyManager.setDataEnabled(enabled)` leaves; when it throws, what there was. -/
def Platform.setDataEnabled (enabled : Bool) (p : Platform) : Platform :=
  if p.setDataEnabledThrows then p else { p with mobileDataEnabled := enabled }

/-- The last change of the mobile data switch once handler `h` has tried to make one. -/
def lastSwitch (h : HandlerId) (enabled : Bool) (s : State) : Option (HandlerId × Bool) :=
  if s.platform.setDataEnabledThrows then s.lastDataSwitch else some (h, enabled)

/-- `ConnectivityHandler.setMobileDataEnabled`, called by handler `h`.  Every exception is caught and
    printed, and the caller never hears of it. -/
def setMobileDataEnabled (h : HandlerId) (enabled : Bool) (s : State) : State :=
  { s with
    platform := s.platform.setDataEnabled enabled
    lastDataSwitch := lastSwitch h enabled s }

/-- `ConnectivityHandler.setPreferedNetworkType`, for call number `served`. -/
def setPreferedNetworkType (h : HandlerId) (networkType : Int) (response : Option Message)
    (served : Nat) (s : State) : State :=
  let s := modifyHandler h (fun c => { c with
    mDesiredNetworkType := networkType, mNetworktypeResponse := response, served := served }) s
  setMobileDataEnabled h false (startListening h s)

/-- The handler `setPreferredNetworkType` uses when there is something to reconnect: the present one
    or, when there is none, a new one with a looper of its own. -/
def currentHandler (s : State) : HandlerId := s.mSamsungu8500RILHandler.getD s.numHandlers

def ensureHandler (s : State) : State :=
  match s.mSamsungu8500RILHandler with
  | some _ => s
  | none => { s with
      mSamsungu8500RILHandler := some s.numHandlers, numHandlers := s.numHandlers + 1 }

/-- The Message of the next call; `hasResponse` tells whether it is non-null. -/
def newMessage (s : State) (hasResponse : Bool) : Option Message :=
  if hasResponse then some s.calls.length else none

/-- The call enters the history. -/
def recordCall (s : State) (networkType : Int) (hasResponse : Bool) : State :=
  { s with calls := s.calls ++ [⟨networkType, newMessage s hasResponse, s.platform⟩] }

def setPreferredNetworkType (networkType : Int) (hasResponse : Bool) (s : State) : State :=
  let k := s.calls.length
  let response := newMessage s hasResponse
  let s := recordCall s networkType hasResponse
  if needReconnect s.platform then
    let h := currentHandler s
    let s := ensureHandler s
    if hasNetworkTypeChanged networkType s.platform.networkClass then
      setPreferedNetworkType h networkType response k s
    else s
  else
    let s := { s with mSamsungu8500RILHandler := none }
    sendPreferedNetworktype networkType (response.map .caller) s

def handleMessage (h : HandlerId) (s : State) : State :=
  -- networktype was set, now we can enable the dataconnection again
  let s := setMobileDataEnabled h true s
  match (s.handlers h).mNetworktypeResponse with
  | none => { s with crashed := true }
  | some m =>
    modifyHandler h (fun c => { c with mNetworktypeResponse := none })
      { s with completed := s.completed ++ [(m, false)] }

/-- `ConnectivityBroadcastReceiver.onReceive` of handler `h`. -/
def onReceive (h : HandlerId) (noConnectivity : Bool) (s : State) : State :=
  if noConnectivity then
    -- Ok dataconnection is down, now set the networktype
    let s := stopListening h s
    let s := sendPreferedNetworktype (s.handlers h).mDesiredNetworkType
      (some (.handler h (s.handlers h).served)) s
    modifyHandler h (fun c => { c with mDesiredNetworkType := -1 }) s
  else s

/-! ## The platform's side -/

/-- `CONNECTIVITY_ACTION` is sent to every receiver registered at that moment. -/
def sendBroadcast (noConnectivity : Bool) (s : State) : State :=
  { s with
    broadcasts := s.broadcasts ++
      ((List.range s.numHandlers).filter fun h => (s.handlers h).isRegistered).map
        fun h => (h, noConnectivity) }

/-- What the platform reports changes for a reason of its own. -/
def changePlatform (p : Platform) (s : State) : State :=
  { s with
    platform := p
    lastDataSwitch :=
      if p.mobileDataEnabled = s.platform.mobileDataEnabled then s.lastDataSwitch else none }

/-- A Message reaches its target: a caller has its answer, a handler's is queued by its looper. -/
def sendToTarget (s : State) (target : Target) (exception : Bool) : State :=
  match target with
  | .caller m => { s with completed := s.completed ++ [(m, exception)] }
  | .handler h served => { s with queue := s.queue ++ [(h, served)] }

/-- A reply of the modem, handled by `processSolicited`. -/
def reply {Obj Thr : Type} (decode : Decode Obj Thr) (p : Parcel) (s : State) : State :=
  let r := processSolicited decode s.mRequestList p
  let s := { s with
    mRequestList := r.mRequestList
    answers := s.answers ++ r.returned.toList.map (fun rr => (rr, replyError p)) }
  r.sent.foldl (fun s m => sendToTarget s m.1 m.2.exception.isSome) s

/-! ## Steps -/

inductive Action where
  /-- The framework calls `setPreferredNetworkType`. -/
  | setPreferredNetworkType (networkType : Int) (hasResponse : Bool)
  /-- Mobile data goes up or down, another network becomes active, the user flips the switch, the
      telephony service fails or recovers. -/
  | platform (p : Platform)
  /-- The system broadcasts `CONNECTIVITY_ACTION`. -/
  | connectivityAction (noConnectivity : Bool)
  /-- Some network is lost, and the `NetworkCallback` of handler `h` broadcasts it. -/
  | onLost (h : HandlerId)
  /-- A broadcast arrives at the receiver of handler `h`. -/
  | onReceive (h : HandlerId) (noConnectivity : Bool)
  /-- The modem replies. -/
  | processSolicited (p : Parcel)
  /-- The looper of handler `h` delivers `MESSAGE_SET_PREFERRED_NETWORK_TYPE`. -/
  | handleMessage (h : HandlerId) (served : Nat)

/-- What an action does to a live process, where it is possible. -/
def act {Obj Thr : Type} (decode : Decode Obj Thr) (s : State) : Action → Option State
  | .setPreferredNetworkType t r => some (setPreferredNetworkType t r s)
  | .platform p => some (changePlatform p s)
  | .connectivityAction b => some (sendBroadcast b s)
  | .onLost h => if (s.handlers h).isRegistered then some (sendBroadcast true s) else none
  | .onReceive h b =>
    if (s.handlers h).isRegistered ∧ (h, b) ∈ s.broadcasts then
      some (onReceive h b { s with broadcasts := s.broadcasts.erase (h, b) })
    else none
  | .processSolicited p => some (reply decode p s)
  | .handleMessage h c =>
    if (h, c) ∈ s.queue then some (handleMessage h { s with queue := s.queue.erase (h, c) })
    else none

/-- One step; nothing happens after a crash. -/
def step {Obj Thr : Type} (decode : Decode Obj Thr) (s : State) (a : Action) : Option State :=
  if s.crashed then none else act decode s a

end Codina.Ril
