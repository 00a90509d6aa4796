/-
  The GPS HAL shim: wrapping the vendor's objects.

  The shim takes three function pointers in turn out of objects the vendor owns, saves each in a
  global, and puts a function of its own in the vendor's object: `get_gps_interface` of the device in
  `open_gps`, `get_extension` of the `GpsInterface` in `shim_get_gps_interface`, and
  `set_ref_location` of the `AGpsRilInterface` in `shim_get_extension`.

  The vendor's `GpsInterface` and `AGpsRilInterface` are static.  Wrapping one of them again saves the
  pointer found there, which is by then the shim's own, and from then on the shim calls itself until
  the stack ends (`callGetExtension_overflow`).  Two calls of `get_gps_interface` are enough
  (`wrapped_twice`).  The shim also writes through the pointer `get_extension` returned without a look
  at whether it is NULL.

  In a run that wraps each object at most once, asks for the RIL extension only where there is one,
  and passes no reference location the shim would refuse, the shim is transparent (`transparent`), and
  any step that breaks this rule breaks transparency at once (`not_transparent_after`).
-/
import Codina.Gps.RefLocation
import Codina.Lib.Runs

namespace Codina.Gps

open Codina.Runs

/-! ## Pointers, objects and calls -/

/-- A function pointer: the vendor's original function, or the shim's. -/
inductive Fn where
  | vendor
  | shim
deriving DecidableEq

/-- The functions that are wrapped, with the argument that matters. -/
inductive Entry where
  | getGpsInterface
  | getExtension (name : String)
  | setRefLocation
deriving DecidableEq

/-- What a call returns: the static `GpsInterface`, an extension by its name or NULL, or nothing. -/
inductive Value where
  | gpsInterface
  | extension (ext : Option String)
  | void
deriving DecidableEq

inductive Outcome where
  | returned (v : Value)
  /-- A NULL pointer was called, or written through. -/
  | nullDereference
  | stackOverflow
deriving DecidableEq

/-- A call the framework made: the vendor's functions it reached, in order, and how it ended. -/
structure Call where
  entry : Entry
  reached : List Entry
  outcome : Outcome
deriving DecidableEq

/-- The vendor HAL: the extensions it supports. -/
structure Vendor where
  supports : String → Bool

/-- What the vendor's own function returns. -/
def Vendor.result (v : Vendor) : Entry → Value
  | .getGpsInterface => .gpsInterface
  | .getExtension name => .extension (if v.supports name then some name else none)
  | .setRefLocation => .void

def AGPS_RIL_INTERFACE : String := "agps_ril"

def EINVAL : Int := 22

structure State where
  /-- The shim's globals. -/
  vendorGetGpsInterface : Option Fn := none
  vendorGetExtension : Option Fn := none
  vendorSetRefLocation : Option Fn := none
  /-- `get_gps_interface` in each `gps_device_t` of the vendor. -/
  getGpsInterface : Nat → Fn := fun _ => .vendor
  /-- `get_extension` in the vendor's `GpsInterface`. -/
  getExtension : Fn := .vendor
  /-- `set_ref_location` in the vendor's `AGpsRilInterface`. -/
  setRefLocation : Fn := .vendor
  /-- What the framework has been given: devices, the `GpsInterface`, the `AGpsRilInterface`. -/
  opened : List Nat := []
  hasInterface : Bool := false
  hasRil : Bool := false
  /-- History: the calls the framework made through the vendor's objects. -/
  calls : List Call := []
  /-- A call did not return; the process is gone. -/
  dead : Bool := false

/-! ## The functions of `gps.c`

Each is evaluated at a pointer, with a bound on the number of nested frames of the shim. -/

/-- How a call goes: its outcome, the vendor functions reached, and the state after it. -/
abbrev Eval := Outcome × List Entry × State

def callGetGpsInterface : Nat → Fn → State → Eval
  | _, .vendor, s => (.returned .gpsInterface, [.getGpsInterface], s)
  | 0, .shim, s => (.stackOverflow, [], s)
  | frames + 1, .shim, s =>
    match s.vendorGetGpsInterface with
    | none => (.nullDereference, [], s)
    | some f =>
      match callGetGpsInterface frames f s with
      | (.returned halInterface, reached, s) =>
        (.returned halInterface, reached,
          { s with vendorGetExtension := some s.getExtension, getExtension := .shim })
      | stopped => stopped

def callGetExtension (v : Vendor) : Nat → Fn → String → State → Eval
  | _, .vendor, name, s => (.returned (v.result (.getExtension name)), [.getExtension name], s)
  | 0, .shim, _, s => (.stackOverflow, [], s)
  | frames + 1, .shim, name, s =>
    match s.vendorGetExtension with
    | none => (.nullDereference, [], s)
    | some f =>
      match callGetExtension v frames f name s with
      | (.returned ext, reached, s) =>
        if name = AGPS_RIL_INTERFACE then
          -- now we shim the ref_location callback
          if ext = .extension none then (.nullDereference, reached, s)
          else (.returned ext, reached,
            { s with vendorSetRefLocation := some s.setRefLocation, setRefLocation := .shim })
        else (.returned ext, reached, s)
      | stopped => stopped

def callSetRefLocation : Nat → Fn → BitVec 32 → State → Eval
  | _, .vendor, _, s => (.returned .void, [.setRefLocation], s)
  | 0, .shim, _, s => (.stackOverflow, [], s)
  | frames + 1, .shim, sz_struct, s =>
    if BitVec.ofNat 32 AGpsRefLocationSamsung.size < sz_struct then (.returned .void, [], s)
    else
      match s.vendorSetRefLocation with
      | none => (.nullDereference, [], s)
      | some f => callSetRefLocation frames f (BitVec.ofNat 32 AGpsRefLocation.size) s

/-- `open_gps`, where `dlopen` and `dlsym` succeed or not and the vendor's `open` returns
    `gpsHalResult` and the device `gps`. -/
def openGps (realGpsLib realHalSym : Bool) (gpsHalResult : Int) (gps : Nat) (s : State) :
    Int × State :=
  if realGpsLib = false then (-EINVAL, s)
  else if realHalSym = false then (-EINVAL, s)
  else if gpsHalResult < 0 then (-EINVAL, s)
  else
    -- now, we shim hw_device_t
    (0, { s with
      vendorGetGpsInterface := some (s.getGpsInterface gps)
      getGpsInterface := Function.update s.getGpsInterface gps .shim
      opened := gps :: s.opened })

/-! ## Steps -/

/-- What the framework does: open the HAL, and call what it finds in the objects it was given. -/
inductive Action where
  | openGps (realGpsLib realHalSym : Bool) (gpsHalResult : Int) (gps : Nat)
  | getGpsInterface (gps : Nat)
  | getExtension (name : String)
  | setRefLocation (sz_struct : BitVec 32)

/-- The framework's call has ended; it keeps what it was given. -/
def finish (entry : Entry) : Eval → State
  | (outcome, reached, s) => { s with
      calls := s.calls ++ [⟨entry, reached, outcome⟩]
      hasInterface := s.hasInterface || outcome = .returned .gpsInterface
      hasRil := s.hasRil || outcome = .returned (.extension (some AGPS_RIL_INTERFACE))
      dead := outcome = .nullDereference || outcome = .stackOverflow }

/-- One step, with room for `frames` nested calls of the shim within a call of it. -/
def step (v : Vendor) (frames : Nat) (s : State) (a : Action) : Option State :=
  if s.dead then none
  else
    match a with
    | .openGps lib sym result gps => some (openGps lib sym result gps s).2
    | .getGpsInterface gps =>
      if gps ∈ s.opened then
        some (finish .getGpsInterface (callGetGpsInterface (frames + 1) (s.getGpsInterface gps) s))
      else none
    | .getExtension name =>
      if s.hasInterface then
        some (finish (.getExtension name) (callGetExtension v (frames + 1) s.getExtension name s))
      else none
    | .setRefLocation sz =>
      if s.hasRil then
        some (finish .setRefLocation (callSetRefLocation (frames + 1) s.setRefLocation sz s))
      else none

/-! ## Transparency -/

/-- The saved pointers are never the shim's own; every call reached the vendor's function exactly
    once and returned what that returns, NULL included. -/
structure Transparent (v : Vendor) (s : State) : Prop where
  getGpsInterface : s.vendorGetGpsInterface ≠ some .shim
  getExtension : s.vendorGetExtension ≠ some .shim
  setRefLocation : s.vendorSetRefLocation ≠ some .shim
  calls : ∀ c ∈ s.calls, c.reached = [c.entry] ∧ c.outcome = .returned (v.result c.entry)

/-- No object is wrapped a second time, the RIL extension is asked for only where there is one, and
    the shim refuses no reference location. -/
def WrapsOnce (v : Vendor) (s : State) : Action → Prop
  | .openGps lib sym result gps =>
    lib = true → sym = true → 0 ≤ result → s.getGpsInterface gps ≠ .shim
  | .getGpsInterface _ => s.getExtension ≠ .shim
  | .getExtension name =>
    name = AGPS_RIL_INTERFACE → v.supports name = true ∧ s.setRefLocation ≠ .shim
  | .setRefLocation sz => sz.toNat ≤ AGpsRefLocationSamsung.size

/-- The invariant: what the framework has been given is wrapped, around the vendor's function. -/
structure Wrapped (v : Vendor) (s : State) : Prop where
  transparent : Transparent v s
  device : ∀ gps ∈ s.opened,
    s.getGpsInterface gps = .shim ∧ s.vendorGetGpsInterface = some .vendor
  interface : s.hasInterface = true →
    s.getExtension = .shim ∧ s.vendorGetExtension = some .vendor
  ril : s.hasRil = true → s.setRefLocation = .shim ∧ s.vendorSetRefLocation = some .vendor

theorem wrapped_init (v : Vendor) : Wrapped v {} where
  transparent := ⟨by simp, by simp, by simp, by simp⟩
  device := by simp
  interface := by simp
  ril := by simp

/-! ### One lemma for each call through a wrapped pointer -/

@[simp] theorem callGetGpsInterface_vendor (frames : Nat) (s : State) :
    callGetGpsInterface frames .vendor s = (.returned .gpsInterface, [.getGpsInterface], s) := by
  cases frames <;> rfl

@[simp] theorem callGetExtension_vendor (v : Vendor) (frames : Nat) (name : String) (s : State) :
    callGetExtension v frames .vendor name s =
      (.returned (v.result (.getExtension name)), [.getExtension name], s) := by
  cases frames <;> rfl

@[simp] theorem callSetRefLocation_vendor (frames : Nat) (sz : BitVec 32) (s : State) :
    callSetRefLocation frames .vendor sz s = (.returned .void, [.setRefLocation], s) := by
  cases frames <;> rfl

theorem callGetGpsInterface_wrapped {s : State} (frames : Nat)
    (h : s.vendorGetGpsInterface = some .vendor) :
    callGetGpsInterface (frames + 1) .shim s =
      (.returned .gpsInterface, [.getGpsInterface],
        { s with vendorGetExtension := some s.getExtension, getExtension := .shim }) := by
  simp only [callGetGpsInterface, h, callGetGpsInterface_vendor]

theorem callGetExtension_wrapped {v : Vendor} {s : State} (frames : Nat) {name : String}
    (h : s.vendorGetExtension = some .vendor) (hne : name ≠ AGPS_RIL_INTERFACE) :
    callGetExtension v (frames + 1) .shim name s =
      (.returned (v.result (.getExtension name)), [.getExtension name], s) := by
  simp only [callGetExtension, h, callGetExtension_vendor]
  rw [if_neg hne]

theorem callGetExtension_ril {v : Vendor} {s : State} (frames : Nat)
    (h : s.vendorGetExtension = some .vendor) (hsup : v.supports AGPS_RIL_INTERFACE = true) :
    callGetExtension v (frames + 1) .shim AGPS_RIL_INTERFACE s =
      (.returned (v.result (.getExtension AGPS_RIL_INTERFACE)),
        [.getExtension AGPS_RIL_INTERFACE],
        { s with vendorSetRefLocation := some s.setRefLocation, setRefLocation := .shim }) := by
  have hres : v.result (.getExtension AGPS_RIL_INTERFACE) ≠ .extension none := by
    simp [Vendor.result, hsup]
  simp only [callGetExtension, h, callGetExtension_vendor]
  rw [if_pos trivial, if_neg hres]

/-- The vendor does not support the RIL extension, and the shim writes through the NULL it got. -/
theorem callGetExtension_null {v : Vendor} {s : State} (frames : Nat)
    (h : s.vendorGetExtension = some .vendor) (hsup : v.supports AGPS_RIL_INTERFACE = false) :
    callGetExtension v (frames + 1) .shim AGPS_RIL_INTERFACE s =
      (.nullDereference, [.getExtension AGPS_RIL_INTERFACE], s) := by
  have hres : v.result (.getExtension AGPS_RIL_INTERFACE) = .extension none := by
    simp [Vendor.result, hsup]
  simp only [callGetExtension, h, callGetExtension_vendor]
  rw [if_pos trivial, if_pos hres]

theorem callSetRefLocation_wrapped {s : State} (frames : Nat) {sz : BitVec 32}
    (h : s.vendorSetRefLocation = some .vendor) (hsz : sz.toNat ≤ AGpsRefLocationSamsung.size) :
    callSetRefLocation (frames + 1) .shim sz s = (.returned .void, [.setRefLocation], s) := by
  have hnot : ¬ BitVec.ofNat 32 AGpsRefLocationSamsung.size < sz := by
    rw [show AGpsRefLocationSamsung.size = 20 by decide] at hsz ⊢
    rw [BitVec.lt_def]
    show ¬ 20 < sz.toNat
    omega
  simp only [callSetRefLocation, h, callSetRefLocation_vendor]
  rw [if_neg hnot]

/-- The shim refuses a larger struct and does not call the vendor. -/
theorem callSetRefLocation_refused {s : State} (frames : Nat) {sz : BitVec 32}
    (hsz : AGpsRefLocationSamsung.size < sz.toNat) :
    callSetRefLocation (frames + 1) .shim sz s = (.returned .void, [], s) := by
  have hlt : BitVec.ofNat 32 AGpsRefLocationSamsung.size < sz := by
    rw [show AGpsRefLocationSamsung.size = 20 by decide] at hsz ⊢
    rw [BitVec.lt_def]
    exact hsz
  rw [callSetRefLocation, if_pos hlt]

/-- **Wrapped twice, the shim calls itself** until the stack ends, however large that is. -/
theorem callGetExtension_overflow (v : Vendor) (name : String) {s : State}
    (h : s.vendorGetExtension = some .shim) :
    ∀ frames, callGetExtension v frames .shim name s = (.stackOverflow, [], s)
  | 0 => rfl
  | frames + 1 => by
    simp only [callGetExtension, h]
    rw [callGetExtension_overflow v name h frames]

/-! ### Steps -/

/-- A call that reached the vendor once and returned its value keeps the record clean. -/
theorem calls_finish {v : Vendor} {s : State} (entry : Entry)
    (h : ∀ c ∈ s.calls, c.reached = [c.entry] ∧ c.outcome = .returned (v.result c.entry)) :
    ∀ c ∈ s.calls ++ [⟨entry, [entry], .returned (v.result entry)⟩],
      c.reached = [c.entry] ∧ c.outcome = .returned (v.result c.entry) := by
  intro c hc
  rcases List.mem_append.mp hc with hc | hc
  · exact h c hc
  · rw [List.mem_singleton.mp hc]
    exact ⟨rfl, rfl⟩

/-- What is found in an object that is not wrapped is the vendor's. -/
theorem vendor_of_ne {f : Fn} (h : f ≠ .shim) : f = .vendor := by
  cases f with
  | vendor => rfl
  | shim => exact absurd rfl h

theorem wrapped_openGps {v : Vendor} {s : State} (hi : Wrapped v s) (lib sym : Bool) (result : Int)
    (gps : Nat) (hok : WrapsOnce v s (.openGps lib sym result gps)) :
    Wrapped v (openGps lib sym result gps s).2 := by
  unfold openGps
  by_cases hlib : lib = false
  · rw [if_pos hlib]
    exact hi
  rw [if_neg hlib]
  by_cases hsym : sym = false
  · rw [if_pos hsym]
    exact hi
  rw [if_neg hsym]
  by_cases hres : result < 0
  · rw [if_pos hres]
    exact hi
  rw [if_neg hres]
  have hptr : s.getGpsInterface gps = .vendor :=
    vendor_of_ne (hok (by simpa using hlib) (by simpa using hsym) (by omega))
  obtain ⟨⟨_, hext, hloc, hcalls⟩, hdev, hint, hril⟩ := hi
  constructor
  case transparent => exact ⟨by simp [hptr], hext, hloc, hcalls⟩
  case device =>
    intro gps' hmem
    simp only [hptr, and_true]
    by_cases heq : gps' = gps
    · subst heq
      exact Function.update_self ..
    · rw [Function.update_of_ne heq]
      rcases List.mem_cons.mp hmem with hmem | hmem
      · exact absurd hmem heq
      · exact (hdev gps' hmem).1
  case interface => exact hint
  case ril => exact hril

theorem wrapped_getGpsInterface {v : Vendor} {s : State} (hi : Wrapped v s) (frames gps : Nat)
    (hmem : gps ∈ s.opened) (hok : WrapsOnce v s (.getGpsInterface gps)) :
    Wrapped v (finish .getGpsInterface
      (callGetGpsInterface (frames + 1) (s.getGpsInterface gps) s)) := by
  obtain ⟨hptr, hsaved⟩ := hi.device gps hmem
  have hvendor : s.getExtension = .vendor := vendor_of_ne hok
  rw [hptr, callGetGpsInterface_wrapped frames hsaved]
  constructor
  case transparent =>
    refine ⟨hi.transparent.getGpsInterface, ?_, hi.transparent.setRefLocation, ?_⟩
    · simp [finish, hvendor]
    · exact calls_finish .getGpsInterface hi.transparent.calls
  case device => exact hi.device
  case interface =>
    intro _
    exact ⟨rfl, by simp [finish, hvendor]⟩
  case ril =>
    intro hril
    exact hi.ril (by simpa [finish] using hril)

theorem wrapped_getExtension {v : Vendor} {s : State} (hi : Wrapped v s) (frames : Nat)
    (name : String) (hint : s.hasInterface = true) (hok : WrapsOnce v s (.getExtension name)) :
    Wrapped v (finish (.getExtension name)
      (callGetExtension v (frames + 1) s.getExtension name s)) := by
  obtain ⟨hptr, hsaved⟩ := hi.interface hint
  rw [hptr]
  by_cases hname : name = AGPS_RIL_INTERFACE
  · obtain ⟨hsup, hloc⟩ := hok hname
    subst hname
    have hvendor : s.setRefLocation = .vendor := vendor_of_ne hloc
    rw [callGetExtension_ril frames hsaved hsup]
    constructor
    case transparent =>
      refine ⟨hi.transparent.getGpsInterface, hi.transparent.getExtension, ?_, ?_⟩
      · simp [finish, hvendor]
      · exact calls_finish _ hi.transparent.calls
    case device => exact hi.device
    case interface =>
      intro _
      exact hi.interface hint
    case ril =>
      intro _
      exact ⟨rfl, by simp [finish, hvendor]⟩
  · rw [callGetExtension_wrapped frames hsaved hname]
    constructor
    case transparent =>
      refine ⟨hi.transparent.getGpsInterface, hi.transparent.getExtension,
        hi.transparent.setRefLocation, ?_⟩
      exact calls_finish _ hi.transparent.calls
    case device => exact hi.device
    case interface =>
      intro _
      exact hi.interface hint
    case ril =>
      intro hril
      refine hi.ril ?_
      -- another extension is not the RIL interface
      have hother : Outcome.returned (v.result (.getExtension name)) ≠
          .returned (.extension (some AGPS_RIL_INTERFACE)) := by
        by_cases hsup : v.supports name = true <;> simp [Vendor.result, hsup, hname]
      simpa [finish, hother] using hril

theorem wrapped_setRefLocation {v : Vendor} {s : State} (hi : Wrapped v s) (frames : Nat)
    (sz : BitVec 32) (hril : s.hasRil = true) (hok : WrapsOnce v s (.setRefLocation sz)) :
    Wrapped v (finish .setRefLocation
      (callSetRefLocation (frames + 1) s.setRefLocation sz s)) := by
  obtain ⟨hptr, hsaved⟩ := hi.ril hril
  rw [hptr, callSetRefLocation_wrapped frames hsaved hok]
  constructor
  case transparent =>
    refine ⟨hi.transparent.getGpsInterface, hi.transparent.getExtension,
      hi.transparent.setRefLocation, ?_⟩
    exact calls_finish .setRefLocation hi.transparent.calls
  case device => exact hi.device
  case interface =>
    intro hint
    exact hi.interface (by simpa [finish] using hint)
  case ril =>
    intro _
    exact hi.ril hril

theorem wrapped_step {v : Vendor} {frames : Nat} {s s' : State} {a : Action} (hi : Wrapped v s)
    (hok : WrapsOnce v s a) (h : step v frames s a = some s') : Wrapped v s' := by
  unfold step at h
  by_cases hdead : s.dead = true
  · rw [if_pos hdead] at h
    exact absurd h (by simp)
  rw [if_neg hdead] at h
  cases a with
  | openGps lib sym result gps =>
    cases h
    exact wrapped_openGps hi lib sym result gps hok
  | getGpsInterface gps =>
    simp only [Option.ite_none_right_eq_some, Option.some.injEq] at h
    obtain ⟨hmem, rfl⟩ := h
    exact wrapped_getGpsInterface hi frames gps hmem hok
  | getExtension name =>
    simp only [Option.ite_none_right_eq_some, Option.some.injEq] at h
    obtain ⟨hint, rfl⟩ := h
    exact wrapped_getExtension hi frames name hint hok
  | setRefLocation sz =>
    simp only [Option.ite_none_right_eq_some, Option.some.injEq] at h
    obtain ⟨hril, rfl⟩ := h
    exact wrapped_setRefLocation hi frames sz hril hok

/-- Breaking the rule breaks transparency in the very next state. -/
theorem not_transparent_after {v : Vendor} {frames : Nat} {s s' : State} {a : Action}
    (hi : Wrapped v s) (hbad : ¬ WrapsOnce v s a) (h : step v frames s a = some s') :
    ¬ Transparent v s' := by
  unfold step at h
  by_cases hdead : s.dead = true
  · rw [if_pos hdead] at h
    exact absurd h (by simp)
  rw [if_neg hdead] at h
  intro ht
  cases a with
  | openGps lib sym result gps =>
    simp only [WrapsOnce, not_forall, not_not] at hbad
    obtain ⟨hlib, hsym, hres, hptr⟩ := hbad
    cases h
    refine ht.getGpsInterface ?_
    simp [openGps, hlib, hsym, Int.not_lt.mpr hres, hptr]
  | getGpsInterface gps =>
    simp only [WrapsOnce, not_not] at hbad
    simp only [Option.ite_none_right_eq_some, Option.some.injEq] at h
    obtain ⟨hmem, rfl⟩ := h
    obtain ⟨hptr, hsaved⟩ := hi.device gps hmem
    refine ht.getExtension ?_
    rw [hptr, callGetGpsInterface_wrapped frames hsaved]
    simp [finish, hbad]
  | getExtension name =>
    simp only [WrapsOnce, not_forall, not_and_or, not_not] at hbad
    obtain ⟨rfl, hbad⟩ := hbad
    simp only [Option.ite_none_right_eq_some, Option.some.injEq] at h
    obtain ⟨hint, rfl⟩ := h
    obtain ⟨hptr, hsaved⟩ := hi.interface hint
    by_cases hsup : v.supports AGPS_RIL_INTERFACE = true
    · refine ht.setRefLocation ?_
      rw [hptr, callGetExtension_ril frames hsaved hsup]
      simpa [finish, hsup] using hbad
    · have hret := (ht.calls ⟨_, _, .nullDereference⟩ (by
        rw [hptr, callGetExtension_null frames hsaved (by simpa using hsup)]
        exact List.mem_append_right _ List.mem_cons_self)).2
      exact absurd hret (by simp)
  | setRefLocation sz =>
    simp only [WrapsOnce, Nat.not_le] at hbad
    simp only [Option.ite_none_right_eq_some, Option.some.injEq] at h
    obtain ⟨hril, rfl⟩ := h
    have honce := (ht.calls ⟨_, [], _⟩ (by
      rw [(hi.ril hril).1, callSetRefLocation_refused frames hbad]
      exact List.mem_append_right _ List.mem_cons_self)).1
    exact absurd honce (by simp)

/-- **The shim is transparent** in every run that wraps no object a second time. -/
theorem transparent (v : Vendor) (frames : Nat) (s : State)
    (hrun : Run (step v frames) (WrapsOnce v) {} s) : Transparent v s := by
  have hinv : Wrapped v s := by
    refine hrun.inv (wrapped_init v) ?_
    intro s a s' hi hok hs
    exact wrapped_step hi hok hs
  exact hinv.transparent

/-- A vendor with the RIL extension and no other. -/
def rilVendor : Vendor := ⟨fun name => name = AGPS_RIL_INTERFACE⟩

/-- One pass through all three levels, with an extension the vendor does not have on the way. -/
theorem transparent_one_pass :
    ∃ s, Run (step rilVendor 0) (WrapsOnce rilVendor) {} s ∧ Transparent rilVendor s ∧
      s.calls.length = 4 := by
  have hrun := run_of_exec (step rilVendor 0) (WrapsOnce rilVendor) {}
    [.openGps true true 0 0, .getGpsInterface 0, .getExtension "gps-xtra",
      .getExtension AGPS_RIL_INTERFACE, .setRefLocation 20]
    ⟨fun _ _ _ => by decide, show Fn.vendor ≠ .shim by decide, fun h => absurd h (by decide),
      fun _ => by decide, show (20 : BitVec 32).toNat ≤ AGpsRefLocationSamsung.size by decide,
      trivial⟩ rfl
  exact ⟨_, hrun, transparent rilVendor 0 _ hrun, rfl⟩

/-- The framework asks for the `GpsInterface` twice. -/
theorem wrapped_twice :
    ¬ ∀ (v : Vendor) (frames : Nat) (s : State), Reach (step v frames) {} s → Transparent v s := by
  intro hall
  have hreach := reach_of_exec (step rilVendor 0) {}
    [.openGps true true 0 0, .getGpsInterface 0, .getGpsInterface 0, .getExtension "gps-xtra"] rfl
  have hlast := (hall rilVendor 0 _ hreach).calls
    ⟨.getExtension "gps-xtra", [], .stackOverflow⟩ (by decide)
  exact absurd hlast.1 (by decide)

end Codina.Gps
