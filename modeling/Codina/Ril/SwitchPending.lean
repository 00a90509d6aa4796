/-
  The network-type switch: where a switch and a Message are at any time.

  `pending s h` counts the pending steps of handler `h`: its receiver is registered, a request it
  sent is outstanding, or its Message is queued by its looper.  `away s m` counts the places a
  caller's Message has gone to: attached to an outstanding request, or sent to its target.  `Change`
  says what a step does to these two counts and to the handlers' response slots, and the invariants
  of the switch are proved by cases on it.

  `Once` holds in every reachable state, whatever the order of the steps: no Message is ever in two
  places, so no caller is answered twice.
-/
import Codina.Ril.SwitchSteps

namespace Codina.Ril

open Codina.Runs

/-! ## Pending steps of a handler -/

/-- The request was sent by the receiver of handler `h`. -/
def isFor (h : HandlerId) (rr : RILRequest Target) : Bool :=
  match rr.mResult with
  | some (.handler h' _) => h' == h
  | _ => false

/-- The number of pending steps of handler `h`. -/
def pending (s : State) (h : HandlerId) : Nat :=
  (if (s.handlers h).isRegistered then 1 else 0) + s.mRequestList.countP (isFor h) +
    s.queue.countP fun e => e.1 == h

/-- The switch of handler `h` is still under way. -/
def UnderWay (s : State) (h : HandlerId) : Prop :=
  (s.handlers h).isRegistered = true ∨
    (∃ rr ∈ s.mRequestList, ∃ c, rr.mResult = some (.handler h c)) ∨ ∃ c, (h, c) ∈ s.queue

theorem isFor_iff {h : HandlerId} {rr : RILRequest Target} :
    isFor h rr = true ↔ ∃ c, rr.mResult = some (.handler h c) := by
  unfold isFor
  split
  · rename_i h' c he
    rw [he]
    constructor
    · intro hh
      exact ⟨c, by rw [beq_iff_eq.mp hh]⟩
    · rintro ⟨c', hc⟩
      cases hc
      exact beq_self_eq_true h
  · rename_i hne
    constructor
    · intro hf
      exact absurd hf (by simp)
    · rintro ⟨c, hc⟩
      exact absurd hc (hne h c)

theorem underWay_iff {s : State} {h : HandlerId} : UnderWay s h ↔ 0 < pending s h := by
  have hlist : (∃ rr ∈ s.mRequestList, ∃ c, rr.mResult = some (.handler h c)) ↔
      0 < s.mRequestList.countP (isFor h) := by
    simp only [List.countP_pos_iff, isFor_iff]
  have hqueue : (∃ c, (h, c) ∈ s.queue) ↔ 0 < s.queue.countP fun e => e.1 == h := by
    rw [List.countP_pos_iff]
    constructor
    · rintro ⟨c, hc⟩
      exact ⟨(h, c), hc, by simp⟩
    · rintro ⟨⟨h', c⟩, hc, he⟩
      obtain rfl : h' = h := by simpa using he
      exact ⟨c, hc⟩
  unfold UnderWay pending
  rw [hlist, hqueue]
  by_cases hr : (s.handlers h).isRegistered = true
  · simp only [hr, if_true, true_or, true_iff]
    omega
  · simp only [hr, Bool.false_eq_true, if_false, false_or]
    omega

/-! ## Where a Message is -/

/-- How often the Message has been sent to its target. -/
def sent (s : State) (m : Message) : Nat := s.completed.countP fun e => e.1 == m

/-- How many outstanding requests the Message is attached to. -/
def attached (s : State) (m : Message) : Nat :=
  s.mRequestList.countP fun rr => rr.mResult == some (.caller m)

/-- How many places the Message has gone to. -/
def away (s : State) (m : Message) : Nat := sent s m + attached s m

/-- A non-null Message some call passed. -/
def Passed (s : State) (m : Message) : Prop := ∃ c ∈ s.calls, c.response = some m

/-- The Message a handler owes its caller. -/
def slot (s : State) (h : HandlerId) : Option Message := (s.handlers h).mNetworktypeResponse

theorem newMessage_eq {s : State} {r : Bool} {m : Nat} (h : newMessage s r = some m) :
    m = s.calls.length := by
  cases r with
  | false => exact absurd h (by simp [newMessage])
  | true => simpa [newMessage, eq_comm] using h

/-! ## What a step changes -/

/-- What a step does to pending steps, slots and Messages. -/
inductive Change (s : State) : Action → State → Prop
  /-- At most a switch moves on by one stage, or a Message from its request to its target. -/
  | moved (a : Action) (s' : State) : (∀ t r, a ≠ .setPreferredNetworkType t r) →
      (∀ h, pending s' h = pending s h) → (∀ h, slot s' h = slot s h) →
      (∀ m : Nat, away s' m = away s m) → s'.calls = s.calls → s'.crashed = s.crashed →
      (s'.lastDataSwitch = s.lastDataSwitch ∨ s'.lastDataSwitch = none) →
      (∀ h c, a ≠ .handleMessage h c) → Change s a s'
  /-- A direct call attaches its Message to a request. -/
  | direct (t : Int) (r : Bool) (s' : State) : needReconnect s.platform = false →
      (∀ h, pending s' h = pending s h) → (∀ h, slot s' h = slot s h) →
      (∀ m : Nat, away s' m = away s m + if newMessage s r = some m then 1 else 0) →
      s'.calls = (recordCall s t r).calls → s'.crashed = s.crashed →
      s'.lastDataSwitch = s.lastDataSwitch → Change s (.setPreferredNetworkType t r) s'
  /-- A call for a type that looks unchanged forgets its Message. -/
  | unchanged (t : Int) (r : Bool) (s' : State) : needReconnect s.platform = true →
      hasNetworkTypeChanged t s.platform.networkClass = false →
      (∀ h, pending s' h = pending s h) → (∀ h, slot s' h = slot s h) →
      (∀ m : Nat, away s' m = away s m) → s'.calls = (recordCall s t r).calls →
      s'.crashed = s.crashed → s'.lastDataSwitch = s.lastDataSwitch →
      Change s (.setPreferredNetworkType t r) s'
  /-- A deferred call makes the current handler listen and puts its Message into the slot. -/
  | opened (t : Int) (r : Bool) (s' : State) : needReconnect s.platform = true →
      hasNetworkTypeChanged t s.platform.networkClass = true →
      (s'.handlers (currentHandler s)).isRegistered = true →
      pending s' (currentHandler s) = pending s (currentHandler s) +
        (if (s.handlers (currentHandler s)).isRegistered then 0 else 1) →
      (∀ h, h ≠ currentHandler s → pending s' h = pending s h) →
      slot s' (currentHandler s) = newMessage s r →
      (∀ h, h ≠ currentHandler s → slot s' h = slot s h) → (∀ m : Nat, away s' m = away s m) →
      s'.calls = (recordCall s t r).calls → s'.crashed = s.crashed →
      s'.lastDataSwitch = lastSwitch (currentHandler s) false s →
      Change s (.setPreferredNetworkType t r) s'
  /-- A handler that is done sends the Message in its slot. -/
  | closed (h : HandlerId) (c m₀ : Nat) (s' : State) : slot s h = some m₀ →
      pending s h = pending s' h + 1 → (∀ h', h' ≠ h → pending s' h' = pending s h') →
      slot s' h = none → (∀ h', h' ≠ h → slot s' h' = slot s h') →
      (∀ m : Nat, away s' m = away s m + if m₀ = m then 1 else 0) → s'.calls = s.calls →
      s'.crashed = s.crashed → s'.lastDataSwitch = lastSwitch h true s →
      Change s (.handleMessage h c) s'
  /-- A handler that is done finds no Message in its slot. -/
  | crashed (h : HandlerId) (c : Nat) (s' : State) : slot s h = none →
      pending s h = pending s' h + 1 → (∀ h', h' ≠ h → pending s' h' = pending s h') →
      (∀ h', slot s' h' = slot s h') → (∀ m : Nat, away s' m = away s m) → s'.calls = s.calls →
      s'.crashed = true → s'.lastDataSwitch = lastSwitch h true s → Change s (.handleMessage h c) s'

/-- Delivering a queued Message takes one pending step from its handler and from no other. -/
theorem countP_queue_erase {queue : List (HandlerId × Nat)} {h : HandlerId} {c : Nat}
    (hq : (h, c) ∈ queue) (h' : HandlerId) :
    queue.countP (fun e => e.1 == h') =
      (queue.erase (h, c)).countP (fun e => e.1 == h') + if h = h' then 1 else 0 := by
  rw [(List.perm_cons_erase hq).countP_eq, List.countP_cons]
  simp

/-- Counting before and after one entry is taken out of the middle. -/
theorem countP_middle {β : Type} (f : β → Bool) (pre post : List β) (b : β) :
    (pre ++ b :: post).countP f = (pre ++ post).countP f + if f b then 1 else 0 := by
  simp only [List.countP_append, List.countP_cons]
  omega

theorem countP_concat {β : Type} (f : β → Bool) (l : List β) (b : β) :
    (l ++ [b]).countP f = l.countP f + if f b then 1 else 0 := by
  rw [List.countP_append, List.countP_singleton]

theorem change {s s' : State} {a : Action} (he : Effect s a s') : Change s a s' := by
  cases he with
  | direct t r hnr =>
    refine .direct t r _ hnr (fun h => ?_) (fun _ => rfl) (fun m => ?_) rfl rfl rfl
    · have hnot : isFor h (newRequest s t ((newMessage s r).map .caller)) = false := by
        cases r <;> rfl
      show _ + (s.mRequestList ++ [_]).countP (isFor h) + _ = _
      rw [countP_concat, hnot]
      rfl
    · show sent s m + (s.mRequestList ++ [_]).countP _ = _
      rw [countP_concat, away, attached]
      cases hm : newMessage s r <;> simp [newRequest, Nat.add_assoc]
  | unchanged t r hnr hch =>
    exact .unchanged t r _ hnr hch (fun _ => rfl) (fun _ => rfl) (fun _ => rfl) rfl rfl rfl
  | deferred t r hnr hch =>
    refine .opened t r _ hnr hch (by simp) ?_ (fun h hne => ?_) (by simp [slot])
      (fun h hne => by simp [slot, hne]) (fun _ => rfl) rfl rfl rfl
    · simp only [pending, recordCall, Function.update_self, if_true]
      by_cases hr : (s.handlers (currentHandler s)).isRegistered = true
      · simp [hr]
      · simp only [hr, if_false, Bool.false_eq_true]
        omega
    · simp [pending, recordCall, Function.update_of_ne hne]
  | platform p =>
    refine .moved _ _ (fun _ _ => by simp) (fun _ => rfl) (fun _ => rfl) (fun _ => rfl) rfl rfl ?_
      (fun _ _ => by simp)
    simp only [changePlatform]
    split
    · exact Or.inl rfl
    · exact Or.inr rfl
  | received h hr hb =>
    refine .moved _ _ (fun _ _ => by simp) (fun h' => ?_) (fun h' => ?_) (fun m => ?_) rfl rfl (Or.inl rfl)
      (fun _ _ => by simp)
    · have hfor : isFor h' (heldRequest s h) = (h == h') := rfl
      by_cases hne : h' = h
      · subst hne
        simp only [pending, Function.update_self, countP_concat, hfor, hr, if_true,
          beq_self_eq_true, Bool.false_eq_true, if_false]
        omega
      · have hne' : (h == h') = false := by simpa using Ne.symm hne
        simp [pending, Function.update_of_ne hne, hfor, hne']
    · exact update_field ConnectivityHandler.mNetworktypeResponse s.handlers h _ (by rfl) h'
    · show sent s m + (s.mRequestList ++ [_]).countP _ = _
      rw [countP_concat, away, attached]
      simp [heldRequest, newRequest]
  | answeredNobody p pre post rr hl _ hm =>
    refine .moved _ _ (fun _ _ => by simp) (fun h => ?_) (fun _ => rfl) (fun m => ?_) rfl rfl (Or.inl rfl)
      (fun _ _ => by simp)
    · simp [pending, hl, isFor, hm]
    · simp [away, sent, attached, hl, hm]
  | answeredCaller p pre post rr m₀ _ hl _ hm _ =>
    refine .moved _ _ (fun _ _ => by simp) (fun h => ?_) (fun _ => rfl) (fun m => ?_) rfl rfl (Or.inl rfl)
      (fun _ _ => by simp)
    · simp [pending, hl, isFor, hm]
    · simp only [away, sent, attached, hl, countP_middle, List.append_nil, hm]
      simp
      omega
  | answeredHandler p pre post rr h c hl _ hm =>
    refine .moved _ _ (fun _ _ => by simp) (fun h' => ?_) (fun _ => rfl) (fun m => ?_) rfl rfl (Or.inl rfl)
      (fun _ _ => by simp)
    · have hfor : isFor h' rr = (h == h') := by simp [isFor, hm]
      simp only [pending, hl, countP_middle, List.append_nil, hfor]
      omega
    · simp [away, sent, attached, hl, hm]
  | handled h c m₀ hq hm =>
    refine .closed h c m₀ _ hm ?_ (fun h' hne => ?_) (by simp [slot])
      (fun h' hne => by simp [slot, hne]) (fun m => ?_) rfl rfl rfl
    · simp only [pending, update_response, countP_queue_erase hq h, if_true]
      omega
    · simp only [pending, update_response, countP_queue_erase hq h', if_neg (Ne.symm hne)]
      omega
    · simp only [away, sent, attached, countP_concat]
      simp
      omega
  | crashed h c hq hm =>
    refine .crashed h c _ hm ?_ (fun h' hne => ?_) (fun _ => rfl) (fun _ => rfl) rfl rfl rfl
    · simp only [pending, countP_queue_erase hq h, if_true]
      omega
    · simp only [pending, countP_queue_erase hq h', if_neg (Ne.symm hne)]
      omega
  | connectivityAction | onLost | ignored | unexpected =>
    exact .moved _ _ (fun _ _ => by simp) (fun _ => rfl) (fun _ => rfl) (fun _ => rfl) rfl rfl (Or.inl rfl)
      (fun _ _ => by simp)

theorem passed_congr {s s' : State} (hc : s'.calls = s.calls) {m : Message} :
    Passed s' m ↔ Passed s m := by
  unfold Passed
  rw [hc]

/-- A Message passed once a call is recorded is an old one or that call's. -/
theorem passed_recordCall {s s' : State} {t : Int} {r : Bool}
    (hc : s'.calls = (recordCall s t r).calls) {m : Message} :
    Passed s' m ↔ Passed s m ∨ newMessage s r = some m := by
  unfold Passed
  rw [hc]
  constructor
  · rintro ⟨c, hmem, hr⟩
    rcases List.mem_append.mp hmem with hmem | hmem
    · exact Or.inl ⟨c, hmem, hr⟩
    · rw [List.mem_singleton.mp hmem] at hr
      exact Or.inr hr
  · rintro (⟨c, hmem, hr⟩ | hnew)
    · exact ⟨c, List.mem_append_left _ hmem, hr⟩
    · exact ⟨_, List.mem_append_right _ (List.mem_singleton.mpr rfl), hnew⟩

/-! ## Handlers that exist -/

/-- Handlers are numbered from 0 on, and one that does not exist yet does nothing. -/
structure Created (s : State) : Prop where
  current : ∀ h : Nat, s.mSamsungu8500RILHandler = some h → h < s.numHandlers
  underWay : ∀ h : Nat, 0 < pending s h → h < s.numHandlers

theorem created_init (networkMode : Int) (p : Platform) : Created (State.init networkMode p) where
  current := by simp [State.init]
  underWay := by simp [State.init, pending]

theorem currentHandler_lt {s : State} (hi : Created s) : currentHandler s < createdHandlers s := by
  unfold currentHandler createdHandlers
  cases hc : s.mSamsungu8500RILHandler with
  | none => simp
  | some h => simpa using hi.current h hc

theorem pending_pos_after {s s' : State} {a : Action} (hch : Change s a s') {h : HandlerId}
    (hp : 0 < pending s' h) :
    0 < pending s h ∨ (h = currentHandler s ∧ ∃ t r, a = .setPreferredNetworkType t r ∧
      needReconnect s.platform = true) := by
  cases hch with
  | moved _ _ _ hpend => exact Or.inl (hpend h ▸ hp)
  | direct _ _ _ _ hpend => exact Or.inl (hpend h ▸ hp)
  | unchanged _ _ _ _ _ hpend => exact Or.inl (hpend h ▸ hp)
  | opened t r _ hnr _ _ _ hpend =>
    by_cases hh : h = currentHandler s
    · exact Or.inr ⟨hh, t, r, rfl, hnr⟩
    · exact Or.inl (hpend h hh ▸ hp)
  | closed h₀ _ _ _ _ hself hpend =>
    by_cases hh : h = h₀
    · subst hh
      exact Or.inl (by omega)
    · exact Or.inl (hpend h hh ▸ hp)
  | crashed h₀ _ _ _ hself hpend =>
    by_cases hh : h = h₀
    · subst hh
      exact Or.inl (by omega)
    · exact Or.inl (hpend h hh ▸ hp)

/-- The handlers after a step: a call that has to wait makes sure there is one. -/
theorem handlers_after {s s' : State} {a : Action} (he : Effect s a s') :
    (s'.numHandlers = s.numHandlers ∧ (s'.mSamsungu8500RILHandler = s.mSamsungu8500RILHandler ∨
      s'.mSamsungu8500RILHandler = none) ∧ ∀ t r, a = .setPreferredNetworkType t r →
        needReconnect s.platform = false) ∨
    (s'.numHandlers = createdHandlers s ∧
      s'.mSamsungu8500RILHandler = some (currentHandler s)) := by
  cases he with
  | direct t r hnr =>
    exact Or.inl ⟨rfl, Or.inr rfl, fun _ _ _ => hnr⟩
  | unchanged t r _ _ => exact Or.inr ⟨rfl, rfl⟩
  | deferred t r _ _ => exact Or.inr ⟨rfl, rfl⟩
  | platform | connectivityAction | onLost | ignored | received | unexpected | answeredNobody
  | answeredCaller | answeredHandler | handled | crashed =>
    exact Or.inl ⟨rfl, Or.inl rfl, fun _ _ h => by cases h⟩

theorem numHandlers_le (s : State) : s.numHandlers ≤ createdHandlers s := by
  unfold createdHandlers
  split <;> omega

theorem created_step {s s' : State} {a : Action} (hi : Created s) (he : Effect s a s') :
    Created s' := by
  rcases handlers_after he with ⟨hn, hcur, hnot⟩ | ⟨hn, hcur⟩
  · constructor
    case current =>
      intro h hh
      rcases hcur with hc | hc
      · exact hn ▸ hi.current h (hc ▸ hh)
      · exact absurd hh (by simp [hc])
    case underWay =>
      intro h hp
      rcases pending_pos_after (change he) hp with hp | ⟨_, t, r, ha, hnr⟩
      · exact hn ▸ hi.underWay h hp
      · exact absurd hnr (by simp [hnot t r ha])
  · have hlt := currentHandler_lt hi
    constructor
    case current =>
      intro h hh
      obtain rfl : currentHandler s = h := by simpa [hcur] using hh
      exact hn ▸ hlt
    case underWay =>
      intro h hp
      rcases pending_pos_after (change he) hp with hp | ⟨hh, _⟩
      · exact hn ▸ Nat.lt_of_lt_of_le (hi.underWay h hp) (numHandlers_le s)
      · exact hn ▸ hh ▸ hlt

/-! ## Nobody is answered twice -/

/-- No Message is in two places: on its way out, or in one slot, or nowhere yet. -/
structure Once (s : State) : Prop where
  passed_lt : ∀ m : Nat, Passed s m → m < s.calls.length
  fresh : ∀ m : Nat, s.calls.length ≤ m → away s m = 0
  slot_passed : ∀ h m, slot s h = some m → Passed s m
  once : ∀ m : Nat, away s m ≤ 1
  kept : ∀ h (m : Nat), slot s h = some m → away s m = 0
  slot_inj : ∀ h h' (m : Nat), slot s h = some m → slot s h' = some m → h = h'

theorem Once.slot_lt {s : State} (hi : Once s) {h : HandlerId} {m : Nat} (hm : slot s h = some m) :
    m < s.calls.length :=
  hi.passed_lt m (hi.slot_passed h m hm)

/-- Only Messages of calls already made are on their way or completed. -/
theorem Once.away_lt {s : State} (hi : Once s) {m : Nat} (hm : 0 < away s m) : m < s.calls.length := by
  by_contra hge
  have h0 := hi.fresh m (Nat.le_of_not_lt hge)
  omega

theorem once_init (networkMode : Int) (p : Platform) : Once (State.init networkMode p) where
  passed_lt := by simp [Passed, State.init]
  fresh := by simp [away, sent, attached, State.init]
  slot_passed := by simp [slot, State.init]
  once := by simp [away, sent, attached, State.init]
  kept := by simp [slot, State.init]
  slot_inj := by simp [slot, State.init]

/-- A step that only moves Messages on, and may record a call whose Message goes nowhere. -/
theorem once_same {s s' : State} (hi : Once s) (hslot : ∀ h, slot s' h = slot s h)
    (haway : ∀ m, away s' m = away s m) (hlen : s.calls.length ≤ s'.calls.length)
    (hpass : ∀ m : Nat, Passed s' m → m < s'.calls.length)
    (hkeep : ∀ m, Passed s m → Passed s' m) : Once s' where
  passed_lt := hpass
  fresh := by
    intro m hm
    rw [haway]
    exact hi.fresh m (Nat.le_trans hlen hm)
  slot_passed := by
    intro h m hm
    exact hkeep m (hi.slot_passed h m (hslot h ▸ hm))
  once := by
    intro m
    rw [haway]
    exact hi.once m
  kept := by
    intro h m hm
    rw [haway]
    exact hi.kept h m (hslot h ▸ hm)
  slot_inj := by
    intro h h' m hm hm'
    exact hi.slot_inj h h' m (hslot h ▸ hm) (hslot h' ▸ hm')

theorem once_same_calls {s s' : State} (hi : Once s) (hslot : ∀ h, slot s' h = slot s h)
    (haway : ∀ m, away s' m = away s m) (hc : s'.calls = s.calls) : Once s' := by
  refine once_same hi hslot haway (Nat.le_of_eq (by rw [hc])) (fun m hm => ?_) fun m hm => ?_
  · rw [hc]
    exact hi.passed_lt m ((passed_congr hc).mp hm)
  · exact (passed_congr hc).mpr hm

theorem passed_lt_recordCall {s s' : State} (hi : Once s) {t : Int} {r : Bool}
    (hc : s'.calls = (recordCall s t r).calls) :
    s'.calls.length = s.calls.length + 1 ∧ ∀ m : Nat, Passed s' m → m < s'.calls.length := by
  have hlen : s'.calls.length = s.calls.length + 1 := by simp [hc, recordCall]
  refine ⟨hlen, fun m hm => ?_⟩
  rcases (passed_recordCall hc).mp hm with hm | hm
  · have := hi.passed_lt m hm
    omega
  · rw [newMessage_eq hm]
    omega

/-- A Message of an earlier call is not the one that goes out. -/
theorem away_old {s s' : State} {r : Bool} {m : Nat}
    (haway : ∀ m : Nat, away s' m = away s m + if newMessage s r = some m then 1 else 0)
    (hm : m ≠ s.calls.length) : away s' m = away s m := by
  rw [haway m, if_neg (fun hnew => hm (newMessage_eq hnew)), Nat.add_zero]

/-- A direct call: its Message is attached to a request. -/
theorem once_direct {s s' : State} {t : Int} {r : Bool} (hi : Once s)
    (hslot : ∀ h, slot s' h = slot s h)
    (haway : ∀ m : Nat, away s' m = away s m + if newMessage s r = some m then 1 else 0)
    (hc : s'.calls = (recordCall s t r).calls) : Once s' := by
  obtain ⟨hlen, hpass⟩ := passed_lt_recordCall hi hc
  constructor
  case passed_lt => exact hpass
  case fresh =>
    intro m hm
    rw [away_old haway (by omega), hi.fresh m (by omega)]
  case slot_passed =>
    intro h m hm
    exact (passed_recordCall hc).mpr (Or.inl (hi.slot_passed h m (hslot h ▸ hm)))
  case once =>
    intro m
    rw [haway m]
    by_cases hnew : newMessage s r = some m
    · have h0 := hi.fresh m (Nat.le_of_eq (newMessage_eq hnew).symm)
      rw [if_pos hnew]
      omega
    · rw [if_neg hnew]
      exact hi.once m
  case kept =>
    intro h m hm
    have hm' := hslot h ▸ hm
    rw [away_old haway (Nat.ne_of_lt (hi.slot_lt hm'))]
    exact hi.kept h m hm'
  case slot_inj =>
    intro h h' m hm hm'
    exact hi.slot_inj h h' m (hslot h ▸ hm) (hslot h' ▸ hm')

/-- A deferred call: its Message takes the place of the one in the current handler's slot. -/
theorem once_opened {s s' : State} {t : Int} {r : Bool} (hi : Once s)
    (hnew : slot s' (currentHandler s) = newMessage s r)
    (hslot : ∀ h, h ≠ currentHandler s → slot s' h = slot s h)
    (haway : ∀ m : Nat, away s' m = away s m) (hc : s'.calls = (recordCall s t r).calls) :
    Once s' := by
  obtain ⟨hlen, hpass⟩ := passed_lt_recordCall hi hc
  -- a slot after the step holds the new Message, or what it held before
  have hcases : ∀ h (m : Nat), slot s' h = some m →
      (h = currentHandler s ∧ newMessage s r = some m) ∨
        (h ≠ currentHandler s ∧ slot s h = some m) := by
    intro h m hm
    by_cases hh : h = currentHandler s
    · subst hh
      exact Or.inl ⟨rfl, hnew ▸ hm⟩
    · exact Or.inr ⟨hh, hslot h hh ▸ hm⟩
  constructor
  case passed_lt => exact hpass
  case fresh =>
    intro m hm
    rw [haway]
    exact hi.fresh m (by omega)
  case slot_passed =>
    intro h m hm
    rcases hcases h m hm with ⟨_, hm⟩ | ⟨_, hm⟩
    · exact (passed_recordCall hc).mpr (Or.inr hm)
    · exact (passed_recordCall hc).mpr (Or.inl (hi.slot_passed h m hm))
  case once =>
    intro m
    rw [haway]
    exact hi.once m
  case kept =>
    intro h m hm
    rw [haway]
    rcases hcases h m hm with ⟨_, hm⟩ | ⟨_, hm⟩
    · exact hi.fresh m (Nat.le_of_eq (newMessage_eq hm).symm)
    · exact hi.kept h m hm
  case slot_inj =>
    intro h h' m hm hm'
    rcases hcases h m hm with ⟨hh, hm⟩ | ⟨_, hm⟩
    · rcases hcases h' m hm' with ⟨hh', _⟩ | ⟨_, hm'⟩
      · rw [hh, hh']
      · have := hi.slot_lt hm'
        have := newMessage_eq hm
        omega
    · rcases hcases h' m hm' with ⟨_, hm'⟩ | ⟨_, hm'⟩
      · have := hi.slot_lt hm
        have := newMessage_eq hm'
        omega
      · exact hi.slot_inj h h' m hm hm'

/-- A handler that is done: the Message leaves its slot. -/
theorem once_closed {s s' : State} {h₀ : HandlerId} {m₀ : Nat} (hi : Once s)
    (hm₀ : slot s h₀ = some m₀) (hnone : slot s' h₀ = none)
    (hslot : ∀ h, h ≠ h₀ → slot s' h = slot s h)
    (haway : ∀ m : Nat, away s' m = away s m + if m₀ = m then 1 else 0)
    (hc : s'.calls = s.calls) : Once s' := by
  have hold : ∀ h (m : Nat), slot s' h = some m → h ≠ h₀ ∧ slot s h = some m := by
    intro h m hm
    by_cases hh : h = h₀
    · subst hh
      exact absurd hm (by simp [hnone])
    · exact ⟨hh, hslot h hh ▸ hm⟩
  constructor
  case passed_lt =>
    intro m hm
    rw [hc]
    exact hi.passed_lt m ((passed_congr hc).mp hm)
  case fresh =>
    intro m hm
    rw [hc] at hm
    have hlt := hi.slot_lt hm₀
    rw [haway m, hi.fresh m hm, if_neg (by omega)]
  case slot_passed =>
    intro h m hm
    exact (passed_congr hc).mpr (hi.slot_passed h m (hold h m hm).2)
  case once =>
    intro m
    rw [haway m]
    by_cases heq : m₀ = m
    · subst heq
      have h0 := hi.kept h₀ m₀ hm₀
      rw [if_pos rfl]
      omega
    · rw [if_neg heq]
      exact hi.once m
  case kept =>
    intro h m hm
    obtain ⟨hne, hm⟩ := hold h m hm
    have hdiff : m₀ ≠ m := fun heq => hne (hi.slot_inj h h₀ m hm (heq ▸ hm₀))
    rw [haway m, if_neg hdiff, Nat.add_zero]
    exact hi.kept h m hm
  case slot_inj =>
    intro h h' m hm hm'
    exact hi.slot_inj h h' m (hold h m hm).2 (hold h' m hm').2

theorem once_step {s s' : State} {a : Action} (hi : Once s) (hch : Change s a s') : Once s' := by
  cases hch with
  | moved _ _ _ _ hslot haway hc _ _ => exact once_same_calls hi hslot haway hc
  | crashed h c _ _ _ _ hslot haway hc _ _ => exact once_same_calls hi hslot haway hc
  | unchanged t r _ _ _ _ hslot haway hc _ _ =>
    obtain ⟨hlen, hpass⟩ := passed_lt_recordCall hi hc
    exact once_same hi hslot haway (by omega) hpass fun m hm => (passed_recordCall hc).mpr (Or.inl hm)
  | direct t r _ _ _ hslot haway hc _ _ => exact once_direct hi hslot haway hc
  | opened t r _ _ _ _ _ _ hnew hslot haway hc _ _ => exact once_opened hi hnew hslot haway hc
  | closed h₀ c m₀ _ hm₀ _ _ hnone hslot haway hc _ _ =>
    exact once_closed hi hm₀ hnone hslot haway hc

section

variable {Obj Thr : Type} {decode : Decode Obj Thr} {ok : State → Action → Prop}
  {networkMode : Int} {p : Platform} {s : State}

theorem run_created (hrun : Run (step decode) ok (State.init networkMode p) s) : Created s := by
  refine hrun.inv (created_init networkMode p) ?_
  intro _ _ _ hi _ hs
  exact created_step hi (step_effect hs).2

/-- **Nobody is answered twice**, in any interleaving. -/
theorem run_once (hrun : Run (step decode) ok (State.init networkMode p) s) : Once s := by
  refine hrun.inv (once_init networkMode p) ?_
  intro _ _ _ hi _ hs
  exact once_step hi (change (step_effect hs).2)

end

end Codina.Ril
