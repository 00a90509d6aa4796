/-
  The network-type switch: is the answer a caller gets true?

  On the direct path the caller's Message is attached to the request, and `processSolicited` passes
  the modem's error on.  On the deferred path the request carries a Message of the handler, and
  `handleMessage` answers the caller with `AsyncResult.forMessage(mNetworktypeResponse, null, null)`
  without a look at what the modem said.  So a refused switch is reported as done
  (`refused_reported_done`), and so is one that has only just taken over a handler whose previous
  switch is completing.

  Where the modem refuses no deferred request that somebody waits for, and a call takes over a handler
  that still waits for a completion only for a type the modem has been asked for or has accepted,
  every answer is true (`replies_truthful`).  The invariant is `Paired`: whatever a handler still has
  to hear from the modem concerns the type of the call whose Message is in its slot.  Otherwise the
  completion, when it comes, misleads the caller (`completion_misleads`).
-/
import Codina.Ril.SwitchAnswers

namespace Codina.Ril

open Codina.Runs

/-! ## What a true answer is -/

/-- The modem has answered a request for type `t` with success. -/
def SuccessFor (s : State) (t : Int) : Prop := ∃ a ∈ s.answers, a.2 = 0 ∧ a.1.networkType = t

/-- The Message of the call a request serves. -/
def served (rr : RILRequest Target) : Option Message :=
  match rr.mResult with
  | some (.caller m) => some m
  | some (.handler _ m) => some m
  | none => none

/-- A Message completed without exception means that the modem accepted the type it was passed with;
    and once the modem has refused the request made for a Message, that Message is completed with an
    exception, or will be when the handler's Message has been delivered. -/
def RepliesTruthful (s : State) : Prop :=
  (∀ c ∈ s.calls, ∀ m, c.response = some m → (m, false) ∈ s.completed →
    SuccessFor s c.networkType) ∧
  ∀ a ∈ s.answers, a.2 ≠ 0 → ∀ m, served a.1 = some m → Passed s m →
    (m, false) ∉ s.completed ∧ ((m, true) ∈ s.completed ∨ ∃ h, (h, m) ∈ s.queue)

/-- The modem has accepted the type the Message was passed with. -/
def Told (s : State) (m : Message) : Prop :=
  ∀ c ∈ s.calls, c.response = some m → SuccessFor s c.networkType

/-- The modem refuses no request made by a handler for a Message, nor one whose completion will answer
    a Message whose type it has not accepted; and a call with a Message takes over a handler that
    still waits for a completion only if that completion will be about the same type, or the modem has
    accepted the type already. -/
def FaithfulHandlers (s : State) : Action → Prop
  | .setPreferredNetworkType t r => needReconnect s.platform = true →
      hasNetworkTypeChanged t s.platform.networkClass = true → r = true →
      ∀ h, s.mSamsungu8500RILHandler = some h →
        ((∃ c, (h, c) ∈ s.queue) ∨
          ∃ rr ∈ s.mRequestList, isFor h rr = true ∧ rr.networkType ≠ t) → SuccessFor s t
  | .processSolicited p => replyError p ≠ 0 → ∀ rr ∈ s.mRequestList, rr.mSerial = replySerial p →
      ∀ h c, rr.mResult = some (.handler h c) →
        ¬ Passed s c ∧ ∀ m, slot s h = some m → Told s m
  | _ => True

/-! ## The invariants -/

/-- The call a request serves has been made: what is known of it will not be said of a later one. -/
structure Numbered (s : State) : Prop where
  listening : ∀ h, (s.handlers h).isRegistered = true → (s.handlers h).served < s.calls.length
  request : ∀ rr ∈ s.mRequestList, ∀ m : Nat, served rr = some m → m < s.calls.length
  answer : ∀ a ∈ s.answers, ∀ m : Nat, served a.1 = some m → m < s.calls.length

/-- The Message was passed with type `t`. -/
def PassedWith (s : State) (m : Message) (t : Int) : Prop :=
  ∀ c ∈ s.calls, c.response = some m → c.networkType = t

/-- The invariant: what is still to come for a Message is about the type it was passed with. -/
structure Paired (s : State) : Prop where
  request : ∀ rr ∈ s.mRequestList, rr.mRequest = .setPreferredNetworkType
  direct : ∀ rr ∈ s.mRequestList, ∀ m : Nat, rr.mResult = some (.caller m) →
    PassedWith s m rr.networkType
  listening : ∀ h (m : Nat), slot s h = some m → (s.handlers h).isRegistered = true →
    PassedWith s m (s.handlers h).mDesiredNetworkType
  asked : ∀ rr ∈ s.mRequestList, ∀ h, isFor h rr = true → ∀ m : Nat, slot s h = some m →
    PassedWith s m rr.networkType ∨ Told s m
  told : ∀ h c, (h, c) ∈ s.queue → ∀ m : Nat, slot s h = some m → Told s m
  truthful : ∀ m : Nat, (m, false) ∈ s.completed → Told s m
  refused : ∀ a ∈ s.answers, a.2 ≠ 0 → ∀ m, served a.1 = some m → Passed s m →
    (m, true) ∈ s.completed

theorem numbered_init (networkMode : Int) (p : Platform) :
    Numbered (State.init networkMode p) where
  listening := by simp [State.init]
  request := by simp [State.init]
  answer := by simp [State.init]

/-- The answered request moves from one list to the other. -/
theorem numbered_answered {s s' : State} {rr : RILRequest Target} {error : Int} (hi : Numbered s)
    (hmem : rr ∈ s.mRequestList) (hreq : ∀ x ∈ s'.mRequestList, x ∈ s.mRequestList)
    (hhandlers : s'.handlers = s.handlers) (hcalls : s'.calls = s.calls)
    (hans : s'.answers = s.answers ++ [(rr, error)]) : Numbered s' where
  listening := hhandlers ▸ hcalls ▸ hi.listening
  request := fun x hx => hcalls ▸ hi.request x (hreq x hx)
  answer := by
    intro a ha m hm
    rw [hans] at ha
    rw [hcalls]
    rcases List.mem_append.mp ha with ha | ha
    · exact hi.answer a ha m hm
    · rw [List.mem_singleton.mp ha] at hm
      exact hi.request rr hmem m hm

/-- What is left when a request has been answered. -/
theorem mem_of_mem_rest {l pre post : List (RILRequest Target)} {rr x : RILRequest Target}
    (hl : l = pre ++ rr :: post) (hx : x ∈ pre ++ post) : x ∈ l := by
  rw [hl]
  exact List.mem_append.mpr ((List.mem_append.mp hx).imp id (List.mem_cons_of_mem _))

/-- The call recorded gets the next number, and what is new about the state is about that call. -/
theorem numbered_called {s s' : State} {t : Int} {r : Bool} (hi : Numbered s)
    (hc : s'.calls = (recordCall s t r).calls) (hans : s'.answers = s.answers)
    (hh : ∀ h, (s'.handlers h).isRegistered = true →
      s'.handlers h = s.handlers h ∨ (s'.handlers h).served = s.calls.length)
    (hreq : ∀ x ∈ s'.mRequestList, x ∈ s.mRequestList ∨
      ∀ m : Nat, served x = some m → m = s.calls.length) : Numbered s' := by
  have hlen : s'.calls.length = s.calls.length + 1 := by simp [hc, recordCall]
  constructor
  case listening =>
    intro h hr
    rcases hh h hr with he | hnew
    · rw [he] at hr ⊢
      have := hi.listening h hr
      omega
    · omega
  case request =>
    intro x hx m hm
    rcases hreq x hx with hx | hnew
    · have := hi.request x hx m hm
      omega
    · have := hnew m hm
      omega
  case answer =>
    intro a ha m hm
    have := hi.answer a (hans ▸ ha) m hm
    omega

/-- The request of a direct call serves that call. -/
theorem served_newRequest {s : State} {t : Int} {r : Bool} {m : Nat}
    (h : served (newRequest s t ((newMessage s r).map .caller)) = some m) :
    newMessage s r = some m := by
  cases r with
  | false => exact absurd h (by simp [served, newRequest, newMessage])
  | true => exact h

theorem numbered_step {s s' : State} {a : Action} (hi : Numbered s) (he : Effect s a s') :
    Numbered s' := by
  cases he with
  | direct t r hnr =>
    refine numbered_called hi rfl rfl (fun _ _ => Or.inl rfl) fun x hx => ?_
    refine (List.mem_append.mp hx).imp id fun hnew m hm => ?_
    rw [List.mem_singleton.mp hnew] at hm
    exact newMessage_eq (served_newRequest hm)
  | unchanged t r hnr hch =>
    exact numbered_called hi rfl rfl (fun _ _ => Or.inl rfl) fun _ => Or.inl
  | deferred t r hnr hch =>
    refine numbered_called hi rfl rfl (fun h _ => ?_) fun _ => Or.inl
    by_cases hh : h = currentHandler s
    · exact Or.inr (by simp [hh])
    · exact Or.inl (by simp [hh])
  | received h hr hb =>
    constructor
    case listening =>
      intro h' hr'
      rw [update_field ConnectivityHandler.served s.handlers h _ (by rfl) h']
      by_cases hh : h' = h
      · exact hh ▸ hi.listening h hr
      · exact hi.listening h' (by simpa [hh] using hr')
    case request =>
      intro x hx m hm
      rcases List.mem_append.mp hx with hx | hx
      · exact hi.request x hx m hm
      · rw [List.mem_singleton.mp hx] at hm
        obtain rfl : (s.handlers h).served = m := Option.some.inj hm
        exact hi.listening h hr
    case answer => exact hi.answer
  | answeredNobody p pre post rr hl =>
    exact numbered_answered hi (by simp [hl]) (fun _ => mem_of_mem_rest hl) rfl rfl rfl
  | answeredCaller p pre post rr m₀ e hl =>
    exact numbered_answered hi (by simp [hl]) (fun _ => mem_of_mem_rest hl) rfl rfl rfl
  | answeredHandler p pre post rr h c hl =>
    exact numbered_answered hi (by simp [hl]) (fun _ => mem_of_mem_rest hl) rfl rfl rfl
  | handled h c m hq hm =>
    refine ⟨fun h' hr => ?_, hi.request, hi.answer⟩
    rw [update_field ConnectivityHandler.served s.handlers h _ (by rfl) h']
    exact hi.listening h' (by simpa using hr)
  | platform | connectivityAction | onLost | ignored | unexpected | crashed =>
    exact ⟨hi.listening, hi.request, hi.answer⟩

theorem paired_init (networkMode : Int) (p : Platform) : Paired (State.init networkMode p) where
  request := by simp [State.init]
  direct := by simp [State.init]
  listening := by simp [State.init, slot]
  asked := by simp [State.init]
  told := by simp [State.init]
  truthful := by simp [State.init]
  refused := by simp [State.init]

theorem told_of_success {s : State} {m : Message} {t : Int} (hp : PassedWith s m t)
    (hs : SuccessFor s t) : Told s m := by
  intro c hc hr
  rw [hp c hc hr]
  exact hs

/-! ### Recording a call -/

/-- The calls after a step are those before it, with at most one added at the end. -/
theorem passedWith_recordCall {s s' : State} {t t' : Int} {r : Bool} {m : Nat}
    (hc : s'.calls = (recordCall s t' r).calls) (hlt : m < s.calls.length)
    (hp : PassedWith s m t) : PassedWith s' m t := by
  intro c hmem hr
  rw [hc] at hmem
  rcases List.mem_append.mp hmem with hmem | hmem
  · exact hp c hmem hr
  · rw [List.mem_singleton.mp hmem] at hr
    have := newMessage_eq hr
    omega

/-- The Message of the call just recorded was passed with that call's type. -/
theorem passedWith_new {s s' : State} (ho : Once s) {t : Int} {r : Bool} {m : Nat}
    (hc : s'.calls = (recordCall s t r).calls) (hm : newMessage s r = some m) :
    PassedWith s' m t := by
  intro c hmem hr
  rw [hc] at hmem
  rcases List.mem_append.mp hmem with hmem | hmem
  · have hlt := ho.passed_lt m ⟨c, hmem, hr⟩
    have := newMessage_eq hm
    omega
  · rw [List.mem_singleton.mp hmem]

theorem told_recordCall {s s' : State} {t : Int} {r : Bool} {m : Nat}
    (hc : s'.calls = (recordCall s t r).calls) (ha : s'.answers = s.answers)
    (hlt : m < s.calls.length) (hp : Told s m) : Told s' m := by
  intro c hmem hr
  rw [hc] at hmem
  rcases List.mem_append.mp hmem with hmem | hmem
  · have := hp c hmem hr
    rwa [SuccessFor, ha]
  · rw [List.mem_singleton.mp hmem] at hr
    have := newMessage_eq hr
    omega

/-- A Message that has gone somewhere belongs to a call already made. -/
theorem attached_lt {s : State} (ho : Once s) {rr : RILRequest Target} {m : Nat}
    (hmem : rr ∈ s.mRequestList) (hm : rr.mResult = some (.caller m)) : m < s.calls.length := by
  have hpos : 0 < attached s m := attached_pos_iff.mpr ⟨rr, hmem, hm⟩
  exact ho.away_lt (Nat.add_pos_right _ hpos)

theorem completed_lt {s : State} (ho : Once s) {m : Nat} {e : Bool}
    (hmem : (m, e) ∈ s.completed) : m < s.calls.length := by
  have hpos : 0 < sent s m := List.countP_pos_iff.mpr ⟨(m, e), hmem, by simp⟩
  exact ho.away_lt (Nat.add_pos_left hpos _)

/-- A Message that came back with an exception did not come back without one. -/
theorem not_both_outcomes {s : State} (ho : Once s) {m : Message} (ht : (m, true) ∈ s.completed) :
    (m, false) ∉ s.completed := by
  intro hf
  obtain ⟨pre, post, hsplit⟩ := List.append_of_mem ht
  have hmem : (m, false) ∈ pre ++ post := by
    rw [hsplit] at hf
    simpa using hf
  have hrest : 0 < (pre ++ post).countP fun e => e.1 == m :=
    List.countP_pos_iff.mpr ⟨_, hmem, beq_self_eq_true m⟩
  have hle := ho.once m
  unfold away sent at hle
  rw [hsplit, countP_middle, if_pos (beq_self_eq_true m)] at hle
  omega

/-! ### Steps that make no call -/

theorem success_mono {s s' : State} (ha : s.answers ⊆ s'.answers) {t : Int}
    (h : SuccessFor s t) : SuccessFor s' t := by
  obtain ⟨a, hmem, h0⟩ := h
  exact ⟨a, ha hmem, h0⟩

theorem told_mono {s s' : State} (hc : s'.calls = s.calls) (ha : s.answers ⊆ s'.answers)
    {m : Message} (h : Told s m) : Told s' m := by
  intro c hmem hr
  exact success_mono ha (h c (hc ▸ hmem) hr)

/-- What is known of a request stays known when other requests go. -/
theorem paired_answered {s s' : State} (hi : Paired s) {rr : RILRequest Target} {error : Int}
    (hreq : ∀ x ∈ s'.mRequestList, x ∈ s.mRequestList) (hcalls : s'.calls = s.calls)
    (hhandlers : s'.handlers = s.handlers) (hans : s'.answers = s.answers ++ [(rr, error)])
    (hqueue : ∀ h c, (h, c) ∈ s'.queue → (h, c) ∈ s.queue ∨
      ∀ m : Nat, slot s h = some m → Told s m ∨ Told s' m)
    (hcomp : ∀ m e, (m, e) ∈ s'.completed → (m, e) ∈ s.completed ∨ e = true ∨ Told s' m)
    (hkeep : s.completed ⊆ s'.completed)
    (hrefused : error ≠ 0 → ∀ m, served rr = some m → Passed s m → (m, true) ∈ s'.completed) :
    Paired s' := by
  have hsub : s.answers ⊆ s'.answers := hans ▸ List.subset_append_left _ _
  have hslot : ∀ h, slot s' h = slot s h := fun h => by rw [slot, hhandlers, slot]
  have hwith : ∀ m t, PassedWith s m t → PassedWith s' m t := fun m t hp c hmem =>
    hp c (hcalls ▸ hmem)
  constructor
  case request =>
    intro x hx
    exact hi.request x (hreq x hx)
  case direct =>
    intro x hx m hm
    exact hwith m _ (hi.direct x (hreq x hx) m hm)
  case listening =>
    intro h m hm hr
    rw [hhandlers] at hr ⊢
    exact hwith m _ (hi.listening h m (hslot h ▸ hm) hr)
  case asked =>
    intro x hx h hf m hm
    exact (hi.asked x (hreq x hx) h hf m (hslot h ▸ hm)).imp (hwith m _) (told_mono hcalls hsub)
  case told =>
    intro h c hq m hm
    rw [hslot] at hm
    rcases hqueue h c hq with hq | ht
    · exact told_mono hcalls hsub (hi.told h c hq m hm)
    · exact (ht m hm).elim (told_mono hcalls hsub) id
  case truthful =>
    intro m hm
    rcases hcomp m false hm with hm | hm | hm
    · exact told_mono hcalls hsub (hi.truthful m hm)
    · exact absurd hm (by simp)
    · exact hm
  case refused =>
    intro a ha he m hm hp
    have hp := (passed_congr hcalls).mp hp
    rw [hans] at ha
    rcases List.mem_append.mp ha with ha | ha
    · exact hkeep (hi.refused a ha he m hm hp)
    · rw [List.mem_singleton.mp ha] at he hm
      exact hrefused he m hm hp

/-! ### Steps that make a call -/

/-- What a call needs to be true of a handler that it changes: the new Message's type is what the
    handler will send, and what the handler still waits for does not belie it. -/
def TakesOver (s s' : State) (t : Int) (r : Bool) (h : HandlerId) : Prop :=
  slot s' h = newMessage s r ∧ (s'.handlers h).mDesiredNetworkType = t ∧
    (r = true → ((∃ c, (h, c) ∈ s.queue) ∨
      ∃ rr ∈ s.mRequestList, isFor h rr = true ∧ rr.networkType ≠ t) → SuccessFor s t)

/-- A Message that a handler holds behind a call is the one it held, or the new one. -/
theorem held_called {s s' : State} {t : Int} {r : Bool} {h : HandlerId} {m : Nat} (ho : Once s)
    (hc : s'.calls = (recordCall s t r).calls) (ha : s'.answers = s.answers)
    (hh : s'.handlers h = s.handlers h ∨ TakesOver s s' t r h) (hm : slot s' h = some m) :
    (s'.handlers h = s.handlers h ∧ slot s h = some m) ∨
      (PassedWith s' m t ∧ (s'.handlers h).mDesiredNetworkType = t ∧
        ((∃ c, (h, c) ∈ s.queue) ∨
          (∃ rr ∈ s.mRequestList, isFor h rr = true ∧ rr.networkType ≠ t) → Told s' m)) := by
  rcases hh with he | ⟨hs, hd, hwait⟩
  · rw [slot, he] at hm
    exact Or.inl ⟨he, hm⟩
  · have hnew : newMessage s r = some m := hs ▸ hm
    have hp := passedWith_new ho hc hnew
    have hr : r = true := by
      cases r with
      | false => exact absurd hnew (by simp [newMessage])
      | true => rfl
    refine Or.inr ⟨hp, hd, fun hw => ?_⟩
    exact told_of_success hp (success_mono (ha ▸ List.Subset.refl _) (hwait hr hw))

theorem paired_called {s s' : State} {t : Int} {r : Bool} (ho : Once s) (hn : Numbered s)
    (hi : Paired s) (hc : s'.calls = (recordCall s t r).calls) (ha : s'.answers = s.answers)
    (hq : s'.queue = s.queue) (hcomp : s'.completed = s.completed)
    (hreq : ∀ x ∈ s'.mRequestList, x ∈ s.mRequestList ∨
      x = newRequest s t ((newMessage s r).map .caller))
    (hh : ∀ h, s'.handlers h = s.handlers h ∨ TakesOver s s' t r h) : Paired s' := by
  have hwith : ∀ (m : Nat) t', m < s.calls.length → PassedWith s m t' → PassedWith s' m t' :=
    fun _ _ hlt hp => passedWith_recordCall hc hlt hp
  have htold : ∀ m : Nat, m < s.calls.length → Told s m → Told s' m :=
    fun _ hlt hp => told_recordCall hc ha hlt hp
  have hheld := fun h (m : Nat) hm => held_called (m := m) ho hc ha (hh h) hm
  constructor
  case request =>
    intro x hx
    rcases hreq x hx with hx | rfl
    · exact hi.request x hx
    · rfl
  case direct =>
    intro x hx m hm
    rcases hreq x hx with hx | rfl
    · exact hwith m _ (attached_lt ho hx hm) (hi.direct x hx m hm)
    · exact passedWith_new ho hc (served_newRequest (by rw [served, hm]))
  case listening =>
    intro h m hm hr
    rcases hheld h m hm with ⟨he, hm⟩ | ⟨hp, hd, _⟩
    · rw [he] at hr ⊢
      exact hwith m _ (ho.slot_lt hm) (hi.listening h m hm hr)
    · rw [hd]
      exact hp
  case asked =>
    intro x hx h hf m hm
    have hx : x ∈ s.mRequestList := by
      rcases hreq x hx with hx | rfl
      · exact hx
      · cases r <;> exact absurd hf (by simp [isFor, newRequest, newMessage])
    rcases hheld h m hm with ⟨_, hm⟩ | ⟨hp, _, htells⟩
    · have hlt := ho.slot_lt hm
      exact (hi.asked x hx h hf m hm).imp (hwith m _ hlt) (htold m hlt)
    · by_cases heq : x.networkType = t
      · exact Or.inl (heq ▸ hp)
      · exact Or.inr (htells (Or.inr ⟨x, hx, hf, heq⟩))
  case told =>
    intro h c hmem m hm
    rw [hq] at hmem
    rcases hheld h m hm with ⟨_, hm⟩ | ⟨_, _, htells⟩
    · exact htold m (ho.slot_lt hm) (hi.told h c hmem m hm)
    · exact htells (Or.inl ⟨c, hmem⟩)
  case truthful =>
    intro m hm
    rw [hcomp] at hm
    exact htold m (completed_lt ho hm) (hi.truthful m hm)
  case refused =>
    intro a hmem he m hm hp
    rw [hcomp]
    have hmem : a ∈ s.answers := ha ▸ hmem
    rcases (passed_recordCall hc).mp hp with hp | hp
    · exact hi.refused a hmem he m hm hp
    · -- the new call's number is not among those already answered
      have hlt := hn.answer a hmem m hm
      have := newMessage_eq hp
      omega

/-- A handler just created waits for nothing, and a present one is covered by the condition. -/
theorem takesOver_current {s : State} {t : Int} {r : Bool} (hcr : Created s)
    (hok : FaithfulHandlers s (.setPreferredNetworkType t r))
    (hnr : needReconnect s.platform = true)
    (hch : hasNetworkTypeChanged t s.platform.networkClass = true) (hr : r = true)
    (hwait : (∃ c, (currentHandler s, c) ∈ s.queue) ∨
      ∃ rr ∈ s.mRequestList, isFor (currentHandler s) rr = true ∧ rr.networkType ≠ t) :
    SuccessFor s t := by
  cases hcur : s.mSamsungu8500RILHandler with
  | some h =>
    have hh : currentHandler s = h := by simp [currentHandler, hcur]
    exact hok hnr hch hr h hcur (hh ▸ hwait)
  | none =>
    have hh : currentHandler s = s.numHandlers := by simp [currentHandler, hcur]
    have hunder : UnderWay s (currentHandler s) := by
      rcases hwait with hq | ⟨rr, hmem, hf, _⟩
      · exact Or.inr (Or.inr hq)
      · exact Or.inr (Or.inl ⟨rr, hmem, isFor_iff.mp hf⟩)
    have := hcr.underWay _ (underWay_iff.mp hunder)
    rw [hh] at this
    exact absurd this (Nat.lt_irrefl _)

/-! ### The other steps -/

/-- The receiver's request carries the type and the number that the handler held. -/
theorem paired_received {s s' : State} {h : HandlerId} (hi : Paired s)
    (hr : (s.handlers h).isRegistered = true)
    (hreq : s'.mRequestList = s.mRequestList ++ [heldRequest s h])
    (hhandlers : s'.handlers = Function.update s.handlers h
      { s.handlers h with isRegistered := false, mDesiredNetworkType := -1 })
    (hcalls : s'.calls = s.calls) (hans : s'.answers = s.answers) (hqueue : s'.queue = s.queue)
    (hcomp : s'.completed = s.completed) : Paired s' := by
  have hwith : ∀ m t, PassedWith s m t → PassedWith s' m t := fun m t hp c hmem =>
    hp c (hcalls ▸ hmem)
  have htold : ∀ m, Told s m → Told s' m := fun m => told_mono hcalls (hans ▸ List.Subset.refl _)
  have hslot : ∀ h' m, slot s' h' = some m → slot s h' = some m := by
    intro h' m hm
    rw [slot, hhandlers] at hm
    rwa [update_field ConnectivityHandler.mNetworktypeResponse s.handlers h _ (by rfl) h'] at hm
  constructor
  case request =>
    intro x hx
    rw [hreq] at hx
    rcases List.mem_append.mp hx with hx | hx
    · exact hi.request x hx
    · rw [List.mem_singleton.mp hx]
      rfl
  case direct =>
    intro x hx m hm
    rw [hreq] at hx
    rcases List.mem_append.mp hx with hx | hx
    · exact hwith m _ (hi.direct x hx m hm)
    · rw [List.mem_singleton.mp hx] at hm
      exact absurd hm (by simp [heldRequest, newRequest])
  case listening =>
    intro h' m hm hr'
    have hm := hslot h' m hm
    rw [hhandlers] at hr' ⊢
    by_cases hh : h' = h
    · subst hh
      simp at hr'
    · rw [Function.update_of_ne hh] at hr' ⊢
      exact hwith m _ (hi.listening h' m hm hr')
  case asked =>
    intro x hx h' hf m hm
    have hm := hslot h' m hm
    rw [hreq] at hx
    rcases List.mem_append.mp hx with hx | hx
    · exact (hi.asked x hx h' hf m hm).imp (hwith m _) (htold m)
    · -- the request just sent carries what the handler listened for
      rw [List.mem_singleton.mp hx] at hf ⊢
      obtain rfl : h = h' := by simpa [isFor, heldRequest, newRequest] using hf
      exact Or.inl (hwith m _ (hi.listening h m hm hr))
  case told =>
    intro h' c hq m hm
    exact htold m (hi.told h' c (hqueue ▸ hq) m (hslot h' m hm))
  case truthful =>
    intro m hm
    exact htold m (hi.truthful m (hcomp ▸ hm))
  case refused =>
    intro a ha he m hm hp
    rw [hcomp]
    exact hi.refused a (hans ▸ ha) he m hm ((passed_congr hcalls).mp hp)

/-- The handler that is done answers the Message in its slot, and what it has heard is about that. -/
theorem paired_handled {s s' : State} {h : HandlerId} {c : Nat} {m₀ : Message} (hi : Paired s)
    (hq : (h, c) ∈ s.queue) (hm₀ : slot s h = some m₀) (hreq : s'.mRequestList = s.mRequestList)
    (hhandlers : s'.handlers = Function.update s.handlers h
      { s.handlers h with mNetworktypeResponse := none })
    (hcalls : s'.calls = s.calls) (hans : s'.answers = s.answers)
    (hqueue : s'.queue = s.queue.erase (h, c))
    (hcomp : s'.completed = s.completed ++ [(m₀, false)]) : Paired s' := by
  have hwith : ∀ m t, PassedWith s m t → PassedWith s' m t := fun m t hp c hmem =>
    hp c (hcalls ▸ hmem)
  have htold : ∀ m, Told s m → Told s' m := fun m => told_mono hcalls (hans ▸ List.Subset.refl _)
  have hslot : ∀ h' m, slot s' h' = some m → slot s h' = some m := by
    intro h' m hm
    rw [slot, hhandlers] at hm
    by_cases hh : h' = h
    · subst hh
      simp at hm
    · rwa [Function.update_of_ne hh] at hm
  constructor
  case request => exact hreq ▸ hi.request
  case direct =>
    intro x hx m hm
    exact hwith m _ (hi.direct x (hreq ▸ hx) m hm)
  case listening =>
    intro h' m hm hr
    rw [hhandlers] at hr ⊢
    simp only [update_response] at hr ⊢
    exact hwith m _ (hi.listening h' m (hslot h' m hm) hr)
  case asked =>
    intro x hx h' hf m hm
    exact (hi.asked x (hreq ▸ hx) h' hf m (hslot h' m hm)).imp (hwith m _) (htold m)
  case told =>
    intro h' c' hq' m hm
    rw [hqueue] at hq'
    exact htold m (hi.told h' c' (List.mem_of_mem_erase hq') m (hslot h' m hm))
  case truthful =>
    intro m hm
    rw [hcomp] at hm
    rcases List.mem_append.mp hm with hm | hm
    · exact htold m (hi.truthful m hm)
    · obtain rfl : m = m₀ := by simpa using hm
      exact htold m (hi.told h c hq m hm₀)
  case refused =>
    intro a ha he m hm hp
    rw [hcomp]
    exact List.mem_append_left _ (hi.refused a (hans ▸ ha) he m hm ((passed_congr hcalls).mp hp))

theorem paired_step {s s' : State} {a : Action} (ho : Once s) (hcr : Created s) (hn : Numbered s)
    (hi : Paired s) (hok : FaithfulHandlers s a) (he : Effect s a s') : Paired s' := by
  cases he with
  | direct t r hnr =>
    refine paired_called ho hn hi rfl rfl rfl rfl (fun x hx => ?_) fun _ => Or.inl rfl
    exact (List.mem_append.mp hx).imp id List.mem_singleton.mp
  | unchanged t r hnr hch =>
    exact paired_called ho hn hi rfl rfl rfl rfl (fun _ => Or.inl) fun _ => Or.inl rfl
  | deferred t r hnr hch =>
    refine paired_called ho hn hi rfl rfl rfl rfl (fun _ => Or.inl) fun h => ?_
    by_cases hh : h = currentHandler s
    · subst hh
      refine Or.inr ⟨by simp [slot], by simp, fun hr hwait => ?_⟩
      exact takesOver_current hcr hok hnr hch hr hwait
    · exact Or.inl (by simp [hh])
  | received h hr hb => exact paired_received hi hr rfl rfl rfl rfl rfl rfl
  | answeredNobody p pre post rr hl hs hm =>
    refine paired_answered hi (fun _ => mem_of_mem_rest hl) rfl rfl rfl (fun _ _ => Or.inl)
      (fun _ _ => Or.inl) (List.Subset.refl _) fun _ m hserved => ?_
    exact absurd hserved (by simp [served, hm])
  | answeredCaller p pre post rr m₀ e hl hs hm hexc =>
    have hmem : rr ∈ s.mRequestList := by simp [hl]
    refine paired_answered hi (fun _ => mem_of_mem_rest hl) rfl rfl rfl (fun _ _ => Or.inl)
      (fun m e' hc => ?_) (List.subset_append_left _ _) fun herr m hserved _ => ?_
    · rcases List.mem_append.mp hc with hc | hc
      · exact Or.inl hc
      · obtain ⟨rfl, rfl⟩ : m = m₀ ∧ e' = e := by simpa using hc
        refine Or.inr ?_
        by_cases herr : replyError p = 0
        · refine Or.inr (told_of_success (t := rr.networkType) (hi.direct rr hmem m hm) ?_)
          exact ⟨(rr, replyError p), by simp, herr, rfl⟩
        · exact Or.inl (hexc (hi.request rr hmem) herr)
    · obtain rfl : m₀ = m := by simpa [served, hm] using hserved
      have he : e = true := hexc (hi.request rr hmem) herr
      simp [he]
  | answeredHandler p pre post rr h c hl hs hm =>
    have hmem : rr ∈ s.mRequestList := by simp [hl]
    have hfor : isFor h rr = true := isFor_iff.mpr ⟨c, hm⟩
    refine paired_answered hi (fun _ => mem_of_mem_rest hl) rfl rfl rfl (fun h' c' hq => ?_)
      (fun _ _ => Or.inl) (List.Subset.refl _) fun herr m hserved hp => ?_
    · rcases List.mem_append.mp hq with hq | hq
      · exact Or.inl hq
      · obtain ⟨rfl, rfl⟩ : h' = h ∧ c' = c := by simpa using hq
        refine Or.inr fun m hslot => ?_
        -- the type of the Message in the slot has just been accepted, or was before
        by_cases hzero : replyError p = 0
        · rcases hi.asked rr hmem h' hfor m hslot with hp | ht
          · exact Or.inr (told_of_success (t := rr.networkType) hp
              ⟨(rr, replyError p), by simp, hzero, rfl⟩)
          · exact Or.inl ht
        · exact Or.inl ((hok hzero rr hmem hs h' c' hm).2 m hslot)
    · obtain rfl : c = m := by simpa [served, hm] using hserved
      exact absurd hp (hok herr rr hmem hs h c hm).1
  | handled h c m₀ hq hm₀ => exact paired_handled hi hq hm₀ rfl rfl rfl rfl rfl rfl
  | crashed h c hq hm =>
    exact ⟨hi.request, hi.direct, hi.listening, hi.asked,
      fun h' c' hq' => hi.told h' c' (List.mem_of_mem_erase hq'), hi.truthful, hi.refused⟩
  | platform | connectivityAction | onLost | ignored | unexpected =>
    exact ⟨hi.request, hi.direct, hi.listening, hi.asked, hi.told, hi.truthful, hi.refused⟩

/-! ## The result -/

theorem repliesTruthful_of_paired {s : State} (ho : Once s) (hi : Paired s) :
    RepliesTruthful s := by
  refine ⟨fun c hc m hr hm => hi.truthful m hm c hc hr, fun a ha he m hm hp => ?_⟩
  have hexc := hi.refused a ha he m hm hp
  exact ⟨not_both_outcomes ho hexc, Or.inl hexc⟩

/-! ### The excluded steps -/

/-- A call that takes over a handler too early leaves it waiting for a completion that is not about
    the call's type, which the modem has not accepted. -/
theorem takeover_untold {s s' : State} {t : Int} {r : Bool}
    (hbad : ¬ FaithfulHandlers s (.setPreferredNetworkType t r))
    (he : Effect s (.setPreferredNetworkType t r) s') :
    ∃ h m, slot s' h = some m ∧ Passed s' m ∧ ¬ Told s' m ∧ ((∃ c, (h, c) ∈ s'.queue) ∨
      ∃ rr ∈ s'.mRequestList, isFor h rr = true ∧ rr.networkType ≠ t) := by
  simp only [FaithfulHandlers, Classical.not_imp, not_forall] at hbad
  obtain ⟨hnr, hch, rfl, h, hcur, hwait, hnot⟩ := hbad
  have hh : currentHandler s = h := by simp [currentHandler, hcur]
  cases he with
  | direct _ _ hdown => exact absurd (hdown.symm.trans hnr) (by simp)
  | unchanged _ _ _ hsame => exact absurd (hsame.symm.trans hch) (by simp)
  | deferred _ _ _ _ =>
    have hnew : newMessage s true = some s.calls.length := rfl
    have hcall : (⟨t, some s.calls.length, s.platform⟩ : Call) ∈ (recordCall s t true).calls :=
      List.mem_append_right _ (List.mem_singleton.mpr rfl)
    refine ⟨h, s.calls.length, by simp [slot, hh, hnew], ⟨_, hcall, rfl⟩, fun ht => ?_, hwait⟩
    exact hnot (ht _ hcall rfl)

/-- A completion answers the Message in the slot as done, whether the modem has accepted its type,
    has refused the request made for it, or has not been asked. -/
theorem completion_misleads {Obj Thr : Type} (decode : Decode Obj Thr) {s : State} {h : HandlerId}
    {c : Nat} {m : Message} (hlive : s.crashed = false) (hq : (h, c) ∈ s.queue)
    (hm : slot s h = some m) (hp : Passed s m)
    (hfalse : ¬ Told s m ∨ ∃ a ∈ s.answers, a.2 ≠ 0 ∧ served a.1 = some m) :
    ∃ s', step decode s (.handleMessage h c) = some s' ∧ ¬ RepliesTruthful s' := by
  obtain ⟨s', hs'⟩ : ∃ s', step decode s (.handleMessage h c) = some s' := by
    simp [step, act, hlive, hq]
  refine ⟨s', hs', fun htruth => ?_⟩
  cases (step_effect hs').2 with
  | crashed _ _ _ hnone => exact absurd (hm.symm.trans hnone) (by simp)
  | handled _ _ m' _ hm' =>
    obtain rfl : m = m' := Option.some.inj (hm.symm.trans hm')
    have hdone : (m, false) ∈ s.completed ++ [(m, false)] :=
      List.mem_append_right _ (List.mem_singleton.mpr rfl)
    rcases hfalse with hnot | ⟨a, ha, herr, hserved⟩
    · exact hnot fun x hx hr => htruth.1 x hx m hr hdone
    · exact (htruth.2 a ha herr m hserved hp).1 hdone

section

variable {Obj Thr : Type} (decode : Decode Obj Thr)

theorem run_numbered {ok : State → Action → Prop} {networkMode : Int} {p : Platform} {s : State}
    (hrun : Run (step decode) ok (State.init networkMode p) s) : Numbered s := by
  refine hrun.inv (numbered_init networkMode p) ?_
  intro _ _ _ hi _ hs
  exact numbered_step hi (step_effect hs).2

theorem run_paired {networkMode : Int} {p : Platform} {s : State}
    (hrun : Run (step decode) FaithfulHandlers (State.init networkMode p) s) : Paired s := by
  refine hrun.inv_staged (paired_init networkMode p) ?_
  intro _ _ _ hpre hi hok hs
  exact paired_step (run_once hpre) (run_created hpre) (run_numbered decode hpre) hi hok
    (step_effect hs).2

/-- **Every answer is true** in every run whose handlers are not refused and not taken over early. -/
theorem replies_truthful (networkMode : Int) (p : Platform) (s : State)
    (hrun : Run (step decode) FaithfulHandlers (State.init networkMode p) s) :
    RepliesTruthful s :=
  repliesTruthful_of_paired (run_once hrun) (run_paired decode hrun)

end

/-- One switch takes the direct path and is refused, the next is deferred and accepted. -/
theorem replies_truthful_both_paths :
    ∃ s, Run (step voidDecode) FaithfulHandlers (State.init 0 dataDown) s ∧ RepliesTruthful s ∧
      s.completed = [(0, true), (1, false)] := by
  have hrun := run_of_exec (step voidDecode) FaithfulHandlers (State.init 0 dataDown)
    [.setPreferredNetworkType 3 true, .processSolicited (replyParcel 0 2), .platform dataUp,
      .setPreferredNetworkType 2 true, .platform dataDown, .connectivityAction true,
      .onReceive 0 true, .processSolicited (replyParcel 1 0), .handleMessage 0 1]
    ⟨fun h => absurd h (by decide), fun _ rr hrr _ h c hf => by
        rw [List.mem_singleton.mp hrr] at hf
        exact absurd (show some (Target.caller 0) = some (.handler h c) from hf) (by simp), trivial,
      fun _ _ _ h hh => absurd (show none = some h from hh) (by simp), trivial, trivial, trivial,
      fun herr => absurd (show replyError (replyParcel 1 0) = 0 by decide) herr, trivial,
      trivial⟩ rfl
  exact ⟨_, hrun, replies_truthful voidDecode 0 dataDown _ hrun, rfl⟩

/-- The modem refuses a deferred switch with error 2, and the caller is told that it is done. -/
theorem refused_reported_done :
    ¬ ∀ (networkMode : Int) (p : Platform) (s : State),
      Reach (step voidDecode) (State.init networkMode p) s → RepliesTruthful s := by
  intro hall
  have hreach := reach_of_exec (step voidDecode) (State.init 0 dataUp)
    [.setPreferredNetworkType 3 true, .platform dataDown, .connectivityAction true,
      .onReceive 0 true, .processSolicited (replyParcel 0 2), .handleMessage 0 0]
    rfl
  have hdone := (hall 0 dataUp _ hreach).2 _ List.mem_cons_self (by decide) 0 rfl
    ⟨_, List.mem_cons_self, rfl⟩
  exact hdone.1 List.mem_cons_self

end Codina.Ril
