/-
  Deferred SIM-status queries.

  After the radio comes up the modem does not report that the SIM has been initialised, so a query
  made while the radio is not on must not be answered from the state the SIM was in then.
  `getIccCardStatus` puts such a query's Message into `mPendingGetSimStatus`, and
  `switchToRadioState` passes it to the base class once the radio is on.

  The field holds ONE Message.  A second query made before the radio is on takes the place of the
  first, which is then never passed on (`query_overwritten`).  In runs where a query that has to wait
  finds nobody waiting, none is lost (`queries_not_lost`).

  The state records history: the number of steps taken, the queries made, the Messages passed to the
  base class, and the switches to `RADIO_ON`, each with its time.  No method reads it.
-/
import Codina.Ril.Switch

namespace Codina.Ril.SimStatus

open Codina.Runs

/-! ## Data -/

inductive RadioState where
  | radioOff
  | radioUnavailable
  | radioOn
deriving DecidableEq

/-- A call of `getIccCardStatus`. -/
structure Query where
  /-- Its Message, named by the number of the call. -/
  result : Message
  time : Nat
  /-- Whether the radio was on. -/
  radioOn : Bool
deriving DecidableEq

structure State where
  mState : RadioState
  mPendingGetSimStatus : Option Message := none
  /-- How often `mIccStatusChangedRegistrants` have been notified. -/
  iccStatusChanged : Nat := 0
  time : Nat := 0
  queries : List Query := []
  /-- The Messages passed to `super.getIccCardStatus`, and when. -/
  passedOn : List (Message × Nat) := []
  /-- When the radio was switched on. -/
  switchedOn : List Nat := []

/-- The RIL as constructed, nobody waiting. -/
def State.init (mState : RadioState) : State := { mState := mState }

/-! ## The methods of `SamsungU8500RIL` -/

/-- `super.getIccCardStatus(result)`. -/
def baseGetIccCardStatus (result : Message) (s : State) : State :=
  { s with passedOn := s.passedOn ++ [(result, s.time)] }

def getIccCardStatus (result : Message) (s : State) : State :=
  if s.mState ≠ .radioOn then { s with mPendingGetSimStatus := some result }
  else baseGetIccCardStatus result s

/-- `super.switchToRadioState(newState)`. -/
def baseSwitchToRadioState (newState : RadioState) (s : State) : State :=
  { s with
    mState := newState
    switchedOn := if newState = .radioOn then s.switchedOn ++ [s.time] else s.switchedOn }

def switchToRadioState (newState : RadioState) (s : State) : State :=
  let s := baseSwitchToRadioState newState s
  match s.mPendingGetSimStatus with
  | some m =>
    if newState = .radioOn then { baseGetIccCardStatus m s with mPendingGetSimStatus := none } else s
  | none => s

/-- The radio state number of the framework for the modem's. -/
def mappedRadioState (state : Int) : Int :=
  match state with
  | 2 => 1
  | 3 => 10
  | 4 => 10
  | state => state

/-- `processUnsolicited` of `RIL_UNSOL_RESPONSE_RADIO_STATE_CHANGED`.  `getRadioStateFromInt` is the
    base class's; it throws on a number it does not know. -/
def radioStateChanged (getRadioStateFromInt : Int → Option RadioState) (state : Int) (s : State) :
    State :=
  -- SIM is PIN-unlocked now
  let s := if state = 4 then { s with iccStatusChanged := s.iccStatusChanged + 1 } else s
  match getRadioStateFromInt (mappedRadioState state) with
  | some newState => switchToRadioState newState s
  | none => s

/-! ## Steps -/

inductive Action where
  /-- The framework queries the SIM status, with a Message of its own. -/
  | getIccCardStatus
  /-- The base class switches the radio state, as it does when the socket is closed. -/
  | switchToRadioState (newState : RadioState)
  /-- The modem reports a radio state. -/
  | radioStateChanged (state : Int)

def newQuery (s : State) : Query := ⟨s.queries.length, s.time, decide (s.mState = .radioOn)⟩

def act (getRadioStateFromInt : Int → Option RadioState) (s : State) : Action → State
  | .getIccCardStatus =>
    getIccCardStatus s.queries.length { s with queries := s.queries ++ [newQuery s] }
  | .switchToRadioState newState => switchToRadioState newState s
  | .radioStateChanged state => radioStateChanged getRadioStateFromInt state s

/-- One step, which takes one unit of time. -/
def step (getRadioStateFromInt : Int → Option RadioState) (s : State) (a : Action) : Option State :=
  some { act getRadioStateFromInt s a with time := s.time + 1 }

/-- The ways a step can change the state. -/
inductive Effect (s : State) : Action → State → Prop
  | passed : s.mState = .radioOn →
      Effect s .getIccCardStatus
        { s with
          time := s.time + 1, queries := s.queries ++ [⟨s.queries.length, s.time, true⟩]
          passedOn := s.passedOn ++ [(s.queries.length, s.time)] }
  | kept : s.mState ≠ .radioOn →
      Effect s .getIccCardStatus
        { s with
          time := s.time + 1, queries := s.queries ++ [⟨s.queries.length, s.time, false⟩]
          mPendingGetSimStatus := some s.queries.length }
  /-- The radio state number was not recognised. -/
  | ignored (a : Action) (n : Nat) : (a = .getIccCardStatus → False) →
      Effect s a { s with time := s.time + 1, iccStatusChanged := n }
  | switchedOff (a : Action) (n : Nat) (newState : RadioState) : (a = .getIccCardStatus → False) →
      newState ≠ .radioOn →
      Effect s a { s with time := s.time + 1, iccStatusChanged := n, mState := newState }
  | switchedOn (a : Action) (n : Nat) : (a = .getIccCardStatus → False) →
      s.mPendingGetSimStatus = none →
      Effect s a
        { s with
          time := s.time + 1, iccStatusChanged := n, mState := .radioOn
          switchedOn := s.switchedOn ++ [s.time] }
  | resumed (a : Action) (n : Nat) (m : Message) : (a = .getIccCardStatus → False) →
      s.mPendingGetSimStatus = some m →
      Effect s a
        { s with
          time := s.time + 1, iccStatusChanged := n, mState := .radioOn
          switchedOn := s.switchedOn ++ [s.time]
          mPendingGetSimStatus := none, passedOn := s.passedOn ++ [(m, s.time)] }

theorem switchToRadioState_effect {s : State} {a : Action} (ha : a = .getIccCardStatus → False)
    (newState : RadioState) (n : Nat) :
    Effect s a { switchToRadioState newState { s with iccStatusChanged := n } with
      time := s.time + 1 } := by
  unfold switchToRadioState baseSwitchToRadioState baseGetIccCardStatus
  by_cases hon : newState = .radioOn
  · subst hon
    cases hp : s.mPendingGetSimStatus with
    | none =>
      simp only [if_true]
      exact hp ▸ Effect.switchedOn a n ha hp
    | some m =>
      simp only [if_true]
      exact Effect.resumed a n m ha hp
  · cases hp : s.mPendingGetSimStatus with
    | none =>
      simp only [if_neg hon]
      exact hp ▸ Effect.switchedOff a n newState ha hon
    | some m =>
      simp only [if_neg hon]
      exact hp ▸ Effect.switchedOff a n newState ha hon

/-- **What a step can do.** -/
theorem step_effect {getRadioStateFromInt : Int → Option RadioState} {s s' : State} {a : Action}
    (h : step getRadioStateFromInt s a = some s') : Effect s a s' := by
  cases a with
  | getIccCardStatus =>
    cases h
    by_cases hon : s.mState = .radioOn
    · simp only [act, getIccCardStatus, newQuery, hon, ne_eq, not_true_eq_false, if_false,
        decide_true]
      exact hon ▸ Effect.passed hon
    · simp only [act, getIccCardStatus, newQuery, hon, ne_eq, not_false_eq_true, if_true,
        decide_false]
      exact Effect.kept hon
  | switchToRadioState newState =>
    cases h
    exact switchToRadioState_effect (by simp) newState s.iccStatusChanged
  | radioStateChanged state =>
    cases h
    simp only [act, radioStateChanged]
    cases hg : getRadioStateFromInt (mappedRadioState state) with
    | none =>
      by_cases h4 : state = 4
      · simp only [if_pos h4]
        exact Effect.ignored (.radioStateChanged state) _ (by simp)
      · simp only [if_neg h4]
        exact Effect.ignored (.radioStateChanged state) s.iccStatusChanged (by simp)
    | some newState =>
      by_cases h4 : state = 4
      · simp only [if_pos h4]
        exact switchToRadioState_effect (by simp) newState _
      · simp only [if_neg h4]
        exact switchToRadioState_effect (by simp) newState s.iccStatusChanged

/-! ## Nothing is lost -/

/-- The times at which the Message `m` was passed to the base class. -/
def timesPassedOn (s : State) (m : Message) : List Nat :=
  (s.passedOn.filter fun e => e.1 == m).map Prod.snd

/-- The first time after `t` at which the radio was switched on. -/
def firstOnAfter (s : State) (t : Nat) : Option Nat := s.switchedOn.find? fun u => t < u

/-- A query made while the radio was on has been passed on at once, any other at the first switch to
    `RADIO_ON` after it; and those not passed on yet are the one in `mPendingGetSimStatus`. -/
structure NotLost (s : State) : Prop where
  immediate : ∀ q ∈ s.queries, q.radioOn = true → timesPassedOn s q.result = [q.time]
  deferred : ∀ q ∈ s.queries, q.radioOn = false →
    timesPassedOn s q.result = (firstOnAfter s q.time).toList
  waiting : ∀ m, ((∃ q ∈ s.queries, q.result = m) ∧ timesPassedOn s m = []) ↔
    s.mPendingGetSimStatus = some m

/-- A query that has to wait finds nobody waiting. -/
def NobodyWaits (s : State) : Action → Prop
  | .getIccCardStatus => s.mState ≠ .radioOn → s.mPendingGetSimStatus = none
  | _ => True

/-- What the history is worth: times lie in the past, and calls and their Messages correspond. -/
structure History (s : State) : Prop where
  queries_time : ∀ q ∈ s.queries, q.time < s.time
  queries_result : ∀ q ∈ s.queries, q.result < s.queries.length
  distinct : ∀ q ∈ s.queries, ∀ q' ∈ s.queries, q.result = q'.result → q = q'
  switchedOn_time : ∀ t ∈ s.switchedOn, t < s.time
  passedOn_result : ∀ e ∈ s.passedOn, e.1 < s.queries.length
  pending_result : ∀ m, s.mPendingGetSimStatus = some m → m < s.queries.length

/-- The invariant: nothing is lost, and nobody waits while the radio is on. -/
structure Kept (s : State) : Prop where
  notLost : NotLost s
  waiting_off : s.mPendingGetSimStatus ≠ none → s.mState ≠ .radioOn

theorem timesPassedOn_append {s s' : State} {m : Message} {t : Nat}
    (h : s'.passedOn = s.passedOn ++ [(m, t)]) (m' : Message) :
    timesPassedOn s' m' = timesPassedOn s m' ++ if m = m' then [t] else [] := by
  unfold timesPassedOn
  rw [h, List.filter_append, List.map_append]
  by_cases hm : m = m'
  · simp [hm]
  · simp [hm]

theorem timesPassedOn_same {s s' : State} (h : s'.passedOn = s.passedOn) (m : Message) :
    timesPassedOn s' m = timesPassedOn s m := by
  rw [timesPassedOn, h, timesPassedOn]

/-- A Message that no call has used yet has not been passed on. -/
theorem timesPassedOn_new {s : State} (hh : History s) : timesPassedOn s s.queries.length = [] := by
  unfold timesPassedOn
  rw [List.map_eq_nil_iff, List.filter_eq_nil_iff]
  intro e he
  simpa using Nat.ne_of_lt (hh.passedOn_result e he)

/-- A switch to `RADIO_ON` now is the first one after an earlier time unless there was one before. -/
theorem firstOnAfter_append {s s' : State} (h : s'.switchedOn = s.switchedOn ++ [s.time]) {t : Nat}
    (ht : t < s.time) :
    firstOnAfter s' t = some ((firstOnAfter s t).getD s.time) := by
  unfold firstOnAfter
  rw [h, List.find?_append]
  cases hf : s.switchedOn.find? fun u => t < u with
  | some u => simp
  | none => simp [ht]

/-- No switch lies after the present. -/
theorem firstOnAfter_now {s s' : State} (hh : History s) (h : s'.switchedOn = s.switchedOn) :
    firstOnAfter s' s.time = none := by
  unfold firstOnAfter
  rw [h, List.find?_eq_none]
  intro u hu
  have hlt := hh.switchedOn_time u hu
  simp only [decide_eq_true_eq]
  omega

theorem history_init (mState : RadioState) : History (State.init mState) := by
  constructor <;> simp [State.init]

/-- The queries after a new call are those before it and the call itself. -/
theorem mem_called {s s' : State} {on : Bool}
    (hq : s'.queries = s.queries ++ [⟨s.queries.length, s.time, on⟩]) {q : Query}
    (hmem : q ∈ s'.queries) : q ∈ s.queries ∨ q = ⟨s.queries.length, s.time, on⟩ := by
  rw [hq] at hmem
  rcases List.mem_append.mp hmem with hold | hnew
  · exact Or.inl hold
  · exact Or.inr (List.mem_singleton.mp hnew)

/-- The record of a new call is unlike those of the calls before. -/
theorem history_called {s s' : State} {on : Bool} (hh : History s)
    (hq : s'.queries = s.queries ++ [⟨s.queries.length, s.time, on⟩]) (ht : s'.time = s.time + 1)
    (hsw : s'.switchedOn = s.switchedOn) (hpass : ∀ e ∈ s'.passedOn, e.1 < s'.queries.length)
    (hpend : ∀ m, s'.mPendingGetSimStatus = some m → m < s'.queries.length) : History s' := by
  have hlen : s'.queries.length = s.queries.length + 1 := by rw [hq]; simp
  constructor
  case queries_time =>
    intro q hmem
    rcases mem_called hq hmem with hold | rfl
    · have hlt := hh.queries_time q hold
      omega
    · show s.time < s'.time
      omega
  case queries_result =>
    intro q hmem
    rcases mem_called hq hmem with hold | rfl
    · have hlt := hh.queries_result q hold
      simp only [Message] at *
      omega
    · rw [hlen]
      exact Nat.lt_succ_self _
  case distinct =>
    intro q hmem q' hmem' he
    rcases mem_called hq hmem with hold | rfl <;> rcases mem_called hq hmem' with hold' | rfl
    · exact hh.distinct q hold q' hold' he
    · exact absurd (hh.queries_result q hold) (by rw [he]; exact Nat.lt_irrefl _)
    · exact absurd (hh.queries_result q' hold') (by rw [← he]; exact Nat.lt_irrefl _)
    · rfl
  case switchedOn_time =>
    intro t hmem
    rw [hsw] at hmem
    have hlt := hh.switchedOn_time t hmem
    omega
  case passedOn_result => exact hpass
  case pending_result => exact hpend

theorem history_step {s s' : State} {a : Action} (hh : History s) (he : Effect s a s') :
    History s' := by
  have hadd : ∀ m : Nat, m < s.queries.length → m < s.queries.length + 1 := fun m hm => by omega
  have hold : ∀ q ∈ s.queries, q.time < s.time + 1 := fun q hq => by
    have hlt := hh.queries_time q hq
    omega
  have hsw : ∀ t ∈ s.switchedOn, t < s.time + 1 := fun t ht => by
    have hlt := hh.switchedOn_time t ht
    omega
  have hswOn : ∀ t ∈ s.switchedOn ++ [s.time], t < s.time + 1 := by
    intro t ht
    rcases List.mem_append.mp ht with ht | ht
    · exact hsw t ht
    · rw [List.mem_singleton.mp ht]
      omega
  cases he with
  | passed hon =>
    refine history_called hh rfl rfl rfl ?_ ?_
    · intro e hmem
      simp only [List.length_append, List.length_singleton]
      rcases List.mem_append.mp hmem with hmem | hmem
      · exact hadd _ (hh.passedOn_result e hmem)
      · rw [List.mem_singleton.mp hmem]
        exact Nat.lt_succ_self _
    · intro m hm
      simp only [List.length_append, List.length_singleton]
      exact hadd m (hh.pending_result m hm)
  | kept hoff =>
    refine history_called hh rfl rfl rfl ?_ ?_
    · intro e hmem
      simp only [List.length_append, List.length_singleton]
      exact hadd _ (hh.passedOn_result e hmem)
    · rintro m ⟨⟩
      simp
  | ignored | switchedOff =>
    exact ⟨hold, hh.queries_result, hh.distinct, hsw, hh.passedOn_result, hh.pending_result⟩
  | switchedOn =>
    exact ⟨hold, hh.queries_result, hh.distinct, hswOn, hh.passedOn_result, hh.pending_result⟩
  | resumed _ n m hne hm =>
    refine ⟨hold, hh.queries_result, hh.distinct, hswOn, ?_, fun m' h => absurd h (by simp)⟩
    intro e hmem
    rcases List.mem_append.mp hmem with hmem | hmem
    · exact hh.passedOn_result e hmem
    · rw [List.mem_singleton.mp hmem]
      exact hh.pending_result m hm

theorem kept_init (mState : RadioState) : Kept (State.init mState) where
  notLost := by constructor <;> simp [State.init]
  waiting_off := by simp [State.init]

/-- A query not passed on yet is the one waiting; so one that is not waiting has a time. -/
theorem firstOnAfter_of_not_waiting {s : State} (hi : NotLost s) {q : Query} (hq : q ∈ s.queries)
    (hoff : q.radioOn = false) (hne : s.mPendingGetSimStatus ≠ some q.result) :
    ∃ u, firstOnAfter s q.time = some u := by
  cases hf : firstOnAfter s q.time with
  | some u => exact ⟨u, rfl⟩
  | none =>
    have htimes := hi.deferred q hq hoff
    rw [hf] at htimes
    exact absurd ((hi.waiting q.result).mp ⟨⟨q, hq, rfl⟩, htimes⟩) hne

/-- Nobody waits while the radio is on. -/
theorem Kept.none_of_on {s : State} (hi : Kept s) (hon : s.mState = .radioOn) :
    s.mPendingGetSimStatus = none := by
  by_contra hne
  exact hi.waiting_off hne hon

/-- A query made while the radio is on. -/
theorem kept_passed {s s' : State} (hh : History s) (hi : Kept s) (hon : s.mState = .radioOn)
    (hq : s'.queries = s.queries ++ [⟨s.queries.length, s.time, true⟩])
    (hpass : s'.passedOn = s.passedOn ++ [(s.queries.length, s.time)])
    (hsw : s'.switchedOn = s.switchedOn)
    (hpend : s'.mPendingGetSimStatus = s.mPendingGetSimStatus) : Kept s' := by
  have hnone : s'.mPendingGetSimStatus = none := hpend.trans (hi.none_of_on hon)
  have hold : ∀ q ∈ s.queries, timesPassedOn s' q.result = timesPassedOn s q.result := by
    intro q hmem
    have hne : s.queries.length ≠ q.result := Nat.ne_of_gt (hh.queries_result q hmem)
    rw [timesPassedOn_append hpass, if_neg hne, List.append_nil]
  have hnew : timesPassedOn s' s.queries.length = [s.time] := by
    rw [timesPassedOn_append hpass, if_pos rfl, timesPassedOn_new hh, List.nil_append]
  refine ⟨⟨?_, ?_, ?_⟩, fun hne => absurd hnone hne⟩
  · intro q hmem hqon
    rcases mem_called hq hmem with hmem | rfl
    · rw [hold q hmem]
      exact hi.notLost.immediate q hmem hqon
    · exact hnew
  · intro q hmem hoff
    rcases mem_called hq hmem with hmem | rfl
    · rw [hold q hmem, firstOnAfter, hsw]
      exact hi.notLost.deferred q hmem hoff
    · exact absurd hoff (by simp)
  · intro m
    rw [hnone]
    refine ⟨?_, fun h => absurd h (by simp)⟩
    rintro ⟨⟨q, hmem, rfl⟩, htimes⟩
    rcases mem_called hq hmem with hmem | rfl
    · rw [hold q hmem] at htimes
      rw [← hi.none_of_on hon]
      exact (hi.notLost.waiting q.result).mp ⟨⟨q, hmem, rfl⟩, htimes⟩
    · exact absurd (hnew.symm.trans htimes) (by simp)

/-- A query made while the radio is not on, nobody waiting. -/
theorem kept_kept {s s' : State} (hh : History s) (hi : Kept s) (hoff : s'.mState ≠ .radioOn)
    (hnone : s.mPendingGetSimStatus = none)
    (hq : s'.queries = s.queries ++ [⟨s.queries.length, s.time, false⟩])
    (hpass : s'.passedOn = s.passedOn) (hsw : s'.switchedOn = s.switchedOn)
    (hpend : s'.mPendingGetSimStatus = some s.queries.length) : Kept s' := by
  have htimes := timesPassedOn_same hpass
  refine ⟨⟨?_, ?_, ?_⟩, fun _ => hoff⟩
  · intro q hmem hqon
    rcases mem_called hq hmem with hmem | rfl
    · rw [htimes]
      exact hi.notLost.immediate q hmem hqon
    · exact absurd hqon (by simp)
  · intro q hmem hqoff
    rcases mem_called hq hmem with hmem | rfl
    · rw [htimes, firstOnAfter, hsw]
      exact hi.notLost.deferred q hmem hqoff
    · rw [htimes, timesPassedOn_new hh, firstOnAfter_now hh hsw]
      rfl
  · intro m
    rw [hpend, htimes]
    constructor
    · rintro ⟨⟨q, hmem, rfl⟩, hnil⟩
      rcases mem_called hq hmem with hmem | rfl
      · have hwait := (hi.notLost.waiting q.result).mp ⟨⟨q, hmem, rfl⟩, hnil⟩
        exact absurd (hnone.symm.trans hwait) (by simp)
      · rfl
    · rintro ⟨⟩
      refine ⟨⟨⟨s.queries.length, s.time, false⟩, ?_, rfl⟩, timesPassedOn_new hh⟩
      rw [hq]
      simp

/-- The radio comes up and nobody waits. -/
theorem kept_switchedOn {s s' : State} (hh : History s) (hi : Kept s)
    (hnone : s.mPendingGetSimStatus = none) (hq : s'.queries = s.queries)
    (hpass : s'.passedOn = s.passedOn) (hsw : s'.switchedOn = s.switchedOn ++ [s.time])
    (hpend : s'.mPendingGetSimStatus = none) : Kept s' := by
  have htimes := timesPassedOn_same hpass
  refine ⟨⟨?_, ?_, ?_⟩, fun hne => absurd hpend hne⟩
  · intro q hmem hqon
    rw [hq] at hmem
    rw [htimes]
    exact hi.notLost.immediate q hmem hqon
  · intro q hmem hqoff
    rw [hq] at hmem
    obtain ⟨u, hu⟩ := firstOnAfter_of_not_waiting hi.notLost hmem hqoff (by simp [hnone])
    rw [htimes, firstOnAfter_append hsw (hh.queries_time q hmem),
      hi.notLost.deferred q hmem hqoff, hu, Option.getD_some]
  · intro m
    rw [hq, htimes, hpend, ← hnone]
    exact hi.notLost.waiting m

/-- The radio comes up and the Message waiting is passed on. -/
theorem kept_resumed {s s' : State} {m : Message} (hh : History s) (hi : Kept s)
    (hm : s.mPendingGetSimStatus = some m) (hq : s'.queries = s.queries)
    (hpass : s'.passedOn = s.passedOn ++ [(m, s.time)])
    (hsw : s'.switchedOn = s.switchedOn ++ [s.time])
    (hpend : s'.mPendingGetSimStatus = none) : Kept s' := by
  have hnil : timesPassedOn s m = [] := ((hi.notLost.waiting m).mpr hm).2
  refine ⟨⟨?_, ?_, ?_⟩, fun hne => absurd hpend hne⟩
  · intro q hmem hqon
    rw [hq] at hmem
    have himm := hi.notLost.immediate q hmem hqon
    have hne : m ≠ q.result := by
      rintro rfl
      exact absurd (hnil.symm.trans himm) (by simp)
    rw [timesPassedOn_append hpass, if_neg hne, List.append_nil]
    exact himm
  · intro q hmem hqoff
    rw [hq] at hmem
    have hdef := hi.notLost.deferred q hmem hqoff
    rw [timesPassedOn_append hpass, firstOnAfter_append hsw (hh.queries_time q hmem), hdef]
    by_cases hqm : m = q.result
    · -- the query that waited: there was no switch before this one
      rw [← hqm, hnil] at hdef
      rw [if_pos hqm, ← hdef]
      cases hf : firstOnAfter s q.time with
      | none => rfl
      | some u => rw [hf] at hdef; exact absurd hdef (by simp)
    · obtain ⟨u, hu⟩ := firstOnAfter_of_not_waiting hi.notLost hmem hqoff
        (by simpa [hm] using hqm)
      rw [if_neg hqm, hu]
      rfl
  · intro m'
    rw [hpend, hq, timesPassedOn_append hpass]
    refine ⟨?_, fun h => absurd h (by simp)⟩
    rintro ⟨hex, happ⟩
    obtain ⟨hnil', hif⟩ := List.append_eq_nil_iff.mp happ
    have hwait := (hi.notLost.waiting m').mp ⟨hex, hnil'⟩
    rw [hm, Option.some.injEq] at hwait
    rw [if_pos hwait] at hif
    exact absurd hif (by simp)

theorem kept_step {s s' : State} {a : Action} (hh : History s) (hi : Kept s) (hok : NobodyWaits s a)
    (he : Effect s a s') : Kept s' := by
  cases he with
  | passed hon => exact kept_passed hh hi hon rfl rfl rfl rfl
  | kept hoff => exact kept_kept hh hi hoff (hok hoff) rfl rfl rfl rfl
  | ignored => exact ⟨⟨hi.notLost.immediate, hi.notLost.deferred, hi.notLost.waiting⟩, hi.waiting_off⟩
  | switchedOff _ n newState hne hoff =>
    exact ⟨⟨hi.notLost.immediate, hi.notLost.deferred, hi.notLost.waiting⟩, fun _ => hoff⟩
  | switchedOn _ n hne hnone => exact kept_switchedOn hh hi hnone rfl rfl rfl hnone
  | resumed _ n m hne hm => exact kept_resumed hh hi hm rfl rfl rfl rfl

/-- The excluded step is the one that goes wrong: the Message that waited has not been passed on, and
    nobody holds it any more. -/
theorem overwritten_lost {s s' : State} {a : Action} (hh : History s) (hi : Kept s)
    (hbad : ¬ NobodyWaits s a) (he : Effect s a s') :
    ∃ m, s.mPendingGetSimStatus = some m ∧ timesPassedOn s' m = [] ∧
      s'.mPendingGetSimStatus ≠ some m ∧ ¬ NotLost s' := by
  cases he with
  | passed hon => exact absurd (fun hoff => absurd hon hoff) hbad
  | kept hoff =>
    simp only [NobodyWaits, not_forall] at hbad
    obtain ⟨_, hne⟩ := hbad
    obtain ⟨m, hm⟩ := Option.ne_none_iff_exists'.mp hne
    obtain ⟨⟨q, hmem, hqm⟩, hnil⟩ := (hi.notLost.waiting m).mpr hm
    have hother : s.queries.length ≠ m := Nat.ne_of_gt (hh.pending_result m hm)
    refine ⟨m, hm, hnil, by simpa using hother, fun hall => ?_⟩
    have hwait := (hall.waiting m).mp ⟨⟨q, by simp [hmem], hqm⟩, hnil⟩
    exact hother (by simpa using hwait)
  | ignored a n hne | switchedOff a n newState hne | switchedOn a n hne | resumed a n m hne =>
    cases a with
    | getIccCardStatus => exact absurd rfl hne
    | switchToRadioState | radioStateChanged => exact absurd trivial hbad

section

variable {getRadioStateFromInt : Int → Option RadioState}

theorem run_history {ok : State → Action → Prop} {mState : RadioState} {s : State}
    (hrun : Run (step getRadioStateFromInt) ok (State.init mState) s) : History s :=
  hrun.inv (history_init mState) fun _ _ _ hh _ hs => history_step hh (step_effect hs)

theorem run_kept {mState : RadioState} {s : State}
    (hrun : Run (step getRadioStateFromInt) NobodyWaits (State.init mState) s) : Kept s :=
  hrun.inv_staged (kept_init mState) fun _ _ _ hpre hi hok hs =>
    kept_step (run_history hpre) hi hok (step_effect hs)

end

/-- **No deferred query is lost** in a run where no query has to wait while another one waits. -/
theorem queries_not_lost (getRadioStateFromInt : Int → Option RadioState) (mState : RadioState)
    (s : State) (hrun : Run (step getRadioStateFromInt) NobodyWaits (State.init mState) s) :
    NotLost s :=
  (run_kept hrun).notLost

/-- `RIL.getRadioStateFromInt`. -/
def radioStates (state : Int) : Option RadioState :=
  if state = 0 then some .radioOff
  else if state = 1 then some .radioUnavailable
  else if state = 10 then some .radioOn
  else none

/-- A query waits until the modem reports state 4, another is passed on at once, a third waits again. -/
theorem queries_not_lost_twice :
    ∃ s, Run (step radioStates) NobodyWaits (State.init .radioUnavailable) s ∧ NotLost s ∧
      s.passedOn = [(0, 1), (1, 2)] ∧ s.mPendingGetSimStatus = some 2 := by
  have hrun := run_of_exec (step radioStates) NobodyWaits (State.init .radioUnavailable)
    [.getIccCardStatus, .radioStateChanged 4, .getIccCardStatus,
      .switchToRadioState .radioUnavailable, .getIccCardStatus]
    ⟨fun _ => rfl, trivial, fun h => absurd rfl h, trivial, fun _ => rfl, trivial⟩ rfl
  exact ⟨_, hrun, queries_not_lost radioStates .radioUnavailable _ hrun, rfl, rfl⟩

/-- Two queries before the radio comes up: the first is never passed on. -/
theorem query_overwritten :
    ¬ ∀ (mState : RadioState) (s : State),
      Reach (step radioStates) (State.init mState) s → NotLost s := by
  intro hall
  have hrun := reach_of_exec (step radioStates) (State.init .radioUnavailable)
    [.getIccCardStatus, .getIccCardStatus, .radioStateChanged 4] rfl
  have hlost := (hall .radioUnavailable _ hrun).deferred ⟨0, 0, false⟩ (by decide) rfl
  exact absurd hlost (by decide)

end Codina.Ril.SimStatus
