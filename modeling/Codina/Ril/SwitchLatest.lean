/-
  The network-type switch: does the latest request win?

  When nothing is pending any more, the modem should have been told the type of the most recent call.
  It need not have been: a call made while the data connection is down drops the handler of an earlier
  call WITHOUT unregistering its receiver, and the next no-connectivity broadcast makes that handler
  send its own, older type after the newer one (`latest_request_overwritten`).

  That is the only way.  In a run where no dropped handler sends a type other than the latest, the
  latest request wins (`latest_request_wins`).  The invariant behind it is `LatestPending`: the type
  of the latest call is the one last written, or the present handler is listening and holds it.
-/
import Codina.Ril.SwitchSteps

namespace Codina.Ril

open Codina.Runs

/-- The network type last written to the modem. -/
def lastWritten (s : State) : Option Int := s.writes.getLast?.map Write.networkType

/-- The call asked for the type the modem was already using, by the test of the RIL itself. -/
def AlreadyUsed (c : Call) : Prop :=
  hasNetworkTypeChanged c.networkType c.platform.networkClass = false

instance (c : Call) : Decidable (AlreadyUsed c) := inferInstanceAs (Decidable (_ = _))

/-- No handler is registered for connectivity events and no request is outstanding. -/
def Quiescent (s : State) : Prop :=
  (∀ h, (s.handlers h).isRegistered = false) ∧ s.mRequestList = []

/-- Once everything is quiet, the type last written is the type of the most recent call, unless that
    call asked for the type in use. -/
def LatestWins (s : State) : Prop :=
  Quiescent s → ∀ c, s.calls.getLast? = some c →
    AlreadyUsed c ∨ lastWritten s = some c.networkType

/-- The handler the RIL refers to is waiting to send the type it holds. -/
def PresentListening (s : State) : Prop :=
  ∃ h, s.mSamsungu8500RILHandler = some h ∧ (s.handlers h).isRegistered = true

/-- A no-connectivity broadcast does not arrive at a handler the RIL has dropped while that handler
    holds another type than the most recent call asked for, unless the present handler is still to
    send that one. -/
def NotOutdated (s : State) : Action → Prop
  | .onReceive h true => PresentListening s ∨
      ∀ c, s.calls.getLast? = some c →
        AlreadyUsed c ∨ (s.handlers h).mDesiredNetworkType = c.networkType
  | _ => True

/-- The invariant: what the latest call asked for has been written, or is what the present handler
    listens for. -/
def LatestPending (s : State) : Prop :=
  ∀ c, s.calls.getLast? = some c → AlreadyUsed c ∨
    (PresentListening s ∨ lastWritten s = some c.networkType) ∧
    ∀ h, s.mSamsungu8500RILHandler = some h → (s.handlers h).isRegistered = true →
      (s.handlers h).mDesiredNetworkType = c.networkType

theorem latestPending_init (networkMode : Int) (p : Platform) :
    LatestPending (State.init networkMode p) := by
  intro c hc
  exact absurd hc (by simp [State.init])

/-- The handlers after handler `h` has sent its request. -/
theorem listening_after_received {s : State} {h h' : HandlerId}
    (hr : (Function.update s.handlers h
      { s.handlers h with isRegistered := false, mDesiredNetworkType := -1 } h').isRegistered = true) :
    h' ≠ h ∧ (s.handlers h').isRegistered = true := by
  by_cases hne : h' = h
  · subst hne
    simp at hr
  · exact ⟨hne, by rwa [Function.update_of_ne hne] at hr⟩

/-- A request that carries the latest type settles the matter, and otherwise the present handler is
    another one and still to send its own. -/
theorem received_latest {s : State} {h : HandlerId} {c : Call} (hi : LatestPending s)
    (hr : (s.handlers h).isRegistered = true) (hok : NotOutdated s (.onReceive h true))
    (hc : s.calls.getLast? = some c) (hu : ¬ AlreadyUsed c) :
    (s.handlers h).mDesiredNetworkType = c.networkType ∨
      ∃ h', h' ≠ h ∧ s.mSamsungu8500RILHandler = some h' ∧ (s.handlers h').isRegistered = true := by
  rcases hok with ⟨h', hcur, hr'⟩ | hdes
  · by_cases hne : h' = h
    · subst hne
      exact Or.inl (((hi c hc).resolve_left hu).2 h' hcur hr)
    · exact Or.inr ⟨h', hne, hcur, hr'⟩
  · exact Or.inl ((hdes c hc).resolve_left hu)

theorem latestPending_step {s s' : State} {a : Action} (hi : LatestPending s)
    (hok : NotOutdated s a) (he : Effect s a s') : LatestPending s' := by
  cases he with
  | direct t r _ =>
    intro c hc
    obtain rfl : _ = c := by simpa [recordCall] using hc
    exact Or.inr ⟨Or.inr (by simp [lastWritten]), fun h hcur => absurd hcur (by simp)⟩
  | unchanged t r _ hch =>
    intro c hc
    obtain rfl : _ = c := by simpa [recordCall] using hc
    exact Or.inl hch
  | deferred t r _ _ =>
    intro c hc
    obtain rfl : _ = c := by simpa [recordCall] using hc
    refine Or.inr ⟨Or.inl ⟨currentHandler s, rfl, by simp⟩, ?_⟩
    intro h hcur _
    obtain rfl : currentHandler s = h := by simpa using hcur
    simp
  | received h hr hb =>
    intro c hc
    by_cases hu : AlreadyUsed c
    · exact Or.inl hu
    have hheld := ((hi c hc).resolve_left hu).2
    refine Or.inr ⟨?_, fun h' hcur hr' => ?_⟩
    · rcases received_latest hi hr hok hc hu with hdes | ⟨h', hne, hcur, hr'⟩
      · exact Or.inr (by simp [lastWritten, hdes])
      · exact Or.inl ⟨h', hcur, by simpa [hne] using hr'⟩
    · obtain ⟨hne, hreg⟩ := listening_after_received hr'
      simp only [Function.update_of_ne hne]
      exact hheld h' hcur hreg
  | handled h c m hq hm =>
    intro c hc
    simp only [PresentListening, update_response]
    exact hi c hc
  | platform | connectivityAction | onLost | ignored | unexpected | answeredNobody
  | answeredCaller | answeredHandler | crashed => exact hi

/-- The excluded step is the one that goes wrong: after it the last type written is not the one the
    latest call asked for, and the present handler is not going to send that one. -/
theorem outdated_overwrites {s s' : State} {a : Action} (he : Effect s a s')
    (hbad : ¬ NotOutdated s a) :
    ¬ PresentListening s' ∧ ∃ c, s'.calls.getLast? = some c ∧ ¬ AlreadyUsed c ∧
      lastWritten s' ≠ some c.networkType := by
  cases he with
  | received h hr hb =>
    simp only [NotOutdated, not_or, not_forall] at hbad
    obtain ⟨habsent, c, hc, hu, hne⟩ := hbad
    refine ⟨?_, c, hc, hu, by simpa [lastWritten] using hne⟩
    rintro ⟨h', hcur, hr'⟩
    exact habsent ⟨h', hcur, (listening_after_received hr').2⟩
  | direct | unchanged | deferred | platform | connectivityAction | onLost | ignored | unexpected
  | answeredNobody | answeredCaller | answeredHandler | handled | crashed =>
    exact absurd trivial hbad

section

variable {Obj Thr : Type} (decode : Decode Obj Thr)

theorem run_latestPending {networkMode : Int} {p : Platform} {s : State}
    (hrun : Run (step decode) NotOutdated (State.init networkMode p) s) : LatestPending s :=
  hrun.inv (latestPending_init networkMode p) fun _ _ _ hi hok hs =>
    latestPending_step hi hok (step_effect hs).2

/-- **The latest request wins** in every run where no dropped handler sends an outdated type. -/
theorem latest_request_wins (networkMode : Int) (p : Platform) (s : State)
    (hrun : Run (step decode) NotOutdated (State.init networkMode p) s) : LatestWins s := by
  intro hq c hc
  rcases run_latestPending decode hrun c hc with hu | ⟨hpend | hlast, _⟩
  · exact Or.inl hu
  · obtain ⟨h, _, hr⟩ := hpend
    exact absurd (hq.1 h) (by simp [hr])
  · exact Or.inr hlast

end

/-- The switch to type 3 takes the deferred path, is overtaken by nobody, and is answered. -/
theorem latest_request_wins_deferred :
    ∃ s, Run (step voidDecode) NotOutdated (State.init 0 dataUp) s ∧ LatestWins s ∧
      lastWritten s = some 3 := by
  have hrun := run_of_exec (step voidDecode) NotOutdated (State.init 0 dataUp)
    [.setPreferredNetworkType 3 true, .platform dataDown, .connectivityAction true,
      .onReceive 0 true, .processSolicited (replyParcel 0 0), .handleMessage 0 0]
    ⟨trivial, trivial, trivial, Or.inl ⟨0, rfl, rfl⟩, trivial, trivial, trivial⟩ rfl
  exact ⟨_, hrun, latest_request_wins voidDecode 0 dataUp _ hrun, rfl⟩

/-- A call for type 3 is deferred, one for type 2 finds the data connection down and is sent at once,
    and the broadcast the first one waited for makes the modem end with type 3. -/
theorem latest_request_overwritten :
    ¬ ∀ (networkMode : Int) (p : Platform) (s : State),
      Reach (step voidDecode) (State.init networkMode p) s → LatestWins s := by
  intro hall
  have hrun := reach_of_exec (step voidDecode) (State.init 0 dataUp)
    [.setPreferredNetworkType 3 true, .platform dataDown, .setPreferredNetworkType 2 true,
      .connectivityAction true, .onReceive 0 true, .processSolicited (replyParcel 0 0),
      .processSolicited (replyParcel 1 0), .handleMessage 0 0]
    rfl
  have hlast := hall 0 dataUp _ hrun ⟨fun h => by cases h <;> rfl, rfl⟩ _ rfl
  rcases hlast with hu | hl
  · exact absurd hu (by decide)
  · exact absurd hl (by decide)

end Codina.Ril
