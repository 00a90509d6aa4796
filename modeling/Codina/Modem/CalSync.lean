/-
  `ste_modem.sh`: the backup of the modem's calibration data.

  The calibration data of the phone is in /modemfs/RFHAL, which an update of the firmware erases, and
  is backed up in /efs/RFHAL.  A guard file beside each says that it is complete.  At every boot the
  script copies from the partition with a guard to the one without, and then writes the missing guard;
  without any guard it puts the default data in place and leaves the guards alone.

  The guard is written whether or not the copy succeeded.  So a `cp` that fails, on a full or a worn
  flash, leaves a partial copy with a guard that says it is complete (`guard_over_partial_copy`), and
  no later boot repairs it.  In runs where no boot goes on to write a guard after a copy that failed and
  left its destination incomplete, both guards can be believed at any time (`calibration_crash_safe`).
  A backup whose guard exists is never written in any run (`backup_never_overwritten`).
-/
import Codina.Lib.Runs
import Codina.Lib.Shell

namespace Codina.Modem

open Codina.Runs Codina.Shell

/-! ## The script -/

/-- The paths the script works on. -/
inductive Path where
  /-- /modemfs/GUARDFIL, /modemfs/RFHAL and /modemfs/rfhal_copied. -/
  | modemfsGuard | modemfsRfhal | rfhaldefCopied
  /-- /efs/GUARDFIL, /efs/RFHAL and /efs/RFHAL.DEF. -/
  | efsGuard | efsRfhal | efsRfhalDef
deriving DecidableEq

open Codina.Modem.Path Codina.Shell.Script

/-- There is no CAL data. Copy the default modem CAL data to modemfs partition. -/
def copyDefault : Script Path :=
  ifMissing modemfsRfhal
    (seq (command (.cp efsRfhalDef modemfsRfhal)) (command (.echo rfhaldefCopied)))
    (ifMissing rfhaldefCopied
      (seq (command (.cpAll efsRfhalDef modemfsRfhal)) (command (.echo rfhaldefCopied)))
      skip)

/-- Copy a partition's data to the other, and write the other's guard. -/
def copyAndGuard (src dst guard : Path) : Script Path :=
  seq (ifMissing dst (command (.cp src dst)) (command (.cpAll src dst))) (command (.echo guard))

/-- modemfs partition is erased. Copy the previous CAL data to modemfs partition. -/
def restore : Script Path := copyAndGuard efsRfhal modemfsRfhal modemfsGuard

def backup : Script Path := copyAndGuard modemfsRfhal efsRfhal efsGuard

/-- The CAL data part of the script. -/
def calSync : Script Path :=
  ifMissing modemfsGuard
    (ifMissing efsGuard copyDefault restore)
    (ifMissing efsGuard backup skip)

/-! ## Boots -/

section

variable {Name Data : Type}

/-- The partitions, and every command performed by a boot so far. -/
abbrev State (Name Data : Type) := Machine Path Name Data

/-- A phone whose partitions hold what they may, but no guard. -/
def State.init (rfhal copied efs default : Option (Dir Name Data)) : State Name Data where
  fs
    | modemfsGuard => none
    | modemfsRfhal => rfhal
    | rfhaldefCopied => copied
    | efsGuard => none
    | efsRfhal => efs
    | efsRfhalDef => default

/-- Whether a path holds all of the calibration data. -/
def CompleteAt (cal : Dir Name Data) (content : Option (Dir Name Data)) : Prop :=
  ∃ d, content = some d ∧ Holds cal d

/-- What the modem writes into its partition: it keeps a guard only with complete data. -/
structure ModemWrite (cal : Dir Name Data) where
  rfhal : Option (Dir Name Data)
  guard : Option (Dir Name Data)
  complete : guard ≠ none → CompleteAt cal rfhal

inductive Action (cal : Dir Name Data) where
  /-- A boot whose commands go as the outcomes say, and which stops after the last of them. -/
  | boot (outs : List (Outcome Name Data))
  /-- /modemfs is erased. -/
  | eraseModemfs
  /-- The modem, which the script starts when it is done, changes its data and its guard. -/
  | modem (w : ModemWrite cal)

def eraseModemfs (fs : Fs Path Name Data) : Fs Path Name Data :=
  Function.update (Function.update (Function.update fs modemfsGuard none) modemfsRfhal none)
    rfhaldefCopied none

def modemWrites {cal : Dir Name Data} (w : ModemWrite cal) (fs : Fs Path Name Data) :
    Fs Path Name Data :=
  Function.update (Function.update fs modemfsRfhal w.rfhal) modemfsGuard w.guard

def step (cal : Dir Name Data) (s : State Name Data) : Action cal → Option (State Name Data)
  | .boot outs => some (exec calSync s outs).1
  | .eraseModemfs => some { s with fs := eraseModemfs s.fs }
  | .modem w => some { s with fs := modemWrites w s.fs }

/-! ## Crash safety -/

/-- No boot has written the backup while its guard existed. -/
def BackupKept (s : State Name Data) : Prop :=
  ∀ e ∈ s.performed, e.1.target = efsRfhal → e.2 efsGuard = none

/-- A guard means complete data beside it, and the backup is kept. -/
structure CrashSafe (cal : Dir Name Data) (s : State Name Data) : Prop where
  efs : s.fs efsGuard ≠ none → CompleteAt cal (s.fs efsRfhal)
  modemfs : s.fs modemfsGuard ≠ none → CompleteAt cal (s.fs modemfsRfhal)
  kept : BackupKept s

/-- The copy succeeds, or leaves its destination complete all the same. -/
def LeavesComplete (cal : Dir Name Data) : Outcome Name Data → Prop
  | .success => True
  | .failed left => CompleteAt cal left

/-- A boot that finds exactly one guard, and so copies and then writes the other one, does not get as
    far as the guard after a copy that failed and left its destination incomplete. -/
def GuardsCompleteCopy (cal : Dir Name Data) (s : State Name Data) : Action cal → Prop
  | .boot outs => (s.fs modemfsGuard = none ↔ s.fs efsGuard ≠ none) →
      ∀ o o' rest, outs = o :: o' :: rest → LeavesComplete cal o
  | _ => True

theorem kept_perform {s : State Name Data} {c : Command Path} (h : BackupKept s)
    (hc : c.target = efsRfhal → s.fs efsGuard = none) (o : Outcome Name Data) :
    BackupKept (s.perform c o) := by
  intro e he ht
  rcases List.mem_append.mp he with he | he
  · exact h e he ht
  · rw [List.mem_singleton] at he
    subst he
    exact hc ht

/-! ### The backup is never overwritten -/

/-- A boot keeps the backup, whatever its guards say. -/
theorem kept_calSync :
    Triple (fun m _ => BackupKept m) calSync (fun m _ => BackupKept m)
      (BackupKept : State Name Data → Prop) := by
  have hother : ∀ {p : Script Path}, (∀ c ∈ p.commands, c.target ≠ efsRfhal) →
      Triple (fun m _ => BackupKept m) p (fun m _ => BackupKept m)
        (BackupKept : State Name Data → Prop) := fun hp =>
    triple_invariant fun c hc _ o h => kept_perform h (fun ht => absurd ht (hp c hc)) o
  have hbackup : Triple (fun m _ => BackupKept m ∧ m.fs efsGuard = none) backup
      (fun m _ => BackupKept m) (BackupKept : State Name Data → Prop) := by
    -- the copy finds no guard, and leaves it alone
    refine triple_seq (R := fun m _ => BackupKept m ∧ m.fs efsGuard = none) ?_ ?_
    · refine (triple_invariant (I := fun m => BackupKept m ∧ m.fs efsGuard = none) ?_).weaken
        (fun _ _ h => h) (fun _ _ h => h) fun _ h => h.1
      intro c hc m o h
      have ht : c.target = efsRfhal := by
        simp only [Script.commands, List.cons_append, List.nil_append, List.mem_cons,
          List.not_mem_nil, or_false] at hc
        rcases hc with rfl | rfl <;> rfl
      exact ⟨kept_perform h.1 (fun _ => h.2) o,
        (effect_other (by rw [ht]; decide) o m.fs).trans h.2⟩
    · exact triple_command (fun _ h => h.1) fun m o _ h =>
        kept_perform h.1 (fun _ => h.2) o
  refine triple_ifMissing (triple_ifMissing ?_ ?_) (triple_ifMissing ?_ ?_)
  · exact (hother (by simp [copyDefault, Script.commands, Command.target])).weaken
      (fun _ _ h => h.1.1) (fun _ _ h => h) fun _ h => h
  · exact (hother (by simp [restore, copyAndGuard, Script.commands, Command.target])).weaken
      (fun _ _ h => h.1.1) (fun _ _ h => h) fun _ h => h
  · exact hbackup.weaken (fun _ _ h => ⟨h.1.1, h.2⟩) (fun _ _ h => h) fun _ h => h
  · exact triple_skip.weaken (fun _ _ h => h.1.1) (fun _ _ h => h) fun _ h => h

/-- **The backup is never overwritten** while its guard exists, in any run. -/
theorem backup_never_overwritten {cal : Dir Name Data} {rfhal copied efs default : Option (Dir Name Data)}
    {s : State Name Data}
    (hrun : Reach (step cal) (State.init rfhal copied efs default) s) : BackupKept s := by
  refine hrun.inv (fun e he => absurd he List.not_mem_nil) fun s a s' hi _ hs => ?_
  cases a with
  | boot outs =>
    cases hs
    exact kept_calSync.state hi
  | eraseModemfs =>
    cases hs
    exact hi
  | modem w =>
    cases hs
    exact hi

/-! ### The guards can be believed -/

variable {cal : Dir Name Data}

/-- A copy of complete data that goes well is complete. -/
theorem complete_copy {src dst : Path} {fs : Fs Path Name Data} {o : Outcome Name Data}
    {c : Command Path} (hsrc : CompleteAt cal (fs src)) (ho : LeavesComplete cal o)
    (hc : (c = .cp src dst ∧ fs dst = none) ∨ (c = .cpAll src dst ∧ fs dst ≠ none)) :
    CompleteAt cal (c.effect o fs dst) := by
  obtain ⟨d, hd, hwhole⟩ := hsrc
  rcases hc with ⟨rfl, hdst⟩ | ⟨rfl, hdst⟩
  · cases o with
    | failed left => simpa [Command.effect, copied, LeavesComplete] using ho
    | success => exact ⟨d, by simp [Command.effect, copied, hd, hdst], hwhole⟩
  · obtain ⟨old, hold⟩ := Option.ne_none_iff_exists'.mp hdst
    cases o with
    | failed left => simpa [Command.effect, copied, LeavesComplete] using ho
    | success =>
      exact ⟨merge d old, by simp [Command.effect, copied, hd, hold], holds_merge hwhole old⟩

/-- What holds while one side, whose data is complete, is copied to the other. -/
structure Copying (cal : Dir Name Data) (src dst guard : Path) (s : State Name Data) : Prop where
  source : CompleteAt cal (s.fs src)
  guarded : s.fs guard ≠ none → CompleteAt cal (s.fs dst)
  kept : BackupKept s

/-- The copy to a side without a guard.  Only if the boot goes on after it is its outcome known to
    leave the data complete. -/
theorem copying_perform {src dst guard : Path} (hsd : src ≠ dst) (hdg : dst ≠ guard)
    (hkept : dst = efsRfhal → guard = efsGuard) {c : Command Path} {m : State Name Data}
    {o : Outcome Name Data} {outs : List (Outcome Name Data)} (hi : Copying cal src dst guard m)
    (hnone : m.fs guard = none)
    (hok : ∀ o₁ o' rest, o :: outs = o₁ :: o' :: rest → LeavesComplete cal o₁)
    (hc : (c = .cp src dst ∧ m.fs dst = none) ∨ (c = .cpAll src dst ∧ m.fs dst ≠ none)) :
    (Copying cal src dst guard (m.perform c o) ∧ (m.perform c o).fs guard = none) ∧
      (outs ≠ [] → CompleteAt cal ((m.perform c o).fs dst)) := by
  have ht : c.target = dst := by rcases hc with ⟨rfl, _⟩ | ⟨rfl, _⟩ <;> rfl
  have hg : (m.perform c o).fs guard = none :=
    (effect_other (by rw [ht]; exact Ne.symm hdg) o m.fs).trans hnone
  have hs : (m.perform c o).fs src = m.fs src := effect_other (by rw [ht]; exact hsd) o m.fs
  refine ⟨⟨⟨?_, fun hne => absurd hg hne, ?_⟩, hg⟩, fun hne => ?_⟩
  · rw [hs]
    exact hi.source
  · exact kept_perform hi.kept (fun he => hkept (ht ▸ he) ▸ hnone) o
  · obtain ⟨o', rest, rfl⟩ := List.exists_cons_of_ne_nil hne
    exact complete_copy hi.source (hok o o' rest rfl) hc

/-- **Copying to a side without a guard**, where the guard is written only after a copy that leaves
    the data complete. -/
theorem copyAndGuard_triple {src dst guard : Path} (hsd : src ≠ dst) (hsg : src ≠ guard)
    (hdg : dst ≠ guard) (hkept : dst = efsRfhal → guard = efsGuard) (hguard : guard ≠ efsRfhal) :
    Triple (fun m outs => (Copying cal src dst guard m ∧ m.fs guard = none) ∧
        ∀ o o' rest, outs = o :: o' :: rest → LeavesComplete cal o)
      (copyAndGuard src dst guard) (fun m _ => Copying cal src dst guard m)
      (Copying cal src dst guard) := by
  refine triple_seq (R := fun m outs => (Copying cal src dst guard m ∧ m.fs guard = none) ∧
    (outs ≠ [] → CompleteAt cal (m.fs dst))) (triple_ifMissing ?_ ?_) ?_
  · exact triple_command (fun _ h => h.1.1.1) fun m o outs h =>
      copying_perform hsd hdg hkept h.1.1.1 h.1.1.2 h.1.2 (Or.inl ⟨rfl, h.2⟩)
  · exact triple_command (fun _ h => h.1.1.1) fun m o outs h =>
      copying_perform hsd hdg hkept h.1.1.1 h.1.1.2 h.1.2 (Or.inr ⟨rfl, h.2⟩)
  · refine triple_command (fun _ h => h.1.1) fun m o outs h => ?_
    obtain ⟨⟨hi, _⟩, hdst⟩ := h
    have hs : (m.perform (.echo guard) o).fs src = m.fs src :=
      effect_other (c := .echo guard) hsg o m.fs
    have hd : (m.perform (.echo guard) o).fs dst = m.fs dst :=
      effect_other (c := .echo guard) hdg o m.fs
    refine ⟨by rw [hs]; exact hi.source, fun _ => by rw [hd]; exact hdst (by simp), ?_⟩
    exact kept_perform (c := .echo guard) hi.kept (fun he => absurd he hguard) o

/-- Without guards there is nothing to believe. -/
structure Unguarded (s : State Name Data) : Prop where
  modemfs : s.fs modemfsGuard = none
  efs : s.fs efsGuard = none
  kept : BackupKept s

theorem Unguarded.crashSafe {s : State Name Data} (h : Unguarded s) : CrashSafe cal s :=
  ⟨fun hne => absurd h.efs hne, fun hne => absurd h.modemfs hne, h.kept⟩

theorem copyDefault_triple :
    Triple (fun m _ => Unguarded m) copyDefault (fun m _ => Unguarded m)
      (Unguarded : State Name Data → Prop) := by
  refine triple_invariant fun c hc m o h => ?_
  have ht : c.target = modemfsRfhal ∨ c.target = rfhaldefCopied := by
    simp only [copyDefault, Script.commands, List.cons_append, List.nil_append, List.append_nil,
      List.mem_cons, List.not_mem_nil, or_false] at hc
    rcases hc with rfl | rfl | rfl | rfl <;> simp [Command.target]
  have hne : modemfsGuard ≠ c.target ∧ efsGuard ≠ c.target ∧ c.target ≠ efsRfhal := by
    rcases ht with ht | ht <;> rw [ht] <;> decide
  refine ⟨?_, ?_, kept_perform h.kept (fun he => absurd he hne.2.2) o⟩
  · exact (effect_other hne.1 o m.fs).trans h.modemfs
  · exact (effect_other hne.2.1 o m.fs).trans h.efs

/-- **A boot is crash-safe**, wherever it stops, unless it goes on to write a guard after a copy that
    failed and left its destination incomplete. -/
theorem calSync_triple :
    Triple (fun m outs => CrashSafe cal m ∧ GuardsCompleteCopy cal m (.boot outs)) calSync
      (fun m _ => CrashSafe cal m) (CrashSafe cal : State Name Data → Prop) := by
  have hrestored : ∀ m : State Name Data, Copying cal efsRfhal modemfsRfhal modemfsGuard m →
      CrashSafe cal m := fun _ h => ⟨fun _ => h.source, h.guarded, h.kept⟩
  have hbackedUp : ∀ m : State Name Data, Copying cal modemfsRfhal efsRfhal efsGuard m →
      CrashSafe cal m := fun _ h => ⟨h.guarded, fun _ => h.source, h.kept⟩
  refine triple_ifMissing (triple_ifMissing ?_ ?_) (triple_ifMissing ?_ ?_)
  · exact copyDefault_triple.weaken (fun _ _ h => ⟨h.1.2, h.2, h.1.1.1.kept⟩)
      (fun _ _ h => h.crashSafe) fun _ h => h.crashSafe
  · refine (copyAndGuard_triple (by decide) (by decide) (by decide) (by decide) (by decide)).weaken
      (fun m outs h => ?_) (fun m _ h => hrestored m h) hrestored
    obtain ⟨⟨⟨hi, hok⟩, hmodemfs⟩, hefs⟩ := h
    exact ⟨⟨⟨hi.efs hefs, fun hne => absurd hmodemfs hne, hi.kept⟩, hmodemfs⟩,
      hok ⟨fun _ => hefs, fun _ => hmodemfs⟩⟩
  · refine (copyAndGuard_triple (by decide) (by decide) (by decide) (by decide) (by decide)).weaken
      (fun m outs h => ?_) (fun m _ h => hbackedUp m h) hbackedUp
    obtain ⟨⟨⟨hi, hok⟩, hmodemfs⟩, hefs⟩ := h
    exact ⟨⟨⟨hi.modemfs hmodemfs, fun hne => absurd hefs hne, hi.kept⟩, hefs⟩,
      hok ⟨fun h => absurd h hmodemfs, fun h => absurd hefs h⟩⟩
  · exact triple_skip.weaken (fun _ _ h => h.1.1.1) (fun _ _ h => h) fun _ h => h

theorem crashSafe_init (rfhal copied efs default : Option (Dir Name Data)) :
    CrashSafe cal (State.init rfhal copied efs default) :=
  Unguarded.crashSafe ⟨rfl, rfl, fun _ he => absurd he List.not_mem_nil⟩

theorem crashSafe_step {s s' : State Name Data} {a : Action cal} (hi : CrashSafe cal s)
    (hok : GuardsCompleteCopy cal s a) (h : step cal s a = some s') : CrashSafe cal s' := by
  cases a with
  | boot outs =>
    cases h
    exact calSync_triple.state ⟨hi, hok⟩
  | eraseModemfs =>
    cases h
    exact ⟨hi.efs, fun hne => absurd rfl hne, hi.kept⟩
  | modem w =>
    cases h
    refine ⟨hi.efs, fun hne => ?_, hi.kept⟩
    exact w.complete (by simpa [modemWrites] using hne)

/-- A failed copy, and the guard after it. -/
theorem exec_failed_copy (src : Path) {dst guard : Path} (hdg : dst ≠ guard) (m : State Name Data)
    (left : Option (Dir Name Data)) (o : Outcome Name Data) (rest : List (Outcome Name Data)) :
    (Shell.exec (copyAndGuard src dst guard) m (.failed left :: o :: rest)).1.fs guard ≠ none ∧
      (Shell.exec (copyAndGuard src dst guard) m (.failed left :: o :: rest)).1.fs dst = left := by
  by_cases hd : m.fs dst = none
  · simp [copyAndGuard, Shell.exec, hd, Machine.perform, Command.effect, copied, hdg]
  · simp [copyAndGuard, Shell.exec, hd, Machine.perform, Command.effect, copied, hdg]

/-- The excluded boot is the one that goes wrong: it leaves a guard beside incomplete data. -/
theorem partial_copy_guarded {s s' : State Name Data} {a : Action cal}
    (hbad : ¬ GuardsCompleteCopy cal s a) (h : step cal s a = some s') : ¬ CrashSafe cal s' := by
  cases a with
  | eraseModemfs | modem => exact absurd trivial hbad
  | boot outs =>
    cases h
    simp only [GuardsCompleteCopy, not_forall] at hbad
    obtain ⟨hone, o, o', rest, rfl, hinc⟩ := hbad
    intro hsafe
    cases o with
    | success => exact hinc trivial
    | failed left =>
      by_cases hm : s.fs modemfsGuard = none
      · have he := hone.mp hm
        have hrun : Shell.exec calSync s (.failed left :: o' :: rest) =
            Shell.exec restore s (.failed left :: o' :: rest) := by
          simp [calSync, Shell.exec, hm, he]
        have hdg : modemfsRfhal ≠ modemfsGuard := by decide
        obtain ⟨hguard, hleft⟩ := exec_failed_copy efsRfhal hdg s left o' rest
        have hcomplete := hsafe.modemfs
        rw [hrun, restore, hleft] at hcomplete
        exact hinc (hcomplete hguard)
      · have he : s.fs efsGuard = none := by
          by_contra hne
          exact hm (hone.mpr hne)
        have hrun : Shell.exec calSync s (.failed left :: o' :: rest) =
            Shell.exec backup s (.failed left :: o' :: rest) := by
          simp [calSync, Shell.exec, hm, he]
        have hdg : efsRfhal ≠ efsGuard := by decide
        obtain ⟨hguard, hleft⟩ := exec_failed_copy modemfsRfhal hdg s left o' rest
        have hcomplete := hsafe.efs
        rw [hrun, backup, hleft] at hcomplete
        exact hinc (hcomplete hguard)

end

/-- **The calibration backup is crash-safe** in a run where no boot writes a guard after a copy that
    failed and left its destination incomplete. -/
theorem calibration_crash_safe {Name Data : Type} (cal : Dir Name Data)
    (rfhal copied efs default : Option (Dir Name Data)) (s : State Name Data)
    (hrun : Run (step cal) (GuardsCompleteCopy cal) (State.init rfhal copied efs default) s) :
    CrashSafe cal s :=
  hrun.inv (crashSafe_init rfhal copied efs default) fun _ _ _ hi hok hs =>
    crashSafe_step hi hok hs

/-- Calibration data in one file. -/
def oneFile : Dir Unit Nat := fun _ => some 7

/-- The modem is calibrated, the backup is interrupted once and then made, /modemfs is erased, and the
    next boot restores it. -/
theorem calibration_crash_safe_restored :
    ∃ s, Run (step oneFile) (GuardsCompleteCopy oneFile) (State.init none none none none) s ∧
      CrashSafe oneFile s ∧ s.fs modemfsGuard ≠ none ∧ CompleteAt oneFile (s.fs modemfsRfhal) := by
  have hrun := run_of_exec (step oneFile) (GuardsCompleteCopy oneFile)
    (State.init none none none none)
    [.modem ⟨some oneFile, some fun _ => none, fun _ => ⟨oneFile, rfl, fun _ _ h => h⟩⟩,
      .boot [.failed (some fun _ => none)], .boot [.success, .success], .eraseModemfs,
      .boot [.success, .success]]
    ⟨trivial, fun _ _ _ _ h => absurd h (by simp), fun _ _ _ _ h => by cases h; exact trivial,
      trivial, fun _ _ _ _ h => by cases h; exact trivial, trivial⟩ rfl
  have hsafe := calibration_crash_safe oneFile none none none none _ hrun
  exact ⟨_, hrun, hsafe, fun h => absurd (congrArg Option.isSome h) (by decide),
    oneFile, rfl, fun _ _ h => h⟩

/-- The modem is calibrated, the copy to /efs fails before its only file, and the guard is written. -/
theorem guard_over_partial_copy :
    ¬ ∀ s, Reach (step oneFile) (State.init none none none none) s → CrashSafe oneFile s := by
  intro hall
  have hrun := reach_of_exec (step oneFile) (State.init none none none none)
    [.modem ⟨some oneFile, some fun _ => none, fun _ => ⟨oneFile, rfl, fun _ _ h => h⟩⟩,
      .boot [.failed (some fun _ => none), .success]] rfl
  obtain ⟨d, hd, hwhole⟩ := (hall _ hrun).efs fun h => absurd (congrArg Option.isSome h) (by decide)
  cases hd
  exact absurd (hwhole () 7 rfl) (by simp)

end Codina.Modem
