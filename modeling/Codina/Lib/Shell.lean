/-
  Shell scripts over a few paths, commands that fail half way, and a machine that may stop at any time.

  A path is absent or holds files by name (a plain file holds none).  A script copies and creates
  paths, in sequence and under tests for existence.  How each command goes is decided from outside: an
  execution is driven by a list of outcomes, one for each command performed, and stops where the list
  ends.  So "for every list of outcomes" is every way the commands can fail together with every point
  at which the power can go.

  `Triple P p Q C`: from a state and outcomes that satisfy `P`, script `p` either finishes with `Q`, or
  is stopped with `C`.  There is one rule a construct; `C` is what a crash may leave behind.

  Nothing here names a particular script.
-/
import Mathlib.Logic.Function.Basic

namespace Codina.Shell

/-! ## Files -/

/-- The files of a directory, by name. -/
abbrev Dir (Name Data : Type) := Name → Option Data

/-- What every path holds; `none` is a path that does not exist. -/
abbrev Fs (Path Name Data : Type) := Path → Option (Dir Name Data)

section

variable {Path Name Data : Type}

/-- The files of `src` over those of `dst`. -/
def merge (src dst : Dir Name Data) : Dir Name Data := fun n => (src n).or (dst n)

/-- `d` holds every file of `whole`. -/
def Holds (whole d : Dir Name Data) : Prop := ∀ n v, whole n = some v → d n = some v

theorem holds_merge {whole src : Dir Name Data} (h : Holds whole src) (dst : Dir Name Data) :
    Holds whole (merge src dst) := by
  intro n v hv
  rw [merge, h n v hv]
  rfl

end

/-! ## Scripts -/

inductive Command (Path : Type) where
  /-- `cp -r src dst`, to a path that does not exist. -/
  | cp (src dst : Path)
  /-- `cp -r src/* dst/`. -/
  | cpAll (src dst : Path)
  /-- `echo 0 > dst`. -/
  | echo (dst : Path)

/-- The path a command writes. -/
def Command.target {Path : Type} : Command Path → Path
  | .cp _ dst => dst
  | .cpAll _ dst => dst
  | .echo dst => dst

inductive Script (Path : Type) where
  | skip
  | command (c : Command Path)
  | seq (a b : Script Path)
  /-- `if ! ls p > /dev/null ; then a else b fi`. -/
  | ifMissing (p : Path) (a b : Script Path)

/-- How a command goes: a `cp` may fail, and leaves something at its destination. -/
inductive Outcome (Name Data : Type) where
  | success
  | failed (left : Option (Dir Name Data))

/-- The files, and the commands performed so far, each with the files it found. -/
structure Machine (Path Name Data : Type) where
  fs : Fs Path Name Data
  performed : List (Command Path × Fs Path Name Data) := []

section

variable {Path Name Data : Type} [DecidableEq Path]

/-- What is at the destination of a `cp` that goes as `o`; a source that does not exist fails it. -/
def copied (o : Outcome Name Data) (src dst result : Option (Dir Name Data)) :
    Option (Dir Name Data) :=
  match o, src with
  | .failed left, _ => left
  | .success, none => dst
  | .success, some _ => result

def Command.effect (c : Command Path) (o : Outcome Name Data) (fs : Fs Path Name Data) :
    Fs Path Name Data :=
  match c with
  | .cp src dst => Function.update fs dst (copied o (fs src) (fs dst) ((fs dst).or (fs src)))
  | .cpAll src dst => Function.update fs dst
      (copied o (fs src) (fs dst) ((fs dst).map (merge ((fs src).getD fun _ => none))))
  | .echo dst => Function.update fs dst (some fun _ => none)

def Machine.perform (m : Machine Path Name Data) (c : Command Path) (o : Outcome Name Data) :
    Machine Path Name Data :=
  { fs := c.effect o m.fs, performed := m.performed ++ [(c, m.fs)] }

/-- Execute a script.  The outcomes not used are handed on; `none` says that the machine stopped
    before a command for which there was no outcome. -/
def exec : Script Path → Machine Path Name Data → List (Outcome Name Data) →
    Machine Path Name Data × Option (List (Outcome Name Data))
  | .skip, m, outs => (m, some outs)
  | .command _, m, [] => (m, none)
  | .command c, m, o :: outs => (m.perform c o, some outs)
  | .seq a b, m, outs =>
    match exec a m outs with
    | (m', some outs') => exec b m' outs'
    | (m', none) => (m', none)
  | .ifMissing p a b, m, outs => if (m.fs p).isNone then exec a m outs else exec b m outs

/-- A command changes its target only. -/
theorem effect_other {c : Command Path} {p : Path} (h : p ≠ c.target) (o : Outcome Name Data)
    (fs : Fs Path Name Data) : c.effect o fs p = fs p := by
  cases c <;> exact Function.update_of_ne h _ _

/-! ## Pre- and postconditions, and crashes -/

abbrev Assertion (Path Name Data : Type) :=
  Machine Path Name Data → List (Outcome Name Data) → Prop

/-- From `P`, script `p` finishes with `Q` or is stopped with `C`. -/
def Triple (P : Assertion Path Name Data) (p : Script Path) (Q : Assertion Path Name Data)
    (C : Machine Path Name Data → Prop) : Prop :=
  ∀ m outs, P m outs → match exec p m outs with
    | (m', some outs') => Q m' outs'
    | (m', none) => C m'

variable {P Q R : Assertion Path Name Data} {C : Machine Path Name Data → Prop}

theorem triple_skip : Triple Q .skip Q C := fun _ _ h => h

/-- **A command**: it is not performed and the machine stops, or it is performed with some outcome. -/
theorem triple_command {c : Command Path} (hstop : ∀ m, P m [] → C m)
    (hdone : ∀ m o outs, P m (o :: outs) → Q (m.perform c o) outs) : Triple P (.command c) Q C := by
  intro m outs h
  cases outs with
  | nil => exact hstop m h
  | cons o outs => exact hdone m o outs h

/-- **A sequence**: what a crash of either part leaves, a crash of the whole may leave. -/
theorem triple_seq {a b : Script Path} (ha : Triple P a R C) (hb : Triple R b Q C) :
    Triple P (.seq a b) Q C := by
  intro m outs h
  have hfirst := ha m outs h
  simp only [exec]
  cases he : exec a m outs with
  | mk m' rest =>
    rw [he] at hfirst
    cases rest with
    | none => exact hfirst
    | some outs' => exact hb m' outs' hfirst

theorem triple_ifMissing {p : Path} {a b : Script Path}
    (ha : Triple (fun m outs => P m outs ∧ m.fs p = none) a Q C)
    (hb : Triple (fun m outs => P m outs ∧ m.fs p ≠ none) b Q C) :
    Triple P (.ifMissing p a b) Q C := by
  intro m outs h
  simp only [exec]
  by_cases hp : m.fs p = none
  · have hnone : (m.fs p).isNone = true := by rw [hp]; rfl
    rw [if_pos hnone]
    exact ha m outs ⟨h, hp⟩
  · have hsome : ¬ (m.fs p).isNone = true := by simpa using hp
    rw [if_neg hsome]
    exact hb m outs ⟨h, hp⟩

/-- The rule of consequence. -/
theorem Triple.weaken {P' Q' : Assertion Path Name Data} {C' : Machine Path Name Data → Prop}
    {p : Script Path} (h : Triple P p Q C) (hP : ∀ m outs, P' m outs → P m outs)
    (hQ : ∀ m outs, Q m outs → Q' m outs) (hC : ∀ m, C m → C' m) : Triple P' p Q' C' := by
  intro m outs hpre
  have hpost := h m outs (hP m outs hpre)
  cases he : exec p m outs with
  | mk m' rest =>
    rw [he] at hpost
    cases rest with
    | none => exact hC m' hpost
    | some outs' => exact hQ m' outs' hpost

/-- The commands of a script. -/
def Script.commands : Script Path → List (Command Path)
  | .skip => []
  | .command c => [c]
  | .seq a b => a.commands ++ b.commands
  | .ifMissing _ a b => a.commands ++ b.commands

/-- **The invariant rule**: what every command of a script keeps, the script keeps at every point. -/
theorem triple_invariant {I : Machine Path Name Data → Prop} {p : Script Path}
    (h : ∀ c ∈ p.commands, ∀ m (o : Outcome Name Data), I m → I (m.perform c o)) :
    Triple (fun m _ => I m) p (fun m _ => I m) I := by
  induction p with
  | skip => exact triple_skip
  | command c =>
    exact triple_command (fun _ hi => hi) fun m o _ hi => h c (List.mem_singleton_self c) m o hi
  | seq a b iha ihb =>
    refine triple_seq (iha fun c hc => ?_) (ihb fun c hc => ?_)
    · exact h c (List.mem_append_left _ hc)
    · exact h c (List.mem_append_right _ hc)
  | ifMissing p a b iha ihb =>
    refine triple_ifMissing ((iha fun c hc => ?_).weaken (fun _ _ hp => hp.1) (fun _ _ hq => hq)
      fun _ hc => hc) ((ihb fun c hc => ?_).weaken (fun _ _ hp => hp.1) (fun _ _ hq => hq)
      fun _ hc => hc)
    · exact h c (List.mem_append_left _ hc)
    · exact h c (List.mem_append_right _ hc)

/-- What holds both at the end and at every stop holds of the state an execution leaves. -/
theorem Triple.state {p : Script Path} (h : Triple P p (fun m _ => C m) C)
    {m : Machine Path Name Data} {outs : List (Outcome Name Data)} (hpre : P m outs) :
    C (exec p m outs).1 := by
  have hpost := h m outs hpre
  cases he : exec p m outs with
  | mk m' rest =>
    rw [he] at hpost
    cases rest with
    | none => exact hpost
    | some outs' => exact hpost

end

end Codina.Shell
