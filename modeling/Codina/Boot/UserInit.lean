/-
  `00userinit`: the kernel modules loaded at boot.

  The script tries the modules of modules_list.txt in the order of the file, and then four times those
  that have failed the time before.  So a module that needs another one further down waits for the next
  pass, and a chain of modules each further up than the one it needs takes a pass for every link.

  Five passes do the whole list exactly when every chain of dependencies is a subsequence of the list
  read five times (`userinit_loads`).  If no name is listed twice: when no chain goes against the order
  of the list more than four times.  Six modules listed backwards are one too many
  (`sixth_module_not_loaded`).

  The list is that of the lines which a newline ends (`read` fails on a last line without one, and the
  loop does not see it), each a name.  `insmod` of a module succeeds when the modules it depends on are
  loaded.
-/
import Codina.Lib.Retry
import Mathlib.Logic.Relation

namespace Codina.Boot

open Codina.Retry

variable {Name : Type} (needs : Name → List Name)

/-! ## Dependencies -/

/-- `m` depends on `d`. -/
def DependsOn (m d : Name) : Prop := d ∈ needs m

/-- A listed module that depends, through others or not, on listed modules only. -/
def Loadable (lines : List Name) (m : Name) : Prop :=
  ∀ d, Relation.ReflTransGen (DependsOn needs) m d → d ∈ lines

/-- No module depends on itself. -/
def Acyclic : Prop := ∀ m, ¬ Relation.TransGen (DependsOn needs) m m

variable {needs} in
/-- A chain that leads to a loadable module is made of listed ones. -/
theorem chain_listed {lines c : List Name} {m : Name} (h : ChainTo needs c m)
    (hm : Loadable needs lines m) : ∀ a ∈ c, a ∈ lines := by
  induction h with
  | single m =>
    intro a ha
    rw [List.mem_singleton.mp ha]
    exact hm m .refl
  | @snoc c b m _ hb ih =>
    intro a ha
    rcases List.mem_append.mp ha with ha | ha
    · exact ih (fun d hd => hm d (.head hb hd)) a ha
    · rw [List.mem_singleton.mp ha]
      exact hm m .refl

variable [DecidableEq Name]

/-! ## The script -/

/-- `busybox insmod /system/lib/modules/$line.ko`: the modules loaded then, and the exit status. -/
def insmod (loaded : List Name) (line : Name) : List Name × Nat :=
  if Ready needs loaded line then (loaded.insert line, 0) else (loaded, 1)

/-- A round of a loop: the modules loaded, and the list of those to try again. -/
def tryOne (s : List Name × List Name) (line : Name) : List Name × List Name :=
  let (loaded, status) := insmod needs s.1 line
  if status ≠ 0 then (loaded, s.2 ++ [line]) else (loaded, s.2)

/-- One loop of the script over `lines`. -/
def tryEach (loaded lines : List Name) : List Name × List Name :=
  lines.foldl (tryOne needs) (loaded, [])

/-- The script; `modules_list` is the names in the lines of the file that a newline ends, if there is the
    file. -/
def userinit (modules_list : Option (List Name)) : List Name :=
  match modules_list with
  | none => []
  | some lines =>
    let (loaded, again) := tryEach needs [] lines
    let (loaded, again1) := tryEach needs loaded again
    let (loaded, again2) := tryEach needs loaded again1
    let (loaded, again3) := tryEach needs loaded again2
    again3.foldl (fun loaded line => (insmod needs loaded line).1) loaded

/-! ## The passes -/

variable {needs}

theorem tryOne_eq (loaded again : List Name) (line : Name) :
    tryOne needs (loaded, again) line = (attempt needs loaded line,
      if Ready needs loaded line then again else again ++ [line]) := by
  unfold tryOne insmod attempt
  by_cases hr : Ready needs loaded line
  · simp [hr]
  · simp [hr]

theorem foldl_tryOne (lines : List Name) : ∀ loaded again : List Name,
    lines.foldl (tryOne needs) (loaded, again) =
      (attemptAll needs loaded lines, again ++ failures needs loaded lines) := by
  induction lines with
  | nil =>
    intro loaded again
    rw [failures, List.append_nil]
    rfl
  | cons line lines ih =>
    intro loaded again
    rw [List.foldl_cons, tryOne_eq, ih, attemptAll_cons, failures_cons]
    by_cases hr : Ready needs loaded line
    · rw [if_pos hr, if_pos hr]
    · rw [if_neg hr, if_neg hr, List.append_assoc]
      rfl

theorem tryEach_eq (loaded lines : List Name) :
    tryEach needs loaded lines = (attemptAll needs loaded lines, failures needs loaded lines) := by
  unfold tryEach
  rw [foldl_tryOne, List.nil_append]

theorem foldl_insmod (lines : List Name) : ∀ loaded : List Name,
    lines.foldl (fun loaded line => (insmod needs loaded line).1) loaded =
      attemptAll needs loaded lines := by
  induction lines with
  | nil => exact fun _ => rfl
  | cons line lines ih =>
    intro loaded
    rw [List.foldl_cons, attemptAll_cons, ih]
    unfold insmod attempt
    split <;> rfl

/-- The first pass and the four over what has failed are five rounds. -/
theorem userinit_rounds (lines : List Name) :
    userinit needs (some lines) = rounds needs 5 [] lines := by
  simp only [userinit, tryEach_eq, foldl_insmod]
  rfl

/-! ## What is loaded -/

/-- **What the script loads**: the modules all of whose chains are subsequences of the list read five
    times; where no name is listed twice, those of the loadable ones to which no chain goes against the
    order of the list more than four times. -/
theorem userinit_loads (needs : Name → List Name) (lines : List Name) (m : Name) :
    (m ∈ userinit needs (some lines) ↔
      ∀ c, ChainTo needs c m → c.Sublist (copies 5 lines)) ∧
    (lines.Nodup → Loadable needs lines m →
      (m ∈ userinit needs (some lines) ↔ ∀ c, ChainTo needs c m → backward lines c ≤ 4)) := by
  have hall : m ∈ userinit needs (some lines) ↔
      ∀ c, ChainTo needs c m → c.Sublist (copies 5 lines) := by
    rw [userinit_rounds, rounds_eq, mem_attemptAll_iff]
  refine ⟨hall, fun hnodup hm => ?_⟩
  rw [hall]
  refine forall_congr' fun c => forall_congr' fun hc => ?_
  have hlisted := chain_listed hc hm
  cases c with
  | nil =>
    obtain ⟨pre, hnil, _⟩ := hc.init
    simp at hnil
  | cons x c => exact sublist_copies_iff hnodup hlisted 4

/-! ## Six modules -/

/-- Module `n + 1` needs module `n`. -/
def previous (n : Nat) : List Nat := if n = 0 then [] else [n - 1]

theorem previous_lt {m d : Nat} (h : DependsOn previous m d) : d < m := by
  unfold DependsOn previous at h
  split at h
  · cases h
  · rw [List.mem_singleton.mp h]
    omega

theorem previous_acyclic : Acyclic previous := by
  intro m h
  have hlt : ∀ {a b : Nat}, Relation.TransGen (DependsOn previous) a b → b < a := by
    intro a b hab
    induction hab with
    | single h => exact previous_lt h
    | tail _ h ih => exact Nat.lt_trans (previous_lt h) ih
  exact Nat.lt_irrefl m (hlt h)

/-- A module is loadable where it is listed with all below it. -/
theorem previous_loadable {lines : List Nat} {m : Nat} (h : ∀ d ≤ m, d ∈ lines) : Loadable previous lines m := by
  intro d hd
  refine h d ?_
  induction hd with
  | refl => exact Nat.le_refl m
  | tail _ hstep ih => exact Nat.le_trans (Nat.le_of_lt (previous_lt hstep)) ih

/-- Five modules listed backwards are loaded, so no chain goes against the order more than four times. -/
theorem userinit_loads_five : 4 ∈ userinit previous (some [4, 3, 2, 1, 0]) ∧
    ∀ c, ChainTo previous c 4 → backward [4, 3, 2, 1, 0] c ≤ 4 := by
  have hloadable : Loadable previous [4, 3, 2, 1, 0] 4 := previous_loadable (by decide)
  have hloaded : 4 ∈ userinit previous (some [4, 3, 2, 1, 0]) := by decide
  exact ⟨hloaded, ((userinit_loads previous [4, 3, 2, 1, 0] 4).2 (by decide) hloadable).mp hloaded⟩

/-- Listed backwards, each takes a pass, and there are only five. -/
theorem sixth_module_not_loaded :
    ¬ ∀ (needs : Nat → List Nat) (lines : List Nat), Acyclic needs →
      ∀ m, Loadable needs lines m → m ∈ userinit needs (some lines) := by
  intro hall
  have hloadable : Loadable previous [5, 4, 3, 2, 1, 0] 5 := previous_loadable (by decide)
  have hloaded := hall previous [5, 4, 3, 2, 1, 0] previous_acyclic 5 hloadable
  exact absurd hloaded (by decide)

end Codina.Boot
