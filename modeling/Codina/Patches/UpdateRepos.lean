/-
  `update_repos`: which patches are there after a run in which git may fail.

  For every selected project the script asks git for the base revision, creates the project's directory
  below ROOT, asks for a merge base, removes the directory's files and has git write the new series.
  Three of these steps are in the wrong place.  The directory is created before anything is known, also
  in a dry run.  The old series is removed before the new one exists.  And nobody asks whether
  `format-patch` succeeded.

  So a run loses nothing when, of every project that is not updated to the end, the directory was there
  and the files left in it are those it had (`Keeps`), which for a failed `format-patch` that wrote
  nothing means that there were none.  Where no selected project lies inside another's directory, that
  is also necessary (`patches_kept_iff`).

  git is anything that answers; the tree below ROOT is what it does to it.  `resolve` is how the system
  takes a path apart.
-/
import Codina.Lib.Tree
import Codina.Patches.Upstream

namespace Codina.Patches

open Codina.Dirs

/-! ## git -/

/-- `p.stdout.read().split("\n")[0]`. -/
def firstLine (stdout : String) : String := String.ofList (stdout.toList.takeWhile (· ≠ '\n'))

/-- The answer of `git rev-parse`.  It may print something and fail all the same. -/
structure RevParse where
  ok : Bool
  stdout : String
  prints : ok = true → firstLine stdout ≠ ""

/-- The answer of `git merge-base`, which prints the base it finds. -/
structure MergeBase where
  ok : Bool
  stdout : String
  prints : ok = true ↔ stdout ≠ ""

/-- What `git format-patch` leaves in its directory, by file name. -/
structure FormatPatch (C : Type) where
  ok : Bool
  written : String → Option C

/-- git, as it answers while one project is handled. -/
structure Git (C : Type) where
  revParse : String → RevParse
  mergeBase : String → MergeBase
  formatPatch : String → FormatPatch C

/-! ## The script -/

/-- A project handled without an exception: the tree before, its directory, the revision asked for, and
    what git answered. -/
structure Visit (C : Type) where
  before : Tree String C
  dir : List String
  revision : String
  git : Git C

namespace Visit

variable {C : Type} (v : Visit C)

def revParse : RevParse := v.git.revParse v.revision

/-- `rev_parse`. -/
def base : String := firstLine v.revParse.stdout

def mergeBase : MergeBase := v.git.mergeBase v.base

def formatPatch : FormatPatch C := v.git.formatPatch v.base

end Visit

section Script

variable {C : Type} (resolve : String → List String) (remotes : Remotes) (dry_run : Bool)

/-- The body of the loop for a selected project; `none` where an OSError ends the script. -/
def updateProject (v : Visit C) : Option (Tree String C) :=
  -- if not os.path.exists(path): os.makedirs(path)
  match created v.dir v.before with
  | none => none
  | some t =>
    if v.base ≠ "" then
      -- no common merge base found
      if v.mergeBase.stdout = "" then some t
      else if dry_run = false then
        -- os.listdir raises where there is no directory
        if isDir (t v.dir) then some (replaceFiles v.dir v.formatPatch.written t) else none
      else some t
    else some t

/-- The tree a run leaves, and the projects it handled. -/
structure Result (C : Type) where
  tree : Tree String C
  visits : List (Visit C)

/-- `update_repos`, with git's answers beside each project. -/
def update_repos (repos : List String) :
    List (Project × Git C) → Tree String C → Result C
  | [], t => ⟨t, []⟩
  | (p, git) :: projects, t =>
    if isSelected (reposOrAll repos) p then
      match updateRevision remotes p with
      | .error _ => ⟨t, []⟩
      | .ok revision =>
        let v : Visit C := ⟨t, resolve p.path, revision, git⟩
        match updateProject dry_run v with
        | none => ⟨t, []⟩
        | some t' =>
          let others := update_repos repos projects t'
          { others with visits := v :: others.visits }
    else update_repos repos projects t

/-! ## What should be left -/

/-- The project is updated to the end: no dry run, git succeeded three times, and no directory is in
    the way of a patch. -/
structure Succeeded (v : Visit C) : Prop where
  real : dry_run = false
  revParse : v.revParse.ok = true
  mergeBase : v.mergeBase.ok = true
  formatPatch : v.formatPatch.ok = true
  free : ∀ n, isDir (v.before (v.dir ++ [n])) → v.formatPatch.written n = none

/-- What a run should leave of the tree `before`. -/
structure NothingLost (before : Tree String C) (r : Result C) : Prop where
  /-- Only the directories of updated projects change, and what is above them. -/
  untouched : ∀ q, (∀ v ∈ r.visits, Succeeded dry_run v → ¬ q <+: v.dir ∧ ¬ InDir v.dir q) →
    r.tree q = before q
  /-- Above them missing directories are created, no more. -/
  above : ∀ q, (∀ v ∈ r.visits, Succeeded dry_run v → ¬ InDir v.dir q) →
    r.tree q = before q ∨ before q = none ∧ r.tree q = some .dir
  /-- In them the regular files are the new series. -/
  series : ∀ pre v post, r.visits = pre ++ v :: post → Succeeded dry_run v →
    (∀ w ∈ post, w.dir = v.dir → ¬ Succeeded dry_run w) →
    files r.tree v.dir = v.formatPatch.written
  /-- No directory is removed. -/
  directories : ∀ q, isDir (before q) = true → isDir (r.tree q) = true
  /-- A dry run changes nothing. -/
  dry : dry_run = true → r.tree = before

/-- The files of the project's directory are replaced, whether or not git is going to succeed. -/
def Replaces (v : Visit C) : Prop := v.base ≠ "" ∧ v.mergeBase.stdout ≠ "" ∧ dry_run = false

/-- A project that is not updated keeps what it has: its directory was there, and if its files are
    replaced, then by the same. -/
def Keeps (v : Visit C) : Prop :=
  v.before v.dir ≠ none ∧ (Replaces dry_run v → ∀ n, isDir (v.before (v.dir ++ [n])) = false →
    files v.before v.dir n = v.formatPatch.written n)

end Script

/-! ## One project -/

section Steps

variable {C : Type} {resolve : String → List String} {remotes : Remotes} {dry_run : Bool}
  {v : Visit C} {t t' : Tree String C}

/-- **What handling a project does**: its directory is created where there was none, and its files are
    replaced or not. -/
theorem updateProject_cases (h : updateProject dry_run v = some t') :
    ∃ t, created v.dir v.before = some t ∧
      (Replaces dry_run v ∧ t' = replaceFiles v.dir v.formatPatch.written t ∨
        ¬ Replaces dry_run v ∧ t' = t) := by
  unfold updateProject at h
  split at h
  · exact absurd h (by simp)
  · rename_i t ht
    refine ⟨t, ht, ?_⟩
    by_cases hbase : v.base = ""
    · rw [if_neg (not_not.mpr hbase)] at h
      exact Or.inr ⟨fun hr => hr.1 hbase, (Option.some.inj h).symm⟩
    · rw [if_pos hbase] at h
      by_cases hmerge : v.mergeBase.stdout = ""
      · rw [if_pos hmerge] at h
        exact Or.inr ⟨fun hr => hr.2.1 hmerge, (Option.some.inj h).symm⟩
      · rw [if_neg hmerge] at h
        by_cases hdry : dry_run = false
        · rw [if_pos hdry] at h
          split at h
          · exact Or.inl ⟨⟨hbase, hmerge, hdry⟩, (Option.some.inj h).symm⟩
          · exact absurd h (by simp)
        · rw [if_neg hdry] at h
          exact Or.inr ⟨fun hr => hdry hr.2.2, (Option.some.inj h).symm⟩

/-- A project that succeeds has its files replaced. -/
theorem Succeeded.replaces (h : Succeeded dry_run v) : Replaces dry_run v :=
  ⟨v.revParse.prints h.revParse, v.mergeBase.prints.mp h.mergeBase, h.real⟩

/-- Outside the project's directory, missing directories above it are created, no more. -/
theorem updateProject_outside (h : updateProject dry_run v = some t') {q : List String}
    (hq : ¬ InDir v.dir q) :
    t' q = v.before q ∨ q <+: v.dir ∧ v.before v.dir = none ∧ v.before q = none ∧
      t' q = some .dir := by
  obtain ⟨t, ht, hcase⟩ := updateProject_cases h
  have hsame : t' q = t q := by
    rcases hcase with ⟨_, rfl⟩ | ⟨_, rfl⟩
    · exact replaceFiles_other _ _ _ hq
    · rfl
  rw [hsame]
  exact created_apply ht q

/-- Inside it, the files are replaced or not, and the directories stay. -/
theorem updateProject_inside (h : updateProject dry_run v = some t') (n : String) :
    (Replaces dry_run v → t' (v.dir ++ [n]) =
      if isDir (v.before (v.dir ++ [n])) then v.before (v.dir ++ [n])
      else (v.formatPatch.written n).map Node.file) ∧
    (¬ Replaces dry_run v → t' (v.dir ++ [n]) = v.before (v.dir ++ [n])) := by
  obtain ⟨t, ht, hcase⟩ := updateProject_cases h
  have hchild : t (v.dir ++ [n]) = v.before (v.dir ++ [n]) := by
    rcases created_apply ht (v.dir ++ [n]) with hsame | ⟨hbelow, _⟩
    · exact hsame
    · have hlen := hbelow.length_le
      rw [List.length_append, List.length_singleton] at hlen
      omega
  rcases hcase with ⟨hr, rfl⟩ | ⟨hr, rfl⟩
  · exact ⟨fun _ => by rw [replaceFiles_in, hchild], fun hn => absurd hr hn⟩
  · exact ⟨fun hr' => absurd hr' hr, fun _ => hchild⟩

/-- **A project that keeps what it has leaves the tree alone.** -/
theorem Keeps.unchanged (hk : Keeps dry_run v) (h : updateProject dry_run v = some t') :
    t' = v.before := by
  obtain ⟨t, ht, hcase⟩ := updateProject_cases h
  obtain rfl := created_of_exists ht hk.1
  rcases hcase with ⟨hr, rfl⟩ | ⟨_, rfl⟩
  · exact replaceFiles_same (hk.2 hr)
  · rfl

/-- And only such a project does, in its directory and among its files. -/
theorem keeps_of_unchanged (h : updateProject dry_run v = some t') (hdir : t' v.dir = v.before v.dir)
    (hfiles : ∀ n, t' (v.dir ++ [n]) = v.before (v.dir ++ [n])) : Keeps dry_run v := by
  constructor
  · intro hnone
    obtain ⟨t, ht, hcase⟩ := updateProject_cases h
    have hmade : t' v.dir = some .dir := by
      rcases hcase with ⟨_, rfl⟩ | ⟨_, rfl⟩
      · rw [replaceFiles_other _ _ _ (not_inDir_self _), created_self ht hnone]
      · exact created_self ht hnone
    rw [hmade, hnone] at hdir
    exact absurd hdir (by simp)
  · intro hr n hn
    have hnode := (updateProject_inside h n).1 hr
    rw [hn, if_neg (by decide), hfiles n] at hnode
    exact files_of_map hnode

/-! ## A whole run -/

/-- One project after another. -/
inductive Chain (dry_run : Bool) : Tree String C → List (Visit C) → Tree String C → Prop
  | nil (t : Tree String C) : Chain dry_run t [] t
  | cons {v : Visit C} {vs : List (Visit C)} {t t' : Tree String C} :
      updateProject dry_run v = some t → Chain dry_run t vs t' → Chain dry_run v.before (v :: vs) t'

/-- The projects a run handles are handled one after another. -/
theorem update_repos_chain (repos : List String) (projects : List (Project × Git C)) :
    ∀ t : Tree String C, Chain dry_run t
      (update_repos resolve remotes dry_run repos projects t).visits
      (update_repos resolve remotes dry_run repos projects t).tree := by
  induction projects with
  | nil => exact Chain.nil
  | cons pg projects ih =>
    intro t
    obtain ⟨p, git⟩ := pg
    unfold update_repos
    by_cases hsel : isSelected (reposOrAll repos) p
    · rw [if_pos hsel]
      cases updateRevision remotes p with
      | error e => exact Chain.nil t
      | ok revision =>
        cases hup : updateProject dry_run ⟨t, resolve p.path, revision, git⟩ with
        | none =>
          simp only [hup]
          exact Chain.nil t
        | some t' =>
          simp only [hup]
          exact Chain.cons hup (ih t')
    · rw [if_neg hsel]
      exact ih t

/-- What no visited project has inside its directory or above it is as it was. -/
theorem Chain.unchanged {vs : List (Visit C)} (h : Chain dry_run t vs t') {q : List String}
    (hq : ∀ v ∈ vs, ¬ q <+: v.dir ∧ ¬ InDir v.dir q) : t' q = t q := by
  induction h with
  | nil t => rfl
  | @cons v vs t t' hup _ ih =>
    obtain ⟨habove, hin⟩ := hq v List.mem_cons_self
    rw [ih fun w hw => hq w (List.mem_cons_of_mem _ hw)]
    rcases updateProject_outside hup hin with hsame | ⟨hbelow, _⟩
    · exact hsame
    · exact absurd hbelow habove

theorem Chain.append {vs ws : List (Visit C)} (h : Chain dry_run t (vs ++ ws) t') :
    ∃ mid, Chain dry_run t vs mid ∧ Chain dry_run mid ws t' := by
  induction vs generalizing t with
  | nil => exact ⟨t, Chain.nil t, h⟩
  | cons v vs ih =>
    cases h with
    | cons hup hrest =>
      obtain ⟨mid, hvs, hws⟩ := ih hrest
      exact ⟨mid, Chain.cons hup hvs, hws⟩

/-- The regular files of a directory that no later project updates. -/
theorem NothingLost.files_eq {r : Result C} (h : NothingLost dry_run t r) {d : List String}
    (hd : ∀ w ∈ r.visits, w.dir = d → ¬ Succeeded dry_run w) : files r.tree d = files t d := by
  funext n
  have hnot : ∀ w ∈ r.visits, Succeeded dry_run w → ¬ InDir w.dir (d ++ [n]) := by
    intro w hw hs hin
    exact hd w hw (inDir_iff.mp hin) hs
  unfold files
  rcases h.above (d ++ [n]) hnot with hsame | ⟨hnone, hdir⟩
  · rw [hsame]
  · rw [hnone, hdir]

/-- A project that succeeds, in front of a run that loses nothing. -/
theorem NothingLost.cons_succeeded {vs : List (Visit C)} {mid : Tree String C}
    (hup : updateProject dry_run v = some mid) (hs : Succeeded dry_run v)
    (h : NothingLost dry_run mid ⟨t', vs⟩) : NothingLost dry_run v.before ⟨t', v :: vs⟩ := by
  constructor
  case untouched =>
    intro q hq
    obtain ⟨habove, hin⟩ := hq v List.mem_cons_self hs
    refine (h.untouched q fun w hw => hq w (List.mem_cons_of_mem _ hw)).trans ?_
    rcases updateProject_outside hup hin with hsame | ⟨hbelow, _⟩
    · exact hsame
    · exact absurd hbelow habove
  case above =>
    intro q hq
    have hlater := h.above q fun w hw => hq w (List.mem_cons_of_mem _ hw)
    rcases updateProject_outside hup (hq v List.mem_cons_self hs) with hsame | ⟨_, _, hnone, hmade⟩
    · rwa [hsame] at hlater
    · refine Or.inr ⟨hnone, ?_⟩
      rcases hlater with hkept | ⟨hnone', _⟩
      · exact hkept.trans hmade
      · rw [hmade] at hnone'
        exact absurd hnone' (by simp)
  case series =>
    intro pre w post hsplit hw hlast
    cases pre with
    | nil =>
      obtain ⟨rfl, rfl⟩ := List.cons.inj hsplit
      refine (h.files_eq hlast).trans (funext fun n => ?_)
      have hnode := (updateProject_inside hup n).1 hs.replaces
      by_cases hdir : isDir (v.before (v.dir ++ [n])) = true
      · rw [if_pos hdir] at hnode
        rw [files_of_isDir (hnode ▸ hdir), hs.free n hdir]
      · rw [if_neg hdir] at hnode
        exact files_of_map hnode
    | cons u pre =>
      obtain ⟨_, hrest⟩ := List.cons.inj hsplit
      exact h.series pre w post hrest hw hlast
  case directories =>
    intro q hq
    refine h.directories q ?_
    by_cases hin : InDir v.dir q
    · obtain ⟨n, rfl⟩ := hin
      rw [(updateProject_inside hup n).1 hs.replaces, if_pos hq]
      exact hq
    · rcases updateProject_outside hup hin with hsame | ⟨_, _, _, hmade⟩
      · rwa [hsame]
      · rw [hmade]
        rfl
  case dry =>
    intro hdry
    exact absurd (hdry.symm.trans hs.real) (by decide)

/-- A project that is not updated and keeps what it has, in front of one. -/
theorem NothingLost.cons_keeps {vs : List (Visit C)} {mid : Tree String C}
    (hup : updateProject dry_run v = some mid) (hk : Keeps dry_run v)
    (hns : ¬ Succeeded dry_run v) (h : NothingLost dry_run mid ⟨t', vs⟩) :
    NothingLost dry_run v.before ⟨t', v :: vs⟩ := by
  obtain rfl := hk.unchanged hup
  constructor
  case untouched =>
    intro q hq
    exact h.untouched q fun w hw => hq w (List.mem_cons_of_mem _ hw)
  case above =>
    intro q hq
    exact h.above q fun w hw => hq w (List.mem_cons_of_mem _ hw)
  case series =>
    intro pre w post hsplit hw hlast
    cases pre with
    | nil =>
      obtain ⟨rfl, _⟩ := List.cons.inj hsplit
      exact absurd hw hns
    | cons u pre =>
      obtain ⟨_, hrest⟩ := List.cons.inj hsplit
      exact h.series pre w post hrest hw hlast
  case directories => exact h.directories
  case dry => exact h.dry

/-- **The run lemma**: projects that are updated to the end or keep what they have lose nothing. -/
theorem Chain.nothingLost {vs : List (Visit C)} (h : Chain dry_run t vs t')
    (hcond : ∀ v ∈ vs, Succeeded dry_run v ∨ Keeps dry_run v) :
    NothingLost dry_run t ⟨t', vs⟩ := by
  induction h with
  | nil t =>
    constructor
    case untouched => intro q _; rfl
    case above => intro q _; exact Or.inl rfl
    case series =>
      intro pre v post hsplit
      exact absurd hsplit (by simp)
    case directories => intro q hq; exact hq
    case dry => intro _; rfl
  | @cons v vs t t' hup _ ih =>
    have hrest := ih fun w hw => hcond w (List.mem_cons_of_mem _ hw)
    by_cases hs : Succeeded dry_run v
    · exact hrest.cons_succeeded hup hs
    · exact hrest.cons_keeps hup ((hcond v List.mem_cons_self).resolve_left hs) hs

/-- No project's directory lies inside another's. -/
def Apart (vs : List (Visit C)) : Prop :=
  vs.Pairwise fun v w => ¬ v.dir <+: w.dir ∧ ¬ w.dir <+: v.dir

/-- **And the converse**: a project that is not updated and does not keep what it has loses something
    that no other project makes good. -/
theorem Chain.keeps {vs : List (Visit C)} (h : Chain dry_run t vs t') (hapart : Apart vs)
    (hlost : NothingLost dry_run t ⟨t', vs⟩) :
    ∀ v ∈ vs, Succeeded dry_run v ∨ Keeps dry_run v := by
  intro v hv
  by_cases hs : Succeeded dry_run v
  · exact Or.inl hs
  · obtain ⟨pre, post, rfl⟩ := List.append_of_mem hv
    obtain ⟨mid, hpre, hmid⟩ := h.append
    obtain ⟨_, hvpost, hcross⟩ := List.pairwise_append.mp hapart
    have hpost := List.pairwise_cons.mp hvpost
    cases hmid with
    | cons hup hrest =>
      rename_i after
      -- neither what is at the directory nor what is in it is another project's business
      have hothers : ∀ w ∈ pre ++ post, ¬ v.dir <+: w.dir ∧ ¬ w.dir <+: v.dir := by
        intro w hw
        rcases List.mem_append.mp hw with hw | hw
        · exact (hcross w hw v List.mem_cons_self).symm
        · exact hpost.1 w hw
      have hfree : ∀ q, (q = v.dir ∨ InDir v.dir q) → ∀ w ∈ pre ++ post,
          ¬ q <+: w.dir ∧ ¬ InDir w.dir q := by
        intro q hq w hw
        obtain ⟨hvw, hwv⟩ := hothers w hw
        rcases hq with rfl | ⟨n, rfl⟩
        · refine ⟨hvw, ?_⟩
          rintro ⟨m, hm⟩
          exact hwv (hm ▸ List.prefix_append _ _)
        · refine ⟨fun hle => hvw ((List.prefix_append _ _).trans hle), fun hin => ?_⟩
          exact hvw (inDir_iff.mp hin ▸ List.prefix_rfl)
      have hsame : ∀ q, (q = v.dir ∨ InDir v.dir q) → after q = v.before q := by
        intro q hq
        have hbefore := hpre.unchanged fun w hw => hfree q hq w (List.mem_append_left _ hw)
        have hafter := hrest.unchanged fun w hw => hfree q hq w (List.mem_append_right _ hw)
        have hkept := hlost.untouched q fun w hw hsw => by
          rcases List.mem_append.mp hw with hw | hw
          · exact hfree q hq w (List.mem_append_left _ hw)
          · rcases List.mem_cons.mp hw with rfl | hw
            · exact absurd hsw hs
            · exact hfree q hq w (List.mem_append_right _ hw)
        rw [← hafter, hbefore]
        exact hkept
      exact Or.inr (keeps_of_unchanged hup (hsame _ (Or.inl rfl)) fun n => hsame _ (Or.inr ⟨n, rfl⟩))

end Steps

/-- **`update_repos` loses nothing** when every project it handles is updated to the end or keeps what
    it has; and only then, where no selected project lies inside another's directory. -/
theorem patches_kept_iff {C : Type} (resolve : String → List String) (remotes : Remotes)
    (dry_run : Bool) (repos : List String) (projects : List (Project × Git C)) (t : Tree String C) :
    ((∀ v ∈ (update_repos resolve remotes dry_run repos projects t).visits,
        Succeeded dry_run v ∨ Keeps dry_run v) →
      NothingLost dry_run t (update_repos resolve remotes dry_run repos projects t)) ∧
    (Apart (update_repos resolve remotes dry_run repos projects t).visits →
      NothingLost dry_run t (update_repos resolve remotes dry_run repos projects t) →
      ∀ v ∈ (update_repos resolve remotes dry_run repos projects t).visits,
        Succeeded dry_run v ∨ Keeps dry_run v) :=
  have hchain := update_repos_chain repos projects t
  ⟨hchain.nothingLost, hchain.keeps⟩

/-! ## Runs that lose something, and runs that do not -/

/-- git finds the revision and a base, and fails to write the series. -/
def failingGit : Git Nat where
  revParse _ := ⟨true, "abc", by decide⟩
  mergeBase _ := ⟨true, "abc", by decide⟩
  formatPatch _ := ⟨false, fun _ => none⟩

/-- git writes a series of one patch. -/
def workingGit : Git Nat where
  revParse _ := ⟨true, "abc", by decide⟩
  mergeBase _ := ⟨true, "abc", by decide⟩
  formatPatch _ := ⟨true, fun n => if n = "0002.patch" then some 8 else none⟩

/-- ROOT with one project's series, of one patch. -/
def oneSeries : Tree String Nat := fun q =>
  if q = [] ∨ q = ["build"] then some .dir
  else if q = ["build", "0001.patch"] then some (.file 7) else none

/-- ROOT with nothing in it. -/
def emptyRoot : Tree String Nat := fun q => if q = [] then some .dir else none

theorem oneSeries_files (n : String) : isDir (oneSeries (["build"] ++ [n])) = false := by
  have hbelow : ¬ (["build"] ++ [n] = [] ∨ ["build"] ++ [n] = ["build"]) := by simp
  rw [oneSeries, if_neg hbelow]
  split <;> rfl

/-- A run for the project with its own revision. -/
theorem update_repos_one {C : Type} (remotes : Remotes) (dry_run : Bool) (git : Git C)
    (t t' : Tree String C) (d : Remote) (hd : remotes (some "default") = some d)
    (h : updateProject dry_run ⟨t, ["build"], fmt (pyOr none d.name) ++ "/" ++ "lp", git⟩ = some t') :
    update_repos (fun path => [path]) remotes dry_run []
        [(⟨"platform/build", "build", none, some "lp"⟩, git)] t =
      ⟨t', [⟨t, ["build"], fmt (pyOr none d.name) ++ "/" ++ "lp", git⟩]⟩ := by
  have hrev : updateRevision remotes ⟨"platform/build", "build", none, some "lp"⟩ =
      .ok (fmt (pyOr none d.name) ++ "/" ++ "lp") := by
    unfold updateRevision
    rw [remoteOf_ok hd]
    rfl
  unfold update_repos
  rw [if_pos (isSelected_build (some "lp")), hrev]
  simp only [h]
  rfl

/-- The series is replaced by that of a run in which git succeeds, and kept by a dry run. -/
theorem patches_kept_iff_series :
    NothingLost false oneSeries (update_repos (fun path => [path])
      (oneRemote ⟨some "aosp", some "aosp/lp"⟩) false []
      [(⟨"platform/build", "build", none, some "lp"⟩, workingGit)] oneSeries) ∧
    NothingLost true oneSeries (update_repos (fun path => [path])
      (oneRemote ⟨some "aosp", some "aosp/lp"⟩) true []
      [(⟨"platform/build", "build", none, some "lp"⟩, failingGit)] oneSeries) := by
  constructor
  · refine (patches_kept_iff _ _ false [] _ oneSeries).1 ?_
    rw [update_repos_one (oneRemote ⟨some "aosp", some "aosp/lp"⟩) false workingGit oneSeries _
      ⟨some "aosp", some "aosp/lp"⟩ (Function.update_self _ _ _) rfl]
    intro v hv
    obtain rfl := List.mem_singleton.mp hv
    exact Or.inl ⟨rfl, rfl, rfl, rfl, fun n hn => absurd (hn.symm.trans (oneSeries_files n)) (by decide)⟩
  · refine (patches_kept_iff _ _ true [] _ oneSeries).1 ?_
    rw [update_repos_one (oneRemote ⟨some "aosp", some "aosp/lp"⟩) true failingGit oneSeries _
      ⟨some "aosp", some "aosp/lp"⟩ (Function.update_self _ _ _) rfl]
    intro v hv
    obtain rfl := List.mem_singleton.mp hv
    exact Or.inr ⟨fun hnone => absurd (congrArg isDir hnone) (by decide),
      fun hrep => absurd hrep.2.2 (by decide)⟩

/-- The patch is gone when `format-patch` fails; and a dry run creates the directory. -/
theorem patches_lost :
    ¬ NothingLost false oneSeries (update_repos (fun path => [path])
      (oneRemote ⟨some "aosp", some "aosp/lp"⟩) false []
      [(⟨"platform/build", "build", none, some "lp"⟩, failingGit)] oneSeries) ∧
    ¬ NothingLost true emptyRoot (update_repos (fun path => [path])
      (oneRemote ⟨some "aosp", some "aosp/lp"⟩) true []
      [(⟨"platform/build", "build", none, some "lp"⟩, failingGit)] emptyRoot) := by
  constructor
  · rw [update_repos_one (oneRemote ⟨some "aosp", some "aosp/lp"⟩) false failingGit oneSeries _
      ⟨some "aosp", some "aosp/lp"⟩ (Function.update_self _ _ _) rfl]
    intro h
    have hfile := h.untouched ["build", "0001.patch"] fun v hv hs => by
      obtain rfl := List.mem_singleton.mp hv
      exact absurd hs.formatPatch (by decide)
    exact absurd (congrArg isFile hfile) (by decide)
  · rw [update_repos_one (oneRemote ⟨some "aosp", some "aosp/lp"⟩) true failingGit emptyRoot _
      ⟨some "aosp", some "aosp/lp"⟩ (Function.update_self _ _ _) rfl]
    intro h
    have hdir := congrFun (h.dry rfl) ["build"]
    exact absurd (congrArg isDir hdir) (by decide)

end Codina.Patches
