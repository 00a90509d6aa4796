/-
  `parse_manifests` of the patch scripts: which projects a repo checkout consists of.

  The projects of the default manifest and of those it includes are put into one list; the names in
  remove-project tags of the local manifests are deleted from it; then every project of a local
  manifest replaces the one of its name.

  `Projects.delete` removes the FIRST project of a name only, and `set_by_name` replaces the first one
  only.  A repo manifest may define a name more than once, with different paths.  So a name removed
  once but defined twice stays (`removed_project_stays`), and so does one redefined locally.  The list
  is what it should be exactly when each removed name is removed as often as it is defined, or defined
  again locally, and no name defined locally is left more than once (`resolution_correct_iff`).

  The manifests are the parsed XML trees, with what the scripts read of them.  An exception that ends
  the script is an `Exception`.
-/
import Codina.Lib.Keyed
import Mathlib.Data.List.Count
import Mathlib.Logic.Function.Basic

namespace Codina.Patches

open Codina.Keyed

/-! ## Manifests -/

/-- The attributes of a project tag. -/
structure ProjectTag where
  name : Option String
  path : Option String
  remote : Option String := none
  revision : Option String := none

structure RemoteTag where
  name : Option String
  revision : Option String

structure DefaultTag where
  remote : Option String
  revision : Option String

/-- A manifest: its tags, each kind in the order of the file. -/
structure Manifest where
  remotes : List RemoteTag := []
  default : Option DefaultTag := none
  projects : List ProjectTag := []
  /-- The names of its include tags. -/
  includes : List (Option String) := []
  /-- The names of its remove-project tags. -/
  removes : List (Option String) := []

inductive Exception where
  /-- please specify project name and path -/
  | runtimeError
  | indexError
  | attributeError
  | keyError
  | typeError
  | ioError

/-- The truth value of a string that may be None. -/
def truthy (s : Option String) : Bool := s.any (· ≠ "")

/-! ## `Remote`, `Project` and `Projects` -/

structure Remote where
  name : Option String
  revision : Option String

/-- `Remote.__init__`. -/
def Remote.init (tag_remote : RemoteTag) (tag_default : DefaultTag) : Except Exception Remote :=
  let name := tag_remote.name
  let revision :=
    if tag_default.remote = name ∧ truthy tag_default.revision then tag_default.revision
    else tag_remote.revision
  match revision with
  | some rev =>
    if rev.startsWith "refs/heads/" then
      match name with
      | some n => .ok ⟨name, some (rev.replace "refs/heads" n)⟩
      | none => .error .typeError
    else .ok ⟨name, revision⟩
  | none => .ok ⟨name, none⟩

structure Project where
  name : String
  path : String
  remote : Option String
  revision : Option String
deriving DecidableEq

/-- `Project.__init__`. -/
def Project.init (p : ProjectTag) : Except Exception Project :=
  match p.name, p.path with
  | some name, some path =>
    if name = "" ∨ path = "" then .error .runtimeError else .ok ⟨name, path, p.remote, p.revision⟩
  | _, _ => .error .runtimeError

/-- `Projects._projects`. -/
abbrev Projects := List Project

/-- `Projects.delete`: the first project of that name; past the end of the list there is none. -/
def Projects.delete (name : Option String) (projects : Projects) : Except Exception Projects :=
  if projects.any fun p => some p.name = name then
    .ok (projects.eraseP fun p => some p.name = name)
  else .error .indexError

/-- `Projects.delete`, whatever the key it compares. -/
def Projects.deleteBy (key : Project → String) (k : Option String) (projects : Projects) :
    Except Exception Projects :=
  if projects.any fun p => some (key p) = k then
    .ok (projects.eraseP fun p => some (key p) = k)
  else .error .indexError

/-- `Projects.set_by_name`, whatever the key it compares. -/
def Projects.setBy (key : Project → String) (project : Project) (projects : Projects) :
    Except Exception Projects :=
  match projects.find? fun p => key p = key project with
  | some _ => (projects.deleteBy key (some (key project))).map (· ++ [project])
  | none => .ok (projects ++ [project])

def Projects.get_by_name (name : String) (projects : Projects) : Option Project :=
  projects.find? fun p => p.name = name

/-- `Projects.set_by_name`. -/
def Projects.set_by_name (project : Project) (projects : Projects) : Except Exception Projects :=
  match projects.get_by_name project.name with
  | some _ => (projects.delete (some project.name)).map (· ++ [project])
  | none => .ok (projects ++ [project])

/-! ## `parse_manifests` -/

/-- The remotes by name. -/
abbrev Remotes := Option String → Option Remote

/-- A value that must be there. -/
def orRaise {α : Type} (e : Exception) : Option α → Except Exception α
  | some a => .ok a
  | none => .error e

/-- Read the remotes of a manifest into the dictionary. -/
def addRemotes (default : DefaultTag) (tree : Manifest) (remotes : Remotes) :
    Except Exception Remotes :=
  tree.remotes.foldlM (fun remotes tag => do
    let r ← Remote.init tag default
    return Function.update remotes r.name (some r)) remotes

/-- The manifest an include tag names; `files` are the manifests beside the default one. -/
def included (files : String → Option Manifest) (name : Option String) : Option Manifest :=
  name.bind files

/-- The projects of a local manifest, each replacing the one of its name. -/
def setProjects (tree : Manifest) (projects : Projects) : Except Exception Projects :=
  tree.projects.foldlM (fun projects tag => do
    let p ← Project.init tag
    projects.set_by_name p) projects

def parse_manifests (files : String → Option Manifest) (tree : Manifest)
    (local_manifests : List Manifest) : Except Exception (Projects × Remotes × DefaultTag) := do
  let default ← orRaise .attributeError tree.default
  let remotes ← addRemotes default tree fun _ => none
  let defaultRemote ← orRaise .keyError (remotes default.remote)
  let remotes := Function.update remotes (some "default") (some defaultRemote)
  let projects ← tree.projects.mapM Project.init
  let removes := local_manifests.flatMap Manifest.removes
  -- the script reads a manifest's remotes and projects in one loop; taken apart, only which of two
  -- exceptions comes first may differ
  let custom_manifests ← tree.includes.mapM fun name => orRaise .ioError (included files name)
  let remotes ← custom_manifests.foldlM (fun remotes m => addRemotes default m remotes) remotes
  let more ← custom_manifests.mapM fun m => m.projects.mapM Project.init
  let projects := projects ++ more.flatten
  let projects ← removes.foldlM (fun projects r_name => Projects.delete r_name projects) projects
  let remotes ← local_manifests.foldlM (fun remotes m => addRemotes default m remotes) remotes
  let projects ← local_manifests.foldlM (fun projects m => setProjects m projects) projects
  return (projects, remotes, default)

/-! ## What the result should be -/

/-- The projects that manifests define, in order. -/
def defined (ms : List Manifest) : List Project :=
  (ms.flatMap Manifest.projects).filterMap fun tag => (Project.init tag).toOption

/-- The default manifest and those it includes. -/
def baseManifests (files : String → Option Manifest) (tree : Manifest) : List Manifest :=
  tree :: tree.includes.filterMap (included files)

/-- The result `ps` for the projects `base` of the default manifest and its includes, the projects
    `own` of the local manifests, and the names `removes`. -/
structure Resolved (base own : List Project) (removes : List (Option String)) (ps : Projects) :
    Prop where
  /-- A removed name is there only if a local manifest defines it. -/
  removed : ∀ p ∈ ps, some p.name ∈ removes → ∃ q ∈ own, q.name = p.name
  /-- A name defined locally is there once, with the last definition. -/
  redefined : ∀ n q, (named Project.name n own).getLast? = some q → named Project.name n ps = [q]
  /-- Every other project is there as often as it was defined. -/
  kept : ∀ p, some p.name ∉ removes → (∀ q ∈ own, q.name ≠ p.name) → ps.count p = base.count p

/-- Each removed name is removed as often as it is defined, or defined again locally; and of a name
    defined locally at most one project is left by the removals. -/
def AllDuplicatesRemoved (base own : List Project) (removes : List (Option String)) : Prop :=
  ∀ n, (some n ∈ removes → named Project.name n own = [] →
      (named Project.name n base).length ≤ removes.count (some n)) ∧
    (named Project.name n own ≠ [] →
      (named Project.name n base).length ≤ removes.count (some n) + 1)

/-! ## What the script computes -/

theorem bind_ok {α β : Type} {x : Except Exception α} {f : α → Except Exception β} {b : β}
    (h : (x >>= f) = .ok b) : ∃ a, x = .ok a ∧ f a = .ok b := by
  cases x with
  | error e => exact absurd h (by simp [bind, Except.bind])
  | ok a => exact ⟨a, rfl, h⟩

theorem mapM_ok {α β : Type} {f : α → Except Exception β} (l : List α) :
    ∀ {r : List β}, l.mapM f = .ok r → r = l.filterMap fun a => (f a).toOption := by
  induction l with
  | nil =>
    intro r h
    cases h
    rfl
  | cons a l ih =>
    intro r h
    rw [List.mapM_cons] at h
    obtain ⟨b, hb, h⟩ := bind_ok h
    obtain ⟨bs, hbs, h⟩ := bind_ok h
    cases h
    rw [List.filterMap_cons, hb, ih hbs]
    rfl

theorem defined_cons (m : Manifest) (ms : List Manifest) :
    defined (m :: ms) =
      (m.projects.filterMap fun tag => (Project.init tag).toOption) ++ defined ms := by
  rw [defined, List.flatMap_cons, List.filterMap_append]
  rfl

theorem mapM_projects (ms : List Manifest) : ∀ {more : List (List Project)},
    (ms.mapM fun m => m.projects.mapM Project.init) = .ok more → more.flatten = defined ms := by
  induction ms with
  | nil =>
    intro more h
    cases h
    rfl
  | cons m ms ih =>
    intro more h
    rw [List.mapM_cons] at h
    obtain ⟨ps, hps, h⟩ := bind_ok h
    obtain ⟨rest, hrest, h⟩ := bind_ok h
    cases h
    rw [List.flatten_cons, mapM_ok _ hps, ih hrest, defined_cons]

/-- The manifests of the include tags, when every one is there. -/
theorem included_ok {files : String → Option Manifest} {names : List (Option String)}
    {custom : List Manifest}
    (h : (names.mapM fun name => orRaise .ioError (included files name)) = .ok custom) :
    custom = names.filterMap (included files) := by
  rw [mapM_ok _ h]
  refine congrArg (fun f => List.filterMap f names) (funext fun name => ?_)
  cases included files name <;> rfl

theorem deleteBy_none (key : Project → String) (ps : Projects) :
    ps.deleteBy key none = .error .indexError := by
  unfold Projects.deleteBy
  rw [if_neg]
  simp

/-- A deletion raises if there is nothing to delete. -/
theorem deleteBy_some (key : Project → String) (k : String) (ps : Projects) :
    ps.deleteBy key (some k) = if named key k ps = [] then .error .indexError
      else .ok (deleteFirst key k ps) := by
  unfold Projects.deleteBy
  by_cases hnone : named key k ps = []
  · rw [if_pos hnone, if_neg]
    simpa using named_eq_nil.mp hnone
  · have hany : (ps.any fun p => some (key p) = some k) = true := by
      obtain ⟨p, hp⟩ := List.exists_mem_of_ne_nil _ hnone
      obtain ⟨hmem, hk⟩ := mem_named.mp hp
      exact List.any_eq_true.mpr ⟨p, hmem, by simp [hk]⟩
    rw [if_neg hnone, if_pos hany]
    simp only [deleteFirst, Option.some.injEq]

theorem delete_none (ps : Projects) : ps.delete none = .error .indexError :=
  deleteBy_none Project.name ps

theorem delete_some (n : String) (ps : Projects) :
    ps.delete (some n) = if named Project.name n ps = [] then .error .indexError
      else .ok (deleteFirst Project.name n ps) := deleteBy_some Project.name n ps

/-- A deletion that does not raise: the name is a string. -/
theorem delete_ok {name : Option String} {ps ps' : Projects} (h : ps.delete name = .ok ps') :
    ∃ n, name = some n ∧ ps' = deleteFirst Project.name n ps := by
  cases name with
  | none =>
    rw [delete_none] at h
    exact absurd h (by simp)
  | some n =>
    rw [delete_some] at h
    by_cases hnone : named Project.name n ps = []
    · rw [if_pos hnone] at h
      exact absurd h (by simp)
    · rw [if_neg hnone] at h
      cases h
      exact ⟨n, rfl, rfl⟩

/-- The deletions: every name is a string. -/
theorem deletes_ok (removes : List (Option String)) : ∀ {ps ps' : Projects},
    (removes.foldlM (fun projects r_name => Projects.delete r_name projects) ps) = .ok ps' →
    ∃ ns : List String, removes = ns.map some ∧ ps' = deleteAll Project.name ns ps := by
  induction removes with
  | nil =>
    intro ps ps' h
    cases h
    exact ⟨[], rfl, rfl⟩
  | cons name removes ih =>
    intro ps ps' h
    rw [List.foldlM_cons] at h
    obtain ⟨mid, hmid, h⟩ := bind_ok h
    obtain ⟨n, rfl, rfl⟩ := delete_ok hmid
    obtain ⟨ns, rfl, rfl⟩ := ih h
    exact ⟨n :: ns, rfl, rfl⟩

/-- Replacing a project never raises. -/
theorem setBy_eq (key : Project → String) (p : Project) (ps : Projects) :
    ps.setBy key p = .ok (put key p ps) := by
  unfold Projects.setBy
  cases hf : ps.find? fun q => key q = key p with
  | none =>
    have hnone : ∀ q ∈ ps, key q ≠ key p := by simpa using hf
    simp only
    rw [put, deleteFirst_of_forall_ne hnone]
  | some q =>
    have hq : key q = key p := by simpa using List.find?_some hf
    have hsome : named key (key p) ps ≠ [] :=
      List.ne_nil_of_mem (mem_named.mpr ⟨List.mem_of_find?_eq_some hf, hq⟩)
    simp only
    rw [deleteBy_some, if_neg hsome]
    rfl

theorem set_by_name_eq (p : Project) (ps : Projects) :
    ps.set_by_name p = .ok (put Project.name p ps) := setBy_eq Project.name p ps

theorem putAll_append (as bs : List Project) (ps : Projects) :
    putAll Project.name (as ++ bs) ps = putAll Project.name bs (putAll Project.name as ps) :=
  List.foldl_append

theorem setTags_ok (tags : List ProjectTag) : ∀ {ps ps' : Projects},
    (tags.foldlM (fun projects tag => do
      let p ← Project.init tag
      Projects.set_by_name p projects) ps) = .ok ps' →
    ps' = putAll Project.name (tags.filterMap fun tag => (Project.init tag).toOption) ps := by
  induction tags with
  | nil =>
    intro ps ps' h
    cases h
    rfl
  | cons tag tags ih =>
    intro ps ps' h
    rw [List.foldlM_cons] at h
    obtain ⟨mid, hmid, h⟩ := bind_ok h
    obtain ⟨p, hp, hset⟩ := bind_ok hmid
    rw [set_by_name_eq] at hset
    cases hset
    rw [ih h, List.filterMap_cons, hp]
    rfl

theorem setManifests_ok (ms : List Manifest) : ∀ {ps ps' : Projects},
    (ms.foldlM (fun projects m => setProjects m projects) ps) = .ok ps' →
    ps' = putAll Project.name (defined ms) ps := by
  induction ms with
  | nil =>
    intro ps ps' h
    cases h
    rfl
  | cons m ms ih =>
    intro ps ps' h
    rw [List.foldlM_cons] at h
    obtain ⟨mid, hmid, h⟩ := bind_ok h
    rw [ih h, setTags_ok _ hmid, defined_cons, putAll_append]

/-- **What `parse_manifests` returns**: the projects of the default manifest and its includes, less
    the removed names, with the local projects put one after another. -/
theorem parse_manifests_ok {files : String → Option Manifest} {tree : Manifest}
    {local_manifests : List Manifest} {ps : Projects} {remotes : Remotes} {default : DefaultTag}
    (h : parse_manifests files tree local_manifests = .ok (ps, remotes, default)) :
    ∃ ns : List String, local_manifests.flatMap Manifest.removes = ns.map some ∧
      ps = putAll Project.name (defined local_manifests)
        (deleteAll Project.name ns (defined (baseManifests files tree))) := by
  unfold parse_manifests at h
  obtain ⟨_, _, h⟩ := bind_ok h
  obtain ⟨_, _, h⟩ := bind_ok h
  obtain ⟨_, _, h⟩ := bind_ok h
  obtain ⟨first, hfirst, h⟩ := bind_ok h
  obtain ⟨custom, hcustom, h⟩ := bind_ok h
  obtain ⟨_, _, h⟩ := bind_ok h
  obtain ⟨more, hmore, h⟩ := bind_ok h
  obtain ⟨deleted, hdeleted, h⟩ := bind_ok h
  obtain ⟨_, _, h⟩ := bind_ok h
  obtain ⟨final, hfinal, h⟩ := bind_ok h
  cases h
  have hbase : first ++ more.flatten = defined (baseManifests files tree) := by
    rw [mapM_projects _ hmore, mapM_ok _ hfirst, included_ok hcustom, baseManifests, defined_cons]
  rw [hbase] at hdeleted
  obtain ⟨ns, hns, rfl⟩ := deletes_ok _ hdeleted
  exact ⟨ns, hns, setManifests_ok _ hfinal⟩

/-! ## When the result is right -/

theorem count_some (n : String) (ns : List String) : (ns.map some).count (some n) = ns.count n :=
  List.count_map_of_injective ns some (fun _ _ he => Option.some.inj he) n

/-- The projects of one name in the result. -/
theorem named_result (n : String) (base own : List Project) (ns : List String) :
    named Project.name n (putAll Project.name own (deleteAll Project.name ns base)) =
      slide ((named Project.name n base).drop (ns.count n)) (named Project.name n own) := by
  rw [named_putAll, named_deleteAll]

/-- The projects of a name that is not defined locally are those the removals leave. -/
theorem named_result_base {n : String} (base : List Project) {own : List Project} (ns : List String)
    (hnil : named Project.name n own = []) :
    named Project.name n (putAll Project.name own (deleteAll Project.name ns base)) =
      (named Project.name n base).drop (ns.count n) := by
  rw [named_result, hnil]
  rfl

theorem removed_of_resolved {base own : List Project} {ns : List String}
    (hres : Resolved base own (ns.map some)
      (putAll Project.name own (deleteAll Project.name ns base))) :
    AllDuplicatesRemoved base own (ns.map some) := by
  intro n
  rw [count_some]
  refine ⟨fun hrem hnil => ?_, fun hne => ?_⟩
  · have hgone : named Project.name n
        (putAll Project.name own (deleteAll Project.name ns base)) = [] := by
      refine named_eq_nil.mpr ?_
      rintro p hp rfl
      obtain ⟨q, hq, hqn⟩ := hres.removed p hp hrem
      exact named_eq_nil.mp hnil q hq hqn
    rw [named_result_base base ns hnil] at hgone
    exact List.drop_eq_nil_iff.mp hgone
  · have hq := List.getLast?_eq_some_getLast hne
    have hone := congrArg List.length (hres.redefined n _ hq)
    rw [named_result, length_slide _ _ hne, List.length_drop, List.length_singleton] at hone
    omega

theorem resolved_of_removed {base own : List Project} {ns : List String}
    (hcond : AllDuplicatesRemoved base own (ns.map some)) :
    Resolved base own (ns.map some)
      (putAll Project.name own (deleteAll Project.name ns base)) := by
  constructor
  case removed =>
    intro p hp hrem
    by_contra hnone
    have hnil : named Project.name p.name own = [] :=
      named_eq_nil.mpr fun q hq hqn => hnone ⟨q, hq, hqn⟩
    have hle := (hcond p.name).1 hrem hnil
    rw [count_some] at hle
    have hgone := named_result_base base ns hnil
    rw [List.drop_eq_nil_iff.mpr hle] at hgone
    exact named_eq_nil.mp hgone p hp rfl
  case redefined =>
    intro n q hq
    have hne : named Project.name n own ≠ [] := by
      intro hnil
      rw [hnil] at hq
      cases hq
    have hle := (hcond n).2 hne
    rw [count_some] at hle
    rw [named_result]
    exact slide_of_length_le _ (by rw [List.length_drop]; omega) hq
  case kept =>
    intro p hrem hown
    have hzero : ns.count p.name = 0 := by
      rw [← count_some]
      exact List.count_eq_zero.mpr hrem
    rw [← count_named Project.name p, named_result_base base ns (named_eq_nil.mpr hown), hzero,
      List.drop_zero, count_named Project.name p]

/-- **Manifests are resolved by name exactly when** the removals leave no duplicate of a removed or
    redefined name behind. -/
theorem resolution_correct_iff (files : String → Option Manifest) (tree : Manifest)
    (local_manifests : List Manifest) (ps : Projects) (remotes : Remotes) (default : DefaultTag)
    (h : parse_manifests files tree local_manifests = .ok (ps, remotes, default)) :
    Resolved (defined (baseManifests files tree)) (defined local_manifests)
        (local_manifests.flatMap Manifest.removes) ps ↔
      AllDuplicatesRemoved (defined (baseManifests files tree)) (defined local_manifests)
        (local_manifests.flatMap Manifest.removes) := by
  obtain ⟨ns, hns, rfl⟩ := parse_manifests_ok h
  rw [hns]
  exact ⟨removed_of_resolved, resolved_of_removed⟩

/-! ## A concrete checkout -/

/-- A project tag with this name and path. -/
def tag (name path : String) : ProjectTag := { name := some name, path := some path }

/-- A default manifest with these projects. -/
def baseManifest (projects : List ProjectTag) : Manifest :=
  { remotes := [⟨some "aosp", none⟩], default := some ⟨some "aosp", none⟩, projects := projects }

/-- A local manifest that removes a kernel and redefines vold. -/
def localManifest : Manifest := { removes := [some "kernel"], projects := [tag "vold" "w"] }

/-- The kernel goes, and vold is the local one. -/
theorem resolution_correct_plain :
    ∃ remotes default,
      parse_manifests (fun _ => none) (baseManifest [tag "kernel" "k", tag "vold" "v"])
        [localManifest] = .ok ([⟨"vold", "w", none, none⟩], remotes, default) ∧
      Resolved (defined (baseManifests (fun _ => none)
          (baseManifest [tag "kernel" "k", tag "vold" "v"])))
        (defined [localManifest]) ([localManifest].flatMap Manifest.removes)
        [⟨"vold", "w", none, none⟩] := by
  refine ⟨_, _, rfl, (resolution_correct_iff _ _ _ _ _ _ rfl).mpr fun n => ?_⟩
  show (some n ∈ [some "kernel"] → named Project.name n [⟨"vold", "w", none, none⟩] = [] →
      (named Project.name n [⟨"kernel", "k", none, none⟩, ⟨"vold", "v", none, none⟩]).length ≤
        [some "kernel"].count (some n)) ∧ _
  by_cases hk : "kernel" = n
  · subst hk
    exact ⟨fun _ _ => by decide, fun hne => absurd rfl hne⟩
  · have hcount : (named Project.name n [⟨"kernel", "k", none, none⟩,
        ⟨"vold", "v", none, none⟩]).length ≤ 1 := by
      rw [named_cons_other hk]
      exact List.length_filter_le _ _
    exact ⟨fun hrem => absurd hrem (by simpa using Ne.symm hk),
      fun _ => Nat.le_trans hcount (Nat.le_add_left 1 _)⟩

/-- A project defined twice, with two paths, and removed once: the second one stays. -/
theorem removed_project_stays :
    ¬ ∀ (files : String → Option Manifest) (tree : Manifest) (local_manifests : List Manifest)
      (ps : Projects) (remotes : Remotes) (default : DefaultTag),
      parse_manifests files tree local_manifests = .ok (ps, remotes, default) →
      Resolved (defined (baseManifests files tree)) (defined local_manifests)
        (local_manifests.flatMap Manifest.removes) ps := by
  intro hall
  have hres := hall (fun _ => none) (baseManifest [tag "kernel" "k", tag "kernel" "j"])
    [{ removes := [some "kernel"] }] [⟨"kernel", "j", none, none⟩] _ _ rfl
  obtain ⟨q, hq, _⟩ := hres.removed ⟨"kernel", "j", none, none⟩ (by simp) (by simp)
  exact absurd hq (by simp [defined])

end Codina.Patches
