/-
  The order of the local manifests, which is whatever glob makes it.

  Local manifests that define different projects and different remotes may be read in any order:
  `parse_manifests` fails in both, or gives the same projects and the same remotes
  (`local_order_irrelevant`).  The list of projects may be ordered otherwise, and which exception comes
  first may be another one.

  Three loops depend on the order: the removals, the remotes and the projects.  In each, two steps
  commute up to what counts, which for lists of projects is the projects of each name in their order
  (`SameByName`): a removal takes the first project of its name, so two lists with the same projects in
  another order are not alike to it.
-/
import Codina.Lib.Reorder
import Codina.Patches.Upstream

namespace Codina.Patches

open Codina.Keyed Codina.Reorder

/-! ## Independent manifests -/

/-- No project name and no remote name is defined by both. -/
structure Independent (m m' : Manifest) : Prop where
  projects : ∀ p ∈ m.projects, ∀ q ∈ m'.projects, ∀ n, p.name = some n → q.name ≠ some n
  remotes : ∀ r ∈ m.remotes, ∀ s ∈ m'.remotes, r.name ≠ s.name

theorem Independent.symm {m m' : Manifest} (h : Independent m m') : Independent m' m :=
  ⟨fun p hp q hq n hpn hqn => h.projects q hq p hp n hqn hpn,
    fun r hr s hs he => h.remotes s hs r hr he.symm⟩

/-- The same projects, as often, and the same remotes. -/
def SameResult (r r' : Projects × Remotes × DefaultTag) : Prop := r.1.Perm r'.1 ∧ r.2 = r'.2

/-! ## The remotes -/

/-- One remote tag of a manifest. -/
def addTag (default : DefaultTag) (remotes : Remotes) (tag : RemoteTag) : Except Exception Remotes := do
  let r ← Remote.init tag default
  return Function.update remotes r.name (some r)

theorem respects_eq {σ α : Type} (step : σ → α → Except Exception σ) : Respects (· = ·) step := by
  rintro s _ a rfl
  exact agree_refl _

/-- Remotes of different names may be entered in either order. -/
theorem addTag_commute (default : DefaultTag) {t t' : RemoteTag} (h : t.name ≠ t'.name) :
    Commute (· = ·) (addTag default) t t' := by
  intro remotes
  unfold addTag
  cases hr : Remote.init t default with
  | error e =>
    cases Remote.init t' default with
    | error e' => exact .error e e'
    | ok r' => exact .error e e
  | ok r =>
    cases hr' : Remote.init t' default with
    | error e' => exact .error e' e'
    | ok r' =>
      refine .ok (Function.update_comm ?_ _ _ _)
      rw [init_name hr, init_name hr']
      exact h

/-- Manifests that define no remote in common. -/
theorem addRemotes_commute (default : DefaultTag) {m m' : Manifest} (h : Independent m m') :
    Commute (· = ·) (fun remotes m => addRemotes default m remotes) m m' :=
  foldlM_block (respects_eq (addTag default)) fun r hr s hs =>
    addTag_commute default (h.remotes r hr s hs)

/-! ## The projects -/

/-- The same projects under every name, in the same order. -/
def SameByName (ps ps' : Projects) : Prop := ∀ n, named Project.name n ps = named Project.name n ps'

instance : IsEquiv Projects SameByName where
  refl _ _ := rfl
  symm _ _ h n := (h n).symm
  trans _ _ _ h h' n := (h n).trans (h' n)

theorem delete_respects :
    Respects SameByName fun projects r_name => Projects.delete r_name projects := by
  intro ps ps' r h
  cases r with
  | none =>
    simp only [delete_none]
    exact .error _ _
  | some n =>
    simp only [delete_some, h n]
    split
    · exact .error _ _
    · refine .ok fun k => ?_
      rw [named_deleteFirst, named_deleteFirst, h k]

/-- Two removals that take different names fail when one of the names is missing. -/
theorem delete_delete {n n' : String} (hne : n ≠ n') (ps : Projects) :
    (ps.delete (some n) >>= fun ps => ps.delete (some n')) =
      if named Project.name n ps = [] ∨ named Project.name n' ps = [] then .error .indexError
      else .ok (deleteFirst Project.name n' (deleteFirst Project.name n ps)) := by
  simp only [delete_some]
  by_cases hn : named Project.name n ps = []
  · rw [if_pos hn, if_pos (Or.inl hn)]
    rfl
  · have hother : named Project.name n' (deleteFirst Project.name n ps) =
        named Project.name n' ps := by
      rw [named_deleteFirst, if_neg hne.symm]
    rw [if_neg hn]
    show (if named Project.name n' (deleteFirst Project.name n ps) = [] then _ else _) = _
    rw [hother]
    by_cases hn' : named Project.name n' ps = []
    · rw [if_pos hn', if_pos (Or.inr hn')]
    · rw [if_neg hn', if_neg (not_or.mpr ⟨hn, hn'⟩)]

theorem delete_delete_none (r : Option String) (ps : Projects) :
    ∃ e, (ps.delete r >>= fun ps => ps.delete none) = .error e := by
  simp only [delete_none]
  cases ps.delete r with
  | error e => exact ⟨e, rfl⟩
  | ok _ => exact ⟨_, rfl⟩

/-- Removals may come in any order. -/
theorem delete_commute (r r' : Option String) :
    Commute SameByName (fun projects r_name => Projects.delete r_name projects) r r' := by
  intro ps
  cases r with
  | none =>
    obtain ⟨e, he⟩ := delete_delete_none r' ps
    rw [he]
    simp only [delete_none]
    exact .error _ _
  | some n =>
    cases r' with
    | none =>
      obtain ⟨e, he⟩ := delete_delete_none (some n) ps
      rw [he]
      simp only [delete_none]
      exact .error _ _
    | some n' =>
      by_cases hne : n = n'
      · rw [hne]
        exact agree_refl _
      · rw [delete_delete hne, delete_delete (Ne.symm hne)]
        by_cases hmissing : named Project.name n ps = [] ∨ named Project.name n' ps = []
        · rw [if_pos hmissing, if_pos hmissing.symm]
          exact .error _ _
        · rw [if_neg hmissing, if_neg fun h => hmissing h.symm]
          exact .ok fun k => named_deleteFirst_comm k n' n ps

/-- One project tag of a local manifest. -/
def setTag (projects : Projects) (tag : ProjectTag) : Except Exception Projects := do
  let p ← Project.init tag
  projects.set_by_name p

theorem init_project_name {t : ProjectTag} {p : Project} (h : Project.init t = .ok p) :
    t.name = some p.name := by
  unfold Project.init at h
  split at h
  · split at h
    · exact absurd h (by simp)
    · cases h
      assumption
  · exact absurd h (by simp)

theorem setTag_ok {t : ProjectTag} {p : Project} (h : Project.init t = .ok p) (ps : Projects) :
    setTag ps t = .ok (put Project.name p ps) := by
  unfold setTag
  rw [h]
  exact set_by_name_eq p ps

theorem setTag_error {t : ProjectTag} {e : Exception} (h : Project.init t = .error e)
    (ps : Projects) : setTag ps t = .error e := by
  unfold setTag
  rw [h]
  rfl

theorem setTag_respects : Respects SameByName setTag := by
  intro ps ps' t h
  cases hp : Project.init t with
  | error e =>
    rw [setTag_error hp, setTag_error hp]
    exact .error _ _
  | ok p =>
    rw [setTag_ok hp, setTag_ok hp]
    refine .ok fun n => ?_
    rw [named_put, named_put, h n]

/-- Projects of different names may be set in either order. -/
theorem setTag_commute {t t' : ProjectTag} (h : ∀ n, t.name = some n → t'.name ≠ some n) :
    Commute SameByName setTag t t' := by
  intro ps
  cases hp : Project.init t with
  | error e =>
    rw [setTag_error hp]
    cases hp' : Project.init t' with
    | error e' =>
      rw [setTag_error hp']
      exact .error _ _
    | ok p' =>
      rw [setTag_ok hp']
      show Agree _ _ (setTag _ t)
      rw [setTag_error hp]
      exact .error _ _
  | ok p =>
    rw [setTag_ok hp]
    show Agree _ (setTag _ t') _
    cases hp' : Project.init t' with
    | error e' =>
      rw [setTag_error hp', setTag_error hp']
      exact .error _ _
    | ok p' =>
      rw [setTag_ok hp', setTag_ok hp']
      show Agree _ _ (setTag _ t)
      rw [setTag_ok hp]
      have hne : p.name ≠ p'.name := fun he =>
        h p.name (init_project_name hp) (he ▸ init_project_name hp')
      exact .ok fun n => named_put_comm n hne.symm ps

theorem setProjects_respects :
    Respects SameByName fun projects m => setProjects m projects :=
  fun _ _ m h => foldlM_respects setTag_respects m.projects h

/-- Manifests that define no project in common. -/
theorem setProjects_commute {m m' : Manifest} (h : Independent m m') :
    Commute SameByName (fun projects m => setProjects m projects) m m' :=
  foldlM_block setTag_respects fun p hp q hq => setTag_commute (h.projects p hp q hq)

/-! ## All local manifests -/

/-- **The order of independent local manifests does not matter.** -/
theorem local_order_irrelevant (files : String → Option Manifest) (tree : Manifest)
    (local_manifests local_manifests' : List Manifest)
    (hperm : local_manifests.Perm local_manifests') (hind : local_manifests.Pairwise Independent) :
    Agree SameResult (parse_manifests files tree local_manifests)
      (parse_manifests files tree local_manifests') := by
  have hsymm : ∀ {m m' : Manifest}, Independent m m' → Independent m' m := Independent.symm
  unfold parse_manifests
  refine Agree.bind_left _ fun default => ?_
  refine Agree.bind_left _ fun remotes => ?_
  refine Agree.bind_left _ fun defaultRemote => ?_
  refine Agree.bind_left _ fun projects => ?_
  refine Agree.bind_left _ fun custom_manifests => ?_
  refine Agree.bind_left _ fun remotes => ?_
  refine Agree.bind_left _ fun more => ?_
  have hremoved := foldlM_perm delete_respects (C := fun _ _ => True) (fun h => h)
    (fun r r' _ => delete_commute r r') (hperm.flatMap_right Manifest.removes)
    (List.pairwise_of_forall fun _ _ => trivial) (projects ++ more.flatten)
  refine hremoved.bind fun ps ps' hps => ?_
  have hadded := foldlM_perm (respects_eq _) hsymm (fun _ _ => addRemotes_commute default) hperm
    hind remotes
  refine hadded.bind fun remotes remotes' hremotes => ?_
  have hset := agree_trans (foldlM_respects setProjects_respects local_manifests hps)
    (foldlM_perm setProjects_respects hsymm (fun _ _ => setProjects_commute) hperm hind ps')
  refine hset.bind fun ps ps' hps => .ok ⟨perm_of_named hps, ?_⟩
  rw [hremotes]

/-- A manifest that removes and redefines the kernel, and one that defines a remote and vold. -/
theorem local_order_two :
    Agree SameResult
      (parse_manifests (fun _ => none) (baseManifest [tag "kernel" "k", tag "vold" "v"])
        [{ removes := [some "kernel"], projects := [tag "kernel" "j"] },
          { remotes := [⟨some "cm", none⟩], projects := [tag "vold" "w"] }])
      (parse_manifests (fun _ => none) (baseManifest [tag "kernel" "k", tag "vold" "v"])
        [{ remotes := [⟨some "cm", none⟩], projects := [tag "vold" "w"] },
          { removes := [some "kernel"], projects := [tag "kernel" "j"] }]) :=
  local_order_irrelevant _ _ _ _ (List.Perm.swap _ _ [])
    (List.pairwise_pair.mpr ⟨by simp [tag], by simp⟩)

end Codina.Patches
