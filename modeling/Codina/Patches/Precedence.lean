/-
  The base of a project's patches, against the precedence of the manifests.

  By the manifests' own rules a project is built from its remote, or the default element's, and from
  its revision, or the revision of that remote as last defined, or the default element's revision; a
  branch is written `remote/branch` (`FollowsPrecedence`).

  The scripts differ by design in one respect: `Remote.__init__` puts the default element's revision
  above the default remote's own, and no other remote's revision is looked at anywhere.  A project
  without a revision of its own follows the default element, then the default remote
  (`upstream_ref_of_manifests`).

  Beyond that there are slips, on which nothing is said here: a plain branch as default revision and a
  refs/heads as a project's own are not rewritten, the default remote defined again is not taken into
  account, and neither is a branch that has "refs/heads" in its name a second time.
-/
import Codina.Patches.Upstream

namespace Codina.Patches

open Codina.Strings

/-! ## The precedence of the manifests -/

/-- The remote of a project. -/
def upstreamRemote (default : DefaultTag) (p : Project) : Option String := pyOr p.remote default.remote

/-- The revision of a project: its own, or that of its remote as last defined, or the default
    element's. -/
def upstreamRevision (tags : List RemoteTag) (default : DefaultTag) (p : Project) : Option String :=
  pyOr p.revision
    (pyOr ((lastTag (upstreamRemote default p) tags).bind RemoteTag.revision) default.revision)

/-- A revision given as `b` or `refs/heads/b` is written `r/b`. -/
inductive Written (r : String) : String → String → Prop where
  | branch (b : String) (h : ¬ "refs/heads/".toList <+: b.toList) : Written r b (r ++ "/" ++ b)
  | heads (b : String) : Written r ("refs/heads/" ++ b) (r ++ "/" ++ b)

/-- The ref is the one the manifests mean; `tags` are their remotes in the order they are merged. -/
def FollowsPrecedence (tags : List RemoteTag) (default : DefaultTag) (p : Project) (ref : String) :
    Prop :=
  ∃ rev, upstreamRevision tags default p = some rev ∧ Written (fmt (upstreamRemote default p)) rev ref

/-- A branch name without a second "refs/heads". -/
def PlainBranch (b : String) : Prop := ∀ x y, b ≠ x ++ "refs/heads" ++ y

/-! ## What `Remote.__init__` makes of a branch -/

theorem starts_with_heads (b : String) : "refs/heads/".toList <+: ("refs/heads/" ++ b).toList := by
  rw [String.toList_append]
  exact List.prefix_append _ _

theorem truthy_heads (b : String) : truthy (some ("refs/heads/" ++ b)) = true := by
  simp [truthy]

theorem slash_not_in_heads {b : String} (hb : PlainBranch b) (x y : String) :
    "/" ++ b ≠ x ++ "refs/heads" ++ y := by
  intro h
  have hlist := congrArg String.toList h
  simp only [String.toList_append] at hlist
  cases hx : x.toList with
  | nil =>
    rw [hx] at hlist
    exact absurd (List.cons.inj hlist).1 (by decide)
  | cons c cs =>
    rw [hx] at hlist
    have htail := (List.cons.inj hlist).2
    refine hb (String.ofList cs) y (String.toList_inj.mp ?_)
    simp only [String.toList_append, String.toList_ofList]
    simpa using htail

/-- **A branch given as refs/heads becomes `remote/branch`.** -/
theorem init_heads {tag : RemoteTag} {default : DefaultTag} {n b : String} (hname : tag.name = some n)
    (hb : PlainBranch b) (hgiven : givenRevision tag default = some ("refs/heads/" ++ b)) :
    Remote.init tag default = .ok ⟨some n, some (n ++ "/" ++ b)⟩ := by
  have hstart := String.startsWith_string_iff.mpr (starts_with_heads b)
  have hreplace : ("refs/heads/" ++ b).replace "refs/heads" n = n ++ "/" ++ b := by
    rw [show "refs/heads/" = "refs/heads" ++ "/" from rfl, String.append_assoc, String.append_assoc]
    exact replace_leading (by decide) n ("/" ++ b) (slash_not_in_heads hb)
  unfold givenRevision at hgiven
  unfold Remote.init
  simp only [hgiven, hstart, if_true]
  simp only [hname, hreplace]

/-- A remote without a name has no branch to write. -/
theorem init_heads_name {tag : RemoteTag} {default : DefaultTag} {d : Remote} {b : String}
    (h : Remote.init tag default = .ok d)
    (hgiven : givenRevision tag default = some ("refs/heads/" ++ b)) : ∃ n, tag.name = some n := by
  have hstart := String.startsWith_string_iff.mpr (starts_with_heads b)
  unfold givenRevision at hgiven
  unfold Remote.init at h
  cases hname : tag.name with
  | some n => exact ⟨n, rfl⟩
  | none =>
    simp only [hgiven, hstart, if_true] at h
    rw [hname] at h
    exact absurd h (by simp)

/-! ## What the scripts do by design -/

theorem updateRevision_branch {remotes : Remotes} {d : Remote} {p : Project} {b : String}
    (hd : remotes (some "default") = some d) (hb : p.revision = some b) (hne : b ≠ "") :
    updateRevision remotes p = .ok (fmt (pyOr p.remote d.name) ++ "/" ++ b) := by
  have hrev : truthy p.revision = true := by simpa [hb, truthy] using hne
  rw [updateRevision_own hd hrev, hb]
  rfl

/-- The own revision of the default element's remote, as the default manifest defines it last. -/
def defaultOwn (tree : Manifest) (default : DefaultTag) : Option String :=
  (lastTag default.remote tree.remotes).bind RemoteTag.revision

/-- `update_repos` looks at one entry of the dictionary. -/
theorem updateRevision_congr {remotes remotes' : Remotes} (p : Project)
    (h : remotes (some "default") = remotes' (some "default")) :
    updateRevision remotes p = updateRevision remotes' p := by
  unfold updateRevision remoteOf defaultRemote
  rw [h]

/-- Of a remote `Remote.__init__` looks at the name and at the revision it is given. -/
theorem init_congr {tag tag' : RemoteTag} {default : DefaultTag} (hname : tag.name = tag'.name)
    (hgiven : givenRevision tag default = givenRevision tag' default) :
    Remote.init tag default = Remote.init tag' default := by
  unfold givenRevision at hgiven
  unfold Remote.init
  rw [hname] at hgiven
  simp only [hname, hgiven]

/-- With a default element that has a revision, or the same revision of its remote, two manifests
    give that remote the same one. -/
theorem givenRevision_default {tree tree' : Manifest} {default : DefaultTag} {tag tag' : RemoteTag}
    (htag : lastTag default.remote tree.remotes = some tag)
    (htag' : lastTag default.remote tree'.remotes = some tag')
    (hown : truthy default.revision = true ∨ defaultOwn tree default = defaultOwn tree' default) :
    givenRevision tag default = givenRevision tag' default := by
  have hname := lastTag_name htag
  have hname' := lastTag_name htag'
  unfold givenRevision
  rcases hown with htruthy | hown
  · rw [if_pos ⟨hname.symm, htruthy⟩, if_pos ⟨hname'.symm, htruthy⟩]
  · unfold defaultOwn at hown
    rw [htag, htag'] at hown
    rw [hname, hname', show tag.revision = tag'.revision from hown]

/-- A project that names both has a ref of its own. -/
theorem updateRevision_named {remotes : Remotes} {d : Remote} {p : Project}
    (hd : remotes (some "default") = some d) (hremote : truthy p.remote = true)
    (hrev : truthy p.revision = true) :
    updateRevision remotes p = .ok (fmt p.remote ++ "/" ++ fmt p.revision) := by
  rw [updateRevision_own hd hrev, pyOr, if_pos hremote]

/-- **The base of a project's patches.**  With a revision `b` of its own it is `r/b`, for the project's
    remote or the default element's.  Without one it is `d/b`, for the default element's remote `d` and
    the default element's revision refs/heads/b, or that of `d` where the default element has none and
    `d` is not defined again.  And whatever the default revision looks like, no other revision is
    looked at: any manifests with the same default element give the same ref, if the default element
    has a revision or the default remote has the same one.  (No later remote has the name
    "default".) -/
theorem upstream_ref_of_manifests (files : String → Option Manifest) (tree : Manifest)
    (local_manifests : List Manifest) (ps : Projects) (remotes : Remotes) (default : DefaultTag)
    (p : Project) (h : parse_manifests files tree local_manifests = .ok (ps, remotes, default))
    (hlater : truthy p.remote = true ∧ truthy p.revision = true ∨
      ∀ tag ∈ laterRemotes files tree local_manifests, tag.name ≠ some "default") :
    (∀ b, p.revision = some b → b ≠ "" → ¬ "refs/heads/".toList <+: b.toList →
      updateRevision remotes p = .ok (fmt (upstreamRemote default p) ++ "/" ++ b)) ∧
    (truthy p.revision = false → ∀ b, PlainBranch b →
      (default.revision = some ("refs/heads/" ++ b) ∨
        truthy default.revision = false ∧
          (∀ tag ∈ laterRemotes files tree local_manifests, tag.name ≠ default.remote) ∧
          defaultOwn tree default = some ("refs/heads/" ++ b)) →
      updateRevision remotes p = .ok (fmt default.remote ++ "/" ++ b)) ∧
    ∀ files' tree' local_manifests' ps' remotes',
      parse_manifests files' tree' local_manifests' = .ok (ps', remotes', default) →
      (∀ tag ∈ laterRemotes files' tree' local_manifests', tag.name ≠ some "default") →
      (truthy default.revision = true ∨ defaultOwn tree default = defaultOwn tree' default ∧
        (∀ tag ∈ laterRemotes files tree local_manifests ++
          laterRemotes files' tree' local_manifests', tag.name ≠ default.remote)) →
      updateRevision remotes p = updateRevision remotes' p := by
  rcases hlater with ⟨hremote, hown⟩ | hlater
  · obtain ⟨_, d, _, _, hd⟩ := default_entry_of_tag h
    refine ⟨?_, ?_, ?_⟩
    · intro b hb hne _
      rw [updateRevision_branch hd hb hne, upstreamRemote, pyOr, pyOr, if_pos hremote, if_pos hremote]
    · intro hrev
      exact absurd (hown.symm.trans hrev) (by decide)
    · intro _ _ _ _ _ h' _ _
      obtain ⟨_, d', _, _, hd'⟩ := default_entry_of_tag h'
      rw [updateRevision_named hd hremote hown, updateRevision_named hd' hremote hown]
  · obtain ⟨last, d, hlast, hname, hinit, hd⟩ := default_entry_cached h hlater
    have hdname : d.name = default.remote := (init_name hinit).trans hname
    refine ⟨?_, ?_, ?_⟩
    · intro b hb hne _
      rw [updateRevision_branch hd hb hne, hdname]
      rfl
    · intro hrev b hb hgiven
      have hrevision : givenRevision last default = some ("refs/heads/" ++ b) := by
        unfold givenRevision
        rcases hgiven with hdefault | ⟨hfalsy, _, hown⟩
        · rw [if_pos ⟨hname.symm, by rw [hdefault]; exact truthy_heads b⟩, hdefault]
        · rw [if_neg (by simp [hfalsy])]
          rw [defaultOwn, hlast] at hown
          exact hown
      obtain ⟨n, hn⟩ := init_heads_name hinit hrevision
      rw [init_heads hn hb hrevision] at hinit
      rw [updateRevision_default hd hrev, ← Except.ok.inj hinit, ← hname, hn]
      rfl
    · intro _ _ _ _ _ h' hlater' hown
      obtain ⟨last', d', hlast', hname', hinit', hd'⟩ := default_entry_cached h' hlater'
      have hgiven := givenRevision_default hlast hlast' (hown.imp id And.left)
      rw [init_congr (hname.trans hname'.symm) hgiven, hinit'] at hinit
      exact updateRevision_congr p (by rw [hd, hd', Except.ok.inj hinit])

/-! ## Where the precedence is not followed -/

theorem Written.of_branch {r b ref : String} (h : Written r b ref)
    (hb : ¬ "refs/heads/".toList <+: b.toList) : ref = r ++ "/" ++ b := by
  cases h with
  | branch _ _ => rfl
  | heads b => exact absurd (starts_with_heads b) hb

theorem Written.of_heads {r b ref : String} (h : Written r ("refs/heads/" ++ b) ref) :
    ref = r ++ "/" ++ b := by
  generalize hrev : "refs/heads/" ++ b = rev at h
  cases h with
  | branch _ hnot =>
    exact absurd (hrev ▸ starts_with_heads b) hnot
  | heads b' => rw [String.append_right_inj "refs/heads/" |>.mp hrev]

/-- The project of `oneProject`. -/
def build (own : Option String) : Project := ⟨"platform/build", "build", none, own⟩

theorem plainBranch_short {b : String} (h : b.length < 10) : PlainBranch b := by
  intro x y hxy
  have hlen := congrArg String.length hxy
  rw [String.length_append, String.length_append, show "refs/heads".length = 10 from rfl] at hlen
  omega

theorem init_branch (remote : Option String) (b : String) (hb : PlainBranch b) :
    Remote.init ⟨some "aosp", remote⟩ ⟨some "aosp", some ("refs/heads/" ++ b)⟩ =
      .ok ⟨some "aosp", some ("aosp/" ++ b)⟩ := by
  refine (init_heads rfl hb ?_).trans ?_
  · exact if_pos ⟨rfl, truthy_heads b⟩
  · rfl

/-- A local manifest that defines another remote, with a revision. -/
def otherRemote : Manifest := { remotes := [⟨some "caf", some "kk"⟩] }

theorem parse_otherRemote {b : String} (hb : PlainBranch b) :
    parse_manifests (fun _ => none) (oneProject none (some ("refs/heads/" ++ b)) none)
        [otherRemote] =
      .ok ([build none], Function.update (oneRemote ⟨some "aosp", some ("aosp/" ++ b)⟩) (some "caf")
        (some ⟨some "caf", some "kk"⟩), ⟨some "aosp", some ("refs/heads/" ++ b)⟩) := by
  have hother : Remote.init ⟨some "caf", some "kk"⟩ ⟨some "aosp", some ("refs/heads/" ++ b)⟩ =
      .ok ⟨some "caf", some "kk"⟩ := by
    have hstart : "kk".startsWith "refs/heads/" = false :=
      String.startsWith_string_eq_false_iff.mpr (by decide)
    simp [Remote.init, hstart]
  have htags : addRemotes ⟨some "aosp", some ("refs/heads/" ++ b)⟩
      (oneProject none (some ("refs/heads/" ++ b)) none) (fun _ => none) =
      .ok (Function.update (fun _ => none) (some "aosp") (some ⟨some "aosp", some ("aosp/" ++ b)⟩)) := by
    unfold addRemotes oneProject
    simp only [List.foldlM_cons, init_branch none b hb]
    rfl
  have hlocal : ∀ remotes, addRemotes ⟨some "aosp", some ("refs/heads/" ++ b)⟩ otherRemote remotes =
      .ok (Function.update remotes (some "caf") (some ⟨some "caf", some "kk"⟩)) := by
    intro remotes
    unfold addRemotes otherRemote
    simp only [List.foldlM_cons, hother]
    rfl
  have hdefault : orRaise .attributeError
      (oneProject none (some ("refs/heads/" ++ b)) none).default =
        .ok ⟨some "aosp", some ("refs/heads/" ++ b)⟩ := rfl
  unfold parse_manifests
  simp only [hdefault, bind, Except.bind, List.foldlM_cons, htags, hlocal]
  rfl

/-- The default element's branch is the base of a project without a revision, also where the remote
    has one of its own; another remote with a revision changes nothing. -/
theorem default_branch_is_base :
    updateRevision (oneRemote ⟨some "aosp", some "aosp/lp"⟩) (build none) = .ok "aosp/lp" ∧
    updateRevision (oneRemote ⟨some "aosp", some "aosp/lp"⟩) (build none) =
      updateRevision (Function.update (oneRemote ⟨some "aosp", some "aosp/lp"⟩) (some "caf")
        (some ⟨some "caf", some "kk"⟩)) (build none) := by
  have hlp := plainBranch_short (show "lp".length < 10 by decide)
  have h := upstream_ref_of_manifests (fun _ => none)
    (oneProject (some "refs/heads/kk") (some ("refs/heads/" ++ "lp")) none) [] [build none] _ _
    (build none) (parse_oneProject none (init_branch _ "lp" hlp))
    (Or.inr (by intro tag htag; exact absurd htag List.not_mem_nil))
  refine ⟨h.2.1 rfl "lp" hlp (Or.inl rfl), h.2.2 _ _ _ _ _ (parse_otherRemote hlp) ?_ ?_⟩
  · intro tag htag
    obtain rfl : tag = ⟨some "caf", some "kk"⟩ := List.mem_singleton.mp htag
    decide
  · exact Or.inl (truthy_heads "lp")

/-- A local manifest that defines the default remote again. -/
def redefined (b : String) : Manifest := { remotes := [⟨some "aosp", some ("refs/heads/" ++ b)⟩] }

theorem init_own_branch (b : String) (hb : PlainBranch b) :
    Remote.init ⟨some "aosp", some ("refs/heads/" ++ b)⟩ ⟨some "aosp", none⟩ =
      .ok ⟨some "aosp", some ("aosp/" ++ b)⟩ := by
  refine (init_heads rfl hb ?_).trans rfl
  exact if_neg fun h => absurd h.2 (by decide)

theorem parse_redefined {b b' : String} (hb : PlainBranch b) (hb' : PlainBranch b') :
    parse_manifests (fun _ => none) (oneProject (some ("refs/heads/" ++ b)) none none)
        [redefined b'] =
      .ok ([build none], Function.update (oneRemote ⟨some "aosp", some ("aosp/" ++ b)⟩) (some "aosp")
        (some ⟨some "aosp", some ("aosp/" ++ b')⟩), ⟨some "aosp", none⟩) := by
  have htags : ∀ (m : Manifest) (c : String) (remotes : Remotes), PlainBranch c →
      m.remotes = [⟨some "aosp", some ("refs/heads/" ++ c)⟩] →
      addRemotes ⟨some "aosp", none⟩ m remotes =
        .ok (Function.update remotes (some "aosp") (some ⟨some "aosp", some ("aosp/" ++ c)⟩)) := by
    intro m c remotes hc hm
    unfold addRemotes
    rw [hm]
    simp only [List.foldlM_cons, init_own_branch c hc]
    rfl
  have hdefault : orRaise .attributeError (oneProject (some ("refs/heads/" ++ b)) none none).default =
      .ok ⟨some "aosp", none⟩ := rfl
  unfold parse_manifests
  simp only [hdefault, bind, Except.bind, List.foldlM_cons, htags (redefined b') b' _ hb' rfl,
    htags (oneProject (some ("refs/heads/" ++ b)) none none) b _ hb rfl]
  rfl

/-- The precedence of the manifests is not followed: the default element's revision stands above the
    remote's; a plain default branch and a refs/heads of the project's own are not rewritten; and the
    default remote defined again is not taken into account. -/
theorem precedence_not_followed :
    (parse_manifests (fun _ => none)
        (oneProject (some "refs/heads/kk") (some ("refs/heads/" ++ "lp")) none) [] =
        .ok ([build none], oneRemote ⟨some "aosp", some "aosp/lp"⟩,
          ⟨some "aosp", some ("refs/heads/" ++ "lp")⟩) ∧
      updateRevision (oneRemote ⟨some "aosp", some "aosp/lp"⟩) (build none) = .ok "aosp/lp" ∧
      ¬ FollowsPrecedence [⟨some "aosp", some "refs/heads/kk"⟩]
        ⟨some "aosp", some ("refs/heads/" ++ "lp")⟩ (build none) "aosp/lp") ∧
    (parse_manifests (fun _ => none) (oneProject none (some "lp") none) [] =
        .ok ([build none], oneRemote ⟨some "aosp", some "lp"⟩, ⟨some "aosp", some "lp"⟩) ∧
      updateRevision (oneRemote ⟨some "aosp", some "lp"⟩) (build none) = .ok "lp" ∧
      ¬ FollowsPrecedence [⟨some "aosp", none⟩] ⟨some "aosp", some "lp"⟩ (build none) "lp") ∧
    (parse_manifests (fun _ => none) (oneProject none (some "kk") (some "refs/heads/lp")) [] =
        .ok ([build (some "refs/heads/lp")], oneRemote ⟨some "aosp", some "kk"⟩,
          ⟨some "aosp", some "kk"⟩) ∧
      updateRevision (oneRemote ⟨some "aosp", some "kk"⟩) (build (some "refs/heads/lp")) =
        .ok "aosp/refs/heads/lp" ∧
      ¬ FollowsPrecedence [⟨some "aosp", none⟩] ⟨some "aosp", some "kk"⟩
        (build (some "refs/heads/lp")) "aosp/refs/heads/lp") ∧
    ∃ ps remotes default, parse_manifests (fun _ => none)
        (oneProject (some ("refs/heads/" ++ "lp")) none none) [redefined "mm"] =
        .ok (ps, remotes, default) ∧
      updateRevision remotes (build none) = .ok "aosp/lp" ∧
      ¬ FollowsPrecedence [⟨some "aosp", some ("refs/heads/" ++ "lp")⟩,
        ⟨some "aosp", some ("refs/heads/" ++ "mm")⟩] default (build none) "aosp/lp" := by
  refine ⟨⟨?_, rfl, ?_⟩, ⟨?_, rfl, ?_⟩, ⟨?_, rfl, ?_⟩, ?_⟩
  · exact parse_oneProject none (init_branch _ "lp" (plainBranch_short (by decide)))
  · rintro ⟨rev, hrev, hw⟩
    obtain rfl : "refs/heads/" ++ "kk" = rev := Option.some.inj hrev
    exact absurd hw.of_heads (by decide)
  · exact parse_oneProject none (init_plain none (by decide) (by decide))
  · rintro ⟨rev, hrev, hw⟩
    obtain rfl : "lp" = rev := Option.some.inj hrev
    exact absurd (hw.of_branch (by decide)) (by decide)
  · exact parse_oneProject _ (init_plain none (by decide) (by decide))
  · rintro ⟨rev, hrev, hw⟩
    obtain rfl : "refs/heads/" ++ "lp" = rev := Option.some.inj hrev
    exact absurd hw.of_heads (by decide)
  · refine ⟨_, _, _, parse_redefined (plainBranch_short (by decide)) (plainBranch_short (by decide)),
      rfl, ?_⟩
    rintro ⟨rev, hrev, hw⟩
    obtain rfl : "refs/heads/" ++ "mm" = rev := Option.some.inj hrev
    exact absurd hw.of_heads (by decide)

end Codina.Patches
