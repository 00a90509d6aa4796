/-
  The upstream ref of a project: what `update.py` and `fetch.py` make of the manifests.

  `update_repos` takes the patches between a ref and HEAD; `fetch_unshallow` fetches a branch from a
  remote.  Both start from the project's own remote and revision and fall back on the cached entry
  `remotes["default"]`.  A project with a revision is treated alike by both.  Without one,
  `update_repos` uses the default revision as it is, while `fetch_unshallow` splits it at its slash and
  unpacks two parts: it raises when there is another slash, and means `remote/revision` where
  `update_repos` means `revision` when there is none (`same_ref_iff`).

  What the default revision is, is decided in `Remote.__init__`: the default element's revision, where
  there is one, stands above the remote's own, and a leading `refs/heads` becomes the remote's name
  (`upstream_ref_of_manifests`).  Everything later, a remote defined again or another remote's revision,
  is not looked at.
-/
import Codina.Lib.Strings
import Codina.Patches.ParseManifests

namespace Codina.Patches

open Codina.Strings

/-! ## The two scripts -/

inductive Raised where
  | keyError
  | typeError
  | valueError
deriving DecidableEq

/-- `a or b`. -/
def pyOr (a b : Option String) : Option String := if truthy a then a else b

/-- `"%s" % a`. -/
def fmt (a : Option String) : String := a.getD "None"

/-- The list starts with the line break that opens the literal. -/
def PROJECTS : List String :=
  ["", "frameworks/base", "frameworks/av", "frameworks/native", "build", "bootable/recovery",
    "packages/services/Telecomm", "bionic", "hardware/libhardware", "hardware/ril", "system/vold",
    "system/media", "system/core"]

/-- `remotes["default"]`. -/
def defaultRemote (remotes : Remotes) : Except Raised Remote :=
  match remotes (some "default") with
  | some d => .ok d
  | none => .error .keyError

/-- `p.get("remote") or remotes["default"].name`. -/
def remoteOf (remotes : Remotes) (p : Project) : Except Raised (Option String) :=
  if truthy p.remote then .ok p.remote else (defaultRemote remotes).map Remote.name

/-- The projects a script looks at. -/
def isSelected (repos : List String) (p : Project) : Prop :=
  p.path ∈ repos ∧ p.path.startsWith "#" = false

instance (repos : List String) (p : Project) : Decidable (isSelected repos p) :=
  inferInstanceAs (Decidable (_ ∧ _))

/-- `if not repos: repos = PROJECTS`. -/
def reposOrAll (repos : List String) : List String := if repos = [] then PROJECTS else repos

/-- `update_repos`: the argument of `git rev-parse`. -/
def updateRevision (remotes : Remotes) (p : Project) : Except Raised String := do
  let remote ← remoteOf remotes p
  if truthy p.revision then return fmt remote ++ "/" ++ fmt p.revision
  else return fmt (← defaultRemote remotes).revision

/-- `fetch_unshallow`: the remote and the branch for `git fetch`. -/
def fetchPair (remotes : Remotes) (p : Project) : Except Raised (String × String) := do
  let remote ← remoteOf remotes p
  if truthy p.revision then return (fmt remote, fmt p.revision)
  else
    match (← defaultRemote remotes).revision with
    -- "/" in None
    | none => throw .typeError
    | some revision =>
      if '/' ∈ revision.toList then
        match revision.toList.splitOn '/' with
        | [remote, revision] => return (String.ofList remote, String.ofList revision)
        -- too many values to unpack
        | _ => throw .valueError
      else return (fmt remote, revision)

/-- The scripts mean the same ref for a project: `fetch_unshallow` computes its pair, and joined by a
    slash it is the argument of `git rev-parse`. -/
def SameRef (remotes : Remotes) (p : Project) : Prop :=
  ∃ remote branch, fetchPair remotes p = .ok (remote, branch) ∧
    updateRevision remotes p = .ok (remote ++ "/" ++ branch)

/-! ## When they mean the same -/

theorem remoteOf_ok {remotes : Remotes} {d : Remote} (hd : remotes (some "default") = some d)
    (p : Project) : remoteOf remotes p = .ok (pyOr p.remote d.name) := by
  unfold remoteOf pyOr defaultRemote
  rw [hd]
  by_cases hr : truthy p.remote = true
  · rw [if_pos hr, if_pos hr]
  · rw [if_neg hr, if_neg hr]
    rfl

theorem ofList_slash (a b : List Char) :
    String.ofList a ++ "/" ++ String.ofList b = String.ofList (a ++ '/' :: b) := by
  apply String.toList_inj.mp
  simp

/-- A ref is longer than its last part. -/
theorem append_slash_ne (a b : String) : b ≠ a ++ "/" ++ b := by
  intro h
  have hlen := congrArg String.length h
  rw [String.length_append, String.length_append, show "/".length = 1 from rfl] at hlen
  omega

/-- A revision of its own stands behind the remote. -/
theorem updateRevision_own {remotes : Remotes} {d : Remote} {p : Project}
    (hd : remotes (some "default") = some d) (hrev : truthy p.revision = true) :
    updateRevision remotes p = .ok (fmt (pyOr p.remote d.name) ++ "/" ++ fmt p.revision) := by
  unfold updateRevision
  rw [remoteOf_ok hd, hrev]
  rfl

/-- `update_repos` falls back on the default revision as it stands. -/
theorem updateRevision_default {remotes : Remotes} {d : Remote} {p : Project}
    (hd : remotes (some "default") = some d) (hrev : truthy p.revision = false) :
    updateRevision remotes p = .ok (fmt d.revision) := by
  unfold updateRevision defaultRemote
  rw [remoteOf_ok hd, hd, hrev]
  rfl

/-- `fetch_unshallow` looks for a slash in it. -/
theorem fetchPair_default {remotes : Remotes} {d : Remote} {p : Project} {rev : String}
    (hd : remotes (some "default") = some d) (hrev : truthy p.revision = false)
    (hdr : d.revision = some rev) :
    fetchPair remotes p =
      if '/' ∈ rev.toList then
        match rev.toList.splitOn '/' with
        | [remote, revision] => .ok (String.ofList remote, String.ofList revision)
        | _ => .error .valueError
      else .ok (fmt (pyOr p.remote d.name), rev) := by
  unfold fetchPair defaultRemote
  rw [remoteOf_ok hd, hd, hrev]
  simp only [bind, Except.bind, hdr]
  rfl

/-- With slashes, the two names are there when there is one slash, and then they are the two sides of
    it. -/
theorem sameRef_slash_iff {remotes : Remotes} {d : Remote} {p : Project} {rev : String}
    (hd : remotes (some "default") = some d) (hrev : truthy p.revision = false)
    (hdr : d.revision = some rev) (hslash : '/' ∈ rev.toList) :
    SameRef remotes p ↔ rev.toList.count '/' = 1 := by
  have hlen := length_splitOn '/' rev.toList
  unfold SameRef
  rw [updateRevision_default hd hrev, fetchPair_default hd hrev hdr, if_pos hslash]
  constructor
  · rintro ⟨remote, branch, h, _⟩
    split at h
    · rename_i hsplit
      rw [hsplit] at hlen
      simpa using hlen.symm
    · exact absurd h (by simp)
  · intro hone
    obtain ⟨a, b, hsplit⟩ := List.length_eq_two.mp (hlen.trans (by omega))
    refine ⟨String.ofList a, String.ofList b, by rw [hsplit], ?_⟩
    rw [ofList_slash, splitOn_pair hsplit, String.ofList_toList, hdr]
    rfl

/-- Without one, `fetch_unshallow` puts the remote in front and `update_repos` does not. -/
theorem not_sameRef_plain {remotes : Remotes} {d : Remote} {p : Project} {rev : String}
    (hd : remotes (some "default") = some d) (hrev : truthy p.revision = false)
    (hdr : d.revision = some rev) (hslash : '/' ∉ rev.toList) : ¬ SameRef remotes p := by
  rintro ⟨remote, branch, hpair, hjoin⟩
  rw [fetchPair_default hd hrev hdr, if_neg hslash] at hpair
  obtain ⟨rfl, rfl⟩ := Prod.mk.inj (Except.ok.inj hpair)
  rw [updateRevision_default hd hrev, hdr] at hjoin
  exact append_slash_ne _ _ (Except.ok.inj hjoin)

/-- Without a default revision `fetch_unshallow` raises. -/
theorem not_sameRef_none {remotes : Remotes} {d : Remote} {p : Project}
    (hd : remotes (some "default") = some d) (hrev : truthy p.revision = false)
    (hdr : d.revision = none) : ¬ SameRef remotes p := by
  have hfetch : fetchPair remotes p = .error .typeError := by
    unfold fetchPair defaultRemote
    rw [remoteOf_ok hd, hd, hrev]
    simp only [bind, Except.bind, hdr]
    rfl
  rintro ⟨_, _, hpair, _⟩
  rw [hfetch] at hpair
  exact absurd hpair (by simp)

/-- What the scripts make of a project without a revision, by the default revision. -/
theorem sameRef_default_iff {remotes : Remotes} {d : Remote} {p : Project}
    (hd : remotes (some "default") = some d) (hrev : truthy p.revision = false) :
    SameRef remotes p ↔ ∃ rev, d.revision = some rev ∧ rev.toList.count '/' = 1 := by
  cases hdr : d.revision with
  | none => simpa using not_sameRef_none hd hrev hdr
  | some rev =>
    by_cases hslash : '/' ∈ rev.toList
    · simpa using sameRef_slash_iff hd hrev hdr hslash
    · have hzero : rev.toList.count '/' = 0 := List.count_eq_zero.mpr hslash
      simpa [hzero] using not_sameRef_plain hd hrev hdr hslash

/-- A project with a revision is treated alike. -/
theorem sameRef_of_revision {remotes : Remotes} {d : Remote} {p : Project}
    (hd : remotes (some "default") = some d) (hrev : truthy p.revision = true) :
    SameRef remotes p := by
  refine ⟨fmt (pyOr p.remote d.name), fmt p.revision, ?_, updateRevision_own hd hrev⟩
  unfold fetchPair
  rw [remoteOf_ok hd, hrev]
  rfl

/-! ## The default entry -/

/-- The last of these tags with a name. -/
def lastTag (n : Option String) (tags : List RemoteTag) : Option RemoteTag :=
  (tags.filter fun tag => tag.name = n).getLast?

theorem lastTag_cons (n : Option String) (tag : RemoteTag) (tags : List RemoteTag) :
    lastTag n (tag :: tags) = (lastTag n tags).or (if tag.name = n then some tag else none) := by
  unfold lastTag
  by_cases hn : tag.name = n
  · rw [List.filter_cons_of_pos (by simpa using hn), List.getLast?_cons, if_pos hn]
    cases (tags.filter fun tag => tag.name = n).getLast? <;> rfl
  · rw [List.filter_cons_of_neg (by simpa using hn), if_neg hn, Option.or_none]

theorem lastTag_eq_none {n : Option String} {tags : List RemoteTag} :
    lastTag n tags = none ↔ ∀ tag ∈ tags, tag.name ≠ n := by
  rw [lastTag, List.getLast?_eq_none_iff, List.filter_eq_nil_iff]
  simp only [decide_eq_true_eq, ne_eq]

theorem lastTag_name {n : Option String} {tags : List RemoteTag} {last : RemoteTag}
    (h : lastTag n tags = some last) : last.name = n := by
  have hmem := (List.mem_filter.mp (List.mem_of_getLast? h)).2
  simpa using hmem

/-- Read these tags into the dictionary. -/
def addTags (default : DefaultTag) (tags : List RemoteTag) (remotes : Remotes) :
    Except Exception Remotes :=
  tags.foldlM (fun remotes tag => do
    let r ← Remote.init tag default
    return Function.update remotes r.name (some r)) remotes

theorem init_name {tag : RemoteTag} {default : DefaultTag} {r : Remote}
    (h : Remote.init tag default = .ok r) : r.name = tag.name := by
  unfold Remote.init at h
  simp only at h
  split at h
  · split at h
    · split at h
      · rename_i hname
        rw [← Except.ok.inj h, hname]
      · exact absurd h (by simp)
    · rw [← Except.ok.inj h]
  · rw [← Except.ok.inj h]

/-- The revision a remote is given: the default element's, if that names the remote and has one, or
    its own. -/
def givenRevision (tag : RemoteTag) (default : DefaultTag) : Option String :=
  if default.remote = tag.name ∧ truthy default.revision then default.revision else tag.revision

/-- The revision as it is written for git. -/
def writtenRevision (tag : RemoteTag) (default : DefaultTag) : Option String :=
  (givenRevision tag default).map fun rev =>
    if rev.startsWith "refs/heads/" then rev.replace "refs/heads" (fmt tag.name) else rev

theorem init_revision {tag : RemoteTag} {default : DefaultTag} {r : Remote}
    (h : Remote.init tag default = .ok r) : r.revision = writtenRevision tag default := by
  unfold Remote.init at h
  unfold writtenRevision givenRevision
  simp only at h
  split at h
  · rename_i rev hgiven
    rw [hgiven, Option.map_some]
    by_cases hstart : rev.startsWith "refs/heads/" = true
    · rw [if_pos hstart] at h ⊢
      split at h
      · rename_i n hname
        rw [← Except.ok.inj h, hname]
        rfl
      · exact absurd h (by simp)
    · rw [if_neg hstart] at h ⊢
      rw [← Except.ok.inj h]
      exact hgiven
  · rename_i hgiven
    rw [← Except.ok.inj h, hgiven]
    rfl

/-- What reading tags into the dictionary does to a name none of them has. -/
theorem addRemotes_other {default : DefaultTag} {n : Option String} (tags : List RemoteTag) :
    ∀ {remotes remotes' : Remotes}, addTags default tags remotes = .ok remotes' →
      (∀ tag ∈ tags, tag.name ≠ n) → remotes' n = remotes n := by
  induction tags with
  | nil =>
    intro remotes remotes' h _
    cases h
    rfl
  | cons tag tags ih =>
    intro remotes remotes' h hne
    rw [addTags, List.foldlM_cons] at h
    obtain ⟨mid, hmid, h⟩ := bind_ok h
    obtain ⟨r, hr, hmid⟩ := bind_ok hmid
    cases hmid
    have hname : n ≠ r.name := by
      rw [init_name hr]
      exact Ne.symm (hne tag List.mem_cons_self)
    rw [ih h fun t ht => hne t (List.mem_cons_of_mem _ ht)]
    exact Function.update_of_ne hname _ _

/-- A name some tag has is entered with the last one. -/
theorem addRemotes_last {default : DefaultTag} {n : Option String} (tags : List RemoteTag) :
    ∀ {remotes remotes' : Remotes} {last : RemoteTag},
      addTags default tags remotes = .ok remotes' → lastTag n tags = some last →
      last.name = n ∧ ∃ r, Remote.init last default = .ok r ∧ remotes' n = some r := by
  induction tags with
  | nil => intro _ _ _ _ h; exact absurd h (by simp [lastTag])
  | cons tag tags ih =>
    intro remotes remotes' last h hlast
    rw [addTags, List.foldlM_cons] at h
    obtain ⟨mid, hmid, h⟩ := bind_ok h
    obtain ⟨r, hr, hmid⟩ := bind_ok hmid
    cases hmid
    rw [lastTag_cons] at hlast
    cases hlater : lastTag n tags with
    | some last' =>
      rw [hlater] at hlast
      cases hlast
      exact ih h hlater
    | none =>
      -- no later tag has the name: this one is the last
      rw [hlater, Option.none_or] at hlast
      obtain ⟨hn, htag⟩ := Option.ite_none_right_eq_some.mp hlast
      obtain rfl := Option.some.inj htag
      refine ⟨hn, r, hr, ?_⟩
      rw [addRemotes_other tags h (lastTag_eq_none.mp hlater), ← hn, ← init_name hr]
      exact Function.update_self _ _ _

theorem addTags_append (default : DefaultTag) (tags tags' : List RemoteTag) (remotes : Remotes) :
    addTags default (tags ++ tags') remotes = addTags default tags remotes >>= addTags default tags' :=
  List.foldlM_append

/-- Manifests read one after another: their tags one after another. -/
theorem addManifests_eq (default : DefaultTag) (ms : List Manifest) : ∀ remotes : Remotes,
    ms.foldlM (fun remotes m => addRemotes default m remotes) remotes =
      addTags default (ms.flatMap Manifest.remotes) remotes := by
  induction ms with
  | nil => intro remotes; rfl
  | cons m ms ih =>
    intro remotes
    rw [List.foldlM_cons, List.flatMap_cons, addTags_append]
    refine congrArg (addTags default m.remotes remotes >>= ·) (funext fun mid => ih mid)

/-- The remotes that the included and the local manifests define, in order. -/
def laterRemotes (files : String → Option Manifest) (tree : Manifest)
    (local_manifests : List Manifest) : List RemoteTag :=
  (tree.includes.filterMap (included files) ++ local_manifests).flatMap Manifest.remotes

/-- The tag behind `remotes["default"]`: the last later remote with that very name or, as there
    usually is none, the default element's remote as the default manifest defines it last. -/
def defaultEntryTag (files : String → Option Manifest) (tree : Manifest)
    (local_manifests : List Manifest) (default : DefaultTag) : Option RemoteTag :=
  (lastTag (some "default") (laterRemotes files tree local_manifests)).or
    (lastTag default.remote tree.remotes)

section Parsed

variable {files : String → Option Manifest} {tree : Manifest} {local_manifests : List Manifest}
  {ps : Projects} {remotes : Remotes} {default : DefaultTag}

/-- **The dictionary of `parse_manifests`**: the default manifest's remotes, the entry "default" for
    the one the default element names, and then all later remotes on top. -/
theorem parse_remotes_ok
    (h : parse_manifests files tree local_manifests = .ok (ps, remotes, default)) :
    tree.default = some default ∧ ∃ own d, addTags default tree.remotes (fun _ => none) = .ok own ∧
      own default.remote = some d ∧
      addTags default (laterRemotes files tree local_manifests)
        (Function.update own (some "default") (some d)) = .ok remotes := by
  unfold parse_manifests at h
  obtain ⟨default', hdefault, h⟩ := bind_ok h
  obtain ⟨own, hown, h⟩ := bind_ok h
  obtain ⟨d, hd, h⟩ := bind_ok h
  obtain ⟨_, _, h⟩ := bind_ok h
  obtain ⟨custom, hcustom, h⟩ := bind_ok h
  obtain ⟨mid, hmid, h⟩ := bind_ok h
  obtain ⟨_, _, h⟩ := bind_ok h
  obtain ⟨_, _, h⟩ := bind_ok h
  obtain ⟨last, hlast, h⟩ := bind_ok h
  obtain ⟨_, _, h⟩ := bind_ok h
  cases h
  refine ⟨?_, own, d, hown, ?_, ?_⟩
  · cases htree : tree.default with
    | none => rw [htree] at hdefault; exact absurd hdefault (by simp [orRaise])
    | some t => rw [htree] at hdefault; exact congrArg some (Except.ok.inj hdefault)
  · cases hentry : own default.remote with
    | none => rw [hentry] at hd; exact absurd hd (by simp [orRaise])
    | some e => rw [hentry] at hd; exact congrArg some (Except.ok.inj hd)
  · rw [laterRemotes, List.flatMap_append, addTags_append, ← included_ok hcustom,
      ← addManifests_eq, hmid]
    show addTags default (local_manifests.flatMap Manifest.remotes) mid = _
    rw [← addManifests_eq, hlast]

/-- **The default entry** is `Remote.__init__` of its tag. -/
theorem default_entry_of_tag
    (h : parse_manifests files tree local_manifests = .ok (ps, remotes, default)) :
    ∃ tag d, defaultEntryTag files tree local_manifests default = some tag ∧
      Remote.init tag default = .ok d ∧ remotes (some "default") = some d := by
  obtain ⟨_, own, d, hown, hd, hlater⟩ := parse_remotes_ok h
  unfold defaultEntryTag
  cases hlast : lastTag (some "default") (laterRemotes files tree local_manifests) with
  | some tag =>
    obtain ⟨_, r, hr, hentry⟩ := addRemotes_last _ hlater hlast
    exact ⟨tag, r, rfl, hr, hentry⟩
  | none =>
    rw [addRemotes_other _ hlater (lastTag_eq_none.mp hlast), Function.update_self]
    cases hfirst : lastTag default.remote tree.remotes with
    | some tag =>
      obtain ⟨_, r, hr, hentry⟩ := addRemotes_last _ hown hfirst
      exact ⟨tag, d, rfl, by rw [hr, Option.some.inj (hentry.symm.trans hd)], rfl⟩
    | none =>
      rw [addRemotes_other _ hown (lastTag_eq_none.mp hfirst)] at hd
      exact absurd hd (by simp)

/-- Unless a later remote has the very name "default", the entry is the default element's remote as
    the default manifest defines it last. -/
theorem default_entry_cached
    (h : parse_manifests files tree local_manifests = .ok (ps, remotes, default))
    (hlater : ∀ tag ∈ laterRemotes files tree local_manifests, tag.name ≠ some "default") :
    ∃ last d, lastTag default.remote tree.remotes = some last ∧ last.name = default.remote ∧
      Remote.init last default = .ok d ∧ remotes (some "default") = some d := by
  obtain ⟨tag, d, htag, hinit, hd⟩ := default_entry_of_tag h
  rw [defaultEntryTag, lastTag_eq_none.mpr hlater, Option.none_or] at htag
  exact ⟨tag, d, htag, lastTag_name htag, hinit, hd⟩

/-- **Both scripts mean the same ref for a project exactly when** it has a revision of its own or the
    default revision has one slash; and the default revision is what the manifests write for it. -/
theorem same_ref_iff (p : Project)
    (h : parse_manifests files tree local_manifests = .ok (ps, remotes, default)) :
    (SameRef remotes p ↔ truthy p.revision = true ∨
      ∃ d rev, remotes (some "default") = some d ∧ d.revision = some rev ∧
        rev.toList.count '/' = 1) ∧
    (SameRef remotes p ↔ truthy p.revision = true ∨
      ∃ tag rev, defaultEntryTag files tree local_manifests default = some tag ∧
        writtenRevision tag default = some rev ∧ rev.toList.count '/' = 1) := by
  obtain ⟨tag, d, htag, hinit, hd⟩ := default_entry_of_tag h
  cases hrev : truthy p.revision with
  | true =>
    have hsame := sameRef_of_revision hd hrev
    exact ⟨⟨fun _ => Or.inl rfl, fun _ => hsame⟩, fun _ => Or.inl rfl, fun _ => hsame⟩
  | false =>
    rw [sameRef_default_iff hd hrev]
    constructor
    · constructor
      · rintro ⟨rev, hr, hone⟩
        exact Or.inr ⟨d, rev, hd, hr, hone⟩
      · rintro (hfalse | ⟨d', rev, hd', hr, hone⟩)
        · exact absurd hfalse (by decide)
        · rw [hd] at hd'
          obtain rfl := Option.some.inj hd'
          exact ⟨rev, hr, hone⟩
    · rw [init_revision hinit]
      constructor
      · rintro ⟨rev, hr, hone⟩
        exact Or.inr ⟨tag, rev, htag, hr, hone⟩
      · rintro (hfalse | ⟨tag', rev, htag', hr, hone⟩)
        · exact absurd hfalse (by decide)
        · rw [htag] at htag'
          obtain rfl := Option.some.inj htag'
          exact ⟨rev, hr, hone⟩

end Parsed

/-- A default manifest with one remote and one project. -/
def oneProject (remote revision own : Option String) : Manifest :=
  { remotes := [⟨some "aosp", remote⟩], default := some ⟨some "aosp", revision⟩,
    projects := [⟨some "platform/build", some "build", none, own⟩] }

/-- The dictionary with one remote, which is the default one. -/
def oneRemote (r : Remote) : Remotes :=
  Function.update (Function.update (fun _ => none) (some "aosp") (some r)) (some "default") (some r)

theorem isSelected_build (own : Option String) :
    isSelected (reposOrAll []) ⟨"platform/build", "build", none, own⟩ := by
  show "build" ∈ reposOrAll [] ∧ "build".startsWith "#" = false
  refine ⟨by decide, ?_⟩
  rw [String.startsWith_string_eq_false_iff]
  decide

theorem parse_oneProject {remote revision entered : Option String} (own : Option String)
    (hinit : Remote.init ⟨some "aosp", remote⟩ ⟨some "aosp", revision⟩ = .ok ⟨some "aosp", entered⟩) :
    parse_manifests (fun _ => none) (oneProject remote revision own) [] =
      .ok ([⟨"platform/build", "build", none, own⟩], oneRemote ⟨some "aosp", entered⟩,
        ⟨some "aosp", revision⟩) := by
  have htags : addRemotes ⟨some "aosp", revision⟩ (oneProject remote revision own) (fun _ => none) =
      .ok (Function.update (fun _ => none) (some "aosp") (some ⟨some "aosp", entered⟩)) := by
    unfold addRemotes oneProject
    simp only [List.foldlM_cons, hinit]
    rfl
  unfold parse_manifests
  have hdefault : orRaise .attributeError (oneProject remote revision own).default =
      .ok ⟨some "aosp", revision⟩ := rfl
  simp only [hdefault, bind, Except.bind, htags]
  rfl

/-- A default revision that is no refs/heads is entered as it is. -/
theorem init_plain (remote : Option String) {rev : String} (hne : rev ≠ "")
    (hrev : ¬ "refs/heads/".toList <+: rev.toList) :
    Remote.init ⟨some "aosp", remote⟩ ⟨some "aosp", some rev⟩ = .ok ⟨some "aosp", some rev⟩ := by
  have hstart : rev.startsWith "refs/heads/" = false := String.startsWith_string_eq_false_iff.mpr hrev
  simp [Remote.init, truthy, hne, hstart]

/-- A project with its own revision, beside a default revision that is a tag. -/
theorem same_ref_own_revision :
    SameRef (oneRemote ⟨some "aosp", some "refs/tags/r1"⟩)
      ⟨"platform/build", "build", none, some "lp"⟩ :=
  (same_ref_iff ⟨"platform/build", "build", none, some "lp"⟩
    (parse_oneProject (some "lp") (init_plain none (by decide) (by decide)))).1.mpr
      (Or.inl (by decide))

/-- A default revision that is a tag: `fetch_unshallow` raises.  One that is a plain branch:
    `fetch_unshallow` means a branch of the default remote, and `update_repos` a local one. -/
theorem default_revision_misread :
    (parse_manifests (fun _ => none) (oneProject none (some "refs/tags/r1") none) [] =
        .ok ([⟨"platform/build", "build", none, none⟩],
          oneRemote ⟨some "aosp", some "refs/tags/r1"⟩, ⟨some "aosp", some "refs/tags/r1"⟩) ∧
      isSelected (reposOrAll []) ⟨"platform/build", "build", none, none⟩ ∧
      fetchPair (oneRemote ⟨some "aosp", some "refs/tags/r1"⟩)
        ⟨"platform/build", "build", none, none⟩ = .error .valueError ∧
      ¬ SameRef (oneRemote ⟨some "aosp", some "refs/tags/r1"⟩)
        ⟨"platform/build", "build", none, none⟩) ∧
    parse_manifests (fun _ => none) (oneProject none (some "lp") none) [] =
        .ok ([⟨"platform/build", "build", none, none⟩],
          oneRemote ⟨some "aosp", some "lp"⟩, ⟨some "aosp", some "lp"⟩) ∧
      fetchPair (oneRemote ⟨some "aosp", some "lp"⟩) ⟨"platform/build", "build", none, none⟩ =
        .ok ("aosp", "lp") ∧
      updateRevision (oneRemote ⟨some "aosp", some "lp"⟩)
        ⟨"platform/build", "build", none, none⟩ = .ok "lp" ∧
      ¬ SameRef (oneRemote ⟨some "aosp", some "lp"⟩) ⟨"platform/build", "build", none, none⟩ := by
  have hnot : ∀ rev : String, rev.toList.count '/' ≠ 1 →
      ¬ SameRef (oneRemote ⟨some "aosp", some rev⟩) ⟨"platform/build", "build", none, none⟩ := by
    intro rev hcount hsame
    obtain ⟨rev', hrev', hone⟩ := (sameRef_default_iff (Function.update_self _ _ _) rfl).mp hsame
    obtain rfl := Option.some.inj hrev'
    exact hcount hone
  refine ⟨⟨?_, isSelected_build none, rfl, hnot _ (by decide)⟩, ?_, rfl, rfl, hnot _ (by decide)⟩
  · exact parse_oneProject none (init_plain none (by decide) (by decide))
  · exact parse_oneProject none (init_plain none (by decide) (by decide))

end Codina.Patches
