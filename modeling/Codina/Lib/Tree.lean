/-
  A directory tree, and the files directly inside one directory.

  A tree maps a path, the list of its components from the root, to nothing, a directory or a file.
  `makedirs` creates what is missing above and at a path, and `replaceFiles` removes the regular files
  of a directory and puts others in their place; its subdirectories stay.  Each operation says what it
  does to every path, so that "nothing else changes" is read off (`created_apply`,
  `replaceFiles_other`).

  Nothing here names a particular program.
-/
import Mathlib.Data.List.Infix

namespace Codina.Dirs

variable {N C : Type}

inductive Node (C : Type) where
  | dir
  | file (content : C)

/-- The tree below a root; a path is the list of its components. -/
abbrev Tree (N C : Type) := List N → Option (Node C)

def isFile : Option (Node C) → Bool
  | some (.file _) => true
  | _ => false

def isDir : Option (Node C) → Bool
  | some .dir => true
  | _ => false

/-- `q` is directly inside `d`. -/
def InDir (d q : List N) : Prop := ∃ n, q = d ++ [n]

theorem inDir_iff {d e : List N} {n : N} : InDir e (d ++ [n]) ↔ e = d := by
  constructor
  · rintro ⟨m, h⟩
    exact (List.append_inj' h rfl).1.symm
  · rintro rfl
    exact ⟨n, rfl⟩

theorem not_inDir_self (d : List N) : ¬ InDir d d := by
  rintro ⟨n, h⟩
  have hlen := congrArg List.length h
  rw [List.length_append] at hlen
  simp at hlen

/-- The regular files directly inside a directory. -/
def files (t : Tree N C) (d : List N) : N → Option C := fun n =>
  match t (d ++ [n]) with
  | some (.file c) => some c
  | _ => none

theorem files_of_map {t : Tree N C} {d : List N} {n : N} {o : Option C}
    (h : t (d ++ [n]) = o.map Node.file) : files t d n = o := by
  unfold files
  rw [h]
  cases o <;> rfl

/-- A directory is no regular file. -/
theorem files_of_isDir {t : Tree N C} {d : List N} {n : N} (h : isDir (t (d ++ [n])) = true) :
    files t d n = none := by
  unfold files
  cases hnode : t (d ++ [n]) with
  | none => rfl
  | some node =>
    cases node with
    | dir => rfl
    | file c =>
      rw [hnode] at h
      exact absurd h (by simp [isDir])

/-- Whatever is no directory is what `files` says. -/
theorem eq_of_files {t : Tree N C} {d : List N} {n : N} (h : isDir (t (d ++ [n])) = false) :
    t (d ++ [n]) = (files t d n).map Node.file := by
  unfold files
  cases hnode : t (d ++ [n]) with
  | none => rfl
  | some node =>
    cases node with
    | dir =>
      rw [hnode] at h
      exact absurd h (by simp [isDir])
    | file c => rfl

variable [DecidableEq N]

/-- Create the directory and what is missing above it; `none` where a file is in the way. -/
def makedirs (d : List N) (t : Tree N C) : Option (Tree N C) :=
  if d.inits.any fun q => isFile (t q) then none
  else some fun q => if q <+: d ∧ (t q).isNone then some .dir else t q

/-- `makedirs` unless there is something already. -/
def created (d : List N) (t : Tree N C) : Option (Tree N C) :=
  if (t d).isSome then some t else makedirs d t

/-- Change what is directly inside `d`, by name. -/
def editDir (d : List N) (f : N → Option (Node C) → Option (Node C)) (t : Tree N C) : Tree N C :=
  fun q =>
    match q.getLast? with
    | some n => if q.dropLast = d then f n (t q) else t q
    | none => t q

/-- Remove the regular files of a directory. -/
def removeFiles (d : List N) (t : Tree N C) : Tree N C :=
  editDir d (fun _ node => if isFile node then none else node) t

/-- Write files into a directory; a directory of that name stays. -/
def writeFiles (d : List N) (new : N → Option C) (t : Tree N C) : Tree N C :=
  editDir d (fun n node => if isDir node then node else (new n).elim node fun c => some (.file c)) t

def replaceFiles (d : List N) (new : N → Option C) (t : Tree N C) : Tree N C :=
  writeFiles d new (removeFiles d t)

/-! ## What changes where -/

theorem editDir_in (d : List N) (f : N → Option (Node C) → Option (Node C)) (t : Tree N C) (n : N) :
    editDir d f t (d ++ [n]) = f n (t (d ++ [n])) := by
  unfold editDir
  rw [List.getLast?_concat]
  simp

theorem editDir_other (d : List N) (f : N → Option (Node C) → Option (Node C)) (t : Tree N C)
    {q : List N} (h : ¬ InDir d q) : editDir d f t q = t q := by
  unfold editDir
  cases hlast : q.getLast? with
  | none => rfl
  | some n =>
    have hq : q.dropLast ++ [n] = q := List.dropLast_append_getLast? n hlast
    have hne : q.dropLast ≠ d := fun he => h ⟨n, by rw [← he, hq]⟩
    simp only [if_neg hne]

/-- **Replaced files**: a directory stays, and every other name is what is new. -/
theorem replaceFiles_in (d : List N) (new : N → Option C) (t : Tree N C) (n : N) :
    replaceFiles d new t (d ++ [n]) =
      if isDir (t (d ++ [n])) then t (d ++ [n]) else (new n).map Node.file := by
  unfold replaceFiles writeFiles removeFiles
  rw [editDir_in, editDir_in]
  cases t (d ++ [n]) with
  | none => cases new n <;> rfl
  | some node =>
    cases node with
    | dir => rfl
    | file c => cases new n <;> rfl

theorem replaceFiles_other (d : List N) (new : N → Option C) (t : Tree N C) {q : List N}
    (h : ¬ InDir d q) : replaceFiles d new t q = t q := by
  unfold replaceFiles writeFiles removeFiles
  rw [editDir_other _ _ _ h, editDir_other _ _ _ h]

/-- What is created is a directory at or above `d`, where nothing was and `d` was missing. -/
theorem created_apply {d : List N} {t t' : Tree N C} (h : created d t = some t') (q : List N) :
    t' q = t q ∨ q <+: d ∧ t d = none ∧ t q = none ∧ t' q = some .dir := by
  unfold created makedirs at h
  by_cases hd : (t d).isSome
  · rw [if_pos hd] at h
    cases h
    exact Or.inl rfl
  · rw [if_neg hd] at h
    split at h
    · exact absurd h (by simp)
    · cases h
      by_cases hq : q <+: d ∧ (t q).isNone
      · exact Or.inr ⟨hq.1, by simpa using hd, by simpa using hq.2, if_pos hq⟩
      · exact Or.inl (if_neg hq)

/-- Where there is something already, nothing is created. -/
theorem created_of_exists {d : List N} {t t' : Tree N C} (h : created d t = some t')
    (hd : t d ≠ none) : t' = t := by
  unfold created at h
  rw [if_pos (Option.isSome_iff_ne_none.mpr hd)] at h
  exact (Option.some.inj h).symm

/-- A missing directory is created. -/
theorem created_self {d : List N} {t t' : Tree N C} (h : created d t = some t') (hd : t d = none) :
    t' d = some .dir := by
  unfold created makedirs at h
  rw [if_neg (by simp [hd])] at h
  split at h
  · exact absurd h (by simp)
  · cases h
    exact if_pos ⟨List.prefix_rfl, by simp [hd]⟩

/-- A tree whose files in `d` and whose other nodes are the same is the same tree. -/
theorem replaceFiles_same {d : List N} {new : N → Option C} {t : Tree N C}
    (h : ∀ n, isDir (t (d ++ [n])) = false → files t d n = new n) : replaceFiles d new t = t := by
  funext q
  by_cases hq : InDir d q
  · obtain ⟨n, rfl⟩ := hq
    rw [replaceFiles_in]
    cases hdir : isDir (t (d ++ [n])) with
    | true => rfl
    | false =>
      rw [if_neg (by decide), eq_of_files hdir, h n hdir]
  · exact replaceFiles_other d new t hq

end Codina.Dirs
