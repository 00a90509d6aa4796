/-
  Strings: one replacement, and splitting at a separator.

  `String.replace` replaces every occurrence of a pattern.  Where the pattern stands at the beginning
  and nowhere else, the result is the new text and the rest (`replace_leading`).  A split has one part
  more than there are separators, and with one separator the two parts are what stands before and
  behind it.
-/
import Mathlib.Data.List.Basic
import Mathlib.Data.List.Count

namespace Codina.Strings

open String.Slice.Pattern String.Slice.Pattern.Model

/-! ## Replacing -/

/-- What one step of a search adds to the result of a replacement. -/
def placed (new : String) {s : String.Slice} (sofar : String) : SearchStep s → String
  | .matched _ _ => sofar ++ new.toSlice
  | .rejected start stop => sofar ++ s.slice! start stop

/-- From a position behind which the pattern does not occur, a search only copies. -/
theorem search_copies {pat : String} (new : String) {s : String.Slice} {pos : s.Pos} {steps : List (SearchStep s)}
    (h : IsValidSearchFrom pat pos steps) : ∀ {before rest : String} (sofar : String),
    pos.Splits before rest → (∀ a b, rest ≠ a ++ pat ++ b) →
    steps.foldl (placed new) sofar = sofar ++ rest := by
  induction h with
  | endPos =>
    intro before rest sofar hsplit _
    obtain rfl := (String.Slice.splits_endPos_iff.mp hsplit).2
    exact String.append_empty.symm
  | matched hmatch _ _ =>
    intro before rest sofar hsplit hnone
    obtain ⟨t₁, t₂, hstart, _⟩ := ForwardStringSearcher.isLongestMatchAt_iff_splits.mp hmatch
    exact absurd (hsplit.eq hstart).2 (by simpa using hnone "" t₂)
  | @mismatched l start stop hlt _ _ ih =>
    intro before rest sofar hsplit hnone
    obtain ⟨t₁, t₂, hstart, hstop⟩ :=
      String.Slice.copy_slice_eq_iff_splits.mp ⟨Std.le_of_lt hlt, rfl⟩
    obtain ⟨rfl, rfl⟩ := hsplit.eq hstart
    have hrest : ∀ a b, t₂ ≠ a ++ pat ++ b := by
      intro a b hab
      refine hnone ((s.slice start stop (Std.le_of_lt hlt)).copy ++ a) b ?_
      rw [hab, String.append_assoc, String.append_assoc, String.append_assoc]
    rw [List.foldl_cons, ih _ hstop hrest]
    have hpiece : placed new sofar (.rejected start stop) =
        sofar ++ (s.slice start stop (Std.le_of_lt hlt)).copy := by
      rw [String.Slice.slice_eq_slice!]
      rfl
    rw [hpiece, String.append_assoc]

/-- From a position where the pattern stands for the last time, a search replaces it and copies. -/
theorem search_replaces {pat : String} (new : String) (hpat : pat ≠ "") {s : String.Slice} {pos : s.Pos}
    {steps : List (SearchStep s)} (h : IsValidSearchFrom pat pos steps) {before rest : String}
    (sofar : String) (hsplit : pos.Splits before (pat ++ rest)) (hnone : ∀ a b, rest ≠ a ++ pat ++ b) :
    steps.foldl (placed new) sofar = sofar ++ new ++ rest := by
  cases h with
  | endPos =>
    have hempty := (String.Slice.splits_endPos_iff.mp hsplit).2
    exact absurd (String.append_eq_empty_iff.mp hempty).1 hpat
  | matched hmatch htail =>
    obtain ⟨t₁, t₂, hstart, hstop⟩ := ForwardStringSearcher.isLongestMatchAt_iff_splits.mp hmatch
    obtain ⟨rfl, htext⟩ := hsplit.eq hstart
    obtain rfl := String.append_right_inj pat |>.mp htext
    have hnew : ∀ stop, placed new sofar (.matched pos stop) = sofar ++ new := by
      intro stop
      show sofar ++ new.toSlice.copy = _
      rw [String.copy_toSlice]
    rw [List.foldl_cons, search_copies new htail _ hstop hnone, hnew]
  | mismatched hlt hno _ =>
    exact absurd (ForwardStringSearcher.matchesAt_iff_splits.mpr ⟨_, _, hsplit⟩)
      (hno _ (Std.le_refl _) hlt)

/-- **A pattern at the beginning and nowhere else is replaced once.** -/
theorem replace_leading {pat : String} (hpat : pat ≠ "") (new rest : String)
    (hnone : ∀ a b, rest ≠ a ++ pat ++ b) : (pat ++ rest).replace pat new = new ++ rest := by
  have hlawful := ForwardStringSearcher.lawfulToForwardSearcherModel hpat
  have hvalid := hlawful.isValidSearchFrom_toList (pat ++ rest).toSlice
  have hsplit := String.Slice.splits_startPos (pat ++ rest).toSlice
  rw [String.copy_toSlice] at hsplit
  unfold String.replace String.Slice.replace
  rw [← Std.Iter.foldl_toList]
  refine Eq.trans ?_ ((search_replaces new hpat hvalid "" hsplit hnone).trans ?_)
  · refine congrArg (fun f => List.foldl f "" _) (funext fun sofar => funext fun step => ?_)
    cases step <;> rfl
  · rw [String.empty_append]

/-! ## Splitting -/

variable {α : Type} [DecidableEq α]

/-- One part more than there are separators. -/
theorem length_splitOn (sep : α) (l : List α) : (l.splitOn sep).length = l.count sep + 1 := by
  induction l with
  | nil => rfl
  | cons x l ih =>
    rw [List.splitOn_cons_eq_if_modifyHead]
    by_cases hx : x = sep
    · rw [if_pos (by simp [hx]), List.length_cons, ih, hx, List.count_cons_self]
    · rw [if_neg (by simpa using hx), List.length_modifyHead, ih, List.count_cons_of_ne hx]

/-- Two parts are what stands before the separator and behind it. -/
theorem splitOn_pair {sep : α} {l a b : List α} (h : l.splitOn sep = [a, b]) : a ++ sep :: b = l := by
  have hl : [sep].intercalate (l.splitOn sep) = l := List.intercalate_splitOn sep
  rw [h] at hl
  simpa [List.intercalate] using hl

end Codina.Strings
