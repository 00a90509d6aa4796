/-
  Ranges of addresses, and lists of them that do not overlap.

  `Covered l` are the addresses the ranges of `l` take up, `Separate l` says that no two of them meet.
  A range can be put to a separate list exactly when it takes up nothing that is covered
  (`separate_cons`), and taking one off uncovers its addresses and no others (`covered_tail`).  Neither
  depends on the order of the list.

  Nothing here names a particular kind of range.
-/
import Mathlib.Data.List.Perm.Basic

namespace Codina.Ranges

structure Range where
  start : Nat
  size : Nat
deriving DecidableEq

namespace Range

def Has (r : Range) (a : Nat) : Prop := r.start ≤ a ∧ a < r.start + r.size

instance (r : Range) (a : Nat) : Decidable (r.Has a) :=
  inferInstanceAs (Decidable (r.start ≤ a ∧ a < r.start + r.size))

def Disjoint (r r' : Range) : Prop := ∀ a, r.Has a → ¬ r'.Has a

theorem Disjoint.symm {r r' : Range} (h : r.Disjoint r') : r'.Disjoint r := fun a hr' hr => h a hr hr'

/-- A range and what is left of it behind its first `n` addresses. -/
theorem has_split (start : Nat) {n size : Nat} (h : n ≤ size) (a : Nat) :
    Has ⟨start, size⟩ a ↔ Has ⟨start, n⟩ a ∨ Has ⟨start + n, size - n⟩ a := by
  unfold Has
  simp only
  omega

theorem disjoint_split (start n m : Nat) : Disjoint ⟨start, n⟩ ⟨start + n, m⟩ := by
  rintro a ⟨_, hlt⟩ ⟨hge, _⟩
  exact Nat.not_lt_of_le hge hlt

end Range

def Covered (l : List Range) (a : Nat) : Prop := ∃ r ∈ l, r.Has a

abbrev Separate (l : List Range) : Prop := l.Pairwise Range.Disjoint

theorem covered_cons {r : Range} {l : List Range} {a : Nat} :
    Covered (r :: l) a ↔ r.Has a ∨ Covered l a := by
  simp [Covered]

theorem Covered.perm {l l' : List Range} (h : l.Perm l') {a : Nat} : Covered l a ↔ Covered l' a := by
  simp only [Covered, h.mem_iff]

theorem Separate.perm {l l' : List Range} (h : l.Perm l') (hl : Separate l) : Separate l' :=
  h.pairwise hl Range.Disjoint.symm

/-- **One range more**: it takes up nothing that is covered. -/
theorem separate_cons {r : Range} {l : List Range} :
    Separate (r :: l) ↔ (∀ a, r.Has a → ¬ Covered l a) ∧ Separate l := by
  rw [Separate, List.pairwise_cons]
  refine and_congr_left fun _ => ⟨fun h a hr => ?_, fun h r' hr' a hr hhas => ?_⟩
  · rintro ⟨r', hr', hhas⟩
    exact h r' hr' a hr hhas
  · exact h a hr ⟨r', hr', hhas⟩

/-- **One range less**: its addresses are no longer covered. -/
theorem covered_tail {r : Range} {l : List Range} (h : Separate (r :: l)) {a : Nat} :
    Covered l a ↔ Covered (r :: l) a ∧ ¬ r.Has a := by
  rw [covered_cons]
  constructor
  · intro hl
    exact ⟨Or.inr hl, fun hr => (separate_cons.mp h).1 a hr hl⟩
  · rintro ⟨hr | hl, hnot⟩
    · exact absurd hr hnot
    · exact hl

/-- The first `n` addresses of a range, and the rest of it, in its place. -/
theorem covered_split {start n size : Nat} (h : n ≤ size) {l : List Range} {a : Nat} :
    Covered (⟨start, n⟩ :: ⟨start + n, size - n⟩ :: l) a ↔ Covered (⟨start, size⟩ :: l) a := by
  rw [covered_cons, covered_cons, covered_cons, Range.has_split start h, or_assoc]

theorem separate_split {start n size : Nat} (h : n ≤ size) {l : List Range}
    (hl : Separate (⟨start, size⟩ :: l)) :
    Separate (⟨start, n⟩ :: ⟨start + n, size - n⟩ :: l) := by
  obtain ⟨hfree, hsep⟩ := separate_cons.mp hl
  refine separate_cons.mpr ⟨fun a ha => ?_, separate_cons.mpr ⟨fun a ha => ?_, hsep⟩⟩
  · rw [covered_cons]
    rintro (hrest | hcov)
    · exact Range.disjoint_split start n _ a ha hrest
    · exact hfree a ((Range.has_split start h a).mpr (Or.inl ha)) hcov
  · exact hfree a ((Range.has_split start h a).mpr (Or.inr ha))

end Codina.Ranges
