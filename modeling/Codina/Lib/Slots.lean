/-
  Raw memory as a list of slots: `none` is a slot no value lives in.

  Ranges are read with `slice` and written with `overwrite`.  A program that knows what its buffer
  looks like knows it as a concatenation `pre ++ mid ++ post`, so the lemmas are stated for that
  shape: reading or writing at `pre.length` concerns exactly `mid`.

  Nothing here names a particular program.
-/
import Mathlib.Data.List.Basic

namespace Codina.Slots

variable {α : Type}

/-- The `n` slots from `i` on. -/
def slice (s : List α) (i n : Nat) : List α := (s.drop i).take n

/-- `s` with `xs` written over it from `i` on. -/
def overwrite (s : List α) (i : Nat) (xs : List α) : List α := s.take i ++ xs ++ s.drop (i + xs.length)

@[simp] theorem slice_zero (s : List α) (i : Nat) : slice s i 0 = [] := by
  rw [slice, List.take_zero]

theorem slice_append (pre mid post : List α) : slice (pre ++ mid ++ post) pre.length mid.length = mid := by
  rw [slice, List.append_assoc, List.drop_left, List.take_left]

theorem slice_of_eq {s pre mid post : List α} {i n : Nat} (hs : s = pre ++ mid ++ post)
    (hi : pre.length = i) (hn : mid.length = n) : slice s i n = mid := by
  subst hs hi hn
  exact slice_append pre mid post

theorem overwrite_append (pre mid post xs : List α) (hx : xs.length = mid.length) :
    overwrite (pre ++ mid ++ post) pre.length xs = pre ++ xs ++ post := by
  have ht : (pre ++ mid ++ post).take pre.length = pre := by rw [List.append_assoc, List.take_left]
  have hd : (pre ++ mid ++ post).drop (pre.length + mid.length) = post := by
    rw [← List.length_append, List.drop_left]
  rw [overwrite, hx, ht, hd]

theorem overwrite_of_eq {s pre mid post xs : List α} {i : Nat} (hs : s = pre ++ mid ++ post)
    (hi : pre.length = i) (hx : xs.length = mid.length) : overwrite s i xs = pre ++ xs ++ post := by
  subst hs hi
  exact overwrite_append pre mid post xs hx

theorem length_overwrite {s xs : List α} {i : Nat} (h : i + xs.length ≤ s.length) :
    (overwrite s i xs).length = s.length := by
  simp only [overwrite, List.length_append, List.length_take, List.length_drop]
  omega

/-! ## Slots that hold no value -/

section

variable {s : List (Option α)}

/-- No value lives in any of these slots. -/
def Empty (s : List (Option α)) : Prop := ∀ x ∈ s, x = none

instance : Decidable (Empty s) := inferInstanceAs (Decidable (∀ x ∈ s, x = none))

theorem empty_replicate (n : Nat) : Empty (List.replicate n (none : Option α)) :=
  fun _ hx => List.eq_of_mem_replicate hx

theorem empty_nil : Empty ([] : List (Option α)) := fun _ hx => absurd hx List.not_mem_nil

theorem Empty.append {t : List (Option α)} (hs : Empty s) (ht : Empty t) : Empty (s ++ t) := by
  intro x hx
  rcases List.mem_append.mp hx with hx | hx
  · exact hs x hx
  · exact ht x hx

theorem empty_append {t : List (Option α)} : Empty (s ++ t) ↔ Empty s ∧ Empty t :=
  ⟨fun h => ⟨fun x hx => h x (List.mem_append_left _ hx), fun x hx => h x (List.mem_append_right _ hx)⟩,
    fun h => h.1.append h.2⟩

/-- A value lives in every one of these slots. -/
def Full (s : List (Option α)) : Prop := ∀ x ∈ s, x ≠ none

instance : Decidable (Full s) :=
  decidable_of_iff (∀ x ∈ s, x.isSome = true)
    (forall_congr' fun x => imp_congr_right fun _ => by cases x <;> simp)

theorem full_map_some (l : List α) : Full (l.map some) := by
  intro x hx
  obtain ⟨y, -, rfl⟩ := List.mem_map.mp hx
  exact Option.some_ne_none y

end

end Codina.Slots
