/-
  How many items a vector moves from buffer to buffer while it grows and shrinks one item at a time.

  The moves are not computed from the sizes: they are read off a run, which has moved the items
  wherever the vector has another buffer after a call than before.  Addresses are never given out
  twice, so no move goes unseen; a `realloc` counts as one although it may extend a buffer where it is.

  Growing leaves room for half as many items again, so the moves are paid for in advance: with
  `3 * count - 2 * capacity` as the potential, every `add` costs three moves at most
  (`addAll_moves`).  The first may also make a private copy of a buffer that is shared.

  Shrinking leaves a buffer of twice the remaining items (four at least), which is also the size below
  which the next `pop` shrinks again: from there on every `pop` moves all the items that are left, and
  emptying the vector moves a quadratic number of them (`popAll_moves`).  That is so for items with a
  copy or a destructor of their own; a buffer of others may be resized where it is.
-/
import Mathlib.Tactic.Ring
import Codina.Utils.VectorOps

namespace Codina.Utils.VectorImpl

open Codina.Faults Codina.Faults.Prog Codina.Refcount Codina.Slots Codina.Utils.SharedBuffer

variable {α : Type} (P : Platform) (T : Traits α)

/-- The items a call has moved: those that the vector had and still has, where its buffer is another
    one. -/
def moved (v v' : VectorImpl) : Nat := if v'.mStorage = v.mStorage then 0 else min v.mCount v'.mCount

/-- Add items one by one, and count the moves. -/
def addAll : List α → VectorImpl → M α (VectorImpl × Nat)
  | [], v => return (v, 0)
  | x :: xs, v => do
    let (v', _) ← add P T v (some (.outside [x]))
    let (v'', n) ← addAll xs v'
    return (v'', moved v v' + n)

/-- Pop items one by one.  Every call is reported with its moves and the capacity it leaves. -/
def popAll : Nat → VectorImpl → M α (VectorImpl × List (Nat × Nat))
  | 0, v => return (v, [])
  | n + 1, v => do
    let v' ← pop P T v
    let cap ← capacity T v'
    let (v'', rest) ← popAll n v'
    return (v'', (moved v v', cap) :: rest)

variable {P T} {h : Memory α} {os : List (Owner (SharedBuffer α))} {v : VectorImpl} {l : List α}
  {A : Prop}

/-! ## Growing -/

/-- The moves put by for the next growth. -/
def potential (count cap : Nat) : Nat := 3 * count - 2 * cap

/-- The items of a buffer that is shared: the vector takes a copy of them before it writes. -/
def sharedItems (h : Memory α) (v : VectorImpl) : Nat :=
  match v.mStorage with
  | some a => if count h a = 1 then 0 else v.mCount
  | none => 0

theorem Rep.count_buffer {a : Nat} (hr : Rep P T h v l os) (ha : v.mStorage = some a) :
    Refcount.count h a = holders os a + 1 :=
  (hr.owned.counted a).trans ((holders_cons _ os a).trans (by rw [if_pos (show (own P T v l).handle = _ from ha)]))

/-- A vector that is alone with its buffer shares nothing. -/
theorem sharedItems_of_alone {a : Nat} (hr : Rep P T h v l os) (ha : v.mStorage = some a)
    (hal : Alone os a) : sharedItems h v = 0 := by
  rw [sharedItems, ha]
  exact if_pos (by rw [hr.count_buffer ha, alone_iff.mp hal])

/-- What `add` moves: everything where the buffer is full, and otherwise what is shared. -/
theorem moved_le {v' : VectorImpl} {b : Nat} (hr : Rep P T h v l os) (hb : v'.mStorage = some b)
    (hs : Settled os (l.length + 1 ≤ capOf T h v) v.mStorage b) :
    moved v v' ≤ (if capOf T h v < l.length + 1 then l.length else 0) + sharedItems h v := by
  unfold moved
  by_cases hsame : v'.mStorage = v.mStorage
  · rw [if_pos hsame]
    exact Nat.zero_le _
  rw [if_neg hsame, hr.count]
  by_cases hfull : capOf T h v < l.length + 1
  · rw [if_pos hfull]
    omega
  rw [if_neg hfull]
  cases hst : v.mStorage with
  | none =>
    rw [hr.null hst]
    exact Nat.le_trans (Nat.min_le_left ..) (Nat.zero_le _)
  | some a =>
    have hshared : count h a ≠ 1 := by
      intro h1
      have hholds := hr.count_buffer hst
      have hba := hs.kept (Nat.le_of_not_lt hfull) a hst (alone_iff.mpr (by omega))
      exact hsame (by rw [hb, hst, hba])
    rw [sharedItems, hst]
    show _ ≤ 0 + if count h a = 1 then 0 else v.mCount
    rw [if_neg hshared, hr.count]
    omega

/-- Growing is paid for by the potential. -/
theorem add_amortized {n cap : Nat} (hle : n ≤ cap) :
    (if cap < n + 1 then n else 0) + potential (n + 1) (grownTo cap (n + 1)) ≤ 3 + potential n cap := by
  unfold grownTo potential
  by_cases hfull : cap < n + 1
  · have hgrown := le_grownCapacity (n + 1)
    rw [if_pos hfull, if_pos hfull]
    omega
  · rw [if_neg hfull, if_neg hfull]
    omega

/-- **Adding is cheap.**  On a machine that refuses no request, items added one by one to any vector
    move no more than three items each, beside what the vector owed before: its potential, and one copy
    of the items it shared. -/
theorem addAll_moves (hfree : ¬ Refused P) : ∀ (xs : List α) {v : VectorImpl} {l : List α} {h : Memory α},
    Rep P T h v l os → Ensures (Oversize P T (l.length + xs.length)) (addAll P T xs v)
      (fun r h' => Rep P T h' r.1 (l ++ xs) os ∧
        r.2 ≤ 3 * xs.length + potential l.length (capOf T h v) + sharedItems h v) h
  | [], v, l, h, hr => by
    refine ensures_pure ⟨?_, Nat.zero_le _⟩
    rw [List.append_nil]
    exact hr
  | x :: xs, v, l, h, hr => by
    have hroom : l.length + 1 ≤ l.length + (x :: xs).length := by
      rw [List.length_cons]
      omega
    have hspec : Ensures (Oversize P T (l.length + (x :: xs).length)) (add P T v (some (.outside [x])))
        (Inserts P T os v.mStorage l l.length (capOf T h v) [x]) h := by
      rw [add, hr.count]
      exact insertAt_spec hr (Nat.le_refl _) (fun _ => supplies_outside [x]) (fun h0 => by cases h0)
        fun he => (he.resolve_left hfree).mono hroom
    refine hspec.bind ?_
    rintro ⟨v', status⟩ h₁ (⟨-, hrep, -, hcap, b, hb, hset⟩ | ⟨-, -, hwhy⟩)
    · rw [List.take_length, List.drop_length, List.append_nil] at hrep
      have hlen : (l ++ [x]).length = l.length + 1 := by rw [List.length_append, List.length_singleton]
      have hrest := addAll_moves hfree xs hrep
      rw [hlen, show l.length + 1 + xs.length = l.length + (x :: xs).length by
        rw [List.length_cons]; omega, hcap, sharedItems_of_alone hrep hb hset.alone] at hrest
      refine hrest.bind ?_
      rintro ⟨v'', n⟩ h₂ ⟨hrep₂, hn⟩
      refine ensures_pure ⟨?_, ?_⟩
      · rwa [List.append_assoc, List.singleton_append] at hrep₂
      · have hstep := add_amortized hr.le_capOf
        have hmoved : moved v v' ≤ _ := moved_le hr hb hset
        show moved v v' + n ≤ _
        rw [List.length_cons]
        replace hn : n ≤ _ := hn
        have hone : [x].length = 1 := rfl
        rw [hone] at hn
        omega
    · exact absurd (hwhy.resolve_left hfree).1 (List.cons_ne_nil x [])

theorem addAll_moves_three : Ensures (Oversize ample numbers 6) (addAll ample numbers [4, 5, 6] ⟨some 0, 3⟩)
    (fun r h' => Rep ample numbers h' r.1 [1, 2, 3, 4, 5, 6] [] ∧ r.2 ≤ 10)
    (boxed [1, 2, 3] 1) :=
  addAll_moves not_refused_ample [4, 5, 6] (rep_boxed [1, 2, 3] 1 (by decide))

/-! ## Shrinking -/

/-- Below its half a buffer of at least the least capacity shrinks to the double of what is left. -/
theorem shrunkTo_of_half {n cap : Nat} (hlt : n < cap / 2) (hcap : kMinVectorCapacity ≤ cap)
    (hfit : cap * T.itemSize < 0x100000000) : shrunkTo T cap n = max kMinVectorCapacity (n * 2) := by
  have hle : max kMinVectorCapacity (n * 2) ≤ cap := by omega
  have hmul := Nat.mul_le_mul_right T.itemSize hle
  rw [shrunkTo, if_pos hlt, Nat.mod_eq_of_lt (by omega), Nat.mul_div_cancel _ T.itemSize_pos]

/-- The bytes of a vector's buffer. -/
theorem Rep.cap_fits (hr : Rep P T h v l os) : capOf T h v * T.itemSize < SIZE_MAX - P.header ∨
    capOf T h v = 0 := by
  obtain ⟨rfl, rfl, -⟩ | ⟨a, p, rfl, hp, hO⟩ := hr.cases
  · exact .inr rfl
  · rw [capOf_pts hO]
    exact .inl (Nat.lt_of_le_of_lt (Nat.div_mul_le_self ..) hp.size)

theorem capacity_rep {Q : Nat → Memory α → Prop} (hr : Rep P T h v l os) (hq : Q (capOf T h v) h) :
    Ensures A (capacity T v) Q h := by
  obtain ⟨rfl, rfl, -⟩ | ⟨a, p, rfl, hp, hO⟩ := hr.cases
  · exact capacity_none hq
  · refine capacity_spec hO ?_
    rw [capOf_pts hO] at hq
    exact hq

/-- What `n` pops report where each moves all that is left, and leaves room for twice as much. -/
def emptied : Nat → List (Nat × Nat)
  | 0 => []
  | n + 1 => (n, max kMinVectorCapacity (n * 2)) :: emptied n

theorem moves_emptied : ∀ n : Nat, 2 * ((emptied n).map Prod.fst).sum = n * (n - 1)
  | 0 => rfl
  | n + 1 => by
    rw [emptied, List.map_cons, List.sum_cons, Nat.mul_add, moves_emptied n]
    cases n with
    | zero => rfl
    | succ m =>
      simp only [Nat.add_sub_cancel]
      ring

/-- **Popping is not.**  On a machine that refuses no request, a vector of items with a copy or a
    destructor that fills no more than half of its buffer moves all that is left at every `pop`, to a
    buffer for twice as much: emptying it item by item moves `n * (n - 1) / 2` items. -/
theorem popAll_moves (hfree : ¬ Refused P) (hown : ¬ Plain T) : ∀ (n : Nat) {v : VectorImpl} {l : List α}
    {h : Memory α}, Rep P T h v l os → l.length = n → kMinVectorCapacity ≤ capOf T h v →
    2 * n ≤ capOf T h v →
    Ensures False (popAll P T n v) (fun r h' => Rep P T h' r.1 [] os ∧ r.2 = emptied n ∧
      2 * (r.2.map Prod.fst).sum = n * (n - 1)) h
  | 0, v, l, h, hr, hl, _, _ => by
    rw [List.length_eq_zero_iff.mp hl] at hr
    exact ensures_pure ⟨hr, rfl, rfl⟩
  | n + 1, v, l, h, hr, hl, h4, hhalf => by
    have hsize := hr.cap_fits.resolve_right (by unfold kMinVectorCapacity at h4; omega)
    have hmax : SIZE_MAX - P.header ≤ 0xFFFFFFFF := Nat.sub_le ..
    have hover : Exhausted P T 0 → False := by
      rintro (hf | ho)
      · exact hfree hf
      · have h0 : grownCapacity 0 ≤ capOf T h v := h4
        have := Nat.mul_le_mul_right T.itemSize h0
        unfold Oversize at ho
        omega
    have hspec : Ensures False (pop P T v)
        (fun v' h' => Removes P T os v.mStorage l n 1 (capOf T h v) v' h') h := by
      refine ensures_ite (fun _ => ?_) fun h0 => absurd (hr.count.trans hl) (by
        rw [Decidable.of_not_not h0]; omega)
      rw [hr.count, hl]
      exact (removeItemsAt_spec hr (by omega) (fun h0 => by cases h0) hover).bind
        fun r h' hq => ensures_pure hq.2
    refine hspec.bind ?_
    rintro v' h₁ (⟨hrep, hcap, hother⟩ | ⟨-, href⟩)
    · have hleft : (l.take n ++ l.drop (n + 1)).length = n := by
        rw [length_removed (by omega), hl]
        rfl
      have hlt : n < capOf T h v / 2 := by omega
      rw [hl, Nat.add_sub_cancel] at hcap hother
      rw [shrunkTo_of_half hlt h4 (by omega)] at hcap
      have hmoved : moved v v' = n := by
        rw [moved, if_neg (hother hown hlt), hr.count, hrep.count, hleft, hl]
        omega
      refine ensures_bind (capacity_rep hrep ((popAll_moves hfree hown n hrep hleft
        (by rw [hcap]; exact Nat.le_max_left ..) (by rw [hcap]; omega)).bind ?_))
      rintro ⟨v'', rest⟩ h₂ ⟨hrep₂, hrest, -⟩
      replace hrest : rest = emptied n := hrest
      have hall : (moved v v', capOf T h₁ v') :: rest = emptied (n + 1) := by
        rw [hmoved, hcap, hrest, emptied]
      refine ensures_pure ⟨hrep₂, hall, ?_⟩
      show 2 * (((moved v v', capOf T h₁ v') :: rest).map Prod.fst).sum = _
      rw [hall]
      exact moves_emptied (n + 1)
    · exact absurd href hfree

theorem popAll_moves_four : Ensures False (popAll ample numbers 4 ⟨some 0, 4⟩)
    (fun r h' => Rep ample numbers h' r.1 [] [] ∧ r.2 = [(3, 6), (2, 4), (1, 4), (0, 4)] ∧
      2 * (r.2.map Prod.fst).sum = 12) (boxed [1, 2, 3, 4] 4) :=
  popAll_moves not_refused_ample (fun hp => absurd hp.1 Bool.false_ne_true) 4
    (rep_boxed [1, 2, 3, 4] 4 (by decide)) rfl (by decide) (by decide)

end Codina.Utils.VectorImpl
