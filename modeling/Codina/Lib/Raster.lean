/-
  Loops that walk pointers through a block of bytes and change bytes on their way.

  A block has a size; reading or writing beyond it is undefined.  `walk` is a counted loop whose
  pointers take one stride a round.  What a program has done to a block is said by `Edits`: the bytes at
  the addresses of a family of places have been changed, each by its own function, and all others are
  as they were.  Places are numbered by whatever is natural (a channel, a pixel, a row and a column),
  so that a nest of loops edits a product of families (`walk_edits`) and programs one after another a
  sum (`Edits.seq`), as long as no two places have one address.

  Nothing here names a particular program.
-/
import Codina.Lib.Faults
import Mathlib.Logic.Function.Basic

namespace Codina.Raster

open Codina.Faults Codina.Faults.Prog

abbrev Byte : Type := BitVec 8

structure Block where
  size : Nat
  byte : Nat → Byte

/-! ## Programs -/

/-- Change the byte at `a`. -/
def poke (a : Nat) (f : Byte → Byte) : Prog Block Unit := do
  let b ← read
  require (a < b.size)
  write { b with byte := Function.update b.byte a (f (b.byte a)) }

/-- `n` rounds, the pointers one stride further each time. -/
def walk {σ π : Type} (stride : π → π) (body : π → Prog σ Unit) : Nat → π → Prog σ Unit
  | 0, _ => return ()
  | n + 1, p => do
    body p
    walk stride body n (stride p)

/-! ## Edits -/

/-- The bytes at the places `P` of the addresses `A` have been changed by `e`, and no others. -/
structure Edits {ι : Type} (P : ι → Prop) (A : ι → Nat) (e : ι → Byte → Byte) (b b' : Block) : Prop where
  size : b'.size = b.size
  at_ : ∀ i, P i → b'.byte (A i) = e i (b.byte (A i))
  off : ∀ a, (∀ i, P i → a ≠ A i) → b'.byte a = b.byte a

/-- Different places have different addresses. -/
def Apart {ι κ : Type} (P : ι → Prop) (A : ι → Nat) (Q : κ → Prop) (B : κ → Nat) : Prop :=
  ∀ i k, P i → Q k → A i ≠ B k

variable {ι κ : Type} {P : ι → Prop} {A : ι → Nat} {e : ι → Byte → Byte} {Q : κ → Prop} {B : κ → Nat}
  {f : κ → Byte → Byte} {b b₁ b' : Block} {C : Prop}

/-- Nothing has been changed. -/
theorem edits_none (hP : ∀ i, ¬ P i) : Edits P A e b b where
  size := rfl
  at_ := fun i hi => absurd hi (hP i)
  off := fun _ _ => rfl

/-- Changing bytes to what they are changes nothing. -/
theorem edits_self (he : ∀ i, P i → e i (b.byte (A i)) = b.byte (A i)) : Edits P A e b b where
  size := rfl
  at_ := fun i hi => (he i hi).symm
  off := fun _ _ => rfl

/-- The same places, numbered otherwise. -/
theorem Edits.reindex (h : Edits P A e b b') (φ : κ → ι) (hφ : ∀ k, Q k → P (φ k))
    (hsurj : ∀ i, P i → ∃ k, Q k ∧ φ k = i) (hB : ∀ k, Q k → B k = A (φ k))
    (hf : ∀ k, Q k → f k = e (φ k)) : Edits Q B f b b' where
  size := h.size
  at_ := fun k hk => by rw [hB k hk, hf k hk, h.at_ (φ k) (hφ k hk)]
  off := fun a ha => h.off a fun i hi => by
    obtain ⟨k, hk, rfl⟩ := hsurj i hi
    exact hB k hk ▸ ha k hk

/-- **One after the other**, at places apart. -/
theorem Edits.seq (h : Edits P A e b b₁) (h' : Edits Q B f b₁ b') (hap : Apart P A Q B) :
    Edits (Sum.elim P Q) (Sum.elim A B) (Sum.elim e f) b b' where
  size := h'.size.trans h.size
  at_ := by
    rintro (i | k) hi
    · exact (h'.off (A i) fun k hk => hap i k hi hk).trans (h.at_ i hi)
    · have hkeep : b₁.byte (B k) = b.byte (B k) := h.off (B k) fun i hi' => (hap i k hi' hi).symm
      exact (h'.at_ k hi).trans (congrArg (f k) hkeep)
  off := fun a ha =>
    (h'.off a fun k hk => ha (.inr k) hk).trans (h.off a fun i hi => ha (.inl i) hi)

theorem poke_edits {a : Nat} {g : Byte → Byte} (ha : a < b.size) :
    Ensures C (poke a g) (fun _ b' => Edits (fun _ : Unit => True) (fun _ => a) (fun _ => g) b b') b := by
  refine ensures_bind (ensures_read (ensures_bind (ensures_require ha (ensures_write ?_))))
  refine ⟨rfl, fun _ _ => Function.update_self .., fun c hc => ?_⟩
  exact Function.update_of_ne (hc () trivial) ..

/-- The pointers of round `k`. -/
def pointer {π : Type} (stride : π → π) (p : π) : Nat → π
  | 0 => p
  | k + 1 => pointer stride (stride p) k

/-- **The loop rule.**  When round `k` edits the places `P k`, and no two rounds edit one address, the
    loop edits them all. -/
theorem walk_edits {π : Type} {stride : π → π} {body : π → Prog Block Unit} {P : Nat → ι → Prop}
    {A : Nat → ι → Nat} {e : Nat → ι → Byte → Byte} {n : Nat} {p : π} {size : Nat} (hsize : b.size = size)
    (hbody : ∀ k < n, ∀ b, b.size = size →
      Ensures C (body (pointer stride p k)) (fun _ b' => Edits (P k) (A k) (e k) b b') b)
    (hap : ∀ j k, j < k → k < n → Apart (P j) (A j) (P k) (A k)) :
    Ensures C (walk stride body n p) (fun _ b' =>
      Edits (fun i : Nat × ι => i.1 < n ∧ P i.1 i.2) (fun i => A i.1 i.2) (fun i => e i.1 i.2) b b') b := by
  induction n generalizing p b P A e with
  | zero => exact ensures_pure (edits_none fun i hi => Nat.not_lt_zero _ hi.1)
  | succ n ih =>
    refine (hbody 0 (Nat.succ_pos n) b hsize).bind fun _ b₁ h₁ => ?_
    have hrest := ih (P := fun k => P (k + 1)) (A := fun k => A (k + 1)) (e := fun k => e (k + 1))
      (p := stride p) (h₁.size.trans hsize) (fun k hk b hb => hbody (k + 1) (Nat.succ_lt_succ hk) b hb)
      fun j k hjk hk => hap (j + 1) (k + 1) (Nat.succ_lt_succ hjk) (Nat.succ_lt_succ hk)
    refine hrest.mono fun _ b' h' => ?_
    have hboth := h₁.seq h' fun i x hi hx => hap 0 (x.1 + 1) (Nat.succ_pos _) (Nat.succ_lt_succ hx.1) i x.2 hi hx.2
    -- round 0 on the left of the sum, round `k + 1` on the right
    refine ⟨hboth.size, ?_, fun a ha => hboth.off a ?_⟩
    · rintro ⟨k, i⟩ ⟨hk, hi⟩
      cases k with
      | zero => exact hboth.at_ (.inl i) hi
      | succ k => exact hboth.at_ (.inr (k, i)) ⟨Nat.lt_of_succ_lt_succ hk, hi⟩
    · rintro (i | ⟨k, i⟩) hi
      · exact ha (0, i) ⟨Nat.succ_pos n, hi⟩
      · exact ha (k + 1, i) ⟨Nat.succ_lt_succ hi.1, hi.2⟩

/-! ## Grids -/

/-- Two rows of a picture have no byte in common. -/
theorem row_apart {p rb j k a c : Nat} (hjk : j < k) (ha : a < rb) : p + j * rb + a ≠ p + k * rb + c := by
  have hmul : (j + 1) * rb ≤ k * rb := Nat.mul_le_mul_right rb hjk
  rw [Nat.add_mul, Nat.one_mul] at hmul
  omega

/-- Byte `c` of the pixel in row `j` and column `i`, with `s` bytes a pixel. -/
def place (p rb s : Nat) (t : Nat × Nat × Nat) : Nat := p + t.1 * rb + t.2.1 * s + t.2.2

/-- The first `n` bytes of the pixels of `h` rows and `w` columns. -/
def Grid (h w n : Nat) (t : Nat × Nat × Nat) : Prop := t.1 < h ∧ t.2.1 < w ∧ t.2.2 < n

/-- Within a row of `w` pixels. -/
theorem column_lt {w s i c n : Nat} (hi : i < w) (hc : c < n) (hn : n ≤ s) : i * s + c < w * s := by
  have hmul : (i + 1) * s ≤ w * s := Nat.mul_le_mul_right s hi
  rw [Nat.add_mul, Nat.one_mul] at hmul
  omega

/-- Two bytes of one pixel row, or of two, have different addresses. -/
theorem place_injective {p rb s w n : Nat} (hn : n ≤ s) (hrow : w * s ≤ rb) {t u : Nat × Nat × Nat}
    (ht : t.2.1 < w) (htc : t.2.2 < n) (hu : u.2.1 < w) (huc : u.2.2 < n)
    (h : place p rb s t = place p rb s u) : t = u := by
  obtain ⟨j, i, c⟩ := t
  obtain ⟨j', i', c'⟩ := u
  replace h : p + j * rb + i * s + c = p + j' * rb + i' * s + c' := h
  have hlt : i * s + c < rb := Nat.lt_of_lt_of_le (column_lt ht htc hn) hrow
  have hlt' : i' * s + c' < rb := Nat.lt_of_lt_of_le (column_lt hu huc hn) hrow
  rcases Nat.lt_trichotomy j j' with hj | rfl | hj
  · exact absurd (by omega) (row_apart (p := p) (c := i' * s + c') hj hlt)
  · rcases Nat.lt_trichotomy i i' with hi | rfl | hi
    · exact absurd h (row_apart hi (Nat.lt_of_lt_of_le htc hn))
    · have hc : c = c' := by omega
      rw [hc]
    · exact absurd h.symm (row_apart hi (Nat.lt_of_lt_of_le huc hn))
  · exact absurd (by omega) (row_apart (p := p) (c := i * s + c) hj hlt')

/-- **A nest of two loops** over the pixels of a grid. -/
theorem grid_edits {π : Type} {down right : π → π} {body : π → Prog Block Unit} {w h rb s n p : Nat} {q : π}
    {e : Nat × Nat × Nat → Byte → Byte} {size : Nat} (hsize : b.size = size) (hn : n ≤ s) (hrow : w * s ≤ rb)
    (hbody : ∀ j < h, ∀ i < w, ∀ b, b.size = size →
      Ensures C (body (pointer right (pointer down q j) i))
        (fun _ b' => Edits (fun c => c < n) (fun c => place p rb s (j, i, c)) (fun c => e (j, i, c)) b b') b) :
    Ensures C (walk down (walk right body w) h q) (fun _ b' => Edits (Grid h w n) (place p rb s) e b b') b := by
  refine (walk_edits (P := fun _ (t : Nat × Nat) => t.1 < w ∧ t.2 < n) (A := fun j t => place p rb s (j, t))
    (e := fun j t => e (j, t)) hsize ?_ ?_).mono fun _ b' hE => hE
  · intro j hj b hb
    refine (walk_edits (P := fun _ c => c < n) (A := fun i c => place p rb s (j, i, c))
      (e := fun i c => e (j, i, c)) hb (fun i hi => hbody j hj i hi) ?_).mono fun _ b' hE => hE
    intro i k hik _ c d hc _
    have hlt : c < s := Nat.lt_of_lt_of_le hc hn
    exact row_apart (p := p + j * rb) hik hlt
  · rintro j k hjk - ⟨i, c⟩ ⟨i', d⟩ ⟨hi, hc⟩ -
    have hlt := Nat.lt_of_lt_of_le (column_lt hi hc hn) hrow
    have hne : p + j * rb + (i * s + c) ≠ p + k * rb + (i' * s + d) := row_apart hjk hlt
    show p + j * rb + i * s + c ≠ p + k * rb + i' * s + d
    rwa [Nat.add_assoc _ (i * s), Nat.add_assoc _ (i' * s)]

theorem pointer_add (s p : Nat) : ∀ k, pointer (· + s) p k = p + k * s
  | 0 => (Nat.zero_mul s).symm ▸ rfl
  | k + 1 => by
    show pointer (· + s) (p + s) k = _
    have : ∀ q, pointer (· + s) q k = q + k * s := fun q => pointer_add s q k
    rw [this, Nat.add_mul]
    omega

theorem pointer_prod {π ρ : Type} (f : π → π) (f' : ρ → ρ) (p : π) (q : ρ) (k : Nat) :
    pointer (fun r : π × ρ => (f r.1, f' r.2)) (p, q) k = (pointer f p k, pointer f' q k) := by
  induction k generalizing p q with
  | zero => rfl
  | succ k ih => exact ih (f p) (f' q)

end Codina.Raster
