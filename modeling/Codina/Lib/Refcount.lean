/-
  Reference-counted cells, and the invariant that makes sharing them safe.

  A heap maps addresses to cells, each with a count and a payload.  The parties that hold a pointer
  are OWNERS: a handle (or none) together with what the owner relies on about the payload.
  `Owned h os` says that the heap is exactly what the owners `os` account for:

  1. the count of a cell is the number of owners whose handle it is, so no cell outlives its last
     owner and none is freed before;
  2. whatever an owner relies on holds of the cell it points at;
  3. nothing is allocated from the allocation frontier on.

  Every rule below is in CONS form: it changes the first owner and leaves the list `os` of the others
  as it is.  Since (2) is part of the invariant for all owners, each rule is a frame rule: what the
  others rely on is untouched.  The one rule that writes (`Owned.write`) asks for count 1.

  Nothing here names a particular program.
-/
import Mathlib.Data.List.Basic
import Mathlib.Data.List.Perm.Basic
import Mathlib.Logic.Function.Basic

namespace Codina.Refcount

structure Cell (P : Type) where
  refs : Nat
  payload : P

structure Heap (P : Type) where
  cells : Nat → Option (Cell P)
  /-- Addresses from here on have never been handed out. -/
  next : Nat

/-- A pointer (or none), and what its holder relies on. -/
structure Owner (P : Type) where
  handle : Option Nat
  sees : P → Prop

section

variable {P : Type}

/-! ## The operations -/

def Heap.empty : Heap P := ⟨fun _ => none, 0⟩

def Heap.put (h : Heap P) (a : Nat) (c : Cell P) : Heap P :=
  { h with cells := Function.update h.cells a (some c) }

def Heap.remove (h : Heap P) (a : Nat) : Heap P :=
  { h with cells := Function.update h.cells a none }

/-- A cell of count 1 at a new address. -/
def Heap.alloc (h : Heap P) (p : P) : Heap P :=
  ⟨Function.update h.cells h.next (some ⟨1, p⟩), h.next + 1⟩

/-- An allocation that fails uses up its address. -/
def Heap.skip (h : Heap P) : Heap P := { h with next := h.next + 1 }

/-- How many owners hold address `a`. -/
def holders (os : List (Owner P)) (a : Nat) : Nat := os.countP fun o => o.handle = some a

@[simp] theorem holders_nil (a : Nat) : holders ([] : List (Owner P)) a = 0 := rfl

theorem holders_cons (o : Owner P) (os : List (Owner P)) (a : Nat) :
    holders (o :: os) a = holders os a + if o.handle = some a then 1 else 0 := by
  simp [holders, List.countP_cons]

theorem holders_eq_zero {os : List (Owner P)} {a : Nat} :
    holders os a = 0 ↔ ∀ o ∈ os, o.handle ≠ some a := by
  simp [holders, List.countP_eq_zero]

def count (h : Heap P) (a : Nat) : Nat := (h.cells a).elim 0 Cell.refs

theorem count_of_cell {h : Heap P} {a : Nat} {c : Cell P} (hc : h.cells a = some c) :
    count h a = c.refs := by
  rw [count, hc]
  rfl

/-! ## The invariant -/

structure Owned (h : Heap P) (os : List (Owner P)) : Prop where
  counted : ∀ a, count h a = holders os a
  live : ∀ a c, h.cells a = some c → 0 < c.refs
  seen : ∀ o ∈ os, ∀ a c, o.handle = some a → h.cells a = some c → o.sees c.payload
  fresh : ∀ a, h.next ≤ a → h.cells a = none

variable {h h' : Heap P} {o : Owner P} {os os' : List (Owner P)} {a : Nat} {φ ψ : P → Prop} {p : P}
  {c : Cell P}

theorem Owned.empty : Owned (Heap.empty : Heap P) [] where
  counted := fun _ => rfl
  live := fun _ _ hc => absurd hc (by simp [Heap.empty])
  seen := fun _ ho => absurd ho List.not_mem_nil
  fresh := fun _ _ => rfl

/-- The order of the owners does not matter. -/
theorem Owned.perm (hO : Owned h os) (hp : os.Perm os') : Owned h os' where
  counted := fun a => (hO.counted a).trans (hp.countP_eq _)
  live := hO.live
  seen := fun o ho => hO.seen o (hp.mem_iff.mpr ho)
  fresh := hO.fresh

/-- An owner's handle is the address of a cell. -/
theorem Owned.cell_of_mem (hO : Owned h os) (ho : o ∈ os) (ha : o.handle = some a) :
    ∃ c, h.cells a = some c ∧ o.sees c.payload := by
  cases hc : h.cells a with
  | some c => exact ⟨c, rfl, hO.seen o ho a c ha hc⟩
  | none =>
    have h0 : holders os a = 0 := by
      rw [← hO.counted a, count, hc]
      rfl
    exact absurd ha (holders_eq_zero.mp h0 o ho)

theorem Owned.cell (hO : Owned h (⟨some a, φ⟩ :: os)) : ∃ c, h.cells a = some c ∧ φ c.payload :=
  hO.cell_of_mem List.mem_cons_self rfl

theorem Owned.lt_next (hO : Owned h os) (hc : h.cells a = some c) : a < h.next := by
  rcases Nat.lt_or_ge a h.next with hlt | hge
  · exact hlt
  · rw [hO.fresh a hge] at hc
    cases hc

/-- The first owner may come to rely on anything that is so. -/
theorem Owned.see (hO : Owned h (⟨some a, φ⟩ :: os)) (hs : ∀ c, h.cells a = some c → ψ c.payload) :
    Owned h (⟨some a, ψ⟩ :: os) where
  counted := fun b => by rw [hO.counted b, holders_cons, holders_cons]
  live := hO.live
  seen := by
    intro o ho b c hb hc
    rcases List.mem_cons.mp ho with rfl | ho
    · cases hb
      exact hs c hc
    · exact hO.seen o (List.mem_cons_of_mem _ ho) b c hb hc
  fresh := hO.fresh

theorem Owned.weaken (hO : Owned h (⟨some a, φ⟩ :: os)) (hs : ∀ p, φ p → ψ p) :
    Owned h (⟨some a, ψ⟩ :: os) :=
  hO.see fun c hc => hs _ (hO.seen _ List.mem_cons_self a c rfl hc)

/-- An owner without a handle accounts for nothing. -/
theorem Owned.of_none (hO : Owned h (⟨none, φ⟩ :: os)) : Owned h os where
  counted := fun b => by rw [hO.counted b, holders_cons, if_neg (by simp), Nat.add_zero]
  live := hO.live
  seen := fun o ho => hO.seen o (List.mem_cons_of_mem _ ho)
  fresh := hO.fresh

theorem Owned.cons_none (hO : Owned h os) : Owned h (⟨none, φ⟩ :: os) where
  counted := fun b => by rw [hO.counted b, holders_cons, if_neg (by simp), Nat.add_zero]
  live := hO.live
  seen := by
    intro o ho b c hb hc
    rcases List.mem_cons.mp ho with rfl | ho
    · cases hb
    · exact hO.seen o ho b c hb hc
  fresh := hO.fresh

/-- The one change every rule is an instance of: the cell at `a` becomes `x`, and the owners `os'`
    account for it. -/
theorem Owned.change {x : Option (Cell P)} {n : Nat} (hO : Owned h os) (hn : h.next ≤ n)
    (han : a < n) (hlive : ∀ c, x = some c → 0 < c.refs)
    (hcount : x.elim 0 Cell.refs = holders os' a) (hothers : ∀ b, b ≠ a → holders os' b = holders os b)
    (hseen : ∀ o ∈ os', ∀ b, o.handle = some b →
      (b = a → ∀ c, x = some c → o.sees c.payload) ∧ (b ≠ a → o ∈ os)) :
    Owned ⟨Function.update h.cells a x, n⟩ os' := by
  have hself : Function.update h.cells a x a = x := Function.update_self ..
  have hother : ∀ b, b ≠ a → Function.update h.cells a x b = h.cells b :=
    fun b hb => Function.update_of_ne hb ..
  refine ⟨?_, ?_, ?_, ?_⟩
  · intro b
    show (Function.update h.cells a x b).elim 0 Cell.refs = _
    by_cases hb : b = a
    · rw [hb, hself, hcount]
    · rw [hother b hb, hothers b hb, ← hO.counted b]
      rfl
  · intro b d hd
    replace hd : Function.update h.cells a x b = some d := hd
    by_cases hb : b = a
    · rw [hb, hself] at hd
      exact hlive d hd
    · exact hO.live b d (hother b hb ▸ hd)
  · intro o ho b d hb hd
    replace hd : Function.update h.cells a x b = some d := hd
    obtain ⟨hat, hoff⟩ := hseen o ho b hb
    by_cases hba : b = a
    · rw [hba, hself] at hd
      exact hat hba d hd
    · exact hO.seen o (hoff hba) b d hb (hother b hba ▸ hd)
  · intro b hb
    have hne : b ≠ a := Nat.ne_of_gt (Nat.lt_of_lt_of_le han hb)
    exact (hother b hne).trans (hO.fresh b (Nat.le_trans hn hb))

theorem holders_cons_self : holders (⟨some a, φ⟩ :: os) a = holders os a + 1 := by
  rw [holders_cons, if_pos rfl]

theorem holders_cons_of_ne {b : Nat} (hb : b ≠ a) :
    holders (⟨some a, φ⟩ :: os) b = holders os b := by
  rw [holders_cons, if_neg fun he => hb (Option.some.inj he).symm, Nat.add_zero]

theorem Owned.holders_eq (hO : Owned h (⟨some a, φ⟩ :: os)) (hc : h.cells a = some c) :
    c.refs = holders os a + 1 := by
  rw [← holders_cons_self (φ := φ), ← hO.counted a, count_of_cell hc]

/-- None of these owners holds `a`. -/
def Alone (os : List (Owner P)) (a : Nat) : Prop := ∀ o ∈ os, o.handle ≠ some a

theorem alone_iff : Alone os a ↔ holders os a = 0 := holders_eq_zero.symm

theorem Alone.cons (ha : Alone os a) (ho : o.handle ≠ some a) : Alone (o :: os) a := by
  intro o' ho'
  rcases List.mem_cons.mp ho' with rfl | ho'
  · exact ho
  · exact ha o' ho'

theorem Alone.tail (ha : Alone (o :: os) a) : Alone os a :=
  fun o' ho' => ha o' (List.mem_cons_of_mem _ ho')

/-- At count 1 nobody else holds the cell. -/
theorem Owned.alone (hO : Owned h (⟨some a, φ⟩ :: os)) (hc : h.cells a = some c)
    (h1 : c.refs = 1) : Alone os a := by
  have := hO.holders_eq hc
  exact alone_iff.mpr (by omega)

/-- Nobody holds an address that was never handed out. -/
theorem Owned.alone_next (hO : Owned h os) : Alone os h.next := by
  rw [alone_iff, ← hO.counted, count, hO.fresh _ (Nat.le_refl _)]
  rfl

/-- An owner that knows exactly what the cell holds. -/
def pts (a : Nat) (p : P) : Owner P := ⟨some a, fun q => q = p⟩

theorem Owned.pts_cell (hO : Owned h (pts a p :: os)) :
    h.cells a = some ⟨holders os a + 1, p⟩ := by
  obtain ⟨⟨n, q⟩, hc, rfl⟩ := hO.cell
  rw [hc, ← hO.holders_eq hc]

/-- What the first owner's cell holds can be named. -/
theorem Owned.exact (hO : Owned h (⟨some a, φ⟩ :: os)) :
    ∃ p, φ p ∧ Owned h (pts a p :: os) := by
  obtain ⟨c, hc, hs⟩ := hO.cell
  refine ⟨c.payload, hs, hO.see fun d hd => ?_⟩
  rw [hc] at hd
  cases hd
  rfl

/-- **Write.**  The only owner may put in the cell what it likes. -/
theorem Owned.write (hO : Owned h (⟨some a, φ⟩ :: os)) (hc : h.cells a = some c) (h1 : c.refs = 1)
    (hp : ψ p) : Owned (h.put a ⟨1, p⟩) (⟨some a, ψ⟩ :: os) := by
  refine hO.change (Nat.le_refl _) (hO.lt_next hc) ?_ ?_ ?_ ?_
  · rintro d ⟨⟩
    exact Nat.one_pos
  · rw [holders_cons_self, ← hO.holders_eq hc, h1]
    rfl
  · intro b hb
    rw [holders_cons_of_ne hb, holders_cons_of_ne hb]
  · intro o ho b hb
    rcases List.mem_cons.mp ho with rfl | ho
    · refine ⟨?_, fun hne => absurd (Option.some.inj hb).symm hne⟩
      rintro - d ⟨⟩
      exact hp
    · exact ⟨fun hba => absurd (hba ▸ hb) (hO.alone hc h1 o ho),
        fun _ => List.mem_cons_of_mem _ ho⟩

/-- **Allocate.** -/
theorem Owned.alloc (hO : Owned h os) (hp : φ p) :
    Owned (h.alloc p) (⟨some h.next, φ⟩ :: os) := by
  have hno := alone_iff.mp hO.alone_next
  refine hO.change (Nat.le_succ _) (Nat.lt_succ_self _) ?_ ?_ ?_ ?_
  · rintro d ⟨⟩
    exact Nat.one_pos
  · rw [holders_cons_self, hno]
    rfl
  · exact fun b hb => holders_cons_of_ne hb
  · intro o ho b hb
    rcases List.mem_cons.mp ho with rfl | ho
    · refine ⟨?_, fun hne => absurd (Option.some.inj hb).symm hne⟩
      rintro - d ⟨⟩
      exact hp
    · exact ⟨fun hba => absurd (hba ▸ hb) (hO.alone_next o ho), fun _ => ho⟩

theorem Owned.skip (hO : Owned h os) : Owned h.skip os where
  counted := hO.counted
  live := hO.live
  seen := hO.seen
  fresh := fun b hb => hO.fresh b (Nat.le_of_succ_le hb)

/-- **Acquire.**  One more owner of the first owner's cell. -/
theorem Owned.acquire (hO : Owned h (⟨some a, φ⟩ :: os)) (hc : h.cells a = some c) :
    Owned (h.put a { c with refs := c.refs + 1 }) (⟨some a, φ⟩ :: ⟨some a, φ⟩ :: os) := by
  refine hO.change (Nat.le_refl _) (hO.lt_next hc) ?_ ?_ ?_ ?_
  · rintro d ⟨⟩
    exact Nat.succ_pos _
  · rw [holders_cons_self, ← hO.counted a, count_of_cell hc]
    rfl
  · exact fun b hb => holders_cons_of_ne hb
  · intro o ho b hb
    have ho : o ∈ ⟨some a, φ⟩ :: os := by simpa using ho
    refine ⟨?_, fun _ => ho⟩
    rintro rfl d ⟨⟩
    exact hO.seen o ho b c hb hc

/-- **Release, shared.**  One owner of several goes. -/
theorem Owned.release_shared (hO : Owned h (⟨some a, φ⟩ :: os)) (hc : h.cells a = some c)
    (h1 : c.refs ≠ 1) : Owned (h.put a { c with refs := c.refs - 1 }) os := by
  have hcnt := hO.holders_eq hc
  refine hO.change (Nat.le_refl _) (hO.lt_next hc) ?_ ?_ ?_ ?_
  · rintro d ⟨⟩
    show 0 < c.refs - 1
    omega
  · show c.refs - 1 = _
    omega
  · exact fun b hb => (holders_cons_of_ne hb).symm
  · intro o ho b hb
    have ho := List.mem_cons_of_mem ⟨some a, φ⟩ ho
    refine ⟨?_, fun _ => ho⟩
    rintro rfl d ⟨⟩
    exact hO.seen o ho b c hb hc

/-- **Release, last.**  The only owner goes, and the cell with it. -/
theorem Owned.release_last (hO : Owned h (⟨some a, φ⟩ :: os)) (hc : h.cells a = some c)
    (h1 : c.refs = 1) : Owned (h.remove a) os := by
  have hcnt := hO.holders_eq hc
  refine hO.change (Nat.le_refl _) (hO.lt_next hc) ?_ ?_ ?_ ?_
  · rintro d ⟨⟩
  · show 0 = _
    omega
  · exact fun b hb => (holders_cons_of_ne hb).symm
  · intro o ho b hb
    refine ⟨?_, fun _ => List.mem_cons_of_mem _ ho⟩
    rintro - d ⟨⟩

theorem put_remove (c : Cell P) : (h.put a c).remove a = h.remove a := by
  show Heap.mk _ _ = Heap.mk _ _
  exact congrArg (Heap.mk · h.next) (Function.update_idem ..)

theorem put_put (c d : Cell P) : (h.put a c).put a d = h.put a d := by
  show Heap.mk _ _ = Heap.mk _ _
  exact congrArg (Heap.mk · h.next) (Function.update_idem ..)

@[simp] theorem put_self (c : Cell P) : (h.put a c).cells a = some c := Function.update_self ..

/-- **No leak.**  A cell lives exactly as long as somebody holds it. -/
theorem Owned.live_iff (hO : Owned h os) : h.cells a ≠ none ↔ ∃ o ∈ os, o.handle = some a := by
  constructor
  · intro hne
    obtain ⟨c, hc⟩ := Option.ne_none_iff_exists'.mp hne
    by_contra hno
    have h0 : holders os a = 0 := holders_eq_zero.mpr fun o ho he => hno ⟨o, ho, he⟩
    have := hO.live a c hc
    rw [← hO.counted a, count_of_cell hc] at h0
    omega
  · rintro ⟨o, ho, he⟩ hno
    obtain ⟨c, hc, -⟩ := hO.cell_of_mem ho he
    rw [hno] at hc
    cases hc

end

end Codina.Refcount
