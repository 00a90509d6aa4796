/-
  Attempts that succeed when what they need is done, and rounds that retry the failures.

  `attemptAll` attempts the elements of a list in order; an attempt succeeds if everything the element
  needs is done, by the attempts before it among others.  `rounds` goes over a list, then over what has
  failed, then over what has failed again, and so on.

  1. A round over the failures does what a round over the whole list does (`attemptAll_failures`), so
     `n` rounds are one pass over the list written `n` times (`rounds_eq`).

  2. **The crux (`mem_attemptAll_iff`)**: an element is done by a pass over `w` exactly when every chain
     of needs that ends in it is a subsequence of `w`.  The chains say in which order things have to be
     done, and a pass has nothing else to go by.  No order on the elements is assumed: a cycle has
     chains of any length, and no list has them all as subsequences.

  3. In a list without repetitions, a chain is a subsequence of the list written `n` times exactly when
     fewer than `n` of its steps go against the list's order (`sublist_copies_iff`).

  Nothing here names a particular component.
-/
import Mathlib.Data.List.Induction
import Mathlib.Data.List.Nodup

namespace Codina.Retry

variable {α : Type} (needs : α → List α)

/-! ## Chains of needs -/

/-- A chain of elements, each needed by the next one, that ends in `a`. -/
inductive ChainTo : List α → α → Prop
  | single (a : α) : ChainTo [a] a
  | snoc {c : List α} {b : α} (a : α) : ChainTo c b → b ∈ needs a → ChainTo (c ++ [a]) a

variable {needs} in
/-- A chain without its end is empty, or leads to something the end needs. -/
theorem ChainTo.init {c : List α} {a : α} (h : ChainTo needs c a) :
    ∃ pre, c = pre ++ [a] ∧ (pre = [] ∨ ∃ b ∈ needs a, ChainTo needs pre b) := by
  cases h with
  | single => exact ⟨[], rfl, Or.inl rfl⟩
  | @snoc c b _ hc hb => exact ⟨c, rfl, Or.inr ⟨b, hb, hc⟩⟩

/-! ## Subsequences -/

theorem sublist_snoc_iff {c w : List α} {x : α} :
    c.Sublist (w ++ [x]) ↔ c.Sublist w ∨ ∃ pre, c = pre ++ [x] ∧ pre.Sublist w := by
  rw [List.sublist_append_iff]
  constructor
  · rintro ⟨c₁, c₂, rfl, h₁, h₂⟩
    rcases List.sublist_singleton.mp h₂ with rfl | rfl
    · exact Or.inl (by rwa [List.append_nil])
    · exact Or.inr ⟨c₁, rfl, h₁⟩
  · rintro (h | ⟨pre, rfl, h⟩)
    · exact ⟨c, [], (List.append_nil c).symm, h, List.nil_sublist _⟩
    · exact ⟨pre, [x], rfl, h, List.Sublist.refl _⟩

theorem sublist_of_snoc {c w : List α} {a x : α} (h : (c ++ [a]).Sublist (w ++ [x])) :
    c.Sublist w := by
  rcases sublist_snoc_iff.mp h with h | ⟨pre, heq, h⟩
  · exact (List.sublist_append_left c [a]).trans h
  · obtain ⟨rfl, _⟩ := List.append_inj' heq rfl
    exact h

/-- The list, `n` times over. -/
def copies (n : Nat) (w : List α) : List α := (List.replicate n w).flatten

theorem copies_succ (n : Nat) (w : List α) : copies (n + 1) w = w ++ copies n w := by
  unfold copies
  rw [List.replicate_succ, List.flatten_cons]

/-- What is in front of the first match does not count. -/
theorem cons_sublist_append {y : α} {c q r : List α} (hq : y ∉ q) :
    (y :: c).Sublist (q ++ r) ↔ (y :: c).Sublist r := by
  constructor
  · intro h
    obtain ⟨l₁, l₂, heq, h₁, h₂⟩ := List.sublist_append_iff.mp h
    cases l₁ with
    | nil =>
      obtain rfl : y :: c = l₂ := heq
      exact h₂
    | cons z l₁ =>
      obtain ⟨rfl, _⟩ := List.cons.inj heq
      exact absurd (h₁.subset List.mem_cons_self) hq
  · exact fun h => h.trans (List.sublist_append_right q r)

theorem cons_sublist_iff {x : α} {c p q : List α} (hp : x ∉ p) :
    (x :: c).Sublist (p ++ x :: q) ↔ c.Sublist q := by
  rw [cons_sublist_append hp, List.cons_sublist_cons]

variable [DecidableEq α]

/-! ## Attempts -/

/-- Everything that `a` needs is done. -/
def Ready (done : List α) (a : α) : Prop := ∀ b ∈ needs a, b ∈ done

instance (done : List α) (a : α) : Decidable (Ready needs done a) :=
  inferInstanceAs (Decidable (∀ b ∈ needs a, b ∈ done))

def attempt (done : List α) (a : α) : List α :=
  if Ready needs done a then done.insert a else done

/-- One attempt at each element, in order. -/
def attemptAll (done w : List α) : List α := w.foldl (attempt needs) done

/-- The elements whose attempt fails. -/
def failures : List α → List α → List α
  | _, [] => []
  | done, a :: w =>
    if Ready needs done a then failures (done.insert a) w else a :: failures done w

/-- `n` rounds, each over the failures of the one before. -/
def rounds : Nat → List α → List α → List α
  | 0, done, _ => done
  | n + 1, done, w => rounds n (attemptAll needs done w) (failures needs done w)

variable {needs}

theorem subset_attempt (done : List α) (a : α) : done ⊆ attempt needs done a := by
  unfold attempt
  split
  · exact fun b hb => List.mem_insert_of_mem hb
  · exact List.Subset.refl _

theorem attemptAll_cons (done : List α) (a : α) (w : List α) :
    attemptAll needs done (a :: w) = attemptAll needs (attempt needs done a) w := rfl

theorem failures_cons (done : List α) (a : α) (w : List α) :
    failures needs done (a :: w) =
      if Ready needs done a then failures needs (attempt needs done a) w
      else a :: failures needs (attempt needs done a) w := by
  rw [failures]
  unfold attempt
  split <;> rfl

theorem attemptAll_append (done w w' : List α) :
    attemptAll needs done (w ++ w') = attemptAll needs (attemptAll needs done w) w' :=
  List.foldl_append

theorem subset_attemptAll (w : List α) : ∀ done : List α, done ⊆ attemptAll needs done w := by
  induction w with
  | nil => exact fun done => List.Subset.refl _
  | cons a w ih => exact fun done => List.Subset.trans (subset_attempt done a) (ih _)

/-- An attempt at something done changes nothing. -/
theorem attempt_done {done : List α} {a : α} (h : a ∈ done) : attempt needs done a = done := by
  unfold attempt
  rw [List.insert_of_mem h, ite_self]

/-- **The failures are enough.**  Once a list has been gone over, going over its failures does what
    going over all of it does. -/
theorem attemptAll_failures (w : List α) : ∀ {done e : List α}, attemptAll needs done w ⊆ e →
    attemptAll needs e (failures needs done w) = attemptAll needs e w := by
  induction w with
  | nil => exact fun _ => rfl
  | cons a w ih =>
    intro done e he
    rw [attemptAll_cons] at he ⊢
    rw [failures_cons]
    by_cases hr : Ready needs done a
    · have hdone : a ∈ attempt needs done a := by
        unfold attempt
        rw [if_pos hr]
        exact List.mem_insert_self
      rw [if_pos hr, ih he, attempt_done (he (subset_attemptAll w _ hdone))]
    · rw [if_neg hr, attemptAll_cons]
      exact ih (List.Subset.trans he (subset_attempt e a))

/-- The same over several rounds. -/
theorem attemptAll_copies (n : Nat) (w : List α) : ∀ {done e : List α}, attemptAll needs done w ⊆ e →
    attemptAll needs e (copies n (failures needs done w)) = attemptAll needs e (copies n w) := by
  induction n with
  | zero => exact fun _ => rfl
  | succ n ih =>
    intro done e he
    rw [copies_succ, copies_succ, attemptAll_append, attemptAll_append, attemptAll_failures w he]
    exact ih (List.Subset.trans he (subset_attemptAll w e))

/-- **Rounds over the failures are passes over the list.** -/
theorem rounds_eq (n : Nat) : ∀ done w : List α,
    rounds needs n done w = attemptAll needs done (copies n w) := by
  induction n with
  | zero => exact fun _ _ => rfl
  | succ n ih =>
    intro done w
    rw [rounds, ih, copies_succ, attemptAll_append]
    exact attemptAll_copies n w (List.Subset.refl _)

/-! ## What a pass does -/

theorem attemptAll_snoc (done w : List α) (x a : α) :
    a ∈ attemptAll needs done (w ++ [x]) ↔
      a ∈ attemptAll needs done w ∨ a = x ∧ Ready needs (attemptAll needs done w) x := by
  rw [attemptAll_append]
  show a ∈ attempt needs (attemptAll needs done w) x ↔ _
  unfold attempt
  by_cases hr : Ready needs (attemptAll needs done w) x
  · rw [if_pos hr, List.mem_insert_iff]
    constructor
    · rintro (rfl | h)
      · exact Or.inr ⟨rfl, hr⟩
      · exact Or.inl h
    · rintro (h | ⟨rfl, _⟩)
      · exact Or.inr h
      · exact Or.inl rfl
  · rw [if_neg hr]
    exact ⟨Or.inl, fun h => h.elim id fun ⟨_, hr'⟩ => absurd hr' hr⟩

/-- **What a pass does**: everything all of whose chains are subsequences of the list. -/
theorem mem_attemptAll_iff (w : List α) : ∀ a : α,
    a ∈ attemptAll needs [] w ↔ ∀ c, ChainTo needs c a → c.Sublist w := by
  induction w using List.reverseRecOn with
  | nil =>
    intro a
    constructor
    · intro h
      cases h
    · intro h
      have hnil := h [a] (.single a)
      cases hnil
  | append_singleton w x ih =>
    intro a
    rw [attemptAll_snoc]
    constructor
    · rintro (h | ⟨rfl, hr⟩) c hc
      · exact ((ih a).mp h c hc).trans (List.sublist_append_left w [x])
      · obtain ⟨pre, rfl, rfl | ⟨b, hb, hpre⟩⟩ := hc.init
        · exact List.sublist_append_right w [a]
        · exact ((ih b).mp (hr b hb) pre hpre).append_right [a]
    · intro h
      by_cases hw : ∀ c, ChainTo needs c a → c.Sublist w
      · exact Or.inl ((ih a).mpr hw)
      · -- some chain needs the last element of the list, which then is its end
        obtain ⟨c, hc, hnot⟩ : ∃ c, ChainTo needs c a ∧ ¬ c.Sublist w := by simpa using hw
        obtain ⟨pre, rfl, _⟩ := hc.init
        rcases sublist_snoc_iff.mp (h _ hc) with hin | ⟨_, heq, _⟩
        · exact absurd hin hnot
        · obtain ⟨_, hax⟩ := List.append_inj' heq rfl
          obtain rfl : a = x := by simpa using hax
          refine Or.inr ⟨rfl, fun b hb => (ih b).mpr fun c' hc' => ?_⟩
          exact sublist_of_snoc (h _ (.snoc a hc' hb))

/-! ## Steps against the order -/

/-- The steps of a chain that go to an element not behind the one before. -/
def backward (w : List α) : List α → Nat
  | x :: y :: c => (if w.idxOf y ≤ w.idxOf x then 1 else 0) + backward w (y :: c)
  | _ => 0

/-- In a list without repetitions, what is behind `x` has a greater index. -/
theorem idxOf_lt_iff {x y : α} {p q : List α} (hw : (p ++ x :: q).Nodup) (hy : y ∈ p ++ x :: q) :
    (p ++ x :: q).idxOf x < (p ++ x :: q).idxOf y ↔ y ∈ q := by
  have hx : x ∉ p := fun h => (List.nodup_append.mp hw).2.2 x h x List.mem_cons_self rfl
  have hidx : (p ++ x :: q).idxOf x = p.length := by
    rw [List.idxOf_append_of_notMem hx, List.idxOf_cons_self, Nat.add_zero]
  rw [hidx]
  by_cases hyp : y ∈ p
  · have hlt := List.idxOf_lt_length_of_mem hyp
    rw [List.idxOf_append_of_mem hyp]
    refine ⟨fun h => absurd h (by omega), fun hq => ?_⟩
    exact absurd rfl ((List.nodup_append.mp hw).2.2 y hyp y (List.mem_cons_of_mem _ hq))
  · rw [List.idxOf_append_of_notMem hyp]
    by_cases hyx : y = x
    · subst hyx
      rw [List.idxOf_cons_self]
      refine ⟨fun h => absurd h (by omega), fun hq => ?_⟩
      exact absurd hq (List.nodup_cons.mp (List.nodup_append.mp hw).2.1).1
    · rw [List.idxOf_cons_ne _ (Ne.symm hyx)]
      refine ⟨fun _ => ?_, fun _ => by omega⟩
      rcases List.mem_append.mp hy with h | h
      · exact absurd h hyp
      · exact (List.mem_cons.mp h).resolve_left hyx

/-- From `x` on, with what is behind it and `m` more copies. -/
theorem sublist_from_iff {w : List α} (hw : w.Nodup) (c : List α) : ∀ {x : α} {p q : List α} {m : Nat},
    w = p ++ x :: q → (∀ a ∈ c, a ∈ w) →
    (c.Sublist (q ++ copies m w) ↔ backward w (x :: c) ≤ m) := by
  induction c with
  | nil => exact fun _ _ => ⟨fun _ => Nat.zero_le _, fun _ => List.nil_sublist _⟩
  | cons y c ih =>
    intro x p q m hsplit hmem
    have hy : y ∈ w := hmem y List.mem_cons_self
    have hrest : ∀ a ∈ c, a ∈ w := fun a ha => hmem a (List.mem_cons_of_mem _ ha)
    have hlt := idxOf_lt_iff (hsplit ▸ hw) (hsplit ▸ hy)
    rw [← hsplit] at hlt
    unfold backward
    by_cases hyq : y ∈ q
    · -- the step goes on in this copy
      have hidx := hlt.mpr hyq
      rw [if_neg (by omega), Nat.zero_add]
      obtain ⟨q₁, q₂, rfl, hq₁⟩ := List.eq_append_cons_of_mem hyq
      rw [List.append_assoc, List.cons_append, cons_sublist_iff hq₁]
      exact ih (p := p ++ x :: q₁) (by rw [hsplit]; simp) hrest
    · -- the next copy has to begin
      have hidx : ¬ w.idxOf x < w.idxOf y := fun h => hyq (hlt.mp h)
      rw [if_pos (by omega), cons_sublist_append hyq]
      cases m with
      | zero =>
        refine ⟨fun h => ?_, fun h => absurd h (by omega)⟩
        cases h
      | succ m =>
        obtain ⟨p', q', hw', hp'⟩ := List.eq_append_cons_of_mem hy
        rw [copies_succ]
        have hcopy : w ++ copies m w = p' ++ y :: (q' ++ copies m w) := by
          rw [hw', List.append_assoc, List.cons_append]
        rw [hcopy, cons_sublist_iff hp', ih hw' hrest]
        omega

/-- **Copies and steps against the order.** -/
theorem sublist_copies_iff {w : List α} (hw : w.Nodup) {x : α} {c : List α}
    (hmem : ∀ a ∈ x :: c, a ∈ w) (m : Nat) :
    (x :: c).Sublist (copies (m + 1) w) ↔ backward w (x :: c) ≤ m := by
  obtain ⟨p, q, hsplit, hp⟩ := List.eq_append_cons_of_mem (hmem x List.mem_cons_self)
  have hcopy : copies (m + 1) w = p ++ x :: (q ++ copies m w) := by
    rw [copies_succ]
    conv_lhs => rw [hsplit]
    rw [List.append_assoc, List.cons_append, ← hsplit]
  rw [hcopy, cons_sublist_iff hp]
  exact sublist_from_iff hw c hsplit fun a ha => hmem a (List.mem_cons_of_mem _ ha)

end Codina.Retry
