/-
  Lists of keyed elements, edited by key.

  `deleteFirst` removes the first element with a key, and `put` replaces one: it removes the first
  element with the new one's key and appends the new one.  Neither looks further than the first match,
  so what they do is best said for one key at a time: `named k l` are the elements of `l` with key `k`,
  in order, and the edits of one key leave the others' alone.  Over whole lists of edits, the elements
  of a key are dropped from the front (`named_deleteAll`) and then slid along by those put
  (`named_putAll`, `slide`).

  Nothing here names a particular kind of element.
-/
import Mathlib.Data.List.Perm.Basic

namespace Codina.Keyed

variable {α κ : Type} [DecidableEq κ] (key : α → κ)

/-- The elements with key `k`. -/
def named (k : κ) (l : List α) : List α := l.filter fun a => key a = k

def deleteFirst (k : κ) (l : List α) : List α := l.eraseP fun a => key a = k

def put (a : α) (l : List α) : List α := deleteFirst key (key a) l ++ [a]

def deleteAll (ks : List κ) (l : List α) : List α := ks.foldl (fun l k => deleteFirst key k l) l

def putAll (as : List α) (l : List α) : List α := as.foldl (fun l a => put key a l) l

/-- What the elements of one key become when others of that key are put. -/
def slide (l as : List α) : List α := as.foldl (fun l a => l.tail ++ [a]) l

variable {key}

theorem named_append (k : κ) (l l' : List α) : named key k (l ++ l') = named key k l ++ named key k l' :=
  List.filter_append _ _

theorem named_cons_self {k : κ} {a : α} (h : key a = k) (l : List α) :
    named key k (a :: l) = a :: named key k l := List.filter_cons_of_pos (by simpa using h)

theorem named_cons_other {k : κ} {a : α} (h : key a ≠ k) (l : List α) :
    named key k (a :: l) = named key k l := List.filter_cons_of_neg (by simpa using h)

theorem mem_named {k : κ} {a : α} {l : List α} : a ∈ named key k l ↔ a ∈ l ∧ key a = k := by
  simp [named]

/-- A key that no element has. -/
theorem named_eq_nil {k : κ} {l : List α} : named key k l = [] ↔ ∀ a ∈ l, key a ≠ k := by
  simp [named]

theorem count_named [DecidableEq α] (key : α → κ) (a : α) (l : List α) :
    (named key (key a) l).count a = l.count a := List.count_filter (by simp)

theorem deleteFirst_of_forall_ne {k : κ} {l : List α} (h : ∀ a ∈ l, key a ≠ k) :
    deleteFirst key k l = l := List.eraseP_of_forall_not fun a ha => by simpa using h a ha

/-- Lists that hold the same under every key are the same up to order. -/
theorem perm_of_named [DecidableEq α] {l l' : List α} (h : ∀ k, named key k l = named key k l') :
    l.Perm l' := by
  refine List.perm_iff_count.mpr fun a => ?_
  rw [← count_named key a l, h, count_named key a l']

/-- **A deletion**: the key loses its first element, and the other keys nothing. -/
theorem named_deleteFirst (k k' : κ) (l : List α) :
    named key k (deleteFirst key k' l) = if k = k' then (named key k l).tail else named key k l := by
  induction l with
  | nil => split <;> rfl
  | cons a l ih =>
    by_cases ha : key a = k'
    · have hdel : deleteFirst key k' (a :: l) = l := List.eraseP_cons_of_pos (by simpa using ha)
      rw [hdel]
      by_cases hk : k = k'
      · rw [if_pos hk, named_cons_self (ha.trans hk.symm), List.tail_cons]
      · rw [if_neg hk, named_cons_other (fun he => hk (he.symm.trans ha))]
    · have hdel : deleteFirst key k' (a :: l) = a :: deleteFirst key k' l :=
        List.eraseP_cons_of_neg (by simpa using ha)
      rw [hdel]
      by_cases hak : key a = k
      · have hk : k ≠ k' := fun he => ha (hak.trans he)
        rw [if_neg hk] at ih ⊢
        rw [named_cons_self hak, named_cons_self hak, ih]
      · rw [named_cons_other hak, named_cons_other hak, ih]

theorem named_put (k : κ) (a : α) (l : List α) :
    named key k (put key a l) =
      if k = key a then (named key k l).tail ++ [a] else named key k l := by
  rw [put, named_append, named_deleteFirst]
  by_cases hk : k = key a
  · rw [if_pos hk, if_pos hk, named_cons_self hk.symm]
    rfl
  · rw [if_neg hk, if_neg hk, named_cons_other (Ne.symm hk)]
    exact List.append_nil _

/-- Two deletions in either order. -/
theorem named_deleteFirst_comm (k a b : κ) (l : List α) :
    named key k (deleteFirst key a (deleteFirst key b l)) =
      named key k (deleteFirst key b (deleteFirst key a l)) := by
  simp only [named_deleteFirst]
  by_cases ha : k = a
  · rw [if_pos ha, if_pos ha]
    split <;> rfl
  · rw [if_neg ha, if_neg ha]

/-- Elements of different keys put in either order. -/
theorem named_put_comm (k : κ) {a b : α} (hne : key a ≠ key b) (l : List α) :
    named key k (put key a (put key b l)) = named key k (put key b (put key a l)) := by
  simp only [named_put]
  by_cases ha : k = key a
  · have hb : k ≠ key b := fun hb => hne (ha.symm.trans hb)
    rw [if_pos ha, if_pos ha, if_neg hb, if_neg hb]
  · rw [if_neg ha, if_neg ha]

/-- **Deletions by a list of keys**: a key loses as many elements as it is listed. -/
theorem named_deleteAll (k : κ) (ks : List κ) :
    ∀ l : List α, named key k (deleteAll key ks l) = (named key k l).drop (ks.count k) := by
  induction ks with
  | nil => intro l; rfl
  | cons k' ks ih =>
    intro l
    show named key k (deleteAll key ks (deleteFirst key k' l)) = _
    rw [ih, named_deleteFirst, List.count_cons]
    by_cases hk : k = k'
    · rw [if_pos hk, if_pos (by simp [hk]), List.drop_tail]
    · rw [if_neg hk, if_neg (by simpa using Ne.symm hk)]
      rfl

/-- **Elements put one after another**: each key sees those of its own only. -/
theorem named_putAll (k : κ) (as : List α) :
    ∀ l : List α, named key k (putAll key as l) = slide (named key k l) (named key k as) := by
  induction as with
  | nil => intro l; rfl
  | cons a as ih =>
    intro l
    show named key k (putAll key as (put key a l)) = _
    rw [ih, named_put]
    by_cases hk : k = key a
    · rw [if_pos hk, named_cons_self hk.symm]
      rfl
    · rw [if_neg hk, named_cons_other (Ne.symm hk)]

theorem length_slide (as : List α) : ∀ l : List α, as ≠ [] →
    (slide l as).length = max l.length 1 := by
  induction as with
  | nil => intro l h; exact absurd rfl h
  | cons a as ih =>
    intro l _
    have hone : (l.tail ++ [a]).length = max l.length 1 := by
      rw [List.length_append, List.length_tail, List.length_singleton]
      omega
    cases as with
    | nil => exact hone
    | cons b bs =>
      have hrec := ih (l.tail ++ [a]) (by simp)
      rw [hone] at hrec
      show (slide (l.tail ++ [a]) (b :: bs)).length = _
      omega

/-- Over at most one element, the last one put is the only one left. -/
theorem slide_of_length_le (as : List α) : ∀ {l : List α} {a : α}, l.length ≤ 1 →
    as.getLast? = some a → slide l as = [a] := by
  induction as with
  | nil => intro l a _ h; exact absurd h (by simp)
  | cons b bs ih =>
    intro l a hl h
    have htail : l.tail = [] := List.eq_nil_of_length_eq_zero (by rw [List.length_tail]; omega)
    show slide (l.tail ++ [b]) bs = [a]
    rw [htail, List.nil_append]
    cases bs with
    | nil =>
      obtain rfl : b = a := by simpa using h
      rfl
    | cons c cs => exact ih (by simp) (by rwa [List.getLast?_cons_cons] at h)

end Codina.Keyed
